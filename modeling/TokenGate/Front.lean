/-!
# What follows a given beginning

* `after? front xs`   the rest of `xs` behind `front`, if it starts with that.
-/

namespace TokenGate

variable {α : Type} [DecidableEq α]

def after? (front xs : List α) : Option (List α) :=
  if xs.take front.length = front then some (xs.drop front.length) else none

theorem after?_eq_some_iff {front xs rest : List α} :
    after? front xs = some rest ↔ xs = front ++ rest := by
  constructor
  · intro h
    simp only [after?, Option.ite_none_right_eq_some, Option.some.injEq] at h
    rw [← h.2]
    conv => lhs; rw [← List.take_append_drop front.length xs, h.1]
  · rintro rfl
    simp [after?]

theorem after?_append (front rest : List α) : after? front (front ++ rest) = some rest :=
  after?_eq_some_iff.mpr rfl

end TokenGate
