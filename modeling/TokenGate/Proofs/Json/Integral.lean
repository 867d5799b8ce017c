import TokenGate.Json.Number

/-!
# Literals of integers

* `Literal.Integral`      a literal without point and exponent, and not a negative zero;
* `Literal.integer`       the number that its sign and digits spell;
* `value?_eq_int_iff`     a literal has an integer value if and only if it is integral and its
                          number fits 64 bits, and then the value is this number.
-/

namespace TokenGate.Json

open Text.Integer (maxSigned maxUnsigned)

namespace Literal

def integer (l : Literal) : Int := signed l.negative (ofDigits l.whole)

structure Integral (l : Literal) : Prop where
  fraction : l.fraction = none
  exponent : l.exponent = none
  noNegativeZero : l.negative = true → ofDigits l.whole ≠ 0

/-- 64 bits, signed or unsigned -/
def Fits (n : Int) : Prop := -(maxSigned + 1) ≤ n ∧ n ≤ maxUnsigned

/-- what is read as a real number is no integer -/
theorem real?_ne_int (l : Literal) (n : Int) : l.real? ≠ some (.int n) := by
  unfold real?
  dsimp only
  split <;> split <;> simp

theorem value?_eq_int_iff {l : Literal} {n : Int} :
    l.value? = some (.int n) ↔ l.Integral ∧ n = l.integer ∧ Fits n := by
  have hreal := l.real?_ne_int n
  obtain ⟨negative, whole, fraction, exponent⟩ := l
  unfold value?
  by_cases hf : fraction.isSome ∨ exponent.isSome
  · simp only [hf, ↓reduceIte, hreal, false_iff, not_and]
    intro hx
    obtain ⟨rfl, rfl, _⟩ := hx
    simp at hf
  · have hi : fraction = none ∧ exponent = none := by simpa using hf
    obtain ⟨rfl, rfl⟩ := hi
    simp only [hf, ↓reduceIte]
    cases negative with
    | true =>
      by_cases hn : 0 < ofDigits whole ∧ ofDigits whole ≤ maxSigned + 1
      · rw [if_pos rfl, if_pos hn, Option.some.injEq, Json.int.injEq]
        constructor
        · rintro rfl
          refine ⟨⟨rfl, rfl, fun _ => Nat.ne_of_gt hn.1⟩, rfl, ?_⟩
          show -(maxSigned + 1 : Int) ≤ -(ofDigits whole : Int)
            ∧ -(ofDigits whole : Int) ≤ maxUnsigned
          omega
        · exact fun h => h.2.1.symm
      · rw [if_pos rfl, if_neg hn]
        simp only [hreal, false_iff, not_and]
        rintro ⟨_, _, hz⟩ rfl ⟨hlow, _⟩
        have hlow' : -(maxSigned + 1 : Int) ≤ -(ofDigits whole : Int) := hlow
        exact hn ⟨Nat.pos_of_ne_zero (hz rfl), by omega⟩
    | false =>
      by_cases hn : ofDigits whole ≤ maxUnsigned
      · rw [if_neg Bool.false_ne_true, if_pos hn, Option.some.injEq, Json.int.injEq]
        constructor
        · rintro rfl
          refine ⟨⟨rfl, rfl, nofun⟩, rfl, ?_⟩
          show -(maxSigned + 1 : Int) ≤ (ofDigits whole : Int)
            ∧ (ofDigits whole : Int) ≤ maxUnsigned
          omega
        · exact fun h => h.2.1.symm
      · rw [if_neg Bool.false_ne_true, if_neg hn]
        simp only [hreal, false_iff, not_and]
        rintro _ rfl ⟨_, hhigh⟩
        have hhigh' : (ofDigits whole : Int) ≤ maxUnsigned := hhigh
        exact hn (by omega)

end Literal

end TokenGate.Json
