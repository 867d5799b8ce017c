import TokenGate.Failure

/-!
# Checks in a row

* `bind_eq_ok_iff`, `bind_eq_error_iff`   a step that may fail, with what comes after it;
* `FirstFails rs k`   of the conditions `rs`, each with the failure it stands for, the first one
                      that does not hold stands for `k`;
* `Decides rs x`      `x` is an error of the first failure of `rs`, and none if there is none.

A list of conditions has at most one first failure, and has one unless they all hold, so that
`Decides` fixes which results are errors (`eq_error_iff`, `isOk_iff`).
-/

namespace TokenGate.Checks

variable {ε δ α β : Type}

/-! ## steps that may fail -/

theorem bind_eq_ok_iff {x : Except ε α} {next : α → Except ε β} {b : β} :
    x >>= next = .ok b ↔ ∃ a, x = .ok a ∧ next a = .ok b := by
  constructor
  · intro h
    cases x with
    | error e => cases h
    | ok a => exact ⟨a, rfl, h⟩
  · intro hx
    obtain ⟨a, rfl, h⟩ := hx
    exact h

theorem bind_eq_error_iff {x : Except ε α} {next : α → Except ε β} {e : ε} :
    x >>= next = .error e ↔ x = .error e ∨ ∃ a, x = .ok a ∧ next a = .error e := by
  constructor
  · intro h
    cases x with
    | error e' =>
      cases h
      exact .inl rfl
    | ok a => exact .inr ⟨a, rfl, h⟩
  · rintro (rfl | ⟨a, rfl, h⟩)
    · rfl
    · exact h

theorem ok_bind (a : α) (next : α → Except ε β) : (.ok a : Except ε α) >>= next = next a := rfl

theorem map_eq_ok_iff {f : α → β} {x : Except ε α} {b : β} :
    x.map f = .ok b ↔ ∃ a, x = .ok a ∧ f a = b := by
  cases x <;> simp [Except.map]

theorem mapError_eq_ok_iff {f : ε → δ} {x : Except ε α} {a : α} :
    x.mapError f = .ok a ↔ x = .ok a := by
  cases x with
  | error e =>
    constructor <;> intro h <;> cases h
  | ok b =>
    show Except.ok b = .ok a ↔ _
    rw [Except.ok.injEq, Except.ok.injEq]

theorem mapError_eq_error_iff {f : ε → δ} {x : Except ε α} {d : δ} :
    x.mapError f = .error d ↔ ∃ e, x = .error e ∧ f e = d := by
  cases x with
  | error e =>
    show Except.error (f e) = .error d ↔ _
    simp
  | ok a =>
    constructor
    · intro h
      cases h
    · intro hx
      obtain ⟨e, h, _⟩ := hx
      cases h

theorem mapError_bind (f : ε → δ) (x : Except ε α) (next : α → Except ε β) :
    (x >>= next).mapError f = x.mapError f >>= fun a => (next a).mapError f := by
  cases x <;> rfl

theorem mapError_mapError {γ : Type} (f : ε → δ) (h : δ → γ) (x : Except ε α) :
    (x.mapError f).mapError h = x.mapError fun e => h (f e) := by
  cases x <;> rfl

/-! ## the first failure -/

def FirstFails (rs : List (Failure × Prop)) (kind : Failure) : Prop :=
  ∃ before condition after, rs = before ++ (kind, condition) :: after
    ∧ (∀ r ∈ before, r.2) ∧ ¬ condition

theorem not_firstFails_nil (kind : Failure) : ¬ FirstFails [] kind := by
  intro hx
  obtain ⟨before, condition, after, h, _⟩ := hx
  simp at h

theorem firstFails_cons {k : Failure} {p : Prop} {rs : List (Failure × Prop)} {kind : Failure} :
    FirstFails ((k, p) :: rs) kind ↔ (¬ p ∧ k = kind) ∨ (p ∧ FirstFails rs kind) := by
  constructor
  · intro hx
    obtain ⟨before, condition, after, h, hb, hc⟩ := hx
    cases before with
    | nil =>
      rw [List.nil_append, List.cons.injEq, Prod.mk.injEq] at h
      exact .inl ⟨h.1.2 ▸ hc, h.1.1⟩
    | cons r before =>
      rw [List.cons_append, List.cons.injEq] at h
      obtain ⟨rfl, rfl⟩ := h
      exact .inr ⟨hb _ (List.mem_cons_self ..),
        before, condition, after, rfl, fun r hr => hb r (List.mem_cons_of_mem _ hr), hc⟩
  · rintro (⟨hp, rfl⟩ | ⟨hp, before, condition, after, rfl, hb, hc⟩)
    · exact ⟨[], p, rs, rfl, fun r hr => absurd hr List.not_mem_nil, hp⟩
    · refine ⟨(k, p) :: before, condition, after, rfl, fun r hr => ?_, hc⟩
      rcases List.mem_cons.mp hr with rfl | hr
      · exact hp
      · exact hb r hr

theorem firstFails_unique {rs : List (Failure × Prop)} {k₁ k₂ : Failure} (h₁ : FirstFails rs k₁)
    (h₂ : FirstFails rs k₂) : k₁ = k₂ := by
  induction rs with
  | nil => exact absurd h₁ (not_firstFails_nil k₁)
  | cons r rs ih =>
    rcases firstFails_cons.mp h₁ with ⟨hn, e₁⟩ | ⟨hp, h₁⟩
    · rcases firstFails_cons.mp h₂ with ⟨_, e₂⟩ | ⟨hp, _⟩
      · exact e₁.symm.trans e₂
      · exact absurd hp hn
    · rcases firstFails_cons.mp h₂ with ⟨hn, _⟩ | ⟨_, h₂⟩
      · exact absurd hp hn
      · exact ih h₁ h₂

theorem not_firstFails_of_all {rs : List (Failure × Prop)} (h : ∀ r ∈ rs, r.2)
    (kind : Failure) : ¬ FirstFails rs kind := by
  intro hx
  obtain ⟨before, condition, after, rfl, _, hc⟩ := hx
  exact hc (h _ (List.mem_append_right _ (List.mem_cons_self ..)))

/-! ## results that a list of conditions decides -/

def Decides (rs : List (Failure × Prop)) : Except Failure α → Prop
  | .ok _ => ∀ r ∈ rs, r.2
  | .error kind => FirstFails rs kind

theorem decides_nil (a : α) : Decides [] (.ok a) := fun _ hr => absurd hr List.not_mem_nil

/-- a single check, the faults of which are of one kind -/
theorem decides_check {kind : Failure} {p : Prop} {x : Except ε α} {toKind : ε → Failure}
    (hk : ∀ e, x = .error e → toKind e = kind) (hp : p ↔ ∃ a, x = .ok a) :
    Decides [(kind, p)] (x.mapError toKind) := by
  cases x with
  | ok a =>
    intro r hr
    rw [List.mem_singleton.mp hr]
    exact hp.mpr ⟨a, rfl⟩
  | error e =>
    have hn : ¬ p := by
      intro h
      obtain ⟨a, ha⟩ := hp.mp h
      cases ha
    exact firstFails_cons.mpr (.inl ⟨hn, (hk e rfl).symm⟩)

theorem firstFails_append {rs rs' : List (Failure × Prop)} {kind : Failure} :
    FirstFails rs kind → FirstFails (rs ++ rs') kind := by
  intro hx
  obtain ⟨before, condition, after, rfl, hb, hc⟩ := hx
  exact ⟨before, condition, after ++ rs', by simp, hb, hc⟩

theorem firstFails_append_of_all {rs rs' : List (Failure × Prop)} {kind : Failure}
    (h : ∀ r ∈ rs, r.2) : FirstFails rs' kind → FirstFails (rs ++ rs') kind := by
  intro hx
  obtain ⟨before, condition, after, rfl, hb, hc⟩ := hx
  refine ⟨rs ++ before, condition, after, by simp, fun r hr => ?_, hc⟩
  rcases List.mem_append.mp hr with hr | hr
  · exact h r hr
  · exact hb r hr

theorem decides_bind {rs rs' : List (Failure × Prop)} {x : Except Failure α}
    {next : α → Except Failure β} (hx : Decides rs x)
    (hn : ∀ a, x = .ok a → Decides rs' (next a)) : Decides (rs ++ rs') (x >>= next) := by
  cases x with
  | error k => exact firstFails_append hx
  | ok a =>
    rw [ok_bind]
    have h := hn a rfl
    cases hb : next a with
    | error k =>
      rw [hb] at h
      exact firstFails_append_of_all hx h
    | ok b =>
      rw [hb] at h
      intro r hr
      rcases List.mem_append.mp hr with hr | hr
      · exact hx r hr
      · exact h r hr

/-- a check in front of others -/
theorem decides_cons {kind : Failure} {p : Prop} {rs : List (Failure × Prop)} {x : Except ε α}
    {toKind : ε → Failure} {next : α → Except Failure β}
    (hk : ∀ e, x = .error e → toKind e = kind) (hp : p ↔ ∃ a, x = .ok a)
    (hn : ∀ a, x = .ok a → Decides rs (next a)) :
    Decides ((kind, p) :: rs) (x.mapError toKind >>= next) := by
  show Decides ([(kind, p)] ++ rs) _
  exact decides_bind (decides_check hk hp) fun a ha => hn a (mapError_eq_ok_iff.mp ha)

theorem eq_error_iff {rs : List (Failure × Prop)} {x : Except Failure α} (h : Decides rs x)
    {kind : Failure} : x = .error kind ↔ FirstFails rs kind := by
  cases x with
  | ok a =>
    constructor
    · intro e
      cases e
    · intro hk
      exact absurd hk (not_firstFails_of_all h kind)
  | error k =>
    constructor
    · intro e
      cases e
      exact h
    · intro hk
      rw [firstFails_unique h hk]

theorem isOk_iff {rs : List (Failure × Prop)} {x : Except Failure α} (h : Decides rs x) :
    (∃ a, x = .ok a) ↔ ∀ r ∈ rs, r.2 := by
  cases x with
  | ok a => exact ⟨fun _ => h, fun _ => ⟨a, rfl⟩⟩
  | error k =>
    constructor
    · intro hx
      obtain ⟨a, e⟩ := hx
      cases e
    · intro ha
      exact absurd h (not_firstFails_of_all ha k)

end TokenGate.Checks
