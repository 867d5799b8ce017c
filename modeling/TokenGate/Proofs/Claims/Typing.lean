import TokenGate.Claims.Basic
import TokenGate.Proofs.Checks

/-!
# When a payload has claims

* `Claims.WellTyped p`    each registered claim of `p` that is there has its type;
* `Claims.Of c p`         `c` are the claims of `p`: what stands in `p` under each name, and nothing
                          where `p` has no such member;
* `ofPayload_eq_ok_iff`   reading a payload gives its claims;
* `wellTyped_iff`         a payload has claims if and only if it is well typed.
-/

namespace TokenGate

/-- an audience as it stands in a payload -/
def Audience.json : Audience → Json
  | .single name => .str name
  | .many names => .arr (names.map .str)

namespace Claims

open Checks (bind_eq_ok_iff)

/-! ## types of claims -/

def IsText (payload : Members) (claim : String) : Prop :=
  ∀ v, Members.get? payload claim = some v → ∃ s, v = .str s

def IsTime (payload : Members) (claim : String) : Prop :=
  ∀ v, Members.get? payload claim = some v → ∃ n, v = .int n ∧ 0 ≤ n ∧ n ≤ Seconds.maximum

/-- a text, or an array that holds texts only -/
def IsAudience (payload : Members) (claim : String) : Prop :=
  ∀ v, Members.get? payload claim = some v →
    (∃ s, v = .str s) ∨ ∃ items, v = .arr items ∧ ∀ i ∈ items, ∃ s, i = .str s

structure WellTyped (payload : Members) : Prop where
  subject : IsText payload "sub"
  issuer : IsText payload "iss"
  expiresAt : IsTime payload "exp"
  issuedAt : IsTime payload "iat"
  notBefore : IsTime payload "nbf"
  audience : IsAudience payload "aud"

/-! ## claims of a payload -/

/-- an instant that a claim can give -/
def InRange (time : Option Int) : Prop := ∀ n ∈ time, 0 ≤ n ∧ n ≤ Seconds.maximum

structure Of (c : Claims) (payload : Members) : Prop where
  subject : Members.get? payload "sub" = c.subject.map .str
  issuer : Members.get? payload "iss" = c.issuer.map .str
  expiresAt : Members.get? payload "exp" = c.expiresAt.map .int
  issuedAt : Members.get? payload "iat" = c.issuedAt.map .int
  notBefore : Members.get? payload "nbf" = c.notBefore.map .int
  audience : Members.get? payload "aud" = c.audience.map Audience.json
  expiryInRange : InRange c.expiresAt
  issueInRange : InRange c.issuedAt
  startInRange : InRange c.notBefore
  all : c.all = payload

/-! ## reading one claim -/

theorem text_eq_ok_iff {payload : Members} {claim : String} {o : Option String} :
    text payload claim = .ok o ↔ Members.get? payload claim = o.map .str := by
  unfold text
  cases h : Members.get? payload claim with
  | none => cases o <;> simp
  | some v => cases v <;> cases o <;> simp

theorem time_eq_ok_iff {payload : Members} {claim : String} {o : Option Int} :
    time payload claim = .ok o ↔ Members.get? payload claim = o.map .int ∧ InRange o := by
  unfold time InRange
  cases h : Members.get? payload claim with
  | none => cases o <;> simp
  | some v =>
    cases v with
    | int n =>
      by_cases hn : 0 ≤ n ∧ n ≤ Seconds.maximum
      · cases o with
        | none => simp [hn]
        | some m =>
          simp only [hn, and_self, ↓reduceIte, Except.ok.injEq, Option.some.injEq,
            Option.map_some, Json.int.injEq, Option.mem_def]
          constructor
          · rintro rfl
            exact ⟨rfl, fun k hk => hk ▸ hn⟩
          · exact fun h => h.1
      · cases o with
        | none => simp [hn]
        | some m =>
          simp only [hn, ↓reduceIte, reduceCtorEq, Option.map_some, Option.some.injEq,
            Json.int.injEq, Option.mem_def, false_iff, not_and]
          rintro rfl h
          exact hn (h n rfl)
    | _ => cases o <;> simp

theorem texts?_eq_some_iff {items : List Json} {names : List String} :
    texts? items = some names ↔ items = names.map .str := by
  induction items generalizing names with
  | nil => cases names <;> simp [texts?]
  | cons v rest ih =>
    cases v with
    | str s =>
      cases names with
      | nil => simp [texts?]
      | cons n ns =>
        rw [texts?, Option.map_eq_some_iff, List.map_cons, List.cons.injEq, Json.str.injEq]
        constructor
        · intro hx
          obtain ⟨a, ha, h⟩ := hx
          cases h
          exact ⟨rfl, ih.mp ha⟩
        · intro hx
          obtain ⟨rfl, h⟩ := hx
          exact ⟨ns, ih.mpr h, rfl⟩
    | _ => cases names <;> simp [texts?]

theorem audienceOf_eq_ok_iff {payload : Members} {o : Option Audience} :
    audienceOf payload = .ok o ↔ Members.get? payload "aud" = o.map Audience.json := by
  unfold audienceOf
  cases h : Members.get? payload "aud" with
  | none => cases o <;> simp
  | some v =>
    cases v with
    | str s =>
      cases o with
      | none => simp
      | some a => cases a <;> simp [Audience.json]
    | arr items =>
      cases ht : texts? items with
      | some names =>
        have hi := texts?_eq_some_iff.mp ht
        cases o with
        | none => simp [ht]
        | some a =>
          cases a with
          | single s => simp [ht, Audience.json]
          | many ns =>
            have hinj : ∀ a b, Json.str a = Json.str b → a = b := fun a b e => Json.str.inj e
            have hns : names = ns ↔ items = ns.map .str := by rw [hi, List.map_inj_right hinj]
            simp [ht, Audience.json, hns]
      | none =>
        have hn : ∀ ns : List String, items ≠ ns.map .str := by
          intro ns e
          rw [texts?_eq_some_iff.mpr e] at ht
          cases ht
        cases o with
        | none => simp [ht]
        | some a => cases a <;> simp [ht, Audience.json, hn]
    | _ =>
      cases o with
      | none => simp
      | some a => cases a <;> simp [Audience.json]

/-! ## reading a payload -/

theorem ofPayload_eq_ok_iff {payload : Members} {c : Claims} :
    ofPayload payload = .ok c ↔ c.Of payload := by
  unfold ofPayload
  simp only [bind_eq_ok_iff, text_eq_ok_iff, time_eq_ok_iff, audienceOf_eq_ok_iff]
  constructor
  · intro hx
    obtain ⟨s, hs, e, ⟨he, re⟩, i, ⟨hi, ri⟩, n, ⟨hn, rn⟩, iss, hiss, a, ha, h⟩ := hx
    cases h
    exact ⟨hs, hiss, he, hi, hn, ha, re, ri, rn, rfl⟩
  · intro h
    refine ⟨_, h.subject, _, ⟨h.expiresAt, h.expiryInRange⟩, _, ⟨h.issuedAt, h.issueInRange⟩,
      _, ⟨h.notBefore, h.startInRange⟩, _, h.issuer, _, h.audience, ?_⟩
    rw [← h.all]
    rfl

theorem exists_text_iff {payload : Members} {claim : String} :
    IsText payload claim ↔ ∃ o : Option String, Members.get? payload claim = o.map .str := by
  constructor
  · intro h
    cases hv : Members.get? payload claim with
    | none => exact ⟨none, rfl⟩
    | some v =>
      obtain ⟨s, rfl⟩ := h v hv
      exact ⟨some s, rfl⟩
  · intro hx v hv
    obtain ⟨o, ho⟩ := hx
    rw [ho] at hv
    obtain ⟨s, _, rfl⟩ := Option.map_eq_some_iff.mp hv
    exact ⟨s, rfl⟩

theorem exists_time_iff {payload : Members} {claim : String} :
    IsTime payload claim ↔
      ∃ o : Option Int, Members.get? payload claim = o.map .int ∧ InRange o := by
  constructor
  · intro h
    cases hv : Members.get? payload claim with
    | none => exact ⟨none, rfl, fun n hn => by cases hn⟩
    | some v =>
      obtain ⟨n, rfl, hn⟩ := h v hv
      exact ⟨some n, rfl, fun m hm => by cases hm; exact hn⟩
  · intro hx v hv
    obtain ⟨o, ho, hr⟩ := hx
    rw [ho] at hv
    obtain ⟨n, hn, rfl⟩ := Option.map_eq_some_iff.mp hv
    exact ⟨n, rfl, hr n hn⟩

theorem exists_names_iff {items : List Json} :
    (∀ i ∈ items, ∃ s, i = Json.str s) ↔ ∃ names : List String, items = names.map .str := by
  constructor
  · intro h
    induction items with
    | nil => exact ⟨[], rfl⟩
    | cons i items ih =>
      obtain ⟨s, rfl⟩ := h i (List.mem_cons_self ..)
      obtain ⟨names, rfl⟩ := ih fun j hj => h j (List.mem_cons_of_mem _ hj)
      exact ⟨s :: names, rfl⟩
  · intro hx i hi
    obtain ⟨names, rfl⟩ := hx
    obtain ⟨s, _, rfl⟩ := List.mem_map.mp hi
    exact ⟨s, rfl⟩

theorem exists_audience_iff {payload : Members} {claim : String} :
    IsAudience payload claim ↔
      ∃ o : Option Audience, Members.get? payload claim = o.map Audience.json := by
  constructor
  · intro h
    cases hv : Members.get? payload claim with
    | none => exact ⟨none, rfl⟩
    | some v =>
      rcases h v hv with ⟨s, rfl⟩ | ⟨items, rfl, hi⟩
      · exact ⟨some (.single s), rfl⟩
      · obtain ⟨names, rfl⟩ := exists_names_iff.mp hi
        exact ⟨some (.many names), rfl⟩
  · intro hx v hv
    obtain ⟨o, ho⟩ := hx
    rw [ho] at hv
    obtain ⟨a, _, rfl⟩ := Option.map_eq_some_iff.mp hv
    cases a with
    | single s => exact .inl ⟨s, rfl⟩
    | many names => exact .inr ⟨_, rfl, exists_names_iff.mpr ⟨names, rfl⟩⟩

theorem wellTyped_iff {payload : Members} : WellTyped payload ↔ ∃ c : Claims, c.Of payload := by
  constructor
  · intro h
    obtain ⟨s, hs⟩ := exists_text_iff.mp h.subject
    obtain ⟨iss, hiss⟩ := exists_text_iff.mp h.issuer
    obtain ⟨e, he, re⟩ := exists_time_iff.mp h.expiresAt
    obtain ⟨i, hi, ri⟩ := exists_time_iff.mp h.issuedAt
    obtain ⟨n, hn, rn⟩ := exists_time_iff.mp h.notBefore
    obtain ⟨a, ha⟩ := exists_audience_iff.mp h.audience
    exact ⟨⟨s, e, i, n, iss, a, payload⟩, hs, hiss, he, hi, hn, ha, re, ri, rn, rfl⟩
  · intro hx
    obtain ⟨c, h⟩ := hx
    exact {
      subject := exists_text_iff.mpr ⟨_, h.subject⟩
      issuer := exists_text_iff.mpr ⟨_, h.issuer⟩
      expiresAt := exists_time_iff.mpr ⟨_, h.expiresAt, h.expiryInRange⟩
      issuedAt := exists_time_iff.mpr ⟨_, h.issuedAt, h.issueInRange⟩
      notBefore := exists_time_iff.mpr ⟨_, h.notBefore, h.startInRange⟩
      audience := exists_audience_iff.mpr ⟨_, h.audience⟩ }

end Claims

end TokenGate
