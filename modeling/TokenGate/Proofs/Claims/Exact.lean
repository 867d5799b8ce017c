import TokenGate.Claims.Policy
import TokenGate.Proofs.Claims.Typing

/-!
# What the checks of a policy ask

* `Seconds.le_add_iff`, `sub_eq`     sums within 64 bits against exact ones;
* `Policy.Meets…`                    the conditions, one for each check;
* `checkExpiry_eq_ok_iff` and so on   each check passes if and only if its condition holds;
* `check_eq_ok_iff`                  claims pass if and only if they meet all of them;
* `check_later`                      claims that passed still pass until they expire.
-/

namespace TokenGate

/-! ## sums within 64 bits -/

namespace Seconds

theorem le_add_iff {a b now : Int} (ha : 0 ≤ a) (hb : 0 ≤ b) (hnow : now ≤ maximum) :
    now ≤ add a b ↔ now ≤ a + b := by
  unfold add clamp minimum
  omega

theorem add_le {a b : Int} (h : minimum ≤ a + b) : add a b ≤ a + b := by
  unfold add clamp
  omega

theorem le_add_self {a b : Int} (ha : a ≤ maximum) (hb : 0 ≤ b) : a ≤ add a b := by
  unfold add clamp
  omega

theorem sub_eq {a b : Int} (ha : 0 ≤ a) (ha' : a ≤ maximum) (hb : 0 ≤ b) (hb' : b ≤ maximum) :
    sub a b = a - b := by
  refine clamp_of_mem ?_ ?_
  · unfold minimum
    unfold maximum at hb'
    omega
  · omega

end Seconds

namespace Policy

variable {p : Policy} {c : Claims} {now : Int}

/-! ## the conditions -/

def MeetsStart (p : Policy) (c : Claims) (now : Int) : Prop :=
  ∀ n, c.notBefore = some n → Seconds.sub n p.skew ≤ now

def MeetsIssuer (p : Policy) (c : Claims) : Prop :=
  ∀ name, p.issuer = some name → name ≠ "" → c.issuer = some name

def MeetsAudience (p : Policy) (c : Claims) : Prop :=
  ∀ name, p.audience = some name → name ≠ "" → ∃ a, c.audience = some a ∧ name ∈ a.names

theorem asked_eq_some_iff {o : Option String} {name : String} :
    asked o = some name ↔ o = some name ∧ name ≠ "" := by
  rw [asked, Option.filter_eq_some_iff, bne_iff_ne]

theorem asked_eq_none_iff {o : Option String} :
    asked o = none ↔ ∀ name, o = some name → name = "" := by
  rw [asked, Option.filter_eq_none_iff]
  simp

/-! ## the checks -/

theorem checkExpiry_eq_ok_iff {expiresAt : Int} :
    p.checkExpiry c now = .ok expiresAt ↔
      c.expiresAt = some expiresAt ∧ now ≤ Seconds.add expiresAt p.skew := by
  unfold checkExpiry
  cases c.expiresAt with
  | none => simp
  | some e =>
    by_cases h : now > Seconds.add e p.skew
    · simp only [h, ↓reduceIte, reduceCtorEq, Option.some.injEq, false_iff, not_and]
      rintro rfl
      exact Int.not_le.mpr h
    · simp only [h, ↓reduceIte, Except.ok.injEq, Option.some.injEq]
      constructor
      · rintro rfl
        exact ⟨rfl, Int.not_lt.mp h⟩
      · exact fun he => he.1

theorem checkStart_eq_ok_iff {u : Unit} : p.checkStart c now = .ok u ↔ p.MeetsStart c now := by
  unfold checkStart MeetsStart
  cases c.notBefore with
  | none => simp
  | some n =>
    by_cases h : now < Seconds.sub n p.skew
    · simp [h]
    · simpa [h] using Int.not_lt.mp h

theorem checkIssuer_eq_ok_iff {u : Unit} : p.checkIssuer c = .ok u ↔ p.MeetsIssuer c := by
  unfold checkIssuer MeetsIssuer
  cases h : asked p.issuer with
  | none =>
    have hn := asked_eq_none_iff.mp h
    simp only [true_iff]
    exact fun name hp hne => absurd (hn name hp) hne
  | some name =>
    obtain ⟨hp, hne⟩ := asked_eq_some_iff.mp h
    by_cases hc : c.issuer = some name
    · simp [hp, hc]
    · simp [hp, hc, hne]

theorem checkAudience_eq_ok_iff {u : Unit} : p.checkAudience c = .ok u ↔ p.MeetsAudience c := by
  unfold checkAudience MeetsAudience
  cases h : asked p.audience with
  | none =>
    have hn := asked_eq_none_iff.mp h
    simp only [true_iff]
    exact fun name hp hne => absurd (hn name hp) hne
  | some name =>
    obtain ⟨hp, hne⟩ := asked_eq_some_iff.mp h
    have hany : (c.audience.any (·.contains name)) = true ↔
        ∃ a, c.audience = some a ∧ name ∈ a.names := by
      simp [Audience.contains, Option.any_eq_true]
    by_cases hc : (c.audience.any (·.contains name)) = true
    · simp [hp, hc, hany.mp hc]
    · simp [hp, hc, hne, mt hany.mpr hc]

theorem checkSubject_eq_ok_iff {subject : String} :
    checkSubject c = .ok subject ↔ c.subject = some subject ∧ subject ≠ "" := by
  unfold checkSubject
  cases h : asked c.subject with
  | none =>
    have hn := asked_eq_none_iff.mp h
    simp only [reduceCtorEq, false_iff, not_and]
    exact fun hs hne => hne (hn subject hs)
  | some name => rw [Except.ok.injEq, ← asked_eq_some_iff, h, Option.some.injEq]

theorem check_eq_ok_iff {subject : String} {expiresAt : Int} :
    p.check c now = .ok (subject, expiresAt) ↔
      (c.expiresAt = some expiresAt ∧ now ≤ Seconds.add expiresAt p.skew) ∧ p.MeetsStart c now
        ∧ p.MeetsIssuer c ∧ p.MeetsAudience c ∧ c.subject = some subject ∧ subject ≠ "" := by
  simp only [check, Checks.bind_eq_ok_iff, checkExpiry_eq_ok_iff, checkStart_eq_ok_iff,
    checkIssuer_eq_ok_iff, checkAudience_eq_ok_iff, checkSubject_eq_ok_iff]
  constructor
  · intro hx
    obtain ⟨e, he, _, hs, _, hi, _, ha, s, hsub, h⟩ := hx
    cases h
    exact ⟨he, hs, hi, ha, hsub⟩
  · intro hx
    obtain ⟨he, hs, hi, ha, hsub⟩ := hx
    exact ⟨expiresAt, he, (), hs, (), hi, (), ha, subject, hsub, rfl⟩

/-- between the instant of a check that was passed and the expiry nothing can fail -/
theorem check_later {payload : Members} (hc : c.Of payload) (hskew : 0 ≤ p.skew)
    {subject : String} {expiresAt later : Int} (h : p.check c now = .ok (subject, expiresAt))
    (hnow : now ≤ later) (hlater : later ≤ expiresAt) :
    p.check c later = .ok (subject, expiresAt) := by
  obtain ⟨⟨he, _⟩, hs, hrest⟩ := check_eq_ok_iff.mp h
  have hmax : expiresAt ≤ Seconds.maximum := (hc.expiryInRange expiresAt he).2
  have hexp : later ≤ Seconds.add expiresAt p.skew :=
    Int.le_trans hlater (Seconds.le_add_self hmax hskew)
  have hstart : p.MeetsStart c later := fun n hn => Int.le_trans (hs n hn) hnow
  exact check_eq_ok_iff.mpr ⟨⟨he, hexp⟩, hstart, hrest⟩

end Policy

end TokenGate
