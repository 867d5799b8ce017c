import TokenGate.Gate.Basic
import TokenGate.Proofs.Checks

/-!
# Gates that settings make

* `Settings.validate_eq_ok_iff`   the bounds that settings have to keep;
* `Gate.ofSettings_eq_ok_iff`     which settings make a gate, and which one;
* `Gate.Follows`                  a gate does what settings say;
* `Gate.Sound`                    what the checks at the start guarantee of a gate;
* `follows_of_build`, `sound_of_build`   both hold of every gate that is built;
* `build_uncached`                settings that make a gate make the same one without a memo.
-/

namespace TokenGate

open Checks (bind_eq_ok_iff)

/-! ## bounds -/

theorem Settings.validate_eq_ok_iff {s : Settings} {u : Unit} :
    s.validate = .ok u ↔ (0 ≤ s.skew ∧ s.skew ≤ Policy.maxSkew)
      ∧ (∀ cap, s.ttlCap = some cap → 0 < cap) ∧ isRsa s.publicKeyAlgorithm = true := by
  unfold validate
  by_cases hs : s.skew < 0 ∨ Policy.maxSkew < s.skew
  · rw [if_pos hs]
    constructor
    · intro h
      cases h
    · intro hx
      obtain ⟨⟨h₁, h₂⟩, _⟩ := hx
      omega
  · rw [if_neg hs]
    have hskew : 0 ≤ s.skew ∧ s.skew ≤ Policy.maxSkew := by omega
    cases hc : s.ttlCap.filter fun cap => decide (cap ≤ 0) with
    | some cap =>
      rw [Option.filter_eq_some_iff, decide_eq_true_eq] at hc
      constructor
      · intro h
        cases h
      · intro hx
        obtain ⟨_, hcap, _⟩ := hx
        exact absurd (hcap cap hc.1) (Int.not_lt.mpr hc.2)
    | none =>
      have hcap : ∀ cap, s.ttlCap = some cap → 0 < cap := by
        intro cap h
        rw [Option.filter_eq_none_iff] at hc
        simpa using hc cap h
      by_cases hr : isRsa s.publicKeyAlgorithm = true
      · simp only [hr, ↓reduceIte, true_iff]
        exact ⟨hskew, hcap, trivial⟩
      · simp [hr]

/-- the usual settings with a secret -/
def Settings.sample : Settings := { standard with secretKey := some "c2VjcmV0" }

namespace Gate

variable {s : Settings} {hasRealm : Bool} {verifier : Option Verifier} {g : Gate}

/-! ## gates of settings -/

theorem ofSettings_eq_ok_iff :
    ofSettings s hasRealm verifier = .ok g ↔
      s.validate = .ok () ∧ s.checkSingleKey = .ok () ∧ (s.realmRequired = true → hasRealm = true)
        ∧ ∃ v, verificationOf s verifier = .ok v
          ∧ g = ⟨v, s.policy, s.roleClaim, hasRealm, s.realmRequired, s.realmName, s.memoSize,
            s.ttlCap⟩ := by
  simp only [ofSettings, bind_eq_ok_iff]
  have hrealm : (s.realmRequired && !hasRealm) = true ↔
      ¬ (s.realmRequired = true → hasRealm = true) := by
    cases s.realmRequired <;> cases hasRealm <;> decide
  constructor
  · intro hx
    obtain ⟨_, hv, _, hk, h⟩ := hx
    by_cases hr : s.realmRequired = true → hasRealm = true
    · rw [if_neg (mt hrealm.mp (not_not_intro hr)), bind_eq_ok_iff] at h
      obtain ⟨v, hver, hg⟩ := h
      cases hg
      exact ⟨hv, hk, hr, v, hver, rfl⟩
    · rw [if_pos (hrealm.mpr hr)] at h
      cases h
  · intro hx
    obtain ⟨hv, hk, hr, v, hver, rfl⟩ := hx
    refine ⟨(), hv, (), hk, ?_⟩
    rw [if_neg (mt hrealm.mp (not_not_intro hr)), hver]
    rfl

theorem ofSettings_of_build (h : build s hasRealm verifier = .ok g) :
    ofSettings s hasRealm verifier = .ok g :=
  (build_eq_ok_iff.mp h).1

/-! ## what is known of a gate -/

/-- the parts of a gate are those that settings name -/
structure Follows (g : Gate) (s : Settings) (verifier : Option Verifier) : Prop where
  verification : verificationOf s verifier = .ok g.verification
  policy : g.policy = s.policy
  roleClaim : g.roleClaim = s.roleClaim
  realmRequired : g.realmRequired = s.realmRequired
  ttlCap : g.ttlCap = s.ttlCap

structure Sound (g : Gate) : Prop where
  skew_nonneg : 0 ≤ g.policy.skew
  skew_le : g.policy.skew ≤ Policy.maxSkew
  cap_pos : ∀ cap, g.ttlCap = some cap → 0 < cap
  realm : g.realmRequired = true → g.hasRealm = true

theorem follows_of_build (h : build s hasRealm verifier = .ok g) : g.Follows s verifier := by
  obtain ⟨_, _, _, v, hver, rfl⟩ := ofSettings_eq_ok_iff.mp (ofSettings_of_build h)
  exact ⟨hver, rfl, rfl, rfl, rfl⟩

theorem sound_of_build (h : build s hasRealm verifier = .ok g) : g.Sound := by
  obtain ⟨hv, _, hr, v, _, rfl⟩ := ofSettings_eq_ok_iff.mp (ofSettings_of_build h)
  obtain ⟨hs, hc, _⟩ := Settings.validate_eq_ok_iff.mp hv
  exact ⟨hs.1, hs.2, hc, hr⟩

/-- the gate without a memo -/
def uncached (g : Gate) : Gate := { g with capacity := 0 }

theorem build_uncached (h : build s hasRealm verifier = .ok g) :
    build { s with memoSize := 0 } hasRealm verifier = .ok g.uncached := by
  obtain ⟨hv, hk, hr, v, hver, rfl⟩ := ofSettings_eq_ok_iff.mp (ofSettings_of_build h)
  refine build_eq_ok_iff.mpr ⟨ofSettings_eq_ok_iff.mpr ⟨?_, hk, hr, v, ?_, rfl⟩, rfl⟩
  · exact Settings.validate_eq_ok_iff.mpr (Settings.validate_eq_ok_iff.mp hv)
  · cases verifier with
    | some w => exact hver
    | none => exact hver

/-! ## the gate of the sample settings -/

def sample : Gate where
  verification := .key (.secret [115, 101, 99, 114, 101, 116])
  policy := ⟨none, none, 60⟩
  roleClaim := ⟨"roles", true⟩
  hasRealm := true
  realmRequired := true
  realmName := "bearer"
  capacity := 1000
  ttlCap := none

theorem build_sample : build Settings.sample true none = .ok sample := rfl

end Gate

end TokenGate
