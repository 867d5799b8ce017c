import TokenGate.Proofs.Gate.Built

/-!
# What keeps settings from making a gate

* `Settings.OutOfBounds`       the first bound that settings do not keep;
* `Settings.KeyFails`          a key that is set cannot be loaded;
* `Settings.Obstructs`         the first thing that is in the way of a gate, in the order in which
                               the settings are looked at;
* `ofSettings_eq_error_iff`    a fault is reported if and only if it obstructs;
* `build_eq_settings_iff`, `build_eq_noRoom_iff`   why no gate is built: what obstructs it, or the
                               want of room for its memo where nothing does;
* `exists_build_iff`           when one is built.
-/

namespace TokenGate

open Checks (bind_eq_ok_iff bind_eq_error_iff mapError_eq_error_iff)

/-! ## obstructions -/

namespace Settings

variable {s : Settings} {f : Fault}

structure InBounds (s : Settings) : Prop where
  skew : 0 ≤ s.skew ∧ s.skew ≤ Policy.maxSkew
  ttlCap : ∀ cap, s.ttlCap = some cap → 0 < cap
  algorithm : isRsa s.publicKeyAlgorithm = true

/-- the first bound that is not kept -/
inductive OutOfBounds (s : Settings) : Fault → Prop
  | skew (h : s.skew < 0 ∨ Policy.maxSkew < s.skew) : OutOfBounds s (.skewOutOfBounds s.skew)
  | ttlCap (hskew : 0 ≤ s.skew ∧ s.skew ≤ Policy.maxSkew) {cap : Int}
      (hcap : s.ttlCap = some cap) (h : cap ≤ 0) : OutOfBounds s (.ttlCapNotPositive cap)
  | algorithm (hskew : 0 ≤ s.skew ∧ s.skew ≤ Policy.maxSkew)
      (hcap : ∀ cap, s.ttlCap = some cap → 0 < cap) (h : isRsa s.publicKeyAlgorithm = false) :
      OutOfBounds s (.publicKeyAlgorithm s.publicKeyAlgorithm)

/-- exactly one of the two keys is set -/
def OneKey (s : Settings) : Prop := s.secretKey.isSome ≠ s.publicKey.isSome

/-- a key that is set cannot be loaded -/
inductive KeyFails (s : Settings) : Key.Fault → Prop
  | ofSecret {text : String} {cause : Key.Fault} (hset : s.secretKey = some text)
      (h : Key.ofSecretText text = .error cause) : KeyFails s cause
  | ofPublic {text : String} {cause : Key.Fault} (hset : s.publicKey = some text)
      (h : Key.ofPublicKeyText text = .error cause) : KeyFails s cause

/-- Each of these comes into play only where none before it does. -/
inductive Obstructs (s : Settings) (hasRealm : Bool) (verifier : Option Verifier) : Fault → Prop
  | bounds {f : Fault} (h : OutOfBounds s f) : Obstructs s hasRealm verifier f
  | noKey (hb : s.InBounds) (hsecret : s.secretKey = none) (hpublic : s.publicKey = none) :
      Obstructs s hasRealm verifier .missingKey
  | twoKeys (hb : s.InBounds) {secret text : String} (hsecret : s.secretKey = some secret)
      (hpublic : s.publicKey = some text) : Obstructs s hasRealm verifier .conflictingKeys
  | noRealm (hb : s.InBounds) (hk : s.OneKey) (hr : s.realmRequired = true)
      (h : hasRealm = false) : Obstructs s hasRealm verifier .missingRealm
  | key (hb : s.InBounds) (hk : s.OneKey) (hr : s.realmRequired = true → hasRealm = true)
      (hv : verifier = none) {cause : Key.Fault} (h : s.KeyFails cause) :
      Obstructs s hasRealm verifier (.key cause)

theorem validate_eq_ok : s.validate = .ok () ↔ s.InBounds := by
  rw [validate_eq_ok_iff]
  constructor
  · intro h
    obtain ⟨hs, hc, ha⟩ := h
    exact ⟨hs, hc, ha⟩
  · intro h
    exact ⟨h.skew, h.ttlCap, h.algorithm⟩

theorem validate_eq_error_iff : s.validate = .error f ↔ s.OutOfBounds f := by
  unfold validate
  by_cases hs : s.skew < 0 ∨ Policy.maxSkew < s.skew
  · rw [if_pos hs]
    constructor
    · intro h
      cases h
      exact .skew hs
    · intro h
      cases h with
      | skew _ => rfl
      | ttlCap hskew _ _ => omega
      | algorithm hskew _ _ => omega
  rw [if_neg hs]
  have hskew : 0 ≤ s.skew ∧ s.skew ≤ Policy.maxSkew := by omega
  cases hc : s.ttlCap.filter fun cap => decide (cap ≤ 0) with
  | some cap =>
    rw [Option.filter_eq_some_iff, decide_eq_true_eq] at hc
    obtain ⟨hset, hle⟩ := hc
    constructor
    · intro h
      cases h
      exact .ttlCap hskew hset hle
    · intro h
      cases h with
      | skew h => exact absurd h hs
      | ttlCap _ hset' _ =>
        rw [hset] at hset'
        cases hset'
        rfl
      | algorithm _ hcap _ => exact absurd (hcap cap hset) (Int.not_lt.mpr hle)
  | none =>
    have hcap : ∀ cap, s.ttlCap = some cap → 0 < cap := by
      intro cap h
      rw [Option.filter_eq_none_iff] at hc
      simpa using hc cap h
    constructor
    · intro h
      by_cases ha : isRsa s.publicKeyAlgorithm = true
      · rw [if_pos ha] at h
        cases h
      · rw [if_neg ha] at h
        cases h
        exact .algorithm hskew hcap (by simpa using ha)
    · intro h
      cases h with
      | skew h => exact absurd h hs
      | ttlCap _ hset hle => exact absurd (hcap _ hset) (Int.not_lt.mpr hle)
      | algorithm _ _ ha => simp [ha]

theorem checkSingleKey_eq_ok : s.checkSingleKey = .ok () ↔ s.OneKey := by
  unfold checkSingleKey OneKey
  cases s.secretKey <;> cases s.publicKey <;> simp

theorem checkSingleKey_eq_error_iff :
    s.checkSingleKey = .error f ↔
      (f = .missingKey ∧ s.secretKey = none ∧ s.publicKey = none)
      ∨ (f = .conflictingKeys ∧ (∃ t, s.secretKey = some t) ∧ ∃ t, s.publicKey = some t) := by
  unfold checkSingleKey
  cases s.secretKey <;> cases s.publicKey <;> simp [eq_comm]

theorem keyFails_secret_iff {text : String} {cause : Key.Fault} (hsecret : s.secretKey = some text)
    (hpublic : s.publicKey = none) : s.KeyFails cause ↔ Key.ofSecretText text = .error cause := by
  constructor
  · intro h
    cases h with
    | ofSecret hset h =>
      rw [hsecret] at hset
      cases hset
      exact h
    | ofPublic hset _ =>
      rw [hpublic] at hset
      cases hset
  · exact .ofSecret hsecret

theorem keyFails_public_iff {text : String} {cause : Key.Fault} (hsecret : s.secretKey = none)
    (hpublic : s.publicKey = some text) :
    s.KeyFails cause ↔ Key.ofPublicKeyText text = .error cause := by
  constructor
  · intro h
    cases h with
    | ofSecret hset _ =>
      rw [hsecret] at hset
      cases hset
    | ofPublic hset h =>
      rw [hpublic] at hset
      cases hset
      exact h
  · exact .ofPublic hpublic

/-- where there is one key, it is the only thing that can be wrong with it -/
theorem key_eq_error_iff (hb : s.InBounds) (hk : s.OneKey) :
    s.key = .error f ↔ ∃ cause, f = .key cause ∧ s.KeyFails cause := by
  unfold key
  unfold OneKey at hk
  cases hsecret : s.secretKey with
  | none =>
    cases hpublic : s.publicKey with
    | none => simp [hsecret, hpublic] at hk
    | some text =>
      simp only [hb.algorithm, ↓reduceIte, mapError_eq_error_iff,
        keyFails_public_iff hsecret hpublic]
      exact exists_congr fun _ => and_comm.trans (and_congr_left' eq_comm)
  | some secret =>
    cases hpublic : s.publicKey with
    | some text => simp [hsecret, hpublic] at hk
    | none =>
      simp only [mapError_eq_error_iff, keyFails_secret_iff hsecret hpublic]
      exact exists_congr fun _ => and_comm.trans (and_congr_left' eq_comm)

end Settings

namespace Gate

open Settings (Obstructs)

variable {s : Settings} {hasRealm : Bool} {verifier : Option Verifier} {g : Gate}

theorem verificationOf_eq_error_iff (hb : s.InBounds) (hk : s.OneKey) {f : Settings.Fault} :
    verificationOf s verifier = .error f ↔
      verifier = none ∧ ∃ cause, f = .key cause ∧ s.KeyFails cause := by
  cases verifier with
  | some v => simp [verificationOf]
  | none =>
    rw [← Settings.key_eq_error_iff hb hk]
    cases h : s.key <;> simp [verificationOf, h, Except.map]

/-- the store that is asked for is there -/
theorem not_lacksRealm_iff :
    ¬ (s.realmRequired && !hasRealm) = true ↔ (s.realmRequired = true → hasRealm = true) := by
  cases s.realmRequired <;> cases hasRealm <;> simp

theorem obstructs_of_error {f : Settings.Fault} (h : ofSettings s hasRealm verifier = .error f) :
    Obstructs s hasRealm verifier f := by
  simp only [ofSettings, bind_eq_error_iff, Settings.validate_eq_error_iff,
    Settings.checkSingleKey_eq_error_iff] at h
  rcases h with h | ⟨_, hv, (⟨rfl, hs, hp⟩ | ⟨rfl, ⟨t, hs⟩, t', hp⟩) | ⟨_, hk, h⟩⟩
  · exact .bounds h
  · exact .noKey (Settings.validate_eq_ok.mp hv) hs hp
  · exact .twoKeys (Settings.validate_eq_ok.mp hv) hs hp
  have hb : s.InBounds := Settings.validate_eq_ok.mp hv
  have hone : s.OneKey := Settings.checkSingleKey_eq_ok.mp hk
  by_cases hr : (s.realmRequired && !hasRealm) = true
  · rw [if_pos hr] at h
    cases h
    rw [Bool.and_eq_true, Bool.not_eq_true'] at hr
    exact .noRealm hb hone hr.1 hr.2
  · rw [if_neg hr, bind_eq_error_iff, verificationOf_eq_error_iff hb hone] at h
    rcases h with ⟨hnone, cause, rfl, hfails⟩ | ⟨_, _, h⟩
    · exact .key hb hone (not_lacksRealm_iff.mp hr) hnone hfails
    · cases h

theorem error_of_obstructs {f : Settings.Fault} (h : Obstructs s hasRealm verifier f) :
    ofSettings s hasRealm verifier = .error f := by
  simp only [ofSettings, bind_eq_error_iff, Settings.validate_eq_error_iff,
    Settings.checkSingleKey_eq_error_iff]
  cases h with
  | bounds h => exact .inl h
  | noKey hb hs hp => exact .inr ⟨(), Settings.validate_eq_ok.mpr hb, .inl (.inl ⟨rfl, hs, hp⟩)⟩
  | twoKeys hb hs hp =>
    exact .inr ⟨(), Settings.validate_eq_ok.mpr hb, .inl (.inr ⟨rfl, ⟨_, hs⟩, _, hp⟩)⟩
  | noRealm hb hk hr h =>
    refine .inr ⟨(), Settings.validate_eq_ok.mpr hb, .inr ⟨(), ?_, ?_⟩⟩
    · exact Settings.checkSingleKey_eq_ok.mpr hk
    · simp [hr, h]
  | key hb hk hr hv h =>
    refine .inr ⟨(), Settings.validate_eq_ok.mpr hb, .inr ⟨(), ?_, ?_⟩⟩
    · exact Settings.checkSingleKey_eq_ok.mpr hk
    · rw [if_neg (not_lacksRealm_iff.mpr hr), bind_eq_error_iff, verificationOf_eq_error_iff hb hk]
      exact .inl ⟨hv, _, rfl, h⟩

theorem ofSettings_eq_error_iff {f : Settings.Fault} :
    ofSettings s hasRealm verifier = .error f ↔ Obstructs s hasRealm verifier f :=
  ⟨obstructs_of_error, error_of_obstructs⟩

theorem build_eq_settings_iff {f : Settings.Fault} :
    build s hasRealm verifier = .error (.settings f) ↔ Obstructs s hasRealm verifier f := by
  rw [← ofSettings_eq_error_iff]
  unfold build
  cases ofSettings s hasRealm verifier with
  | error f' => simp
  | ok g => by_cases hr : Memo.hasRoom g.capacity = true <;> simp [hr]

theorem build_eq_noRoom_iff :
    build s hasRealm verifier = .error .noRoom ↔
      (∀ f, ¬ Obstructs s hasRealm verifier f) ∧ Memo.maxCapacity < s.memoSize := by
  simp only [← ofSettings_eq_error_iff]
  unfold build
  cases h : ofSettings s hasRealm verifier with
  | error f => simp
  | ok g =>
    obtain ⟨_, _, _, v, _, rfl⟩ := ofSettings_eq_ok_iff.mp h
    simp [Memo.hasRoom]

theorem capacity_of_build (h : build s hasRealm verifier = .ok g) : g.capacity = s.memoSize := by
  obtain ⟨_, _, _, v, _, rfl⟩ := ofSettings_eq_ok_iff.mp (ofSettings_of_build h)
  rfl

theorem hasRealm_of_build (h : build s hasRealm verifier = .ok g) : g.hasRealm = hasRealm := by
  obtain ⟨_, _, _, v, _, rfl⟩ := ofSettings_eq_ok_iff.mp (ofSettings_of_build h)
  rfl

theorem realmName_of_build (h : build s hasRealm verifier = .ok g) : g.realmName = s.realmName := by
  obtain ⟨_, _, _, v, _, rfl⟩ := ofSettings_eq_ok_iff.mp (ofSettings_of_build h)
  rfl

theorem exists_build_iff :
    (∃ g, build s hasRealm verifier = .ok g) ↔
      (∀ f, ¬ Obstructs s hasRealm verifier f) ∧ s.memoSize ≤ Memo.maxCapacity := by
  constructor
  · intro hx
    obtain ⟨g, h⟩ := hx
    refine ⟨fun f hf => ?_, ?_⟩
    · rw [build_eq_settings_iff.mpr hf] at h
      cases h
    · have hroom := (build_eq_ok_iff.mp h).2
      rw [capacity_of_build h] at hroom
      exact of_decide_eq_true hroom
  · intro hx
    obtain ⟨hnone, hroom⟩ := hx
    cases h : build s hasRealm verifier with
    | ok g => exact ⟨g, rfl⟩
    | error fault =>
      cases fault with
      | settings f => exact absurd (build_eq_settings_iff.mp h) (hnone f)
      | noRoom => exact absurd (build_eq_noRoom_iff.mp h).2 (Nat.not_lt.mpr hroom)

end Gate

/-! ## too large a memo -/

/-- the usual settings with a secret, and with the largest size of the memo that can be asked for -/
def Settings.oversized : Settings := { Settings.sample with memoSize := 18446744073709551615 }

/-- Nothing is wrong with these settings that is ever looked at, and yet they make no gate. -/
theorem Gate.build_oversized :
    build .oversized true none = .error .noRoom
    ∧ ¬ ((∃ g, build .oversized true none = .ok g) ↔
        ∀ f, ¬ Settings.oversized.Obstructs true none f) := by
  have hroom : build .oversized true none = .error .noRoom := by rfl
  refine ⟨hroom, fun h => ?_⟩
  obtain ⟨g, hg⟩ := h.mpr (build_eq_noRoom_iff.mp hroom).1
  rw [hroom] at hg
  cases hg

end TokenGate
