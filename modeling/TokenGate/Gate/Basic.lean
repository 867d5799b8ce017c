import TokenGate.Memo
import TokenGate.Settings

/-!
# The gate

A gate decides on bearer tokens. It is built once from settings, which are checked then, and does
not change; what changes between requests is its memo.

* `Verification`      the key that signatures are verified with, or a verifier in its place;
* `Gate`              everything that decisions depend on, apart from memo, clock and realm;
* `Gate.ofSettings`   the gate of settings, or the first thing that is wrong with them;
* `Gate.build`        the same, its memo set up as well: that fails last, and only for want of
                      room (`Gate.Fault.noRoom`);
* `Gate.startEvents`  what is reported of a gate that was just built;
* `Gate.emptyMemo`    the memo that it starts with.
-/

namespace TokenGate

open Text

inductive Verification where
  | key (key : Key)
  | custom (verifier : Verifier)

def Verification.verify : Verification → Verifier
  | .key k => k.verify
  | .custom verifier => verifier

structure Gate where
  verification : Verification
  policy : Policy
  roleClaim : RoleClaim
  /-- an identity store is there to be asked -/
  hasRealm : Bool
  /-- subjects have to be confirmed by the identity store -/
  realmRequired : Bool
  realmName : String
  capacity : Nat
  ttlCap : Option Int

namespace Gate

/-- the verification that settings ask for, unless another verifier is given -/
def verificationOf (s : Settings) : Option Verifier → Except Settings.Fault Verification
  | some verifier => .ok (.custom verifier)
  | none => s.key.map .key

def ofSettings (s : Settings) (hasRealm : Bool) (verifier : Option Verifier) :
    Except Settings.Fault Gate := do
  s.validate
  s.checkSingleKey
  if s.realmRequired && !hasRealm then .error .missingRealm
  else
    let verification ← verificationOf s verifier
    return {
      verification
      policy := s.policy
      roleClaim := s.roleClaim
      hasRealm
      realmRequired := s.realmRequired
      realmName := s.realmName
      capacity := s.memoSize
      ttlCap := s.ttlCap }

/-- why there is no gate -/
inductive Fault where
  | settings (fault : Settings.Fault)
  | noRoom
  deriving DecidableEq, Repr

def build (s : Settings) (hasRealm : Bool) (verifier : Option Verifier) : Except Fault Gate :=
  match ofSettings s hasRealm verifier with
  | .error fault => .error (.settings fault)
  | .ok g => if Memo.hasRoom g.capacity then .ok g else .error .noRoom

theorem build_eq_ok_iff {s : Settings} {hasRealm : Bool} {verifier : Option Verifier} {g : Gate} :
    build s hasRealm verifier = .ok g ↔
      ofSettings s hasRealm verifier = .ok g ∧ Memo.hasRoom g.capacity = true := by
  unfold build
  constructor
  · intro h
    split at h
    · simp at h
    · next g' hg =>
      split at h
      · next hr =>
        simp only [Except.ok.injEq] at h
        exact h ▸ ⟨hg, hr⟩
      · simp at h
  · rintro ⟨hg, hr⟩
    simp [hg, hr]

def startEvents (g : Gate) : List Event :=
  let ready : Event := ⟨.info, .engine, "Bearer authenticator ready", [
    ("realm", g.realmName),
    ("realm_authentication", Shown.boolean g.realmRequired),
    ("token_cache_size", Shown.integer g.capacity)], none⟩
  match g.verification with
  | .key key =>
    key.loadEvents
      ++ [⟨.info, .config, "Configured verification key", [("key_kind", key.kind.label)], none⟩,
        ready]
  | .custom _ => [ready]

def emptyMemo (g : Gate) : Memo := .ofCapacity g.capacity

/-- the gate and its memo in diagnostics -/
def shown (g : Gate) (m : Memo) : String :=
  Shown.openRecord "BearerAuthenticator" [
    ("policy", g.policy.shown),
    ("roles", g.roleClaim.shown),
    ("identity_store", Shown.boolean g.hasRealm),
    ("realm_authentication", Shown.boolean g.realmRequired),
    ("realm_name", Shown.quoted g.realmName),
    ("cache", m.shown),
    ("cache_max_ttl_seconds", Shown.optional (g.ttlCap.map Shown.integer))]

end Gate

end TokenGate
