import TokenGate.Gate.Basic
import TokenGate.Realm
import TokenGate.Signal
import TokenGate.Token.Compact

/-!
# Examining a token

A full validation, in which the memo has no part.

* `Refusal`          the first thing that is wrong with a token;
* `Traced`           a result or a refusal, with the signals on the way to it;
* `Gate.examine`     decode the token, verify its signature, type its claims, check them against
                     the policy, read its roles, have the realm confirm its subject;
* `Gate.validate`    the outcome of that.

A refusal ends the examination and is the last thing that is reported.
-/

namespace TokenGate

open Text

/-! ## refusals -/

inductive Refusal where
  | token (fault : Token.Fault)
  | signature (algorithm : Algorithm) (fault : SignatureFault)
  | claims (fault : Claims.Fault)
  | policy (fault : Policy.Fault)
  | realmAbsent
  | realmFailed (fault : StoreFault)
  | unknownSubject

namespace Refusal

def kind : Refusal → Failure
  | .token fault => fault.kind
  | .signature _ _ => .invalidSignature
  | .claims fault => fault.kind
  | .policy fault => fault.kind
  | .realmAbsent => .identityStoreUnavailable
  | .realmFailed _ => .identityStoreUnavailable
  | .unknownSubject => .unknownSubject

def event : Refusal → Event
  | .token fault => fault.event
  | .signature algorithm fault =>
    ⟨.debug, .signature, "Signature verification failed",
      [("algorithm", algorithm.name), ("error", fault.message)], none⟩
  | .claims fault => fault.event
  | .policy fault => fault.event
  | .realmAbsent =>
    ⟨.warn, .engine, "Realm authentication enabled without an identity store", [], none⟩
  | .realmFailed fault =>
    ⟨.warn, .engine, "Identity store lookup failed", [("error", fault.message)], none⟩
  | .unknownSubject => ⟨.debug, .engine, "Subject not known to identity store", [], none⟩

end Refusal

/-! ## traced results -/

structure Traced (α : Type) where
  signals : List Signal
  result : Except Refusal α

namespace Traced

variable {α β : Type}

def done (a : α) : Traced α := ⟨[], .ok a⟩

def emit (signals : List Signal) : Traced Unit := ⟨signals, .ok ()⟩

def refuse (r : Refusal) : Traced α := ⟨[.logged r.event], .error r⟩

/-- a step that signals nothing unless it fails -/
def ofExcept {ε : Type} (wrap : ε → Refusal) : Except ε α → Traced α
  | .ok a => done a
  | .error e => refuse (wrap e)

def andThen (t : Traced α) (next : α → Traced β) : Traced β :=
  match t.result with
  | .ok a => ⟨t.signals ++ (next a).signals, (next a).result⟩
  | .error r => ⟨t.signals, .error r⟩

instance : Monad Traced where
  pure := done
  bind := andThen

/-- the outcome of a refusal is a rejection of its kind -/
def outcome (t : Traced Outcome) : Outcome :=
  match t.result with
  | .ok o => o
  | .error r => .reject r.kind

end Traced

/-! ## the examination -/

namespace Gate

/-- the roles of a subject that the realm confirms, if it has to be asked -/
def confirm (g : Gate) (realm : Realm) (subject : String) (roles : Roles) : Traced Roles :=
  if g.realmRequired then
    if g.hasRealm then do
      .emit [.consulted subject]
      let record ← .ofExcept .realmFailed (realm subject)
      if record.known then return roles.grant record.roles else .refuse .unknownSubject
    else .refuse .realmAbsent
  else .done roles

/-- the token of a text, its signature verified -/
def authentic (g : Gate) (raw : String) : Traced Token := do
  let token ← .ofExcept .token (Token.decode raw)
  .emit [.verified]
  .ofExcept (.signature token.algorithm)
    (g.verification.verify (bytes token.signingInput) token.signature token.algorithm)
  return token

def examine (g : Gate) (realm : Realm) (raw : String) (now : Int) : Traced Outcome := do
  let token ← g.authentic raw
  let claims ← .ofExcept .claims (Claims.ofPayload token.payload)
  let (subject, expiresAt) ← .ofExcept .policy (g.policy.check claims now)
  .emit ((g.roleClaim.events claims).map .logged)
  let roles ← g.confirm realm subject (g.roleClaim.read claims)
  return .accept subject roles expiresAt

def validate (g : Gate) (realm : Realm) (raw : String) (now : Int) : Outcome :=
  (g.examine realm raw now).outcome

end Gate

end TokenGate
