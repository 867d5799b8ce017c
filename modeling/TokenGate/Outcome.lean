import TokenGate.Failure
import TokenGate.Roles

/-!
# Outcomes and decisions

* `Identity`          who an accepted request speaks for;
* `Decision`          what the host is told: an identity, or a rejection;
* `Outcome`           what a validation found out about a token, as it is remembered;
* `Outcome.decision`  the decision of an outcome. One that is accepted but names no subject is
                      turned away like any other that is not accepted; where no failure is
                      recorded, the signature gets the blame.

Subjects are left out of all diagnostics.
-/

namespace TokenGate

open Text

structure Identity where
  subject : String
  roles : Roles
  deriving DecidableEq

namespace Identity

/-- the scheme of every identity -/
def scheme : String := "BEARER"

def shown (i : Identity) : String :=
  Shown.record "AuthenticatedIdentity" [
    ("subject", Shown.redacted), ("roles", i.roles.shown), ("scheme", Shown.quoted scheme)]

end Identity

/-! ## decisions -/

inductive Decision where
  | accepted (identity : Identity)
  | rejected (rejection : Rejection)
  deriving DecidableEq

namespace Decision

def isAccepted : Decision → Bool
  | .accepted _ => true
  | .rejected _ => false

def failure? : Decision → Option Failure
  | .accepted _ => none
  | .rejected r => some r.kind

def shown : Decision → String
  | .accepted i => Shown.tagged "Accepted" i.shown
  | .rejected r =>
    Shown.tagged "Rejected" (Shown.record "Rejection" [
      ("kind", r.kind.shown), ("description", Shown.quoted r.description)])

end Decision

/-! ## outcomes -/

structure Outcome where
  accepted : Bool
  subject : Option String
  roles : Roles
  expiresAt : Option Int
  failure : Option Failure
  deriving DecidableEq

namespace Outcome

def accept (subject : String) (roles : Roles) (expiresAt : Int) : Outcome :=
  ⟨true, some subject, roles, some expiresAt, none⟩

def reject (kind : Failure) : Outcome := ⟨false, none, Roles.empty, none, some kind⟩

def decision (o : Outcome) : Decision :=
  match o.accepted, o.subject with
  | true, some subject => .accepted ⟨subject, o.roles⟩
  | _, _ => .rejected (.ofKind (o.failure.getD .invalidSignature))

theorem decision_accept (subject : String) (roles : Roles) (expiresAt : Int) :
    (accept subject roles expiresAt).decision = .accepted ⟨subject, roles⟩ := rfl

theorem decision_reject (kind : Failure) :
    (reject kind).decision = .rejected (.ofKind kind) := rfl

def shown (o : Outcome) : String :=
  Shown.record "ValidationOutcome" [
    ("accepted", Shown.boolean o.accepted),
    ("subject", Shown.optional (o.subject.map fun _ => Shown.redacted)),
    ("roles", o.roles.shown),
    ("expires_at", Shown.optional (o.expiresAt.map Shown.integer)),
    ("failure", Shown.optional (o.failure.map Failure.shown))]

end Outcome

end TokenGate
