import TokenGate.Claims.Basic

/-!
# What is asked of claims

* `Policy`          the issuer and the audience that are asked for, if any, and the tolerance in
                    seconds for the two time checks;
* `Policy.check`    the subject and the expiry of claims that pass at a point in time;
* `Policy.Fault`    the first check that fails.

The checks in their order: the expiry is present and not over, the start has been reached, the
issuer is the one asked for, the audience contains the one asked for, the subject is not empty.
An empty issuer or audience asks for nothing. Sums are held within 64 bits (`Seconds.add`).
-/

namespace TokenGate

open Text

structure Policy where
  issuer : Option String
  audience : Option String
  skew : Int
  deriving DecidableEq, Repr

namespace Policy

def defaultSkew : Int := 60

/-- a larger tolerance is taken for a mistake -/
def maxSkew : Int := 600

def shown (p : Policy) : String :=
  Shown.record "ClaimsPolicy" [
    ("issuer", Shown.optional (p.issuer.map Shown.quoted)),
    ("audience", Shown.optional (p.audience.map Shown.quoted)),
    ("clock_skew_seconds", Shown.integer p.skew)]

/-! ## faults -/

inductive Fault where
  | noExpiry
  | expired (expiresAt now skew : Int)
  | notYetValid (notBefore now skew : Int)
  | issuer (found : Option String)
  | audience (found : Option Audience)
  | noSubject
  deriving DecidableEq, Repr

namespace Fault

def kind : Fault → Failure
  | .noExpiry => .tokenExpired
  | .expired _ _ _ => .tokenExpired
  | .notYetValid _ _ _ => .tokenNotYetValid
  | .issuer _ => .issuerMismatch
  | .audience _ => .audienceMismatch
  | .noSubject => .missingSubject

def report (message : String) (fields : List (String × String)) : Event :=
  ⟨.debug, .claims, message, fields, none⟩

def event : Fault → Event
  | .noExpiry => report "Token rejected: no exp claim" []
  | .expired expiresAt now skew =>
    report "Token rejected: expired" [("exp", Shown.integer expiresAt),
      ("now", Shown.integer now), ("clock_skew_seconds", Shown.integer skew)]
  | .notYetValid notBefore now skew =>
    report "Token rejected: not yet valid" [("nbf", Shown.integer notBefore),
      ("now", Shown.integer now), ("clock_skew_seconds", Shown.integer skew)]
  | .issuer found =>
    report "Token rejected: issuer mismatch"
      [("iss", Shown.optional (found.map Shown.quoted))]
  | .audience found =>
    report "Token rejected: audience mismatch"
      [("aud", Shown.optional (found.map Audience.shown))]
  | .noSubject => report "Token rejected: missing subject" []

end Fault

/-! ## the checks -/

def checkExpiry (p : Policy) (c : Claims) (now : Int) : Except Fault Int :=
  match c.expiresAt with
  | none => .error .noExpiry
  | some expiresAt =>
    if now > Seconds.add expiresAt p.skew then .error (.expired expiresAt now p.skew)
    else .ok expiresAt

def checkStart (p : Policy) (c : Claims) (now : Int) : Except Fault Unit :=
  match c.notBefore with
  | none => .ok ()
  | some notBefore =>
    if now < Seconds.sub notBefore p.skew then .error (.notYetValid notBefore now p.skew)
    else .ok ()

/-- a name that is asked for; the empty one is not -/
def asked (name : Option String) : Option String := name.filter fun n => n != ""

def checkIssuer (p : Policy) (c : Claims) : Except Fault Unit :=
  match asked p.issuer with
  | none => .ok ()
  | some issuer => if c.issuer = some issuer then .ok () else .error (.issuer c.issuer)

def checkAudience (p : Policy) (c : Claims) : Except Fault Unit :=
  match asked p.audience with
  | none => .ok ()
  | some name =>
    if c.audience.any (·.contains name) then .ok () else .error (.audience c.audience)

def checkSubject (c : Claims) : Except Fault String :=
  match asked c.subject with
  | some subject => .ok subject
  | none => .error .noSubject

def check (p : Policy) (c : Claims) (now : Int) : Except Fault (String × Int) := do
  let expiresAt ← p.checkExpiry c now
  p.checkStart c now
  p.checkIssuer c
  p.checkAudience c
  let subject ← checkSubject c
  return (subject, expiresAt)

end Policy

end TokenGate
