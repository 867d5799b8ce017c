import TokenGate.Event
import TokenGate.Failure
import TokenGate.Json.Basic
import TokenGate.Seconds

/-!
# Claims

The registered claims of a payload, typed. A claim of another type than it should have makes the
token malformed, not merely invalid.

* `Audience`           one name or a list of names;
* `Claims`             the typed claims, and all members of the payload;
* `Claims.Fault`       a claim of the wrong type;
* `Claims.ofPayload`   the claims of a payload, or the first fault in the order `sub`, `exp`,
                       `iat`, `nbf`, `iss`, `aud`;
* `Claims.shown`       the claims in diagnostics, without the subject.

A time is an integer from 0 to `Seconds.maximum`.
-/

namespace TokenGate

open Text

inductive Audience where
  | single (name : String)
  | many (names : List String)
  deriving DecidableEq, Repr

namespace Audience

def names : Audience → List String
  | .single name => [name]
  | .many names => names

def contains (a : Audience) (name : String) : Bool := a.names.contains name

def shown : Audience → String
  | .single name => Shown.tagged "Single" (Shown.quoted name)
  | .many names => Shown.tagged "Many" (Shown.listed (names.map Shown.quoted))

end Audience

structure Claims where
  subject : Option String
  expiresAt : Option Int
  issuedAt : Option Int
  notBefore : Option Int
  issuer : Option String
  audience : Option Audience
  all : Members

namespace Claims

/-! ## faults -/

inductive Fault where
  | type (claim kind : String)
  | time (claim kind : String)
  | audienceItem
  deriving DecidableEq, Repr

namespace Fault

def kind (_ : Fault) : Failure := .malformedToken

def event : Fault → Event
  | .type claim kind =>
    ⟨.debug, .claims, "Claim has wrong type", [("claim", claim), ("kind", kind)], none⟩
  | .time claim kind =>
    ⟨.debug, .claims, "Time claim is not a non-negative integer",
      [("claim", claim), ("kind", kind)], none⟩
  | .audienceItem => ⟨.debug, .claims, "Audience list contains a non-string entry", [], none⟩

end Fault

/-! ## typed claims -/

def text (payload : Members) (claim : String) : Except Fault (Option String) :=
  match Members.get? payload claim with
  | none => .ok none
  | some (.str s) => .ok (some s)
  | some v => .error (.type claim v.kind)

def time (payload : Members) (claim : String) : Except Fault (Option Int) :=
  match Members.get? payload claim with
  | none => .ok none
  | some (.int n) =>
    if 0 ≤ n ∧ n ≤ Seconds.maximum then .ok (some n) else .error (.time claim (Json.int n).kind)
  | some v => .error (.time claim v.kind)

/-- all items as texts, if they are texts -/
def texts? : List Json → Option (List String)
  | [] => some []
  | .str s :: rest => (texts? rest).map (s :: ·)
  | _ :: _ => none

def audienceOf (payload : Members) : Except Fault (Option Audience) :=
  match Members.get? payload "aud" with
  | none => .ok none
  | some (.str s) => .ok (some (.single s))
  | some (.arr items) =>
    match texts? items with
    | some names => .ok (some (.many names))
    | none => .error .audienceItem
  | some v => .error (.type "aud" v.kind)

def ofPayload (payload : Members) : Except Fault Claims := do
  let subject ← text payload "sub"
  let expiresAt ← time payload "exp"
  let issuedAt ← time payload "iat"
  let notBefore ← time payload "nbf"
  let issuer ← text payload "iss"
  let audience ← audienceOf payload
  return ⟨subject, expiresAt, issuedAt, notBefore, issuer, audience, payload⟩

def get? (c : Claims) (claim : String) : Option Json := Members.get? c.all claim

/-! ## diagnostics -/

def shown (c : Claims) : String :=
  let whole (n : Option Int) := Shown.optional (n.map Shown.integer)
  Shown.record "Claims" [
    ("subject", Shown.optional (c.subject.map fun _ => Shown.redacted)),
    ("expires_at", whole c.expiresAt),
    ("issued_at", whole c.issuedAt),
    ("not_before", whole c.notBefore),
    ("issuer", Shown.optional (c.issuer.map Shown.quoted)),
    ("audience", Shown.optional (c.audience.map Audience.shown)),
    ("claim_count", Shown.integer c.all.length)]

end Claims

end TokenGate
