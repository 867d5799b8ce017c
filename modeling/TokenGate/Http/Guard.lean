import TokenGate.Challenge
import TokenGate.Gate.Reply
import TokenGate.Json.Writer

/-!
# The gate in front of a handler

* `Guard.Header`      the value of an Authorization header, any bytes that may stand in one;
* `Guard.decide`      the decision on a request: the gate sees the header if it is plain visible
                      text, and otherwise the request is turned away without the gate;
* `Guard.refusal`     the response to a rejected request: status 401, a challenge, a body that
                      names the failure;
* `Guard.handle`      hands accepted requests on to the handler, together with the identity;
* `Guard.serve`       the same for requests one after the other;
* `Guard.whoAmI`      a handler that answers with the identity it is handed.

The decision is made aside from the request. If a lookup in the identity store does not come back
(`Lookups.lost`), the request is turned away as if the store could not be reached.
-/

namespace TokenGate.Guard

open Text

structure Response where
  status : Nat
  challenge : Option String
  contentType : String
  body : String
  deriving DecidableEq, Repr

/-! ## headers -/

abbrev Header := List UInt8

/-- printable ASCII or a tab -/
def isVisible (b : UInt8) : Bool := (32 ≤ b.toNat && b.toNat ≤ 126) || b.toNat == 9

/-- the text of a header of visible characters -/
def visibleText? (h : Header) : Option String :=
  if h.all isVisible then some (String.ofList (h.map fun b => Char.ofNat b.toNat)) else none

/-- a byte that may stand in the value of a response header -/
def isHeaderByte (b : UInt8) : Bool := (32 ≤ b.toNat && b.toNat != 127) || b.toNat == 9

def isHeaderText (s : String) : Bool := (bytes s).all isHeaderByte

/-! ## responses -/

def errorBody (r : Rejection) : Json :=
  .obj [("error", .obj [("code", .str r.kind.code), ("message", .str r.description)])]

/-- the challenge; without a realm where the realm's name cannot stand in a header -/
def challengeFor (realm : String) (r : Rejection) : String :=
  let value := Challenge.value realm r
  if isHeaderText value then value else "Bearer"

def refusal (realm : String) (r : Rejection) : Response where
  status := 401
  challenge := some (challengeFor realm r)
  contentType := "application/json"
  body := (errorBody r).toText

def refusalEvents (realm : String) (r : Rejection) : List Event :=
  if isHeaderText (Challenge.value realm r) then []
  else [⟨.warn, .engine, "Challenge header is not a valid header value", [], some .headerValue⟩]

def plain (body : String) : Response := ⟨200, none, "text/plain; charset=utf-8", body⟩

def whoAmI : Option Identity → Response
  | some i =>
    plain (Json.toText (.obj [
      ("roles", .arr (i.roles.names.map .str)),
      ("scheme", .str Identity.scheme),
      ("subject", .str i.subject)]))
  | none => plain "no identity"

/-! ## decisions -/

/-- how the identity store answers each subject; without an answer the lookup brings the whole
decision down -/
abbrev Lookups := String → Option (Except StoreFault SubjectRecord)

namespace Lookups

/-- the realm behind lookups that all come back -/
def ofRealm (realm : Realm) : Lookups := fun subject => some (realm subject)

/-- the answers; a lookup that does not come back counts as a store that is out of reach -/
def realm (l : Lookups) : Realm := fun subject => (l subject).getD (.error (.unavailable ""))

/-- the lookup that a signal stands for does not come back -/
def lost (l : Lookups) : Signal → Bool
  | .consulted subject => (l subject).isNone
  | _ => false

/-- what happens up to the first lookup that does not come back, and that lookup -/
def upToLost (l : Lookups) (signals : List Signal) : List Signal :=
  signals.takeWhile (fun s => !l.lost s) ++ (signals.filter l.lost).take 1

theorem lost_ofRealm (realm : Realm) (s : Signal) : (ofRealm realm).lost s = false := by
  cases s <;> rfl

end Lookups

/-- a request as it arrives -/
structure Visit where
  header : Option Header
  now : Int
  lookups : Lookups
  /-- what is reported of the decision's task if a lookup brings it down -/
  report : String := ""

def failedEvent (report : String) : Event :=
  ⟨.error, .engine, "Authentication task failed", [], some (.task report)⟩

def unseenEvent : Event :=
  ⟨.debug, .token, "Authorization header is not visible ASCII", [], none⟩

def rejectedBy (kind : Failure) : Decision := .rejected (.ofKind kind)

/-- a decision that a lookup may bring down -/
def decideAside (g : Gate) (m : Memo) (v : Visit) (text : String) : Reply :=
  let reply := g.authenticate v.lookups.realm m (some text) v.now
  if reply.signals.any v.lookups.lost then
    { decision := rejectedBy .identityStoreUnavailable
      memo := reply.memo
      signals := v.lookups.upToLost reply.signals ++ [.logged (failedEvent v.report)] }
  else reply

def decide (g : Gate) (m : Memo) (v : Visit) : Reply :=
  match v.header with
  | none => g.authenticate v.lookups.realm m none v.now
  | some h =>
    match visibleText? h with
    | some text => decideAside g m v text
    | none => ⟨rejectedBy .malformedHeader, m, [.logged unseenEvent]⟩

/-! ## serving -/

abbrev Handler := Option Identity → Response

/-- the response to a request, with the memo after it and the signals -/
def handle (g : Gate) (handler : Handler) (m : Memo) (v : Visit) :
    Response × Memo × List Signal :=
  let reply := decide g m v
  match reply.decision with
  | .accepted identity => (handler (some identity), reply.memo, reply.signals)
  | .rejected r =>
    (refusal g.realmName r, reply.memo,
      reply.signals ++ (refusalEvents g.realmName r).map .logged)

/-- the responses to requests one after the other, the last memo, and all signals -/
def serve (g : Gate) (handler : Handler) (m : Memo) :
    List Visit → List Response × Memo × List Signal
  | [] => ([], m, [])
  | v :: rest =>
    let (response, m, signals) := handle g handler m v
    let (responses, m, later) := serve g handler m rest
    (response :: responses, m, signals ++ later)

theorem serve_cons (g : Gate) (handler : Handler) (m : Memo) (v : Visit) (rest : List Visit) :
    serve g handler m (v :: rest) =
      let first := handle g handler m v
      let later := serve g handler first.2.1 rest
      (first.1 :: later.1, later.2.1, first.2.2 ++ later.2.2) := rfl

end TokenGate.Guard
