import TokenGate.Gate.Examine
import TokenGate.Token.Credential

/-!
# Replies to requests

* `Reply`                a decision, the memo after it, and what could be observed;
* `Gate.decide`          look the token of a header up in the memo, and examine it where that
                         does not help; remember what was accepted;
* `Gate.authenticate`    `decide`, with the decision counted and a rejection reported;
* `Gate.validUntil`      how long an accepted token is remembered: until it expires, but no
                         longer than the cap on the time in the memo.

A rejected request stores nothing.
-/

namespace TokenGate

open Text

structure Reply where
  decision : Decision
  memo : Memo
  signals : List Signal

namespace Gate

/-! ## one request -/

def validUntil (g : Gate) (now expiresAt : Int) : Int :=
  match g.ttlCap with
  | some cap => min expiresAt (Seconds.add now cap)
  | none => expiresAt

/-- the memo after a full validation at the instant `now` -/
def remember (g : Gate) (m : Memo) (token : String) (o : Outcome) (now : Int) :
    Placement × Memo :=
  match o.accepted, o.expiresAt with
  | true, some expiresAt => m.store token o now (g.validUntil now expiresAt)
  | _, _ => (.refused, m)

/-- examine a token that the memo cannot help with -/
def decideFresh (g : Gate) (realm : Realm) (m : Memo) (token : String) (now : Int) : Reply :=
  let examined := g.examine realm token now
  let outcome := examined.outcome
  let (placement, memo) := g.remember m token outcome now
  { decision := outcome.decision
    memo
    signals :=
      examined.signals ++ .timed :: (placement.events m.capacity).map .logged }

def servedEvent : Event := ⟨.trace, .cache, "Served validation outcome from cache", [], none⟩

/-- decide on a token -/
def decideToken (g : Gate) (realm : Realm) (m : Memo) (token : String) (now : Int) : Reply :=
  let (found, memo) := m.lookup token now
  let looked := (found.events now).map Signal.logged ++ [.lookedUp found]
  match found with
  | .hit e => ⟨e.outcome.decision, memo, looked ++ [.logged servedEvent]⟩
  | _ =>
    let reply := g.decideFresh realm memo token now
    { reply with signals := looked ++ reply.signals }

def decide (g : Gate) (realm : Realm) (m : Memo) (header : Option String) (now : Int) : Reply :=
  match Credential.ofHeader header with
  | .error fault => ⟨(Outcome.reject fault.kind).decision, m, fault.events.map .logged⟩
  | .ok token => g.decideToken realm m token now

/-- a rejection is reported, an acceptance is not -/
def closingEvents : Decision → List Event
  | .accepted _ => []
  | .rejected r => [⟨.debug, .engine, "Request rejected", [("failure", r.kind.label)], none⟩]

def authenticate (g : Gate) (realm : Realm) (m : Memo) (header : Option String) (now : Int) :
    Reply :=
  let reply := g.decide realm m header now
  { reply with
    signals := reply.signals ++ .decided reply.decision.failure?
      :: (closingEvents reply.decision).map .logged }

end Gate

end TokenGate
