import TokenGate.Event
import TokenGate.Memo

/-!
# What can be observed of a decision

Everything but the decision itself, in the order in which it happens.

* `Signal`            a log event, a count or a sample for the metrics, or a call to the verifier
                      or the identity store;
* `Signal.counter?`   the metric counter that a signal raises by one, with its labels;
* `Signal.sample?`    the metric that a signal gives one sample to;
* `Signal.events`     the log events among signals.
-/

namespace TokenGate

inductive Signal where
  | logged (event : Event)
  /-- a decision, with the failure of a rejection -/
  | decided (failure : Option Failure)
  | lookedUp (result : Lookup)
  /-- how long a full validation took -/
  | timed
  | verified
  | consulted (subject : String)
  deriving DecidableEq

namespace Signal

/-- a metric's name with its labels in order -/
def labelled (name : String) (labels : List (String × String)) : String :=
  name ++ "\x7b" ++ String.intercalate "," (labels.map fun l => l.1 ++ "=" ++ l.2) ++ "\x7d"

def decisionCounter (failure : Option Failure) : String :=
  let (outcome, failure) := match failure with
    | none => ("accepted", "none")
    | some kind => ("rejected", kind.label)
  labelled "bearer_auth_decisions_total" [("outcome", outcome), ("failure", failure)]

def lookupCounter (result : Lookup) : String :=
  labelled "bearer_auth_cache_lookups_total" [("result", result.label)]

def counter? : Signal → Option String
  | .decided failure => some (decisionCounter failure)
  | .lookedUp result => some (lookupCounter result)
  | _ => none

def sample? : Signal → Option String
  | .timed => some "bearer_auth_validation_duration_seconds"
  | _ => none

def event? : Signal → Option Event
  | .logged e => some e
  | _ => none

def events (signals : List Signal) : List Event := signals.filterMap event?

/-- how often the verifier was called -/
def verifications (signals : List Signal) : Nat := signals.count .verified

/-- the subjects that the identity store was asked about -/
def consultations (signals : List Signal) : List String :=
  signals.filterMap fun s => match s with
    | .consulted subject => some subject
    | _ => none

end Signal

/-- how often each name occurs, in the order of first occurrence -/
def tallyNames (names : List String) : List (String × Nat) :=
  names.foldl
    (fun counts name =>
      if counts.any (·.1 == name) then
        counts.map fun c => if c.1 == name then (c.1, c.2 + 1) else c
      else counts ++ [(name, 1)])
    []

end TokenGate
