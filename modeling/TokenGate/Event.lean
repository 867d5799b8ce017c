import TokenGate.Text.Base64

/-!
# Log events

* `Level`, `Area`   how grave an event is and which part of the library reports it;
* `Cause`           the fault of something underneath that an event tells of;
* `Event`           level, area, message, named values as text, and the cause;
* `Event.named`     all values of an event by name.
-/

namespace TokenGate

open Text

inductive Level where
  | trace
  | debug
  | info
  | warn
  | error
  deriving DecidableEq, Repr

def Level.name : Level → String
  | .trace => "trace"
  | .debug => "debug"
  | .info => "info"
  | .warn => "warn"
  | .error => "error"

inductive Area where
  | cache
  | claims
  | config
  | engine
  | roles
  | signature
  | token
  deriving DecidableEq, Repr

def Area.target : Area → String
  | .cache => "bearer.auth.cache"
  | .claims => "bearer.auth.claims"
  | .config => "bearer.auth.config"
  | .engine => "bearer.auth.engine"
  | .roles => "bearer.auth.roles"
  | .signature => "bearer.auth.signature"
  | .token => "bearer.auth.token"

/-! ## causes -/

/-- what went wrong underneath -/
inductive Cause where
  /-- a text is not base64 -/
  | base64 (fault : Base64.Fault)
  /-- the bytes are no JSON document -/
  | json (document : List UInt8)
  /-- a text cannot stand in a header -/
  | headerValue
  /-- a task broke off -/
  | task (report : String)
  deriving DecidableEq, Repr

/-- the words for a cause. What a reader of JSON says of bytes that it cannot read differs from
one release of it to the next, and is therefore given by `complaint`. -/
def Cause.message (complaint : List UInt8 → String) : Cause → String
  | .base64 fault => fault.message
  | .json document => complaint document
  | .headerValue => "failed to parse header value"
  | .task report => report

/-! ## events -/

structure Event where
  level : Level
  area : Area
  message : String
  fields : List (String × String)
  cause : Option Cause
  deriving DecidableEq, Repr

/-- the values of an event by name, its cause behind the others -/
def Event.named (complaint : List UInt8 → String) (e : Event) : List (String × String) :=
  e.fields ++ (e.cause.map fun c => ("error", c.message complaint)).toList

end TokenGate
