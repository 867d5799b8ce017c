import TokenGate.Challenge
import TokenGate.Gate.Reply

/-!
# The command `bearer-check`

Checks one token against the settings in the environment. The token is an argument, or else it is
read from standard input, blanks around it aside; with `--header` it is a whole header.

* `Command.Request`     what the arguments ask for;
* `Command.parse args`  the arguments, read from left to right; the first one that is wrong, or
                        that asks for help or the version, decides;
* `Command.run`         exit code and standard output: 0 and the identity; 1 and the challenge; 2
                        and nothing where arguments, settings or input are unusable; 101 and
                        nothing where there is no room for the gate's memo.

There is no identity store at hand, so the command never asks for one.
-/

namespace TokenGate.Command

open Text

/-! ## arguments -/

structure Check where
  token : Option String
  isHeader : Bool
  deriving DecidableEq, Repr

inductive Request where
  | check (c : Check)
  | help
  | version
  | misuse
  deriving DecidableEq, Repr

/-- the token stands among the arguments at most once -/
def addToken (c : Check) (token : String) : Option Check :=
  if c.token.isSome then none else some { c with token := some token }

/-- arguments behind `--`, none of which is an option -/
def parseTokens (c : Check) : List String → Request
  | [] => .check c
  | arg :: rest =>
    match addToken c arg with
    | some c => parseTokens c rest
    | none => .misuse

/-- options of one letter; the first letter decides -/
def parseLetters : List Char → Request
  | 'h' :: _ => .help
  | 'V' :: _ => .version
  | _ => .misuse

def parseFrom (c : Check) : List String → Request
  | [] => .check c
  | arg :: rest =>
    if arg = "--" then parseTokens c rest
    else if arg = "--header" then
      if c.isHeader then .misuse else parseFrom { c with isHeader := true } rest
    else if arg = "--help" then .help
    else if arg = "--version" then .version
    else
      match arg.toList with
      | '-' :: '-' :: _ => .misuse
      | '-' :: letter :: letters => parseLetters (letter :: letters)
      | _ =>
        match addToken c arg with
        | some c => parseFrom c rest
        | none => .misuse

def parse (args : List String) : Request := parseFrom ⟨none, false⟩ args

/-! ## running -/

structure Result where
  exit : Nat
  stdout : String
  deriving DecidableEq, Repr

def unusable : Result := ⟨2, ""⟩

/-- the command breaks off -/
def aborted : Result := ⟨101, ""⟩

def versionText : String := "bearer-check 0.1.0\n"

def helpText : String :=
  "Check a bearer token against the configured key and claims policy\n\n"
    ++ "Usage: bearer-check [OPTIONS] [TOKEN]\n\n"
    ++ "Arguments:\n"
    ++ "  [TOKEN]  Token to check. Read from stdin when omitted or \"-\"\n\n"
    ++ "Options:\n"
    ++ "      --header   Treat the input as a full Authorization header value\n"
    ++ "  -h, --help     Print help\n"
    ++ "  -V, --version  Print version\n"

/-- the token or header that is to be checked, unless standard input is no text -/
def input? (c : Check) (stdin : List UInt8) : Option String :=
  match c.token.filter fun t => t != "-" with
  | some token => some token
  | none => (ofBytes? stdin).map trimmed

/-- the header that the input stands for -/
def headerOf (c : Check) (input : String) : String :=
  if c.isHeader then input else Credential.header input

/-- the gate of the environment's settings, which asks no identity store -/
def gateOf (env : Environment) : Except Gate.Fault Gate := do
  let s ← (Settings.ofVariables env).mapError .settings
  Gate.build { s with realmRequired := false } false none

/-- no subject is known, but none is asked about -/
def noRealm : Realm := fun _ => .ok .unknown

def report (realmName : String) : Decision → Result
  | .accepted i =>
    ⟨0, "subject: " ++ i.subject ++ "\nroles: " ++ String.intercalate "," i.roles.names ++ "\n"⟩
  | .rejected r => ⟨1, "WWW-Authenticate: " ++ Challenge.value realmName r ++ "\n"⟩

def check (c : Check) (env : Environment) (stdin : List UInt8) (now : Int) : Result :=
  match gateOf env with
  | .error (.settings _) => unusable
  | .error .noRoom => aborted
  | .ok g =>
    match input? c stdin with
    | none => unusable
    | some input =>
      report g.realmName
        (g.authenticate noRealm g.emptyMemo (some (headerOf c input)) now).decision

def run (args : List String) (env : Environment) (stdin : List UInt8) (now : Int) : Result :=
  match parse args with
  | .check c => check c env stdin now
  | .help => ⟨0, helpText⟩
  | .version => ⟨0, versionText⟩
  | .misuse => unusable

end TokenGate.Command
