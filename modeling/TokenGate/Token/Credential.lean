import TokenGate.Event
import TokenGate.Failure
import TokenGate.Front
import TokenGate.Text.Blank

/-!
# The token in an Authorization header

`Bearer`, one space, blanks, the token; blanks around all of it do not count. The scheme is
matched exactly, and it is one plain space that ends it.

* `Credential.Fault`       there is no credential, another scheme, or no token;
* `Credential.ofHeader h`  the token in the header `h`, which may be absent;
* `Credential.header t`    the header that presents the token `t`.
-/

namespace TokenGate.Credential

/-- the scheme's name -/
def scheme : String := "Bearer"

inductive Fault where
  | absent
  | noToken
  | otherScheme
  deriving DecidableEq, Repr

namespace Fault

def kind : Fault → Failure
  | .absent => .missingCredentials
  | .noToken => .malformedToken
  | .otherScheme => .malformedHeader

def events : Fault → List Event
  | .absent => []
  | .noToken => [⟨.debug, .token, "Bearer scheme without a token", [], none⟩]
  | .otherScheme => [⟨.debug, .token, "Authorization header is not a Bearer credential", [], none⟩]

end Fault

/-- the token behind the scheme, from the characters of a header without blanks around it -/
def ofTrimmed (cs : List Char) : Except Fault String :=
  if cs.isEmpty then .error .absent
  else if cs = scheme.toList then .error .noToken
  else
    match after? (scheme.toList ++ [' ']) cs with
    | some rest => .ok (String.ofList (Text.trimStart rest))
    | none => .error .otherScheme

def ofHeader : Option String → Except Fault String
  | none => .error .absent
  | some text => ofTrimmed (Text.trim text.toList)

def header (token : String) : String := scheme ++ " " ++ token

end TokenGate.Credential
