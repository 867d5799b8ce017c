import TokenGate.Digest.Hmac
import TokenGate.Json.Writer
import TokenGate.Seconds
import TokenGate.Text.Base64
import TokenGate.Token.Algorithm
import TokenGate.Token.SampleKeys

/-!
# Making tokens

* `Draft`                claims that are to become a token, and the instant that spans count from;
* `Draft.start now`      claims that any gate without issuer and audience accepts for an hour;
* `Draft.withClaim`, `withoutClaim` and the named variants   changing the claims;
* `signingInput h c`     header and claims, each in base64, with a dot between them;
* `Draft.signHmac`, `signRsa`   the token under an algorithm of that family;
* `Draft.signUnder`      the token under any algorithm, with the sample keys;
* `Draft.signWithHeader` a token of HS256 under an arbitrary header.

The two families write their headers differently: the type comes first with a shared secret, the
algorithm with RSA.
-/

namespace TokenGate

open Digest (Hash)
open Text

structure Draft where
  now : Int
  claims : Members

namespace Draft

/-! ## claims -/

def withClaim (name : String) (value : Json) (d : Draft) : Draft :=
  { d with claims := Members.put name value d.claims }

def withoutClaim (name : String) (d : Draft) : Draft :=
  { d with claims := Members.remove name d.claims }

def texts (ts : List String) : Json := .arr (ts.map .str)

def forSubject (subject : String) : Draft → Draft := withClaim "sub" (.str subject)

def withRoles (roles : List String) : Draft → Draft := withClaim "roles" (texts roles)

def withRoleText (roles : String) : Draft → Draft := withClaim "roles" (.str roles)

def issuedBy (issuer : String) : Draft → Draft := withClaim "iss" (.str issuer)

def forAudience (name : String) : Draft → Draft := withClaim "aud" (.str name)

def forAudiences (names : List String) : Draft → Draft := withClaim "aud" (texts names)

def expiringAt (instant : Int) : Draft → Draft := withClaim "exp" (.int instant)

def expiringIn (seconds : Int) (d : Draft) : Draft := d.expiringAt (Seconds.cycle d.now seconds)

def startingIn (seconds : Int) (d : Draft) : Draft :=
  d.withClaim "nbf" (.int (Seconds.cycle d.now seconds))

def start (now : Int) : Draft :=
  ((⟨now, []⟩ : Draft).forSubject "user1").withClaim "iat" (.int now) |>.expiringIn 3600

/-- a draft with the usual issuer and audience -/
def scenario (now : Int) : Draft :=
  (start now).issuedBy "https://issuer.test.example" |>.forAudience "orders-api"

/-! ## signing -/

def segment (v : Json) : String := Base64.encodeText Base64.urlSafe (bytes v.toText)

def signingInput (header : Json) (claims : Members) : String :=
  segment header ++ "." ++ segment (.obj claims)

def withSignature (input : String) (signature : List UInt8) : String :=
  input ++ "." ++ Base64.encodeText Base64.urlSafe signature

inductive Fault where
  | notHmac (algorithm : Algorithm)
  | notRsa (algorithm : Algorithm)
  deriving DecidableEq, Repr

def Fault.message : Fault → String
  | .notHmac a => "Cryptographic operation failed: " ++ a.name ++ " is not an HMAC algorithm"
  | .notRsa a => "Cryptographic operation failed: " ++ a.name ++ " is not an RSA algorithm"

def hmacHeader (a : Algorithm) : Json := .obj [("typ", .str "JWT"), ("alg", .str a.name)]

def rsaHeader (a : Algorithm) : Json := .obj [("alg", .str a.name), ("typ", .str "JWT")]

/-- a token whose signature is a keyed hash -/
def sealed (h : Hash) (secret : List UInt8) (header : Json) (d : Draft) : String :=
  let input := signingInput header d.claims
  withSignature input (h.mac secret (bytes input))

def signHmac (a : Algorithm) (secret : List UInt8) (d : Draft) : Except Fault String :=
  match a.family with
  | .hmac h => .ok (d.sealed h secret (hmacHeader a))
  | .rsa _ => .error (.notHmac a)

def signRsa (a : Algorithm) (k : Rsa.PrivateKey) (d : Draft) : Except Fault String :=
  match a.family with
  | .rsa h =>
    let input := signingInput (rsaHeader a) d.claims
    .ok (withSignature input (k.sign h (bytes input)))
  | .hmac _ => .error (.notRsa a)

def signUnder (a : Algorithm) (d : Draft) : Except Fault String :=
  match a.family with
  | .hmac _ => d.signHmac a SampleKeys.secret
  | .rsa _ => d.signRsa a SampleKeys.first

def signWithHeader (header : Json) (d : Draft) : String :=
  d.sealed .sha256 SampleKeys.secret header

end Draft

end TokenGate
