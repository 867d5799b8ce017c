import TokenGate.Digest.Hmac
import TokenGate.Event
import TokenGate.Rsa.Signature
import TokenGate.Text.Base64
import TokenGate.Text.Blank
import TokenGate.Text.Bytes
import TokenGate.Text.Shown
import TokenGate.Token.Algorithm

/-!
# Verification keys

* `Key`                 a shared secret, or an RSA public key as bare `RSAPublicKey` bytes;
* `Key.ofSecret`, `ofSecretText`   a secret from its bytes or from base64;
* `Key.ofPublicKeyText` an RSA key from base64 of either DER structure, with or without armour;
* `Key.verify`          whether a signature belongs to a message, under an algorithm;
* `Verifier`            what `Key.verify` is for one key; the gate may be given another one.

A key serves the algorithms of its own kind only: an algorithm of the other family is refused
before any signature is looked at. The bytes of an RSA key are read again for every signature,
and a key that is not `Rsa.PublicKey.Strong` verifies none.
-/

namespace TokenGate

open Digest (Hash)
open Text

inductive KeyKind where
  | secret
  | rsaPublicKey
  deriving DecidableEq, Repr

def KeyKind.label : KeyKind → String
  | .secret => "secret"
  | .rsaPublicKey => "rsa_public_key"

inductive Key where
  | secret (bytes : List UInt8)
  | rsa (pkcs1 : List UInt8) (modulusBits : Nat)
  deriving DecidableEq, Repr

namespace Key

def kind : Key → KeyKind
  | .secret _ => .secret
  | .rsa _ _ => .rsaPublicKey

/-- the key in diagnostics, without its secret -/
def shown : Key → String
  | .secret _ => Shown.tagged "Secret" Shown.redacted
  | .rsa _ bits => Shown.openRecord "RsaPublicKey" [("modulus_bits", Shown.integer bits)]

/-! ## loading -/

inductive Fault where
  | secretNotBase64 (cause : Base64.Fault)
  | secretEmpty
  | publicNotBase64 (cause : Base64.Fault)
  | publicNotRsa
  deriving DecidableEq, Repr

def Fault.cause : Fault → String
  | .secretNotBase64 f => "not valid base64: " ++ f.message
  | .secretEmpty => "secret key is empty"
  | .publicNotBase64 f => "not valid base64: " ++ f.message
  | .publicNotRsa => "not an RSA public key"

def ofSecret (bs : List UInt8) : Except Fault Key :=
  if bs.isEmpty then .error .secretEmpty else .ok (.secret bs)

/-- a secret from padded base64, blanks around it aside -/
def ofSecretText (text : String) : Except Fault Key :=
  match Base64.decode Base64.standard (bytes (trimmed text)) with
  | .error f => .error (.secretNotBase64 f)
  | .ok bs => ofSecret bs

/-- the lines of armour around a key start with five dashes -/
def isArmour (line : List Char) : Bool := line.take 5 == ['-', '-', '-', '-', '-']

/-- the base64 in a text: no armour, no blanks, all lines joined -/
def bareText (cs : List Char) : List Char :=
  ((pieces (· == '\n') cs).filter fun l => !isArmour l).flatMap fun l =>
    l.filter fun c => !isBlank c

/-- the stored form of an RSA key -/
def ofPublicKey (k : Rsa.PublicKey) : Key := .rsa k.pkcs1 k.modulusBits

def ofPublicKeyText (text : String) : Except Fault Key :=
  match Base64.decode Base64.standard (bytes (String.ofList (bareText text.toList))) with
  | .error f => .error (.publicNotBase64 f)
  | .ok bs =>
    match Rsa.PublicKey.ofDer? bs with
    | none => .error .publicNotRsa
    | some k => .ok (ofPublicKey k)

/-- what is reported of a key that was just loaded from base64 -/
def loadEvents : Key → List Event
  | .secret _ => []
  | .rsa _ bits =>
    if bits < 2048 then
      [⟨.warn, .config,
        "RSA public key is shorter than 2048 bits; every RSA token will be rejected",
        [("modulus_bits", Shown.integer bits)], none⟩]
    else []

end Key

/-! ## verifying -/

inductive SignatureFault where
  | keyKind (algorithm : Algorithm) (kind : KeyKind)
  | mismatch
  deriving DecidableEq, Repr

def SignatureFault.message : SignatureFault → String
  | .keyKind a k =>
    "token algorithm " ++ a.name ++ " does not match the configured " ++ k.label ++ " key"
  | .mismatch => "signature does not match"

/-- decides on message, signature and algorithm -/
abbrev Verifier := List UInt8 → List UInt8 → Algorithm → Except SignatureFault Unit

/-- a mismatch unless the signature is the right one -/
def acceptIf (right : Bool) : Except SignatureFault Unit :=
  if right then .ok () else .error .mismatch

def Key.verify (key : Key) : Verifier := fun message signature algorithm =>
  match algorithm.family, key with
  | .hmac h, .secret k => acceptIf (signature == h.mac k message)
  | .rsa h, .rsa pkcs1 _ =>
    match Rsa.PublicKey.ofPkcs1? pkcs1 with
    | some k => acceptIf (k.verifies h message signature)
    | none => .error .mismatch
  | _, key => .error (.keyKind algorithm key.kind)

end TokenGate
