import TokenGate.Front
import TokenGate.Rsa.Der

/-!
# RSA public keys

* `PublicKey`            modulus and exponent;
* `PublicKey.pkcs1`      the bare `RSAPublicKey` structure of RFC 8017;
* `PublicKey.spki`       the `SubjectPublicKeyInfo` structure of RFC 5280 around it;
* `ofPkcs1?`, `ofSpki?`  reading them; nothing may follow, and the algorithm's parameters are NULL;
* `Acceptable`           the keys that are taken into use, with a modulus of at most 4096 bits;
* `ofDer?`               an acceptable key in either structure;
* `modulusBits`          the bits in the whole bytes of the modulus.
-/

namespace TokenGate.Rsa

structure PublicKey where
  modulus : Nat
  exponent : Nat
  deriving DecidableEq, Repr

namespace PublicKey

/-! ## written form -/

def pkcs1 (k : PublicKey) : List UInt8 :=
  Der.sequence [Der.natural k.modulus, Der.natural k.exponent]

/-- the object identifier 1.2.840.113549.1.1.1 -/
def rsaEncryption : List UInt8 := [0x2a, 0x86, 0x48, 0x86, 0xf7, 0x0d, 0x01, 0x01, 0x01]

/-- the algorithm with its parameters -/
def algorithmId : List UInt8 :=
  Der.sequence [Der.element Der.objectIdTag rsaEncryption, Der.element Der.nullTag []]

/-- a bit string of whole bytes -/
def bitString (bs : List UInt8) : List UInt8 := Der.element Der.bitStringTag (0 :: bs)

def spki (k : PublicKey) : List UInt8 := Der.sequence [algorithmId, bitString k.pkcs1]

/-! ## reading -/

def ofPkcs1? (bs : List UInt8) : Option PublicKey := do
  let content ← Der.sequence? bs
  let (n, rest) ← Der.natural? content
  let (e, rest) ← Der.natural? rest
  if rest.isEmpty then some ⟨n, e⟩ else none

def ofSpki? (bs : List UInt8) : Option PublicKey := do
  let content ← Der.sequence? bs
  let rest ← after? algorithmId content
  match ← Der.whole? Der.bitStringTag rest with
  | 0 :: inner => ofPkcs1? inner
  | _ => none

/-! ## bounds -/

/-- the largest number of 33 bits -/
def maxExponent : Nat := 8589934591

/-- the keys that can be configured -/
def Acceptable (k : PublicKey) : Prop :=
  k.modulus < 1 <<< 4096 ∧ k.modulus % 2 = 1 ∧ k.exponent < k.modulus ∧ k.exponent % 2 = 1
    ∧ 2 ≤ k.exponent ∧ k.exponent ≤ maxExponent

instance (k : PublicKey) : Decidable k.Acceptable := by
  unfold Acceptable
  infer_instance

/-- the acceptable key of a byte string, as `SubjectPublicKeyInfo` or else as `RSAPublicKey` -/
def ofDer? (bs : List UInt8) : Option PublicKey :=
  ((ofSpki? bs).filter fun k => decide k.Acceptable).or
    ((ofPkcs1? bs).filter fun k => decide k.Acceptable)

/-- bytes of the modulus -/
def modulusSize (k : PublicKey) : Nat := BigEndian.size k.modulus

def modulusBits (k : PublicKey) : Nat := 8 * k.modulusSize

end PublicKey

end TokenGate.Rsa
