import TokenGate.Digest.Sha2
import TokenGate.Rsa.PublicKey

/-!
# RSA signatures

RSASSA-PKCS1-v1_5 of RFC 8017.

* `powMod b e m`       `b ^ e % m` by repeated squaring;
* `block h size m`     the encoded message of `size` bytes that is raised to a power;
* `Strong`             the keys that are good for verification, from 2048 to 8192 bits;
* `PublicKey.verifies` whether a byte string is a signature of a message;
* `PrivateKey.sign`    the signature of a message.

A signature is exactly as long as the modulus, and its number lies strictly between zero and the
modulus, so that no second byte string stands for the same number.
-/

namespace TokenGate.Rsa

open Digest (Hash)

/-! ## powers -/

def powMod (b e m : Nat) : Nat :=
  if h : e = 0 then 1 % m
  else
    let r := powMod b (e / 2) m
    if e % 2 = 1 then r * r % m * b % m else r * r % m
termination_by e

/-! ## the encoded message -/

/-- the last number of the hash function's object identifier 2.16.840.1.101.3.4.2.x -/
def hashId : Hash → UInt8
  | .sha256 => 1
  | .sha384 => 2
  | .sha512 => 3

/-- the digest together with the name of its hash function -/
def digestInfo (h : Hash) (message : List UInt8) : List UInt8 :=
  Der.sequence [
    Der.sequence [
      Der.element Der.objectIdTag [0x60, 0x86, 0x48, 0x01, 0x65, 0x03, 0x04, 0x02, hashId h],
      Der.element Der.nullTag []],
    Der.element Der.octetStringTag (h.digest message)]

/-- `00 01 ff … ff 00` and the digest, `size` bytes in all -/
def block (h : Hash) (size : Nat) (message : List UInt8) : List UInt8 :=
  let info := digestInfo h message
  0 :: 1 :: List.replicate (size - info.length - 3) 0xff ++ 0 :: info

/-! ## verifying and signing -/

namespace PublicKey

/-- the keys that are good for verification -/
def Strong (k : PublicKey) : Prop :=
  k.modulus % 2 = 1 ∧ 2048 ≤ k.modulusBits ∧ k.modulus < 1 <<< 8192
    ∧ k.exponent % 2 = 1 ∧ 3 ≤ k.exponent ∧ k.exponent ≤ maxExponent

instance (k : PublicKey) : Decidable k.Strong := by
  unfold Strong
  infer_instance

def verifies (k : PublicKey) (h : Hash) (message signature : List UInt8) : Bool :=
  let s := BigEndian.toNat signature
  decide k.Strong && signature.length == k.modulusSize && 0 < s && s < k.modulus
    && BigEndian.ofNat (powMod s k.exponent k.modulus) k.modulusSize
      == block h k.modulusSize message

end PublicKey

structure PrivateKey extends PublicKey where
  secretExponent : Nat

def PrivateKey.sign (k : PrivateKey) (h : Hash) (message : List UInt8) : List UInt8 :=
  BigEndian.ofNat
    (powMod (BigEndian.toNat (block h k.modulusSize message)) k.secretExponent k.modulus)
    k.modulusSize

end TokenGate.Rsa
