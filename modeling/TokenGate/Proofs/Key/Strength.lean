import TokenGate.Proofs.Key.Loading
import TokenGate.Proofs.Key.Unique
import TokenGate.Proofs.Rsa.Signature

/-!
# Which RSA keys are of use

* `Key.Reads`               the verifier takes the stored bytes for a key that is good enough;
* `Key.reads_iff`, `loadEvents_eq_nil_iff`   which is so for the keys that are not warned of;
* `Key.verify_mismatch_of_short`   a key of fewer bits verifies nothing;
* `Key.Signs`               the signatures of a key;
* `Key.verify_ok_iff`       a key of enough bits verifies these.
-/

namespace TokenGate

open BigEndian (toNat)
open Rsa (PublicKey Encoded)

namespace Key

variable {key : Key} {k : PublicKey} {h : Digest.Hash} {a : Algorithm}
  {message signature : List UInt8}

/-- the stored bytes are a key that is good for verification -/
def Reads : Key → Prop
  | .secret _ => False
  | .rsa pkcs1 _ => ∃ k, PublicKey.ofPkcs1? pkcs1 = some k ∧ k.Strong

theorem reads_iff (hk : k.Acceptable) :
    (Key.rsa k.pkcs1 k.modulusBits).Reads ↔ 2048 ≤ k.modulusBits := by
  rw [← hk.strong_iff]
  constructor
  · rintro ⟨k', hread, hstrong⟩
    rw [hk.ofPkcs1?_pkcs1] at hread
    obtain rfl := Option.some.inj hread
    exact hstrong
  · exact fun hstrong => ⟨k, hk.ofPkcs1?_pkcs1, hstrong⟩

theorem loadEvents_eq_nil_iff {pkcs1 : List UInt8} {bits : Nat} :
    (Key.rsa pkcs1 bits).loadEvents = [] ↔ 2048 ≤ bits := by
  unfold loadEvents
  by_cases hbits : bits < 2048
  · simp [hbits]
  · simp [hbits, Nat.not_lt.mp hbits]

theorem verify_rsa_eq {pkcs1 : List UInt8} {bits : Nat} (ha : a.family = .rsa h)
    (hread : PublicKey.ofPkcs1? pkcs1 = some k) :
    (Key.rsa pkcs1 bits).verify message signature a
      = acceptIf (k.verifies h message signature) := by
  unfold verify
  rw [ha]
  dsimp only
  rw [hread]

theorem verify_ne_ok_of_short (hk : k.Acceptable) (hshort : k.modulusBits < 2048) :
    (Key.rsa k.pkcs1 k.modulusBits).verify message signature a ≠ .ok () := by
  intro hv
  obtain ⟨h, k', _, hread, hverifies⟩ := verify_rsa_iff.mp hv
  rw [hk.ofPkcs1?_pkcs1] at hread
  obtain rfl := Option.some.inj hread
  have hweak : ¬ k.Strong := mt hk.strong_iff.mp (Nat.not_le.mpr hshort)
  rw [PublicKey.not_verifies hweak] at hverifies
  cases hverifies

theorem verify_mismatch_of_short (hk : k.Acceptable) (hshort : k.modulusBits < 2048)
    (ha : a.family = .rsa h) :
    (Key.rsa k.pkcs1 k.modulusBits).verify message signature a = .error .mismatch := by
  have hweak : ¬ k.Strong := mt hk.strong_iff.mp (Nat.not_le.mpr hshort)
  rw [verify_rsa_eq ha hk.ofPkcs1?_pkcs1, PublicKey.not_verifies hweak]
  rfl

/-- the signatures of a key: as long as the modulus, below it, and a root of the encoded message -/
def Signs (k : PublicKey) (h : Digest.Hash) (message signature : List UInt8) : Prop :=
  signature.length = k.modulusBits / 8 ∧ 0 < toNat signature ∧ toNat signature < k.modulus
    ∧ ∃ em, Encoded h (k.modulusBits / 8) message em
      ∧ toNat signature ^ k.exponent % k.modulus = toNat em

theorem verify_ok_iff (hk : k.Acceptable) (hbits : 2048 ≤ k.modulusBits)
    (ha : a.family = .rsa h) :
    (Key.rsa k.pkcs1 k.modulusBits).verify message signature a = .ok () ↔
      Signs k h message signature := by
  have hsize : k.modulusBits / 8 = k.modulusSize := Nat.mul_div_cancel_left _ (by decide)
  rw [verify_rsa_eq ha hk.ofPkcs1?_pkcs1, acceptIf_eq_ok_iff,
    PublicKey.verifies_iff (hk.strong_iff.mpr hbits), Signs, hsize]

end Key

end TokenGate
