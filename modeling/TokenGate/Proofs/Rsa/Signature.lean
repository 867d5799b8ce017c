import TokenGate.Proofs.Rsa.PublicKey
import TokenGate.Theory.Powers

/-!
# Which byte strings are RSA signatures

* `digestPrefix`            what stands in front of the digest, for each hash function;
* `Encoded h size m em`     `em` is the encoded message of `size` bytes;
* `encoded_iff`             there is one, and it is the block that is computed;
* `verifies_iff`            what a key that is good for verification accepts;
* `Acceptable.strong_iff`   which of the keys that can be configured are good for it.
-/

namespace TokenGate.Rsa

open BigEndian
open Digest (Hash)

variable {h : Hash} {size : Nat} {message signature em : List UInt8}

/-! ## the encoded message -/

/-- the hash function's name and the header of the digest, as RFC 8017 lists them -/
def digestPrefix : Hash → List UInt8
  | .sha256 => [0x30, 0x31, 0x30, 0x0d, 0x06, 0x09, 0x60, 0x86, 0x48, 0x01, 0x65, 0x03, 0x04, 0x02,
      0x01, 0x05, 0x00, 0x04, 0x20]
  | .sha384 => [0x30, 0x41, 0x30, 0x0d, 0x06, 0x09, 0x60, 0x86, 0x48, 0x01, 0x65, 0x03, 0x04, 0x02,
      0x02, 0x05, 0x00, 0x04, 0x30]
  | .sha512 => [0x30, 0x51, 0x30, 0x0d, 0x06, 0x09, 0x60, 0x86, 0x48, 0x01, 0x65, 0x03, 0x04, 0x02,
      0x03, 0x05, 0x00, 0x04, 0x40]

/-- two fixed bytes, fillers, a zero, and the digest behind its prefix -/
def Encoded (h : Hash) (size : Nat) (message em : List UInt8) : Prop :=
  em.length = size ∧ ∃ fill, 8 ≤ fill
    ∧ em = [0x00, 0x01] ++ List.replicate fill 0xff ++ [0x00] ++ digestPrefix h ++ h.digest message

theorem digestInfo_eq (h : Hash) (message : List UInt8) :
    digestInfo h message = digestPrefix h ++ h.digest message := by
  have hlen := Digest.length_digest h message
  unfold digestInfo
  generalize h.digest message = digest at hlen
  cases h <;> simp [Der.sequence_pair, Der.element, Der.lengthBytes, hlen, Hash.size, hashId,
    digestPrefix, Der.sequenceTag, Der.objectIdTag, Der.nullTag, Der.octetStringTag]

theorem length_digestInfo_le (h : Hash) (message : List UInt8) :
    (digestInfo h message).length ≤ 83 := by
  rw [digestInfo_eq, List.length_append, Digest.length_digest]
  cases h <;> decide

theorem length_block (hsize : 94 ≤ size) : (block h size message).length = size := by
  have hlen := length_digestInfo_le h message
  simp only [block, List.length_cons, List.length_append, List.length_replicate]
  omega

theorem encoded_iff (hsize : 94 ≤ size) :
    Encoded h size message em ↔ em = block h size message := by
  have hlen := length_digestInfo_le h message
  have hshape : ∀ fill, [0x00, 0x01] ++ List.replicate fill 0xff ++ [0x00] ++ digestPrefix h
      ++ h.digest message = 0 :: 1 :: List.replicate fill 0xff ++ 0 :: digestInfo h message := by
    intro fill
    simp [digestInfo_eq]
  constructor
  · intro hx
    obtain ⟨hem, fill, _, rfl⟩ := hx
    rw [hshape] at hem ⊢
    have hfill : fill = size - (digestInfo h message).length - 3 := by
      simp only [List.length_cons, List.length_append, List.length_replicate] at hem
      omega
    rw [hfill]
    rfl
  · rintro rfl
    exact ⟨length_block hsize, size - (digestInfo h message).length - 3, by omega,
      (hshape _).symm⟩

/-! ## verifying -/

namespace PublicKey

variable {k : PublicKey}

theorem Strong.size_le (hk : k.Strong) : 94 ≤ k.modulusSize := by
  have hbits : 2048 ≤ 8 * k.modulusSize := hk.2.1
  omega

theorem verifies_iff (hk : k.Strong) : k.verifies h message signature = true ↔
    signature.length = k.modulusSize ∧ 0 < toNat signature ∧ toNat signature < k.modulus
      ∧ ∃ em, Encoded h k.modulusSize message em
        ∧ toNat signature ^ k.exponent % k.modulus = toNat em := by
  simp only [verifies, Bool.and_eq_true, beq_iff_eq, decide_eq_true_iff, powMod_eq, hk, true_and,
    and_assoc, encoded_iff hk.size_le, exists_eq_left]
  refine and_congr_right fun _ => and_congr_right fun _ => and_congr_right fun hlt => ?_
  have hpos : 0 < k.modulus := Nat.lt_of_le_of_lt (Nat.zero_le _) hlt
  constructor
  · intro hblock
    rw [← hblock]
    exact (toNat_ofNat_size (Nat.mod_lt _ hpos)).symm
  · intro hpower
    have hread := ofNat_toNat (block h k.modulusSize message)
    rwa [length_block hk.size_le, ← hpower] at hread

theorem not_verifies (hk : ¬ k.Strong) (h : Hash) (message signature : List UInt8) :
    k.verifies h message signature = false := by
  simp [verifies, hk]

theorem shiftLeft_le {m n : Nat} (h : m ≤ n) : 1 <<< m ≤ 1 <<< n := by
  rw [Nat.one_shiftLeft, Nat.one_shiftLeft]
  exact Nat.pow_le_pow_right (by decide) h

theorem Acceptable.strong_iff (hk : k.Acceptable) : k.Strong ↔ 2048 ≤ k.modulusBits := by
  obtain ⟨hn, hodd, _, hodd', htwo, hmax⟩ := hk
  have hlarge : k.modulus < 1 <<< 8192 := Nat.lt_of_lt_of_le hn (shiftLeft_le (by decide))
  constructor
  · exact fun h => h.2.1
  · exact fun hbits => ⟨hodd, hbits, hlarge, hodd', by omega, hmax⟩

end PublicKey

end TokenGate.Rsa
