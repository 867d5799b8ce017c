import TokenGate.Proofs.Rsa.Signature

/-!
# Signing with an RSA key pair

* `PrivateKey.Pair`      a key pair: the two exponents undo each other, and the modulus has 256
                         to 512 bytes;
* `toNat_block_pos`, `toNat_block_lt`   the encoded message is below the modulus, and not zero;
* `Pair.verifies_sign`   what a pair signs, its public key accepts;
* `inverse_of_primes`    two primes make a pair, as long as the exponents fit to them;
* `mersennePair`         a pair of two primes that are known.
-/

namespace TokenGate.Rsa

open BigEndian
open Digest (Hash)

variable {h : Hash} {message : List UInt8} {k : PrivateKey}

/-! ## key pairs -/

structure PrivateKey.Pair (k : PrivateKey) : Prop where
  modulus_odd : k.modulus % 2 = 1
  le_size : 256 ≤ k.modulusSize
  size_le : k.modulusSize ≤ 512
  exponent_odd : k.exponent % 2 = 1
  three_le : 3 ≤ k.exponent
  exponent_le : k.exponent ≤ PublicKey.maxExponent
  exponent_lt : k.exponent < k.modulus
  inverse : ∀ x < k.modulus, (x ^ k.secretExponent) ^ k.exponent % k.modulus = x

namespace PrivateKey.Pair

theorem acceptable (hk : k.Pair) : k.toPublicKey.Acceptable := by
  have hthree := hk.three_le
  refine ⟨?_, hk.modulus_odd, hk.exponent_lt, hk.exponent_odd, by omega, hk.exponent_le⟩
  calc k.modulus < 256 ^ size k.modulus := lt_pow_size _
    _ = 1 <<< (8 * size k.modulus) := (PublicKey.shiftLeft_bytes _).symm
    _ ≤ 1 <<< 4096 := PublicKey.shiftLeft_le (Nat.mul_le_mul_left 8 hk.size_le)

theorem le_modulusBits (hk : k.Pair) : 2048 ≤ k.modulusBits := Nat.mul_le_mul_left 8 hk.le_size

theorem strong (hk : k.Pair) : k.toPublicKey.Strong :=
  hk.acceptable.strong_iff.mpr hk.le_modulusBits

theorem modulus_ne_zero (hk : k.Pair) : k.modulus ≠ 0 := by
  have hodd := hk.modulus_odd
  omega

end PrivateKey.Pair

/-! ## the number of the encoded message -/

/-- a one with a digit behind it for each of the other bytes -/
theorem toNat_block (h : Hash) (message : List UInt8) {size : Nat} (hsize : 94 ≤ size) :
    ∃ low < 256 ^ (size - 2), toNat (block h size message) = 256 ^ (size - 2) + low := by
  have hlen : (block h size message).length = size := length_block hsize
  obtain ⟨rest, hrest⟩ : ∃ rest, block h size message = 0 :: 1 :: rest := ⟨_, rfl⟩
  have hlength : rest.length = size - 2 := by
    rw [hrest, List.length_cons, List.length_cons] at hlen
    omega
  have hlt := toNat_lt rest
  rw [hlength] at hlt
  refine ⟨toNat rest, hlt, ?_⟩
  rw [hrest, toNat_zero_cons, toNat_cons, hlength]
  simp

theorem toNat_block_pos (h : Hash) (message : List UInt8) {size : Nat} (hsize : 94 ≤ size) :
    0 < toNat (block h size message) := by
  obtain ⟨low, _, heq⟩ := toNat_block h message hsize
  rw [heq]
  exact Nat.add_pos_left (Nat.pow_pos (by decide)) low

theorem toNat_block_lt (h : Hash) (message : List UInt8) {n : Nat} (hn : n ≠ 0)
    (hsize : 94 ≤ size n) : toNat (block h (size n) message) < n := by
  obtain ⟨low, hlow, heq⟩ := toNat_block h message hsize
  have hexp : size n - 1 = size n - 2 + 1 := by omega
  calc toNat (block h (size n) message) = 256 ^ (size n - 2) + low := heq
    _ < 256 ^ (size n - 2) + 256 ^ (size n - 2) := Nat.add_lt_add_left hlow _
    _ ≤ 256 ^ (size n - 2) * 256 := by omega
    _ = 256 ^ (size n - 1) := by rw [hexp, Nat.pow_succ]
    _ ≤ n := pow_size_le hn

/-! ## signing -/

theorem PrivateKey.Pair.verifies_sign (hk : k.Pair) (h : Hash) (message : List UInt8) :
    k.toPublicKey.verifies h message (k.sign h message) = true := by
  have hstrong := hk.strong
  have hsize : 94 ≤ size k.modulus := hstrong.size_le
  have hpos : 0 < toNat (block h k.modulusSize message) := toNat_block_pos h message hsize
  have hlt : toNat (block h k.modulusSize message) < k.modulus :=
    toNat_block_lt h message hk.modulus_ne_zero hsize
  have hn : 0 < k.modulus := Nat.lt_trans hpos hlt
  have hvalue : toNat (k.sign h message)
      = toNat (block h k.modulusSize message) ^ k.secretExponent % k.modulus := by
    rw [PrivateKey.sign, powMod_eq]
    exact toNat_ofNat_size (Nat.mod_lt _ hn)
  have hpower : toNat (k.sign h message) ^ k.exponent % k.modulus
      = toNat (block h k.modulusSize message) := by
    rw [hvalue, ← Nat.pow_mod]
    exact hk.inverse _ hlt
  refine (PublicKey.verifies_iff hstrong).mpr ⟨length_ofNat _ _, ?_, ?_, _,
    (encoded_iff hsize).mpr rfl, hpower⟩
  · -- a power of zero would be zero, and the block is not
    rw [Nat.pos_iff_ne_zero]
    intro hzero
    have hthree := hk.three_le
    rw [hzero, Nat.zero_pow (by omega), Nat.zero_mod] at hpower
    omega
  · rw [hvalue]
    exact Nat.mod_lt _ hn

/-! ## pairs of two primes -/

theorem inverse_of_primes {p q d e m : Nat} (hp : p.Prime) (hq : q.Prime) (hpq : p ≠ q)
    (hm : (p - 1) * (q - 1) ∣ m) (hde : d * e = m + 1) :
    ∀ x < p * q, (x ^ d) ^ e % (p * q) = x := by
  intro x hx
  have hmod : x ^ (m + 1) % (p * q) = x % (p * q) := pow_modEq_of_primes hp hq hpq hm x
  rw [← pow_mul, hde, hmod, Nat.mod_eq_of_lt hx]

/-- the pair of the Mersenne primes of 1279 and 2203 bits -/
def mersennePair : PrivateKey where
  modulus := mersenne 1279 * mersenne 2203
  exponent := 65537
  secretExponent := (30861 * ((mersenne 1279 - 1) * (mersenne 2203 - 1)) + 1) / 65537

theorem pair_mersenne : mersennePair.Pair where
  modulus_odd := by decide +kernel
  le_size := by decide +kernel
  size_le := by decide +kernel
  exponent_odd := by decide
  three_le := by decide
  exponent_le := by decide
  exponent_lt := by decide +kernel
  inverse := by
    have hp : (mersenne 1279).Prime :=
      lucas_lehmer_sufficiency _ (by norm_num) (by norm_num)
    have hq : (mersenne 2203).Prime :=
      lucas_lehmer_sufficiency _ (by norm_num) (by norm_num)
    exact inverse_of_primes hp hq (by decide +kernel) (Dvd.intro_left 30861 rfl)
      (by decide +kernel)

end TokenGate.Rsa
