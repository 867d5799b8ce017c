import Mathlib
import TokenGate.BigEndian

/-!
# Theory of byte strings as numbers

* `toNat_append`   how byte strings concatenate;
* `toNat_ofNat`    what is left of a number in `k` bytes;
* `ofNat_toNat`    a byte string is the bytes of its number, as many as it has;
* `lt_pow_size`    a number fits into the bytes it needs, and `pow_size_le` not into fewer;
* `toNat_ofNat_size`   it fits into the bytes that a larger one needs, too;
* `minimal_toNat`  without a zero in front, a byte string is the shortest one of its number.
-/

namespace TokenGate.BigEndian

/-- what stands in front of `cs` is worth `256 ^ cs.length` times as much -/
theorem foldl_toNat (n : Nat) (cs : List UInt8) :
    cs.foldl (fun n b => n * 256 + b.toNat) n = n * 256 ^ cs.length + toNat cs := by
  induction cs generalizing n with
  | nil => simp [toNat_nil]
  | cons c cs ih =>
    have hc : toNat (c :: cs) = c.toNat * 256 ^ cs.length + toNat cs := by
      simpa [toNat] using ih c.toNat
    have hp : n * 256 * 256 ^ cs.length = n * 256 ^ (cs.length + 1) := by
      rw [Nat.mul_assoc, Nat.pow_succ, Nat.mul_comm 256]
    rw [List.foldl_cons, ih, hc, List.length_cons, Nat.add_mul, hp]
    omega

theorem toNat_append (bs cs : List UInt8) :
    toNat (bs ++ cs) = toNat bs * 256 ^ cs.length + toNat cs := by
  rw [toNat, List.foldl_append, foldl_toNat]
  rfl

theorem toNat_ofNat (n k : Nat) : toNat (ofNat n k) = n % 256 ^ k := by
  induction k generalizing n with
  | zero => simp [ofNat, toNat_nil, Nat.mod_one]
  | succ k ih =>
    rw [ofNat, toNat_concat, ih, Nat.pow_succ, Nat.mul_comm (256 ^ k) 256, Nat.mod_mul]
    simp [UInt8.toNat_ofNat']
    omega

theorem ofNat_toNat (bs : List UInt8) : ofNat (toNat bs) bs.length = bs := by
  induction bs using List.reverseRecOn with
  | nil => rfl
  | append_singleton bs b ih =>
    have hb := b.toNat_lt
    have hdiv : (toNat bs * 256 + b.toNat) / 256 = toNat bs := by omega
    have hmod : (toNat bs * 256 + b.toNat) % 256 = b.toNat := by omega
    rw [toNat_concat, List.length_append, List.length_singleton, ofNat, hdiv, hmod, ih,
      UInt8.ofNat_toNat]

theorem lt_pow_size (n : Nat) : n < 256 ^ size n := by
  unfold size
  by_cases hn : n = 0
  · simp [hn]
  · rw [if_neg hn]
    calc n < 2 ^ (n.log2 + 1) := Nat.lt_log2_self
      _ ≤ 2 ^ (8 * (n.log2 / 8 + 1)) := Nat.pow_le_pow_right (by omega) (by omega)
      _ = 256 ^ (n.log2 / 8 + 1) := by rw [Nat.pow_mul]

theorem pow_size_le {n : Nat} (hn : n ≠ 0) : 256 ^ (size n - 1) ≤ n := by
  unfold size
  rw [if_neg hn]
  calc 256 ^ (n.log2 / 8 + 1 - 1) = 2 ^ (8 * (n.log2 / 8)) := by rw [Nat.pow_mul]; rfl
    _ ≤ 2 ^ n.log2 := Nat.pow_le_pow_right (by omega) (by omega)
    _ ≤ n := Nat.log2_self_le hn

theorem size_le {n k : Nat} (h : n < 256 ^ k) : size n ≤ k := by
  by_cases hn : n = 0
  · simp [hn, size]
  · have hlt := (Nat.pow_lt_pow_iff_right (by omega)).mp (Nat.lt_of_le_of_lt (pow_size_le hn) h)
    omega

/-- a number is given back by the bytes that a larger one needs -/
theorem toNat_ofNat_size {m n : Nat} (h : m < n) : toNat (ofNat m (size n)) = m := by
  rw [toNat_ofNat]
  exact Nat.mod_eq_of_lt (Nat.lt_trans h (lt_pow_size n))

theorem toNat_lt (bs : List UInt8) : toNat bs < 256 ^ bs.length := by
  have h := toNat_ofNat (toNat bs) bs.length
  rw [ofNat_toNat] at h
  rw [h]
  exact Nat.mod_lt _ (Nat.pow_pos (by omega))

theorem toNat_singleton (b : UInt8) : toNat [b] = b.toNat := by simp [toNat]

theorem toNat_cons (b : UInt8) (bs : List UInt8) :
    toNat (b :: bs) = b.toNat * 256 ^ bs.length + toNat bs := by
  rw [← List.singleton_append, toNat_append, toNat_singleton]

theorem toNat_zero_cons (bs : List UInt8) : toNat (0 :: bs) = toNat bs := by
  rw [toNat_cons]
  simp

theorem pow_le_toNat {b : UInt8} (hb : b ≠ 0) (bs : List UInt8) :
    256 ^ bs.length ≤ toNat (b :: bs) := by
  have hpos : 1 ≤ b.toNat := Nat.pos_of_ne_zero fun h => hb (UInt8.toNat_inj.mp h)
  rw [toNat_cons]
  exact Nat.le_add_right_of_le (Nat.le_mul_of_pos_left _ hpos)

theorem toNat_minimal (n : Nat) : toNat (minimal n) = n := by
  unfold minimal
  rw [toNat_ofNat]
  exact Nat.mod_eq_of_lt (lt_pow_size n)

theorem length_minimal (n : Nat) : (minimal n).length = size n := length_ofNat n (size n)

theorem minimal_toNat {b : UInt8} (hb : b ≠ 0) (bs : List UInt8) :
    minimal (toNat (b :: bs)) = b :: bs := by
  have hsize : size (toNat (b :: bs)) = (b :: bs).length := by
    have hle := size_le (toNat_lt (b :: bs))
    have hlt := Nat.lt_of_le_of_lt (pow_le_toNat hb bs) (lt_pow_size _)
    rw [Nat.pow_lt_pow_iff_right (by omega)] at hlt
    rw [List.length_cons] at hle ⊢
    omega
  unfold minimal
  rw [hsize, ofNat_toNat]

theorem minimal_ne_zero_cons (n : Nat) (bs : List UInt8) : minimal n ≠ 0 :: bs := by
  intro h
  have hn : toNat bs = n := by rw [← toNat_zero_cons, ← h, toNat_minimal]
  have hlen := congrArg List.length h
  rw [length_minimal, ← hn, List.length_cons] at hlen
  have hle := size_le (toNat_lt bs)
  omega

end TokenGate.BigEndian
