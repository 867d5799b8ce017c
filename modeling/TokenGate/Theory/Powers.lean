import Mathlib
import TokenGate.Rsa.Signature

/-!
# Theory of modular powers

* `powMod_eq`        repeated squaring computes the remainder of a power;
* `pow_modEq_of_primes`   a power that leaves one after division by `(p - 1) * (q - 1)` changes
                     nothing modulo `p * q`.
-/

namespace TokenGate.Rsa

theorem powMod_eq (b e m : Nat) : powMod b e m = b ^ e % m := by
  induction e using Nat.strongRecOn with
  | ind e ih =>
    rw [powMod]
    split
    · next h => simp [h]
    · next h =>
      have hsq : b ^ (e / 2) % m * (b ^ (e / 2) % m) % m = b ^ (2 * (e / 2)) % m := by
        rw [← Nat.mul_mod, ← Nat.pow_add]
        congr 2
        omega
      simp only [ih (e / 2) (by omega), hsq]
      split
      · next h1 =>
        have he : 2 * (e / 2) + 1 = e := by omega
        rw [Nat.mod_mul_mod, ← Nat.pow_succ, Nat.succ_eq_add_one, he]
      · next h0 =>
        have he : 2 * (e / 2) = e := by omega
        rw [he]

theorem pow_modEq_of_prime {p m : Nat} (hp : p.Prime) (h : (p - 1) ∣ m) (x : Nat) :
    x ^ (m + 1) ≡ x [MOD p] := by
  have : Fact p.Prime := ⟨hp⟩
  obtain ⟨k, rfl⟩ := h
  rw [← ZMod.natCast_eq_natCast_iff]
  push_cast
  by_cases hx : (x : ZMod p) = 0
  · rw [hx, zero_pow (Nat.succ_ne_zero _)]
  · rw [pow_succ, pow_mul, ZMod.pow_card_sub_one_eq_one hx, one_pow, one_mul]

theorem pow_modEq_of_primes {p q m : Nat} (hp : p.Prime) (hq : q.Prime) (hpq : p ≠ q)
    (h : (p - 1) * (q - 1) ∣ m) (x : Nat) : x ^ (m + 1) ≡ x [MOD p * q] :=
  (Nat.modEq_and_modEq_iff_modEq_mul ((Nat.coprime_primes hp hq).mpr hpq)).mp
    ⟨pow_modEq_of_prime hp (dvd_of_mul_right_dvd h) x,
      pow_modEq_of_prime hq (dvd_of_mul_left_dvd h) x⟩

end TokenGate.Rsa
