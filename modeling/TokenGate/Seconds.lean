/-!
# Seconds since the epoch

Points in time and spans are whole seconds within 64 bits.

* `Seconds.add`, `sub`   sum and difference, held at the limits where they leave the range;
* `Seconds.cycle`        a sum that goes on from the other limit instead.
-/

namespace TokenGate.Seconds

/-- the largest integer of 64 bits -/
def maximum : Int := 9223372036854775807

def minimum : Int := -9223372036854775808

/-- the nearest number within the limits -/
def clamp (n : Int) : Int := max minimum (min maximum n)

def add (a b : Int) : Int := clamp (a + b)

def sub (a b : Int) : Int := clamp (a - b)

/-- the number within the limits that differs from `a + b` by a multiple of the range -/
def cycle (a b : Int) : Int := (a + b).bmod 18446744073709551616

theorem clamp_of_mem {n : Int} (h₁ : minimum ≤ n) (h₂ : n ≤ maximum) : clamp n = n := by
  unfold clamp
  omega

end TokenGate.Seconds
