/-!
# Numbers as byte strings, most significant byte first

* `toNat bs`    the number that bytes spell;
* `ofNat n k`   the `k` low-order bytes of a number;
* `size n`      how many bytes a number needs, none for zero;
* `minimal n`   its bytes, without a zero in front.
-/

namespace TokenGate.BigEndian

def toNat (bs : List UInt8) : Nat := bs.foldl (fun n b => n * 256 + b.toNat) 0

def ofNat (n : Nat) : Nat → List UInt8
  | 0 => []
  | k + 1 => ofNat (n / 256) k ++ [UInt8.ofNat (n % 256)]

def size (n : Nat) : Nat := if n = 0 then 0 else n.log2 / 8 + 1

def minimal (n : Nat) : List UInt8 := ofNat n (size n)

theorem toNat_nil : toNat [] = 0 := rfl

theorem toNat_concat (bs : List UInt8) (b : UInt8) :
    toNat (bs ++ [b]) = toNat bs * 256 + b.toNat := by
  simp [toNat]

theorem length_ofNat (n k : Nat) : (ofNat n k).length = k := by
  induction k generalizing n with
  | zero => rfl
  | succ k ih => simp [ofNat, ih]

end TokenGate.BigEndian
