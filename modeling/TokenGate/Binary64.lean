/-!
# Floating-point numbers

The magnitudes of IEEE 754 binary64, exactly: a magnitude is a natural number that counts units
of the smallest positive one, `1 / 2 ^ 1074`, and has 53 significant bits at most. Signs are kept
elsewhere.

* `Binary64.nearest n d`   the magnitude nearest to `n / d` units;
* `ofNat`, `mul`, `div`    numbers, products and quotients, rounded once each;
* `ofDecimal?`             a magnitude from digits and a power of ten;
* `decimal?`               the shortest decimal that no other magnitude is nearer to;
* `text`                   that decimal with a point or an exponent;
* `signedText`             the same behind a sign, which a zero may have as well.

`ofDecimal?` takes a product or a quotient with a power of ten, which is rounded itself, so that the
result is not always the magnitude nearest to the decimal.
-/

namespace TokenGate.Binary64

/-! ## rounding -/

/-- the unit in the last place of a number of units -/
def lastPlace (n : Nat) : Nat := if n < 1 <<< 53 then 1 else 1 <<< (n.log2 - 52)

/-- the magnitude nearest to `n / d` units, of two equally near ones the even one -/
def nearest (n d : Nat) : Nat :=
  let place := lastPlace (n / d)
  let q := n / (d * place)
  let r := n % (d * place)
  if 2 * r < d * place ∨ (2 * r = d * place ∧ q % 2 = 0) then q * place else (q + 1) * place

/-- how many units make a whole -/
def whole : Nat := 1 <<< 1074

/-- beyond it there are no magnitudes -/
def isFinite (m : Nat) : Bool := m < 1 <<< 2098

def ofNat (n : Nat) : Nat := nearest (n * whole) 1

def mul (a b : Nat) : Nat := nearest (a * b) whole

def div (a b : Nat) : Nat := nearest (a * whole) b

/-! ## from decimals -/

/-- the magnitude of a power of ten -/
def tenTo (k : Nat) : Nat := ofNat (Nat.pow 10 k)

/-- the largest power of ten that is a magnitude -/
def maxPower : Nat := 308

/-- `significand * 10 ^ exponent`, unless it is too large. A small power of ten is divided by in two
steps if it has to be; below that nothing is left. -/
def ofDecimal? (significand : Nat) (exponent : Int) : Option Nat :=
  let digits := ofNat significand
  let power := exponent.natAbs
  if 0 ≤ exponent then
    if significand = 0 then some 0
    else if maxPower < power then none
    else
      let m := mul digits (tenTo power)
      if isFinite m then some m else none
  else if power ≤ maxPower then some (div digits (tenTo power))
  else if power ≤ 2 * maxPower then
    some (div (div digits (tenTo maxPower)) (tenTo (power - maxPower)))
  else some 0

/-! ## to decimals -/

/-- The multiple of `10 ^ k` that lies closest to a magnitude, if that is the nearest magnitude to
it. The bounds lie half-way to the magnitudes on either side, and are met by an even magnitude
only; below a power of two the magnitudes are closer to each other. -/
def multiple? (m : Nat) (k : Int) : Option Nat :=
  -- quarters of a unit, `scale` times
  let scale := Nat.pow 10 (-k).toNat
  let step := 4 * whole * Nat.pow 10 k.toNat
  let place := lastPlace m
  let isEven := m / place % 2 = 0
  let below := if 1 < place ∧ m = place <<< 52 then place else 2 * place
  let low := (4 * m - below) * scale
  let high := (4 * m + 2 * place) * scale
  let reaches (x : Nat) : Bool := (low < x && x < high) || (isEven && (x == low || x == high))
  let q := 4 * m * scale / step
  let r := 4 * m * scale % step
  match reaches (q * step), reaches ((q + 1) * step) with
  | true, true => some (if 2 * r < step ∨ (2 * r = step ∧ q % 2 = 0) then q else q + 1)
  | true, false => some q
  | false, true => some (q + 1)
  | false, false => none

/-- digits and a power of ten: the largest power at which there is a decimal for the magnitude -/
def decimal? (m : Nat) : Option (Nat × Int) :=
  if m = 0 then none
  else
    ((List.range 633).map fun i => 308 - Int.ofNat i).findSome? fun k =>
      (multiple? m k).map fun q => (q, k)

/-- digits that stand for a multiple of `10 ^ k`, with a point as long as the number is neither
very large nor very small -/
def layout (digits : List Char) (k : Int) : List Char :=
  let point := digits.length + k
  if 0 ≤ k ∧ point ≤ 16 then digits ++ List.replicate k.toNat '0' ++ ['.', '0']
  else if 0 < point ∧ point ≤ 16 then
    digits.take point.toNat ++ '.' :: digits.drop point.toNat
  else if -5 < point ∧ point ≤ 0 then
    '0' :: '.' :: List.replicate (-point).toNat '0' ++ digits
  else
    let fraction := match digits.drop 1 with
      | [] => []
      | rest => '.' :: rest
    digits.take 1 ++ fraction ++ 'e' :: (toString (point - 1)).toList

def text (m : Nat) : List Char :=
  match decimal? m with
  | none => ['0', '.', '0']
  | some (q, k) => layout (Nat.toDigits 10 q) k

def signedText (negative : Bool) (m : Nat) : List Char :=
  if negative then '-' :: text m else text m

example : (ofDecimal? 15 (-1)).map text = some ['1', '.', '5'] := by decide +kernel

end TokenGate.Binary64
