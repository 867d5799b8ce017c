import TokenGate.Json.Basic
import TokenGate.Text.Integer

/-!
# JSON number literals

* `Literal`           a literal as written: sign, digits before and after the point, exponent;
* `Literal.scan?`     the literal at the front of a text;
* `Literal.value?`    its value, if it has one.

A literal without point and exponent is an integer if it fits 64 bits, signed or unsigned; `-0`
does not count as one. Any other literal is a `real`: the number of IEEE 754 binary64 that comes of
as many leading digits as fit 64 unsigned bits, the rest of them being dropped, and of the power of
ten (`Binary64.ofDecimal?`). It has no value if it lies beyond the range of these numbers.
-/

namespace TokenGate.Json

open Text.Integer (maxSigned maxUnsigned)

/-- the largest exponent that is added up; beyond it only a zero has a value -/
def maxExponent : Nat := 2147483647

/-! ## literals -/

structure Literal where
  negative : Bool
  whole : List Nat
  fraction : Option (List Nat)
  /-- the exponent's sign and digits -/
  exponent : Option (Bool × List Nat)
  deriving DecidableEq, Repr

def isDigit (c : Char) : Bool := '0' ≤ c && c ≤ '9'

/-- the digits at the front and the rest -/
def digitRun (cs : List Char) : List Nat × List Char :=
  ((cs.takeWhile isDigit).map fun c => c.toNat - 48, cs.dropWhile isDigit)

/-- at least one digit, and the rest -/
def digitRun₁? (cs : List Char) : Option (List Nat × List Char) :=
  match digitRun cs with
  | ([], _) => none
  | (ds, rest) => some (ds, rest)

/-- digits of which the first is no zero, unless it is the only one -/
def wholeRun? (cs : List Char) : Option (List Nat × List Char) :=
  match digitRun cs with
  | ([], _) => none
  | (0 :: _ :: _, _) => none
  | (ds, rest) => some (ds, rest)

/-- the digits behind a point -/
def fractionRun? : List Char → Option (Option (List Nat) × List Char)
  | '.' :: cs => (digitRun₁? cs).map fun (ds, rest) => (some ds, rest)
  | cs => some (none, cs)

/-- an exponent behind its mark, which is already read -/
def signedRun? : List Char → Option ((Bool × List Nat) × List Char)
  | '+' :: cs => (digitRun₁? cs).map fun (ds, rest) => ((false, ds), rest)
  | '-' :: cs => (digitRun₁? cs).map fun (ds, rest) => ((true, ds), rest)
  | cs => (digitRun₁? cs).map fun (ds, rest) => ((false, ds), rest)

def exponentRun? : List Char → Option (Option (Bool × List Nat) × List Char)
  | c :: cs =>
    if c = 'e' ∨ c = 'E' then (signedRun? cs).map fun (e, rest) => (some e, rest)
    else some (none, c :: cs)
  | [] => some (none, [])

/-- the literal at the front of the text, the sign already read -/
def Literal.scanUnsigned? (negative : Bool) (cs : List Char) : Option (Literal × List Char) := do
  let (whole, cs) ← wholeRun? cs
  let (fraction, cs) ← fractionRun? cs
  let (exponent, cs) ← exponentRun? cs
  return (⟨negative, whole, fraction, exponent⟩, cs)

/-- the literal at the front of the text, and the rest -/
def Literal.scan? : List Char → Option (Literal × List Char)
  | '-' :: cs => scanUnsigned? true cs
  | cs => scanUnsigned? false cs

/-! ## values -/

/-- the number that digits spell -/
def ofDigits (ds : List Nat) : Nat := ds.foldl (fun n d => 10 * n + d) 0

/-- continue `n` with leading digits as long as they fit 64 bits; the digits left over -/
def absorb (n : Nat) : List Nat → Nat × List Nat
  | [] => (n, [])
  | d :: ds => if 10 * n + d ≤ maxUnsigned then absorb (10 * n + d) ds else (n, d :: ds)

def signed (negative : Bool) (n : Nat) : Int := if negative then -Int.ofNat n else Int.ofNat n

/-- significand and power of ten of the digits before and after the point -/
def Literal.scaled (l : Literal) : Nat × Int :=
  let (n, dropped) := absorb 0 l.whole
  let fraction := l.fraction.getD []
  let (m, unread) := absorb n fraction
  (m, (dropped.length : Int) - (fraction.length - unread.length : Int))

/-- a number that is no integer of 64 bits -/
def Literal.real? (l : Literal) : Option Json :=
  let (m, scale) := l.scaled
  let (down, e) := match l.exponent with
    | none => (false, 0)
    | some (down, ds) => (down, ofDigits ds)
  if e > maxExponent then
    if m = 0 ∨ down then some (.real l.negative 0) else none
  else (Binary64.ofDecimal? m (scale + signed down e)).map (.real l.negative)

def Literal.value? (l : Literal) : Option Json :=
  let n := ofDigits l.whole
  if l.fraction.isSome ∨ l.exponent.isSome then l.real?
  else if l.negative then
    if 0 < n ∧ n ≤ maxSigned + 1 then some (.int (-Int.ofNat n)) else l.real?
  else if n ≤ maxUnsigned then some (.int n)
  else l.real?

end TokenGate.Json
