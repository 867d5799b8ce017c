/-!
# Decimal integers within bounds

An optional sign and ASCII digits, read from left to right; the first thing that goes wrong
decides the fault.

* `Fault`          no digits at all, a character that is no digit, out of bounds;
* `natUpTo limit`  the number that digits spell, at most `limit`;
* `signed64 t`, `unsigned64 t`   the integers of 64 bits, with and without negative ones.
-/

namespace TokenGate.Text.Integer

inductive Fault where
  | empty
  | digit
  | tooLarge
  | tooSmall
  deriving DecidableEq, Repr

def Fault.message : Fault → String
  | .empty => "cannot parse integer from empty string"
  | .digit => "invalid digit found in string"
  | .tooLarge => "number too large to fit in target type"
  | .tooSmall => "number too small to fit in target type"

/-- the value of an ASCII digit -/
def digit? (c : Char) : Option Nat :=
  if '0' ≤ c ∧ c ≤ '9' then some (c.toNat - 48) else none

/-- continue the number `n` with the digits of a text; `beyond` is the fault past `limit` -/
def natUpTo (limit : Nat) (beyond : Fault) (n : Nat) : List Char → Except Fault Nat
  | [] => .ok n
  | c :: cs =>
    match digit? c with
    | none => .error .digit
    | some d => if 10 * n + d ≤ limit then natUpTo limit beyond (10 * n + d) cs else .error beyond

theorem natUpTo_nil (limit : Nat) (beyond : Fault) (n : Nat) :
    natUpTo limit beyond n [] = .ok n := rfl

/-- the digits of a number, of which there has to be one -/
def digits (limit : Nat) (beyond : Fault) : List Char → Except Fault Nat
  | [] => .error .digit
  | cs => natUpTo limit beyond 0 cs

def maxSigned : Nat := 9223372036854775807

def maxUnsigned : Nat := 18446744073709551615

/-- from `-maxSigned - 1` to `maxSigned` -/
def signed64 (text : List Char) : Except Fault Int :=
  match text with
  | [] => .error .empty
  | '+' :: cs => (digits maxSigned .tooLarge cs).map Int.ofNat
  | '-' :: cs => (digits (maxSigned + 1) .tooSmall cs).map fun n => -Int.ofNat n
  | cs => (digits maxSigned .tooLarge cs).map Int.ofNat

/-- from `0` to `maxUnsigned`; a minus sign is no digit -/
def unsigned64 (text : List Char) : Except Fault Nat :=
  match text with
  | [] => .error .empty
  | '+' :: cs => digits maxUnsigned .tooLarge cs
  | cs => digits maxUnsigned .tooLarge cs

end TokenGate.Text.Integer
