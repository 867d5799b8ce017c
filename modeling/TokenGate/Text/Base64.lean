/-!
# Base64

Both alphabets of RFC 4648 on byte strings, read strictly: every byte string has exactly one
accepted text.

* `Alphabet`     the two last symbols and whether the last group is filled up with `=`;
* `standard`, `urlSafe`   the padded alphabet of keys, the unpadded one of token segments;
* `encode a bs`  the text of `bs`, three bytes in four symbols;
* `decode a t`   the bytes of the text `t`, or why it has none (`Fault`).

`decode` reads groups of four symbols from left to right. Only the last group may be short or
padded; it is read by `lastGroup`. A single symbol left over at the end is looked at before
anything else (`stray?`).
-/

namespace TokenGate.Text.Base64

/-! ## symbols -/

structure Alphabet where
  symbol62 : UInt8
  symbol63 : UInt8
  padded : Bool

/-- `+` and `/`, padded -/
def standard : Alphabet := ⟨43, 47, true⟩

/-- `-` and `_`, without padding -/
def urlSafe : Alphabet := ⟨45, 95, false⟩

/-- the filler `=` -/
def pad : UInt8 := 61

/-- the symbol of a value below 64 -/
def Alphabet.symbol (a : Alphabet) (v : Nat) : UInt8 :=
  if v < 26 then UInt8.ofNat (65 + v)
  else if v < 52 then UInt8.ofNat (71 + v)
  else if v < 62 then UInt8.ofNat (v - 4)
  else if v = 62 then a.symbol62
  else a.symbol63

/-- the value of a symbol -/
def Alphabet.value? (a : Alphabet) (b : UInt8) : Option Nat :=
  let n := b.toNat
  if 65 ≤ n ∧ n ≤ 90 then some (n - 65)
  else if 97 ≤ n ∧ n ≤ 122 then some (n - 71)
  else if 48 ≤ n ∧ n ≤ 57 then some (n + 4)
  else if b = a.symbol62 then some 62
  else if b = a.symbol63 then some 63
  else none

/-! ## writing -/

/-- `n` fillers, if the alphabet asks for them -/
def Alphabet.filler (a : Alphabet) (n : Nat) : List UInt8 :=
  if a.padded then List.replicate n pad else []

def encode (a : Alphabet) : List UInt8 → List UInt8
  | [] => []
  | [x] =>
    [a.symbol (x.toNat / 4), a.symbol (x.toNat % 4 * 16)] ++ a.filler 2
  | [x, y] =>
    [a.symbol (x.toNat / 4), a.symbol (x.toNat % 4 * 16 + y.toNat / 16),
      a.symbol (y.toNat % 16 * 4)] ++ a.filler 1
  | x :: y :: z :: rest =>
    a.symbol (x.toNat / 4) :: a.symbol (x.toNat % 4 * 16 + y.toNat / 16)
      :: a.symbol (y.toNat % 16 * 4 + z.toNat / 64) :: a.symbol (z.toNat % 64) :: encode a rest

theorem encode_nil (a : Alphabet) : encode a [] = [] := by simp [encode]

theorem encode_group (a : Alphabet) (x y z : UInt8) (rest : List UInt8) :
    encode a (x :: y :: z :: rest) = a.symbol (x.toNat / 4)
      :: a.symbol (x.toNat % 4 * 16 + y.toNat / 16)
      :: a.symbol (y.toNat % 16 * 4 + z.toNat / 64) :: a.symbol (z.toNat % 64)
      :: encode a rest := by
  simp [encode]

/-- the text of `bs` as a string -/
def encodeText (a : Alphabet) (bs : List UInt8) : String :=
  String.ofList ((encode a bs).map fun b => Char.ofNat b.toNat)

/-! ## reading -/

/-- why a text is refused; offsets count bytes from the start of the text -/
inductive Fault where
  | symbol (byte : UInt8) (offset : Nat)
  | length (symbols : Nat)
  | padding
  | lastSymbol (byte : UInt8) (offset : Nat)
  deriving DecidableEq, Repr

def Fault.message : Fault → String
  | .symbol b i => s!"Invalid symbol {b.toNat}, offset {i}."
  | .length n => s!"Invalid input length: {n}"
  | .padding => "Invalid padding"
  | .lastSymbol b i => s!"Invalid last symbol {b.toNat}, offset {i}."

/-- the value of the symbol at an offset -/
def Alphabet.read (a : Alphabet) (offset : Nat) (b : UInt8) : Except Fault Nat :=
  match a.value? b with
  | some v => .ok v
  | none => .error (.symbol b offset)

/-- the three bytes of four values -/
def threeBytes (v₀ v₁ v₂ v₃ : Nat) : List UInt8 :=
  [UInt8.ofNat (v₀ * 4 + v₁ / 16), UInt8.ofNat (v₁ % 16 * 16 + v₂ / 4),
    UInt8.ofNat (v₂ % 4 * 64 + v₃)]

/-- the values of the last group and the number of its fillers; `filler` is the offset of the
first filler already seen. A filler may stand at the third place of the group at the earliest,
and only fillers may follow it. -/
def lastValues (a : Alphabet) (start : Nat) :
    Nat → Option Nat → List UInt8 → Except Fault (List Nat × Nat)
  | _, _, [] => .ok ([], 0)
  | i, filler, b :: bs =>
    if b = pad then
      if i < 2 then .error (.symbol pad (start + i))
      else do
        let (vs, k) ← lastValues a start (i + 1) (filler.or (some (start + i))) bs
        return (vs, k + 1)
    else
      match filler with
      | some offset => .error (.symbol pad offset)
      | none => do
        let v ← a.read (start + i) b
        let (vs, k) ← lastValues a start (i + 1) none bs
        return (v :: vs, k)

/-- whether `n` symbols and `k` fillers make up a last group -/
def Alphabet.fills (a : Alphabet) (n k : Nat) : Bool :=
  if a.padded then (n + k) % 4 == 0 else k == 0

/-- the bytes of the last group's values: two, three or four of them, the unused bits zero -/
def lastBytes (a : Alphabet) (start : Nat) : List Nat → Except Fault (List UInt8)
  | [v₀, v₁] =>
    if v₁ % 16 = 0 then .ok [UInt8.ofNat (v₀ * 4 + v₁ / 16)]
    else .error (.lastSymbol (a.symbol v₁) (start + 1))
  | [v₀, v₁, v₂] =>
    if v₂ % 4 = 0 then .ok [UInt8.ofNat (v₀ * 4 + v₁ / 16), UInt8.ofNat (v₁ % 16 * 16 + v₂ / 4)]
    else .error (.lastSymbol (a.symbol v₂) (start + 2))
  | [v₀, v₁, v₂, v₃] => .ok (threeBytes v₀ v₁ v₂ v₃)
  | vs => .error (.length (start + vs.length))

/-- the last group, of one to four bytes -/
def lastGroup (a : Alphabet) (start : Nat) (text : List UInt8) : Except Fault (List UInt8) := do
  let (vs, k) ← lastValues a start 0 none text
  if vs.length < 2 then .error (.length (start + vs.length))
  else if a.fills vs.length k then lastBytes a start vs
  else .error .padding

/-- all groups, from the byte at offset `start` on -/
def groups (a : Alphabet) (start : Nat) : List UInt8 → Except Fault (List UInt8)
  | [] => .ok []
  | b₀ :: b₁ :: b₂ :: b₃ :: b₄ :: rest => do
    let v₀ ← a.read start b₀
    let v₁ ← a.read (start + 1) b₁
    let v₂ ← a.read (start + 2) b₂
    let v₃ ← a.read (start + 3) b₃
    let tail ← groups a (start + 4) (b₄ :: rest)
    return threeBytes v₀ v₁ v₂ v₃ ++ tail
  | text => lastGroup a start text

/-- a last byte outside the alphabet that stands alone behind the groups of four -/
def stray? (a : Alphabet) (text : List UInt8) : Option Fault :=
  if text.length % 4 = 1 then
    match text.getLast? with
    | some b =>
      if b = pad ∨ (a.value? b).isSome then none else some (.symbol b (text.length - 1))
    | none => none
  else none

def decode (a : Alphabet) (text : List UInt8) : Except Fault (List UInt8) :=
  match stray? a text with
  | some fault => .error fault
  | none => groups a 0 text

end TokenGate.Text.Base64
