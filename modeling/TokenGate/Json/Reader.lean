import TokenGate.Json.Number
import TokenGate.Text.Bytes

/-!
# Reading JSON

RFC 8259 without extensions: the only blanks are space, tab, line feed and carriage return,
control characters in texts are written as escapes, surrogates come in pairs, and nothing follows
the value.

* `Json.readText? n`  the value at the front of a text, in which arrays and objects may be nested
                      `n` deep, and the rest of the text;
* `Json.written?`     the value of a whole text, at most `maxDepth` deep.

Objects keep their members as they are written here, in their order and with repeated names.
A text in quotes is read in two steps: `scan` cuts it into characters and escaped UTF-16 units up
to the closing quote, `joinUnits` puts surrogate pairs together.
-/

namespace TokenGate.Json

/-- the deepest nesting that is read -/
def maxDepth : Nat := 127

def isSpace (c : Char) : Bool := c == ' ' || c == '\t' || c == '\n' || c == '\r'

def skip (cs : List Char) : List Char := cs.dropWhile isSpace

/-! ## texts -/

/-- a piece of a quoted text -/
inductive Piece where
  | char (c : Char)
  | unit (n : Nat)
  deriving DecidableEq, Repr

/-- the UTF-16 unit that four hexadecimal digits spell -/
def unit? (a b c d : Char) : Option Nat := do
  let a ← Text.hexValue? a
  let b ← Text.hexValue? b
  let c ← Text.hexValue? c
  let d ← Text.hexValue? d
  return ((a * 16 + b) * 16 + c) * 16 + d

/-- the character behind a backslash -/
def escaped? : Char → Option Char
  | '"' => some '"'
  | '\\' => some '\\'
  | '/' => some '/'
  | 'b' => some '\x08'
  | 'f' => some '\x0c'
  | 'n' => some '\n'
  | 'r' => some '\r'
  | 't' => some '\t'
  | _ => none

/-- the pieces up to the closing quote, and the rest behind it -/
def scan : List Char → Option (List Piece × List Char)
  | [] => none
  | '"' :: cs => some ([], cs)
  | '\\' :: 'u' :: a :: b :: c :: d :: cs => do
    let n ← unit? a b c d
    let (ps, rest) ← scan cs
    return (.unit n :: ps, rest)
  | '\\' :: c :: cs => do
    let e ← escaped? c
    let (ps, rest) ← scan cs
    return (.char e :: ps, rest)
  | c :: cs =>
    if c < ' ' ∨ c = '\\' then none
    else do
      let (ps, rest) ← scan cs
      return (.char c :: ps, rest)

def isHigh (n : Nat) : Bool := 0xD800 ≤ n && n ≤ 0xDBFF

def isLow (n : Nat) : Bool := 0xDC00 ≤ n && n ≤ 0xDFFF

/-- the characters of the pieces; a surrogate without its partner has none -/
def joinUnits : List Piece → Option (List Char)
  | [] => some []
  | .char c :: ps => (joinUnits ps).map (c :: ·)
  | .unit h :: .unit l :: ps =>
    if isHigh h ∧ isLow l then
      (joinUnits ps).map (Char.ofNat (0x10000 + (h - 0xD800) * 0x400 + (l - 0xDC00)) :: ·)
    else if isHigh h ∨ isLow h then none
    else (joinUnits (.unit l :: ps)).map (Char.ofNat h :: ·)
  | .unit n :: ps =>
    if isHigh n ∨ isLow n then none else (joinUnits ps).map (Char.ofNat n :: ·)

/-- a text whose opening quote is already read -/
def quoted? (cs : List Char) : Option (String × List Char) := do
  let (ps, rest) ← scan cs
  let chars ← joinUnits ps
  return (String.ofList chars, rest)

/-! ## values -/

/-- what reads a value at the front of a text -/
abbrev Read := List Char → Option (Json × List Char)

/-- the items of an array from its first one on, read with `read`; at most `fuel` of them -/
def items (read : Read) : Nat → List Char → Option (List Json × List Char)
  | 0, _ => none
  | fuel + 1, cs => do
    let (v, cs) ← read cs
    match skip cs with
    | ',' :: cs => do
      let (vs, rest) ← items read fuel cs
      return (v :: vs, rest)
    | ']' :: rest => some ([v], rest)
    | _ => none

/-- the members of an object from its first one on -/
def members (read : Read) : Nat → List Char → Option (List (String × Json) × List Char)
  | 0, _ => none
  | fuel + 1, cs =>
    match skip cs with
    | '"' :: cs => do
      let (name, cs) ← quoted? cs
      match skip cs with
      | ':' :: cs => do
        let (v, cs) ← read cs
        match skip cs with
        | ',' :: cs => do
          let (kvs, rest) ← members read fuel cs
          return ((name, v) :: kvs, rest)
        | '}' :: rest => some ([(name, v)], rest)
        | _ => none
      | _ => none
    | _ => none

/-- an array or object whose opening bracket is already read -/
def array? (read : Read) (cs : List Char) : Option (Json × List Char) :=
  match skip cs with
  | ']' :: rest => some (.arr [], rest)
  | cs => (items read cs.length cs).map fun (vs, rest) => (.arr vs, rest)

def object? (read : Read) (cs : List Char) : Option (Json × List Char) :=
  match skip cs with
  | '}' :: rest => some (.obj [], rest)
  | cs => (members read cs.length cs).map fun (kvs, rest) => (.obj kvs, rest)

/-- a value that is neither array nor object -/
def scalar? : List Char → Option (Json × List Char)
  | 'n' :: 'u' :: 'l' :: 'l' :: rest => some (.null, rest)
  | 't' :: 'r' :: 'u' :: 'e' :: rest => some (.bool true, rest)
  | 'f' :: 'a' :: 'l' :: 's' :: 'e' :: rest => some (.bool false, rest)
  | '"' :: cs => (quoted? cs).map fun (s, rest) => (.str s, rest)
  | cs => do
    let (literal, rest) ← Literal.scan? cs
    let v ← literal.value?
    return (v, rest)

/-- the value at the front of a text, arrays and objects nested at most `depth` deep -/
def readText? : Nat → Read
  | 0 => fun cs =>
    match skip cs with
    | '[' :: _ => none
    | '{' :: _ => none
    | cs => scalar? cs
  | depth + 1 => fun cs =>
    match skip cs with
    | '[' :: cs => array? (readText? depth) cs
    | '{' :: cs => object? (readText? depth) cs
    | cs => scalar? cs

/-- the value of a whole text -/
def written? (cs : List Char) : Option Json := do
  let (v, rest) ← readText? maxDepth cs
  if (skip rest).isEmpty then some v else none

end TokenGate.Json
