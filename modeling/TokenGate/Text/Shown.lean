import TokenGate.Text.Bytes
import TokenGate.Text.Unprintable

/-!
# Values as one line of text

How records, alternatives, lists and texts are shown in diagnostics.

* `quoted s`               a text in double quotes;
* `record n fs`            `n { f: v, g: w }`, and `n` alone without fields;
* `openRecord n fs`        the same with `..` for the fields that are left out;
* `tagged n v`             `n(v)`;
* `listed vs`, `braced vs`   a list in brackets, a set in braces;
* `optional v?`            `Some(v)` or `None`.
-/

namespace TokenGate.Text.Shown

/-! ## texts -/

/-- the code point between braces, as short as possible -/
def codePoint (c : Char) : List Char :=
  "\\u\x7b".toList ++ (Nat.toDigits 16 c.toNat) ++ ['}']

/-- one character between the quotes -/
def quotedChar (c : Char) : List Char :=
  if c = '"' then ['\\', '"']
  else if c = '\\' then ['\\', '\\']
  else if c = '\n' then ['\\', 'n']
  else if c = '\r' then ['\\', 'r']
  else if c = '\t' then ['\\', 't']
  else if c = '\x00' then ['\\', '0']
  else if ' ' ≤ c ∧ c ≤ '~' then [c]
  else if isUnprintable c then codePoint c
  else [c]

def quoted (s : String) : String :=
  String.ofList (['"'] ++ s.toList.flatMap quotedChar ++ ['"'])

/-! ## compound values -/

def joined (separator : String) (items : List String) : String :=
  String.intercalate separator items

def field (f : String × String) : String := f.1 ++ ": " ++ f.2

def record (name : String) (fields : List (String × String)) : String :=
  if fields.isEmpty then name
  else name ++ " \x7b " ++ joined ", " (fields.map field) ++ " \x7d"

def openRecord (name : String) (fields : List (String × String)) : String :=
  name ++ " \x7b " ++ joined ", " (fields.map field ++ [".."]) ++ " \x7d"

def tagged (name value : String) : String := name ++ "(" ++ value ++ ")"

def listed (items : List String) : String := "[" ++ joined ", " items ++ "]"

def braced (items : List String) : String := "\x7b" ++ joined ", " items ++ "\x7d"

def optional : Option String → String
  | some v => tagged "Some" v
  | none => "None"

def boolean (b : Bool) : String := if b then "true" else "false"

def integer (n : Int) : String := toString n

/-- what stands for a value that must not be shown -/
def redacted : String := quoted "[REDACTED]"

end TokenGate.Text.Shown
