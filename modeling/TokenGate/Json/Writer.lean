import TokenGate.Json.Basic
import TokenGate.Text.Bytes

/-!
# Writing JSON

The shortest text of a value: no blanks, members in the order of their names, and escapes only
for the quote, the backslash and the control characters below U+0020.

* `Json.escape c`   one character between the quotes;
* `Json.render v`   the text of a value;
* `Json.toText v`   the same as a string.

The lemmas state `render` constructor by constructor.
-/

namespace TokenGate.Json

/-! ## texts -/

/-- one character between the quotes -/
def escape (c : Char) : List Char :=
  if c = '"' then ['\\', '"']
  else if c = '\\' then ['\\', '\\']
  else if c = '\x08' then ['\\', 'b']
  else if c = '\x0c' then ['\\', 'f']
  else if c = '\n' then ['\\', 'n']
  else if c = '\r' then ['\\', 'r']
  else if c = '\t' then ['\\', 't']
  else if c < ' ' then
    ['\\', 'u', '0', '0', Text.hexDigit (c.toNat / 16), Text.hexDigit (c.toNat % 16)]
  else [c]

def escapeAll (cs : List Char) : List Char := cs.flatMap escape

theorem escapeAll_nil : escapeAll [] = [] := rfl

theorem escapeAll_cons (c : Char) (cs : List Char) :
    escapeAll (c :: cs) = escape c ++ escapeAll cs := by
  simp [escapeAll]

def quote (s : String) : List Char := '"' :: escapeAll s.toList ++ ['"']

/-! ## numbers -/

def decimal (n : Int) : List Char :=
  if n < 0 then '-' :: Nat.toDigits 10 n.natAbs else Nat.toDigits 10 n.natAbs

/-! ## values -/

mutual

def render : Json → List Char
  | .null => ['n', 'u', 'l', 'l']
  | .bool true => ['t', 'r', 'u', 'e']
  | .bool false => ['f', 'a', 'l', 's', 'e']
  | .int n => decimal n
  | .real negative m => Binary64.signedText negative m
  | .str s => quote s
  | .arr [] => ['[', ']']
  | .arr (v :: rest) => '[' :: render v ++ renderItems rest
  | .obj [] => ['{', '}']
  | .obj ((k, v) :: rest) => '{' :: quote k ++ ':' :: render v ++ renderMembers rest

/-- the items after the first one, and the closing bracket -/
def renderItems : List Json → List Char
  | [] => [']']
  | v :: rest => ',' :: render v ++ renderItems rest

/-- the members after the first one, and the closing bracket -/
def renderMembers : List (String × Json) → List Char
  | [] => ['}']
  | (k, v) :: rest => ',' :: quote k ++ ':' :: render v ++ renderMembers rest

end

theorem render_str (s : String) : render (.str s) = quote s := by simp [render]

theorem render_int (n : Int) : render (.int n) = decimal n := by simp [render]

theorem render_arr_cons (v : Json) (rest : List Json) :
    render (.arr (v :: rest)) = '[' :: render v ++ renderItems rest := by simp [render]

theorem render_obj_cons (k : String) (v : Json) (rest : List (String × Json)) :
    render (.obj ((k, v) :: rest)) = '{' :: quote k ++ ':' :: render v ++ renderMembers rest := by
  simp [render]

def toText (v : Json) : String := String.ofList (render v)

end TokenGate.Json
