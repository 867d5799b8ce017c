import TokenGate.Json.Reader

/-!
# JSON documents

What a JSON text stands for, once its objects are put in order and values that are themselves
written as text are read.

* `embedName`          the reserved name: an object that is written with it as its first member
                       stands for the value whose JSON text this member holds, has no other
                       member, and holds nothing but a text;
* `Json.resolve? r v`  what a value stands for as it is written, embedded texts being read with `r`;
* `Json.ofNested? n`   the value of a text in which texts are embedded less than `n` deep;
* `Json.ofChars?`, `ofText?`   the value of a whole text;
* `Json.ofBytes?`      the same for the UTF-8 encoding of a text.

An embedded text is a whole text again: it may start and end with blanks, and its arrays and
objects may be nested as deep as those of any other. It is shorter than the text around it, so
that `ofChars?` allows for all the embedding that a text has room for.
-/

namespace TokenGate.Json

/-! ## embedded texts -/

def embedName : String := "$serde_json::private::RawValue"

/-- whether an object with these members stands for a value that is written as text -/
def isEmbedding : List (String × Json) → Bool
  | [] => false
  | (name, _) :: _ => name == embedName

/-- the text of an embedding, unless something else is there -/
def embeddedText? : List (String × Json) → Option String
  | [(_, .str text)] => some text
  | _ => none

/-! ## resolution -/

mutual

def resolve? (inner : String → Option Json) : Json → Option Json
  | .arr items => (resolveItems? inner items).map .arr
  | .obj members =>
    if isEmbedding members then (embeddedText? members).bind inner
    else (resolveMembers? inner members).map fun kvs => .obj (Members.ofList kvs)
  | v => some v

def resolveItems? (inner : String → Option Json) : List Json → Option (List Json)
  | [] => some []
  | v :: rest => do
    let w ← resolve? inner v
    let ws ← resolveItems? inner rest
    return w :: ws

def resolveMembers? (inner : String → Option Json) :
    List (String × Json) → Option (List (String × Json))
  | [] => some []
  | (name, v) :: rest => do
    let w ← resolve? inner v
    let kvs ← resolveMembers? inner rest
    return (name, w) :: kvs

end

variable (inner : String → Option Json)

theorem resolve?_arr (items : List Json) :
    resolve? inner (.arr items) = (resolveItems? inner items).map .arr := by
  rw [resolve?]

theorem resolve?_obj {members : List (String × Json)} (h : isEmbedding members = false) :
    resolve? inner (.obj members) =
      (resolveMembers? inner members).map fun kvs => .obj (Members.ofList kvs) := by
  rw [resolve?, h]
  rfl

/-! ## documents -/

def ofNested? : Nat → List Char → Option Json
  | 0, _ => none
  | n + 1, cs => (written? cs).bind (resolve? fun text => ofNested? n text.toList)

/-- the value of a whole text -/
def ofChars? (cs : List Char) : Option Json := ofNested? (cs.length + 1) cs

def ofText? (s : String) : Option Json := ofChars? s.toList

/-- the value of a text in UTF-8 -/
def ofBytes? (bs : List UInt8) : Option Json := do
  let s ← Text.ofBytes? bs
  ofText? s

end TokenGate.Json
