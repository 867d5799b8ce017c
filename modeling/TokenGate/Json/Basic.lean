import TokenGate.Binary64
import TokenGate.Text.Shown

/-!
# JSON values

* `Json`            a value; integers within 64 bits are `int`, every other number is a `real`;
* `Members`         the members of an object, in ascending order of their names, each name once;
* `Members.get?`, `put`, `remove`, `ofList`   look up, set, drop a member; of members with one
                    name the last counts;
* `Json.kind`       the name of a value's type;
* `Json.shown`      a value in diagnostics;
* `Json.depth`      how many arrays and objects lie around the innermost value.

A `real` has a sign and a magnitude of IEEE 754 binary64, as `Binary64` counts it.
-/

namespace TokenGate

inductive Json where
  | null
  | bool (b : Bool)
  | int (n : Int)
  | real (negative : Bool) (magnitude : Nat)
  | str (s : String)
  | arr (items : List Json)
  | obj (members : List (String × Json))

abbrev Members := List (String × Json)

/-! ## members -/

namespace Members

def get? : Members → String → Option Json
  | [], _ => none
  | (k, v) :: rest, name => if k = name then some v else get? rest name

/-- set a member, in its place by name -/
def put (name : String) (value : Json) : Members → Members
  | [] => [(name, value)]
  | (k, v) :: rest =>
    if name < k then (name, value) :: (k, v) :: rest
    else if name = k then (name, value) :: rest
    else (k, v) :: put name value rest

def remove (name : String) (m : Members) : Members := m.filter fun kv => kv.1 != name

/-- the members in the order in which they are written; a later one replaces an earlier one of
the same name -/
def ofList (kvs : List (String × Json)) : Members :=
  kvs.foldl (fun m kv => put kv.1 kv.2 m) []

def names (m : Members) : List String := m.map Prod.fst

theorem get?_nil (name : String) : get? [] name = none := rfl

theorem get?_cons (k : String) (v : Json) (rest : Members) (name : String) :
    get? ((k, v) :: rest) name = if k = name then some v else get? rest name := rfl

theorem get?_put_self (name : String) (value : Json) (m : Members) :
    get? (put name value m) name = some value := by
  induction m with
  | nil => simp [put, get?]
  | cons kv rest ih =>
    obtain ⟨k, v⟩ := kv
    simp only [put]
    split
    · simp [get?]
    · split
      · simp [get?]
      · next h => simp [get?, Ne.symm h, ih]

theorem get?_put_of_ne {name other : String} (h : name ≠ other) (value : Json) (m : Members) :
    get? (put name value m) other = get? m other := by
  induction m with
  | nil => simp [put, get?, h]
  | cons kv rest ih =>
    obtain ⟨k, v⟩ := kv
    simp only [put]
    split
    · simp [get?, h]
    · split
      · next hk => simp [get?, h, ← hk]
      · simp [get?, ih]

end Members

/-! ## values -/

namespace Json

def kind : Json → String
  | .null => "null"
  | .bool _ => "bool"
  | .int _ => "number"
  | .real _ _ => "number"
  | .str _ => "string"
  | .arr _ => "array"
  | .obj _ => "object"

def str? : Json → Option String
  | .str s => some s
  | _ => none

mutual

/-- arrays and objects around the innermost value, the value itself included -/
def depth : Json → Nat
  | .arr items => depthItems items + 1
  | .obj members => depthMembers members + 1
  | _ => 0

def depthItems : List Json → Nat
  | [] => 0
  | v :: rest => max (depth v) (depthItems rest)

def depthMembers : List (String × Json) → Nat
  | [] => 0
  | (_, v) :: rest => max (depth v) (depthMembers rest)

end

open Text.Shown

mutual

def shown : Json → String
  | .null => "Null"
  | .bool b => tagged "Bool" (boolean b)
  | .int n => tagged "Number" (integer n)
  | .real negative m => tagged "Number" (String.ofList (Binary64.signedText negative m))
  | .str s => tagged "String" (quoted s)
  | .arr items => "Array " ++ listed (shownItems items)
  | .obj members => "Object " ++ braced (shownMembers members)

def shownItems : List Json → List String
  | [] => []
  | v :: rest => shown v :: shownItems rest

def shownMembers : List (String × Json) → List String
  | [] => []
  | (k, v) :: rest => field (quoted k, shown v) :: shownMembers rest

end

end Json

end TokenGate
