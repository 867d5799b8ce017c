import TokenGate.Proofs.Json.Everywhere

/-!
# The plain reading of a document

A document that is read plainly has no names with a meaning of their own: its value is what is
written, with the members of each object in order.

* `Json.plain v`          a written value with its members in order;
* `plainBytes? bs`        the plain value of a text in UTF-8;
* `Unreserved bs`         no object in a text starts with the name that marks an embedded text;
* `resolve?_of_unreserved`, `ofBytes?_of_unreserved`   without that name, documents are read plainly.
-/

namespace TokenGate.Json

/-! ## values -/

mutual

def plain : Json → Json
  | .arr items => .arr (plainItems items)
  | .obj members => .obj (Members.ofList (plainMembers members))
  | v => v

def plainItems : List Json → List Json
  | [] => []
  | v :: rest => plain v :: plainItems rest

def plainMembers : List (String × Json) → List (String × Json)
  | [] => []
  | (name, v) :: rest => (name, plain v) :: plainMembers rest

end

variable (inner : String → Option Json)

theorem resolveItems?_eq_plain {items : List Json}
    (h : ∀ v ∈ items, resolve? inner v = some (plain v)) :
    resolveItems? inner items = some (plainItems items) := by
  induction items with
  | nil => rw [resolveItems?, plainItems]
  | cons v rest ih =>
    rw [resolveItems?, plainItems, h v (List.mem_cons_self ..),
      ih fun w hw => h w (List.mem_cons_of_mem _ hw)]
    rfl

theorem resolveMembers?_eq_plain {members : List (String × Json)}
    (h : ∀ kv ∈ members, resolve? inner kv.2 = some (plain kv.2)) :
    resolveMembers? inner members = some (plainMembers members) := by
  induction members with
  | nil => rw [resolveMembers?, plainMembers]
  | cons kv rest ih =>
    obtain ⟨name, v⟩ := kv
    rw [resolveMembers?, plainMembers, h (name, v) (List.mem_cons_self ..),
      ih fun w hw => h w (List.mem_cons_of_mem _ hw)]
    rfl

theorem resolve?_eq_plain (d : Nat) {v : Json} (hu : v.all isUnreserved = true)
    (hd : depth v ≤ d) : resolve? inner v = some (plain v) := by
  induction d generalizing v with
  | zero =>
    cases v with
    | arr items => exact absurd hd (by rw [depth]; omega)
    | obj members => exact absurd hd (by rw [depth]; omega)
    | _ => simp [resolve?, plain]
  | succ d ih =>
    cases v with
    | arr items =>
      have hitems : ∀ w ∈ items, resolve? inner w = some (plain w) := fun w hw =>
        ih ((all_arr.mp hu).2 w hw) (depth_item hw hd)
      rw [resolve?_arr, resolveItems?_eq_plain inner hitems, plain]
      rfl
    | obj members =>
      obtain ⟨hun, hu⟩ := all_obj.mp hu
      have hmembers : ∀ kv ∈ members, resolve? inner kv.2 = some (plain kv.2) := fun kv hkv =>
        ih (hu kv hkv) (depth_member hkv hd)
      have he : isEmbedding members = false := by simpa [isUnreserved] using hun
      rw [resolve?_obj inner he, resolveMembers?_eq_plain inner hmembers, plain]
      rfl
    | _ => simp [resolve?, plain]

/-- nothing is embedded in a value without the reserved name -/
theorem resolve?_of_unreserved {v : Json} (hu : v.all isUnreserved = true) :
    resolve? inner v = some (plain v) :=
  resolve?_eq_plain inner (depth v) hu (Nat.le_refl _)

/-! ## documents -/

/-- the plain value of a text in UTF-8 -/
def plainBytes? (bs : List UInt8) : Option Json := do
  let s ← Text.ofBytes? bs
  (written? s.toList).map plain

def Unreserved (bs : List UInt8) : Prop :=
  ∀ s v, Text.ofBytes? bs = some s → written? s.toList = some v → v.all isUnreserved = true

theorem ofBytes?_of_unreserved {bs : List UInt8} (h : Unreserved bs) :
    ofBytes? bs = plainBytes? bs := by
  unfold ofBytes? plainBytes?
  cases hs : Text.ofBytes? bs with
  | none => rfl
  | some s =>
    show ofText? s = (written? s.toList).map plain
    unfold ofText? ofChars?
    rw [ofNested?]
    cases hv : written? s.toList with
    | none => rfl
    | some v => exact resolve?_of_unreserved _ (h s v hs hv)

end TokenGate.Json
