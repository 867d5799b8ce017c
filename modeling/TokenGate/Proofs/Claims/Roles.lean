import TokenGate.Proofs.Text.Words
import TokenGate.Roles

/-!
# The roles that a claim names

* `RoleClaim.Names role v`   the value `v` of a claim, if there is one, names the role;
* `mem_read_iff`             the roles that are read are those that are named;
* `RoleClaim.Lists items names`   an array holds the names, in any order and number, besides empty
                             texts and values that are no texts;
* `RoleClaim.Spells text names`   a text is put together from the names, with commas and blanks
                             between, before and after them;
* `read_eq_of_spells`        both ways of writing names give the same roles.
-/

namespace TokenGate.RoleClaim

open Text

variable {r : RoleClaim} {c c' : Claims} {role text : String} {names : List String}
  {items : List Json}

/-! ## reading -/

theorem mem_textItems_iff : role ∈ textItems items ↔ .str role ∈ items ∧ role ≠ "" := by
  have hstr : ∀ v : Json, v.str? = some role ↔ v = .str role := by
    intro v
    cases v <;> simp [Json.str?]
  simp [textItems, List.mem_filterMap, hstr]

theorem mem_split_iff : role ∈ split text ↔ Stretch isSeparator role.toList text.toList := by
  rw [← mem_words_iff]
  show role ∈ (words isSeparator text.toList).map String.ofList ↔ _
  constructor
  · intro h
    obtain ⟨w, hw, rfl⟩ := List.mem_map.mp h
    rwa [String.toList_ofList]
  · intro h
    exact List.mem_map.mpr ⟨role.toList, h, String.ofList_toList⟩

/-- an array names its texts, and a text names what stands between commas and blanks; empty names
do not count, and neither do other values -/
def Names (role : String) : Option Json → Prop
  | some (.arr items) => .str role ∈ items ∧ role ≠ ""
  | some (.str text) => Stretch isSeparator role.toList text.toList
  | _ => False

theorem Names.ne_empty {v : Option Json} (h : Names role v) : role ≠ "" := by
  match v with
  | some (.arr _) => exact h.2
  | some (.str _) =>
    rintro rfl
    exact h.word.ne_nil rfl

theorem mem_ofValue_iff {v : Json} : role ∈ ofValue v ↔ Names role (some v) := by
  cases v with
  | arr items => exact Roles.mem_ofList.trans mem_textItems_iff
  | str text => exact Roles.mem_ofList.trans mem_split_iff
  | null | bool | int | real | obj => exact iff_of_false (Roles.not_mem_empty role) id

theorem mem_read_iff :
    role ∈ r.read c ↔ r.enabled = true ∧ Names role (c.get? r.claim) := by
  unfold read
  by_cases he : r.enabled = true
  · rw [if_pos he]
    cases c.get? r.claim with
    | none => exact iff_of_false (Roles.not_mem_empty role) (·.2)
    | some v => simp [he, mem_ofValue_iff]
  · rw [if_neg he]
    exact iff_of_false (Roles.not_mem_empty role) fun h => he h.1

theorem empty_not_mem_read : "" ∉ r.read c := fun h => (mem_read_iff.mp h).2.ne_empty rfl

/-! ## two ways of writing names -/

def IsName (name : String) : Prop := IsWord isSeparator name.toList

def Lists (items : List Json) (names : List String) : Prop :=
  ∀ name, name ≠ "" → (.str name ∈ items ↔ name ∈ names)

def Spells (text : String) (names : List String) : Prop :=
  Joined isSeparator (names.map String.toList) text.toList

theorem names_of_lists (hn : ∀ name ∈ names, IsName name) (h : Lists items names) :
    Names role (some (.arr items)) ↔ role ∈ names := by
  constructor
  · intro hr
    exact (h role hr.2).mp hr.1
  · intro hr
    have hne : role ≠ "" := by
      rintro rfl
      exact (hn "" hr).ne_nil rfl
    exact ⟨(h role hne).mpr hr, hne⟩

theorem names_of_spells (h : Spells text names) :
    Names role (some (.str text)) ↔ role ∈ names := by
  show Stretch isSeparator role.toList text.toList ↔ _
  rw [← Joined.mem_iff h, List.mem_map]
  constructor
  · intro hx
    obtain ⟨name, hname, hsame⟩ := hx
    rwa [← String.toList_inj.mp hsame]
  · exact fun hr => ⟨role, hr, rfl⟩

theorem read_eq_of_spells (hn : ∀ name ∈ names, IsName name) (hi : Lists items names)
    (ht : Spells text names) (hc : c.get? r.claim = some (.arr items))
    (hc' : c'.get? r.claim = some (.str text)) : r.read c = r.read c' := by
  refine Roles.ext fun role => ?_
  rw [mem_read_iff, mem_read_iff, hc, hc', names_of_lists hn hi, names_of_spells ht]

end TokenGate.RoleClaim
