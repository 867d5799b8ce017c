import TokenGate.Json.Document
import TokenGate.Proofs.Json.Integral

/-!
# What holds of a value and of all values in it

* `Json.all p v`      `p` holds of `v` and of all the values in it;
* `isExact`           a number is an integer of 64 bits;
* `isOrdered`         members stand in ascending order of their names, each name once;
* `isUnreserved`      no object starts with the name that marks an embedded text;
* `depth_item`, `depth_member`   the values in an array or object are less deep.
-/

namespace TokenGate.Json

/-! ## values within values -/

mutual

def all (p : Json → Bool) : Json → Bool
  | .arr items => p (.arr items) && allItems p items
  | .obj members => p (.obj members) && allMembers p members
  | v => p v

def allItems (p : Json → Bool) : List Json → Bool
  | [] => true
  | v :: rest => all p v && allItems p rest

def allMembers (p : Json → Bool) : List (String × Json) → Bool
  | [] => true
  | (_, v) :: rest => all p v && allMembers p rest

end

variable {p : Json → Bool}

theorem allItems_iff {items : List Json} :
    allItems p items = true ↔ ∀ v ∈ items, all p v = true := by
  induction items with
  | nil => simp [allItems]
  | cons v rest ih => simp [allItems, ih]

theorem allMembers_iff {members : List (String × Json)} :
    allMembers p members = true ↔ ∀ kv ∈ members, all p kv.2 = true := by
  induction members with
  | nil => simp [allMembers]
  | cons kv rest ih => simp [allMembers, ih]

theorem all_arr {items : List Json} :
    all p (.arr items) = true ↔ p (.arr items) = true ∧ ∀ v ∈ items, all p v = true := by
  rw [all, Bool.and_eq_true, allItems_iff]

theorem all_obj {members : List (String × Json)} :
    all p (.obj members) = true ↔
      p (.obj members) = true ∧ ∀ kv ∈ members, all p kv.2 = true := by
  rw [all, Bool.and_eq_true, allMembers_iff]

/-! ## depth -/

theorem depth_le_items {v : Json} {items : List Json} (h : v ∈ items) :
    depth v ≤ depthItems items := by
  induction items with
  | nil => exact absurd h List.not_mem_nil
  | cons w rest ih =>
    rw [depthItems]
    rcases List.mem_cons.mp h with rfl | h
    · exact Nat.le_max_left ..
    · exact Nat.le_trans (ih h) (Nat.le_max_right ..)

theorem depth_le_members {kv : String × Json} {members : List (String × Json)}
    (h : kv ∈ members) : depth kv.2 ≤ depthMembers members := by
  induction members with
  | nil => exact absurd h List.not_mem_nil
  | cons w rest ih =>
    rw [depthMembers]
    rcases List.mem_cons.mp h with rfl | h
    · exact Nat.le_max_left ..
    · exact Nat.le_trans (ih h) (Nat.le_max_right ..)

theorem depth_item {v : Json} {items : List Json} (h : v ∈ items) {d : Nat}
    (hd : depth (.arr items) ≤ d + 1) : depth v ≤ d := by
  rw [depth] at hd
  exact Nat.le_trans (depth_le_items h) (Nat.le_of_succ_le_succ hd)

theorem depth_member {kv : String × Json} {members : List (String × Json)} (h : kv ∈ members)
    {d : Nat} (hd : depth (.obj members) ≤ d + 1) : depth kv.2 ≤ d := by
  rw [depth] at hd
  exact Nat.le_trans (depth_le_members h) (Nat.le_of_succ_le_succ hd)

/-! ## properties of values -/

instance (n : Int) : Decidable (Literal.Fits n) := inferInstanceAs (Decidable (_ ∧ _))

def isExact : Json → Bool
  | .int n => decide (Literal.Fits n)
  | .real _ _ => false
  | _ => true

def isOrdered : Json → Bool
  | .obj members => decide ((Members.names members).Pairwise (· < ·))
  | _ => true

def isUnreserved : Json → Bool
  | .obj members => !isEmbedding members
  | _ => true

end TokenGate.Json
