import TokenGate.Claims.Basic
import TokenGate.Text.Blank

/-!
# Roles

* `Roles`             a set of role names, held in ascending order;
* `Roles.insert`, `ofList`   adding names; a name that is there already stays once;
* `Roles.grant`       adding the names that a store grants, empty ones aside;
* `RoleClaim`         which claim carries roles, and whether it is read at all;
* `RoleClaim.read`    the roles in claims: the non-empty texts of an array, or the stretches
                      between commas and blanks of a text.

`mem_ofList` says that `ofList` keeps exactly the names it is given, and `Roles.ext` that a set of
roles is determined by its members.
-/

namespace TokenGate

open Text

structure Roles where
  names : List String
  sorted : names.Pairwise (· < ·)

namespace Roles

/-! ## sets of names -/

instance : DecidableEq Roles := fun a b =>
  decidable_of_iff (a.names = b.names) ⟨fun h => by cases a; cases b; simp_all, fun h => by rw [h]⟩

instance : Membership String Roles := ⟨fun r name => name ∈ r.names⟩

instance (name : String) (r : Roles) : Decidable (name ∈ r) :=
  inferInstanceAs (Decidable (name ∈ r.names))

theorem mem_def {name : String} {r : Roles} : name ∈ r ↔ name ∈ r.names := Iff.rfl

def empty : Roles := ⟨[], .nil⟩

theorem not_mem_empty (name : String) : name ∉ empty := by simp [mem_def, empty]

/-- put a name in its place -/
def place (name : String) : List String → List String
  | [] => [name]
  | n :: ns =>
    if name < n then name :: n :: ns else if name = n then n :: ns else n :: place name ns

theorem mem_place {x name : String} {ns : List String} :
    x ∈ place name ns ↔ x = name ∨ x ∈ ns := by
  induction ns with
  | nil => simp [place]
  | cons n ns ih =>
    simp only [place]
    split
    · simp
    · split
      · next h => simp [h]
      · simp only [List.mem_cons, ih]
        exact or_left_comm

theorem pairwise_place {name : String} {ns : List String} (h : ns.Pairwise (· < ·)) :
    (place name ns).Pairwise (· < ·) := by
  induction h with
  | nil => simp [place]
  | @cons n ns hn hns ih =>
    simp only [place]
    split
    · next hlt =>
      refine .cons (fun x hx => ?_) (.cons hn hns)
      rcases List.mem_cons.mp hx with rfl | hx
      · exact hlt
      · exact String.lt_trans hlt (hn x hx)
    · next hle =>
      split
      · exact .cons hn hns
      · next hne =>
        refine .cons (fun x hx => ?_) ih
        rcases mem_place.mp hx with rfl | hx
        · by_cases hlt : n < x
          · exact hlt
          · exact absurd (String.le_antisymm (String.not_lt.mp hlt) (String.not_lt.mp hle)) hne
        · exact hn x hx

def insert (r : Roles) (name : String) : Roles := ⟨place name r.names, pairwise_place r.sorted⟩

theorem mem_insert {x name : String} {r : Roles} : x ∈ r.insert name ↔ x = name ∨ x ∈ r :=
  mem_place

def insertAll (r : Roles) (names : List String) : Roles := names.foldl insert r

theorem mem_insertAll {x : String} {r : Roles} {names : List String} :
    x ∈ r.insertAll names ↔ x ∈ r ∨ x ∈ names := by
  induction names generalizing r with
  | nil => simp [insertAll]
  | cons n ns ih =>
    have hs : r.insertAll (n :: ns) = (r.insert n).insertAll ns := rfl
    rw [hs, ih, mem_insert, List.mem_cons]
    constructor
    · rintro ((h | h) | h) <;> simp [h]
    · rintro (h | h | h) <;> simp [h]

def ofList (names : List String) : Roles := empty.insertAll names

theorem mem_ofList {x : String} {names : List String} : x ∈ ofList names ↔ x ∈ names := by
  simp [ofList, mem_insertAll, not_mem_empty]

/-- the roles together with those of a store; an empty name grants nothing -/
def grant (r : Roles) (granted : List String) : Roles :=
  r.insertAll (granted.filter fun n => n != "")

theorem mem_grant {x : String} {r : Roles} {granted : List String} :
    x ∈ r.grant granted ↔ x ∈ r ∨ x ∈ granted ∧ x ≠ "" := by
  simp [grant, mem_insertAll]

theorem ext {r s : Roles} (h : ∀ x, x ∈ r ↔ x ∈ s) : r = s := by
  obtain ⟨rs, hr⟩ := r
  obtain ⟨ss, hs⟩ := s
  simp only [mem_def] at h
  have : rs = ss := by
    induction hr generalizing ss with
    | nil =>
      cases ss with
      | nil => rfl
      | cons b bs => simpa using h b
    | @cons a as ha has ih =>
      cases hs with
      | nil => simpa using h a
      | @cons b bs hb hbs =>
        have hab : a = b := by
          rcases List.mem_cons.mp ((h a).mp List.mem_cons_self) with e | ea
          · exact e
          · rcases List.mem_cons.mp ((h b).mpr List.mem_cons_self) with e | eb
            · exact e.symm
            · exact absurd (ha b eb) (String.lt_asymm (hb a ea))
        subst hab
        congr 1
        refine ih bs hbs fun x => ⟨fun hx => ?_, fun hx => ?_⟩
        · rcases List.mem_cons.mp ((h x).mp (List.mem_cons_of_mem _ hx)) with rfl | hx'
          · exact absurd (ha x hx) (String.lt_irrefl x)
          · exact hx'
        · rcases List.mem_cons.mp ((h x).mpr (List.mem_cons_of_mem _ hx)) with rfl | hx'
          · exact absurd (hb x hx) (String.lt_irrefl x)
          · exact hx'
  simp [this]

def contains (r : Roles) (name : String) : Bool := decide (name ∈ r)

def shown (r : Roles) : String := Shown.braced (r.names.map Shown.quoted)

end Roles

/-! ## roles in claims -/

structure RoleClaim where
  claim : String
  enabled : Bool
  deriving DecidableEq, Repr

namespace RoleClaim

def defaultClaim : String := "roles"

/-- what separates the roles in a text -/
def isSeparator (c : Char) : Bool := c == ',' || isBlank c

/-- the stretches between separators -/
def split (text : String) : List String :=
  ((pieces isSeparator text.toList).filter fun w => !w.isEmpty).map String.ofList

/-- the non-empty texts among the items of an array -/
def textItems (items : List Json) : List String :=
  (items.filterMap Json.str?).filter fun s => s != ""

/-- the roles that a claim's value carries -/
def ofValue : Json → Roles
  | .arr items => Roles.ofList (textItems items)
  | .str s => Roles.ofList (split s)
  | _ => Roles.empty

def read (r : RoleClaim) (c : Claims) : Roles :=
  if r.enabled then
    match c.get? r.claim with
    | some v => ofValue v
    | none => Roles.empty
  else Roles.empty

/-- a claim that is neither array nor text is reported and carries no roles -/
def events (r : RoleClaim) (c : Claims) : List Event :=
  if r.enabled then
    match c.get? r.claim with
    | none | some (.arr _) | some (.str _) => []
    | some _ =>
      [⟨.debug, .roles, "Roles claim is neither a list nor a string; ignoring",
        [("claim", r.claim)], none⟩]
  else []

def shown (r : RoleClaim) : String :=
  Shown.record "RoleResolver" [
    ("claim_name", Shown.quoted r.claim),
    ("extract_from_token", Shown.boolean r.enabled)]

end RoleClaim

end TokenGate
