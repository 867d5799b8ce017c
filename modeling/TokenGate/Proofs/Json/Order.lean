import TokenGate.Proofs.Json.Resolution

/-!
# The members of a document are in order

* `mem_names_iff`         the names of members are those that have a value;
* `ordered_ofList`        members that are put one after the other are in order;
* `ordered_of_ofBytes?`   so are those of an object that is read;
* `length_eq_of_names`    and of two such objects with the same names one has as many members as the
                          other.
-/

namespace TokenGate

namespace Members

theorem mem_names_iff {m : Members} {name : String} :
    name ∈ names m ↔ (get? m name).isSome = true := by
  induction m with
  | nil => simp [names, get?_nil]
  | cons kv rest ih =>
    obtain ⟨k, v⟩ := kv
    show name ∈ k :: names rest ↔ _
    rw [List.mem_cons, get?_cons, ih]
    by_cases h : k = name
    · simp [h]
    · simp [h, Ne.symm h]

theorem ordered_foldl {front : Members} (h : (names front).Pairwise (· < ·)) (m : Members) :
    (names (m.foldl (fun acc kv => put kv.1 kv.2 acc) front)).Pairwise (· < ·) := by
  induction m generalizing front with
  | nil => exact h
  | cons kv rest ih => exact ih (ordered_put h kv.1 kv.2)

theorem ordered_ofList (m : Members) : (names (ofList m)).Pairwise (· < ·) :=
  ordered_foldl List.Pairwise.nil m

/-- members in order have each name once, so that their names alone tell how many there are -/
theorem length_eq_of_names {m m' : Members} (h : (names m).Pairwise (· < ·))
    (h' : (names m').Pairwise (· < ·))
    (hnames : ∀ name, (get? m name).isSome = (get? m' name).isSome) : m.length = m'.length := by
  have nodup : ∀ {l : List String}, l.Pairwise (· < ·) → l.Nodup := by
    intro l hl
    apply hl.imp
    rintro a b hab rfl
    exact String.lt_irrefl a hab
  have hmem : ∀ name, name ∈ names m ↔ name ∈ names m' := by
    intro name
    rw [mem_names_iff, mem_names_iff, hnames]
  have hperm : (names m).Perm (names m') :=
    (List.perm_ext_iff_of_nodup (nodup h) (nodup h')).mpr hmem
  have hlength := hperm.length_eq
  unfold names at hlength
  rwa [List.length_map, List.length_map] at hlength

end Members

namespace Json

/-- an object has its members in order -/
def IsDocument (v : Json) : Prop :=
  ∀ members, v = .obj members → (Members.names members).Pairwise (· < ·)

theorem isDocument_of_resolve? {inner : String → Option Json}
    (hinner : ∀ text v, inner text = some v → IsDocument v) {v w : Json}
    (h : resolve? inner v = some w) : IsDocument w := by
  rintro members rfl
  cases v with
  | arr items =>
    rw [resolve?_arr] at h
    obtain ⟨_, _, hw⟩ := Option.map_eq_some_iff.mp h
    cases hw
  | obj kvs =>
    rw [resolve?] at h
    split at h
    · obtain ⟨text, _, hw⟩ := Option.bind_eq_some_iff.mp h
      exact hinner text _ hw members rfl
    · obtain ⟨resolved, _, hw⟩ := Option.map_eq_some_iff.mp h
      cases hw
      exact Members.ordered_ofList resolved
  | _ => simp [resolve?] at h

theorem isDocument_of_ofNested? {n : Nat} {cs : List Char} {v : Json}
    (h : ofNested? n cs = some v) : IsDocument v := by
  induction n generalizing cs v with
  | zero => cases h
  | succ n ih =>
    obtain ⟨w, _, hw⟩ := Option.bind_eq_some_iff.mp h
    exact isDocument_of_resolve? (fun text v hv => ih hv) hw

theorem ordered_of_ofBytes? {bs : List UInt8} {members : Members}
    (h : ofBytes? bs = some (.obj members)) : (Members.names members).Pairwise (· < ·) := by
  obtain ⟨text, _, hv⟩ := Option.bind_eq_some_iff.mp h
  exact isDocument_of_ofNested? hv members rfl

end Json

end TokenGate
