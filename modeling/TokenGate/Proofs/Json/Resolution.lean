import TokenGate.Proofs.Json.Plain
import TokenGate.Proofs.Json.RoundTrip

/-!
# Documents are read back as they were written

* `ordered_put`          adding a member keeps members in order;
* `ofList_of_ordered`    members in ascending order are put where they are;
* `plain_of_ordered`     a value with ordered members is plain;
* `resolve?_of_all`      and stands for itself, if it has no reserved names;
* `ofBytes?_render`      a written value is read as what it stands for;
* `ofBytes?_toText`      which is the value itself, if it stands for itself;
* `plainBytes?_toText`   read plainly, a written value is itself whatever its names are.
-/

namespace TokenGate

/-! ## members in order -/

namespace Members

theorem mem_of_put {name : String} {value : Json} {m : Members} {kv : String × Json}
    (h : kv ∈ put name value m) : kv = (name, value) ∨ kv ∈ m := by
  induction m with
  | nil => exact .inl (List.mem_singleton.mp h)
  | cons kw rest ih =>
    obtain ⟨k, w⟩ := kw
    rw [put] at h
    split at h
    · exact List.mem_cons.mp h
    · split at h
      · exact (List.mem_cons.mp h).imp_right (List.mem_cons_of_mem _)
      · rcases List.mem_cons.mp h with rfl | h
        · exact .inr (List.mem_cons_self ..)
        · exact (ih h).imp_right (List.mem_cons_of_mem _)

/-- setting a member keeps the members in order -/
theorem ordered_put {m : Members} (h : (names m).Pairwise (· < ·)) (name : String)
    (value : Json) : (names (put name value m)).Pairwise (· < ·) := by
  induction m with
  | nil => exact List.pairwise_singleton _ _
  | cons kw rest ih =>
    obtain ⟨k, w⟩ := kw
    obtain ⟨hk, hrest⟩ := List.pairwise_cons.mp h
    rw [put]
    split
    · next hlt =>
      refine List.pairwise_cons.mpr ⟨fun x hx => ?_, h⟩
      rcases List.mem_cons.mp hx with rfl | hx
      · exact hlt
      · exact String.lt_trans hlt (hk x hx)
    · next hle =>
      split
      · next heq =>
        subst heq
        exact h
      · next hne =>
        have hgt : k < name := by
          by_cases hkn : k < name
          · exact hkn
          · exact absurd (String.le_antisymm (String.not_lt.mp hkn) (String.not_lt.mp hle)) hne
        refine List.pairwise_cons.mpr ⟨fun x hx => ?_, ih hrest⟩
        obtain ⟨kv, hkv, rfl⟩ := List.mem_map.mp hx
        rcases mem_of_put hkv with rfl | hkv
        · exact hgt
        · exact hk kv.1 (List.mem_map.mpr ⟨kv, hkv, rfl⟩)

/-- a name past all others comes last -/
theorem put_last {name : String} {m : Members} (h : ∀ k ∈ names m, k < name) (value : Json) :
    put name value m = m ++ [(name, value)] := by
  induction m with
  | nil => rfl
  | cons kv rest ih =>
    obtain ⟨k, v⟩ := kv
    have hk : k < name := h k (List.mem_cons_self ..)
    have hlt : ¬ name < k := String.lt_asymm hk
    have hne : name ≠ k := fun e => String.lt_irrefl k (e ▸ hk)
    rw [put, if_neg hlt, if_neg hne, ih fun j hj => h j (List.mem_cons_of_mem _ hj)]
    rfl

theorem foldl_put (front : Members) {m : Members} (h : (names (front ++ m)).Pairwise (· < ·)) :
    m.foldl (fun acc kv => put kv.1 kv.2 acc) front = front ++ m := by
  induction m generalizing front with
  | nil => simp
  | cons kv rest ih =>
    have hlast : ∀ k ∈ names front, k < kv.1 := by
      intro k hk
      unfold names at h hk
      rw [List.map_append] at h
      exact (List.pairwise_append.mp h).2.2 k hk kv.1 (List.mem_cons_self ..)
    have happend : front ++ kv :: rest = (front ++ [kv]) ++ rest := by simp
    rw [happend] at h ⊢
    rw [List.foldl_cons, put_last hlast]
    exact ih _ h

theorem ofList_of_ordered {m : Members} (h : (names m).Pairwise (· < ·)) : ofList m = m :=
  foldl_put [] h

end Members

namespace Json

/-! ## values that stand for themselves -/

theorem plainItems_of_forall {items : List Json} (h : ∀ v ∈ items, plain v = v) :
    plainItems items = items := by
  induction items with
  | nil => rw [plainItems]
  | cons v rest ih =>
    rw [plainItems, h v (List.mem_cons_self ..), ih fun w hw => h w (List.mem_cons_of_mem _ hw)]

theorem plainMembers_of_forall {members : List (String × Json)}
    (h : ∀ kv ∈ members, plain kv.2 = kv.2) : plainMembers members = members := by
  induction members with
  | nil => rw [plainMembers]
  | cons kv rest ih =>
    obtain ⟨k, v⟩ := kv
    rw [plainMembers, h (k, v) (List.mem_cons_self ..),
      ih fun w hw => h w (List.mem_cons_of_mem _ hw)]

theorem plain_of_depth (d : Nat) {v : Json} (ho : v.all isOrdered = true) (hd : depth v ≤ d) :
    plain v = v := by
  induction d generalizing v with
  | zero =>
    cases v with
    | arr items => exact absurd hd (by rw [depth]; omega)
    | obj members => exact absurd hd (by rw [depth]; omega)
    | _ => simp [plain]
  | succ d ih =>
    cases v with
    | arr items =>
      have hitems : ∀ w ∈ items, plain w = w := fun w hw =>
        ih ((all_arr.mp ho).2 w hw) (depth_item hw hd)
      rw [plain, plainItems_of_forall hitems]
    | obj members =>
      obtain ⟨hordered, ho⟩ := all_obj.mp ho
      have hmembers : ∀ kv ∈ members, plain kv.2 = kv.2 := fun kv hkv =>
        ih (ho kv hkv) (depth_member hkv hd)
      rw [plain, plainMembers_of_forall hmembers,
        Members.ofList_of_ordered (of_decide_eq_true hordered)]
    | _ => simp [plain]

theorem plain_of_ordered {v : Json} (ho : v.all isOrdered = true) : plain v = v :=
  plain_of_depth (depth v) ho (Nat.le_refl _)

theorem resolve?_of_all (inner : String → Option Json) {v : Json} (ho : v.all isOrdered = true)
    (hu : v.all isUnreserved = true) : resolve? inner v = some v := by
  rw [resolve?_of_unreserved inner hu, plain_of_ordered ho]

/-! ## documents -/

theorem ofBytes?_render {v : Json} (hv : v.all isExact = true) (hd : depth v ≤ maxDepth) :
    ∃ inner, ofBytes? (Text.bytes v.toText) = resolve? inner v := by
  refine ⟨fun text => ofNested? (render v).length text.toList, ?_⟩
  unfold ofBytes?
  rw [Text.ofBytes?_bytes]
  show ofText? v.toText = _
  unfold ofText? ofChars? toText
  rw [String.toList_ofList, ofNested?, written?_render hv hd]
  rfl

theorem ofBytes?_toText {v : Json} (hv : v.all isExact = true) (ho : v.all isOrdered = true)
    (hu : v.all isUnreserved = true) (hd : depth v ≤ maxDepth) :
    ofBytes? (Text.bytes v.toText) = some v := by
  obtain ⟨inner, h⟩ := ofBytes?_render hv hd
  rw [h]
  exact resolve?_of_all inner ho hu

theorem plainBytes?_toText {v : Json} (hv : v.all isExact = true) (ho : v.all isOrdered = true)
    (hd : depth v ≤ maxDepth) : plainBytes? (Text.bytes v.toText) = some v := by
  unfold plainBytes?
  rw [Text.ofBytes?_bytes]
  show (written? v.toText.toList).map plain = _
  rw [toText, String.toList_ofList, written?_render hv hd, Option.map_some, plain_of_ordered ho]

end Json

end TokenGate
