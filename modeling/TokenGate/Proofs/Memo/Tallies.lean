import TokenGate.Proofs.Memo.Effects

/-!
# What uses do to the counters of a memo

* `Tally.noting`      the counters with what a lookup found counted;
* `Tally.Notes`       what some lookups found has been counted;
* `tally_lookup`      a lookup counts what it finds, once, and nothing else;
* `tally_store`       a store counts nothing but evictions;
* `run_ofCapacity_zero`  a memo without room stays as it is;
* `Memo.Pruned`       a memo from which some entries were taken, and whose counters of hits and
                      evictions are the same;
* `pruned_lookup`     a lookup that does not help takes the entry of its token if that is over, and
                      changes nothing else.
-/

namespace TokenGate

/-! ## counters -/

/-- without room a lookup is not counted -/
def Tally.noting (t : Tally) : Lookup → Tally
  | .hit _ => { t with hits := t.hits + 1 }
  | .miss => { t with misses := t.misses + 1 }
  | .stale _ => { t with staleRemovals := t.staleRemovals + 1 }
  | .disabled => t

/-- the counters `t'` come from `t` after lookups that found this, evictions apart -/
structure Tally.Notes (t t' : Tally) (found : List Lookup) : Prop where
  hits : t'.hits = t.hits + found.countP (·.label == "hit")
  misses : t'.misses = t.misses + found.countP (·.label == "miss")
  stale : t'.staleRemovals = t.staleRemovals + found.countP (·.label == "stale")

namespace Tally

theorem notes_refl (t : Tally) : t.Notes t [] := ⟨rfl, rfl, rfl⟩

theorem notes_noting (t : Tally) (r : Lookup) : t.Notes (t.noting r) [r] := by
  cases r <;> exact ⟨rfl, rfl, rfl⟩

theorem Notes.append {t t' t'' : Tally} {found later : List Lookup} (h : t.Notes t' found)
    (h' : t'.Notes t'' later) : t.Notes t'' (found ++ later) where
  hits := by rw [h'.hits, h.hits, List.countP_append, Nat.add_assoc]
  misses := by rw [h'.misses, h.misses, List.countP_append, Nat.add_assoc]
  stale := by rw [h'.stale, h.stale, List.countP_append, Nat.add_assoc]

end Tally

namespace Memo

variable {m m' m'' : Memo} {token : String} {now : Int} {e e' : Entry}
  {gone later : String × Entry → Bool}

theorem tally_lookup (m : Memo) (token : String) (now : Int) :
    (m.lookup token now).2.tally = m.tally.noting (m.lookup token now).1 := by
  unfold lookup
  split
  · rfl
  · split
    · rfl
    · split <;> rfl

theorem lookup_eq_disabled_iff (m : Memo) (token : String) (now : Int) :
    (m.lookup token now).1 = .disabled ↔ m.capacity = 0 := by
  unfold lookup
  by_cases hc : m.capacity = 0
  · simp [hc]
  · rw [if_neg hc]
    cases m.find? token with
    | none => simp [hc]
    | some e => by_cases hlate : e.validUntil < now <;> simp [hc, hlate]

theorem tally_store (m : Memo) (token : String) (outcome : Outcome) (now validUntil : Int) :
    (m.store token outcome now validUntil).2.tally
      = { m.tally with evictions := (m.store token outcome now validUntil).2.tally.evictions } := by
  rcases m.store_cases token outcome now validUntil with ⟨h, _⟩ | ⟨h, _⟩
  · rw [h]
  · rw [h]
    rcases m.place_cases token ⟨outcome, now, validUntil⟩ with
      ⟨_, he⟩ | ⟨_, _, he⟩ | ⟨_, _, _, _, _, he⟩ <;> rw [he]

theorem notes_lookup (m : Memo) (token : String) (now : Int) :
    m.tally.Notes (m.lookup token now).2.tally [(m.lookup token now).1] := by
  rw [tally_lookup]
  exact m.tally.notes_noting _

theorem notes_store (m : Memo) (token : String) (outcome : Outcome) (now validUntil : Int) :
    m.tally.Notes (m.store token outcome now validUntil).2.tally [] := by
  rw [tally_store]
  exact ⟨rfl, rfl, rfl⟩

/-! ## without room -/

theorem use_ofCapacity_zero (u : Use) : ((ofCapacity 0).use u).2 = ofCapacity 0 := by
  cases u with
  | store token outcome now validUntil => simp [use, store, ofCapacity]
  | _ => rfl

/-- without room nothing is counted either -/
theorem run_ofCapacity_zero (us : List Use) : ((ofCapacity 0).run us).2 = ofCapacity 0 := by
  induction us with
  | nil => rfl
  | cons u us ih =>
    rw [run_cons, use_ofCapacity_zero]
    exact ih

/-! ## memos from which entries were taken -/

/-- `m'` is `m` without the entries that are `gone`, the others in the same order -/
structure Pruned (m m' : Memo) (gone : String × Entry → Bool) : Prop where
  capacity : m'.capacity = m.capacity
  entries : m'.entries = m.entries.filter fun x => !gone x
  hits : m'.tally.hits = m.tally.hits
  evictions : m'.tally.evictions = m.tally.evictions

theorem pruned_refl (m : Memo) : m.Pruned m fun _ => false :=
  ⟨rfl, (List.filter_eq_self.mpr fun _ _ => rfl).symm, rfl, rfl⟩

theorem Pruned.trans (h : m.Pruned m' gone) (h' : m'.Pruned m'' later) :
    m.Pruned m'' fun x => gone x || later x where
  capacity := h'.capacity.trans h.capacity
  entries := by
    rw [h'.entries, h.entries, List.filter_filter]
    refine List.filter_congr fun x _ => ?_
    rw [Bool.not_or, Bool.and_comm]
  hits := h'.hits.trans h.hits
  evictions := h'.evictions.trans h.evictions

theorem Pruned.mem (h : m.Pruned m' gone) {x : String × Entry} (hx : x ∈ m.entries)
    (hgone : gone x = false) : x ∈ m'.entries := by
  rw [h.entries]
  exact List.mem_filter.mpr ⟨hx, by rw [hgone]; rfl⟩

/-! ## a lookup that does not help -/

theorem WellFormed.entry_unique (hm : m.WellFormed) (h : (token, e) ∈ m.entries)
    (h' : (token, e') ∈ m.entries) : e = e' :=
  congrArg Prod.snd (List.inj_on_of_nodup_map hm.distinct h h' rfl)

/-- an entry of the token that is over by then -/
def isOver (token : String) (now : Int) (x : String × Entry) : Bool :=
  x.1 == token && decide (x.2.validUntil < now)

theorem entries_of_fresh (hm : m.WellFormed) (hl : ∀ e, (m.lookup token now).1 ≠ .hit e) :
    (m.lookup token now).2.entries = m.entries.filter fun x => !isOver token now x := by
  rcases m.lookup_cases token now with
    ⟨_, hm', hc⟩ | ⟨_, he, ha⟩ | ⟨e, _, he, hf, hlate⟩ | ⟨e, hhit, _⟩
  · -- without room there are no entries
    have hnil : m.entries = [] := by
      have hbound := hm.bounded
      rw [hc, size] at hbound
      exact List.eq_nil_of_length_eq_zero (Nat.le_zero.mp hbound)
    rw [hm', hnil, List.filter_nil]
  · rw [he, ← others_of_absent ha]
    refine (List.filter_eq_self.mpr fun x hx => ?_).symm
    have hne : (x.1 == token) = false := by simpa using (List.mem_filter.mp hx).2
    simp [isOver, hne]
  · rw [he]
    refine List.filter_congr fun x hx => ?_
    by_cases ht : x.1 = token
    · obtain ⟨t, e'⟩ := x
      subst ht
      rw [hm.entry_unique hx (mem_of_find? hf)]
      simp [isOver, hlate]
    · have hne : (x.1 == token) = false := beq_eq_false_iff_ne.mpr ht
      rw [bne, isOver, hne]
      rfl
  · exact absurd hhit (hl e)

theorem pruned_lookup (hm : m.WellFormed) (hl : ∀ e, (m.lookup token now).1 ≠ .hit e) :
    m.Pruned (m.lookup token now).2 (isOver token now) := by
  have htally := m.tally_lookup token now
  refine ⟨m.capacity_use (.lookup token now), entries_of_fresh hm hl, ?_, ?_⟩
  all_goals
    rw [htally]
    cases hf : (m.lookup token now).1 with
    | hit e => exact absurd hf (hl e)
    | _ => rfl

end Memo

end TokenGate
