import TokenGate.Memo

/-!
# Where the entries of a memo come from

* `mem_of_hit`        what a lookup hands out is an entry that is not over;
* `hit_or_fresh`      a lookup hands an entry out or it does not;
* `mem_of_lookup`     a lookup adds no entry;
* `place_cases`       a new entry takes the place of the token's own one, or of the last one, or
                      of none;
* `mem_of_store`      what a store adds is the entry it was given, accepted and not over;
* `not_mem_clear`     clearing leaves no entry.
-/

namespace TokenGate.Memo

variable {m : Memo} {token : String} {now : Int} {x : String × Entry}

theorem mem_of_find? {e : Entry} (h : m.find? token = some e) : (token, e) ∈ m.entries := by
  unfold find? at h
  obtain ⟨front, rest, hm, _⟩ := List.lookup_eq_some_iff.mp h
  rw [hm]
  exact List.mem_append_right _ (List.mem_cons_self ..)

theorem mem_of_others (h : x ∈ m.others token) : x ∈ m.entries :=
  (List.mem_filter.mp h).1

/-! ## looking up -/

theorem mem_of_hit {e : Entry} (h : (m.lookup token now).1 = .hit e) :
    (token, e) ∈ m.entries ∧ now ≤ e.validUntil := by
  unfold lookup at h
  split at h
  · cases h
  · split at h
    · cases h
    · next e' he =>
      split at h
      · cases h
      · next hnow =>
        cases h
        exact ⟨mem_of_find? he, Int.not_lt.mp hnow⟩

theorem hit_or_fresh (m : Memo) (token : String) (now : Int) :
    (∃ e, (m.lookup token now).1 = .hit e) ∨ ∀ e, (m.lookup token now).1 ≠ .hit e := by
  by_cases h : ∃ e, (m.lookup token now).1 = .hit e
  · exact .inl h
  · exact .inr (not_exists.mp h)

theorem mem_of_lookup (h : x ∈ (m.lookup token now).2.entries) : x ∈ m.entries := by
  unfold lookup at h
  split at h
  · exact h
  · split at h
    · exact h
    · next e he =>
      split at h
      · exact mem_of_others h
      · rcases List.mem_cons.mp h with rfl | h
        · exact mem_of_find? he
        · exact mem_of_others h

/-! ## storing -/

theorem contains_of_find? {e : Entry} (h : m.find? token = some e) : m.contains token = true := by
  simp [contains, h]

theorem ne_of_absent (h : m.find? token = none) (hx : x ∈ m.entries) : x.1 ≠ token := by
  intro he
  have hne := List.lookup_eq_none_iff.mp h x hx
  rw [he, bne_self_eq_false] at hne
  cases hne

theorem place_cases (m : Memo) (token : String) (e : Entry) :
    (m.contains token = true
        ∧ m.place token e = (.placed, { m with entries := (token, e) :: m.others token }))
      ∨ (m.contains token = false ∧ (m.size < m.capacity ∨ m.entries = [])
        ∧ m.place token e = (.placed, { m with entries := (token, e) :: m.entries }))
      ∨ (m.contains token = false ∧ m.capacity ≤ m.size
        ∧ ∃ front last, m.entries = front ++ [last]
          ∧ m.place token e = (.displacing last.1, { m with
            entries := (token, e) :: front
            tally.evictions := m.tally.evictions + 1 })) := by
  unfold place push
  cases hf : m.find? token with
  | some former => exact .inl ⟨contains_of_find? hf, if_pos rfl⟩
  | none =>
    have habsent : m.contains token = false := by simp [contains, hf]
    by_cases hs : m.size < m.capacity
    · exact .inr (.inl ⟨habsent, .inl hs, by simp [hs]⟩)
    rcases List.eq_nil_or_concat m.entries with hm | ⟨front, last, hm⟩
    · exact .inr (.inl ⟨habsent, .inr hm, by simp [hs, hm]⟩)
    · rw [List.concat_eq_append] at hm
      -- the last entry is another token's, or the token would have one
      have hne : last.1 ≠ token := ne_of_absent hf (by simp [hm])
      exact .inr (.inr ⟨habsent, Nat.not_lt.mp hs, front, last, hm, by simp [hs, hm, hne]⟩)

theorem mem_of_place {e : Entry} (h : x ∈ (m.place token e).2.entries) :
    x = (token, e) ∨ x ∈ m.entries := by
  rcases m.place_cases token e with ⟨_, he⟩ | ⟨_, _, he⟩ | ⟨_, _, front, last, hm, he⟩ <;>
    rw [he] at h
  · exact (List.mem_cons.mp h).imp_right mem_of_others
  · exact List.mem_cons.mp h
  · rw [hm]
    exact (List.mem_cons.mp h).imp_right (List.mem_append_left _)

theorem mem_of_store {outcome : Outcome} {validUntil : Int}
    (h : x ∈ (m.store token outcome now validUntil).2.entries) :
    x ∈ m.entries ∨ (x = (token, ⟨outcome, now, validUntil⟩) ∧ outcome.accepted = true
      ∧ now ≤ validUntil) := by
  unfold store at h
  split at h
  · exact .inl h
  · next hs =>
    have hacc : outcome.accepted = true := by
      cases ha : outcome.accepted with
      | true => rfl
      | false => exact absurd (.inl ha) hs
    have hnow : now ≤ validUntil := Int.not_lt.mp fun hlt => hs (.inr (.inl hlt))
    exact (mem_of_place h).symm.imp_right fun hx => ⟨hx, hacc, hnow⟩

theorem not_mem_clear : x ∉ m.clear.entries := List.not_mem_nil

end TokenGate.Memo
