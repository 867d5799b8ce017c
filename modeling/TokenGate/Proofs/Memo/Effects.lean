import Mathlib.Data.List.Nodup
import TokenGate.Memo.Run
import TokenGate.Proofs.Memo.Entries

/-!
# What uses do to the entries of a memo

* `Answered`          a use with the answer to it;
* `Answered.Stores`   the use stored an entry, and was not refused;
* `Effect`            the entry of a token comes to the front, one is dropped, all are forgotten,
                      or nothing happens;
* `Answered.touched?` the token that a use touches: that of a store that counted, or of a hit;
* `Answered.Drops`    a use that takes the entry of a token away, room or no room: the memo is
                      cleared, or the entry is looked up and found to be over;
* `Memo.WellFormed`   no more entries than there is room for, and no token twice;
* `entries_use`       the entries after a use are those that its effect says;
* `mem_of_use`        an entry after a use was stored by it, or was there and is left alone.

All that is kept along a run of uses follows from these two.
-/

namespace TokenGate

/-! ## effects -/

structure Answered where
  use : Use
  answer : Use.Answer

inductive Effect where
  | raises (token : String) (entry : Entry)
  | drops (token : String)
  | forgets
  | none

namespace Answered

def effect : Answered → Effect
  | ⟨.store token outcome now validUntil, .placement p⟩ =>
    if p.stored then .raises token ⟨outcome, now, validUntil⟩ else .none
  | ⟨.lookup token _, .lookup (.hit e)⟩ => .raises token e
  | ⟨.lookup token _, .lookup (.stale _)⟩ => .drops token
  | ⟨.clear, _⟩ => .forgets
  | _ => .none

def touched? (x : Answered) : Option String :=
  match x.effect with
  | .raises token _ => some token
  | _ => none

def Drops (x : Answered) (token : String) : Prop := x.effect = .drops token ∨ x.effect = .forgets

def Stores (x : Answered) (token : String) (e : Entry) : Prop :=
  ∃ p, x = ⟨.store token e.outcome e.storedAt e.validUntil, .placement p⟩ ∧ p.stored = true

theorem Stores.effect {x : Answered} {token : String} {e : Entry} (h : x.Stores token e) :
    x.effect = .raises token e := by
  obtain ⟨p, rfl, hp⟩ := h
  simp [Answered.effect, hp]

theorem touched?_eq_some_iff {x : Answered} {token : String} :
    x.touched? = some token ↔ ∃ e, x.effect = .raises token e := by
  unfold touched?
  cases x.effect <;> simp

end Answered

namespace Memo

variable {m : Memo} {u : Use} {token : String} {now : Int} {e : Entry}

/-- a use together with the answer that the memo gives -/
def answered (m : Memo) (u : Use) : Answered := ⟨u, (m.use u).1⟩

/-- the entries after an effect; where there is no room, the last one is cut off -/
def after (m : Memo) : Effect → List (String × Entry)
  | .raises token e => ((token, e) :: m.others token).take m.capacity
  | .drops token => m.others token
  | .forgets => []
  | .none => m.entries

structure WellFormed (m : Memo) : Prop where
  bounded : m.size ≤ m.capacity
  distinct : m.tokens.Nodup

theorem wellFormed_ofCapacity (capacity : Nat) : (ofCapacity capacity).WellFormed :=
  ⟨Nat.zero_le _, List.nodup_nil⟩

/-! ## tokens -/

theorem mem_tokens_iff : token ∈ m.tokens ↔ m.contains token = true := by
  unfold contains find? tokens
  rw [List.lookup_isSome_iff, List.mem_map]
  exact exists_congr fun x => and_congr_right fun _ => by rw [beq_iff_eq, eq_comm]

theorem mem_tokens_of_mem (h : (token, e) ∈ m.entries) : token ∈ m.tokens :=
  List.mem_map.mpr ⟨_, h, rfl⟩

theorem map_others (m : Memo) (token : String) :
    (m.others token).map Prod.fst = m.tokens.filter (· != token) := by
  unfold others tokens
  rw [List.filter_map]
  rfl

theorem others_of_absent (h : m.contains token = false) : m.others token = m.entries := by
  refine List.filter_eq_self.mpr fun x hx => ?_
  have hne : x.1 ≠ token := by
    intro he
    have hmem : x.1 ∈ m.tokens := List.mem_map.mpr ⟨x, hx, rfl⟩
    rw [he, mem_tokens_iff, h] at hmem
    cases hmem
  simpa using hne

theorem length_others_lt (h : m.contains token = true) : (m.others token).length < m.size := by
  obtain ⟨x, hx, rfl⟩ := List.mem_map.mp (mem_tokens_iff.mpr h)
  exact List.length_filter_lt_length_iff_exists.mpr ⟨x, hx, by simp⟩

/-- bringing a token that has an entry to the front takes no room -/
theorem take_of_present (hm : m.size ≤ m.capacity) (h : m.contains token = true) :
    ((token, e) :: m.others token).take m.capacity = (token, e) :: m.others token := by
  have hlt := length_others_lt h
  refine List.take_of_length_le ?_
  rw [List.length_cons]
  omega

/-! ## entries after a use -/

theorem lookup_cases (m : Memo) (token : String) (now : Int) :
    ((m.lookup token now).1 = .disabled ∧ (m.lookup token now).2 = m ∧ m.capacity = 0)
      ∨ ((m.lookup token now).1 = .miss ∧ (m.lookup token now).2.entries = m.entries
        ∧ m.contains token = false)
      ∨ (∃ e, (m.lookup token now).1 = .stale e
        ∧ (m.lookup token now).2.entries = m.others token
        ∧ m.find? token = some e ∧ e.validUntil < now)
      ∨ (∃ e, (m.lookup token now).1 = .hit e
        ∧ (m.lookup token now).2.entries = (token, e) :: m.others token
        ∧ m.find? token = some e ∧ now ≤ e.validUntil ∧ 0 < m.capacity) := by
  unfold lookup
  by_cases hc : m.capacity = 0
  · simp [hc]
  cases hf : m.find? token with
  | none =>
    have hp : m.contains token = false := by simp [contains, hf]
    simp [hc, hp]
  | some e =>
    by_cases hn : e.validUntil < now
    · simp [hc, hn]
    · simp [hc, hn, Int.not_lt.mp hn, Nat.pos_of_ne_zero hc]

theorem entries_lookup (hm : m.size ≤ m.capacity) (token : String) (now : Int) :
    (m.lookup token now).2.entries = m.after (m.answered (.lookup token now)).effect := by
  show _ = m.after (Answered.effect ⟨_, .lookup (m.lookup token now).1⟩)
  rcases m.lookup_cases token now with ⟨h, hm', _⟩ | ⟨h, he, _⟩ | ⟨e, h, he, _⟩ | ⟨e, h, he, hf, _⟩
  · rw [h, hm']
    rfl
  · rw [h, he]
    rfl
  · rw [h, he]
    rfl
  · rw [h, he]
    exact (take_of_present hm (contains_of_find? hf)).symm

theorem stored_place (m : Memo) (token : String) (e : Entry) :
    (m.place token e).1.stored = true := by
  rcases m.place_cases token e with ⟨_, he⟩ | ⟨_, _, he⟩ | ⟨_, _, _, _, _, he⟩ <;> rw [he] <;> rfl

theorem capacity_place (m : Memo) (token : String) (e : Entry) :
    (m.place token e).2.capacity = m.capacity := by
  rcases m.place_cases token e with ⟨_, he⟩ | ⟨_, _, he⟩ | ⟨_, _, _, _, _, he⟩ <;> rw [he]

theorem entries_place (hm : m.size ≤ m.capacity) (hc : 0 < m.capacity) (token : String)
    (e : Entry) :
    (m.place token e).2.entries = ((token, e) :: m.others token).take m.capacity := by
  rcases m.place_cases token e with ⟨hp, he⟩ | ⟨hp, hroom, he⟩ | ⟨hp, hfull, front, last, hl, he⟩
  · rw [he, take_of_present hm hp]
  · have hs : m.entries.length < m.capacity := hroom.elim id fun hnil => by rwa [hnil]
    rw [he, others_of_absent hp, List.take_of_length_le hs]
  · -- the memo is full, so that all but the last entry are left
    have hlen : front.length + 1 = m.capacity := by
      have hsize : m.entries.length = m.capacity := Nat.le_antisymm hm hfull
      rwa [hl, List.length_append] at hsize
    rw [he, others_of_absent hp, hl, ← hlen, List.take_succ_cons, List.take_left]

theorem store_cases (m : Memo) (token : String) (outcome : Outcome) (now validUntil : Int) :
    (m.store token outcome now validUntil = (.refused, m)
        ∧ (outcome.accepted = false ∨ validUntil < now ∨ m.capacity = 0))
      ∨ (m.store token outcome now validUntil = m.place token ⟨outcome, now, validUntil⟩
        ∧ outcome.accepted = true ∧ now ≤ validUntil ∧ 0 < m.capacity) := by
  unfold store
  split
  · next h => exact .inl ⟨rfl, h⟩
  · next h =>
    rw [not_or, not_or, Bool.not_eq_false, Int.not_lt] at h
    exact .inr ⟨rfl, h.1, h.2.1, Nat.pos_of_ne_zero h.2.2⟩

theorem stored_store_iff {outcome : Outcome} {validUntil : Int} :
    (m.store token outcome now validUntil).1.stored = true ↔
      outcome.accepted = true ∧ now ≤ validUntil ∧ 0 < m.capacity := by
  rcases m.store_cases token outcome now validUntil with ⟨h, hx⟩ | ⟨h, hx⟩
  · rw [h]
    constructor
    · intro hs
      cases hs
    · intro hy
      obtain ⟨ha, hn, hc⟩ := hy
      rcases hx with hx | hx | hx
      · rw [ha] at hx
        cases hx
      · omega
      · omega
  · rw [h]
    exact iff_of_true (m.stored_place token _) hx

theorem effect_of_hit (h : (m.lookup token now).1 = .hit e) :
    (m.answered (.lookup token now)).effect = .raises token e := by
  show Answered.effect ⟨_, .lookup (m.lookup token now).1⟩ = _
  rw [h]
  rfl

theorem hit_of_raises {t : String} (h : (m.answered (.lookup t now)).effect = .raises token e) :
    t = token ∧ (m.lookup t now).1 = .hit e := by
  change Answered.effect ⟨_, .lookup (m.lookup t now).1⟩ = _ at h
  cases hl : (m.lookup t now).1 with
  | hit e' =>
    rw [hl] at h
    cases h
    exact ⟨rfl, rfl⟩
  | _ =>
    rw [hl] at h
    cases h

theorem effect_of_stored {outcome : Outcome} {validUntil : Int}
    (h : (m.store token outcome now validUntil).1.stored = true) :
    (m.answered (.store token outcome now validUntil)).effect
      = .raises token ⟨outcome, now, validUntil⟩ := by
  show Answered.effect ⟨_, .placement (m.store token outcome now validUntil).1⟩ = _
  rw [Answered.effect, if_pos h]

theorem entries_store (hm : m.size ≤ m.capacity) (token : String) (outcome : Outcome)
    (now validUntil : Int) : (m.store token outcome now validUntil).2.entries
      = m.after (m.answered (.store token outcome now validUntil)).effect := by
  rcases m.store_cases token outcome now validUntil with ⟨h, _⟩ | ⟨h, hacc, hnow, hc⟩
  · show _ = m.after (Answered.effect ⟨_, .placement (m.store token outcome now validUntil).1⟩)
    rw [h]
    rfl
  · rw [effect_of_stored (stored_store_iff.mpr ⟨hacc, hnow, hc⟩), h, entries_place hm hc]
    rfl

theorem entries_use (hm : m.size ≤ m.capacity) (u : Use) :
    (m.use u).2.entries = m.after (m.answered u).effect := by
  cases u with
  | store token outcome now validUntil => exact entries_store hm token outcome now validUntil
  | lookup token now => exact entries_lookup hm token now
  | contains token => rfl
  | clear => rfl

theorem capacity_use (m : Memo) (u : Use) : (m.use u).2.capacity = m.capacity := by
  cases u with
  | store token outcome now validUntil =>
    show (m.store token outcome now validUntil).2.capacity = _
    rcases m.store_cases token outcome now validUntil with ⟨h, _⟩ | ⟨h, _⟩
    · rw [h]
    · rw [h, capacity_place]
  | lookup token now =>
    show (m.lookup token now).2.capacity = _
    unfold lookup
    split
    · rfl
    · split
      · rfl
      · split <;> rfl
  | contains token => rfl
  | clear => rfl

/-- without room nothing is ever raised -/
theorem capacity_pos_of_raises (h : (m.answered u).effect = .raises token e) :
    0 < m.capacity := by
  refine Nat.pos_of_ne_zero fun hc => ?_
  cases u with
  | store t outcome now validUntil => simp [answered, use, store, hc, Answered.effect,
      Placement.stored] at h
  | lookup t now => simp [answered, use, lookup, hc, Answered.effect] at h
  | contains t => cases h
  | clear => cases h

/-! ## where an entry after a use comes from -/

/-- a token comes to the front with the entry that was stored, or with the one that it has -/
theorem stores_or_mem_of_raises (h : (m.answered u).effect = .raises token e) :
    (m.answered u).Stores token e
      ∨ ((token, e) ∈ m.entries ∧ ∀ t e', ¬ (m.answered u).Stores t e') := by
  cases u with
  | store t outcome now validUntil =>
    change Answered.effect ⟨_, .placement (m.store t outcome now validUntil).1⟩ = _ at h
    by_cases hp : (m.store t outcome now validUntil).1.stored = true
    · rw [Answered.effect, if_pos hp] at h
      cases h
      exact .inl ⟨_, rfl, hp⟩
    · rw [Answered.effect, if_neg hp] at h
      cases h
  | lookup t now =>
    obtain ⟨rfl, hl⟩ := hit_of_raises h
    refine .inr ⟨(mem_of_hit hl).1, fun t e' hs => ?_⟩
    obtain ⟨p, hx, _⟩ := hs
    cases hx
  | contains t => cases h
  | clear => cases h

theorem mem_of_raises {t : String} {e' : Entry} (h : (token, e) ∈ m.after (.raises t e')) :
    (token = t ∧ e = e') ∨ ((token, e) ∈ m.entries ∧ token ≠ t) := by
  rcases List.mem_cons.mp (List.mem_of_mem_take h) with h | h
  · cases h
    exact .inl ⟨rfl, rfl⟩
  · obtain ⟨hm, hne⟩ := List.mem_filter.mp h
    exact .inr ⟨hm, by simpa using hne⟩

theorem mem_of_use (hm : m.size ≤ m.capacity) (h : (token, e) ∈ (m.use u).2.entries) :
    (m.answered u).Stores token e ∨ ((token, e) ∈ m.entries ∧ ¬ (m.answered u).Drops token
      ∧ ∀ e', ¬ (m.answered u).Stores token e') := by
  rw [entries_use hm] at h
  -- what was not raised is left alone
  have hrest : ∀ {f : Effect}, (m.answered u).effect = f → (∀ e', f ≠ .raises token e') →
      ∀ e', ¬ (m.answered u).Stores token e' := fun hf hn e' hs => hn e' (hf ▸ hs.effect)
  cases hf : (m.answered u).effect with
  | raises t e' =>
    rw [hf] at h
    have hdrop : ¬ (m.answered u).Drops token := by simp [Answered.Drops, hf]
    rcases mem_of_raises h with ⟨rfl, rfl⟩ | ⟨hmem, hne⟩
    · rcases stores_or_mem_of_raises hf with hs | ⟨hmem, hn⟩
      · exact .inl hs
      · exact .inr ⟨hmem, hdrop, hn token⟩
    · refine .inr ⟨hmem, hdrop, hrest hf fun e'' he => hne ?_⟩
      cases he
      rfl
  | drops t =>
    rw [hf] at h
    obtain ⟨hmem, hne⟩ := List.mem_filter.mp h
    have htoken : token ≠ t := by simpa using hne
    refine .inr ⟨hmem, ?_, hrest hf fun e' he => by cases he⟩
    simpa [Answered.Drops, hf] using htoken.symm
  | forgets =>
    rw [hf] at h
    exact absurd h List.not_mem_nil
  | none =>
    rw [hf] at h
    exact .inr ⟨h, by simp [Answered.Drops, hf], hrest hf fun e' he => by cases he⟩

/-! ## what every use keeps -/

theorem tokens_after_raises (m : Memo) (token : String) (e : Entry) :
    (m.after (.raises token e)).map Prod.fst
      = (token :: m.tokens.filter (· != token)).take m.capacity := by
  rw [after, List.map_take, List.map_cons, map_others]

theorem wellFormed_use (hm : m.WellFormed) (u : Use) : (m.use u).2.WellFormed := by
  have hkept : ∀ t, (m.tokens.filter (· != t)).Nodup := fun t => hm.distinct.filter _
  have hfew : ∀ t, (m.others t).length ≤ m.capacity := fun t =>
    Nat.le_trans (List.length_filter_le _ _) hm.bounded
  refine ⟨?_, ?_⟩
  · rw [capacity_use, size, entries_use hm.bounded]
    cases (m.answered u).effect with
    | raises t e => exact List.length_take_le _ _
    | drops t => exact hfew t
    | forgets => exact Nat.zero_le _
    | none => exact hm.bounded
  · rw [tokens, entries_use hm.bounded]
    cases (m.answered u).effect with
    | raises t e =>
      rw [tokens_after_raises]
      refine List.Nodup.sublist (List.take_sublist _ _) (List.nodup_cons.mpr ⟨?_, hkept t⟩)
      simp
    | drops t =>
      show ((m.others t).map Prod.fst).Nodup
      rw [map_others]
      exact hkept t
    | forgets => exact List.nodup_nil
    | none => exact hm.distinct

end Memo

end TokenGate
