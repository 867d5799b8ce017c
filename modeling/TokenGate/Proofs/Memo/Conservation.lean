import Mathlib
import TokenGate.Proofs.Memo.History
import TokenGate.Proofs.Memo.Tallies

/-!
# What the counters of a memo add up to

* `Memo.met`            uses one after the other, each with the memo that it meets;
* `Memo.admits`         the use stores a token that has no entry;
* `Memo.forgotten`      the number of entries that a use drops by clearing the memo;
* `size_use`            a use adds an entry or takes some away, and counts those that it takes away
                        otherwise than by clearing;
* `searched_use`        a lookup is counted as one of three, and nothing else is;
* `Answered.IsIdle`     a lookup is answered with `disabled`, a store is refused;
* `counters_conserved`  so that over all uses the lookups are those that were counted, and the
                        entries that came in are those that are left, were over, gave way or were
                        cleared away.

Counters are natural numbers here. Those of 64 bits show the same up to 2^64 uses.
-/

namespace TokenGate

def Use.isLookup : Use → Bool
  | .lookup _ _ => true
  | _ => false

/-- all lookups that were counted -/
def Tally.searched (t : Tally) : Nat := t.hits + t.misses + t.staleRemovals

/-- all entries that were taken away otherwise than by clearing -/
def Tally.removed (t : Tally) : Nat := t.staleRemovals + t.evictions

/-- the answer of a memo without room -/
def Answered.IsIdle (x : Answered) : Prop :=
  (∀ token now, x.use = .lookup token now → x.answer = .lookup .disabled)
    ∧ ∀ token outcome now validUntil, x.use = .store token outcome now validUntil →
      ∃ p, x.answer = .placement p ∧ p.stored = false

namespace Memo

variable {m : Memo} {u : Use} {token : String}

/-! ## uses with the memo that they meet -/

def met (m : Memo) : List Use → List (Memo × Use)
  | [] => []
  | u :: us => (m, u) :: (m.use u).2.met us

def admits (m : Memo) : Use → Bool
  | .store token outcome now validUntil =>
    (m.store token outcome now validUntil).1.stored && !m.contains token
  | _ => false

def forgotten (m : Memo) : Use → Nat
  | .clear => m.size
  | _ => 0

/-- how many entries came in -/
def admissions (m : Memo) (us : List Use) : Nat := (m.met us).countP fun x => x.1.admits x.2

/-- how many entries were cleared away -/
def clearances (m : Memo) (us : List Use) : Nat :=
  ((m.met us).map fun x => x.1.forgotten x.2).sum

theorem admissions_cons (m : Memo) (u : Use) (us : List Use) :
    m.admissions (u :: us) = (if m.admits u then 1 else 0) + (m.use u).2.admissions us := by
  rw [admissions, met, List.countP_cons]
  exact Nat.add_comm ..

theorem clearances_cons (m : Memo) (u : Use) (us : List Use) :
    m.clearances (u :: us) = m.forgotten u + (m.use u).2.clearances us := by
  rw [clearances, met, List.map_cons, List.sum_cons]
  rfl

/-! ## entries -/

theorem WellFormed.length_others (hm : m.WellFormed) (h : m.contains token = true) :
    (m.others token).length + 1 = m.size := by
  have hmem : token ∈ m.tokens := mem_tokens_iff.mpr h
  have hothers : (m.others token).length = (m.tokens.erase token).length := by
    rw [hm.distinct.erase_eq_filter, ← map_others, List.length_map]
  have hsize : m.tokens.length = m.size := List.length_map Prod.fst
  have hpos := List.length_pos_of_mem hmem
  rw [hothers, List.length_erase_of_mem hmem]
  omega

/-- an entry that is put in front takes the place of the token's own one, or of the last one, or
adds one -/
theorem size_place (hm : m.WellFormed) (token : String) (e : Entry) :
    (m.place token e).2.size + (m.place token e).2.tally.removed
      = m.size + m.tally.removed + if m.contains token then 0 else 1 := by
  rcases m.place_cases token e with ⟨hp, he⟩ | ⟨hp, _, he⟩ | ⟨hp, _, front, last, hl, he⟩ <;>
    rw [he, hp]
  · have hlen := hm.length_others hp
    show (m.others token).length + 1 + m.tally.removed = m.size + m.tally.removed + 0
    omega
  · show m.size + 1 + m.tally.removed = m.size + m.tally.removed + 1
    omega
  · have hsize : m.size = front.length + 1 := by rw [size, hl, List.length_append]; rfl
    show front.length + 1 + (m.tally.staleRemovals + (m.tally.evictions + 1))
      = m.size + m.tally.removed + 1
    rw [hsize, Tally.removed]
    omega

theorem size_store (hm : m.WellFormed) (token : String) (outcome : Outcome)
    (now validUntil : Int) :
    let next := (m.store token outcome now validUntil).2
    next.size + next.tally.removed = m.size + m.tally.removed
      + if m.admits (.store token outcome now validUntil) then 1 else 0 := by
  intro next
  rcases m.store_cases token outcome now validUntil with ⟨h, _⟩ | ⟨h, _⟩
  · simp only [next, admits, h]
    rfl
  · simp only [next, admits, h, stored_place, size_place hm]
    cases m.contains token <;> rfl

theorem size_lookup (hm : m.WellFormed) (token : String) (now : Int) :
    let next := (m.lookup token now).2
    next.size + next.tally.removed = m.size + m.tally.removed := by
  intro next
  have htally : next.tally = m.tally.noting (m.lookup token now).1 := m.tally_lookup token now
  rcases m.lookup_cases token now with
    ⟨_, hm', _⟩ | ⟨hr, he, _⟩ | ⟨e, hr, he, hf, _⟩ | ⟨e, hr, he, hf, _⟩
  · simp only [next, hm']
  · rw [htally, hr, size, he]
    rfl
  · have hlen := hm.length_others (contains_of_find? hf)
    rw [htally, hr, size, he]
    show (m.others token).length + (m.tally.staleRemovals + 1 + m.tally.evictions) = _
    unfold Tally.removed
    omega
  · have hlen := hm.length_others (contains_of_find? hf)
    rw [htally, hr, size, he, List.length_cons, hlen]
    rfl

theorem size_use (hm : m.WellFormed) (u : Use) :
    (m.use u).2.size + (m.use u).2.tally.removed + m.forgotten u
      = m.size + m.tally.removed + if m.admits u then 1 else 0 := by
  cases u with
  | store token outcome now validUntil => exact size_store hm token outcome now validUntil
  | lookup token now => exact size_lookup hm token now
  | contains token => rfl
  | clear =>
    show 0 + m.tally.removed + m.size = m.size + m.tally.removed + 0
    omega

theorem size_run (hm : m.WellFormed) (us : List Use) :
    (m.run us).2.size + (m.run us).2.tally.removed + m.clearances us
      = m.size + m.tally.removed + m.admissions us := by
  induction us generalizing m with
  | nil => rfl
  | cons u us ih =>
    have hstep := size_use hm u
    have hrest := ih (wellFormed_use hm u)
    have hlast : (m.run (u :: us)).2 = ((m.use u).2.run us).2 := rfl
    rw [hlast, clearances_cons, admissions_cons]
    omega

/-! ## lookups -/

theorem searched_noting {r : Lookup} (h : r ≠ .disabled) (t : Tally) :
    (t.noting r).searched = t.searched + 1 := by
  unfold Tally.searched
  cases r with
  | disabled => exact absurd rfl h
  | hit e =>
    show t.hits + 1 + t.misses + t.staleRemovals = _
    omega
  | miss =>
    show t.hits + (t.misses + 1) + t.staleRemovals = _
    omega
  | stale e => rfl

theorem searched_use (hc : 0 < m.capacity) (u : Use) :
    (m.use u).2.tally.searched = m.tally.searched + if u.isLookup then 1 else 0 := by
  cases u with
  | store token outcome now validUntil =>
    show (m.store token outcome now validUntil).2.tally.searched = _
    rw [tally_store]
    rfl
  | lookup token now =>
    have hfound : (m.lookup token now).1 ≠ .disabled := fun h =>
      Nat.ne_of_gt hc ((m.lookup_eq_disabled_iff token now).mp h)
    show (m.lookup token now).2.tally.searched = _
    rw [tally_lookup, searched_noting hfound]
    rfl
  | contains token => rfl
  | clear => rfl

theorem searched_run (hc : 0 < m.capacity) (us : List Use) :
    (m.run us).2.tally.searched = m.tally.searched + us.countP Use.isLookup := by
  induction us generalizing m with
  | nil => rfl
  | cons u us ih =>
    have hrest := ih (m := (m.use u).2) (by rwa [capacity_use])
    rw [run_cons, hrest, searched_use hc, List.countP_cons]
    omega

/-! ## without room -/

theorem idle_of_no_room (u : Use) : ((ofCapacity 0).answered u).IsIdle := by
  refine ⟨fun token now h => ?_, fun token outcome now validUntil h => ?_⟩
  · obtain rfl : u = .lookup token now := h
    rfl
  · obtain rfl : u = .store token outcome now validUntil := h
    refine ⟨_, rfl, Bool.eq_false_iff.mpr fun hstored => ?_⟩
    exact absurd (stored_store_iff.mp hstored).2.2 (Nat.lt_irrefl 0)

theorem idle_of_history (us : List Use) : ∀ x ∈ historyOf 0 us, x.IsIdle := by
  unfold historyOf
  induction us with
  | nil => exact fun x hx => absurd hx List.not_mem_nil
  | cons u us ih =>
    intro x hx
    rw [history_cons, use_ofCapacity_zero] at hx
    rcases List.mem_cons.mp hx with rfl | hx
    · exact idle_of_no_room u
    · exact ih x hx

/-! ## the whole account -/

/-- whatever is done with a memo that has room, each lookup is counted as a hit, a miss or stale,
and the entries that came in for new tokens are those that are still there, were found to be over,
gave way to others or were cleared away; without room nothing is ever found, stored or counted -/
theorem counters_conserved (capacity : Nat) (us : List Use) :
    let m := afterUses capacity us
    let t := m.tally
    (0 < capacity → t.hits + t.misses + t.staleRemovals = us.countP Use.isLookup
      ∧ (ofCapacity capacity).admissions us
        = m.size + t.staleRemovals + t.evictions + (ofCapacity capacity).clearances us)
    ∧ (capacity = 0 → m.size = 0 ∧ t = ⟨0, 0, 0, 0⟩ ∧ ∀ x ∈ historyOf capacity us, x.IsIdle) := by
  intro m t
  refine ⟨fun hc => ⟨?_, ?_⟩, ?_⟩
  · have hsearched : t.searched = 0 + us.countP Use.isLookup :=
      searched_run (m := ofCapacity capacity) hc us
    rw [Nat.zero_add] at hsearched
    exact hsearched
  · have hsize : m.size + t.removed + (ofCapacity capacity).clearances us
        = 0 + 0 + (ofCapacity capacity).admissions us :=
      size_run (wellFormed_ofCapacity capacity) us
    unfold Tally.removed at hsize
    omega
  · rintro rfl
    have hm : m = ofCapacity 0 := run_ofCapacity_zero us
    exact ⟨congrArg size hm, congrArg Memo.tally hm, idle_of_history us⟩

end Memo

end TokenGate
