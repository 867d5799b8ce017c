import Mathlib.Data.List.Induction
import TokenGate.Proofs.Memo.Effects

/-!
# Histories of a memo and what it hands out

* `Memo.history`        uses with the answers to them, in their order;
* `Answered.Latest`     an entry is what the latest store of its token left, with no such store and
                        nothing that drops the token after it;
* `latest_of_mem`       every entry of a memo is that of the latest store in its history;
* `absent_of_run`       a token without an entry has none until it is stored;
* `lookup_faithful`     an entry that is handed out is the latest one and not over, one that is
                        reported as stale is the latest one and over, and a store that is refused
                        leaves the memo as it is.

The clock may be read in any order.
-/

namespace TokenGate

/-! ## histories -/

namespace Memo

variable {m : Memo} {us : List Use} {token : String} {now : Int} {e : Entry}

def history (m : Memo) (us : List Use) : List Answered := us.zipWith Answered.mk (m.run us).1

theorem history_cons (m : Memo) (u : Use) (us : List Use) :
    m.history (u :: us) = m.answered u :: (m.use u).2.history us := rfl

theorem history_append (m : Memo) (us vs : List Use) :
    m.history (us ++ vs) = m.history us ++ (m.run us).2.history vs := by
  induction us generalizing m with
  | nil => rfl
  | cons u us ih => rw [List.cons_append, history_cons, ih]; rfl

theorem mem_history {x : Answered} (h : x ∈ m.history us) :
    ∃ m' : Memo, ∃ u ∈ us, x = m'.answered u := by
  induction us generalizing m with
  | nil => cases h
  | cons u us ih =>
    rcases List.mem_cons.mp h with rfl | h
    · exact ⟨m, u, List.mem_cons_self .., rfl⟩
    · obtain ⟨m', v, hv, hx⟩ := ih h
      exact ⟨m', v, List.mem_cons_of_mem _ hv, hx⟩

theorem use_mem_of_history {x : Answered} (h : x ∈ m.history us) : x.use ∈ us := by
  obtain ⟨_, u, hu, rfl⟩ := mem_history h
  exact hu

theorem wellFormed_run (hm : m.WellFormed) (us : List Use) : (m.run us).2.WellFormed := by
  induction us generalizing m with
  | nil => exact hm
  | cons u us ih => exact ih (wellFormed_use hm u)

theorem capacity_run (m : Memo) (us : List Use) : (m.run us).2.capacity = m.capacity := by
  induction us generalizing m with
  | nil => rfl
  | cons u us ih => exact (ih (m.use u).2).trans (m.capacity_use u)

end Memo

/-! ## the latest store of a token -/

def Answered.Latest (h : List Answered) (token : String) (e : Entry) : Prop :=
  ∃ before x since, h = before ++ x :: since ∧ x.Stores token e
    ∧ ∀ y ∈ since, ¬ y.Drops token ∧ ∀ e', ¬ y.Stores token e'

namespace Memo

open Answered (Latest)

variable {m : Memo} {us : List Use} {token : String} {now : Int} {e : Entry} {capacity : Nat}

/-- what a memo of some capacity has become after uses -/
def afterUses (capacity : Nat) (us : List Use) : Memo := ((ofCapacity capacity).run us).2

/-- the history that led there -/
def historyOf (capacity : Nat) (us : List Use) : List Answered := (ofCapacity capacity).history us

theorem afterUses_concat (capacity : Nat) (us : List Use) (u : Use) :
    afterUses capacity (us ++ [u]) = ((afterUses capacity us).use u).2 := by
  unfold afterUses
  rw [run_append]
  rfl

theorem historyOf_concat (capacity : Nat) (us : List Use) (u : Use) :
    historyOf capacity (us ++ [u])
      = historyOf capacity us ++ [(afterUses capacity us).answered u] :=
  history_append _ us [u]

theorem wellFormed_afterUses (capacity : Nat) (us : List Use) :
    (afterUses capacity us).WellFormed :=
  wellFormed_run (wellFormed_ofCapacity capacity) us

theorem latest_of_mem (h : (token, e) ∈ (afterUses capacity us).entries) :
    Latest (historyOf capacity us) token e := by
  induction us using List.reverseRecOn with
  | nil => exact absurd h List.not_mem_nil
  | append_singleton us u ih =>
    rw [afterUses_concat] at h
    rw [historyOf_concat]
    rcases mem_of_use (wellFormed_afterUses capacity us).bounded h with hs | ⟨hmem, hd, hs⟩
    · exact ⟨historyOf capacity us, _, [], rfl, hs, fun y hy => absurd hy List.not_mem_nil⟩
    · obtain ⟨before, x, since, hh, hx, hsince⟩ := ih hmem
      refine ⟨before, x, since ++ [(afterUses capacity us).answered u], by simp [hh], hx,
        fun y hy => ?_⟩
      rcases List.mem_append.mp hy with hy | hy
      · exact hsince y hy
      · rw [List.mem_singleton.mp hy]
        exact ⟨hd, hs⟩

/-- nothing is stored unless it is accepted and not over -/
theorem accepted_of_stores {x : Answered} (hx : x ∈ m.history us) (h : x.Stores token e) :
    e.outcome.accepted = true ∧ e.storedAt ≤ e.validUntil := by
  obtain ⟨m', u, _, rfl⟩ := mem_history hx
  obtain ⟨p, hu, hp⟩ := h
  have huse : u = .store token e.outcome e.storedAt e.validUntil := congrArg Answered.use hu
  have hanswer : (m'.use u).1 = .placement p := congrArg Answered.answer hu
  subst huse
  have hplaced : (m'.store token e.outcome e.storedAt e.validUntil).1 = p :=
    Use.Answer.placement.inj hanswer
  rw [← hplaced, stored_store_iff] at hp
  exact ⟨hp.1, hp.2.1⟩

theorem absent_of_run (hm : m.WellFormed) (h : m.contains token = false)
    (hs : ∀ x ∈ m.history us, ∀ e, ¬ x.Stores token e) :
    (m.run us).2.contains token = false := by
  induction us generalizing m with
  | nil => exact h
  | cons u us ih =>
    refine ih (wellFormed_use hm u) ?_ fun x hx => hs x (List.mem_cons_of_mem _ hx)
    refine Bool.eq_false_iff.mpr fun hp => ?_
    obtain ⟨⟨_, e⟩, he, rfl⟩ := List.mem_map.mp (mem_tokens_iff.mpr hp)
    rcases mem_of_use hm.bounded he with hst | ⟨hmem, _⟩
    · exact hs _ (List.mem_cons_self ..) e hst
    · rw [mem_tokens_iff.mp (mem_tokens_of_mem hmem)] at h
      cases h

/-! ## looking up and storing -/

theorem stale_eq (h : (m.lookup token now).1 = .stale e) :
    (token, e) ∈ m.entries ∧ e.validUntil < now
      ∧ (m.lookup token now).2.contains token = false := by
  rcases m.lookup_cases token now with ⟨h', _⟩ | ⟨h', _⟩ | ⟨e', h', he, hf, hnow⟩ | ⟨e', h', _⟩
  · rw [h'] at h
    cases h
  · rw [h'] at h
    cases h
  · rw [h'] at h
    cases h
    refine ⟨mem_of_find? hf, hnow, Bool.eq_false_iff.mpr fun hp => ?_⟩
    have hmem := mem_tokens_iff.mpr hp
    rw [tokens, he, map_others] at hmem
    simp at hmem
  · rw [h'] at h
    cases h

theorem refused_iff {outcome : Outcome} {validUntil : Int} :
    (m.store token outcome now validUntil).1.stored = false ↔
      outcome.accepted = false ∨ validUntil < now ∨ m.capacity = 0 := by
  rw [← Bool.not_eq_true, stored_store_iff]
  rw [not_and_or, not_and_or, Bool.not_eq_true, Int.not_le, Nat.not_lt, Nat.le_zero]

theorem store_of_refused {outcome : Outcome} {validUntil : Int}
    (h : (m.store token outcome now validUntil).1.stored = false) :
    (m.store token outcome now validUntil).2 = m := by
  rcases m.store_cases token outcome now validUntil with ⟨hs, _⟩ | ⟨hs, _⟩
  · rw [hs]
  · rw [hs, stored_place] at h
    cases h

/-- whatever was done before and in whatever order the clock is read: a hit hands out what the
latest store of that token left, as long as it is valid; a stale entry is that of the latest store
too, and the token is gone until it is stored again; and a store counts unless the outcome is not
accepted, or over, or there is no room at all, and then it changes nothing -/
theorem lookup_faithful (capacity : Nat) (us : List Use) (token : String) (now : Int) :
    let m := afterUses capacity us
    let found := m.lookup token now
    (∀ e, found.1 = .hit e → Latest (historyOf capacity us) token e
      ∧ e.outcome.accepted = true ∧ e.storedAt ≤ e.validUntil ∧ now ≤ e.validUntil)
    ∧ (∀ e, found.1 = .stale e → Latest (historyOf capacity us) token e ∧ e.validUntil < now
      ∧ ∀ later, (∀ x ∈ found.2.history later, ∀ e', ¬ x.Stores token e') →
        (found.2.run later).2.contains token = false)
    ∧ ∀ outcome now validUntil, let stored := m.store token outcome now validUntil
      (stored.1.stored = false ↔
        outcome.accepted = false ∨ validUntil < now ∨ capacity = 0)
      ∧ (stored.1.stored = false → stored.2 = m) := by
  intro m found
  have hm : m.WellFormed := wellFormed_afterUses capacity us
  refine ⟨fun e he => ?_, fun e he => ?_, fun outcome now validUntil => ⟨?_, store_of_refused⟩⟩
  · obtain ⟨hmem, hnow⟩ := mem_of_hit he
    have hl : Latest (historyOf capacity us) token e := latest_of_mem hmem
    obtain ⟨before, x, since, hh, hx, _⟩ := id hl
    have hxh : x ∈ historyOf capacity us := by simp [hh]
    obtain ⟨hacc, hcurrent⟩ := accepted_of_stores hxh hx
    exact ⟨hl, hacc, hcurrent, hnow⟩
  · obtain ⟨hmem, hnow, habsent⟩ := stale_eq he
    exact ⟨latest_of_mem hmem, hnow, fun later hs =>
      absent_of_run (wellFormed_use hm (.lookup token now)) habsent hs⟩
  · have hc : m.capacity = capacity := capacity_run (ofCapacity capacity) us
    rw [← hc]
    exact refused_iff

/-- a token that is stored twice is handed out as it was stored last, in between another one that
is refused -/
theorem lookup_faithful_of_restored :
    let first := Outcome.accept "user1" .empty 10
    let second := Outcome.accept "user1" .empty 20
    let us := [Use.store "t" first 0 10, .store "t" second 5 20, .store "t" first 30 10]
    ((afterUses 1 us).lookup "t" 7).1 = .hit ⟨second, 5, 20⟩
      ∧ Latest (historyOf 1 us) "t" ⟨second, 5, 20⟩ := by
  intro first second us
  have hhit : ((afterUses 1 us).lookup "t" 7).1 = .hit ⟨second, 5, 20⟩ := by decide +kernel
  exact ⟨hhit, ((lookup_faithful 1 us "t" 7).1 _ hhit).1⟩

end Memo

end TokenGate
