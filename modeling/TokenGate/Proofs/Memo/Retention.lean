import Mathlib.Data.Finset.Card
import TokenGate.Proofs.Memo.History

/-!
# How long an entry stays

* `Answered.rivals t h`   the tokens other than `t` that a history touches;
* `Memo.Within m t ts`    the token `t` has an entry, and every token that was touched since is
                          one of `ts`;
* `within_of_raises`      a token that was just touched is within the empty set;
* `within_use`            one use of the memo keeps it within the set, with its own token added;
* `within_run`            so does a run, as long as the set is smaller than the capacity.

There is an entry in front of that of `t` only for tokens that were touched since, and it takes as
many of them as there is room for to push it out.
-/

namespace TokenGate

namespace Answered

def touches (h : List Answered) : List String := h.filterMap touched?

def rivals (token : String) (h : List Answered) : Finset String := (touches h).toFinset.erase token

theorem touches_append (h k : List Answered) : touches (h ++ k) = touches h ++ touches k :=
  List.filterMap_append

theorem rivals_append (token : String) (h k : List Answered) :
    rivals token (h ++ k) = rivals token h ∪ rivals token k := by
  unfold rivals
  rw [touches_append, List.toFinset_append, Finset.erase_union_distrib]

theorem mem_rivals_singleton {x : Answered} {token other : String} :
    other ∈ rivals token [x] ↔ other ≠ token ∧ x.touched? = some other := by
  unfold rivals touches
  cases hx : x.touched? <;> simp [hx, eq_comm]

end Answered

namespace Memo

open Answered (rivals rivals_append mem_rivals_singleton)

variable {m : Memo} {u : Use} {us : List Use} {token : String} {newer newer' : Finset String}

def Within (m : Memo) (token : String) (newer : Finset String) : Prop :=
  ∃ front rest, m.tokens = front ++ token :: rest ∧ ∀ t ∈ front, t ∈ newer

theorem Within.contains (h : m.Within token newer) : m.contains token = true := by
  obtain ⟨front, rest, ht, _⟩ := h
  exact mem_tokens_iff.mp (ht ▸ List.mem_append_right _ (List.mem_cons_self ..))

/-! ## one use -/

theorem tokens_of_raises (hm : m.WellFormed) {t : String} {e : Entry}
    (h : (m.answered u).effect = .raises t e) :
    (m.use u).2.tokens = (t :: m.tokens.filter (· != t)).take m.capacity := by
  rw [tokens, entries_use hm.bounded, h, tokens_after_raises]

theorem within_of_raises (hm : m.WellFormed) {e : Entry}
    (h : (m.answered u).effect = .raises token e) : (m.use u).2.Within token ∅ := by
  obtain ⟨n, hn⟩ := Nat.exists_eq_add_one.mpr (capacity_pos_of_raises h)
  refine ⟨[], (m.tokens.filter (· != token)).take n, ?_, fun t ht => absurd ht List.not_mem_nil⟩
  rw [tokens_of_raises hm h, hn]
  rfl

theorem within_mono (h : m.Within token newer) (hsub : newer ⊆ newer') :
    m.Within token newer' := by
  obtain ⟨front, rest, ht, hfront⟩ := h
  exact ⟨front, rest, ht, fun t hf => hsub (hfront t hf)⟩

/-- taking another token out leaves a token where it is -/
theorem filter_around {t token : String} (hne : t ≠ token) (front rest : List String) :
    (front ++ token :: rest).filter (· != t)
      = front.filter (· != t) ++ token :: rest.filter (· != t) := by
  simp [hne.symm]

/-- a touch of another token puts it in front, and there is still room for both -/
theorem within_of_rival (hm : m.WellFormed) (h : m.Within token newer) {t : String} {e : Entry}
    (hraise : (m.answered u).effect = .raises t e) (hne : t ≠ token) (ht : t ∈ newer)
    (hfew : newer.card < m.capacity) : (m.use u).2.Within token newer := by
  obtain ⟨front, rest, htokens, hfront⟩ := h
  have hsplit : t :: m.tokens.filter (· != t)
      = (t :: front.filter (· != t)) ++ token :: rest.filter (· != t) := by
    rw [htokens, filter_around hne, List.cons_append]
  have hmem : ∀ s ∈ t :: front.filter (· != t), s ∈ newer := by
    intro s hs
    rcases List.mem_cons.mp hs with rfl | hs
    · exact ht
    · exact hfront s (List.mem_of_mem_filter hs)
  have hdistinct : (t :: front.filter (· != t)).Nodup := by
    have hf : front.Nodup := (List.nodup_append.mp (htokens ▸ hm.distinct)).1
    exact List.nodup_cons.mpr ⟨by simp, hf.filter _⟩
  have hlen : (t :: front.filter (· != t)).length ≤ newer.card := by
    rw [← List.toFinset_card_of_nodup hdistinct]
    exact Finset.card_le_card fun s hs => hmem s (List.mem_toFinset.mp hs)
  obtain ⟨n, hn⟩ : ∃ n, m.capacity - (t :: front.filter (· != t)).length = n + 1 :=
    Nat.exists_eq_add_one.mpr (by omega)
  refine ⟨t :: front.filter (· != t), (rest.filter (· != t)).take n, ?_, hmem⟩
  rw [tokens_of_raises hm hraise, hsplit, List.take_append, hn, List.take_succ_cons,
    List.take_of_length_le (by omega)]

theorem within_use (hm : m.WellFormed) (h : m.Within token newer)
    (hd : ¬ (m.answered u).Drops token)
    (hfew : (newer ∪ rivals token [m.answered u]).card < m.capacity) :
    (m.use u).2.Within token (newer ∪ rivals token [m.answered u]) := by
  cases hf : (m.answered u).effect with
  | raises t e =>
    by_cases hne : t = token
    · subst hne
      exact within_mono (within_of_raises hm hf) (Finset.empty_subset _)
    · have ht : t ∈ rivals token [m.answered u] :=
        mem_rivals_singleton.mpr ⟨hne, Answered.touched?_eq_some_iff.mpr ⟨e, hf⟩⟩
      exact within_of_rival hm (within_mono h Finset.subset_union_left) hf hne
        (Finset.mem_union_right _ ht) hfew
  | drops t =>
    have hne : t ≠ token := fun he => hd (.inl (he ▸ hf))
    obtain ⟨front, rest, htokens, hfront⟩ := h
    refine ⟨front.filter (· != t), rest.filter (· != t), ?_, fun s hs =>
      Finset.mem_union_left _ (hfront s (List.mem_of_mem_filter hs))⟩
    rw [tokens, entries_use hm.bounded, hf, after, map_others, htokens, filter_around hne]
  | forgets => exact absurd (.inr hf) hd
  | none =>
    refine within_mono ?_ Finset.subset_union_left
    have hsame : (m.use u).2.tokens = m.tokens := by
      rw [tokens, entries_use hm.bounded, hf]
      rfl
    unfold Within
    rwa [hsame]

/-! ## runs -/

theorem within_run (hm : m.WellFormed) (h : m.Within token newer)
    (hd : ∀ x ∈ m.history us, ¬ x.Drops token)
    (hfew : (newer ∪ rivals token (m.history us)).card < m.capacity) :
    (m.run us).2.Within token (newer ∪ rivals token (m.history us)) := by
  induction us generalizing m newer with
  | nil => exact within_mono h Finset.subset_union_left
  | cons u us ih =>
    have hsplit : newer ∪ rivals token (m.history (u :: us)) = (newer
        ∪ rivals token [m.answered u]) ∪ rivals token ((m.use u).2.history us) := by
      rw [history_cons, ← List.singleton_append, rivals_append, Finset.union_assoc]
    rw [hsplit] at hfew ⊢
    have hone : (newer ∪ rivals token [m.answered u]).card < m.capacity :=
      Nat.lt_of_le_of_lt (Finset.card_le_card Finset.subset_union_left) hfew
    have hstep := within_use hm h (hd _ (List.mem_cons_self ..)) hone
    have hcap : (m.use u).2.capacity = m.capacity := m.capacity_use u
    exact ih (wellFormed_use hm u) hstep (fun x hx => hd x (List.mem_cons_of_mem _ hx))
      (hcap.symm ▸ hfew)

end Memo

end TokenGate
