import TokenGate.Proofs.Memo.Retention
import TokenGate.Theory.LastOccurrence

/-!
# The least recently touched entry makes room

* `Answered.lastTouches h`  the tokens that a history touches, each at its last touch;
* `Memo.Displaces m u t`    the use `u` takes the entry of `t` away without dropping it;
* `filter_lastTouches`      the tokens of a memo stand in the order of their last touches;
* `displaces_iff`           what is displaced, and by what;
* `contains_of_few`         a token stays while fewer others than there is room for are touched;
* `tokens_of_kept`          where nothing is dropped, exactly the latest tokens have an entry;
* `recency_exact`           all of this about any history.
-/

namespace TokenGate

/-- the order of the last touches, the latest one at the end -/
def Answered.lastTouches (h : List Answered) : List String := (touches h).dedup

namespace Memo

open Answered (touches lastTouches rivals touches_append)
open Theory (dedup_concat take_filter_of_nodup filter_mem_of_sublist)

variable {m : Memo} {u : Use} {us : List Use} {token : String} {capacity : Nat}

/-! ## the order of the entries -/

theorem nodup_lastTouches (h : List Answered) : (lastTouches h).Nodup := List.nodup_dedup _

theorem lastTouches_of_raises {h : List Answered} {x : Answered} {e : Entry}
    (hx : x.effect = .raises token e) :
    (lastTouches (h ++ [x])).reverse
      = token :: (lastTouches h).reverse.filter (· != token) := by
  have ht : touches (h ++ [x]) = touches h ++ [token] := by
    rw [touches_append]
    simp [touches, Answered.touched?, hx]
  unfold lastTouches
  rw [ht, dedup_concat, List.reverse_append, List.filter_reverse]
  rfl

theorem lastTouches_of_untouched {h : List Answered} {x : Answered} (hx : x.touched? = none) :
    lastTouches (h ++ [x]) = lastTouches h := by
  unfold lastTouches
  rw [touches_append]
  simp [touches, hx]

/-- the entries stand in the order of the last touches, the latest one first -/
theorem tokens_sublist (capacity : Nat) (us : List Use) :
    (afterUses capacity us).tokens.Sublist (lastTouches (historyOf capacity us)).reverse := by
  induction us using List.reverseRecOn with
  | nil => exact List.nil_sublist _
  | append_singleton us u ih =>
    have hm := wellFormed_afterUses capacity us
    rw [afterUses_concat, historyOf_concat]
    cases hf : ((afterUses capacity us).answered u).effect with
    | raises t e =>
      rw [lastTouches_of_raises hf, tokens_of_raises hm hf]
      exact (List.take_sublist _ _).trans ((ih.filter _).cons_cons t)
    | drops t =>
      rw [lastTouches_of_untouched (by simp [Answered.touched?, hf]), tokens,
        entries_use hm.bounded, hf, after, map_others]
      exact List.filter_sublist.trans ih
    | forgets =>
      rw [lastTouches_of_untouched (by simp [Answered.touched?, hf]), tokens,
        entries_use hm.bounded, hf]
      exact List.nil_sublist _
    | none =>
      rw [lastTouches_of_untouched (by simp [Answered.touched?, hf]), tokens,
        entries_use hm.bounded, hf]
      exact ih

/-- the touched tokens that have an entry, the earliest last touch first -/
theorem filter_lastTouches (capacity : Nat) (us : List Use) :
    (lastTouches (historyOf capacity us)).filter (afterUses capacity us).contains
      = (afterUses capacity us).tokens.reverse := by
  have hsub := List.reverse_sublist.mpr (tokens_sublist capacity us)
  rw [List.reverse_reverse] at hsub
  refine Eq.trans (List.filter_congr fun t _ => ?_)
    (filter_mem_of_sublist hsub (nodup_lastTouches _))
  rw [Bool.eq_iff_iff, decide_eq_true_iff, List.mem_reverse, mem_tokens_iff]

/-! ## what is displaced -/

/-- the entry of the token is lost, and the use does not drop it -/
def Displaces (m : Memo) (u : Use) (token : String) : Prop :=
  m.contains token = true ∧ (m.use u).2.contains token = false
    ∧ ¬ (m.answered u).Drops token

theorem tokens_of_room (hm : m.WellFormed) {t : String} {e : Entry}
    (hf : (m.answered u).effect = .raises t e)
    (hroom : m.contains t = true ∨ m.size < m.capacity) :
    (m.use u).2.tokens = t :: m.tokens.filter (· != t) := by
  rw [tokens_of_raises hm hf]
  refine List.take_of_length_le ?_
  rw [List.length_cons, ← map_others, List.length_map]
  rcases hroom with hp | hs
  · exact Nat.le_trans (length_others_lt hp) hm.bounded
  · exact Nat.lt_of_le_of_lt (List.length_filter_le _ _) hs

theorem tokens_of_newcomer (hm : m.WellFormed) {t : String} {e : Entry}
    (hf : (m.answered u).effect = .raises t e) (habsent : m.contains t = false)
    (hfull : m.size = m.capacity) : (m.use u).2.tokens = t :: m.tokens.dropLast := by
  obtain ⟨n, hn⟩ := Nat.exists_eq_add_one.mpr (capacity_pos_of_raises hf)
  have hlen : m.tokens.length = n + 1 := by rw [tokens, List.length_map, ← hn, ← hfull, size]
  rw [tokens_of_raises hm hf, ← map_others, others_of_absent habsent, hn, List.take_succ_cons,
    List.dropLast_eq_take, hlen]
  rfl

theorem last_of_displaced (hm : m.WellFormed) {t : String} {e : Entry}
    (hf : (m.answered u).effect = .raises t e) (hp : m.contains token = true)
    (hlost : (m.use u).2.contains token = false) :
    (∃ newcomer e', (m.answered u).Stores newcomer e' ∧ m.contains newcomer = false)
      ∧ m.size = m.capacity ∧ m.tokens.getLast? = some token := by
  have hmem : token ∈ m.tokens := mem_tokens_iff.mpr hp
  have hgone : token ∉ (m.use u).2.tokens := fun h => by
    rw [mem_tokens_iff.mp h] at hlost
    cases hlost
  -- with room for all, nothing is lost
  have hnoroom : ¬ (m.contains t = true ∨ m.size < m.capacity) := fun hroom => by
    rw [tokens_of_room hm hf hroom] at hgone
    by_cases he : token = t
    · exact hgone (he ▸ List.mem_cons_self ..)
    · exact hgone (List.mem_cons_of_mem _ (List.mem_filter.mpr ⟨hmem, by simpa using he⟩))
  rw [not_or, Bool.not_eq_true, Nat.not_lt] at hnoroom
  obtain ⟨habsent, hle⟩ := hnoroom
  have hfull : m.size = m.capacity := Nat.le_antisymm hm.bounded hle
  refine ⟨⟨t, e, ?_, habsent⟩, hfull, ?_⟩
  · rcases stores_or_mem_of_raises hf with hs | ⟨he, _⟩
    · exact hs
    · rw [mem_tokens_iff.mp (mem_tokens_of_mem he)] at habsent
      cases habsent
  · rw [tokens_of_newcomer hm hf habsent hfull] at hgone
    have hne : m.tokens ≠ [] := List.ne_nil_of_mem hmem
    rw [← List.dropLast_append_getLast hne] at hmem
    rcases List.mem_append.mp hmem with h | h
    · exact absurd (List.mem_cons_of_mem _ h) hgone
    · rw [List.mem_singleton.mp h, List.getLast?_eq_getLast_of_ne_nil hne]

theorem displaces_iff_last (hm : m.WellFormed) :
    m.Displaces u token ↔
      (∃ newcomer e, (m.answered u).Stores newcomer e ∧ m.contains newcomer = false)
        ∧ m.size = m.capacity ∧ m.tokens.getLast? = some token := by
  constructor
  · intro hx
    obtain ⟨hp, hlost, hd⟩ := hx
    have htokens : (m.use u).2.tokens = (m.after (m.answered u).effect).map Prod.fst := by
      rw [tokens, entries_use hm.bounded]
    have hgone : token ∉ (m.use u).2.tokens := fun h => by
      rw [mem_tokens_iff.mp h] at hlost
      cases hlost
    cases hf : (m.answered u).effect with
    | raises t e => exact last_of_displaced hm hf hp hlost
    | drops t =>
      rw [htokens, hf, after, map_others] at hgone
      have he : token = t := by
        by_contra hne
        exact hgone (List.mem_filter.mpr ⟨mem_tokens_iff.mpr hp, by simpa using hne⟩)
      exact absurd (.inl (he ▸ hf)) hd
    | forgets => exact absurd (.inr hf) hd
    | none =>
      rw [htokens, hf] at hgone
      exact absurd (mem_tokens_iff.mpr hp) hgone
  · intro hx
    obtain ⟨⟨newcomer, e, hs, habsent⟩, hfull, hlast⟩ := hx
    have hsplit : m.tokens.dropLast ++ [token] = m.tokens :=
      List.dropLast_append_getLast? token hlast
    have hmem : token ∈ m.tokens := hsplit ▸ List.mem_append_right _ (List.mem_singleton_self _)
    have hp : m.contains token = true := mem_tokens_iff.mp hmem
    refine ⟨hp, Bool.eq_false_iff.mpr fun hkept => ?_, fun hd => ?_⟩
    · have hafter := mem_tokens_iff.mpr hkept
      rw [tokens_of_newcomer hm hs.effect habsent hfull] at hafter
      rcases List.mem_cons.mp hafter with rfl | h
      · rw [hp] at habsent
        cases habsent
      · have hdistinct := hsplit ▸ hm.distinct
        exact (List.nodup_append.mp hdistinct).2.2 token h token
          (List.mem_singleton_self _) rfl
    · rcases hd with hd | hd <;> rw [hs.effect] at hd <;> cases hd

/-- an entry is displaced only by a token that comes in when the memo is full, and it is that of
the token with the earliest last touch -/
theorem displaces_iff (capacity : Nat) (us : List Use) (u : Use) (token : String) :
    let m := afterUses capacity us
    m.Displaces u token ↔
      (∃ newcomer e, (m.answered u).Stores newcomer e ∧ m.contains newcomer = false)
        ∧ m.size = capacity
        ∧ (lastTouches (historyOf capacity us)).find? m.contains = some token := by
  intro m
  have hcap : m.capacity = capacity := capacity_run (ofCapacity capacity) us
  rw [displaces_iff_last (wellFormed_afterUses capacity us), hcap, ← List.head?_filter,
    filter_lastTouches, List.head?_reverse]

/-! ## what stays -/

theorem history_split {before since : List Answered} {x : Answered}
    (h : m.history us = before ++ x :: since) : ∃ us₁ u us₂, us = us₁ ++ u :: us₂
      ∧ x = (m.run us₁).2.answered u ∧ since = ((m.run us₁).2.use u).2.history us₂ := by
  induction before generalizing m us with
  | nil =>
    cases us with
    | nil => cases h
    | cons u us =>
      rw [history_cons, List.nil_append, List.cons.injEq] at h
      exact ⟨[], u, us, rfl, h.1.symm, h.2.symm⟩
  | cons b before ih =>
    cases us with
    | nil => cases h
    | cons u us =>
      rw [history_cons, List.cons_append, List.cons.injEq] at h
      obtain ⟨us₁, v, us₂, rfl, hx, hs⟩ := ih h.2
      exact ⟨u :: us₁, v, us₂, rfl, hx, hs⟩

theorem contains_of_few {before since : List Answered} {x : Answered}
    (h : historyOf capacity us = before ++ x :: since) (hx : x.touched? = some token)
    (hd : ∀ y ∈ since, ¬ y.Drops token) (hfew : (rivals token since).card < capacity) :
    (afterUses capacity us).contains token = true := by
  obtain ⟨us₁, u, us₂, rfl, rfl, rfl⟩ := history_split h
  obtain ⟨e, he⟩ := Answered.touched?_eq_some_iff.mp hx
  have hm : (afterUses capacity us₁).WellFormed := wellFormed_afterUses capacity us₁
  have hcap : ((afterUses capacity us₁).use u).2.capacity = capacity :=
    (capacity_use _ u).trans (capacity_run (ofCapacity capacity) us₁)
  have hkept := within_run (wellFormed_use hm u) (within_of_raises hm he) hd (by
    rw [Finset.empty_union, hcap]
    exact hfew)
  have hlast : afterUses capacity (us₁ ++ u :: us₂)
      = (((afterUses capacity us₁).use u).2.run us₂).2 := by
    unfold afterUses
    rw [run_append]
    rfl
  rw [hlast]
  exact hkept.contains

/-- as long as nothing is dropped, it is the latest tokens that have an entry -/
theorem tokens_of_kept (h : ∀ x ∈ historyOf capacity us, ∀ t, ¬ x.Drops t) :
    (afterUses capacity us).tokens
      = (lastTouches (historyOf capacity us)).reverse.take capacity := by
  induction us using List.reverseRecOn with
  | nil =>
    show [] = List.take capacity []
    rw [List.take_nil]
  | append_singleton us u ih =>
    have hm := wellFormed_afterUses capacity us
    have hcap : (afterUses capacity us).capacity = capacity :=
      capacity_run (ofCapacity capacity) us
    rw [historyOf_concat] at h
    have ih := ih fun x hx => h x (List.mem_append_left _ hx)
    have hlast := h _ (List.mem_append_right _ (List.mem_singleton_self _))
    rw [afterUses_concat, historyOf_concat]
    cases hf : ((afterUses capacity us).answered u).effect with
    | raises t e =>
      obtain ⟨n, hn⟩ := Nat.exists_eq_add_one.mpr (capacity_pos_of_raises hf)
      rw [hcap] at hn
      rw [lastTouches_of_raises hf, tokens_of_raises hm hf, hcap, ih, hn, List.take_succ_cons,
        List.take_succ_cons, take_filter_of_nodup (List.nodup_reverse.mpr (nodup_lastTouches _))]
    | drops t => exact absurd (.inl hf) (hlast t)
    | forgets => exact absurd (.inr hf) (hlast "")
    | none =>
      rw [lastTouches_of_untouched (by simp [Answered.touched?, hf]), tokens,
        entries_use hm.bounded, hf]
      exact ih

/-! ## the whole rule -/

/-- whatever is done with a memo, its room is not exceeded and no token has two entries; an entry is
displaced by a newcomer to a full memo and by nothing else, and it is the one with the earliest
last touch; a token that was touched keeps its entry until it is dropped or as many others are
touched as there is room for; and if nothing at all is dropped, the tokens are the latest ones -/
theorem recency_exact (capacity : Nat) (us : List Use) :
    let m := afterUses capacity us
    let h := historyOf capacity us
    (m.size ≤ capacity ∧ m.tokens.Nodup)
    ∧ (∀ u token, m.Displaces u token ↔
      (∃ newcomer e, (m.answered u).Stores newcomer e ∧ m.contains newcomer = false)
        ∧ m.size = capacity ∧ (lastTouches h).find? m.contains = some token)
    ∧ (∀ before x since token, h = before ++ x :: since → x.touched? = some token →
      (∀ y ∈ since, ¬ y.Drops token) → (rivals token since).card < capacity →
        m.contains token = true)
    ∧ ((∀ x ∈ h, ∀ token, ¬ x.Drops token) →
      m.tokens = (lastTouches h).reverse.take capacity
        ∧ m.size = min capacity (touches h).toFinset.card) := by
  intro m h
  have hm : m.WellFormed := wellFormed_afterUses capacity us
  have hcap : m.capacity = capacity := capacity_run (ofCapacity capacity) us
  refine ⟨⟨hcap ▸ hm.bounded, hm.distinct⟩, displaces_iff capacity us, ?_, fun hd => ?_⟩
  · intro before x since token hsplit hx hd hfew
    exact contains_of_few hsplit hx hd hfew
  · have htokens : m.tokens = (lastTouches h).reverse.take capacity := tokens_of_kept hd
    refine ⟨htokens, ?_⟩
    have hlen : m.size = m.tokens.length := (List.length_map Prod.fst).symm
    rw [hlen, htokens, List.length_take, List.length_reverse, List.card_toFinset]
    rfl

/-- in a memo for two, a hit on the first token makes the second one give way -/
theorem recency_exact_of_touched :
    let o := Outcome.accept "user1" .empty 10
    let us := [Use.store "a" o 0 10, .store "b" o 0 10, .lookup "a" 0]
    (lastTouches (historyOf 2 us)).find? (afterUses 2 us).contains = some "b"
      ∧ (afterUses 2 us).Displaces (.store "c" o 0 10) "b" := by
  intro o us
  have hoff : (lastTouches (historyOf 2 us)).find? (afterUses 2 us).contains = some "b" := by
    decide +kernel
  have hnew : ((afterUses 2 us).answered (.store "c" o 0 10)).Stores "c" ⟨o, 0, 10⟩ :=
    ⟨.displacing "b", rfl, rfl⟩
  exact ⟨hoff, ((recency_exact 2 us).2.1 (.store "c" o 0 10) "b").mpr
    ⟨⟨"c", _, hnew, by decide +kernel⟩, by decide +kernel, hoff⟩⟩

end Memo

end TokenGate
