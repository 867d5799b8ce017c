import Mathlib.Data.List.Dedup

/-!
# Theory of lists by last occurrence

`List.dedup` keeps the last occurrence of each element.

* `dedup_concat`          one more element at the end moves to the end;
* `take_filter_of_nodup`  taking an element out and cutting off commute;
* `filter_mem_of_sublist` a part of a list without repetitions is found by membership.
-/

namespace TokenGate.Theory

variable {α : Type} [DecidableEq α]

theorem dedup_concat (l : List α) (a : α) :
    (l ++ [a]).dedup = l.dedup.filter (· != a) ++ [a] := by
  induction l with
  | nil => rfl
  | cons b l ih =>
    by_cases hb : b ∈ l
    · rw [List.cons_append, List.dedup_cons_of_mem (List.mem_append_left _ hb), ih,
        List.dedup_cons_of_mem hb]
    by_cases hba : b = a
    · subst hba
      rw [List.cons_append, List.dedup_cons_of_mem (by simp), ih, List.dedup_cons_of_notMem hb]
      simp
    · have hn : b ∉ l ++ [a] := by simp [hb, hba]
      rw [List.cons_append, List.dedup_cons_of_notMem hn, ih, List.dedup_cons_of_notMem hb]
      simp [hba]

theorem take_filter_of_nodup {l : List α} (hl : l.Nodup) (a : α) (n : Nat) :
    ((l.take (n + 1)).filter (· != a)).take n = (l.filter (· != a)).take n := by
  induction l generalizing n with
  | nil => rfl
  | cons b l ih =>
    obtain ⟨hb, hl⟩ := List.nodup_cons.mp hl
    rw [List.take_succ_cons]
    by_cases hba : b = a
    · subst hba
      have hrest : ∀ k : List α, k ⊆ l → k.filter (· != b) = k := fun k hk =>
        List.filter_eq_self.mpr fun c hc => by
          have hne : c ≠ b := fun e => hb (e ▸ hk hc)
          simpa using hne
      have htake : l.take n ⊆ l := List.take_subset n l
      simp [hrest _ htake, hrest l (List.Subset.refl l), List.take_take]
    · have hpos : ∀ k : List α, (b :: k).filter (· != a) = b :: k.filter (· != a) := fun k =>
        List.filter_cons_of_pos (by simpa using hba)
      rw [hpos, hpos]
      cases n with
      | zero => rfl
      | succ n => rw [List.take_succ_cons, List.take_succ_cons, ih hl]

theorem filter_mem_of_sublist {k l : List α} (h : k.Sublist l) (hl : l.Nodup) :
    l.filter (· ∈ k) = k := by
  induction h with
  | slnil => rfl
  | @cons k l b h ih =>
    obtain ⟨hb, hl⟩ := List.nodup_cons.mp hl
    have hbk : b ∉ k := fun hk => hb (h.subset hk)
    rw [List.filter_cons_of_neg (by simpa using hbk), ih hl]
  | @cons_cons k l b h ih =>
    obtain ⟨hb, hl⟩ := List.nodup_cons.mp hl
    -- below the head, membership is as before
    have hsame : l.filter (· ∈ b :: k) = l.filter (· ∈ k) := by
      refine List.filter_congr fun c hc => ?_
      have hcb : c ≠ b := fun e => hb (e ▸ hc)
      simp [hcb]
    rw [List.filter_cons_of_pos (by simp), hsame, ih hl]

end TokenGate.Theory
