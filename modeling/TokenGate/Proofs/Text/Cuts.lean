import Mathlib
import TokenGate.Text.Blank

/-!
# Cutting texts and putting them together

* `pieces_eq_iff`        the pieces of a text are the parts it is put together from, if none of
                         them holds the separator;
* `beforeLast_append`    the part before the last separator;
* `trim_surrounded`      blanks around a text that neither starts nor ends with one.
-/

namespace TokenGate.Text

/-! ## pieces -/

theorem pieces_inner {p : Char → Bool} {cs : List Char} (h : ∀ c ∈ cs, p c = false) :
    pieces p cs = [cs] := by
  induction cs with
  | nil => rfl
  | cons c cs ih =>
    rw [pieces_cons_inner (h c (List.mem_cons_self ..)),
      ih fun d hd => h d (List.mem_cons_of_mem _ hd)]
    rfl

theorem pieces_append_sep {p : Char → Bool} {w : List Char} (hw : ∀ c ∈ w, p c = false)
    {s : Char} (hs : p s = true) (cs : List Char) :
    pieces p (w ++ s :: cs) = w :: pieces p cs := by
  induction w with
  | nil => exact pieces_cons_sep hs cs
  | cons c w ih =>
    rw [List.cons_append, pieces_cons_inner (hw c (List.mem_cons_self ..)),
      ih fun d hd => hw d (List.mem_cons_of_mem _ hd)]
    rfl

theorem intercalate_pieces (s : Char) (cs : List Char) :
    [s].intercalate (pieces (· == s) cs) = cs := by
  induction cs with
  | nil => exact List.intercalate_singleton
  | cons c cs ih =>
    obtain ⟨w, ws, hw⟩ := List.exists_cons_of_ne_nil (pieces_ne_nil (· == s) cs)
    by_cases h : c = s
    · subst h
      rw [pieces_cons_sep (by simp), hw, List.intercalate_cons_cons, ← hw, ih]
      rfl
    · rw [pieces_cons_inner (by simpa using h), hw]
      rw [hw] at ih
      rw [← ih]
      cases ws with
      | nil => simp [intoFirst]
      | cons v ws => simp [intoFirst, List.intercalate_cons_cons]

theorem not_mem_of_mem_pieces {s : Char} {cs w : List Char} (h : w ∈ pieces (· == s) cs) :
    s ∉ w := by
  induction cs generalizing w with
  | nil =>
    rw [pieces_nil, List.mem_singleton] at h
    simp [h]
  | cons c cs ih =>
    by_cases hc : c = s
    · rw [pieces_cons_sep (by simpa using hc), List.mem_cons] at h
      rcases h with rfl | h
      · exact List.not_mem_nil
      · exact ih h
    · obtain ⟨v, vs, hv⟩ := List.exists_cons_of_ne_nil (pieces_ne_nil (· == s) cs)
      rw [pieces_cons_inner (by simpa using hc), hv, intoFirst, List.mem_cons] at h
      rcases h with rfl | h
      · have hs := ih (w := v) (by rw [hv]; exact List.mem_cons_self ..)
        simp [hs, Ne.symm hc]
      · exact ih (by rw [hv]; exact List.mem_cons_of_mem _ h)

theorem pieces_intercalate {s : Char} {ws : List (List Char)} (hne : ws ≠ [])
    (h : ∀ w ∈ ws, s ∉ w) : pieces (· == s) ([s].intercalate ws) = ws := by
  have inner : ∀ w ∈ ws, ∀ c ∈ w, (c == s) = false := by
    intro w hw c hc
    have hcs : c ≠ s := fun e => h w hw (e ▸ hc)
    simpa using hcs
  induction ws with
  | nil => exact absurd rfl hne
  | cons w ws ih =>
    have hw := inner w (List.mem_cons_self ..)
    cases ws with
    | nil => rw [List.intercalate_singleton, pieces_inner hw]
    | cons v ws =>
      rw [List.intercalate_cons_cons, List.append_assoc, List.singleton_append,
        pieces_append_sep hw (by simp), ih (List.cons_ne_nil v ws)
          (fun x hx => h x (List.mem_cons_of_mem _ hx))
          fun x hx => inner x (List.mem_cons_of_mem _ hx)]

theorem pieces_eq_iff {s : Char} {cs : List Char} {ws : List (List Char)} :
    pieces (· == s) cs = ws ↔ ws ≠ [] ∧ cs = [s].intercalate ws ∧ ∀ w ∈ ws, s ∉ w := by
  constructor
  · rintro rfl
    exact ⟨pieces_ne_nil _ cs, (intercalate_pieces s cs).symm, fun w => not_mem_of_mem_pieces⟩
  · intro hx
    obtain ⟨hne, rfl, h⟩ := hx
    exact pieces_intercalate hne h

theorem mem_intercalate {s c : Char} {ws : List (List Char)} (h : c ∈ [s].intercalate ws) :
    c = s ∨ ∃ w ∈ ws, c ∈ w := by
  induction ws with
  | nil => simp at h
  | cons w ws ih =>
    cases ws with
    | nil =>
      rw [List.intercalate_singleton] at h
      exact .inr ⟨w, List.mem_cons_self .., h⟩
    | cons v ws =>
      rw [List.intercalate_cons_cons, List.append_assoc, List.mem_append] at h
      rcases h with h | h
      · exact .inr ⟨w, List.mem_cons_self .., h⟩
      · rcases List.mem_cons.mp h with rfl | h
        · exact .inl rfl
        · exact (ih h).imp_right fun ⟨x, hx, hc⟩ => ⟨x, List.mem_cons_of_mem _ hx, hc⟩

/-! ## the last separator -/

theorem beforeLast_append {s : Char} {b : List Char} (h : s ∉ b) (a : List Char) :
    beforeLast s (a ++ s :: b) = a := by
  have hb : ∀ d ∈ b.reverse, (d != s) = true := by
    intro d hd
    have hds : d ≠ s := fun e => h (e ▸ List.mem_reverse.mp hd)
    simpa using hds
  have hrev : (a ++ s :: b).reverse = b.reverse ++ s :: a.reverse := by simp
  rw [beforeLast, hrev, List.dropWhile_append_of_pos hb]
  simp

/-! ## blanks around a text -/

theorem trimStart_blanks {lead : List Char} (h : ∀ c ∈ lead, isBlank c = true)
    (cs : List Char) : trimStart (lead ++ cs) = trimStart cs :=
  List.dropWhile_append_of_pos h

theorem trimEnd_blanks {trail : List Char} (h : ∀ c ∈ trail, isBlank c = true)
    (cs : List Char) : trimEnd (cs ++ trail) = trimEnd cs := by
  have hr : ∀ c ∈ trail.reverse, isBlank c = true := fun c hc => h c (List.mem_reverse.mp hc)
  rw [trimEnd, trimEnd, List.reverse_append, List.dropWhile_append_of_pos hr]

/-- no blank at either end -/
def Tight (cs : List Char) : Prop :=
  (∀ c ∈ cs.head?, isBlank c = false) ∧ ∀ c ∈ cs.getLast?, isBlank c = false

theorem tight_of_all {cs : List Char} (h : ∀ c ∈ cs, isBlank c = false) : Tight cs :=
  ⟨fun c hc => h c (List.mem_of_mem_head? hc), fun c hc => h c (List.mem_of_getLast? hc)⟩

theorem trimStart_tight {cs : List Char} (h : Tight cs) : trimStart cs = cs := by
  cases cs with
  | nil => rfl
  | cons c cs => exact trimStart_cons_solid (h.1 c rfl) cs

theorem trimEnd_tight {cs : List Char} (h : Tight cs) : trimEnd cs = cs := by
  have hr : ∀ c ∈ cs.reverse.head?, isBlank c = false := by
    intro c hc
    rw [List.head?_reverse] at hc
    exact h.2 c hc
  have hd : cs.reverse.dropWhile isBlank = cs.reverse := by
    cases hcs : cs.reverse with
    | nil => rfl
    | cons c rest => exact trimStart_cons_solid (hr c (by rw [hcs]; rfl)) rest
  rw [trimEnd, hd, List.reverse_reverse]

theorem trim_tight {cs : List Char} (h : Tight cs) : trim cs = cs := by
  rw [trim, trimStart_tight h, trimEnd_tight h]

theorem trim_surrounded {lead trail cs : List Char} (hl : ∀ c ∈ lead, isBlank c = true)
    (ht : ∀ c ∈ trail, isBlank c = true) (h : Tight cs) (hne : cs ≠ []) :
    trim (lead ++ cs ++ trail) = cs := by
  obtain ⟨c, rest, rfl⟩ := List.exists_cons_of_ne_nil hne
  have hc : isBlank c = false := h.1 c rfl
  rw [trim, List.append_assoc, trimStart_blanks hl, List.cons_append, trimStart_cons_solid hc,
    ← List.cons_append, trimEnd_blanks ht, trimEnd_tight h]

end TokenGate.Text
