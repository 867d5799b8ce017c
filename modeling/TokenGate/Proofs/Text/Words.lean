import TokenGate.Proofs.Text.Cuts

/-!
# The words of a text

* `IsWord p w`      `w` is not empty and holds no separator, that is no character with `p`;
* `Stretch p w cs`  `w` is one of the longest words in the text `cs`;
* `words p cs`      the pieces of a text that are not empty;
* `Joined p ws cs`  `cs` is put together from the words `ws`, with separators before, between and
                    after them;
* `words_eq_iff`    the words of a text are those that it is put together from;
* `mem_words_iff`   and they are its longest words.
-/

namespace TokenGate.Text

variable {p : Char → Bool} {s : Char} {v w gap rest cs : List Char} {ws : List (List Char)}

/-! ## words -/

structure IsWord (p : Char → Bool) (w : List Char) : Prop where
  ne_nil : w ≠ []
  inner : ∀ c ∈ w, p c = false

def words (p : Char → Bool) (cs : List Char) : List (List Char) :=
  (pieces p cs).filter fun w => !w.isEmpty

/-- what follows a word, if anything does, is a separator -/
def Parted (p : Char → Bool) (rest : List Char) : Prop := ∀ c ∈ rest.head?, p c = true

theorem Parted.cons (hs : p s = true) (rest : List Char) : Parted p (s :: rest) := by
  intro c hc
  cases hc
  exact hs

theorem words_cons_sep (hs : p s = true) (cs : List Char) : words p (s :: cs) = words p cs := by
  unfold words
  rw [pieces_cons_sep hs]
  rfl

theorem words_gap (hgap : ∀ c ∈ gap, p c = true) (cs : List Char) :
    words p (gap ++ cs) = words p cs := by
  induction gap with
  | nil => rfl
  | cons c gap ih =>
    rw [List.cons_append, words_cons_sep (hgap c (List.mem_cons_self ..)),
      ih fun d hd => hgap d (List.mem_cons_of_mem _ hd)]

theorem words_append (hw : IsWord p w) (hrest : Parted p rest) :
    words p (w ++ rest) = w :: words p rest := by
  have hkept : ∀ us : List (List Char),
      (w :: us).filter (fun v => !v.isEmpty) = w :: us.filter fun v => !v.isEmpty :=
    fun us => List.filter_cons_of_pos (by simpa using hw.ne_nil)
  cases rest with
  | nil =>
    unfold words
    rw [List.append_nil, pieces_inner hw.inner, hkept]
    rfl
  | cons s rest =>
    have hs : p s = true := hrest s rfl
    rw [words_cons_sep hs]
    unfold words
    rw [pieces_append_sep hw.inner hs, hkept]

/-! ## texts that are put together from words -/

inductive Joined (p : Char → Bool) : List (List Char) → List Char → Prop where
  | gap {gap : List Char} (hgap : ∀ c ∈ gap, p c = true) : Joined p [] gap
  | word {gap w rest : List Char} {ws : List (List Char)} (hgap : ∀ c ∈ gap, p c = true)
      (hw : IsWord p w) (hrest : Parted p rest) (h : Joined p ws rest) :
      Joined p (w :: ws) (gap ++ w ++ rest)

theorem Joined.sep (hs : p s = true) (h : Joined p ws cs) : Joined p ws (s :: cs) := by
  have hcons : ∀ gap : List Char, (∀ c ∈ gap, p c = true) → ∀ c ∈ s :: gap, p c = true :=
    fun gap hgap => List.forall_mem_cons.mpr ⟨hs, hgap⟩
  cases h with
  | gap hgap => exact .gap (hcons _ hgap)
  | word hgap hw hrest h => exact .word (hcons _ hgap) hw hrest h

/-- one more character either starts a word of its own or makes the first word longer -/
theorem Joined.inner {c : Char} (hc : p c = false) (h : Joined p ws cs) :
    ∃ us, Joined p us (c :: cs) := by
  have hone : IsWord p [c] := ⟨by simp, by simpa using hc⟩
  cases h with
  | gap hgap =>
    refine ⟨[[c]], .word (List.forall_mem_nil _) hone (fun d hd => ?_) (.gap hgap)⟩
    exact hgap d (List.mem_of_mem_head? hd)
  | @word gap w rest vs hgap hw hrest h =>
    cases gap with
    | nil =>
      have hlong : IsWord p (c :: w) := ⟨by simp, List.forall_mem_cons.mpr ⟨hc, hw.inner⟩⟩
      exact ⟨(c :: w) :: vs, .word (List.forall_mem_nil _) hlong hrest h⟩
    | cons s gap =>
      have hs : p s = true := hgap s (List.mem_cons_self ..)
      exact ⟨[c] :: w :: vs,
        .word (List.forall_mem_nil _) hone (.cons hs _) (.word hgap hw hrest h)⟩

theorem exists_joined (p : Char → Bool) (cs : List Char) : ∃ ws, Joined p ws cs := by
  induction cs with
  | nil => exact ⟨[], .gap (by simp)⟩
  | cons c cs ih =>
    obtain ⟨ws, h⟩ := ih
    by_cases hc : p c = true
    · exact ⟨ws, h.sep hc⟩
    · exact h.inner (by simpa using hc)

theorem Joined.words_eq (h : Joined p ws cs) : words p cs = ws := by
  induction h with
  | @gap gap hgap =>
    have hw := words_gap hgap []
    rwa [List.append_nil] at hw
  | word hgap hw hrest _ ih => rw [List.append_assoc, words_gap hgap, words_append hw hrest, ih]

theorem words_eq_iff : words p cs = ws ↔ Joined p ws cs := by
  constructor
  · rintro rfl
    obtain ⟨us, h⟩ := exists_joined p cs
    rwa [h.words_eq]
  · exact Joined.words_eq

/-! ## the longest words -/

structure Stretch (p : Char → Bool) (w cs : List Char) : Prop where
  word : IsWord p w
  longest : ∃ front back, cs = front ++ w ++ back
    ∧ (∀ c ∈ front.getLast?, p c = true) ∧ Parted p back

theorem not_stretch_gap (hgap : ∀ c ∈ gap, p c = true) : ¬ Stretch p w gap := by
  rintro ⟨hw, front, back, rfl, -⟩
  obtain ⟨c, w, rfl⟩ := List.exists_cons_of_ne_nil hw.ne_nil
  have hsep : p c = true := hgap c (by simp)
  rw [hw.inner c (List.mem_cons_self ..)] at hsep
  cases hsep

theorem stretch_cons_sep (hs : p s = true) : Stretch p w (s :: cs) ↔ Stretch p w cs := by
  constructor
  · rintro ⟨hw, front, back, heq, hfront, hback⟩
    cases front with
    | nil =>
      -- the word would start with the separator
      obtain ⟨c, w, rfl⟩ := List.exists_cons_of_ne_nil hw.ne_nil
      obtain ⟨rfl, _⟩ := List.cons.inj heq
      rw [hw.inner s (List.mem_cons_self ..)] at hs
      cases hs
    | cons f front =>
      obtain ⟨rfl, rfl⟩ := List.cons.inj heq
      refine ⟨hw, front, back, rfl, fun c hc => hfront c ?_, hback⟩
      rw [List.getLast?_cons, Option.mem_def.mp hc]
      rfl
  · rintro ⟨hw, front, back, rfl, hfront, hback⟩
    refine ⟨hw, s :: front, back, rfl, fun c hc => ?_, hback⟩
    rw [List.getLast?_cons] at hc
    cases hl : front.getLast? with
    | none =>
      rw [hl] at hc
      cases hc
      exact hs
    | some d =>
      rw [hl] at hc
      cases hc
      exact hfront d hl

theorem stretch_gap_append (hgap : ∀ c ∈ gap, p c = true) :
    Stretch p w (gap ++ cs) ↔ Stretch p w cs := by
  induction gap with
  | nil => rfl
  | cons c gap ih =>
    rw [List.cons_append, stretch_cons_sep (hgap c (List.mem_cons_self ..)),
      ih fun d hd => hgap d (List.mem_cons_of_mem _ hd)]

/-- two words that start a text and end before separators are the same -/
theorem word_unique {back : List Char} (hv : IsWord p v) (hw : IsWord p w) (hrest : Parted p rest)
    (hback : Parted p back) (h : v ++ rest = w ++ back) : v = w := by
  have hsame : ∀ {u t : List Char}, IsWord p u → Parted p t → (u ++ t).takeWhile (!p ·) = u := by
    intro u t hu ht
    rw [List.takeWhile_append_of_pos fun c hc => by rw [hu.inner c hc]; rfl]
    cases t with
    | nil => simp
    | cons c t =>
      have hc : p c = true := ht c rfl
      simp [hc]
  rw [← hsame hv hrest, h, hsame hw hback]

theorem stretch_word_append (hv : IsWord p v) (hrest : Parted p rest) :
    Stretch p w (v ++ rest) ↔ w = v ∨ Stretch p w rest := by
  constructor
  · rintro ⟨hw, front, back, heq, hfront, hback⟩
    by_cases hnil : front = []
    · subst hnil
      exact .inl (word_unique hv hw hrest hback heq).symm
    rw [List.append_assoc] at heq
    rcases List.append_eq_append_iff.mp heq with ⟨a, rfl, ha⟩ | ⟨a, rfl, ha⟩
    · refine .inr ⟨hw, a, back, ?_, fun c hc => hfront c ?_, hback⟩
      · rw [ha, List.append_assoc]
      · rw [List.getLast?_append, Option.mem_def.mp hc]
        rfl
    · -- the character before the stretch would be one of the word `v`
      have hl : front.getLast? = some (front.getLast hnil) := List.getLast?_eq_getLast_of_ne_nil hnil
      have hsep := hfront _ hl
      rw [hv.inner _ (List.mem_append_left _ (List.getLast_mem hnil))] at hsep
      cases hsep
  · rintro (rfl | ⟨hw, front, back, rfl, hfront, hback⟩)
    · exact ⟨hv, [], rest, rfl, by simp, hrest⟩
    · refine ⟨hw, v ++ front, back, by simp, fun c hc => ?_, hback⟩
      cases hl : front.getLast? with
      | some d =>
        rw [List.getLast?_append, hl] at hc
        cases hc
        exact hfront _ hl
      | none =>
        -- a word follows `v`, which a separator had to end
        rw [List.getLast?_eq_none_iff] at hl
        subst hl
        obtain ⟨d, w, rfl⟩ := List.exists_cons_of_ne_nil hw.ne_nil
        have hsep : p d = true := hrest d rfl
        rw [hw.inner d (List.mem_cons_self ..)] at hsep
        cases hsep

theorem Joined.mem_iff (h : Joined p ws cs) : w ∈ ws ↔ Stretch p w cs := by
  induction h with
  | gap hgap => simpa using not_stretch_gap hgap
  | word hgap hw hrest _ ih =>
    rw [List.append_assoc, stretch_gap_append hgap, stretch_word_append hw hrest, List.mem_cons, ih]

theorem mem_words_iff : w ∈ words p cs ↔ Stretch p w cs := (words_eq_iff.mp rfl).mem_iff

end TokenGate.Text
