import TokenGate.Key
import TokenGate.Proofs.Text.Cuts

/-!
# Layouts of a body of text

* `Spaced part line`      a line is a stretch of text with blanks put in anywhere;
* `Laid body lines`       lines that hold the stretches of a body, with armour anywhere;
* `Layout body text`      a text made of such lines;
* `layout_bareText`       every text is a layout of its bare text;
* `bareText_eq_iff`       and of nothing else, if the body has neither blanks nor dashes.
-/

namespace TokenGate.Key

open Text

variable {body part line text : List Char} {lines : List (List Char)}

/-! ## lines -/

inductive Spaced : List Char → List Char → Prop
  | nil : Spaced [] []
  | blank {part line : List Char} {c : Char} : isBlank c = true → Spaced part line →
      Spaced part (c :: line)
  | char {part line : List Char} (c : Char) : Spaced part line → Spaced (c :: part) (c :: line)

theorem spaced_solid (line : List Char) : Spaced (line.filter fun c => !isBlank c) line := by
  induction line with
  | nil => exact .nil
  | cons c line ih =>
    by_cases hc : isBlank c = true
    · rw [List.filter_cons_of_neg (by simp [hc])]
      exact .blank hc ih
    · rw [List.filter_cons_of_pos (by simp [hc])]
      exact .char c ih

theorem Spaced.solid_eq (h : Spaced part line) (hpart : ∀ c ∈ part, isBlank c = false) :
    (line.filter fun c => !isBlank c) = part := by
  induction h with
  | nil => rfl
  | blank hc _ ih => rw [List.filter_cons_of_neg (by simp [hc]), ih hpart]
  | char c _ ih =>
    have hc : isBlank c = false := hpart c (List.mem_cons_self ..)
    rw [List.filter_cons_of_pos (by simp [hc]), ih fun d hd => hpart d (List.mem_cons_of_mem _ hd)]

/-! ## armour -/

def dashes : List Char := ['-', '-', '-', '-', '-']

theorem isArmour_iff : isArmour line = true ↔ ∃ label, line = dashes ++ label := by
  rw [isArmour, beq_iff_eq]
  constructor
  · intro h
    have hline := List.take_append_drop 5 line
    rw [h] at hline
    exact ⟨line.drop 5, hline.symm⟩
  · rintro ⟨label, rfl⟩
    rfl

theorem Spaced.not_isArmour (h : Spaced part line) (hpart : '-' ∉ part) :
    isArmour line = false := by
  rw [Bool.eq_false_iff, ne_eq, isArmour_iff]
  rintro ⟨label, rfl⟩
  cases h with
  | blank hc _ => exact absurd hc (by decide)
  | char c _ => exact hpart (List.mem_cons_self ..)

/-! ## whole texts -/

/-- the lines other than armour hold the body, one stretch after the other -/
inductive Laid : List Char → List (List Char) → Prop
  | nil : Laid [] []
  | armour {body : List Char} {lines : List (List Char)} (label : List Char) : Laid body lines →
      Laid body ((dashes ++ label) :: lines)
  | stretch {part line body : List Char} {lines : List (List Char)} : Spaced part line →
      Laid body lines → Laid (part ++ body) (line :: lines)

def Layout (body text : List Char) : Prop :=
  ∃ lines, lines ≠ [] ∧ text = ['\n'].intercalate lines ∧ (∀ line ∈ lines, '\n' ∉ line)
    ∧ Laid body lines

/-- what is left of lines without armour and blanks -/
def bareLines (lines : List (List Char)) : List Char :=
  (lines.filter fun l => !isArmour l).flatMap fun l => l.filter fun c => !isBlank c

theorem laid_bareLines (lines : List (List Char)) : Laid (bareLines lines) lines := by
  unfold bareLines
  induction lines with
  | nil => exact .nil
  | cons line lines ih =>
    by_cases hline : isArmour line = true
    · rw [List.filter_cons_of_neg (by simp [hline])]
      obtain ⟨label, rfl⟩ := isArmour_iff.mp hline
      exact .armour label ih
    · rw [List.filter_cons_of_pos (by simp [hline]), List.flatMap_cons]
      exact .stretch (spaced_solid line) ih

theorem Laid.bareLines_eq (h : Laid body lines)
    (hbody : ∀ c ∈ body, c ≠ '-' ∧ isBlank c = false) : bareLines lines = body := by
  unfold bareLines
  induction h with
  | nil => rfl
  | armour label _ ih =>
    have harmour : isArmour (dashes ++ label) = true := isArmour_iff.mpr ⟨label, rfl⟩
    rw [List.filter_cons_of_neg (by simp [harmour]), ih hbody]
  | @stretch part line body lines hspaced _ ih =>
    have hpart : ∀ c ∈ part, c ≠ '-' ∧ isBlank c = false := fun c hc =>
      hbody c (List.mem_append_left _ hc)
    have hline := hspaced.not_isArmour fun hc => (hpart _ hc).1 rfl
    have hrest := ih fun c hc => hbody c (List.mem_append_right _ hc)
    rw [List.filter_cons_of_pos (by simp [hline]), List.flatMap_cons,
      hspaced.solid_eq fun c hc => (hpart c hc).2, hrest]

theorem spaced_self (line : List Char) : Spaced line line := by
  induction line with
  | nil => exact .nil
  | cons c line ih => exact .char c ih

theorem layout_self (h : '\n' ∉ body) : Layout body body := by
  have hlaid : Laid (body ++ []) [body] := .stretch (spaced_self body) .nil
  rw [List.append_nil] at hlaid
  exact ⟨[body], by simp, by simp, by simpa using h, hlaid⟩

theorem layout_bareText (text : List Char) : Layout (bareText text) text :=
  ⟨pieces (· == '\n') text, pieces_ne_nil _ text, (intercalate_pieces '\n' text).symm,
    fun _ => not_mem_of_mem_pieces, laid_bareLines _⟩

theorem Layout.bareText_eq (h : Layout body text)
    (hbody : ∀ c ∈ body, c ≠ '-' ∧ isBlank c = false) : bareText text = body := by
  obtain ⟨lines, hne, rfl, hlines, hlaid⟩ := h
  show bareLines (pieces (· == '\n') _) = _
  rw [pieces_intercalate hne hlines, hlaid.bareLines_eq hbody]

theorem bareText_eq_iff (hbody : ∀ c ∈ body, c ≠ '-' ∧ isBlank c = false) :
    bareText text = body ↔ Layout body text := by
  constructor
  · rintro rfl
    exact layout_bareText text
  · exact fun h => h.bareText_eq hbody

end TokenGate.Key
