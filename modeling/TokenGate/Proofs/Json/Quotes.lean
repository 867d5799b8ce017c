import TokenGate.Json.Reader
import TokenGate.Json.Writer

/-!
# Texts in quotes are read back as they were written

* `piece c`            how the character `c` comes out of its escape: as a UTF-16 unit if it is
                       written by its number, else as itself;
* `scan_escape`        one escape is cut into one piece;
* `scan_escapeAll`     a written text is cut into the pieces of its characters;
* `joinUnits_pieces`   which are put together to the text;
* `quoted?_quote`      a text behind its opening quote.

Only control characters are written by their numbers, so that surrogates play no part.
-/

namespace TokenGate.Json

/-! ## pieces -/

/-- a control character without a short escape -/
def IsNumbered (c : Char) : Prop :=
  c < ' ' ∧ c ≠ '\x08' ∧ c ≠ '\x0c' ∧ c ≠ '\n' ∧ c ≠ '\r' ∧ c ≠ '\t'

instance (c : Char) : Decidable (IsNumbered c) := inferInstanceAs (Decidable (_ ∧ _))

def piece (c : Char) : Piece := if IsNumbered c then .unit c.toNat else .char c

theorem toNat_lt_of_lt {c : Char} (h : c < ' ') : c.toNat < 32 := h

/-- the four digits of a control character spell its number -/
theorem unit?_hexDigits : ∀ n < 32,
    unit? '0' '0' (Text.hexDigit (n / 16)) (Text.hexDigit (n % 16)) = some n := by
  decide

theorem scan_numbered (n : Nat) (hn : n < 32) (cs : List Char) :
    scan ('\\' :: 'u' :: '0' :: '0' :: Text.hexDigit (n / 16) :: Text.hexDigit (n % 16) :: cs)
      = (scan cs).map fun r => (.unit n :: r.1, r.2) := by
  rw [scan, unit?_hexDigits n hn]
  cases scan cs <;> rfl

theorem scan_short {c e : Char} (hu : c ≠ 'u') (he : escaped? c = some e) (cs : List Char) :
    scan ('\\' :: c :: cs) = (scan cs).map fun r => (.char e :: r.1, r.2) := by
  rw [scan, he]
  · cases scan cs <;> rfl
  · intro _ _ _ _ _ h _
    exact hu h

theorem scan_plain {c : Char} (hq : c ≠ '"') (hb : c ≠ '\\') (hc : ¬ c < ' ') (cs : List Char) :
    scan (c :: cs) = (scan cs).map fun r => (.char c :: r.1, r.2) := by
  rw [scan, if_neg (by simp [hc, hb])]
  · cases scan cs <;> rfl
  · exact hq
  · intro _ _ _ _ _ h _
    exact hb h
  · intro _ _ h _
    exact hb h

/-! ## cutting -/

theorem piece_of_not {c : Char} (h : ¬ IsNumbered c) : piece c = .char c := if_neg h

theorem scan_escape (c : Char) (cs : List Char) :
    scan (escape c ++ cs) = (scan cs).map fun r => (piece c :: r.1, r.2) := by
  unfold escape
  by_cases h₁ : c = '"'
  · subst h₁
    exact scan_short (by decide) rfl cs
  by_cases h₂ : c = '\\'
  · subst h₂
    exact scan_short (by decide) rfl cs
  by_cases h₃ : c = '\x08'
  · subst h₃
    exact scan_short (by decide) rfl cs
  by_cases h₄ : c = '\x0c'
  · subst h₄
    exact scan_short (by decide) rfl cs
  by_cases h₅ : c = '\n'
  · subst h₅
    exact scan_short (by decide) rfl cs
  by_cases h₆ : c = '\r'
  · subst h₆
    exact scan_short (by decide) rfl cs
  by_cases h₇ : c = '\t'
  · subst h₇
    exact scan_short (by decide) rfl cs
  rw [if_neg h₁, if_neg h₂, if_neg h₃, if_neg h₄, if_neg h₅, if_neg h₆, if_neg h₇]
  by_cases h : c < ' '
  · rw [if_pos h, piece, if_pos ⟨h, h₃, h₄, h₅, h₆, h₇⟩]
    exact scan_numbered c.toNat (toNat_lt_of_lt h) cs
  · rw [if_neg h, piece_of_not fun hn => h hn.1]
    exact scan_plain h₁ h₂ h cs

theorem scan_escapeAll (cs rest : List Char) :
    scan (escapeAll cs ++ '"' :: rest) = some (cs.map piece, rest) := by
  induction cs with
  | nil => rw [escapeAll_nil, List.nil_append, scan, List.map_nil]
  | cons c cs ih =>
    rw [escapeAll_cons, List.append_assoc, scan_escape, ih]
    rfl

/-! ## putting together -/

theorem joinUnits_unit {n : Nat} (hn : n < 32) (ps : List Piece) :
    joinUnits (.unit n :: ps) = (joinUnits ps).map (Char.ofNat n :: ·) := by
  have hh : isHigh n = false := by
    unfold isHigh
    simp
    omega
  have hl : isLow n = false := by
    unfold isLow
    simp
    omega
  cases ps with
  | nil => simp [joinUnits, hh, hl]
  | cons p ps => cases p <;> simp [joinUnits, hh, hl]

theorem joinUnits_piece (c : Char) (ps : List Piece) :
    joinUnits (piece c :: ps) = (joinUnits ps).map (c :: ·) := by
  by_cases h : IsNumbered c
  · rw [piece, if_pos h, joinUnits_unit (toNat_lt_of_lt h.1), Char.ofNat_toNat]
  · rw [piece_of_not h, joinUnits]

theorem joinUnits_pieces (cs : List Char) : joinUnits (cs.map piece) = some cs := by
  induction cs with
  | nil => rw [List.map_nil, joinUnits]
  | cons c cs ih =>
    rw [List.map_cons, joinUnits_piece, ih]
    rfl

/-- the opening quote of a written text is read before -/
theorem quoted?_quote (s : String) (rest : List Char) :
    ∃ cs, quote s ++ rest = '"' :: cs ∧ quoted? cs = some (s, rest) := by
  refine ⟨escapeAll s.toList ++ '"' :: rest, by simp [quote], ?_⟩
  unfold quoted?
  rw [scan_escapeAll]
  show ((joinUnits (s.toList.map piece)).bind fun cs => some (String.ofList cs, rest)) = _
  rw [joinUnits_pieces]
  show some (String.ofList s.toList, rest) = _
  rw [String.ofList_toList]

end TokenGate.Json
