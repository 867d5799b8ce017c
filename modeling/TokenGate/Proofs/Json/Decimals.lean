import TokenGate.Json.Writer
import TokenGate.Proofs.Json.Integral

/-!
# Integers are read back as they were written

* `Stops tail`           what may follow a value: nothing, a comma, or a closing bracket;
* `digitRun_toDigits`    the digits of a number that is written in decimals;
* `wholeRun?_toDigits`   which start with no zero, unless the number is zero;
* `scan?_decimal`        the literal of a written integer, and its value.
-/

namespace TokenGate.Json

def Stops (tail : List Char) : Prop := ∀ c ∈ tail.head?, c = ',' ∨ c = ']' ∨ c = '}'

theorem stops_nil : Stops [] := by
  intro c hc
  cases hc

variable {tail : List Char}

/-! ## digits -/

theorem isDigit_eq (c : Char) : isDigit c = c.isDigit := rfl

theorem isDigit_of_mem {c : Char} {m : Nat} (h : c ∈ Nat.toDigits 10 m) : isDigit c = true :=
  (isDigit_eq c).trans (Nat.isDigit_of_mem_toDigits (by decide) (by decide) h)

/-- a text that stops starts with no digit -/
theorem dropWhile_stops (h : Stops tail) :
    tail.takeWhile isDigit = [] ∧ tail.dropWhile isDigit = tail := by
  cases tail with
  | nil => exact ⟨rfl, rfl⟩
  | cons c cs =>
    have hc : isDigit c = false := by
      rcases h c rfl with rfl | rfl | rfl <;> decide
    simp [hc]

/-- the digits of a number -/
def digits (m : Nat) : List Nat := (Nat.toDigits 10 m).map fun c => c.toNat - 48

theorem digitRun_toDigits (m : Nat) (h : Stops tail) :
    digitRun (Nat.toDigits 10 m ++ tail) = (digits m, tail) := by
  have hall : ∀ c ∈ Nat.toDigits 10 m, isDigit c = true := fun c hc => isDigit_of_mem hc
  obtain ⟨htake, hdrop⟩ := dropWhile_stops h
  rw [digitRun, List.takeWhile_append_of_pos hall, List.dropWhile_append_of_pos hall, htake,
    hdrop, List.append_nil]
  rfl

theorem ofDigits_digits (m : Nat) : ofDigits (digits m) = m := by
  unfold ofDigits digits
  rw [List.foldl_map]
  exact Nat.ofDigitChars_ten_toDigits

theorem digits_of_lt {m : Nat} (h : m < 10) : digits m = [m] := by
  unfold digits
  rw [Nat.toDigits_of_lt_base h]
  have hd : ∀ n < 10, n.digitChar.toNat - 48 = n := by decide
  simp [hd m h]

theorem digits_of_ge {m : Nat} (h : 10 ≤ m) : digits m = digits (m / 10) ++ [m % 10] := by
  have hd : ∀ n < 10, n.digitChar.toNat - 48 = n := by decide
  unfold digits
  rw [Nat.toDigits_of_base_le (by decide) h, List.map_append]
  simp [hd (m % 10) (Nat.mod_lt m (by decide))]

/-- a number that is not zero has no leading zero -/
theorem digits_head {m : Nat} (hm : m ≠ 0) : ∃ d ds, digits m = d :: ds ∧ d ≠ 0 := by
  induction m using Nat.strongRecOn with
  | ind m ih =>
    by_cases h : m < 10
    · exact ⟨m, [], digits_of_lt h, hm⟩
    · have h10 : 10 ≤ m := Nat.not_lt.mp h
      obtain ⟨d, ds, hds, hd⟩ := ih (m / 10) (by omega) (by omega)
      exact ⟨d, ds ++ [m % 10], by rw [digits_of_ge h10, hds, List.cons_append], hd⟩

theorem wholeRun?_toDigits (m : Nat) (h : Stops tail) :
    wholeRun? (Nat.toDigits 10 m ++ tail) = some (digits m, tail) := by
  unfold wholeRun?
  rw [digitRun_toDigits m h]
  by_cases hm : m = 0
  · subst hm
    rfl
  · obtain ⟨d, ds, hds, hd⟩ := digits_head hm
    rw [hds]
    cases ds <;> simp [hd]

/-! ## literals -/

theorem fractionRun?_stops (h : Stops tail) : fractionRun? tail = some (none, tail) := by
  cases tail with
  | nil => rfl
  | cons c cs => rcases h c rfl with rfl | rfl | rfl <;> rfl

theorem exponentRun?_stops (h : Stops tail) : exponentRun? tail = some (none, tail) := by
  cases tail with
  | nil => rfl
  | cons c cs => rcases h c rfl with rfl | rfl | rfl <;> rfl

theorem scanUnsigned?_toDigits (negative : Bool) (m : Nat) (h : Stops tail) :
    Literal.scanUnsigned? negative (Nat.toDigits 10 m ++ tail) =
      some (⟨negative, digits m, none, none⟩, tail) := by
  unfold Literal.scanUnsigned?
  rw [wholeRun?_toDigits m h]
  show (fractionRun? tail).bind _ = _
  rw [fractionRun?_stops h]
  show (exponentRun? tail).bind _ = _
  rw [exponentRun?_stops h]
  rfl

theorem toDigits_cons (m : Nat) : ∃ c cs, Nat.toDigits 10 m = c :: cs ∧ isDigit c = true := by
  obtain ⟨c, cs, h⟩ := List.exists_cons_of_ne_nil (Nat.toDigits_ne_nil (n := m) (b := 10))
  exact ⟨c, cs, h, isDigit_of_mem (h ▸ List.mem_cons_self ..)⟩

theorem scan?_toDigits (m : Nat) (h : Stops tail) :
    Literal.scan? (Nat.toDigits 10 m ++ tail) = some (⟨false, digits m, none, none⟩, tail) := by
  rw [← scanUnsigned?_toDigits false m h]
  obtain ⟨c, cs, hc, hd⟩ := toDigits_cons m
  rw [hc, List.cons_append, Literal.scan?]
  intro rest e
  rw [(List.cons.inj e).1] at hd
  cases hd

theorem scan?_decimal (n : Int) (hn : Literal.Fits n) (h : Stops tail) :
    ∃ l : Literal, Literal.scan? (decimal n ++ tail) = some (l, tail)
      ∧ l.value? = some (.int n) := by
  unfold decimal
  by_cases hneg : n < 0
  · rw [if_pos hneg]
    refine ⟨_, scanUnsigned?_toDigits true n.natAbs h, ?_⟩
    refine Literal.value?_eq_int_iff.mpr ⟨⟨rfl, rfl, fun _ => ?_⟩, ?_, hn⟩
    · rw [ofDigits_digits]
      omega
    · show n = -Int.ofNat (ofDigits (digits n.natAbs))
      rw [ofDigits_digits]
      show n = -(n.natAbs : Int)
      omega
  · rw [if_neg hneg]
    refine ⟨_, scan?_toDigits n.natAbs h, ?_⟩
    refine Literal.value?_eq_int_iff.mpr ⟨⟨rfl, rfl, nofun⟩, ?_, hn⟩
    show n = Int.ofNat (ofDigits (digits n.natAbs))
    rw [ofDigits_digits]
    show n = (n.natAbs : Int)
    omega

end TokenGate.Json
