import Mathlib
import TokenGate.Proofs.Checks
import TokenGate.Text.Integer
import TokenGate.Text.Shown

/-!
# The integers that texts spell

* `Numeral cs n`          ASCII digits, at least one, that are `n` in decimals;
* `SpellsNat`, `SpellsInt`   a numeral behind a sign, where it has one;
* `natUpTo_eq_ok_iff`     what is read of digits: each makes ten times what stands before it;
* `signed64_eq_ok_iff`, `unsigned64_eq_ok_iff`   the integers within 64 bits are read, whatever zeros
                          they start with;
* `spellsInt_integer`, `spellsNat_integer`   integers are spelled as they are shown.
-/

namespace TokenGate.Text.Integer

open Checks (map_eq_ok_iff)

variable {limit n m : Nat} {beyond : Fault} {cs text : List Char} {ds : List Nat}

/-! ## digits -/

/-- the digits `ds` of decimals behind a number `n` -/
def continued (n : Nat) (ds : List Nat) : Nat := n * 10 ^ ds.length + Nat.ofDigits 10 ds.reverse

theorem continued_cons (n d : Nat) (ds : List Nat) :
    continued n (d :: ds) = continued (10 * n + d) ds := by
  unfold continued
  rw [List.reverse_cons, Nat.ofDigits_append, Nat.ofDigits_singleton, List.length_reverse,
    List.length_cons, Nat.pow_succ]
  ring

theorem le_continued (n : Nat) (ds : List Nat) : n ≤ continued n ds :=
  calc n ≤ n * 10 ^ ds.length := Nat.le_mul_of_pos_right n (Nat.pow_pos (by omega))
    _ ≤ continued n ds := Nat.le_add_right ..

theorem digit?_eq_some_iff {c : Char} {d : Nat} :
    digit? c = some d ↔ d < 10 ∧ c = Nat.digitChar d := by
  constructor
  · intro h
    unfold digit? at h
    split at h
    · next hc =>
      obtain ⟨hlow, hhigh⟩ := hc
      have hlow : 48 ≤ c.toNat := hlow
      have hhigh : c.toNat ≤ 57 := hhigh
      have hd : c.toNat - 48 = d := Option.some.inj h
      have hlt : d < 10 := by omega
      refine ⟨hlt, Char.toNat_inj.mp ?_⟩
      rw [Nat.toNat_digitChar_of_lt_ten hlt]
      omega
    · cases h
  · intro hx
    obtain ⟨hlt, rfl⟩ := hx
    have hall : ∀ d < 10, digit? (Nat.digitChar d) = some d := by decide
    exact hall d hlt

/-- digits in front of which stands one more character -/
theorem digits_of_cons {c : Char} (hlt : ∀ d ∈ ds, d < 10) (hds : c :: cs = ds.map Nat.digitChar) :
    ∃ d rest, ds = d :: rest ∧ digit? c = some d ∧ cs = rest.map Nat.digitChar
      ∧ ∀ d ∈ rest, d < 10 := by
  obtain ⟨d, rest, rfl, rfl, rfl⟩ := List.map_eq_cons_iff.mp hds.symm
  obtain ⟨hd, hrest⟩ := List.forall_mem_cons.mp hlt
  exact ⟨d, rest, rfl, digit?_eq_some_iff.mpr ⟨hd, rfl⟩, rfl, hrest⟩

theorem natUpTo_eq_ok_iff (hn : n ≤ limit) :
    natUpTo limit beyond n cs = .ok m ↔
      ∃ ds, (∀ d ∈ ds, d < 10) ∧ cs = ds.map Nat.digitChar ∧ m = continued n ds ∧ m ≤ limit := by
  induction cs generalizing n with
  | nil =>
    rw [natUpTo_nil, Except.ok.injEq]
    constructor
    · rintro rfl
      exact ⟨[], fun _ hd => absurd hd List.not_mem_nil, rfl, by simp [continued], hn⟩
    · intro hx
      obtain ⟨ds, _, hds, hm, _⟩ := hx
      rw [List.map_eq_nil_iff.mp hds.symm] at hm
      simpa [continued] using hm.symm
  | cons c cs ih =>
    rw [natUpTo]
    cases hc : digit? c with
    | none =>
      refine iff_of_false (by simp) fun hx => ?_
      obtain ⟨ds, hlt, hds, _⟩ := hx
      obtain ⟨d, _, _, hd, _⟩ := digits_of_cons hlt hds
      rw [hc] at hd
      cases hd
    | some d =>
      -- the digits behind `c` go on from `10 * n + d`, which must be within the limit itself
      have hnext : (∃ ds, (∀ d ∈ ds, d < 10) ∧ c :: cs = ds.map Nat.digitChar
            ∧ m = continued n ds ∧ m ≤ limit) ↔
          ∃ ds, (∀ d ∈ ds, d < 10) ∧ cs = ds.map Nat.digitChar
            ∧ m = continued (10 * n + d) ds ∧ m ≤ limit := by
        obtain ⟨hd, rfl⟩ := digit?_eq_some_iff.mp hc
        constructor
        · intro hx
          obtain ⟨ds, hlt, hds, hm, hlimit⟩ := hx
          obtain ⟨d', rest, rfl, hd', hrest, hlt'⟩ := digits_of_cons hlt hds
          rw [hc, Option.some.injEq] at hd'
          subst hd'
          exact ⟨rest, hlt', hrest, hm.trans (continued_cons n d rest), hlimit⟩
        · intro hx
          obtain ⟨ds, hlt, rfl, hm, hlimit⟩ := hx
          exact ⟨d :: ds, List.forall_mem_cons.mpr ⟨hd, hlt⟩, rfl,
            hm.trans (continued_cons n d ds).symm, hlimit⟩
      rw [hnext]
      by_cases hle : 10 * n + d ≤ limit
      · simp only [hle, ↓reduceIte]
        exact ih hle
      · simp only [hle, ↓reduceIte]
        refine iff_of_false (by simp) fun hx => ?_
        obtain ⟨ds, _, _, hm, hlimit⟩ := hx
        have hgrows := le_continued (10 * n + d) ds
        omega

/-! ## numerals -/

/-- ASCII digits, at least one, that are `n` in decimals -/
def Numeral (cs : List Char) (n : Nat) : Prop :=
  ∃ ds, ds ≠ [] ∧ (∀ d ∈ ds, d < 10) ∧ cs = ds.map Nat.digitChar ∧ n = Nat.ofDigits 10 ds.reverse

theorem digits_eq_ok_iff : digits limit beyond cs = .ok n ↔ Numeral cs n ∧ n ≤ limit := by
  cases cs with
  | nil =>
    refine iff_of_false nofun fun hx => ?_
    obtain ⟨⟨ds, hne, _, hds, _⟩, _⟩ := hx
    exact hne (List.map_eq_nil_iff.mp hds.symm)
  | cons c cs =>
    rw [digits, natUpTo_eq_ok_iff (Nat.zero_le limit)]
    · constructor
      · intro hx
        obtain ⟨ds, hlt, hds, hm, hlimit⟩ := hx
        refine ⟨⟨ds, fun hnil => ?_, hlt, hds, by simpa [continued] using hm⟩, hlimit⟩
        rw [hnil] at hds
        cases hds
      · intro hx
        obtain ⟨⟨ds, _, hlt, hds, hm⟩, hlimit⟩ := hx
        exact ⟨ds, hlt, hds, by simpa [continued] using hm, hlimit⟩
    · nofun

/-- the first character of a numeral is no sign -/
theorem Numeral.unsigned {c : Char} (h : Numeral (c :: cs) n) : c ≠ '+' ∧ c ≠ '-' := by
  obtain ⟨ds, _, hlt, hds, _⟩ := h
  obtain ⟨d, rest, rfl, rfl, _⟩ := List.map_eq_cons_iff.mp hds.symm
  have hall : ∀ d < 10, Nat.digitChar d ≠ '+' ∧ Nat.digitChar d ≠ '-' := by decide
  exact hall d (hlt d (List.mem_cons_self ..))

theorem not_numeral_nil : ¬ Numeral [] n := fun ⟨_, hne, _, hds, _⟩ =>
  hne (List.map_eq_nil_iff.mp hds.symm)

/-! ## signs -/

/-- an optional plus sign and a numeral -/
inductive SpellsNat : List Char → Nat → Prop where
  | bare {cs : List Char} {n : Nat} (h : Numeral cs n) : SpellsNat cs n
  | plus {cs : List Char} {n : Nat} (h : Numeral cs n) : SpellsNat ('+' :: cs) n

/-- an optional sign and a numeral -/
inductive SpellsInt : List Char → Int → Prop where
  | bare {cs : List Char} {n : Nat} (h : Numeral cs n) : SpellsInt cs n
  | plus {cs : List Char} {n : Nat} (h : Numeral cs n) : SpellsInt ('+' :: cs) n
  | minus {cs : List Char} {n : Nat} (h : Numeral cs n) : SpellsInt ('-' :: cs) (-n)

theorem unsigned64_eq_ok_iff :
    unsigned64 text = .ok n ↔ SpellsNat text n ∧ n < 2 ^ 64 := by
  have hlimit : maxUnsigned + 1 = 2 ^ 64 := rfl
  constructor
  · intro h
    unfold unsigned64 at h
    split at h
    · cases h
    · obtain ⟨hcs, hle⟩ := digits_eq_ok_iff.mp h
      exact ⟨.plus hcs, by omega⟩
    · obtain ⟨hcs, hle⟩ := digits_eq_ok_iff.mp h
      exact ⟨.bare hcs, by omega⟩
  · intro hx
    obtain ⟨hspells, hlt⟩ := hx
    have hle : n ≤ maxUnsigned := by omega
    cases hspells with
    | plus h => exact digits_eq_ok_iff.mpr ⟨h, hle⟩
    | bare h =>
      cases text with
      | nil => exact absurd h not_numeral_nil
      | cons c cs =>
        rw [unsigned64]
        · exact digits_eq_ok_iff.mpr ⟨h, hle⟩
        · nofun
        · intro _ hc
          exact h.unsigned.1 (List.cons.inj hc).1

/-- without a minus sign -/
theorem map_digits_eq_ok_iff {n : Int} :
    (digits maxSigned .tooLarge cs).map Int.ofNat = .ok n ↔
      ∃ m : Nat, Numeral cs m ∧ n = m ∧ n < 2 ^ 63 := by
  have hlimit : maxSigned + 1 = 2 ^ 63 := rfl
  simp only [map_eq_ok_iff, digits_eq_ok_iff]
  constructor
  · rintro ⟨m, ⟨hm, hle⟩, rfl⟩
    exact ⟨m, hm, rfl, by simp only [Int.ofNat_eq_natCast]; omega⟩
  · rintro ⟨m, hm, rfl, hlt⟩
    exact ⟨m, ⟨hm, by omega⟩, rfl⟩

theorem signed64_eq_ok_iff {n : Int} :
    signed64 text = .ok n ↔ SpellsInt text n ∧ -2 ^ 63 ≤ n ∧ n < 2 ^ 63 := by
  have hlimit : maxSigned + 1 = 2 ^ 63 := rfl
  constructor
  · intro h
    unfold signed64 at h
    split at h
    · cases h
    · obtain ⟨m, hm, rfl, hlt⟩ := map_digits_eq_ok_iff.mp h
      exact ⟨.plus hm, by omega, hlt⟩
    · obtain ⟨m, hdigits, rfl⟩ := map_eq_ok_iff.mp h
      obtain ⟨hm, hle⟩ := digits_eq_ok_iff.mp hdigits
      exact ⟨.minus hm, by simp only [Int.ofNat_eq_natCast]; omega,
        by simp only [Int.ofNat_eq_natCast]; omega⟩
    · obtain ⟨m, hm, rfl, hlt⟩ := map_digits_eq_ok_iff.mp h
      exact ⟨.bare hm, by omega, hlt⟩
  · intro hx
    obtain ⟨hspells, hlow, hhigh⟩ := hx
    cases hspells with
    | plus h => exact map_digits_eq_ok_iff.mpr ⟨_, h, rfl, hhigh⟩
    | @minus cs m h =>
      exact map_eq_ok_iff.mpr ⟨m, digits_eq_ok_iff.mpr ⟨h, by omega⟩, rfl⟩
    | bare h =>
      cases text with
      | nil => exact absurd h not_numeral_nil
      | cons c cs =>
        obtain ⟨hplus, hminus⟩ := h.unsigned
        rw [signed64]
        · exact map_digits_eq_ok_iff.mpr ⟨_, h, rfl, hhigh⟩
        · nofun
        · intro _ hc
          exact hplus (List.cons.inj hc).1
        · intro _ hc
          exact hminus (List.cons.inj hc).1

/-! ## integers as they are shown -/

theorem numeral_toDigits (n : Nat) : Numeral (Nat.toDigits 10 n) n := by
  induction n using Nat.strongRecOn with
  | ind n ih =>
    by_cases h : n < 10
    · exact ⟨[n], by simp, by simpa using h, Nat.toDigits_of_lt_base h, by simp⟩
    · have h10 : 10 ≤ n := Nat.not_lt.mp h
      obtain ⟨ds, _, hlt, hds, hn⟩ := ih (n / 10) (by omega)
      have hlast : n % 10 < 10 := Nat.mod_lt n (by omega)
      refine ⟨ds ++ [n % 10], by simp, ?_, ?_, ?_⟩
      · intro d hd
        rcases List.mem_append.mp hd with hd | hd
        · exact hlt d hd
        · exact List.mem_singleton.mp hd ▸ hlast
      · rw [Nat.toDigits_of_base_le (by omega) h10, hds, List.map_append]
        rfl
      · rw [List.reverse_append, List.reverse_singleton, List.singleton_append, Nat.ofDigits_cons,
          ← hn]
        omega

theorem toList_integer (n : Nat) : (Shown.integer n).toList = Nat.toDigits 10 n := by
  show (Nat.repr n).toList = _
  exact String.toList_ofList

theorem spellsNat_integer (n : Nat) : SpellsNat (Shown.integer n).toList n := by
  rw [toList_integer]
  exact .bare (numeral_toDigits n)

theorem spellsInt_integer (n : Nat) : SpellsInt (Shown.integer n).toList n := by
  rw [toList_integer]
  exact .bare (numeral_toDigits n)

end TokenGate.Text.Integer
