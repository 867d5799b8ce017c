import TokenGate.Proofs.Checks
import TokenGate.Proofs.Text.Integers
import TokenGate.Settings

/-!
# What the values of variables stand for

* `InAnyCase text word`   a word of ASCII letters, each in either case;
* `Switches`, `IsSigned`, `IsUnsigned`   the texts of switches and of integers of 64 bits;
* `Environment.trimmedValue`   the value of a variable without the blanks around it, which is empty
                          where the variable is absent;
* `Settings.Given`        what a variable is given as, and a default where it is not given;
* `reading_eq_ok_iff`, `reading_eq_error_iff`   a variable is read as what it is given as, if it can
                          be read at all.
-/

namespace TokenGate

open Checks (map_eq_ok_iff mapError_eq_ok_iff mapError_eq_error_iff)
open Text

/-! ## words in any case -/

/-- a character, or the ASCII letter that it is the capital of -/
inductive Cased : Char → Char → Prop where
  | same (c : Char) : Cased c c
  | capital {i : Nat} (hi : i < 26) : Cased (Char.ofNat (65 + i)) (Char.ofNat (97 + i))

def InAnyCase (text word : String) : Prop := List.Forall₂ Cased text.toList word.toList

theorem toLower_eq_iff {c d : Char} (hd : d.toLower = d) : c.toLower = d ↔ Cased c d := by
  have hcapital : ∀ i < 26, (Char.ofNat (65 + i)).toLower = Char.ofNat (97 + i) := by decide
  constructor
  · rintro rfl
    by_cases hc : 'A'.val ≤ c.val ∧ c.val ≤ 'Z'.val
    · obtain ⟨hlow, hhigh⟩ := hc
      have hlow : 65 ≤ c.toNat := hlow
      have hhigh : c.toNat ≤ 90 := hhigh
      have hi : c.toNat - 65 < 26 := by omega
      have hcode : c = Char.ofNat (65 + (c.toNat - 65)) := by
        rw [Nat.add_sub_cancel' hlow, Char.ofNat_toNat]
      rw [hcode, hcapital _ hi]
      exact .capital hi
    · have hsame : c.toLower = c := dif_neg hc
      rw [hsame]
      exact .same c
  · intro h
    cases h with
    | same => exact hd
    | capital hi => exact hcapital _ hi

/-- no capitals -/
def IsLower (word : String) : Prop := ∀ c ∈ word.toList, c.toLower = c

theorem lowered_eq_iff {text word : String} (hw : IsLower word) :
    Settings.lowered text = word.toList ↔ InAnyCase text word := by
  unfold Settings.lowered InAnyCase
  unfold IsLower at hw
  generalize text.toList = cs
  generalize word.toList = ds at hw
  induction cs generalizing ds with
  | nil =>
    cases ds with
    | nil => exact iff_of_true rfl .nil
    | cons d ds => exact iff_of_false nofun nofun
  | cons c cs ih =>
    cases ds with
    | nil => exact iff_of_false nofun nofun
    | cons d ds =>
      obtain ⟨hd, hds⟩ := List.forall_mem_cons.mp hw
      rw [List.map_cons, List.cons.injEq, List.forall₂_cons, toLower_eq_iff hd, ih ds hds]

theorem contains_lowered_iff {words : List String} (hw : ∀ w ∈ words, IsLower w) {text : String} :
    (words.map String.toList).contains (Settings.lowered text) = true ↔
      ∃ w ∈ words, InAnyCase text w := by
  rw [List.contains_iff_mem, List.mem_map]
  constructor
  · intro hx
    obtain ⟨w, hm, h⟩ := hx
    exact ⟨w, hm, (lowered_eq_iff (hw w hm)).mp h.symm⟩
  · intro hx
    obtain ⟨w, hm, h⟩ := hx
    exact ⟨w, hm, ((lowered_eq_iff (hw w hm)).mpr h).symm⟩

namespace Settings

theorem isRsa_iff {text : String} : isRsa text = true ↔ InAnyCase text "rsa" := by
  have hlower : IsLower "rsa" := by simp [IsLower]
  unfold isRsa
  rw [beq_iff_eq, ← lowered_eq_iff hlower]
  rfl

/-! ## switches and integers -/

/-- the words of switches that are on, and of those that are off -/
def words : Bool → List String
  | true => ["true", "1", "yes"]
  | false => ["false", "0", "no"]

def Switches (text : String) (b : Bool) : Prop := ∃ w ∈ words b, InAnyCase text w

theorem isLower_words (b : Bool) : ∀ w ∈ words b, IsLower w := by
  cases b <;> simp [words, IsLower]

theorem switches_iff {text : String} {b : Bool} :
    Switches text b ↔ lowered text ∈ (words b).map String.toList := by
  rw [Switches, ← contains_lowered_iff (isLower_words b), List.contains_iff_mem]

theorem Switches.unique {text : String} {b b' : Bool} (h : Switches text b)
    (h' : Switches text b') : b = b' := by
  have hdisjoint : ∀ w ∈ (words true).map String.toList, w ∉ (words false).map String.toList := by
    decide
  rw [switches_iff] at h h'
  cases b <;> cases b'
  · rfl
  · exact absurd h (hdisjoint _ h')
  · exact absurd h' (hdisjoint _ h)
  · rfl

theorem switch?_eq_some_iff {text : String} {b : Bool} :
    switch? text = some b ↔ Switches text b := by
  have hon : _ ↔ Switches text true := contains_lowered_iff (isLower_words true)
  have hoff : _ ↔ Switches text false := contains_lowered_iff (isLower_words false)
  constructor
  · intro h
    unfold switch? at h
    split at h
    · next ht =>
      cases h
      exact hon.mp ht
    · split at h
      · next hf =>
        cases h
        exact hoff.mp hf
      · cases h
  · intro h
    unfold switch?
    cases b with
    | true => exact if_pos (hon.mpr h)
    | false =>
      have hn : ¬ Switches text true := fun ht => absurd (h.unique ht) (by decide)
      exact (if_neg (mt hon.mp hn)).trans (if_pos (hoff.mpr h))

/-- an integer of 64 bits, as it may be written -/
def IsSigned (text : String) (n : Int) : Prop :=
  Integer.SpellsInt text.toList n ∧ -2 ^ 63 ≤ n ∧ n < 2 ^ 63

/-- the same without negative ones -/
def IsUnsigned (text : String) (n : Nat) : Prop :=
  Integer.SpellsNat text.toList n ∧ n < 2 ^ 64

/-- a limit of time, which is no option any more once it is given -/
def IsCap (text : String) (cap : Option Int) : Prop := ∃ n, cap = some n ∧ IsSigned text n

theorem IsSigned.unique {text : String} {m n : Int} (hm : IsSigned text m)
    (hn : IsSigned text n) : m = n := by
  have h := Integer.signed64_eq_ok_iff.mpr hm
  rw [Integer.signed64_eq_ok_iff.mpr hn] at h
  exact (Except.ok.inj h).symm

/-! ## values -/

theorem readSkew_eq_ok_iff {text : String} {n : Int} :
    readSkew text = .ok n ↔ IsSigned text n := by
  rw [readSkew, mapError_eq_ok_iff, Integer.signed64_eq_ok_iff, IsSigned]

theorem readMemoSize_eq_ok_iff {text : String} {n : Nat} :
    readMemoSize text = .ok n ↔ IsUnsigned text n := by
  rw [readMemoSize, mapError_eq_ok_iff, Integer.unsigned64_eq_ok_iff, IsUnsigned]

theorem readTtlCap_eq_ok_iff {text : String} {cap : Option Int} :
    readTtlCap text = .ok cap ↔ IsCap text cap := by
  rw [readTtlCap, map_eq_ok_iff]
  simp only [mapError_eq_ok_iff, Integer.signed64_eq_ok_iff]
  constructor
  · rintro ⟨n, hn, rfl⟩
    exact ⟨n, rfl, hn⟩
  · rintro ⟨n, rfl, hn⟩
    exact ⟨n, hn, rfl⟩

theorem readSwitch_eq_ok_iff {v : Variable} {text : String} {b : Bool} :
    readSwitch v text = .ok b ↔ Switches text b := by
  rw [← switch?_eq_some_iff, readSwitch]
  cases switch? text <;> simp

theorem readSkew_error {text : String} {f : Fault} (h : readSkew text = .error f) :
    ∃ cause, f = .skewUnreadable text cause := by
  obtain ⟨cause, _, rfl⟩ := mapError_eq_error_iff.mp h
  exact ⟨cause, rfl⟩

theorem readMemoSize_error {text : String} {f : Fault} (h : readMemoSize text = .error f) :
    ∃ cause, f = .memoSizeUnreadable text cause := by
  obtain ⟨cause, _, rfl⟩ := mapError_eq_error_iff.mp h
  exact ⟨cause, rfl⟩

theorem readTtlCap_error {text : String} {f : Fault} (h : readTtlCap text = .error f) :
    ∃ cause, f = .ttlCapUnreadable text cause := by
  unfold readTtlCap at h
  cases hn : Integer.signed64 text.toList with
  | ok n =>
    rw [hn] at h
    cases h
  | error cause =>
    rw [hn] at h
    cases h
    exact ⟨cause, rfl⟩

theorem readSwitch_error {v : Variable} {text : String} {f : Fault}
    (h : readSwitch v text = .error f) : f = .switch v text := by
  unfold readSwitch at h
  split at h
  · cases h
  · cases h
    rfl

end Settings

/-! ## variables -/

namespace Environment

variable {env : Environment} {v : Variable} {text : String}

/-- the value of a variable without the blanks around it; empty for a variable that is absent -/
def trimmedValue (env : Environment) (v : Variable) : String := ((env v.name).map trimmed).getD ""

theorem value?_eq (env : Environment) (v : Variable) :
    env.value? v = if env.trimmedValue v = "" then none else some (env.trimmedValue v) := by
  unfold value? trimmedValue
  cases env v.name with
  | none => rfl
  | some raw =>
    rw [Option.map_some, Option.filter_some, Option.getD_some]
    by_cases h : trimmed raw = "" <;> simp [h]

theorem value?_of_trimmed (hraw : env v.name = some text) (ht : trimmed text = text)
    (hne : text ≠ "") : env.value? v = some text := by
  have htrimmed : env.trimmedValue v = text := by
    rw [trimmedValue, hraw]
    exact ht
  rw [value?_eq, htrimmed, if_neg hne]

theorem value?_of_absent (habsent : env v.name = none) : env.value? v = none := by
  unfold value?
  rw [habsent]
  rfl

end Environment

namespace Settings

section Given

variable {α : Type} {env : Environment} {v : Variable} {default a b : α}
  {Reads : String → α → Prop} {read : String → Except Fault α}

/-- what a variable is given as, and a default where it is not given -/
def Given (env : Environment) (v : Variable) (default : α) (Reads : String → α → Prop) (a : α) :
    Prop :=
  (∃ text, env.value? v = some text ∧ Reads text a) ∨ (env.value? v = none ∧ a = default)

/-- where a variable is given, its value stands for something -/
def Readable (env : Environment) (v : Variable) (Reads : String → α → Prop) : Prop :=
  ∀ text, env.value? v = some text → ∃ a, Reads text a

theorem given_eq_iff {default a : String} :
    Given env v default Eq a ↔ a = (env.value? v).getD default := by
  constructor
  · rintro (⟨text, h, rfl⟩ | ⟨h, rfl⟩)
    · rw [h]
      rfl
    · rw [h]
      rfl
  · rintro rfl
    cases h : env.value? v with
    | none => exact .inr ⟨h, rfl⟩
    | some text => exact .inl ⟨text, h, rfl⟩

theorem reading_eq_ok_iff (hread : ∀ text a, read text = .ok a ↔ Reads text a) :
    reading env v default read = .ok a ↔ Given env v default Reads a := by
  unfold reading Given
  cases h : env.value? v with
  | none => simp [eq_comm]
  | some text => simp [hread]

theorem reading_eq_error_iff {f : Fault} :
    reading env v default read = .error f ↔ ∃ text, env.value? v = some text
      ∧ read text = .error f := by
  unfold reading
  cases h : env.value? v with
  | none => simp
  | some text => simp

theorem Given.readable (h : Given env v default Reads a) : Readable env v Reads := by
  intro text ht
  rcases h with ⟨text', ht', hr⟩ | ⟨hnone, _⟩
  · rw [ht', Option.some.injEq] at ht
    exact ⟨a, ht ▸ hr⟩
  · rw [hnone] at ht
    cases ht

theorem not_readable_of_error (hread : ∀ text a, read text = .ok a ↔ Reads text a) {f : Fault}
    (h : reading env v default read = .error f) : ¬ Readable env v Reads := by
  intro hreadable
  obtain ⟨text, ht, hf⟩ := reading_eq_error_iff.mp h
  obtain ⟨a, ha⟩ := hreadable text ht
  rw [(hread text a).mpr ha] at hf
  cases hf

/-- a bound that the default keeps is kept by what is given if it is kept by the value -/
theorem Given.bound_iff (h : Given env v default Reads a)
    (hunique : ∀ text a b, Reads text a → Reads text b → a = b) {P : α → Prop} (hdefault : P default) :
    (∀ text b, env.value? v = some text → Reads text b → P b) ↔ P a := by
  rcases h with ⟨text, ht, hr⟩ | ⟨hnone, rfl⟩
  · constructor
    · intro hall
      exact hall text a ht hr
    · intro ha text' b ht' hb
      rw [ht, Option.some.injEq] at ht'
      subst ht'
      exact hunique text a b hr hb ▸ ha
  · refine iff_of_true (fun text b ht _ => ?_) hdefault
    rw [hnone] at ht
    cases ht

theorem Given.given (h : Given env v default Reads a) (hne : a ≠ default) :
    ∃ text, env.value? v = some text ∧ Reads text a := by
  rcases h with hgiven | ⟨_, rfl⟩
  · exact hgiven
  · exact absurd rfl hne

end Given

end Settings

end TokenGate
