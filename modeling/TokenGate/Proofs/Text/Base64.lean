import TokenGate.Proofs.Checks
import TokenGate.Text.Base64
import TokenGate.Text.Blank
import TokenGate.Text.Bytes

/-!
# Base64 is read back as it was written

* `Alphabet.Lawful`     a symbol has the value it was written for, can be seen, and is no filler;
* `lastValues_symbols`  the values of a last group of symbols and fillers;
* `groups_encode`       the groups of a written text give its bytes;
* `decode_encode`       reading what was written;
* `mem_encode`          nothing but symbols and fillers is written;
* `bytes_encodeText`    a written text in bytes.
-/

namespace TokenGate.Text.Base64

open Checks (ok_bind)

/-! ## symbols -/

/-- ASCII, and neither a dot nor a blank -/
def Visible (b : UInt8) : Prop :=
  b.toNat < 128 ∧ Char.ofNat b.toNat ≠ '.' ∧ isBlank (Char.ofNat b.toNat) = false

instance (b : UInt8) : Decidable (Visible b) := inferInstanceAs (Decidable (_ ∧ _))

theorem visible_pad : Visible pad := by decide

structure Alphabet.Lawful (a : Alphabet) : Prop where
  value_symbol : ∀ v < 64, a.value? (a.symbol v) = some v
  symbol_ne_pad : ∀ v < 64, a.symbol v ≠ pad
  visible : ∀ v < 64, Visible (a.symbol v)

theorem lawful_standard : standard.Lawful := ⟨by decide, by decide, by decide⟩

theorem lawful_urlSafe : urlSafe.Lawful := ⟨by decide, by decide, by decide⟩

variable {a : Alphabet}

theorem read_symbol (ha : a.Lawful) {v : Nat} (hv : v < 64) (offset : Nat) :
    a.read offset (a.symbol v) = .ok v := by
  unfold Alphabet.read
  rw [ha.value_symbol v hv]

/-! ## the last group -/

theorem lastValues_fillers (a : Alphabet) (start : Nat) {i : Nat} (hi : 2 ≤ i)
    (filler : Option Nat) (k : Nat) :
    lastValues a start i filler (List.replicate k pad) = .ok ([], k) := by
  induction k generalizing i filler with
  | zero => rfl
  | succ k ih =>
    rw [List.replicate_succ, lastValues.eq_def]
    show (if pad = pad then _ else _) = _
    rw [if_pos rfl, if_neg (Nat.not_lt.mpr hi), ih (Nat.le_succ_of_le hi)]
    rfl

theorem lastValues_symbols (ha : a.Lawful) (start : Nat) {vs : List Nat} (hvs : ∀ v ∈ vs, v < 64)
    (i k : Nat) (hi : 2 ≤ i + vs.length) :
    lastValues a start i none (vs.map a.symbol ++ List.replicate k pad) = .ok (vs, k) := by
  induction vs generalizing i with
  | nil => exact lastValues_fillers a start hi none k
  | cons v vs ih =>
    have hv : v < 64 := hvs v (List.mem_cons_self ..)
    have hrest := ih (fun w hw => hvs w (List.mem_cons_of_mem _ hw)) (i + 1)
      (by rw [List.length_cons] at hi; omega)
    rw [List.map_cons, List.cons_append, lastValues, if_neg (ha.symbol_ne_pad v hv),
      read_symbol ha hv, ok_bind, hrest]
    rfl

/-- a last group whose fillers are those that its symbols call for -/
theorem lastGroup_symbols (ha : a.Lawful) (start : Nat) {vs : List Nat} (hvs : ∀ v ∈ vs, v < 64)
    (hlen : 2 ≤ vs.length) {k : Nat} (hk : a.fills vs.length k = true) :
    lastGroup a start (vs.map a.symbol ++ List.replicate k pad) = lastBytes a start vs := by
  unfold lastGroup
  rw [lastValues_symbols ha start hvs 0 k (by omega), ok_bind]
  show (if vs.length < 2 then _ else if a.fills vs.length k = true then _ else _) = _
  rw [if_neg (Nat.not_lt.mpr hlen), if_pos hk]

theorem filler_eq (a : Alphabet) (n : Nat) :
    a.filler n = List.replicate (if a.padded then n else 0) pad := by
  unfold Alphabet.filler
  cases a.padded <;> rfl

theorem fills_filler (a : Alphabet) (n k : Nat) (h : (n + k) % 4 = 0) :
    a.fills n (if a.padded then k else 0) = true := by
  unfold Alphabet.fills
  cases a.padded with
  | true => simpa using h
  | false => rfl

theorem ofNat_eq {x : UInt8} {n : Nat} (h : n = x.toNat) : UInt8.ofNat n = x := by
  rw [h, UInt8.ofNat_toNat]

theorem threeBytes_values (x y z : UInt8) :
    threeBytes (x.toNat / 4) (x.toNat % 4 * 16 + y.toNat / 16) (y.toNat % 16 * 4 + z.toNat / 64)
      (z.toNat % 64) = [x, y, z] := by
  have hx := x.toNat_lt
  have hy := y.toNat_lt
  have hz := z.toNat_lt
  unfold threeBytes
  rw [ofNat_eq (x := x) (by omega), ofNat_eq (x := y) (by omega), ofNat_eq (x := z) (by omega)]

/-! ## whole texts -/

theorem encode_ne_nil (a : Alphabet) {bs : List UInt8} (h : bs ≠ []) : encode a bs ≠ [] := by
  match bs with
  | [] => exact absurd rfl h
  | [_] => simp [encode]
  | [_, _] => simp [encode]
  | _ :: _ :: _ :: _ => simp [encode]

theorem groups_one (ha : a.Lawful) (start : Nat) (x : UInt8) :
    groups a start (encode a [x]) = .ok [x] := by
  have hx := x.toNat_lt
  have hvs : ∀ v ∈ [x.toNat / 4, x.toNat % 4 * 16], v < 64 := by
    simp
    omega
  have hl := lastGroup_symbols ha start hvs (by simp) (fills_filler a 2 2 rfl)
  rw [← filler_eq] at hl
  have hg : groups a start (encode a [x]) = lastGroup a start (encode a [x]) := by
    unfold encode
    cases hp : a.padded <;> simp [Alphabet.filler, hp, groups]
  rw [hg]
  show lastGroup a start ([_, _].map a.symbol ++ a.filler 2) = _
  rw [hl, lastBytes, if_pos (by omega), ofNat_eq (x := x) (by omega)]

theorem groups_two (ha : a.Lawful) (start : Nat) (x y : UInt8) :
    groups a start (encode a [x, y]) = .ok [x, y] := by
  have hx := x.toNat_lt
  have hy := y.toNat_lt
  have hvs : ∀ v ∈ [x.toNat / 4, x.toNat % 4 * 16 + y.toNat / 16, y.toNat % 16 * 4], v < 64 := by
    simp
    omega
  have hl := lastGroup_symbols ha start hvs (by simp) (fills_filler a 3 1 rfl)
  rw [← filler_eq] at hl
  have hg : groups a start (encode a [x, y]) = lastGroup a start (encode a [x, y]) := by
    unfold encode
    cases hp : a.padded <;> simp [Alphabet.filler, hp, groups]
  rw [hg]
  show lastGroup a start ([_, _, _].map a.symbol ++ a.filler 1) = _
  rw [hl, lastBytes, if_pos (by omega), ofNat_eq (x := x) (by omega),
    ofNat_eq (x := y) (by omega)]

theorem groups_three (ha : a.Lawful) (start : Nat) (x y z : UInt8) :
    groups a start (encode a [x, y, z]) = .ok [x, y, z] := by
  have hx := x.toNat_lt
  have hy := y.toNat_lt
  have hz := z.toNat_lt
  have hvs : ∀ v ∈ [x.toNat / 4, x.toNat % 4 * 16 + y.toNat / 16,
      y.toNat % 16 * 4 + z.toNat / 64, z.toNat % 64], v < 64 := by
    simp
    omega
  have hl := lastGroup_symbols ha start hvs (by simp) (fills_filler a 4 0 rfl)
  rw [encode_group, encode_nil]
  show lastGroup a start _ = _
  rw [ite_self] at hl
  exact hl.trans (congrArg _ (threeBytes_values x y z))

/-- four symbols with more behind them are a group of their own -/
theorem groups_cons (ha : a.Lawful) (start : Nat) (x y z : UInt8) {rest : List UInt8}
    (hne : rest ≠ []) (h : groups a (start + 4) (encode a rest) = .ok rest) :
    groups a start (encode a (x :: y :: z :: rest)) = .ok (x :: y :: z :: rest) := by
  have hx := x.toNat_lt
  have hy := y.toNat_lt
  have hz := z.toNat_lt
  obtain ⟨b, bs, hb⟩ := List.exists_cons_of_ne_nil (encode_ne_nil a hne)
  rw [encode_group, hb, groups, read_symbol ha (by omega), ok_bind, read_symbol ha (by omega),
    ok_bind, read_symbol ha (by omega), ok_bind, read_symbol ha (by omega), ok_bind, ← hb, h,
    ok_bind, threeBytes_values]
  rfl

theorem groups_encode (ha : a.Lawful) (start : Nat) (bs : List UInt8) :
    groups a start (encode a bs) = .ok bs := by
  induction bs using encode.induct generalizing start with
  | case1 => rw [encode_nil]; rfl
  | case2 x => exact groups_one ha start x
  | case3 x y => exact groups_two ha start x y
  | case4 x y z rest ih =>
    by_cases hne : rest = []
    · rw [hne]
      exact groups_three ha start x y z
    · exact groups_cons ha start x y z hne (ih (start + 4))

/-- no symbol stands alone behind the groups of four -/
theorem length_encode (a : Alphabet) (bs : List UInt8) : (encode a bs).length % 4 ≠ 1 := by
  induction bs using encode.induct with
  | case1 => simp [encode]
  | case2 x => cases hp : a.padded <;> simp [encode, Alphabet.filler, hp]
  | case3 x y => cases hp : a.padded <;> simp [encode, Alphabet.filler, hp]
  | case4 x y z rest ih =>
    rw [encode_group]
    simp only [List.length_cons]
    omega

theorem length_encode_le (a : Alphabet) (bs : List UInt8) :
    (encode a bs).length ≤ 4 * ((bs.length + 2) / 3) := by
  induction bs using encode.induct with
  | case1 => simp [encode]
  | case2 x => cases hp : a.padded <;> simp [encode, Alphabet.filler, hp]
  | case3 x y => cases hp : a.padded <;> simp [encode, Alphabet.filler, hp]
  | case4 x y z rest ih =>
    rw [encode_group]
    simp only [List.length_cons]
    omega

theorem decode_encode (ha : a.Lawful) (bs : List UInt8) : decode a (encode a bs) = .ok bs := by
  have hs : stray? a (encode a bs) = none := if_neg (length_encode a bs)
  unfold decode
  rw [hs]
  exact groups_encode ha 0 bs

/-! ## what is written -/

theorem mem_filler {b : UInt8} {n : Nat} (h : b ∈ a.filler n) : b = pad := by
  rw [filler_eq] at h
  exact List.eq_of_mem_replicate h

theorem mem_encode {b : UInt8} {bs : List UInt8} (h : b ∈ encode a bs) :
    (∃ v < 64, b = a.symbol v) ∨ b = pad := by
  induction bs using encode.induct with
  | case1 => simp [encode] at h
  | case2 x =>
    have hx := x.toNat_lt
    rw [encode] at h
    rcases List.mem_append.mp h with h | h
    · simp only [List.mem_cons, List.not_mem_nil, or_false] at h
      rcases h with rfl | rfl <;> exact .inl ⟨_, by omega, rfl⟩
    · exact .inr (mem_filler h)
  | case3 x y =>
    have hx := x.toNat_lt
    have hy := y.toNat_lt
    rw [encode] at h
    rcases List.mem_append.mp h with h | h
    · simp only [List.mem_cons, List.not_mem_nil, or_false] at h
      rcases h with rfl | rfl | rfl <;> exact .inl ⟨_, by omega, rfl⟩
    · exact .inr (mem_filler h)
  | case4 x y z rest ih =>
    have hx := x.toNat_lt
    have hy := y.toNat_lt
    have hz := z.toNat_lt
    rw [encode_group] at h
    simp only [List.mem_cons] at h
    rcases h with rfl | rfl | rfl | rfl | h
    · exact .inl ⟨_, by omega, rfl⟩
    · exact .inl ⟨_, by omega, rfl⟩
    · exact .inl ⟨_, by omega, rfl⟩
    · exact .inl ⟨_, by omega, rfl⟩
    · exact ih h

theorem visible_of_mem_encode (ha : a.Lawful) {b : UInt8} {bs : List UInt8}
    (h : b ∈ encode a bs) : Visible b := by
  rcases mem_encode h with ⟨v, hv, rfl⟩ | rfl
  · exact ha.visible v hv
  · exact visible_pad

theorem mem_encodeText (ha : a.Lawful) {c : Char} {bs : List UInt8}
    (h : c ∈ (encodeText a bs).toList) : c ≠ '.' ∧ isBlank c = false := by
  rw [encodeText, String.toList_ofList] at h
  obtain ⟨b, hb, rfl⟩ := List.mem_map.mp h
  exact (visible_of_mem_encode ha hb).2

theorem encodeText_ne_nil (a : Alphabet) {bs : List UInt8} (h : bs ≠ []) :
    (encodeText a bs).toList ≠ [] := by
  rw [encodeText, String.toList_ofList]
  simpa using encode_ne_nil a h

/-- in ASCII every character is one byte -/
theorem bytes_ascii {bs : List UInt8} (h : ∀ b ∈ bs, b.toNat < 128) :
    bytes (String.ofList (bs.map fun b => Char.ofNat b.toNat)) = bs := by
  have hone : ∀ n < 128, String.utf8EncodeChar (Char.ofNat n) = [UInt8.ofNat n] := by
    decide +kernel
  unfold bytes
  rw [String.toByteArray_ofList]
  induction bs with
  | nil => rfl
  | cons b bs ih =>
    rw [List.map_cons, List.utf8Encode_cons, List.utf8Encode_singleton,
      hone b.toNat (h b (List.mem_cons_self ..)), UInt8.ofNat_toNat]
    have hrest := ih fun c hc => h c (List.mem_cons_of_mem _ hc)
    simp [hrest]

theorem bytes_encodeText (ha : a.Lawful) (bs : List UInt8) :
    bytes (encodeText a bs) = encode a bs :=
  bytes_ascii fun _ hb => (visible_of_mem_encode ha hb).1

theorem utf8ByteSize_encodeText_le (ha : a.Lawful) (bs : List UInt8) :
    (encodeText a bs).utf8ByteSize ≤ 4 * ((bs.length + 2) / 3) := by
  have hlen := length_encode_le a bs
  rw [← bytes_encodeText ha] at hlen
  exact hlen

end TokenGate.Text.Base64
