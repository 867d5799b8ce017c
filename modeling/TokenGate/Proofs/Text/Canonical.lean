import TokenGate.Proofs.Text.Base64

/-!
# Base64 has one text for each byte string

* `symbol_of_value`     a symbol that has a value is the one that is written for it;
* `lastValues_eq_ok`    the last group is its symbols and its fillers, in this order;
* `encode_lastBytes`    the bytes of a last group are written with the values they were read from;
* `encode_of_groups`    what was read is written as it was;
* `decode_eq_ok_iff`    a text is read as a byte string exactly if it is what is written for it.

Nothing is asked of the alphabet for this direction: it is the bits left over that have to be zero,
the fillers that have to be complete, and nothing else may stand in the text.
-/

namespace TokenGate.Text.Base64

open Checks (bind_eq_ok_iff)

variable {a : Alphabet} {start : Nat} {text bs : List UInt8}

/-! ## symbols -/

theorem symbol_of_value {b : UInt8} {v : Nat} (h : a.value? b = some v) :
    v < 64 ∧ a.symbol v = b := by
  have hsame : ∀ n, n = b.toNat → UInt8.ofNat n = b := fun n hn => ofNat_eq hn
  unfold Alphabet.value? at h
  by_cases hupper : 65 ≤ b.toNat ∧ b.toNat ≤ 90
  · rw [if_pos hupper] at h
    obtain rfl := Option.some.inj h
    refine ⟨by omega, ?_⟩
    rw [Alphabet.symbol, if_pos (by omega)]
    exact hsame _ (by omega)
  rw [if_neg hupper] at h
  by_cases hlower : 97 ≤ b.toNat ∧ b.toNat ≤ 122
  · rw [if_pos hlower] at h
    obtain rfl := Option.some.inj h
    refine ⟨by omega, ?_⟩
    rw [Alphabet.symbol, if_neg (by omega), if_pos (by omega)]
    exact hsame _ (by omega)
  rw [if_neg hlower] at h
  by_cases hdigit : 48 ≤ b.toNat ∧ b.toNat ≤ 57
  · rw [if_pos hdigit] at h
    obtain rfl := Option.some.inj h
    refine ⟨by omega, ?_⟩
    rw [Alphabet.symbol, if_neg (by omega), if_neg (by omega), if_pos (by omega)]
    exact hsame _ (by omega)
  rw [if_neg hdigit] at h
  by_cases h62 : b = a.symbol62
  · rw [if_pos h62] at h
    obtain rfl := Option.some.inj h
    exact ⟨by omega, h62.symm⟩
  rw [if_neg h62] at h
  by_cases h63 : b = a.symbol63
  · rw [if_pos h63] at h
    obtain rfl := Option.some.inj h
    exact ⟨by omega, h63.symm⟩
  · rw [if_neg h63] at h
    cases h

theorem symbol_of_read {offset v : Nat} {b : UInt8} (h : a.read offset b = .ok v) :
    v < 64 ∧ a.symbol v = b := by
  unfold Alphabet.read at h
  split at h
  · next w hw =>
    obtain rfl := Except.ok.inj h
    exact symbol_of_value hw
  · cases h

/-! ## the last group -/

theorem lastValues_eq_ok {i : Nat} {filler : Option Nat} {vs : List Nat} {k : Nat}
    (h : lastValues a start i filler text = .ok (vs, k)) :
    text = vs.map a.symbol ++ List.replicate k pad ∧ (∀ v ∈ vs, v < 64)
      ∧ (filler.isSome = true → vs = []) := by
  induction text generalizing i filler vs k with
  | nil =>
    obtain ⟨rfl, rfl⟩ := Prod.mk.inj (Except.ok.inj h)
    exact ⟨rfl, fun v hv => absurd hv List.not_mem_nil, fun _ => rfl⟩
  | cons b text ih =>
    rw [lastValues.eq_def] at h
    by_cases hb : b = pad
    · simp only [if_pos hb] at h
      by_cases hi : i < 2
      · rw [if_pos hi] at h
        cases h
      · rw [if_neg hi, bind_eq_ok_iff] at h
        obtain ⟨⟨ws, n⟩, hw, hr⟩ := h
        obtain ⟨rfl, rfl⟩ := Prod.mk.inj (Except.ok.inj hr)
        obtain ⟨htext, _, hws⟩ := ih hw
        -- only fillers follow a filler
        have hnil : ws = [] := hws (by cases filler <;> rfl)
        subst hnil
        refine ⟨?_, fun v hv => absurd hv List.not_mem_nil, fun _ => rfl⟩
        rw [htext, hb]
        rfl
    · simp only [if_neg hb] at h
      cases filler with
      | some offset => cases h
      | none =>
        simp only [bind_eq_ok_iff] at h
        obtain ⟨v, hv, ⟨ws, n⟩, hw, hr⟩ := h
        obtain ⟨rfl, rfl⟩ := Prod.mk.inj (Except.ok.inj hr)
        obtain ⟨htext, hlt, _⟩ := ih hw
        obtain ⟨hv64, hsymbol⟩ := symbol_of_read hv
        refine ⟨?_, fun w hw => ?_, fun hs => by cases hs⟩
        · rw [htext, ← hsymbol]
          rfl
        · rcases List.mem_cons.mp hw with rfl | hw
          · exact hv64
          · exact hlt w hw

theorem toNat_ofNat_of_lt {n : Nat} (h : n < 256) : (UInt8.ofNat n).toNat = n := by
  rw [UInt8.toNat_ofNat']
  exact Nat.mod_eq_of_lt h

theorem encode_threeBytes {v₀ v₁ v₂ v₃ : Nat} (h₀ : v₀ < 64) (h₁ : v₁ < 64) (h₂ : v₂ < 64)
    (h₃ : v₃ < 64) (rest : List UInt8) :
    encode a (threeBytes v₀ v₁ v₂ v₃ ++ rest)
      = a.symbol v₀ :: a.symbol v₁ :: a.symbol v₂ :: a.symbol v₃ :: encode a rest := by
  have hx := toNat_ofNat_of_lt (n := v₀ * 4 + v₁ / 16) (by omega)
  have hy := toNat_ofNat_of_lt (n := v₁ % 16 * 16 + v₂ / 4) (by omega)
  have hz := toNat_ofNat_of_lt (n := v₂ % 4 * 64 + v₃) (by omega)
  have e₀ : (v₀ * 4 + v₁ / 16) / 4 = v₀ := by omega
  have e₁ : (v₀ * 4 + v₁ / 16) % 4 * 16 + (v₁ % 16 * 16 + v₂ / 4) / 16 = v₁ := by omega
  have e₂ : (v₁ % 16 * 16 + v₂ / 4) % 16 * 4 + (v₂ % 4 * 64 + v₃) / 64 = v₂ := by omega
  have e₃ : (v₂ % 4 * 64 + v₃) % 64 = v₃ := by omega
  show encode a (_ :: _ :: _ :: rest) = _
  rw [encode_group, hx, hy, hz, e₀, e₁, e₂, e₃]

theorem encode_lastBytes {vs : List Nat} (hvs : ∀ v ∈ vs, v < 64)
    (h : lastBytes a start vs = .ok bs) :
    encode a bs = vs.map a.symbol ++ a.filler (4 - vs.length) ∧ vs.length ≤ 4 := by
  match vs with
  | [] => cases h
  | [_] => cases h
  | [v₀, v₁] =>
    have h₀ : v₀ < 64 := hvs v₀ (by simp)
    have h₁ : v₁ < 64 := hvs v₁ (by simp)
    rw [lastBytes] at h
    by_cases hz : v₁ % 16 = 0
    · rw [if_pos hz] at h
      obtain rfl := Except.ok.inj h
      have hx := toNat_ofNat_of_lt (n := v₀ * 4 + v₁ / 16) (by omega)
      have e₀ : (v₀ * 4 + v₁ / 16) / 4 = v₀ := by omega
      have e₁ : (v₀ * 4 + v₁ / 16) % 4 * 16 = v₁ := by omega
      refine ⟨?_, by simp⟩
      rw [encode, hx, e₀, e₁]
      rfl
    · rw [if_neg hz] at h
      cases h
  | [v₀, v₁, v₂] =>
    have h₀ : v₀ < 64 := hvs v₀ (by simp)
    have h₁ : v₁ < 64 := hvs v₁ (by simp)
    have h₂ : v₂ < 64 := hvs v₂ (by simp)
    rw [lastBytes] at h
    by_cases hz : v₂ % 4 = 0
    · rw [if_pos hz] at h
      obtain rfl := Except.ok.inj h
      have hx := toNat_ofNat_of_lt (n := v₀ * 4 + v₁ / 16) (by omega)
      have hy := toNat_ofNat_of_lt (n := v₁ % 16 * 16 + v₂ / 4) (by omega)
      have e₀ : (v₀ * 4 + v₁ / 16) / 4 = v₀ := by omega
      have e₁ : (v₀ * 4 + v₁ / 16) % 4 * 16 + (v₁ % 16 * 16 + v₂ / 4) / 16 = v₁ := by omega
      have e₂ : (v₁ % 16 * 16 + v₂ / 4) % 16 * 4 = v₂ := by omega
      refine ⟨?_, by simp⟩
      rw [encode, hx, hy, e₀, e₁, e₂]
      rfl
    · rw [if_neg hz] at h
      cases h
  | [v₀, v₁, v₂, v₃] =>
    obtain rfl := Except.ok.inj h
    refine ⟨?_, by simp⟩
    have hg := encode_threeBytes (a := a) (hvs v₀ (by simp)) (hvs v₁ (by simp))
      (hvs v₂ (by simp)) (hvs v₃ (by simp)) []
    rw [List.append_nil, encode_nil] at hg
    rw [hg, filler_eq]
    simp
  | _ :: _ :: _ :: _ :: _ :: _ => cases h

theorem encode_of_lastGroup (h : lastGroup a start text = .ok bs) (hlen : text.length ≤ 4) :
    encode a bs = text := by
  rw [lastGroup, bind_eq_ok_iff] at h
  obtain ⟨⟨vs, k⟩, hv, h⟩ := h
  obtain ⟨htext, hlt, _⟩ := lastValues_eq_ok hv
  by_cases hfew : vs.length < 2
  · simp only [if_pos hfew] at h
    cases h
  simp only [if_neg hfew] at h
  by_cases hfills : ¬ a.fills vs.length k = true
  · rw [if_neg hfills] at h
    cases h
  rw [Classical.not_not] at hfills
  rw [if_pos hfills] at h
  obtain ⟨hencode, hfour⟩ := encode_lastBytes hlt h
  have hk : k = if a.padded then 4 - vs.length else 0 := by
    have hboth : vs.length + k ≤ 4 := by simpa [htext] using hlen
    unfold Alphabet.fills at hfills
    by_cases hp : a.padded = true
    · simp only [hp, ↓reduceIte, beq_iff_eq] at hfills ⊢
      omega
    · simpa [hp] using hfills
  rw [hencode, htext, filler_eq, hk]

/-! ## whole texts -/

theorem encode_of_groups (h : groups a start text = .ok bs) : encode a bs = text := by
  induction start, text using groups.induct generalizing bs with
  | case1 start =>
    rw [groups] at h
    obtain rfl := Except.ok.inj h
    exact encode_nil a
  | case2 start b₀ b₁ b₂ b₃ b₄ rest ih =>
    simp only [groups, bind_eq_ok_iff] at h
    obtain ⟨v₀, h₀, v₁, h₁, v₂, h₂, v₃, h₃, tail, ht, hr⟩ := h
    obtain rfl := Except.ok.inj hr
    obtain ⟨l₀, rfl⟩ := symbol_of_read h₀
    obtain ⟨l₁, rfl⟩ := symbol_of_read h₁
    obtain ⟨l₂, rfl⟩ := symbol_of_read h₂
    obtain ⟨l₃, rfl⟩ := symbol_of_read h₃
    rw [encode_threeBytes l₀ l₁ l₂ l₃, ih ht]
  | case3 start text hnil hlong =>
    -- up to four bytes are a last group
    rcases text with _ | ⟨b₀, _ | ⟨b₁, _ | ⟨b₂, _ | ⟨b₃, _ | ⟨b₄, rest⟩⟩⟩⟩⟩
    · exact absurd rfl hnil
    · exact encode_of_lastGroup (by simpa only [groups] using h) (by simp)
    · exact encode_of_lastGroup (by simpa only [groups] using h) (by simp)
    · exact encode_of_lastGroup (by simpa only [groups] using h) (by simp)
    · exact encode_of_lastGroup (by simpa only [groups] using h) (by simp)
    · exact absurd rfl (hlong b₀ b₁ b₂ b₃ b₄ rest)

theorem encode_of_decode (h : decode a text = .ok bs) : encode a bs = text := by
  unfold decode at h
  split at h
  · cases h
  · exact encode_of_groups h

theorem decode_eq_ok_iff (ha : a.Lawful) : decode a text = .ok bs ↔ text = encode a bs := by
  constructor
  · exact fun h => (encode_of_decode h).symm
  · rintro rfl
    exact decode_encode ha bs

end TokenGate.Text.Base64
