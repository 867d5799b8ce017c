import TokenGate.Proofs.Rsa.Der
import TokenGate.Rsa.Signature

/-!
# Each RSA public key has one byte string in either structure

* `ofPkcs1?_pkcs1`, `eq_of_ofPkcs1?`   the bare structure is read as it was written;
* `ofSpki?_spki`, `eq_of_ofSpki?`      and so is the one around it;
* `ofSpki?_pkcs1`                      the bare structure is never taken for the one around it;
* `Acceptable.short`                   keys that can be configured are short in both;
* `ofDer?_eq_some_iff`                 the byte strings that a key is read from;
* `WrittenAs.unique`                   such a byte string belongs to no other key.
-/

namespace TokenGate.Rsa.PublicKey

open BigEndian Der

variable {k k' : PublicKey} {bs : List UInt8}

/-! ## the bare structure -/

theorem pkcs1_eq (k : PublicKey) :
    k.pkcs1 = element sequenceTag (natural k.modulus ++ natural k.exponent) :=
  sequence_pair ..

theorem short_numbers (h : Short k.pkcs1) : Short (natural k.modulus ++ natural k.exponent) := by
  rw [pkcs1_eq] at h
  exact h.mono (le_length_element ..)

theorem sequence?_pkcs1 (h : Short k.pkcs1) :
    sequence? k.pkcs1 = some (natural k.modulus ++ natural k.exponent) := by
  rw [sequence?, pkcs1_eq]
  exact whole?_element _ (short_numbers h)

theorem ofPkcs1?_pkcs1 (h : Short k.pkcs1) : ofPkcs1? k.pkcs1 = some k := by
  have hnumbers := short_numbers h
  have hn := natural?_append (n := k.modulus) (hnumbers.mono (by simp)) (natural k.exponent)
  have he := natural?_append (n := k.exponent) (hnumbers.mono (by simp)) []
  rw [List.append_nil] at he
  simp [ofPkcs1?, sequence?_pkcs1 h, hn, he]

theorem eq_of_ofPkcs1? (h : ofPkcs1? bs = some k) : bs = k.pkcs1 := by
  simp only [ofPkcs1?, Option.bind_eq_bind, Option.bind_eq_some_iff,
    Option.ite_none_right_eq_some, List.isEmpty_iff, Option.some.injEq] at h
  obtain ⟨content, hcontent, ⟨n, rest⟩, hn, ⟨e, rest'⟩, he, hrest, rfl⟩ := h
  dsimp only at he hrest
  rw [hrest] at he
  rw [eq_of_whole? hcontent, eq_of_natural? hn, eq_of_natural? he, List.append_nil, pkcs1_eq]

/-! ## the structure around it -/

theorem spki_eq (k : PublicKey) :
    k.spki = element sequenceTag (algorithmId ++ bitString k.pkcs1) :=
  sequence_pair ..

theorem short_content (h : Short k.spki) : Short (algorithmId ++ bitString k.pkcs1) := by
  rw [spki_eq] at h
  exact h.mono (le_length_element ..)

theorem short_string (h : Short k.spki) : Short (0 :: k.pkcs1) := by
  have hstring : Short (bitString k.pkcs1) := (short_content h).mono (by simp)
  exact hstring.mono (le_length_element ..)

theorem short_pkcs1 (h : Short k.spki) : Short k.pkcs1 := (short_string h).mono (by simp)

theorem ofSpki?_spki (h : Short k.spki) : ofSpki? k.spki = some k := by
  have houter : sequence? k.spki = some (algorithmId ++ bitString k.pkcs1) := by
    rw [sequence?, spki_eq]
    exact whole?_element _ (short_content h)
  have hstring : whole? bitStringTag (bitString k.pkcs1) = some (0 :: k.pkcs1) :=
    whole?_element _ (short_string h)
  simp [ofSpki?, houter, after?_append, hstring, ofPkcs1?_pkcs1 (short_pkcs1 h)]

theorem eq_of_ofSpki? (h : ofSpki? bs = some k) : bs = k.spki := by
  simp only [ofSpki?, Option.bind_eq_bind, Option.bind_eq_some_iff] at h
  obtain ⟨content, hcontent, rest, hrest, string, hstring, hkey⟩ := h
  split at hkey
  · next inner =>
    rw [eq_of_whole? hcontent, after?_eq_some_iff.mp hrest, eq_of_whole? hstring,
      eq_of_ofPkcs1? hkey, spki_eq]
    rfl
  · cases hkey

/-- a number stands where the algorithm would -/
theorem ofSpki?_pkcs1 (h : Short k.pkcs1) : ofSpki? k.pkcs1 = none := by
  have hafter : after? algorithmId (natural k.modulus ++ natural k.exponent) = none := by
    rw [Option.eq_none_iff_forall_ne_some]
    intro rest hrest
    have htags : some integerTag = some sequenceTag :=
      congrArg List.head? (after?_eq_some_iff.mp hrest)
    exact absurd htags (by decide)
  simp [ofSpki?, sequence?_pkcs1 h, hafter]

/-! ## keys that can be configured -/

theorem shiftLeft_bytes (n : Nat) : 1 <<< (8 * n) = 256 ^ n := by
  rw [Nat.one_shiftLeft, Nat.pow_mul]

theorem Acceptable.modulusSize_le (hk : k.Acceptable) : k.modulusSize ≤ 512 :=
  size_le (Nat.lt_of_lt_of_eq hk.1 (shiftLeft_bytes 512))

theorem Acceptable.length_spki_le (hk : k.Acceptable) : k.spki.length ≤ 560 := by
  have hn := hk.modulusSize_le
  obtain ⟨_, _, _, _, _, he⟩ := hk
  have he : size k.exponent ≤ 5 := size_le (Nat.lt_of_le_of_lt he (by decide))
  unfold modulusSize at hn
  have hmodulus := length_natural_le (k := 2) (n := k.modulus) (by omega)
  have hexponent := length_natural_le (k := 1) (n := k.exponent) (by omega)
  have hnumbers : (natural k.modulus ++ natural k.exponent).length ≤ 526 := by
    rw [List.length_append]
    omega
  have hpkcs1 := length_element_le (k := 2) sequenceTag (Nat.lt_of_le_of_lt hnumbers (by decide))
  rw [← pkcs1_eq] at hpkcs1
  have hinner : (0 :: k.pkcs1).length < 256 ^ 2 := by
    rw [List.length_cons]
    omega
  have hstring := length_element_le bitStringTag hinner
  have hid : algorithmId.length = 15 := by decide
  have hcontent : (algorithmId ++ bitString k.pkcs1).length ≤ 550 := by
    rw [List.length_append, hid, bitString]
    rw [List.length_cons] at hstring
    omega
  have hspki := length_element_le (k := 2) sequenceTag (Nat.lt_of_le_of_lt hcontent (by decide))
  rw [← spki_eq] at hspki
  omega

theorem Acceptable.short (hk : k.Acceptable) : Short k.spki :=
  Nat.lt_of_le_of_lt hk.length_spki_le (by decide)

theorem Acceptable.ofPkcs1?_pkcs1 (hk : k.Acceptable) : ofPkcs1? k.pkcs1 = some k :=
  PublicKey.ofPkcs1?_pkcs1 (short_pkcs1 hk.short)

/-! ## both structures -/

/-- the bytes of the key in one of its two structures -/
def WrittenAs (k : PublicKey) (bs : List UInt8) : Prop := bs = k.pkcs1 ∨ bs = k.spki

theorem WrittenAs.unique (hshort : Short bs) (h : k.WrittenAs bs) (h' : k'.WrittenAs bs) :
    k = k' := by
  obtain rfl | rfl := h
  · have hbare := ofPkcs1?_pkcs1 hshort
    obtain heq | heq := h'
    · rw [heq, ofPkcs1?_pkcs1 (heq ▸ hshort)] at hbare
      exact (Option.some.inj hbare).symm
    · have hnone := ofSpki?_pkcs1 hshort
      rw [heq, ofSpki?_spki (heq ▸ hshort)] at hnone
      cases hnone
  · have haround := ofSpki?_spki hshort
    obtain heq | heq := h'
    · rw [heq, ofSpki?_pkcs1 (heq ▸ hshort)] at haround
      cases haround
    · rw [heq, ofSpki?_spki (heq ▸ hshort)] at haround
      exact (Option.some.inj haround).symm

theorem Acceptable.short_of_writtenAs (hk : k.Acceptable) (h : k.WrittenAs bs) : Short bs := by
  obtain rfl | rfl := h
  · exact short_pkcs1 hk.short
  · exact hk.short

theorem ofDer?_eq_some_iff : ofDer? bs = some k ↔ k.Acceptable ∧ k.WrittenAs bs := by
  simp only [ofDer?, Option.or_eq_some_iff, Option.filter_eq_some_iff, decide_eq_true_eq]
  constructor
  · intro h
    obtain ⟨hread, hk⟩ | ⟨_, hread, hk⟩ := h
    · exact ⟨hk, .inr (eq_of_ofSpki? hread)⟩
    · exact ⟨hk, .inl (eq_of_ofPkcs1? hread)⟩
  · intro h
    obtain ⟨hk, rfl | rfl⟩ := h
    · have hnone := ofSpki?_pkcs1 (short_pkcs1 hk.short)
      exact .inr ⟨by rw [hnone]; rfl, hk.ofPkcs1?_pkcs1, hk⟩
    · exact .inl ⟨ofSpki?_spki hk.short, hk⟩

end TokenGate.Rsa.PublicKey
