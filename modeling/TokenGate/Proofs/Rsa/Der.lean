import TokenGate.Rsa.Der
import TokenGate.Theory.Positional

/-!
# DER is read back as it was written, and nothing else is read

* `Short`                                    a byte string whose length can be written;
* `length?_append`, `eq_of_length?`          the length in front of a content;
* `element?_append`, `eq_of_element?`        an element in front of any bytes;
* `whole?_element`, `eq_of_whole?`           an element that is all there is;
* `naturalContent?_naturalContent`, `eq_of_naturalContent?`   the content of a number;
* `natural?_append`, `eq_of_natural?`        the element of a number;
* `length_element_le`, `length_natural_le`   how long they become.

What is written has to be short. What is read is so, and nothing is asked of it.
-/

namespace TokenGate.Rsa.Der

open BigEndian

variable {tag : UInt8} {n : Nat} {bs cs content rest : List UInt8}

/-! ## lengths -/

/-- the length fits into the 127 bytes that there can be for it -/
def Short (bs : List UInt8) : Prop := bs.length < 256 ^ 127

theorem Short.mono (h : Short bs) (hle : cs.length ≤ bs.length) : Short cs :=
  Nat.lt_of_le_of_lt hle h

theorem Short.size_lt (h : Short bs) : size bs.length < 128 := Nat.lt_succ_of_le (size_le h)

theorem head?_minimal (n : Nat) : (minimal n).head? ≠ some 0 := by
  intro h
  obtain ⟨bs, hbs⟩ := List.head?_eq_some_iff.mp h
  exact minimal_ne_zero_cons n bs hbs

theorem length?_append (hn : size n < 128) (rest : List UInt8) :
    length? (lengthBytes n ++ rest) = some (n, rest) := by
  unfold lengthBytes
  by_cases hshort : n < 128
  · have hb : (UInt8.ofNat n).toNat = n :=
      UInt8.toNat_ofNat_of_lt' (Nat.lt_trans hshort (by decide))
    rw [if_pos hshort, List.singleton_append, length?, hb, if_pos hshort]
  · have hb : (UInt8.ofNat (128 + (minimal n).length)).toNat = 128 + (minimal n).length :=
      UInt8.toNat_ofNat_of_lt' (by rw [length_minimal]; exact Nat.add_lt_add_left hn 128)
    have htake : (minimal n ++ rest).take (minimal n).length = minimal n := by simp
    have hdrop : (minimal n ++ rest).drop (minimal n).length = rest := by simp
    rw [if_neg hshort, List.cons_append, length?, hb, if_neg (by omega), Nat.add_sub_cancel_left,
      htake, hdrop]
    show (if _ then _ else _) = _
    rw [if_pos ⟨rfl, head?_minimal n, by rw [toNat_minimal]; omega⟩, toNat_minimal]

theorem eq_of_length? (h : length? bs = some (n, rest)) : bs = lengthBytes n ++ rest := by
  cases bs with
  | nil => cases h
  | cons b bs =>
    rw [length?] at h
    by_cases hshort : b.toNat < 128
    · rw [if_pos hshort] at h
      obtain ⟨rfl, rfl⟩ := Prod.mk.inj (Option.some.inj h)
      rw [lengthBytes, if_pos hshort, UInt8.ofNat_toNat]
      rfl
    · rw [if_neg hshort] at h
      simp only [Option.ite_none_right_eq_some, Option.some.injEq, Prod.mk.injEq] at h
      obtain ⟨⟨hlen, hhead, hlarge⟩, rfl, rfl⟩ := h
      -- the length bytes are the shortest ones, since no zero stands in front
      have hminimal : minimal (toNat (bs.take (b.toNat - 128))) = bs.take (b.toNat - 128) := by
        cases hds : bs.take (b.toNat - 128) with
        | nil => rw [hds] at hlarge; exact absurd hlarge (by decide)
        | cons d ds => exact minimal_toNat (by rintro rfl; exact hhead (by rw [hds]; rfl)) ds
      have hb : UInt8.ofNat (128 + (b.toNat - 128)) = b := by
        rw [Nat.add_sub_cancel' (Nat.not_lt.mp hshort), UInt8.ofNat_toNat]
      rw [lengthBytes, if_neg (Nat.not_lt.mpr hlarge), hminimal, hlen, hb, List.cons_append,
        List.take_append_drop]

theorem length_lengthBytes_le {k : Nat} (h : n < 256 ^ k) : (lengthBytes n).length ≤ k + 1 := by
  unfold lengthBytes
  split
  · exact Nat.le_add_left ..
  · rw [List.length_cons, length_minimal]
    exact Nat.succ_le_succ (size_le h)

/-! ## elements -/

theorem element?_append (tag : UInt8) (h : Short content) (rest : List UInt8) :
    element? tag (element tag content ++ rest) = some (content, rest) := by
  have hread := length?_append h.size_lt (content ++ rest)
  rw [element, List.cons_append, List.cons_append, List.append_assoc, element?, if_pos rfl, hread]
  show (if content.length ≤ (content ++ rest).length then _ else _) = _
  rw [if_pos (by simp), List.take_left, List.drop_left]

theorem eq_of_element? (h : element? tag bs = some (content, rest)) :
    bs = element tag content ++ rest := by
  cases bs with
  | nil => cases h
  | cons t bs =>
    simp only [element?, Option.ite_none_right_eq_some, Option.bind_eq_bind,
      Option.bind_eq_some_iff, Option.some.injEq, Prod.mk.injEq] at h
    obtain ⟨rfl, ⟨n, bs'⟩, hread, hle, rfl, rfl⟩ := h
    have hlen : (bs'.take n).length = n := List.length_take_of_le hle
    rw [element, hlen, List.cons_append, List.cons_append, List.append_assoc,
      List.take_append_drop, eq_of_length? hread]

theorem whole?_eq_some_iff :
    whole? tag bs = some content ↔ element? tag bs = some (content, []) := by
  unfold whole?
  split
  · next c heq => simp [heq]
  · next hne =>
    constructor
    · intro h
      cases h
    · intro h
      exact absurd h (hne content)

theorem whole?_element (tag : UInt8) (h : Short content) :
    whole? tag (element tag content) = some content := by
  have hread := element?_append tag h []
  rw [List.append_nil] at hread
  exact whole?_eq_some_iff.mpr hread

theorem eq_of_whole? (h : whole? tag bs = some content) : bs = element tag content := by
  rw [eq_of_element? (whole?_eq_some_iff.mp h), List.append_nil]

theorem le_length_element (tag : UInt8) (content : List UInt8) :
    content.length ≤ (element tag content).length := by
  rw [element, List.length_append]
  exact Nat.le_add_left ..

theorem length_element_le {k : Nat} (tag : UInt8) (h : content.length < 256 ^ k) :
    (element tag content).length ≤ content.length + k + 2 := by
  have hlen := length_lengthBytes_le h
  rw [element, List.length_append, List.length_cons]
  omega

theorem sequence_pair (bs cs : List UInt8) :
    Der.sequence [bs, cs] = element sequenceTag (bs ++ cs) := by
  rw [Der.sequence, List.flatten_cons, List.flatten_singleton]

/-! ## numbers -/

theorem naturalContent?_naturalContent (n : Nat) :
    naturalContent? (naturalContent n) = some n := by
  have hvalue := toNat_minimal n
  unfold naturalContent
  split
  · next heq =>
    rw [heq] at hvalue
    rw [← hvalue]
    rfl
  · next b bs heq =>
    rw [heq] at hvalue
    have hb : b ≠ 0 := by
      rintro rfl
      exact minimal_ne_zero_cons n bs heq
    by_cases hsmall : b.toNat < 128
    · rw [if_pos hsmall]
      cases bs with
      | nil =>
        rw [naturalContent?, if_pos hsmall, ← hvalue, toNat_singleton]
      | cons c bs =>
        rw [naturalContent?, if_neg (by simp [hb, hsmall]), hvalue]
    · rw [if_neg hsmall, naturalContent?, if_neg (by simp [Nat.not_lt.mp hsmall]),
        toNat_zero_cons, hvalue]

theorem eq_of_naturalContent? (h : naturalContent? bs = some n) : bs = naturalContent n := by
  match bs with
  | [] => cases h
  | [b] =>
    simp only [naturalContent?, Option.ite_none_right_eq_some, Option.some.injEq] at h
    obtain ⟨hsmall, rfl⟩ := h
    by_cases hb : b = 0
    · rw [hb]
      rfl
    · rw [naturalContent, ← toNat_singleton, minimal_toNat hb]
      show _ = if b.toNat < 128 then _ else _
      rw [if_pos hsmall]
  | b :: c :: bs =>
    simp only [naturalContent?, Option.ite_none_left_eq_some, not_or, Nat.not_le, not_and,
      Option.some.injEq] at h
    obtain ⟨⟨hsmall, hzero⟩, rfl⟩ := h
    unfold naturalContent
    by_cases hb : b = 0
    · -- the zero in front keeps the sign of a first byte that is large
      have hc := hzero hb
      have hc' : c ≠ 0 := by
        rintro rfl
        exact hc (by decide)
      rw [hb, toNat_zero_cons, minimal_toNat hc']
      show _ = if c.toNat < 128 then _ else _
      rw [if_neg hc]
    · rw [minimal_toNat hb]
      show _ = if b.toNat < 128 then _ else _
      rw [if_pos hsmall]

theorem length_naturalContent_le (n : Nat) : (naturalContent n).length ≤ size n + 1 := by
  have hlen := length_minimal n
  unfold naturalContent
  split
  · exact Nat.le_add_left ..
  · next b bs heq =>
    rw [heq] at hlen
    split <;> simp_all

theorem natural?_append (h : Short (natural n)) (rest : List UInt8) :
    natural? (natural n ++ rest) = some (n, rest) := by
  have hcontent := h.mono (le_length_element integerTag (naturalContent n))
  rw [natural?, natural, element?_append _ hcontent]
  show (naturalContent? _ >>= _) = _
  rw [naturalContent?_naturalContent]
  rfl

theorem eq_of_natural? (h : natural? bs = some (n, rest)) : bs = natural n ++ rest := by
  simp only [natural?, Option.bind_eq_bind, Option.bind_eq_some_iff, Option.pure_def,
    Option.some.injEq, Prod.mk.injEq] at h
  obtain ⟨⟨content, rest'⟩, helement, m, hcontent, rfl, rfl⟩ := h
  rw [eq_of_element? helement, natural, ← eq_of_naturalContent? hcontent]

theorem length_natural_le {k : Nat} (hn : size n + 1 < 256 ^ k) :
    (natural n).length ≤ size n + k + 3 := by
  have hcontent := length_naturalContent_le n
  have hlen := length_element_le integerTag (Nat.lt_of_le_of_lt hcontent hn)
  unfold natural
  omega

end TokenGate.Rsa.Der
