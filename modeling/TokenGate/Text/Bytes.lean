/-!
# Texts as bytes

* `bytes s`      the UTF-8 encoding of a text;
* `ofBytes? bs`  the text that a byte string encodes, if it is well-formed UTF-8;
* `hex bs`       two lower-case digits for each byte.

`ofBytes?_eq_some_iff` says that reading and writing of texts are inverse to each other.
-/

namespace TokenGate.Text

/-! ## UTF-8 -/

/-- the UTF-8 encoding -/
def bytes (s : String) : List UInt8 := s.toByteArray.data.toList

/-- the text with this UTF-8 encoding -/
def ofBytes? (bs : List UInt8) : Option String := String.fromUTF8? bs.toByteArray

theorem toByteArray_bytes (s : String) : (bytes s).toByteArray = s.toByteArray := by
  apply ByteArray.ext
  simp [bytes]

theorem ofBytes?_eq_some_iff {bs : List UInt8} {s : String} :
    ofBytes? bs = some s ↔ bs = bytes s := by
  constructor
  · intro h
    simp only [ofBytes?, String.fromUTF8?, Option.dite_none_right_eq_some, Option.some.injEq] at h
    obtain ⟨hv, rfl⟩ := h
    simp [bytes, String.fromUTF8]
  · rintro rfl
    have hv : (bytes s).toByteArray.IsValidUTF8 := by
      rw [toByteArray_bytes]
      exact s.isValidUTF8
    simp only [ofBytes?, String.fromUTF8?, Option.dite_none_right_eq_some, Option.some.injEq]
    refine ⟨hv, ?_⟩
    rw [← String.toByteArray_inj]
    simp [String.fromUTF8, toByteArray_bytes]

theorem ofBytes?_bytes (s : String) : ofBytes? (bytes s) = some s :=
  ofBytes?_eq_some_iff.mpr rfl

/-! ## hexadecimal text -/

/-- a digit below sixteen, in lower case -/
def hexDigit (n : Nat) : Char := Char.ofNat (if n < 10 then 48 + n else 87 + n)

/-- two digits for each byte -/
def hex (bs : List UInt8) : String :=
  String.ofList (bs.flatMap fun b => [hexDigit (b.toNat / 16), hexDigit (b.toNat % 16)])

/-- the value of a hexadecimal digit, in either case -/
def hexValue? (c : Char) : Option Nat :=
  if '0' ≤ c ∧ c ≤ '9' then some (c.toNat - 48)
  else if 'a' ≤ c ∧ c ≤ 'f' then some (c.toNat - 87)
  else if 'A' ≤ c ∧ c ≤ 'F' then some (c.toNat - 55)
  else none

/-- the bytes that pairs of hexadecimal digits spell -/
def ofHex? : List Char → Option (List UInt8)
  | [] => some []
  | [_] => none
  | a :: b :: cs => do
    let x ← hexValue? a
    let y ← hexValue? b
    let rest ← ofHex? cs
    return UInt8.ofNat (16 * x + y) :: rest

end TokenGate.Text
