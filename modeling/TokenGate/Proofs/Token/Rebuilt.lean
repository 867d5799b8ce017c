import TokenGate.Proofs.Text.Canonical
import TokenGate.Proofs.Token.Structure

/-!
# A token is what its parts are written as

* `Token.covered raw`       the text before the last dot;
* `Token.segment? raw i`    one of the segments, counted from zero;
* `toList_of_unbase64`      a segment is the base64 of its bytes, and no other text is;
* `Parts.Of.rebuilt`        a token is the text that its signature covers, a dot, and the base64 of
                            the signature;
* `Parts.Of.same_parts`     tokens that cover the same text have the same header and payload;
* `Parts.Of.same_token`     and with the same signature they are the same text.
-/

namespace TokenGate

open Text

theorem bytes_inj {s t : String} (h : bytes s = bytes t) : s = t := by
  have hs : some s = some t := by rw [← ofBytes?_bytes s, h, ofBytes?_bytes]
  exact Option.some.inj hs

namespace Token

def covered (raw : String) : String := String.ofList (beforeLast '.' raw.toList)

theorem covered_append {last : String} (h : '.' ∉ last.toList) (input : String) :
    covered (input ++ ("." ++ last)) = input := by
  rw [covered, String.toList_append, String.toList_append]
  show String.ofList (beforeLast '.' (input.toList ++ '.' :: last.toList)) = input
  rw [beforeLast_append h, String.ofList_toList]

def segment? (raw : String) (i : Nat) : Option (List Char) := (pieces (· == '.') raw.toList)[i]?

theorem toList_of_unbase64 {segment : List Char} {bs : List UInt8}
    (h : unbase64 segment = .ok bs) :
    segment = (Base64.encodeText Base64.urlSafe bs).toList := by
  have hbytes := Base64.encode_of_decode h
  rw [← Base64.bytes_encodeText Base64.lawful_urlSafe] at hbytes
  rw [bytes_inj hbytes, String.toList_ofList]

namespace Parts

variable {t u : Parts} {raw raw' : String}

theorem Of.covered_eq (h : t.Of raw) : covered raw = t.signingInput := h.beforeLast_eq

theorem Of.segment?_two (h : t.Of raw) : segment? raw 2 = some t.third := by
  unfold segment?
  rw [h.pieces_eq]
  rfl

theorem Of.third_eq (h : t.Of raw) :
    t.third = (Base64.encodeText Base64.urlSafe t.signature).toList :=
  toList_of_unbase64 h.signature

theorem Of.rebuilt (h : t.Of raw) :
    raw = t.signingInput ++ "." ++ Base64.encodeText Base64.urlSafe t.signature := by
  rw [← String.toList_inj, h.text]
  simp [segments, signingInput, h.third_eq, List.intercalate_cons_cons]

theorem Of.pieces_signingInput (h : t.Of raw) :
    pieces (· == '.') t.signingInput.toList = [t.first, t.second] := by
  refine pieces_eq_iff.mpr ⟨by simp, ?_, fun w hw => h.noDot w ?_⟩
  · simp [signingInput, List.intercalate_cons_cons]
  · simp only [segments, List.mem_cons, List.not_mem_nil, or_false] at hw ⊢
    rcases hw with rfl | rfl <;> simp

theorem Of.same_parts (ht : t.Of raw) (hu : u.Of raw')
    (h : t.signingInput = u.signingInput) : t.head = u.head ∧ t.payload = u.payload := by
  have hpieces : [t.first, t.second] = [u.first, u.second] := by
    rw [← ht.pieces_signingInput, h, hu.pieces_signingInput]
  obtain ⟨hfirst, hsecond⟩ : t.first = u.first ∧ t.second = u.second := by
    simpa using hpieces
  constructor
  · exact Except.ok.inj (by rw [← ht.head, hfirst, hu.head])
  · exact Except.ok.inj (by rw [← ht.payload, hsecond, hu.payload])

theorem Of.same_token (ht : t.Of raw) (hu : u.Of raw') (h : t.signingInput = u.signingInput)
    (hs : t.signature = u.signature) : raw = raw' := by
  rw [ht.rebuilt, hu.rebuilt, h, hs]

end Parts

end Token

end TokenGate
