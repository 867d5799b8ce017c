import TokenGate.Proofs.Checks
import TokenGate.Proofs.Text.Cuts
import TokenGate.Token.Compact

/-!
# The structure of a token

* `Token.Parts`           the three segments of a token and what they hold;
* `Token.Parts.Of t raw`  the text `raw` is put together from the parts `t`;
* `Token.Parts.Names t a` the header names the algorithm `a`;
* `Token.Is raw P`        `raw` is a token with the property `P`;
* `decode_eq_ok_iff`      the texts that are decoded, and the token that comes of them;
* `kind_of_decode_error`  a text that has no parts is malformed, and one that has names no
                          algorithm that is supported.

A text has one structure at most (`Parts.Of.unique`).
-/

namespace TokenGate.Token

open Text
open Checks (bind_eq_ok_iff)

/-! ## parts -/

structure Parts where
  first : List Char
  second : List Char
  third : List Char
  head : Members
  payload : Members
  signature : List UInt8

namespace Parts

def segments (t : Parts) : List (List Char) := [t.first, t.second, t.third]

/-- the text that the signature covers -/
def signingInput (t : Parts) : String := String.ofList (t.first ++ '.' :: t.second)

def Names (t : Parts) (a : Algorithm) : Prop := Members.get? t.head "alg" = some (.str a.name)

theorem Names.unique {t : Parts} {a b : Algorithm} (ha : t.Names a) (hb : t.Names b) : a = b := by
  have h : some (Json.str a.name) = some (.str b.name) := ha.symm.trans hb
  have hn : a.name = b.name := by simpa using h
  have ho : some a = some b := by rw [← Algorithm.ofName?_name a, hn, Algorithm.ofName?_name]
  exact Option.some.inj ho

structure Of (t : Parts) (raw : String) : Prop where
  size : raw.utf8ByteSize ≤ maxSize
  text : raw.toList = ['.'].intercalate t.segments
  noDot : ∀ w ∈ t.segments, '.' ∉ w
  nonempty : ∀ w ∈ t.segments, w ≠ []
  head : object .header t.first = .ok t.head
  payload : object .payload t.second = .ok t.payload
  signature : unbase64 t.third = .ok t.signature

theorem Of.pieces_eq {t : Parts} {raw : String} (h : t.Of raw) :
    pieces (· == '.') raw.toList = t.segments :=
  pieces_eq_iff.mpr ⟨by simp [segments], h.text, h.noDot⟩

theorem Of.unique {t u : Parts} {raw : String} (ht : t.Of raw) (hu : u.Of raw) : t = u := by
  have hs : t.segments = u.segments := ht.pieces_eq.symm.trans hu.pieces_eq
  obtain ⟨t₁, t₂, t₃, th, tp, ts⟩ := t
  obtain ⟨u₁, u₂, u₃, uh, up, us⟩ := u
  simp only [segments, List.cons.injEq, and_true] at hs
  obtain ⟨rfl, rfl, rfl⟩ := hs
  have hh : th = uh := Except.ok.inj (ht.head.symm.trans hu.head)
  have hp : tp = up := Except.ok.inj (ht.payload.symm.trans hu.payload)
  have hsig : ts = us := Except.ok.inj (ht.signature.symm.trans hu.signature)
  rw [hh, hp, hsig]

/-- dots separate the segments, so that the last dot stands before the signature -/
theorem Of.beforeLast_eq {t : Parts} {raw : String} (h : t.Of raw) :
    String.ofList (beforeLast '.' raw.toList) = t.signingInput := by
  have h₃ : '.' ∉ t.third := h.noDot _ (by simp [segments])
  have ht : raw.toList = (t.first ++ '.' :: t.second) ++ '.' :: t.third := by
    rw [h.text]
    simp [segments, List.intercalate_cons_cons]
  rw [ht, beforeLast_append h₃]
  rfl

theorem names_iff {t : Parts} {a : Algorithm} : algorithm? t.head = some a ↔ t.Names a := by
  unfold algorithm? Names
  simp only [Option.bind_eq_some_iff, Algorithm.ofName?_eq_some_iff]
  constructor
  · intro hx
    obtain ⟨n, ⟨v, hv, hs⟩, rfl⟩ := hx
    cases v with
    | str s => cases hs; exact hv
    | _ => cases hs
  · intro h
    exact ⟨a.name, ⟨_, h, rfl⟩, rfl⟩

/-- the token with these parts -/
def token (t : Parts) (raw : String) (a : Algorithm) : Token where
  raw := raw
  signingInput := t.signingInput
  algorithm := a
  type? := (Members.get? t.head "typ").bind Json.str?
  payload := t.payload
  signature := t.signature

end Parts

/-! ## texts with a structure -/

def Is (raw : String) (P : Parts → Prop) : Prop := ∃ t : Parts, t.Of raw ∧ P t

theorem is_iff {t : Parts} {raw : String} (h : t.Of raw) {P : Parts → Prop} : Is raw P ↔ P t := by
  constructor
  · intro hx
    obtain ⟨u, hu, hp⟩ := hx
    exact h.unique hu ▸ hp
  · exact fun hp => ⟨t, h, hp⟩

/-! ## decoding -/

/-- the segments of a text that is not too long, none of them empty -/
theorem decode_of_segments {raw : String} {first second third : List Char}
    (hsize : raw.utf8ByteSize ≤ maxSize)
    (hp : pieces (· == '.') raw.toList = [first, second, third])
    (hne : ∀ w ∈ [first, second, third], w ≠ []) :
    decode raw = ofSegments raw first second third := by
  have h₁ : first ≠ [] := hne _ (by simp)
  have h₂ : second ≠ [] := hne _ (by simp)
  have h₃ : third ≠ [] := hne _ (by simp)
  simp [decode, Nat.not_lt.mpr hsize, hp, h₁, h₂, h₃]

theorem decode_of_parts {t : Parts} {raw : String} (h : t.Of raw) :
    decode raw = match algorithm? t.head with
      | some a => .ok (t.token raw a)
      | none => .error (.algorithm (Members.get? t.head "alg")) := by
  rw [decode_of_segments h.size h.pieces_eq h.nonempty, ofSegments, h.head, h.payload,
    Checks.ok_bind, Checks.ok_bind, h.signature, h.beforeLast_eq]
  cases algorithm? t.head <;> rfl

theorem kind_of_object_error {which : Segment} {segment : List Char} {f : Fault}
    (h : object which segment = .error f) : f.kind = .malformedToken := by
  unfold object at h
  split at h
  · cases h; rfl
  · split at h
    · cases h; rfl
    · cases h
    · cases h; rfl

/-- what a text without parts comes to -/
theorem parts_or_malformed (raw : String) :
    (∃ t : Parts, t.Of raw) ∨ ∃ f, decode raw = .error f ∧ f.kind = .malformedToken := by
  by_cases hsize : raw.utf8ByteSize ≤ maxSize
  swap
  · exact .inr ⟨.tooLong raw.utf8ByteSize, by simp [decode, Nat.not_le.mp hsize], rfl⟩
  match hp : pieces (· == '.') raw.toList with
  | [first, second, third] =>
    by_cases hne : ∀ w ∈ [first, second, third], w ≠ []
    swap
    · have he : first.isEmpty || second.isEmpty || third.isEmpty := by
        simp only [List.mem_cons, List.not_mem_nil, or_false, forall_eq_or_imp, forall_eq] at hne
        simp only [Bool.or_eq_true, List.isEmpty_iff]
        by_cases h₁ : first = []
        · exact .inl (.inl h₁)
        · by_cases h₂ : second = []
          · exact .inl (.inr h₂)
          · exact .inr (Classical.not_not.mp fun h₃ => hne ⟨h₁, h₂, h₃⟩)
      exact .inr ⟨.emptySegment, by simp only [decode, Nat.not_lt.mpr hsize, hp, he]; rfl, rfl⟩
    rw [decode_of_segments hsize hp hne, ofSegments]
    cases hh : object .header first with
    | error f => exact .inr ⟨f, rfl, kind_of_object_error hh⟩
    | ok head =>
      cases hpl : object .payload second with
      | error f => exact .inr ⟨f, rfl, kind_of_object_error hpl⟩
      | ok payload =>
        cases hs : unbase64 third with
        | error cause => exact .inr ⟨.signatureNotBase64 cause, by simp [Checks.ok_bind], rfl⟩
        | ok signature =>
          obtain ⟨_, htext, hdot⟩ := pieces_eq_iff.mp hp
          exact .inl ⟨⟨first, second, third, head, payload, signature⟩,
            hsize, htext, hdot, hne, hh, hpl, hs⟩
  | [] => exact .inr ⟨.segmentCount, by simp [decode, Nat.not_lt.mpr hsize, hp], rfl⟩
  | [_] => exact .inr ⟨.segmentCount, by simp [decode, Nat.not_lt.mpr hsize, hp], rfl⟩
  | [_, _] => exact .inr ⟨.segmentCount, by simp [decode, Nat.not_lt.mpr hsize, hp], rfl⟩
  | _ :: _ :: _ :: _ :: _ =>
    exact .inr ⟨.segmentCount, by simp [decode, Nat.not_lt.mpr hsize, hp], rfl⟩

theorem decode_eq_ok_iff {raw : String} {token : Token} :
    decode raw = .ok token ↔ ∃ t a, Parts.Of t raw ∧ t.Names a ∧ token = t.token raw a := by
  constructor
  · intro h
    rcases parts_or_malformed raw with ⟨t, ht⟩ | ⟨f, hf, _⟩
    · rw [decode_of_parts ht] at h
      cases ha : algorithm? t.head with
      | none => rw [ha] at h; cases h
      | some a =>
        rw [ha] at h
        cases h
        exact ⟨t, a, ht, Parts.names_iff.mp ha, rfl⟩
    · rw [hf] at h
      cases h
  · intro hx
    obtain ⟨t, a, ht, ha, rfl⟩ := hx
    rw [decode_of_parts ht, Parts.names_iff.mpr ha]

/-- a text with a structure fails for its algorithm only, one without is malformed -/
theorem kind_of_decode_error {raw : String} {f : Fault} (h : decode raw = .error f) :
    ((∀ t : Parts, ¬ t.Of raw) ∧ f.kind = .malformedToken)
      ∨ ∃ t : Parts, t.Of raw ∧ (∀ a, ¬ t.Names a) ∧ f.kind = .unsupportedAlgorithm := by
  by_cases hp : ∃ t : Parts, t.Of raw
  · obtain ⟨t, ht⟩ := hp
    rw [decode_of_parts ht] at h
    cases ha : algorithm? t.head with
    | some a => rw [ha] at h; cases h
    | none =>
      rw [ha] at h
      cases h
      refine .inr ⟨t, ht, fun a hn => ?_, rfl⟩
      rw [Parts.names_iff.mpr hn] at ha
      cases ha
  · rcases parts_or_malformed raw with hp' | ⟨f', hf', hk⟩
    · exact absurd hp' hp
    · rw [hf'] at h
      cases h
      exact .inl ⟨fun t ht => hp ⟨t, ht⟩, hk⟩

end TokenGate.Token
