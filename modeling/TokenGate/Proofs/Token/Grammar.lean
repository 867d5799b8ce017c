import TokenGate.Proofs.Json.Plain
import TokenGate.Proofs.Token.Rebuilt
import TokenGate.Proofs.Token.Sealed

/-!
# The grammar of tokens

* `Token.Holds read segment v`   a segment is the base64 of bytes that `read` reads as `v`;
* `Token.Spelled read t raw`     `raw` is spelled as the grammar asks, with the parts `t`;
* `Parts.of_iff_spelled`         these are the texts that have a structure;
* `Token.Keeps t a raw token`    a token keeps everything of the text it was decoded from;
* `Token.Decided read raw`       what comes of a text follows from the grammar;
* `decode_decided`               it does, objects being read as documents are, and plainly wherever
                                 no object starts with the name that marks an embedded text.
-/

namespace TokenGate.Token

open Text

/-! ## the grammar -/

/-- canonical base64 without fillers, of bytes that are read as the value `v` -/
def Holds (read : List UInt8 → Option Json) (segment : List Char) (v : Json) : Prop :=
  ∃ bs, segment = (Base64.encodeText Base64.urlSafe bs).toList ∧ read bs = some v

/-- three segments with dots between them, the first two of which hold objects -/
structure Spelled (read : List UInt8 → Option Json) (t : Parts) (raw : String) : Prop where
  size : raw.utf8ByteSize ≤ 8192
  text : raw.toList = t.first ++ '.' :: (t.second ++ '.' :: t.third)
  noDot : '.' ∉ t.first ∧ '.' ∉ t.second ∧ '.' ∉ t.third
  nonempty : t.first ≠ [] ∧ t.second ≠ [] ∧ t.third ≠ []
  head : Holds read t.first (.obj t.head)
  payload : Holds read t.second (.obj t.payload)
  signature : t.third = (Base64.encodeText Base64.urlSafe t.signature).toList

theorem unbase64_eq_ok_iff {segment : List Char} {bs : List UInt8} :
    unbase64 segment = .ok bs ↔ segment = (Base64.encodeText Base64.urlSafe bs).toList := by
  constructor
  · exact toList_of_unbase64
  · rintro rfl
    exact unbase64_encodeText bs

theorem object_eq_ok_iff {which : Segment} {segment : List Char} {m : Members} :
    object which segment = .ok m ↔ Holds Json.ofBytes? segment (.obj m) := by
  unfold object Holds
  simp only [← unbase64_eq_ok_iff]
  cases unbase64 segment with
  | error cause => simp
  | ok bs =>
    simp only [Except.ok.injEq, exists_eq_left']
    cases Json.ofBytes? bs with
    | none => simp
    | some v => cases v <;> simp

theorem forall_segments {t : Parts} {P : List Char → Prop} :
    (∀ w ∈ t.segments, P w) ↔ P t.first ∧ P t.second ∧ P t.third := by
  simp [Parts.segments]

theorem intercalate_segments (t : Parts) :
    ['.'].intercalate t.segments = t.first ++ '.' :: (t.second ++ '.' :: t.third) := by
  simp [Parts.segments, List.intercalate_cons_cons]

theorem Parts.of_iff_spelled {t : Parts} {raw : String} :
    t.Of raw ↔ Spelled Json.ofBytes? t raw := by
  constructor
  · intro h
    exact {
      size := h.size
      text := h.text.trans (intercalate_segments t)
      noDot := forall_segments.mp h.noDot
      nonempty := forall_segments.mp h.nonempty
      head := object_eq_ok_iff.mp h.head
      payload := object_eq_ok_iff.mp h.payload
      signature := h.third_eq }
  · intro h
    exact {
      size := h.size
      text := h.text.trans (intercalate_segments t).symm
      noDot := forall_segments.mpr h.noDot
      nonempty := forall_segments.mpr h.nonempty
      head := object_eq_ok_iff.mpr h.head
      payload := object_eq_ok_iff.mpr h.payload
      signature := unbase64_eq_ok_iff.mpr h.signature }

/-! ## what a token keeps -/

structure Keeps (t : Parts) (a : Algorithm) (raw : String) (token : Token) : Prop where
  text : token.raw = raw
  algorithm : token.algorithm = a
  type : ∀ s, token.type? = some s ↔ Members.get? t.head "typ" = some (.str s)
  payload : token.payload = t.payload
  signature : token.signature = t.signature
  signingInput : token.signingInput = String.ofList (t.first ++ '.' :: t.second)
  /-- the text before the last dot -/
  covered : token.signingInput = covered raw
  rebuilt : raw = token.signingInput ++ "." ++ Base64.encodeText Base64.urlSafe token.signature

theorem keeps_of_parts {t : Parts} {raw : String} (h : t.Of raw) (a : Algorithm) :
    Keeps t a raw (t.token raw a) where
  text := rfl
  algorithm := rfl
  type s := by
    show (Members.get? t.head "typ").bind Json.str? = some s ↔ _
    cases Members.get? t.head "typ" with
    | none => simp
    | some v => cases v <;> simp [Json.str?]
  payload := rfl
  signature := rfl
  signingInput := rfl
  covered := h.covered_eq.symm
  rebuilt := h.rebuilt

/-! ## decisions -/

/-- what comes of a text, said by the grammar -/
structure Decided (read : List UInt8 → Option Json) (raw : String) : Prop where
  accepted : (∃ token, decode raw = .ok token) ↔ ∃ t a, Spelled read t raw ∧ t.Names a
  unsupported : (∃ f, decode raw = .error f ∧ f.kind = .unsupportedAlgorithm) ↔
    ∃ t, Spelled read t raw ∧ ∀ a, ¬ t.Names a
  malformed : (∃ f, decode raw = .error f ∧ f.kind = .malformedToken) ↔
    ∀ t, ¬ Spelled read t raw
  kept : ∀ token, decode raw = .ok token → ∃ t a, Spelled read t raw ∧ t.Names a
    ∧ Keeps t a raw token

theorem exists_ok_iff {raw : String} :
    (∃ token, decode raw = .ok token) ↔ ∃ t a, Parts.Of t raw ∧ t.Names a := by
  constructor
  · rintro ⟨token, h⟩
    obtain ⟨t, a, ht, ha, _⟩ := decode_eq_ok_iff.mp h
    exact ⟨t, a, ht, ha⟩
  · rintro ⟨t, a, ht, ha⟩
    exact ⟨_, decode_eq_ok_iff.mpr ⟨t, a, ht, ha, rfl⟩⟩

theorem exists_unsupported_iff {raw : String} :
    (∃ f, decode raw = .error f ∧ f.kind = .unsupportedAlgorithm) ↔
      ∃ t, Parts.Of t raw ∧ ∀ a, ¬ t.Names a := by
  constructor
  · rintro ⟨f, hf, hk⟩
    rcases kind_of_decode_error hf with ⟨_, hk'⟩ | ⟨t, ht, hn, _⟩
    · rw [hk] at hk'
      cases hk'
    · exact ⟨t, ht, hn⟩
  · rintro ⟨t, ht, hn⟩
    cases hd : decode raw with
    | ok token =>
      obtain ⟨u, a, hu, ha, _⟩ := decode_eq_ok_iff.mp hd
      rw [hu.unique ht] at ha
      exact absurd ha (hn a)
    | error f =>
      refine ⟨f, rfl, ?_⟩
      rcases kind_of_decode_error hd with ⟨hnone, _⟩ | ⟨_, _, _, hk⟩
      · exact absurd ht (hnone t)
      · exact hk

theorem exists_malformed_iff {raw : String} :
    (∃ f, decode raw = .error f ∧ f.kind = .malformedToken) ↔ ∀ t, ¬ Parts.Of t raw := by
  constructor
  · rintro ⟨f, hf, hk⟩
    rcases kind_of_decode_error hf with ⟨hnone, _⟩ | ⟨_, _, _, hk'⟩
    · exact hnone
    · rw [hk] at hk'
      cases hk'
  · intro hnone
    rcases parts_or_malformed raw with ⟨t, ht⟩ | hf
    · exact absurd ht (hnone t)
    · exact hf

theorem decided_ofBytes? (raw : String) : Decided Json.ofBytes? raw where
  accepted := by simp only [exists_ok_iff, Parts.of_iff_spelled]
  unsupported := by simp only [exists_unsupported_iff, Parts.of_iff_spelled]
  malformed := by simp only [exists_malformed_iff, Parts.of_iff_spelled]
  kept token h := by
    obtain ⟨t, a, ht, ha, rfl⟩ := decode_eq_ok_iff.mp h
    exact ⟨t, a, Parts.of_iff_spelled.mp ht, ha, keeps_of_parts ht a⟩

/-! ## plain objects -/

/-- no object in the header or the payload starts with the reserved name -/
def Unreserved (raw : String) : Prop :=
  ∀ w ∈ (pieces (· == '.') raw.toList).take 2, ∀ bs,
    w = (Base64.encodeText Base64.urlSafe bs).toList → Json.Unreserved bs

theorem holds_of_unreserved {segment : List Char} {v : Json}
    (h : ∀ bs, segment = (Base64.encodeText Base64.urlSafe bs).toList → Json.Unreserved bs) :
    Holds Json.ofBytes? segment v ↔ Holds Json.plainBytes? segment v :=
  exists_congr fun bs => and_congr_right fun hbs => by rw [Json.ofBytes?_of_unreserved (h bs hbs)]

theorem Spelled.pieces_eq {read : List UInt8 → Option Json} {t : Parts} {raw : String}
    (h : Spelled read t raw) : pieces (· == '.') raw.toList = t.segments :=
  pieces_eq_iff.mpr ⟨by simp [Parts.segments], h.text.trans (intercalate_segments t).symm,
    forall_segments.mpr h.noDot⟩

theorem spelled_of_unreserved {raw : String} (h : Unreserved raw) (t : Parts) :
    Spelled Json.ofBytes? t raw ↔ Spelled Json.plainBytes? t raw := by
  -- only the segments of the text itself are known to be free of the name
  have hfree (hp : pieces (· == '.') raw.toList = t.segments) :
      (∀ v, Holds Json.ofBytes? t.first v ↔ Holds Json.plainBytes? t.first v)
        ∧ ∀ v, Holds Json.ofBytes? t.second v ↔ Holds Json.plainBytes? t.second v := by
    unfold Unreserved at h
    rw [hp] at h
    exact ⟨fun v => holds_of_unreserved (h t.first (by simp [Parts.segments])),
      fun v => holds_of_unreserved (h t.second (by simp [Parts.segments]))⟩
  constructor
  · intro hs
    obtain ⟨hfirst, hsecond⟩ := hfree hs.pieces_eq
    exact { hs with head := (hfirst _).mp hs.head, payload := (hsecond _).mp hs.payload }
  · intro hs
    obtain ⟨hfirst, hsecond⟩ := hfree hs.pieces_eq
    exact { hs with head := (hfirst _).mpr hs.head, payload := (hsecond _).mpr hs.payload }

theorem decided_plainBytes? {raw : String} (h : Unreserved raw) :
    Decided Json.plainBytes? raw := by
  obtain ⟨ha, hu, hm, hk⟩ := decided_ofBytes? raw
  simp only [spelled_of_unreserved h] at ha hu hm hk
  exact ⟨ha, hu, hm, hk⟩

theorem decode_inj {raw raw' : String} {token token' : Token} (h : decode raw = .ok token)
    (h' : decode raw' = .ok token') (hinput : token.signingInput = token'.signingInput)
    (hsignature : token.signature = token'.signature) : raw = raw' := by
  obtain ⟨_, _, _, _, hk⟩ := (decided_ofBytes? raw).kept token h
  obtain ⟨_, _, _, _, hk'⟩ := (decided_ofBytes? raw').kept token' h'
  rw [hk.rebuilt, hk'.rebuilt, hinput, hsignature]

/-- What comes of a text follows from the grammar of tokens, with objects that are read as
documents are, and plainly unless one of them starts with the reserved name. A token keeps all of
its text, so that no two texts have the same signing input and the same signature. -/
theorem decode_decided (raw : String) :
    Decided Json.ofBytes? raw ∧ (Unreserved raw → Decided Json.plainBytes? raw)
    ∧ ∀ token, decode raw = .ok token → ∀ raw' token', decode raw' = .ok token' →
        token.signingInput = token'.signingInput → token.signature = token'.signature →
          raw = raw' :=
  ⟨decided_ofBytes? raw, decided_plainBytes?, fun _ h _ _ h' => decode_inj h h'⟩

/-- an object with nothing but the reserved name, under a header that names an algorithm -/
def reservedParts : Parts where
  first := "eyJhbGciOiJIUzI1NiJ9".toList
  second := "eyIkc2VyZGVfanNvbjo6cHJpdmF0ZTo6UmF3VmFsdWUiOm51bGx9".toList
  third := "c2ln".toList
  head := [("alg", .str "HS256")]
  payload := [(Json.embedName, .null)]
  signature := [115, 105, 103]

def reservedText : String :=
  "eyJhbGciOiJIUzI1NiJ9.eyIkc2VyZGVfanNvbjo6cHJpdmF0ZTo6UmF3VmFsdWUiOm51bGx9.c2ln"

theorem spelled_reservedText : Spelled Json.plainBytes? reservedParts reservedText where
  size := by decide +kernel
  text := by decide +kernel
  noDot := by decide +kernel
  nonempty := by decide +kernel
  head := ⟨bytes (Json.obj [("alg", .str "HS256")]).toText, by decide +kernel,
    Json.plainBytes?_toText rfl rfl (by decide)⟩
  payload := ⟨bytes (Json.obj [(Json.embedName, .null)]).toText, by decide +kernel,
    Json.plainBytes?_toText rfl rfl (by decide)⟩
  signature := by decide +kernel

/-- its payload is an object that is taken for an embedded text, so that the text is malformed -/
theorem reserved_undecided : ¬ ∀ raw, Decided Json.plainBytes? raw := by
  intro h
  have hnames : reservedParts.Names .hs256 := rfl
  obtain ⟨token, htoken⟩ :=
    (h reservedText).accepted.mpr ⟨reservedParts, .hs256, spelled_reservedText, hnames⟩
  have hfault : (decode reservedText).toOption.isSome = false := by decide +kernel
  rw [htoken] at hfault
  cases hfault

end TokenGate.Token
