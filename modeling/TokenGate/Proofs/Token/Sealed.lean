import TokenGate.Key
import TokenGate.Proofs.Json.Resolution
import TokenGate.Proofs.Text.Base64
import TokenGate.Proofs.Token.Presented
import TokenGate.Proofs.Token.Structure
import TokenGate.Token.Draft

/-!
# Tokens that are sealed with a secret

* `object_segment`         a segment holds the object it was made from;
* `Draft.Portable`         members that can be written and read back;
* `Draft.Heads`            the members that a header is read as;
* `Draft.issuedParts`      the parts of a token that was made from a draft;
* `decode_issuedText`      such a token is decoded to its parts, unless it is too long;
* `ofSecretText_encode`    the secret in base64, with blanks around it, is the key;
* `verify_mac`             which vouches for what is sealed with the secret;
* `ofHeader_issuedText`    a plain header presents a token that was made.
-/

namespace TokenGate

open Digest (Hash)
open Text

/-! ## segments -/

theorem Token.unbase64_encodeText (bs : List UInt8) :
    unbase64 (Base64.encodeText Base64.urlSafe bs).toList = .ok bs := by
  rw [unbase64, String.ofList_toList, Base64.bytes_encodeText Base64.lawful_urlSafe,
    Base64.decode_encode Base64.lawful_urlSafe]

theorem Token.object_segment (which : Segment) {v : Json} {m : Members}
    (h : Json.ofBytes? (bytes v.toText) = some (.obj m)) :
    object which (Draft.segment v).toList = .ok m := by
  unfold object Draft.segment
  rw [unbase64_encodeText]
  dsimp only
  rw [h]

theorem bytes_ne_nil {s : String} (h : s ≠ "") : bytes s ≠ [] := by
  intro hb
  have hs : ofBytes? [] = some s := ofBytes?_eq_some_iff.mpr hb.symm
  have he : ofBytes? [] = some "" := ofBytes?_eq_some_iff.mpr rfl
  rw [he] at hs
  exact h (Option.some.inj hs).symm

theorem toText_ne_empty (v : Json) : v.toText ≠ "" := by
  obtain ⟨c, cs, hc, _⟩ := Json.render_cons v
  unfold Json.toText
  rw [hc]
  simp

namespace Draft

variable {d : Draft} {a : Algorithm} {h : Hash} {secret : List UInt8}

/-! ## the header -/

/-- a header is read as these members, in whatever order they were written -/
def Heads (header : Json) (head : Members) : Prop :=
  Json.ofBytes? (bytes header.toText) = some (.obj head)

theorem heads_of_plain {header : Json} {head : Members} (hexact : header.all Json.isExact = true)
    (hdepth : Json.depth header ≤ Json.maxDepth) (hu : header.all Json.isUnreserved = true)
    (hplain : header.plain = .obj head) : Heads header head := by
  obtain ⟨inner, hi⟩ := Json.ofBytes?_render hexact hdepth
  unfold Heads
  rw [hi, Json.resolve?_of_unreserved inner hu, hplain]

/-- algorithm and type, in the order in which they are read -/
def headMembers (a : Algorithm) : Members := [("alg", .str a.name), ("typ", .str "JWT")]

theorem heads_hmacHeader (a : Algorithm) : Heads (hmacHeader a) (headMembers a) := by
  have hlt : "alg" < "typ" := by decide
  refine heads_of_plain rfl ?_ ?_ ?_
  · simp [hmacHeader, Json.depth, Json.depthMembers, Json.maxDepth]
  · simp [hmacHeader, Json.all, Json.allMembers, Json.isUnreserved, Json.isEmbedding,
      Json.embedName]
  · simp [hmacHeader, Json.plain, Json.plainMembers, Members.ofList, Members.put, headMembers, hlt]

theorem heads_rsaHeader (a : Algorithm) : Heads (rsaHeader a) (headMembers a) := by
  have hlt : ¬ "typ" < "alg" := by decide
  have hne : "typ" ≠ "alg" := by decide
  refine heads_of_plain rfl ?_ ?_ ?_
  · simp [rsaHeader, Json.depth, Json.depthMembers, Json.maxDepth]
  · simp [rsaHeader, Json.all, Json.allMembers, Json.isUnreserved, Json.isEmbedding,
      Json.embedName]
  · simp [rsaHeader, Json.plain, Json.plainMembers, Members.ofList, Members.put, headMembers, hlt,
      hne]

/-! ## the parts -/

/-- the members can be written and read back -/
structure Portable (claims : Members) : Prop where
  exact : (Json.obj claims).all Json.isExact = true
  ordered : (Json.obj claims).all Json.isOrdered = true
  unreserved : (Json.obj claims).all Json.isUnreserved = true
  depth : Json.depth (.obj claims) ≤ Json.maxDepth

theorem Portable.ofBytes? {claims : Members} (hc : Portable claims) :
    Json.ofBytes? (bytes (Json.obj claims).toText) = some (.obj claims) :=
  Json.ofBytes?_toText hc.exact hc.ordered hc.unreserved hc.depth

theorem portable_start : Portable (start 0).claims := by
  constructor <;> decide +kernel

/-- the token of a draft under any header with any signature -/
def issuedText (header : Json) (signature : List UInt8) (d : Draft) : String :=
  withSignature (signingInput header d.claims) signature

def issuedParts (header : Json) (head : Members) (signature : List UInt8) (d : Draft) :
    Token.Parts where
  first := (segment header).toList
  second := (segment (.obj d.claims)).toList
  third := (Base64.encodeText Base64.urlSafe signature).toList
  head := head
  payload := d.claims
  signature := signature

variable {header : Json} {head : Members} {signature : List UInt8}

theorem signingInput_issuedParts :
    (issuedParts header head signature d).signingInput = signingInput header d.claims := by
  unfold Token.Parts.signingInput issuedParts signingInput
  rw [← String.toList_inj]
  simp

/-- every segment is the base64 of something -/
theorem exists_of_mem_segments (hne : signature ≠ []) {w : List Char}
    (hw : w ∈ (issuedParts header head signature d).segments) :
    ∃ bs, bs ≠ [] ∧ w = (Base64.encodeText Base64.urlSafe bs).toList := by
  simp only [Token.Parts.segments, issuedParts, List.mem_cons, List.not_mem_nil, or_false] at hw
  unfold segment at hw
  rcases hw with hw | hw | hw
  · exact ⟨_, bytes_ne_nil (toText_ne_empty _), hw⟩
  · exact ⟨_, bytes_ne_nil (toText_ne_empty _), hw⟩
  · exact ⟨_, hne, hw⟩

theorem mem_segments (hne : signature ≠ []) {w : List Char}
    (hw : w ∈ (issuedParts header head signature d).segments) :
    w ≠ [] ∧ ∀ c ∈ w, c ≠ '.' ∧ isBlank c = false := by
  obtain ⟨bs, hbs, rfl⟩ := exists_of_mem_segments hne hw
  exact ⟨Base64.encodeText_ne_nil _ hbs,
    fun c hc => Base64.mem_encodeText Base64.lawful_urlSafe hc⟩

theorem toList_issuedText (head : Members) : (d.issuedText header signature).toList
    = ['.'].intercalate (issuedParts header head signature d).segments := by
  unfold issuedText withSignature Token.Parts.segments issuedParts signingInput
  simp [List.intercalate_cons_cons]

theorem issuedParts_of (hh : Heads header head) (hc : Portable d.claims) (hne : signature ≠ [])
    (hsize : (d.issuedText header signature).utf8ByteSize ≤ Token.maxSize) :
    (issuedParts header head signature d).Of (d.issuedText header signature) := by
  have hhead := Token.object_segment .header hh
  have hpayload := Token.object_segment .payload hc.ofBytes?
  have hsignature := Token.unbase64_encodeText signature
  exact {
    size := hsize
    text := toList_issuedText head
    noDot := fun _ hw hm => ((mem_segments hne hw).2 '.' hm).1 rfl
    nonempty := fun _ hw => (mem_segments hne hw).1
    head := by simpa only [issuedParts] using hhead
    payload := by simpa only [issuedParts] using hpayload
    signature := by simpa only [issuedParts] using hsignature }

theorem decode_issuedText (hh : Heads header head)
    (hn : Members.get? head "alg" = some (.str a.name)) (hc : Portable d.claims)
    (hne : signature ≠ [])
    (hsize : (d.issuedText header signature).utf8ByteSize ≤ Token.maxSize) :
    Token.decode (d.issuedText header signature) =
      .ok ((issuedParts header head signature d).token (d.issuedText header signature) a) := by
  have hnames : (issuedParts header head signature d).Names a := hn
  rw [Token.decode_of_parts (issuedParts_of hh hc hne hsize), Token.Parts.names_iff.mpr hnames]

/-! ## the key -/

theorem trimmed_encodeText {alphabet : Base64.Alphabet} (hl : alphabet.Lawful) (bs : List UInt8)
    {lead trail : String} (hlead : ∀ c ∈ lead.toList, isBlank c = true)
    (htrail : ∀ c ∈ trail.toList, isBlank c = true) :
    trimmed (lead ++ Base64.encodeText alphabet bs ++ trail) = Base64.encodeText alphabet bs := by
  have ht : Tight (Base64.encodeText alphabet bs).toList :=
    tight_of_all fun c hc => (Base64.mem_encodeText hl hc).2
  rw [trimmed_around hlead htrail, trimmed, trim_tight ht, String.ofList_toList]

theorem ofSecretText_encode (hne : secret ≠ []) {lead trail : String}
    (hlead : ∀ c ∈ lead.toList, isBlank c = true) (htrail : ∀ c ∈ trail.toList, isBlank c = true) :
    Key.ofSecretText (lead ++ Base64.encodeText Base64.standard secret ++ trail) =
      .ok (.secret secret) := by
  unfold Key.ofSecretText
  rw [trimmed_encodeText Base64.lawful_standard secret hlead htrail,
    Base64.bytes_encodeText Base64.lawful_standard, Base64.decode_encode Base64.lawful_standard]
  show Key.ofSecret secret = _
  rw [Key.ofSecret, if_neg (by simpa using hne)]

/-- the code of a message is its signature -/
theorem verify_mac (ha : a.family = .hmac h) (secret message : List UInt8) :
    (Key.secret secret).verify message (h.mac secret message) a = .ok () := by
  unfold Key.verify
  rw [ha]
  show acceptIf (h.mac secret message == h.mac secret message) = _
  rw [BEq.rfl]
  rfl

theorem mac_ne_nil (h : Hash) (secret message : List UInt8) : h.mac secret message ≠ [] := by
  intro e
  have hl := Digest.length_mac h secret message
  rw [e] at hl
  cases h <;> cases hl

/-! ## sealed tokens -/

/-- `token` is what comes of reading `raw`, which was made from a draft -/
structure MadeFrom (token : Token) (a : Algorithm) (d : Draft) (raw : String) : Prop where
  decoded : Token.decode raw = .ok token
  algorithm : token.algorithm = a
  type : token.type? = some "JWT"
  payload : token.payload = d.claims
  signingInput : ∃ last, raw = token.signingInput ++ "." ++ last ∧ '.' ∉ last.toList

theorem madeFrom_issuedText (hh : Heads header (headMembers a)) (hc : Portable d.claims)
    (hne : signature ≠ [])
    (hsize : (d.issuedText header signature).utf8ByteSize ≤ Token.maxSize) :
    ∃ token, MadeFrom token a d (d.issuedText header signature)
      ∧ token.signingInput = signingInput header d.claims ∧ token.signature = signature := by
  refine ⟨(issuedParts header (headMembers a) signature d).token
    (d.issuedText header signature) a, ?_, signingInput_issuedParts, rfl⟩
  exact {
    decoded := decode_issuedText hh rfl hc hne hsize
    algorithm := rfl
    type := rfl
    payload := rfl
    signingInput := by
      refine ⟨Base64.encodeText Base64.urlSafe signature, ?_, fun hm => ?_⟩
      · show _ = (issuedParts header (headMembers a) signature d).signingInput ++ "." ++ _
        rw [signingInput_issuedParts]
        rfl
      · exact (Base64.mem_encodeText Base64.lawful_urlSafe hm).1 rfl }

theorem madeFrom_sealed (hc : Portable d.claims) (ha : a.family = .hmac h)
    (hsize : (d.sealed h secret (hmacHeader a)).utf8ByteSize ≤ Token.maxSize) :
    ∃ token, MadeFrom token a d (d.sealed h secret (hmacHeader a))
      ∧ (Key.secret secret).verify (bytes token.signingInput) token.signature token.algorithm
        = .ok () := by
  have hne := mac_ne_nil h secret (bytes (signingInput (hmacHeader a) d.claims))
  obtain ⟨token, hmade, hinput, hsignature⟩ :=
    madeFrom_issuedText (heads_hmacHeader a) hc hne hsize
  refine ⟨token, hmade, ?_⟩
  rw [hinput, hsignature, hmade.algorithm]
  exact verify_mac ha secret _

/-! ## the header of a request -/

theorem isBlank_of_mem_issuedText (hne : signature ≠ []) {c : Char}
    (hm : c ∈ (d.issuedText header signature).toList) : isBlank c = false := by
  -- the text does not depend on what the header is read as
  rw [toList_issuedText []] at hm
  rcases mem_intercalate hm with rfl | ⟨w, hw, hc⟩
  · decide
  · exact ((mem_segments hne hw).2 c hc).2

theorem issuedText_ne_empty : d.issuedText header signature ≠ "" := by
  unfold issuedText withSignature signingInput
  intro e
  have hl := congrArg String.toList e
  simp at hl

theorem ofHeader_issuedText (hne : signature ≠ []) :
    Credential.ofHeader (some (Credential.header (d.issuedText header signature))) =
      .ok (d.issuedText header signature) := by
  have htight : Tight (d.issuedText header signature).toList :=
    tight_of_all fun c hc => isBlank_of_mem_issuedText hne hc
  exact (Credential.presents_header issuedText_ne_empty htight).ofHeader_eq

theorem ofHeader_sealed (a : Algorithm) (h : Hash) (secret : List UInt8) (d : Draft) :
    Credential.ofHeader (some (Credential.header (d.sealed h secret (hmacHeader a)))) =
      .ok (d.sealed h secret (hmacHeader a)) :=
  ofHeader_issuedText (mac_ne_nil h secret (bytes (signingInput (hmacHeader a) d.claims)))

end Draft

end TokenGate
