import TokenGate.Proofs.Gate.Soundness
import TokenGate.Proofs.Http.Counting
import TokenGate.Proofs.Json.Resolution
import TokenGate.Proofs.Token.Rebuilt

/-!
# What a request in front of a handler is answered with

* `Visible h`, `Printable bs`   bytes that can be read in a request header, or stand in a response
                         header;
* `Guard.Rules`          what is decided on a request: the decision of the gate, or a rejection where
                         the header cannot be read;
* `Guard.Returns`        the lookups that the decision needs come back;
* `Guard.handleIn`       `handle` for a handler that does more than answer;
* `Guard.calls`          what the handler is called with;
* `Guard.Refuses`        the response to a rejection;
* `Guard.Honours`        what the host does on a decision;
* `isHeaderText_value`   a challenge can stand in a header if and only if the realm's name can;
* `response_contract`    an accepted request is handed to the handler once, together with its
                         identity, and any other gets a refusal that can be read by the client.
-/

namespace TokenGate.Guard

open Text

variable {g : Gate} {handler : Handler} {m : Memo} {v : Visit} {h : Header} {realm : String}
  {r : Rejection}

/-! ## bytes in headers -/

/-- printable ASCII and tabs -/
def Visible (bs : List UInt8) : Prop := ∀ b ∈ bs, (0x20 ≤ b ∧ b ≤ 0x7E) ∨ b = 0x09

/-- no control byte but tabs -/
def Printable (bs : List UInt8) : Prop := ∀ b ∈ bs, (0x20 ≤ b ∧ b ≠ 0x7F) ∨ b = 0x09

theorem isVisible_iff {b : UInt8} : isVisible b = true ↔ (0x20 ≤ b ∧ b ≤ 0x7E) ∨ b = 0x09 := by
  simp [isVisible, UInt8.le_iff_toNat_le, ← UInt8.toNat_inj]

theorem isHeaderByte_iff {b : UInt8} :
    isHeaderByte b = true ↔ (0x20 ≤ b ∧ b ≠ 0x7F) ∨ b = 0x09 := by
  simp [isHeaderByte, UInt8.le_iff_toNat_le, ← UInt8.toNat_inj]

theorem visibleText?_eq_some_iff {text : String} :
    visibleText? h = some text ↔ Visible h ∧ bytes text = h := by
  have hall : h.all isVisible = true ↔ Visible h := by
    simp only [List.all_eq_true, isVisible_iff, Visible]
  unfold visibleText?
  by_cases hv : h.all isVisible = true
  · have hread : bytes (String.ofList (h.map fun b => Char.ofNat b.toNat)) = h := by
      refine Base64.bytes_ascii fun b hb => ?_
      have hb := hall.mp hv b hb
      simp only [UInt8.le_iff_toNat_le, ← UInt8.toNat_inj] at hb
      have h126 : (0x7E : UInt8).toNat = 126 := rfl
      have h9 : (0x09 : UInt8).toNat = 9 := rfl
      omega
    rw [if_pos hv, Option.some.injEq]
    constructor
    · rintro rfl
      exact ⟨hall.mp hv, hread⟩
    · intro hx
      exact bytes_inj (hread.trans hx.2.symm)
  · rw [if_neg hv]
    exact iff_of_false (by simp) fun hx => hv (hall.mpr hx.1)

theorem visibleText?_eq_none_iff : visibleText? h = none ↔ ¬ Visible h := by
  unfold visibleText?
  by_cases hv : h.all isVisible = true
  · rw [if_pos hv]
    simp only [List.all_eq_true, isVisible_iff] at hv
    exact iff_of_false (by simp) (not_not_intro hv)
  · rw [if_neg hv]
    simp only [List.all_eq_true, isVisible_iff] at hv
    exact iff_of_true rfl hv

/-! ## texts in response headers -/

/-- all bytes of a character may stand in a header -/
def isHeaderChar (c : Char) : Bool := (String.utf8EncodeChar c).all isHeaderByte

theorem bytes_eq_flatMap (s : String) : bytes s = s.toList.flatMap String.utf8EncodeChar := by
  conv => lhs; rw [← String.ofList_toList (s := s)]
  unfold bytes
  rw [String.toByteArray_ofList, List.utf8Encode, List.data_toByteArray]

theorem isHeaderText_eq (s : String) : isHeaderText s = s.toList.all isHeaderChar := by
  rw [isHeaderText, bytes_eq_flatMap, List.all_flatMap]
  rfl

theorem isHeaderText_iff {s : String} : isHeaderText s = true ↔ Printable (bytes s) := by
  simp only [isHeaderText, List.all_eq_true, isHeaderByte_iff, Printable]

/-- escaping adds nothing but backslashes -/
theorem all_quoteChars {p : Char → Bool} (hp : p '\\' = true) (cs : List Char) :
    (Challenge.quoteChars cs).all p = cs.all p := by
  induction cs with
  | nil => rfl
  | cons c cs ih =>
    by_cases hc : c = '"' ∨ c = '\\'
    · rw [Challenge.quoteChars, if_pos hc, List.all_cons, List.all_cons, List.all_cons, ih, hp]
      rfl
    · rw [Challenge.quoteChars, if_neg hc, List.all_cons, List.all_cons, ih]

theorem all_quote (s : String) : (Challenge.quote s).all isHeaderChar = isHeaderText s := by
  have hquote : isHeaderChar '"' = true := by decide +kernel
  have hescape : isHeaderChar '\\' = true := by decide +kernel
  rw [Challenge.quote, List.cons_append, List.all_cons, List.all_append, all_quoteChars hescape,
    List.all_cons, hquote, isHeaderText_eq]
  simp

/-- a text of printable ASCII -/
def isPlain (cs : List Char) : Bool := cs.all fun c => ' ' ≤ c && c ≤ '~'

theorem isHeaderChar_of_plain {cs : List Char} (h : isPlain cs = true) :
    cs.all isHeaderChar = true := by
  have hcodes : ∀ n < 127, 32 ≤ n → isHeaderChar (Char.ofNat n) = true := by decide +kernel
  refine List.all_eq_true.mpr fun c hc => ?_
  have hplain := List.all_eq_true.mp h c hc
  rw [Bool.and_eq_true, decide_eq_true_eq, decide_eq_true_eq] at hplain
  obtain ⟨hlow, hhigh⟩ := hplain
  rw [← Char.ofNat_toNat c]
  exact hcodes c.toNat (Nat.lt_succ_of_le hhigh) hlow

theorem isPlain_description (kind : Failure) : isPlain kind.description.toList = true := by
  cases kind <;> decide +kernel

/-- what a challenge says behind the realm -/
def details (r : Rejection) : List Char :=
  if r.kind = .missingCredentials then []
  else ", error=".toList ++ Challenge.quote Challenge.invalidToken
    ++ ", error_description=".toList ++ Challenge.quote r.description

theorem toList_value (realm : String) (r : Rejection) :
    (Challenge.value realm r).toList
      = "Bearer realm=".toList ++ Challenge.quote realm ++ details r :=
  String.toList_ofList

theorem isHeaderChar_details (kind : Failure) :
    (details (.ofKind kind)).all isHeaderChar = true := by
  have herror : ", error=".toList.all isHeaderChar = true :=
    isHeaderChar_of_plain (by decide +kernel)
  have hcode : (Challenge.quote Challenge.invalidToken).all isHeaderChar = true :=
    isHeaderChar_of_plain (by decide +kernel)
  have hname : ", error_description=".toList.all isHeaderChar = true :=
    isHeaderChar_of_plain (by decide +kernel)
  have hsentence : (Challenge.quote kind.description).all isHeaderChar = true := by
    rw [all_quote, isHeaderText_eq]
    exact isHeaderChar_of_plain (isPlain_description kind)
  unfold details
  split
  · rfl
  · simp only [List.all_append, herror, hcode, hname, Bool.true_and]
    exact hsentence

theorem isHeaderText_value (realm : String) (kind : Failure) :
    isHeaderText (Challenge.value realm (.ofKind kind)) = isHeaderText realm := by
  have hfront : "Bearer realm=".toList.all isHeaderChar = true :=
    isHeaderChar_of_plain (by decide +kernel)
  rw [isHeaderText_eq, toList_value, List.all_append, List.all_append, hfront, all_quote,
    isHeaderChar_details, Bool.true_and, Bool.and_true]

/-! ## decisions -/

/-- the decision on a request and the memo after it -/
inductive Rules (g : Gate) (m : Memo) (v : Visit) : Decision → Memo → Prop where
  | absent (hv : v.header = none) :
    Rules g m v (g.authenticate v.lookups.realm m none v.now).decision
      (g.authenticate v.lookups.realm m none v.now).memo
  | visible {h : Header} {text : String} (hv : v.header = some h) (hvisible : Visible h)
      (ht : bytes text = h) :
    Rules g m v (g.authenticate v.lookups.realm m (some text) v.now).decision
      (g.authenticate v.lookups.realm m (some text) v.now).memo
  | unreadable {h : Header} (hv : v.header = some h) (hvisible : ¬ Visible h) :
    Rules g m v (rejectedBy .malformedHeader) m

/-- no lookup brings the decision down -/
def Returns (g : Gate) (m : Memo) (v : Visit) : Prop :=
  ∀ h text, v.header = some h → bytes text = h →
    ∀ s ∈ (g.authenticate v.lookups.realm m (some text) v.now).signals, v.lookups.lost s = false

theorem returns_ofRealm (g : Gate) (m : Memo) (header : Option Header) (now : Int)
    (realm : Realm) (report : String) : Returns g m ⟨header, now, .ofRealm realm, report⟩ :=
  fun _ _ _ _ s _ => Lookups.lost_ofRealm realm s

theorem exists_rules (g : Gate) (m : Memo) (v : Visit) : ∃ d m', Rules g m v d m' := by
  cases hv : v.header with
  | none => exact ⟨_, _, .absent hv⟩
  | some h =>
    cases ht : visibleText? h with
    | none => exact ⟨_, _, .unreadable hv (visibleText?_eq_none_iff.mp ht)⟩
    | some text =>
      obtain ⟨hvisible, hbytes⟩ := visibleText?_eq_some_iff.mp ht
      exact ⟨_, _, .visible hv hvisible hbytes⟩

theorem decide_of_rules (hreturns : Returns g m v) {d : Decision} {m' : Memo}
    (hrules : Rules g m v d m') : (decide g m v).decision = d ∧ (decide g m v).memo = m' := by
  unfold decide
  cases hrules with
  | absent hv =>
    rw [hv]
    exact ⟨rfl, rfl⟩
  | @visible h text hv hvisible ht =>
    have hlost : (g.authenticate v.lookups.realm m (some text) v.now).signals.any v.lookups.lost
        = false := by
      refine List.any_eq_false.mpr fun s hs => ?_
      rw [hreturns h text hv ht s hs]
      exact Bool.false_ne_true
    rw [hv]
    simp only [visibleText?_eq_some_iff.mpr ⟨hvisible, ht⟩, decideAside, hlost]
    exact ⟨rfl, rfl⟩
  | @unreadable h hv hvisible =>
    rw [hv]
    simp only [visibleText?_eq_none_iff.mpr hvisible]
    exact ⟨trivial, trivial⟩

theorem ofKind_of_outcome {o : Outcome} (h : o.decision = .rejected r) : r = .ofKind r.kind := by
  obtain ⟨accepted, subject, roles, expiresAt, failure⟩ := o
  cases accepted <;> cases subject <;> cases h <;> rfl

theorem decision_eq_outcome (g : Gate) (realm : Realm) (m : Memo) (header : Option String)
    (now : Int) : ∃ o : Outcome, (g.authenticate realm m header now).decision = o.decision := by
  cases ht : Credential.ofHeader header with
  | error f => exact ⟨_, (g.authenticate_of_error realm m ht now).1⟩
  | ok raw =>
    rcases g.decision_cases realm m ht now with ⟨e, _, _, hd⟩ | hd
    · exact ⟨_, hd⟩
    · exact ⟨_, hd⟩

/-- a rejection comes with the sentence of its kind -/
theorem ofKind_of_rules {m' : Memo} (hrules : Rules g m v (.rejected r) m') :
    r = .ofKind r.kind := by
  generalize hd : Decision.rejected r = d at hrules
  cases hrules with
  | absent hv =>
    obtain ⟨o, ho⟩ := decision_eq_outcome g v.lookups.realm m none v.now
    exact ofKind_of_outcome (ho.symm.trans hd.symm)
  | @visible h text hv hvisible ht =>
    obtain ⟨o, ho⟩ := decision_eq_outcome g v.lookups.realm m (some text) v.now
    exact ofKind_of_outcome (ho.symm.trans hd.symm)
  | unreadable hv hvisible =>
    cases hd
    rfl

/-! ## calls of the handler -/

/-- `handle` for a handler that does more than answer -/
def handleIn {M : Type → Type} [Monad M] (g : Gate) (handler : Option Identity → M Response)
    (m : Memo) (v : Visit) : M (Response × Memo × List Signal) :=
  let reply := decide g m v
  match reply.decision with
  | .accepted identity => do
    let response ← handler (some identity)
    return (response, reply.memo, reply.signals)
  | .rejected r =>
    return (refusal g.realmName r, reply.memo,
      reply.signals ++ (refusalEvents g.realmName r).map .logged)

/-- a handler that keeps a list of its calls -/
def recording (handler : Handler) (identity : Option Identity) :
    StateM (List (Option Identity)) Response := do
  modify (· ++ [identity])
  return handler identity

/-- the answer to a request, and what the handler is called with meanwhile -/
def recorded (g : Gate) (handler : Handler) (m : Memo) (v : Visit) :
    (Response × Memo × List Signal) × List (Option Identity) :=
  (handleIn g (recording handler) m v).run []

theorem recorded_eq (g : Gate) (handler : Handler) (m : Memo) (v : Visit) :
    recorded g handler m v = (handle g handler m v, match (decide g m v).decision with
      | .accepted identity => [some identity]
      | .rejected _ => []) := by
  unfold recorded handleIn handle
  cases hd : (decide g m v).decision with
  | accepted identity =>
    simp only [hd]
    rfl
  | rejected r =>
    simp only [hd]
    rfl

/-- the calls of the handler, each with what it is told of the identity -/
def calls (g : Gate) (handler : Handler) (m : Memo) (v : Visit) : List (Option Identity) :=
  (recorded g handler m v).2

/-! ## refusals -/

theorem code_eq (kind : Failure) : kind.code = kind.label.toUpper := by
  cases kind <;> decide +kernel

theorem ofBytes?_errorBody (r : Rejection) :
    Json.ofBytes? (bytes (errorBody r).toText) = some (errorBody r) := by
  have hnames : (["code", "message"] : List String).Pairwise (· < ·) := by decide
  have hordered : (errorBody r).all Json.isOrdered = true := by
    simpa [errorBody, Json.all, Json.allMembers, Json.isOrdered, Members.names] using hnames
  have hdepth : (errorBody r).depth ≤ Json.maxDepth := by
    show 2 ≤ 127
    omega
  exact Json.ofBytes?_toText rfl hordered rfl hdepth

/-- a challenge with a realm is longer than the scheme alone -/
theorem value_ne_scheme (realm : String) (r : Rejection) : Challenge.value realm r ≠ "Bearer" := by
  intro h
  have hlen := congrArg List.length (toList_value realm r)
  have hscheme : "Bearer".toList.length = 6 := by decide +kernel
  have hfront : "Bearer realm=".toList.length = 13 := by decide +kernel
  rw [h, List.length_append, List.length_append, hscheme, hfront] at hlen
  omega

theorem challengeFor_eq (realm : String) (kind : Failure) :
    challengeFor realm (.ofKind kind)
      = if isHeaderText realm then Challenge.value realm (.ofKind kind) else "Bearer" := by
  rw [← isHeaderText_value realm kind]
  rfl

/-- the response to a rejection, as a client can read it -/
structure Refuses (realm : String) (r : Rejection) (response : Response) : Prop where
  status : response.status = 401
  contentType : response.contentType = "application/json"
  body : Json.ofBytes? (bytes response.body) = some (.obj [("error", .obj [
    ("code", .str r.kind.label.toUpper), ("message", .str r.kind.description)])])
  challenge : ∃ c, response.challenge = some c ∧ Printable (bytes c)
    ∧ (c = Challenge.value realm r ↔ Printable (bytes realm))
    ∧ (¬ Printable (bytes realm) → c = "Bearer")

theorem refuses_refusal (realm : String) (kind : Failure) :
    Refuses realm (.ofKind kind) (refusal realm (.ofKind kind)) where
  status := rfl
  contentType := rfl
  body := by
    show Json.ofBytes? (bytes (errorBody (.ofKind kind)).toText) = _
    rw [ofBytes?_errorBody, ← code_eq]
    rfl
  challenge := by
    refine ⟨challengeFor realm (.ofKind kind), rfl, ?_⟩
    rw [challengeFor_eq]
    by_cases hrealm : isHeaderText realm = true
    · have hprintable := isHeaderText_iff.mp hrealm
      rw [if_pos hrealm]
      refine ⟨?_, iff_of_true rfl hprintable, fun hn => absurd hprintable hn⟩
      rwa [← isHeaderText_iff, isHeaderText_value]
    · rw [if_neg hrealm]
      refine ⟨isHeaderText_iff.mp (by decide +kernel), ?_, fun _ => rfl⟩
      exact iff_of_false (value_ne_scheme realm _).symm fun hp => hrealm (isHeaderText_iff.mpr hp)

/-! ## the whole contract -/

/-- what the host does on a decision: the handler is called with the identity of an accepted
request, and its answer is the response; no other request gets to the handler -/
structure Honours (g : Gate) (handler : Handler) (d : Decision) (response : Response)
    (calls : List (Option Identity)) : Prop where
  accepted : ∀ identity, d = .accepted identity →
    calls = [some identity] ∧ response = handler (some identity)
  rejected : ∀ r, d = .rejected r → calls = [] ∧ Refuses g.realmName r response

/-- a request is decided on by the gate if its header is absent or can be read, and turned away
otherwise, the memo being left alone; and its response is that of the handler, which is called once
and with the identity, or a refusal with one challenge and a body that names the failure -/
theorem response_contract (g : Gate) (handler : Handler) (m : Memo) (v : Visit)
    (hreturns : Returns g m v) :
    (∃ d m', Rules g m v d m')
    ∧ (recorded g handler m v).1 = handle g handler m v
    ∧ ∀ d m', Rules g m v d m' → (handle g handler m v).2.1 = m'
      ∧ Honours g handler d (handle g handler m v).1 (calls g handler m v) := by
  refine ⟨exists_rules g m v, congrArg Prod.fst (recorded_eq g handler m v), ?_⟩
  intro d m' hrules
  obtain ⟨hd, hm⟩ := decide_of_rules hreturns hrules
  obtain ⟨events, hhandle⟩ := handle_eq g handler m v
  have hcalls := congrArg Prod.snd (recorded_eq g handler m v)
  rw [hd] at hhandle hcalls
  rw [hhandle, calls, hcalls]
  refine ⟨hm, fun identity ha => ?_, fun r hr => ?_⟩
  · subst ha
    exact ⟨rfl, rfl⟩
  · subst hr
    obtain ⟨kind, rfl⟩ : ∃ kind, r = .ofKind kind := ⟨_, ofKind_of_rules hrules⟩
    exact ⟨rfl, refuses_refusal g.realmName kind⟩

/-- the sample token is let in, and a byte outside ASCII is not -/
theorem response_contract_of_sample :
    let visit (header : Header) : Visit := ⟨some header, 0, .ofRealm Gate.sampleRealm, ""⟩
    let served := calls Gate.sample whoAmI Gate.sample.emptyMemo
    (∀ header, Returns Gate.sample Gate.sample.emptyMemo (visit header))
      ∧ served (visit (bytes Gate.sampleHeader)) = [some Gate.sampleIdentity]
      ∧ served (visit [0xC3, 0xA9]) = []
      ∧ Refuses "bearer" (.ofKind .malformedHeader)
        (handle Gate.sample whoAmI Gate.sample.emptyMemo (visit [0xC3, 0xA9])).1 := by
  intro visit served
  have hreturns : ∀ header, Returns Gate.sample Gate.sample.emptyMemo (visit header) :=
    fun header =>
      returns_ofRealm Gate.sample Gate.sample.emptyMemo (some header) 0 Gate.sampleRealm ""
  have hseen : Visible (bytes Gate.sampleHeader) := by
    have hall : (bytes Gate.sampleHeader).all isVisible = true := by decide +kernel
    exact fun b hb => isVisible_iff.mp (List.all_eq_true.mp hall b hb)
  have hunseen : ¬ Visible [0xC3, 0xA9] := fun h =>
    absurd (isVisible_iff.mpr (h 0xC3 (List.mem_cons_self ..))) (by decide)
  obtain ⟨_, _, haccepted⟩ := response_contract Gate.sample whoAmI Gate.sample.emptyMemo
    (visit (bytes Gate.sampleHeader)) (hreturns _)
  obtain ⟨_, _, hrefused⟩ := response_contract Gate.sample whoAmI Gate.sample.emptyMemo
    (visit [0xC3, 0xA9]) (hreturns _)
  obtain ⟨_, hin⟩ := haccepted _ _ (.visible rfl hseen rfl)
  obtain ⟨_, hout⟩ := hrefused _ _ (.unreadable rfl hunseen)
  obtain ⟨hnone, hresponse⟩ := hout.rejected _ rfl
  exact ⟨hreturns, (hin.accepted _ Gate.decision_sampleHeader).1, hnone, hresponse⟩

end TokenGate.Guard
