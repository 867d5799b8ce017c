import TokenGate.Proofs.Gate.Signals
import TokenGate.Proofs.Gate.Soundness
import TokenGate.Proofs.Json.Order
import TokenGate.Proofs.Token.Sealed

/-!
# Nothing but the subject tells of the subject

Two examinations are compared step by step.

* `Agree R x y`          the same error, or results that `R` relates;
* `Traced.Alike R t u`   the same events as well;
* `Twins p p' s s'`      payloads with the subjects `s` and `s'` that are the same otherwise;
* `agree_ofPayload`, `agree_check`, `alike_confirm`   what reads a payload, checks its claims or asks
                         the realm is the same for twins;
* `Gate.Pair`            two tokens with such payloads, for which verifier and realm have one answer;
* `alike_examine`        their examinations are the same, but for the subject of the outcome;
* `subject_untold`       neither events nor diagnostics tell one subject from another.
-/

namespace TokenGate

open Text

/-! ## results side by side -/

/-- the same error on both sides, or results that `R` relates -/
inductive Agree {ε α β : Type} (R : α → β → Prop) : Except ε α → Except ε β → Prop where
  | ok {a : α} {b : β} (h : R a b) : Agree R (.ok a) (.ok b)
  | error (e : ε) : Agree R (.error e) (.error e)

namespace Agree

variable {ε α β γ : Type} {R : α → β → Prop}

theorem of_eq {x y : Except ε α} (h : x = y) : Agree Eq x y := by
  subst h
  cases x with
  | ok a => exact .ok rfl
  | error e => exact .error e

/-- a step that is the same on both sides, and what comes after it -/
theorem bind_same {x : Except ε γ} {next : γ → Except ε α} {next' : γ → Except ε β}
    (h : ∀ c, Agree R (next c) (next' c)) : Agree R (x >>= next) (x >>= next') := by
  cases x with
  | ok c => exact h c
  | error e => exact .error e

theorem map_eq {x : Except ε α} {y : Except ε β} (h : Agree R x y) {f : α → γ} {f' : β → γ}
    (hf : ∀ a b, R a b → f a = f' b) : x.map f = y.map f' := by
  cases h with
  | ok h => exact congrArg Except.ok (hf _ _ h)
  | error e => rfl

end Agree

/-! ## traced steps side by side -/

namespace Traced

variable {ε α β γ δ : Type} {R : α → β → Prop} {S : γ → δ → Prop}

/-- the same events, and the same refusal or results that `R` relates -/
structure Alike (R : α → β → Prop) (t : Traced α) (u : Traced β) : Prop where
  events : Signal.events t.signals = Signal.events u.signals
  result : Agree R t.result u.result

theorem Alike.bind {t : Traced α} {u : Traced β} {next : α → Traced γ} {next' : β → Traced δ}
    (h : Alike R t u) (hnext : ∀ a b, R a b → Alike S (next a) (next' b)) :
    Alike S (t >>= next) (u >>= next') := by
  obtain ⟨l, x⟩ := t
  obtain ⟨k, y⟩ := u
  obtain ⟨hevents, hresult⟩ := h
  dsimp only at hevents hresult
  constructor
  · rw [signals_bind, signals_bind]
    unfold Signal.events at hevents ⊢
    rw [List.filterMap_append, List.filterMap_append, hevents]
    congr 1
    cases hresult with
    | ok hab => exact (hnext _ _ hab).events
    | error r => rfl
  · rw [result_bind, result_bind]
    cases hresult with
    | ok hab => exact (hnext _ _ hab).result
    | error r => exact .error r

theorem alike_pure {a : α} {b : β} (h : R a b) : Alike R (pure a) (pure b) := ⟨rfl, .ok h⟩

theorem alike_refuse (r : Refusal) : Alike R (refuse r) (refuse r) := ⟨rfl, .error r⟩

theorem alike_emit {l k : List Signal} (h : Signal.events l = Signal.events k) :
    Alike Eq (emit l) (emit k) := ⟨h, .ok rfl⟩

theorem alike_ofExcept (wrap : ε → Refusal) {x : Except ε α} {y : Except ε β} (h : Agree R x y) :
    Alike R (ofExcept wrap x) (ofExcept wrap y) := by
  cases h with
  | ok h => exact ⟨rfl, .ok h⟩
  | error e => exact alike_refuse (wrap e)

end Traced

/-! ## payloads that differ in the subject -/

/-- payloads with the subjects `s` and `s'` that are the same otherwise -/
structure Twins (p p' : Members) (s s' : String) : Prop where
  subject : Members.get? p "sub" = some (.str s)
  subject' : Members.get? p' "sub" = some (.str s')
  nonempty : s ≠ ""
  nonempty' : s' ≠ ""
  others : ∀ name, name ≠ "sub" → Members.get? p name = Members.get? p' name

/-- claims of such payloads -/
structure Claims.Twins (p p' : Members) (s s' : String) (c c' : Claims) : Prop where
  subject : c.subject = some s
  subject' : c'.subject = some s'
  expiresAt : c.expiresAt = c'.expiresAt
  issuedAt : c.issuedAt = c'.issuedAt
  notBefore : c.notBefore = c'.notBefore
  issuer : c.issuer = c'.issuer
  audience : c.audience = c'.audience
  all : c.all = p
  all' : c'.all = p'

variable {p p' : Members} {s s' : String} {c c' : Claims}

theorem Twins.names (h : Twins p p' s s') (name : String) :
    (Members.get? p name).isSome = (Members.get? p' name).isSome := by
  by_cases hname : name = "sub"
  · rw [hname, h.subject, h.subject']
    rfl
  · rw [h.others name hname]

theorem agree_ofPayload (h : Twins p p' s s') :
    Agree (Claims.Twins p p' s s') (Claims.ofPayload p) (Claims.ofPayload p') := by
  have hsub : Claims.text p "sub" = .ok (some s) := Claims.text_eq_ok_iff.mpr h.subject
  have hsub' : Claims.text p' "sub" = .ok (some s') := Claims.text_eq_ok_iff.mpr h.subject'
  have htime : ∀ claim, claim ≠ "sub" → Claims.time p claim = Claims.time p' claim := by
    intro claim hclaim
    rw [Claims.time, Claims.time, h.others claim hclaim]
  have htext : Claims.text p "iss" = Claims.text p' "iss" := by
    rw [Claims.text, Claims.text, h.others "iss" (by decide)]
  have haudience : Claims.audienceOf p = Claims.audienceOf p' := by
    rw [Claims.audienceOf, Claims.audienceOf, h.others "aud" (by decide)]
  unfold Claims.ofPayload
  rw [hsub, hsub', Checks.ok_bind, Checks.ok_bind, htime "exp" (by decide),
    htime "iat" (by decide), htime "nbf" (by decide), htext, haudience]
  apply Agree.bind_same
  intro expiresAt
  apply Agree.bind_same
  intro issuedAt
  apply Agree.bind_same
  intro notBefore
  apply Agree.bind_same
  intro issuer
  apply Agree.bind_same
  intro audience
  exact .ok ⟨rfl, rfl, rfl, rfl, rfl, rfl, rfl, rfl, rfl⟩

theorem shown_of_twins (hlength : p.length = p'.length) (h : Claims.Twins p p' s s' c c') :
    c.shown = c'.shown := by
  unfold Claims.shown
  rw [h.subject, h.subject', h.expiresAt, h.issuedAt, h.notBefore, h.issuer, h.audience, h.all,
    h.all', hlength]
  rfl

theorem agree_check (hp : Twins p p' s s') (h : Claims.Twins p p' s s' c c') (policy : Policy)
    (now : Int) :
    Agree (fun checked checked' => ∃ expiresAt, checked = (s, expiresAt)
      ∧ checked' = (s', expiresAt)) (policy.check c now) (policy.check c' now) := by
  have hexpiry : policy.checkExpiry c now = policy.checkExpiry c' now := by
    rw [Policy.checkExpiry, Policy.checkExpiry, h.expiresAt]
  have hstart : policy.checkStart c now = policy.checkStart c' now := by
    rw [Policy.checkStart, Policy.checkStart, h.notBefore]
  have hissuer : policy.checkIssuer c = policy.checkIssuer c' := by
    rw [Policy.checkIssuer, Policy.checkIssuer, h.issuer]
  have haudience : policy.checkAudience c = policy.checkAudience c' := by
    rw [Policy.checkAudience, Policy.checkAudience, h.audience]
  have hsubject : Policy.checkSubject c = .ok s :=
    Policy.checkSubject_eq_ok_iff.mpr ⟨h.subject, hp.nonempty⟩
  have hsubject' : Policy.checkSubject c' = .ok s' :=
    Policy.checkSubject_eq_ok_iff.mpr ⟨h.subject', hp.nonempty'⟩
  unfold Policy.check
  rw [hexpiry, hstart, hissuer, haudience, hsubject, hsubject']
  apply Agree.bind_same
  intro expiresAt
  iterate 3
    apply Agree.bind_same
    intro _
  exact .ok ⟨expiresAt, rfl, rfl⟩

theorem get?_of_twins (hp : Twins p p' s s') (h : Claims.Twins p p' s s' c c') {claim : String}
    (hclaim : claim ≠ "sub") : c.get? claim = c'.get? claim := by
  rw [Claims.get?, Claims.get?, h.all, h.all']
  exact hp.others claim hclaim

/-! ## examinations side by side -/

namespace Gate

open Traced

variable {g : Gate} {realm : Realm} {now : Int} {raw raw' : String}

theorem alike_confirm (hrealm : realm s = realm s') (own : Roles) :
    Alike Eq (g.confirm realm s own) (g.confirm realm s' own) := by
  unfold confirm
  split
  · split
    · have hasked : Signal.events [.consulted s] = Signal.events [.consulted s'] := rfl
      apply (alike_emit hasked).bind
      intro _ _ _
      apply (alike_ofExcept _ (Agree.of_eq hrealm)).bind
      rintro record _ rfl
      split
      · exact alike_pure rfl
      · exact alike_refuse _
    · exact alike_refuse _
  · exact alike_pure rfl

/-- outcomes in favour of the two subjects, the same otherwise -/
def AcceptedTwins (s s' : String) (o o' : Outcome) : Prop :=
  ∃ roles expiresAt, o = .accept s roles expiresAt ∧ o' = .accept s' roles expiresAt

theorem alike_judge (h : Twins p p' s s') (hrealm : realm s = realm s')
    (hclaim : g.roleClaim.claim ≠ "sub") :
    Alike (AcceptedTwins s s') (g.judge realm p now) (g.judge realm p' now) := by
  unfold judge
  apply (alike_ofExcept _ (agree_ofPayload h)).bind
  intro c c' htwins
  have hget := get?_of_twins h htwins hclaim
  have hread : g.roleClaim.read c = g.roleClaim.read c' := by
    rw [RoleClaim.read, RoleClaim.read, hget]
  have hevents : g.roleClaim.events c = g.roleClaim.events c' := by
    rw [RoleClaim.events, RoleClaim.events, hget]
  rw [hread, hevents]
  apply (alike_ofExcept _ (agree_check h htwins g.policy now)).bind
  rintro _ _ ⟨expiresAt, rfl, rfl⟩
  apply (alike_emit rfl).bind
  intro _ _ _
  apply (alike_confirm hrealm _).bind
  rintro roles _ rfl
  exact alike_pure ⟨roles, expiresAt, rfl, rfl⟩

theorem alike_authentic {token token' : Token} (hd : Token.decode raw = .ok token)
    (hd' : Token.decode raw' = .ok token') (halgorithm : token.algorithm = token'.algorithm)
    (hverify : g.verification.verify (bytes token.signingInput) token.signature token.algorithm
      = g.verification.verify (bytes token'.signingInput) token'.signature token'.algorithm) :
    Alike (fun t t' => t = token ∧ t' = token') (g.authentic raw) (g.authentic raw') := by
  have hdecode : Agree (fun t t' => t = token ∧ t' = token') (Token.decode raw)
      (Token.decode raw') := by
    rw [hd, hd']
    exact .ok ⟨rfl, rfl⟩
  unfold authentic
  apply (alike_ofExcept _ hdecode).bind
  rintro _ _ ⟨rfl, rfl⟩
  apply (alike_emit rfl).bind
  intro _ _ _
  rw [hverify, halgorithm]
  apply (alike_ofExcept _ (Agree.of_eq rfl)).bind
  intro _ _ _
  exact alike_pure ⟨rfl, rfl⟩

/-- two tokens that name the same algorithm and type, with payloads that differ in the subject -/
structure Pair (g : Gate) (realm : Realm) (raw raw' : String) (token token' : Token)
    (s s' : String) : Prop where
  first : Token.decode raw = .ok token
  second : Token.decode raw' = .ok token'
  algorithm : token.algorithm = token'.algorithm
  type : token.type? = token'.type?
  payloads : Twins token.payload token'.payload s s'
  /-- the verifier finds the same -/
  verified : g.verification.verify (bytes token.signingInput) token.signature token.algorithm
    = g.verification.verify (bytes token'.signingInput) token'.signature token'.algorithm
  /-- the identity store answers the same -/
  confirmed : realm s = realm s'

theorem alike_examine {token token' : Token} (h : g.Pair realm raw raw' token token' s s')
    (hclaim : g.roleClaim.claim ≠ "sub") (now : Int) :
    Alike (AcceptedTwins s s') (g.examine realm raw now) (g.examine realm raw' now) := by
  rw [examine_eq, examine_eq]
  apply (alike_authentic h.first h.second h.algorithm h.verified).bind
  rintro _ _ ⟨rfl, rfl⟩
  exact alike_judge h.payloads h.confirmed hclaim

/-! ## outcomes and diagnostics -/

/-- nothing but the subjects tells the outcomes apart, and subjects are not shown -/
structure SameButSubject (o o' : Outcome) : Prop where
  same : o' = { o with subject := o'.subject }
  shown : o.shown = o'.shown
  decision : o.decision.shown = o'.decision.shown

theorem sameButSubject_outcome {t t' : Traced Outcome} (h : Alike (AcceptedTwins s s') t t') :
    SameButSubject t.outcome t'.outcome := by
  obtain ⟨l, x⟩ := t
  obtain ⟨k, y⟩ := t'
  obtain ⟨_, hresult⟩ := h
  dsimp only at hresult
  cases hresult with
  | ok htwins =>
    obtain ⟨roles, expiresAt, rfl, rfl⟩ := htwins
    exact ⟨rfl, rfl, rfl⟩
  | error r => exact ⟨rfl, rfl, rfl⟩

theorem ordered_of_parts {t : Token.Parts} (h : t.Of raw) :
    (Members.names t.payload).Pairwise (· < ·) := by
  have hobject := h.payload
  unfold Token.object at hobject
  split at hobject
  · cases hobject
  · split at hobject
    · cases hobject
    · next hbytes =>
      cases hobject
      exact Json.ordered_of_ofBytes? hbytes
    · cases hobject

theorem ordered_of_decode {token : Token} (h : Token.decode raw = .ok token) :
    (Members.names token.payload).Pairwise (· < ·) := by
  obtain ⟨t, a, ht, _, rfl⟩ := Token.decode_eq_ok_iff.mp h
  exact ordered_of_parts ht

theorem shown_of_payloads {token token' : Token} (h : g.Pair realm raw raw' token token' s s') :
    (Claims.ofPayload token.payload).map Claims.shown
      = (Claims.ofPayload token'.payload).map Claims.shown := by
  have hlength : token.payload.length = token'.payload.length :=
    Members.length_eq_of_names (ordered_of_decode h.first) (ordered_of_decode h.second)
      h.payloads.names
  exact (agree_ofPayload h.payloads).map_eq fun _ _ htwins => shown_of_twins hlength htwins

/-- two tokens that differ in their subjects leave the same events, their outcomes are the same but
for the subjects, and neither outcomes nor claims look different in diagnostics -/
theorem subject_untold {token token' : Token} (h : g.Pair realm raw raw' token token' s s')
    (hclaim : g.roleClaim.claim ≠ "sub") (now : Int) :
    Signal.events (g.examine realm raw now).signals
        = Signal.events (g.examine realm raw' now).signals
      ∧ SameButSubject (g.validate realm raw now) (g.validate realm raw' now)
      ∧ (Claims.ofPayload token.payload).map Claims.shown
        = (Claims.ofPayload token'.payload).map Claims.shown := by
  have hexamine := alike_examine h hclaim now
  exact ⟨hexamine.events, sameButSubject_outcome hexamine, shown_of_payloads h⟩

/-- a header that names a key as well -/
def keyedHead (kid : String) : Members :=
  [("alg", .str "HS256"), ("kid", .str kid), ("typ", .str "JWT")]

/-- claims that differ in the subject -/
def sampleDraft (subject : String) : Draft := (Draft.start 0).forSubject subject

def sampleInput (kid subject : String) : String :=
  Draft.signingInput (.obj (keyedHead kid)) (sampleDraft subject).claims

/-- their signature under the key of the sample -/
def sampleMac (kid subject : String) : List UInt8 :=
  Digest.Hash.sha256.mac [115, 101, 99, 114, 101, 116] (bytes (sampleInput kid subject))

def sampleSealed (kid subject : String) : String :=
  (sampleDraft subject).issuedText (.obj (keyedHead kid)) (sampleMac kid subject)

def sampleParts (kid subject : String) : Token.Parts :=
  Draft.issuedParts (.obj (keyedHead kid)) (keyedHead kid) (sampleMac kid subject)
    (sampleDraft subject)

def sampleDecoded (kid subject : String) : Token :=
  (sampleParts kid subject).token (sampleSealed kid subject) .hs256

def sampleCrew : Realm :=
  ((Directory.empty.insert "user1" ["admin"]).insert "user2" ["admin"]).realm

theorem heads_keyed {kid : String} (h : Draft.Portable (keyedHead kid)) :
    Draft.Heads (.obj (keyedHead kid)) (keyedHead kid) := h.ofBytes?

theorem decode_sample {kid subject : String} (hh : Draft.Portable (keyedHead kid))
    (hc : Draft.Portable (sampleDraft subject).claims)
    (hsize : (sampleSealed kid subject).utf8ByteSize ≤ Token.maxSize) :
    Token.decode (sampleSealed kid subject) = .ok (sampleDecoded kid subject) :=
  Draft.decode_issuedText (heads_keyed hh) rfl hc (Draft.mac_ne_nil _ _ _) hsize

theorem algorithm_sample (kid subject : String) :
    (sampleDecoded kid subject).algorithm = .hs256 := rfl

theorem type_sample (kid subject : String) :
    (sampleDecoded kid subject).type? = some "JWT" := rfl

theorem verify_sample (kid subject : String) :
    sample.verification.verify (bytes (sampleDecoded kid subject).signingInput)
      (sampleDecoded kid subject).signature (sampleDecoded kid subject).algorithm = .ok () := by
  have hfamily : Algorithm.hs256.family = .hmac .sha256 := rfl
  have hinput : (sampleDecoded kid subject).signingInput = sampleInput kid subject :=
    Draft.signingInput_issuedParts
  rw [hinput]
  exact Draft.verify_mac hfamily _ _

theorem twins_sample {kid kid' subject subject' : String} (h : subject ≠ "") (h' : subject' ≠ "") :
    Twins (sampleDecoded kid subject).payload (sampleDecoded kid' subject').payload subject
      subject' where
  subject := Members.get?_put_self ..
  subject' := Members.get?_put_self ..
  nonempty := h
  nonempty' := h'
  others := fun _ hname =>
    (Members.get?_put_of_ne hname.symm ..).trans (Members.get?_put_of_ne hname.symm ..).symm

theorem decode_samples :
    Token.decode (sampleSealed "1" "user1") = .ok (sampleDecoded "1" "user1")
      ∧ Token.decode (sampleSealed "2" "user2") = .ok (sampleDecoded "2" "user2") := by
  constructor
  · refine decode_sample ?_ ?_ (by decide +kernel) <;> constructor <;> decide +kernel
  · refine decode_sample ?_ ?_ (by decide +kernel) <;> constructor <;> decide +kernel

/-- the two headers name different keys -/
theorem pair_sample :
    sample.Pair sampleCrew (sampleSealed "1" "user1") (sampleSealed "2" "user2")
      (sampleDecoded "1" "user1") (sampleDecoded "2" "user2") "user1" "user2" := by
  obtain ⟨hfirst, hsecond⟩ := decode_samples
  constructor
  case first => exact hfirst
  case second => exact hsecond
  case algorithm => rw [algorithm_sample, algorithm_sample]
  case type => rw [type_sample, type_sample]
  case payloads => exact twins_sample (by decide) (by decide)
  case verified => rw [verify_sample, verify_sample]
  case confirmed => rfl

theorem subject_untold_of_sample :
    sample.Pair sampleCrew (sampleSealed "1" "user1") (sampleSealed "2" "user2")
        (sampleDecoded "1" "user1") (sampleDecoded "2" "user2") "user1" "user2"
      ∧ (sampleParts "1" "user1").head ≠ (sampleParts "2" "user2").head
      ∧ sample.roleClaim.claim ≠ "sub"
      ∧ Signal.events (sample.examine sampleCrew (sampleSealed "1" "user1") 0).signals
        = Signal.events (sample.examine sampleCrew (sampleSealed "2" "user2") 0).signals
      ∧ SameButSubject (sample.validate sampleCrew (sampleSealed "1" "user1") 0)
        (sample.validate sampleCrew (sampleSealed "2" "user2") 0) := by
  have hhead : (sampleParts "1" "user1").head ≠ (sampleParts "2" "user2").head := by
    intro h
    have hkid := congrArg (fun m => (Members.get? m "kid").bind Json.str?) h
    exact absurd hkid (by decide)
  have hclaim : sample.roleClaim.claim ≠ "sub" := by decide
  obtain ⟨hevents, houtcome, _⟩ := subject_untold pair_sample hclaim 0
  exact ⟨pair_sample, hhead, hclaim, hevents, houtcome⟩

end Gate

end TokenGate
