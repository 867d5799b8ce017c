import TokenGate.Proofs.Gate.Authentic
import TokenGate.Proofs.Json.Integral

/-!
# The verdict on a token

* `Policy.conditions`    what a policy asks of a payload, in order, each with the failure that it
                         comes to otherwise;
* `Gate.conditions`      what a gate asks of the parts of a token, in order;
* `Gate.requirements`    the same as conditions on a text;
* `decides_examine`      an examination ends with the first failure among the requirements;
* `verdict_exact`        the verdict on any text at any instant.

The conditions are about what stands in the payload, and in exact integers.
-/

namespace TokenGate

open Text
open Checks

/-! ## the conditions in their order -/

/-- a payload that is addressed to `name`, alone or among others -/
def Addressed (payload : Members) (name : String) : Prop :=
  Members.get? payload "aud" = some (.str name)
    ∨ ∃ items, Members.get? payload "aud" = some (.arr items) ∧ Json.str name ∈ items

def Policy.conditions (p : Policy) (now : Int) : List (Failure × (Members → Prop)) := [
  (.tokenExpired, fun m =>
    ∃ expiresAt, Members.get? m "exp" = some (.int expiresAt) ∧ now ≤ expiresAt + p.skew),
  (.tokenNotYetValid, fun m =>
    ∀ notBefore, Members.get? m "nbf" = some (.int notBefore) → notBefore - p.skew ≤ now),
  (.issuerMismatch, fun m =>
    ∀ name, p.issuer = some name → name ≠ "" → Members.get? m "iss" = some (.str name)),
  (.audienceMismatch, fun m =>
    ∀ name, p.audience = some name → name ≠ "" → Addressed m name),
  (.missingSubject, fun m =>
    ∃ subject, Members.get? m "sub" = some (.str subject) ∧ subject ≠ "")]

namespace Gate

def realmConditions (g : Gate) (realm : Realm) : List (Failure × (Members → Prop)) := [
  (.identityStoreUnavailable, fun m =>
    g.realmRequired = true → ∀ subject, Members.get? m "sub" = some (.str subject) →
      ∃ record, realm subject = .ok record),
  (.unknownSubject, fun m =>
    g.realmRequired = true → ∀ subject, Members.get? m "sub" = some (.str subject) →
      ∃ record, realm subject = .ok record ∧ record.known = true)]

def payloadConditions (g : Gate) (realm : Realm) (now : Int) :
    List (Failure × (Members → Prop)) :=
  (.malformedToken, Claims.WellTyped) :: (g.policy.conditions now ++ g.realmConditions realm)

def conditions (g : Gate) (realm : Realm) (now : Int) : List (Failure × (Token.Parts → Prop)) :=
  (.malformedToken, fun _ => True)
    :: (.unsupportedAlgorithm, fun t => ∃ a, t.Names a)
    :: (.invalidSignature, fun t =>
      ∃ a, t.Names a ∧ g.verification.verify (bytes t.signingInput) t.signature a = .ok ())
    :: (g.payloadConditions realm now).map fun c => (c.1, fun t => c.2 t.payload)

/-- the conditions on a text: one without the structure of a token meets none of them -/
def requirements (g : Gate) (realm : Realm) (raw : String) (now : Int) :
    List (Failure × Prop) :=
  (g.conditions realm now).map fun c => (c.1, Token.Is raw c.2)

end Gate

/-! ## the policy -/

namespace Policy

variable {p : Policy} {c : Claims} {payload : Members} {now : Int}

theorem meetsExpiry_iff (hc : c.Of payload) (hskew : 0 ≤ p.skew) (hnow : now ≤ Seconds.maximum) :
    (∃ e, Members.get? payload "exp" = some (.int e) ∧ now ≤ e + p.skew)
      ↔ ∃ e, p.checkExpiry c now = .ok e := by
  simp only [checkExpiry_eq_ok_iff, hc.expiresAt, Option.map_eq_some_iff, Json.int.injEq,
    exists_eq_right]
  refine exists_congr fun e => and_congr_right fun he => ?_
  exact (Seconds.le_add_iff (hc.expiryInRange e he).1 hskew hnow).symm

theorem meetsStart_iff (hc : c.Of payload) (hskew : 0 ≤ p.skew) (hskew' : p.skew ≤ maxSkew) :
    (∀ n, Members.get? payload "nbf" = some (.int n) → n - p.skew ≤ now)
      ↔ ∃ u, p.checkStart c now = .ok u := by
  have hmax : p.skew ≤ Seconds.maximum := Int.le_trans hskew' (by decide)
  simp only [checkStart_eq_ok_iff, exists_const, MeetsStart, hc.notBefore,
    Option.map_eq_some_iff, Json.int.injEq, exists_eq_right]
  refine forall_congr' fun n => forall_congr' fun hn => ?_
  obtain ⟨h₀, h₁⟩ := hc.startInRange n hn
  rw [Seconds.sub_eq h₀ h₁ hskew hmax]

theorem meetsIssuer_iff (hc : c.Of payload) :
    (∀ name, p.issuer = some name → name ≠ "" → Members.get? payload "iss" = some (.str name))
      ↔ ∃ u, p.checkIssuer c = .ok u := by
  simp only [checkIssuer_eq_ok_iff, exists_const, MeetsIssuer, hc.issuer, Option.map_eq_some_iff,
    Json.str.injEq, exists_eq_right]

theorem addressed_iff (hc : c.Of payload) {name : String} :
    Addressed payload name ↔ ∃ a, c.audience = some a ∧ name ∈ a.names := by
  unfold Addressed
  rw [hc.audience]
  cases c.audience with
  | none => simp
  | some a => cases a <;> simp [Audience.json, Audience.names, eq_comm]

theorem meetsAudience_iff (hc : c.Of payload) :
    (∀ name, p.audience = some name → name ≠ "" → Addressed payload name)
      ↔ ∃ u, p.checkAudience c = .ok u := by
  simp only [checkAudience_eq_ok_iff, exists_const, MeetsAudience, addressed_iff hc]

theorem meetsSubject_iff (hc : c.Of payload) :
    (∃ subject, Members.get? payload "sub" = some (.str subject) ∧ subject ≠ "")
      ↔ ∃ subject, checkSubject c = .ok subject := by
  simp only [checkSubject_eq_ok_iff, hc.subject, Option.map_eq_some_iff, Json.str.injEq,
    exists_eq_right]

/-! every check of a policy has faults of one kind -/

theorem kind_of_expiry_error {f : Fault} (h : p.checkExpiry c now = .error f) :
    f.kind = .tokenExpired := by
  unfold checkExpiry at h
  split at h
  · cases h; rfl
  · split at h <;> cases h
    rfl

theorem kind_of_start_error {f : Fault} (h : p.checkStart c now = .error f) :
    f.kind = .tokenNotYetValid := by
  unfold checkStart at h
  split at h
  · cases h
  · split at h <;> cases h
    rfl

theorem kind_of_issuer_error {f : Fault} (h : p.checkIssuer c = .error f) :
    f.kind = .issuerMismatch := by
  unfold checkIssuer at h
  split at h
  · cases h
  · split at h <;> cases h
    rfl

theorem kind_of_audience_error {f : Fault} (h : p.checkAudience c = .error f) :
    f.kind = .audienceMismatch := by
  unfold checkAudience at h
  split at h
  · cases h
  · split at h <;> cases h
    rfl

theorem kind_of_subject_error {f : Fault} (h : checkSubject c = .error f) :
    f.kind = .missingSubject := by
  unfold checkSubject at h
  split at h <;> cases h
  rfl

/-- claims are checked in the order of the conditions -/
theorem decides_check (hc : c.Of payload) (hskew : 0 ≤ p.skew) (hskew' : p.skew ≤ maxSkew)
    (hnow : now ≤ Seconds.maximum) :
    Decides ((p.conditions now).map fun k => (k.1, k.2 payload))
      ((p.check c now).mapError Fault.kind) := by
  simp only [check, mapError_bind]
  show Decides (_ :: _ :: _ :: _ :: [_]) _
  refine decides_cons (fun _ => kind_of_expiry_error) (meetsExpiry_iff hc hskew hnow) fun e _ => ?_
  refine decides_cons (fun _ => kind_of_start_error) (meetsStart_iff hc hskew hskew') fun _ _ => ?_
  refine decides_cons (fun _ => kind_of_issuer_error) (meetsIssuer_iff hc) fun _ _ => ?_
  refine decides_cons (fun _ => kind_of_audience_error) (meetsAudience_iff hc) fun _ _ => ?_
  refine decides_cons (fun _ => kind_of_subject_error) (meetsSubject_iff hc) fun subject _ => ?_
  exact decides_nil (subject, e)

end Policy

/-! ## the payload -/

namespace Gate

open Traced (result_bind result_ofExcept result_emit result_pure)

variable {g : Gate} {realm : Realm} {raw : String} {now : Int} {payload : Members}

theorem decides_confirm (hg : g.Sound) {subject : String} (own : Roles)
    (hs : Members.get? payload "sub" = some (.str subject)) :
    Decides ((g.realmConditions realm).map fun k => (k.1, k.2 payload))
      ((g.confirm realm subject own).result.mapError Refusal.kind) := by
  have hsubject : ∀ P : String → Prop,
      (∀ t, Members.get? payload "sub" = some (.str t) → P t) ↔ P subject := by
    intro P
    simp [hs]
  simp only [realmConditions, List.map_cons, List.map_nil, hsubject]
  by_cases hr : g.realmRequired = true
  swap
  · rw [confirm, if_neg hr]
    intro r hm
    simp only [List.mem_cons, List.not_mem_nil, or_false] at hm
    rcases hm with rfl | rfl <;> exact fun h => absurd h hr
  simp only [hr, true_implies, confirm, hg.realm hr, ↓reduceIte, result_bind, result_emit,
    result_ofExcept, ok_bind, mapError_bind, mapError_mapError]
  refine decides_cons (fun _ _ => rfl) Iff.rfl fun record hrec => ?_
  by_cases hk : record.known = true
  · rw [if_pos hk]
    intro r hm
    rw [List.mem_singleton.mp hm]
    exact ⟨record, hrec, hk⟩
  · rw [if_neg hk]
    refine firstFails_cons.mpr (.inl ⟨?_, rfl⟩)
    intro hx
    obtain ⟨record', hrec', hk'⟩ := hx
    rw [hrec] at hrec'
    cases hrec'
    exact hk hk'

theorem decides_judge (hg : g.Sound) (hnow : now ≤ Seconds.maximum) :
    Decides ((g.payloadConditions realm now).map fun k => (k.1, k.2 payload))
      ((g.judge realm payload now).result.mapError Refusal.kind) := by
  simp only [judge, result_bind, result_ofExcept, result_emit, result_pure, mapError_bind,
    mapError_mapError, ok_bind, payloadConditions, List.map_cons, List.map_append]
  refine decides_cons (fun _ _ => rfl) ?_ fun c hc => ?_
  · rw [Claims.wellTyped_iff]
    exact exists_congr fun c => Claims.ofPayload_eq_ok_iff.symm
  · have hc := Claims.ofPayload_eq_ok_iff.mp hc
    refine decides_bind (Policy.decides_check hc hg.skew_nonneg hg.skew_le hnow) ?_
    intro hx hp
    obtain ⟨subject, expiresAt⟩ := hx
    obtain ⟨_, _, _, _, hs, _⟩ := Policy.check_eq_ok_iff.mp (mapError_eq_ok_iff.mp hp)
    have hsub : Members.get? payload "sub" = some (.str subject) := by rw [hc.subject, hs]; rfl
    rw [← List.append_nil (List.map _ _)]
    refine decides_bind (decides_confirm hg _ hsub) fun roles _ => ?_
    exact decides_nil _

/-! ## the whole token -/

theorem decides_decode (raw : String) :
    Decides [
        (.malformedToken, Token.Is raw fun _ => True),
        (.unsupportedAlgorithm, Token.Is raw fun t => ∃ a, t.Names a)]
      ((Token.decode raw).mapError Token.Fault.kind) := by
  cases h : Token.decode raw with
  | error f =>
    rcases Token.kind_of_decode_error h with ⟨hn, hk⟩ | ⟨t, ht, hn, hk⟩
    · refine firstFails_cons.mpr (.inl ⟨?_, hk.symm⟩)
      intro hx
      obtain ⟨t, ht, _⟩ := hx
      exact hn t ht
    · refine firstFails_cons.mpr (.inr ⟨⟨t, ht, trivial⟩, firstFails_cons.mpr (.inl ⟨?_, hk.symm⟩)⟩)
      rw [Token.is_iff ht]
      intro hx
      obtain ⟨a, ha⟩ := hx
      exact hn a ha
  | ok token =>
    obtain ⟨t, a, ht, ha, _⟩ := Token.decode_eq_ok_iff.mp h
    intro r hr
    rcases List.mem_cons.mp hr with rfl | hr
    · exact ⟨t, ht, trivial⟩
    · rw [List.mem_singleton.mp hr]
      exact ⟨t, ht, a, ha⟩

/-- the requirements on the payload of a text with a structure are conditions on what it holds -/
theorem map_is {t : Token.Parts} (ht : t.Of raw) (l : List (Failure × (Members → Prop))) :
    (l.map fun k => (k.1, Token.Is raw fun u => k.2 u.payload)) =
      l.map fun k => (k.1, k.2 t.payload) :=
  List.map_congr_left fun k _ => by rw [propext (Token.is_iff ht)]

theorem decides_authentic (g : Gate) (raw : String) :
    Decides [
        (.malformedToken, Token.Is raw fun _ => True),
        (.unsupportedAlgorithm, Token.Is raw fun t => ∃ a, t.Names a),
        (.invalidSignature, Token.Is raw fun t => ∃ a, t.Names a
          ∧ g.verification.verify (bytes t.signingInput) t.signature a = .ok ())]
      ((g.authentic raw).result.mapError Refusal.kind) := by
  simp only [authentic, result_bind, result_ofExcept, result_emit, result_pure, mapError_bind,
    mapError_mapError, ok_bind]
  show Decides ([_, _] ++ [_]) _
  refine decides_bind (decides_decode raw) fun token htoken => ?_
  obtain ⟨t, a, ht, ha, rfl⟩ := Token.decode_eq_ok_iff.mp (mapError_eq_ok_iff.mp htoken)
  refine decides_cons (fun _ _ => rfl) ?_ fun _ _ => decides_nil _
  rw [Token.is_iff ht]
  constructor
  · intro hx
    obtain ⟨b, hb, hv⟩ := hx
    rw [ha.unique hb]
    exact ⟨(), hv⟩
  · intro hx
    obtain ⟨_, hv⟩ := hx
    exact ⟨a, ha, hv⟩

theorem decides_examine (hg : g.Sound) (hnow : now ≤ Seconds.maximum) :
    Decides (g.requirements realm raw now)
      ((g.examine realm raw now).result.mapError Refusal.kind) := by
  rw [examine_eq, result_bind, mapError_bind]
  show Decides ([_, _, _] ++ _) _
  refine decides_bind (g.decides_authentic raw) fun token htoken => ?_
  obtain ⟨hdecode, _⟩ := authentic_eq_ok_iff.mp (mapError_eq_ok_iff.mp htoken)
  obtain ⟨t, a, ht, _, rfl⟩ := Token.decode_eq_ok_iff.mp hdecode
  have hrest := map_is ht (g.payloadConditions realm now)
  rw [List.map_map]
  refine (congrArg (fun rs => Decides rs _) hrest).mpr ?_
  exact decides_judge hg hnow

/-! ## the verdict -/

theorem validate_eq_reject_iff (hg : g.Sound) (hnow : now ≤ Seconds.maximum) {kind : Failure} :
    g.validate realm raw now = .reject kind ↔
      FirstFails (g.requirements realm raw now) kind := by
  rw [← eq_error_iff (decides_examine hg hnow)]
  cases hx : (g.examine realm raw now).result with
  | error r =>
    rw [validate_of_error hx]
    simp [Outcome.reject, Except.mapError]
  | ok o =>
    obtain ⟨_, _, _, _, _, _, rfl⟩ := (examine_eq_ok_iff hg).mp hx
    rw [validate_of_ok hx]
    simp [Outcome.reject, Outcome.accept, Except.mapError]

theorem validate_accepted_iff (hg : g.Sound) (hnow : now ≤ Seconds.maximum) :
    (g.validate realm raw now).accepted = true ↔ ∀ r ∈ g.requirements realm raw now, r.2 := by
  rw [← isOk_iff (decides_examine hg hnow)]
  cases hx : (g.examine realm raw now).result with
  | error r =>
    rw [validate_of_error hx]
    simp [Outcome.reject, Except.mapError]
  | ok o =>
    obtain ⟨_, _, _, _, _, _, rfl⟩ := (examine_eq_ok_iff hg).mp hx
    rw [validate_of_ok hx]
    simp [Outcome.accept, Except.mapError]

/-- a token is turned away for the first requirement that it does not meet and is accepted if it
meets all of them, on behalf of the subject and until the expiry in its payload, with the roles of
the payload and of the realm; integers are literals without point and exponent -/
theorem verdict_exact {s : Settings} {hasRealm : Bool} {verifier : Option Verifier}
    (h : build s hasRealm verifier = .ok g) (realm : Realm) (raw : String)
    (hnow : now ≤ Seconds.maximum) :
    g.Follows s verifier
      ∧ (∀ kind, g.validate realm raw now = .reject kind ↔
        FirstFails (g.requirements realm raw now) kind)
      ∧ ((g.validate realm raw now).accepted = true ↔
        ∀ r ∈ g.requirements realm raw now, r.2)
      ∧ ((g.validate realm raw now).accepted = true →
        ∃ t c subject roles expiresAt, Token.Parts.Of t raw ∧ Claims.Of c t.payload
          ∧ Members.get? t.payload "sub" = some (.str subject)
          ∧ Members.get? t.payload "exp" = some (.int expiresAt)
          ∧ (∀ role, role ∈ roles ↔ role ∈ g.roleClaim.read c ∨ (g.realmRequired = true
            ∧ ∃ record, realm subject = .ok record ∧ role ∈ record.roles ∧ role ≠ ""))
          ∧ g.validate realm raw now = .accept subject roles expiresAt)
      ∧ ∀ (l : Json.Literal) (n : Int),
        l.value? = some (.int n) ↔ l.Integral ∧ n = l.integer ∧ Json.Literal.Fits n := by
  have hg := sound_of_build h
  refine ⟨follows_of_build h, fun _ => validate_eq_reject_iff hg hnow,
    validate_accepted_iff hg hnow, fun hacc => ?_, fun _ _ => Json.Literal.value?_eq_int_iff⟩
  obtain ⟨token, c, subject, roles, expiresAt, hgr, hv⟩ := grounds_of_accepted hg hacc
  obtain ⟨t, a, ht, _, rfl⟩ := Token.decode_eq_ok_iff.mp hgr.decoded
  have hc : c.Of t.payload := hgr.claims
  obtain ⟨⟨he, _⟩, _, _, _, hs, _⟩ := Policy.check_eq_ok_iff.mp hgr.policy
  refine ⟨t, c, subject, roles, expiresAt, ht, hc, ?_, ?_, hgr.confirmed.mem_iff, hv⟩
  · rw [hc.subject, hs]
    rfl
  · rw [hc.expiresAt, he]
    rfl

/-- the sample token meets all requirements; at a later instant, or before a realm that does not
know its subject, it meets those that come first -/
theorem verdict_exact_of_sample :
    build Settings.sample true none = .ok sample
      ∧ (0 : Int) ≤ Seconds.maximum ∧ (3661 : Int) ≤ Seconds.maximum
      ∧ (∀ r ∈ sample.requirements sampleRealm sampleToken 0, r.2)
      ∧ sample.validate sampleRealm sampleToken 0 = .accept "user1" (.ofList ["admin"]) 3600
      ∧ FirstFails (sample.requirements sampleRealm sampleToken 3661) .tokenExpired
      ∧ FirstFails (sample.requirements Directory.empty.realm sampleToken 0) .unknownSubject
      ∧ FirstFails (sample.requirements sampleRealm "e30.e30" 0) .malformedToken := by
  have hnow : (0 : Int) ≤ Seconds.maximum := by decide
  have hlate : (3661 : Int) ≤ Seconds.maximum := by decide
  obtain ⟨_, _, hmet, _⟩ := verdict_exact build_sample sampleRealm sampleToken hnow
  obtain ⟨_, hexpired, _⟩ := verdict_exact build_sample sampleRealm sampleToken hlate
  obtain ⟨_, hunknown, _⟩ := verdict_exact build_sample Directory.empty.realm sampleToken hnow
  obtain ⟨_, hmalformed, _⟩ := verdict_exact build_sample sampleRealm "e30.e30" hnow
  refine ⟨build_sample, hnow, hlate, hmet.mp ?_, validate_sampleToken, (hexpired _).mp ?_,
    (hunknown _).mp ?_, (hmalformed .malformedToken).mp rfl⟩
  · rw [validate_sampleToken]
    rfl
  · rw [validate_sample]
    decide +kernel
  · rw [validate_sample]
    decide +kernel

end Gate

end TokenGate
