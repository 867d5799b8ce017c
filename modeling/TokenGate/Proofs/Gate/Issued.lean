import TokenGate.Proofs.Gate.Authentic
import TokenGate.Proofs.Gate.Provenance

/-!
# Tokens that are made and presented

* `kind_of_judge_error`     a payload is never turned away for structure of the token or signature;
* `signHmac_round_trip`     what is made with a secret is decoded to what it was made from, is
                            vouched for by the key of that secret, and is decided on by its claims;
* `signHmac_embedded`       unless an object among the claims starts with the reserved name.
-/

namespace TokenGate.Gate

open Checks
open Digest (Hash)
open Text
open Traced (result_bind result_ofExcept result_emit result_pure)

variable {g : Gate} {realm : Realm} {raw : String} {now : Int} {payload : Members}

/-! ## decisions on authentic tokens -/

theorem kind_of_confirm_error {subject : String} {own : Roles} {r : Refusal}
    (h : (g.confirm realm subject own).result = .error r) :
    r.kind = .identityStoreUnavailable ∨ r.kind = .unknownSubject := by
  unfold confirm at h
  by_cases hr : g.realmRequired = true
  swap
  · rw [if_neg hr] at h
    cases h
  by_cases hs : g.hasRealm = true
  swap
  · rw [if_pos hr, if_neg hs] at h
    cases h
    exact .inl rfl
  simp only [hr, hs, ↓reduceIte, result_bind, result_ofExcept, result_emit, ok_bind,
    bind_eq_error_iff, mapError_eq_error_iff] at h
  rcases h with ⟨f, _, rfl⟩ | ⟨record, _, h⟩
  · exact .inl rfl
  · by_cases hk : record.known = true
    · rw [if_pos hk] at h
      cases h
    · rw [if_neg hk] at h
      cases h
      exact .inr rfl

theorem kind_of_judge_error {r : Refusal} (h : (g.judge realm payload now).result = .error r) :
    r.kind ≠ .unsupportedAlgorithm ∧ r.kind ≠ .invalidSignature := by
  simp only [judge, result_bind, result_ofExcept, result_emit, result_pure, ok_bind,
    bind_eq_error_iff, mapError_eq_error_iff] at h
  rcases h with ⟨f, _, rfl⟩ | ⟨c, _, ⟨f, _, rfl⟩ | ⟨p, _, h | ⟨roles, _, h⟩⟩⟩
  · simp [Refusal.kind, Claims.Fault.kind]
  · cases f <;> simp [Refusal.kind, Policy.Fault.kind]
  · rcases kind_of_confirm_error h with hk | hk <;> simp [hk]
  · cases h

theorem kind_of_judge_rejection (hg : g.Sound) {r : Rejection}
    (h : (g.judge realm payload now).outcome.decision = .rejected r) :
    r.kind ≠ .unsupportedAlgorithm ∧ r.kind ≠ .invalidSignature := by
  unfold Traced.outcome at h
  cases hj : (g.judge realm payload now).result with
  | error f =>
    rw [hj] at h
    cases h
    exact kind_of_judge_error hj
  | ok o =>
    obtain ⟨_, subject, expiresAt, roles, _, _, _, rfl⟩ := (judge_eq_ok_iff hg).mp hj
    rw [hj] at h
    cases h

/-! ## tokens made with a secret -/

variable {d : Draft} {a : Algorithm} {h : Hash} {secret : List UInt8}

/-- the key of settings whose secret is given in base64 -/
theorem verification_of_secret {s : Settings} {hasRealm : Bool} (hb : build s hasRealm none = .ok g)
    {text : String} (hs : s.secretKey = some text) {key : Key}
    (hk : Key.ofSecretText text = .ok key) : g.verification = .key key := by
  have hver : s.key.map Verification.key = .ok g.verification := (follows_of_build hb).verification
  have hkey : s.key = .ok key := by
    unfold Settings.key
    rw [hs]
    cases hp : s.publicKey with
    | none =>
      show (Key.ofSecretText text).mapError Settings.Fault.key = _
      rw [hk]
      rfl
    | some other =>
      exfalso
      unfold Settings.key at hver
      rw [hs, hp] at hver
      cases hver
  rw [hkey] at hver
  exact (Except.ok.inj hver).symm

/-- what is made with a secret from claims that can be read back is decoded to these claims, is
vouched for by the key of the secret, and is decided on by the claims alone -/
theorem signHmac_round_trip (ha : a.family = .hmac h) (hsecret : secret ≠ [])
    (hc : Draft.Portable d.claims) :
    ∃ raw, d.signHmac a secret = .ok raw ∧ (raw.utf8ByteSize ≤ Token.maxSize →
      ∃ token, Draft.MadeFrom token a d raw
        ∧ ∀ lead trail : String, (∀ c ∈ lead.toList, isBlank c = true) →
          (∀ c ∈ trail.toList, isBlank c = true) →
          ∃ key, Key.ofSecretText (lead ++ Base64.encodeText Base64.standard secret ++ trail)
              = .ok key
            ∧ key.verify (bytes token.signingInput) token.signature token.algorithm = .ok ()
            ∧ ∀ (s : Settings) (hasRealm : Bool) (g : Gate) (realm : Realm) (m : Memo) (now : Int),
              s.secretKey = some (lead ++ Base64.encodeText Base64.standard secret ++ trail) →
              build s hasRealm none = .ok g → m.entries = [] →
              (g.authenticate realm m (some (Credential.header raw)) now).decision
                  = (g.judge realm d.claims now).outcome.decision
                ∧ ∀ r, (g.judge realm d.claims now).outcome.decision = .rejected r →
                  r.kind ≠ .unsupportedAlgorithm ∧ r.kind ≠ .invalidSignature) := by
  refine ⟨d.sealed h secret (Draft.hmacHeader a), by rw [Draft.signHmac, ha], fun hsize => ?_⟩
  obtain ⟨token, hmade, hverify⟩ := Draft.madeFrom_sealed hc ha hsize
  refine ⟨token, hmade, fun lead trail hlead htrail => ?_⟩
  have hkey := Draft.ofSecretText_encode hsecret hlead htrail
  refine ⟨.secret secret, hkey, hverify, fun s hasRealm g realm m now hs hb hm => ?_⟩
  refine ⟨?_, fun r hr => kind_of_judge_rejection (sound_of_build hb) hr⟩
  rw [g.decision_of_empty realm hm (Draft.ofHeader_sealed a h secret d) now,
    validate_of_madeFrom hmade (verification_of_secret hb hs hkey) hverify]

theorem signHmac_round_trip_of_start :
    Algorithm.hs256.family = .hmac .sha256 ∧ Draft.Portable (Draft.start 0).claims
      ∧ ∃ raw token, (Draft.start 0).signHmac .hs256 [115] = .ok raw
        ∧ Draft.MadeFrom token .hs256 (Draft.start 0) raw := by
  have ha : Algorithm.hs256.family = .hmac .sha256 := rfl
  obtain ⟨raw, hraw, h⟩ := signHmac_round_trip ha (List.cons_ne_nil 115 []) Draft.portable_start
  have hsize : raw.utf8ByteSize ≤ Token.maxSize := by
    have hs : ((Draft.start 0).signHmac .hs256 [115]).toOption.all
        (fun t => t.utf8ByteSize.ble Token.maxSize) = true := by decide +kernel
    rw [hraw] at hs
    exact Nat.le_of_ble_eq_true hs
  obtain ⟨token, hmade, _⟩ := h hsize
  exact ⟨ha, Draft.portable_start, raw, token, hraw, hmade⟩

/-- claims with nothing but the reserved name -/
def embeddedDraft : Draft := ⟨0, [(Json.embedName, .null)]⟩

/-- the token of these claims under the secret of one byte `1` -/
def embeddedToken : String :=
  "eyJ0eXAiOiJKV1QiLCJhbGciOiJIUzI1NiJ9.eyIkc2VyZGVfanNvbjo6cHJpdmF0ZTo6UmF3VmFsdWUiOm51bGx9"
    ++ ".tJSa_p0VF7V-k7d4yxoqmJD0OpTZcpBYtZ3cLZjNEyE"

/-- an object that starts with the reserved name is taken for an embedded text -/
theorem signHmac_embedded :
    ¬ ∀ (d : Draft) (a : Algorithm) (h : Hash) (secret : List UInt8) (raw : String),
      a.family = .hmac h → secret ≠ [] → (Json.obj d.claims).all Json.isExact = true →
        (Json.obj d.claims).all Json.isOrdered = true →
        Json.depth (.obj d.claims) ≤ Json.maxDepth → d.signHmac a secret = .ok raw →
        raw.utf8ByteSize ≤ Token.maxSize → ∃ token, Token.decode raw = .ok token := by
  intro hall
  have hsign : embeddedDraft.signHmac .hs256 [1] = .ok embeddedToken := by decide +kernel
  have hfault : (Token.decode embeddedToken).toOption.isSome = false := by decide +kernel
  obtain ⟨token, htoken⟩ := hall embeddedDraft .hs256 .sha256 [1] embeddedToken rfl (by decide)
    rfl rfl (by decide) hsign (by decide +kernel)
  rw [htoken] at hfault
  cases hfault

end TokenGate.Gate
