import TokenGate.Proofs.Gate.Provenance
import TokenGate.Proofs.Gate.Signals
import TokenGate.Proofs.Gate.Verdict

/-!
# What stands behind an identity

* `Gate.Genuine`      a text is a token that the key of settings vouches for;
* `Gate.Entitled`     its payload entitles an identity at an instant;
* `Gate.Vetted`       its payload had begun at an instant, when the realm confirmed the subject;
* `Gate.Backed`       a request among the moves, for which the token was vetted, still counts;
* `accepted_sound`    no request is accepted, in whatever history, unless its token is genuine,
                      entitles the identity now, and is backed by that request or an earlier one
                      with that token.

Neither the clock nor the realm is asked for anything: readings may go back and answers may change.
-/

namespace TokenGate

open Text

/-! ## keys -/

/-- the kind of key that an algorithm takes -/
def Algorithm.keyKind (a : Algorithm) : KeyKind :=
  match a.family with
  | .hmac _ => .secret
  | .rsa _ => .rsaPublicKey

theorem Key.kind_of_verify {key : Key} {message signature : List UInt8} {a : Algorithm}
    (h : key.verify message signature a = .ok ()) : key.kind = a.keyKind := by
  unfold Algorithm.keyKind
  cases hf : a.family with
  | hmac _ =>
    cases key with
    | secret _ => rfl
    | rsa _ _ => simp [Key.verify, hf] at h
  | rsa _ =>
    cases key with
    | secret _ => simp [Key.verify, hf] at h
    | rsa _ _ => rfl

namespace Gate

variable {s : Settings} {hasRealm : Bool} {g : Gate} {realm : Realm} {raw : String}
  {now : Int} {token : Token} {c : Claims} {id : Identity} {expiresAt : Int}

/-! ## what is known of an accepted token -/

structure Genuine (s : Settings) (raw : String) (token : Token) (key : Key) : Prop where
  decoded : Token.decode raw = .ok token
  configured : s.key = .ok key
  kind : key.kind = token.algorithm.keyKind
  verified : key.verify (bytes token.signingInput) token.signature token.algorithm = .ok ()

structure Entitled (s : Settings) (payload : Members) (expiresAt now : Int) (id : Identity) :
    Prop where
  wellTyped : Claims.WellTyped payload
  expiry : Members.get? payload "exp" = some (.int expiresAt)
  current : now ≤ expiresAt + s.skew
  issuer : ∀ name, s.issuer = some name → name ≠ "" →
    Members.get? payload "iss" = some (.str name)
  audience : ∀ name, s.audience = some name → name ≠ "" → Addressed payload name
  subject : Members.get? payload "sub" = some (.str id.subject)
  named : id.subject ≠ ""

structure Vetted (s : Settings) (realm : Realm) (payload : Members) (instant : Int)
    (id : Identity) : Prop where
  started : ∀ notBefore, Members.get? payload "nbf" = some (.int notBefore) →
    notBefore - s.skew ≤ instant
  known : s.realmRequired = true →
    ∃ record, realm id.subject = .ok record ∧ record.known = true
  roles : ∃ c : Claims, c.Of payload ∧ ∀ role, role ∈ id.roles ↔
    role ∈ s.roleClaim.read c ∨ (s.realmRequired = true
      ∧ ∃ record, realm id.subject = .ok record ∧ role ∈ record.roles ∧ role ≠ "")

/-- an identity is given out only where there are grounds -/
theorem grounds_of_decision (hg : g.Sound)
    (h : (g.validate realm raw now).decision = .accepted id) :
    ∃ token c expiresAt, g.Grounds realm raw now token c id.subject id.roles expiresAt
      ∧ (g.validate realm raw now).expiresAt = some expiresAt := by
  cases hx : (g.examine realm raw now).result with
  | error r =>
    rw [validate_of_error hx, Outcome.decision_reject] at h
    cases h
  | ok o =>
    obtain ⟨token, c, subject, roles, expiresAt, hgr, rfl⟩ := (examine_eq_ok_iff hg).mp hx
    rw [validate_of_ok hx, Outcome.decision_accept] at h
    cases h
    exact ⟨token, c, expiresAt, hgr, by rw [validate_of_ok hx]; rfl⟩

theorem Grounds.genuine (h : build s hasRealm none = .ok g) {subject : String} {roles : Roles}
    (hgr : g.Grounds realm raw now token c subject roles expiresAt) :
    ∃ key, Genuine s raw token key := by
  have hver : s.key.map Verification.key = .ok g.verification := (follows_of_build h).verification
  cases hk : s.key with
  | error f =>
    rw [hk] at hver
    cases hver
  | ok key =>
    rw [hk] at hver
    have hv : g.verification = .key key := (Except.ok.inj hver).symm
    have hverified := hgr.verified
    rw [hv] at hverified
    exact ⟨key, hgr.decoded, hk, Key.kind_of_verify hverified, hverified⟩

/-- what a validation found remains true as long as the token has not expired -/
theorem Grounds.entitled (h : build s hasRealm none = .ok g)
    (hgr : g.Grounds realm raw now token c id.subject id.roles expiresAt) {later : Int}
    (hlater : later ≤ expiresAt + s.skew) :
    Entitled s token.payload expiresAt later id := by
  have hp : g.policy = s.policy := (follows_of_build h).policy
  have hc := hgr.claims
  obtain ⟨⟨he, _⟩, _, hi, ha, hs, hne⟩ := Policy.check_eq_ok_iff.mp hgr.policy
  have hiss := Policy.meetsIssuer_iff (p := g.policy) hc
  have haud := Policy.meetsAudience_iff (p := g.policy) hc
  rw [hp] at hi ha hiss haud
  exact {
    wellTyped := Claims.wellTyped_iff.mpr ⟨c, hc⟩
    expiry := by rw [hc.expiresAt, he]; rfl
    current := hlater
    issuer := hiss.mpr ⟨(), Policy.checkIssuer_eq_ok_iff.mpr hi⟩
    audience := haud.mpr ⟨(), Policy.checkAudience_eq_ok_iff.mpr ha⟩
    subject := by rw [hc.subject, hs]; rfl
    named := hne }

theorem Grounds.vetted (h : build s hasRealm none = .ok g)
    (hgr : g.Grounds realm raw now token c id.subject id.roles expiresAt) :
    Vetted s realm token.payload now id := by
  have hf := follows_of_build h
  have hg := sound_of_build h
  have hc := hgr.claims
  obtain ⟨_, hst, _⟩ := Policy.check_eq_ok_iff.mp hgr.policy
  have hstart := (Policy.meetsStart_iff hc hg.skew_nonneg hg.skew_le).mpr
    ⟨(), Policy.checkStart_eq_ok_iff.mpr hst⟩
  have hroles := hgr.confirmed.mem_iff
  have hconfirmed := hgr.confirmed
  rw [hf.policy] at hstart
  rw [hf.realmRequired, hf.roleClaim] at hroles
  refine ⟨hstart, fun hr => ?_, c, hc, hroles⟩
  unfold Confirms at hconfirmed
  rw [hf.realmRequired, if_pos hr] at hconfirmed
  obtain ⟨record, hrec, hk, _⟩ := hconfirmed
  exact ⟨record, hrec, hk⟩

/-! ## acceptance -/

/-- one of the moves is a request with the token `raw`, with nothing cleared after it, that was
accepted and for which the token was vetted; unless it is the last move, the token has not expired
at the instant `now` and the cap on the time in the memo is not over -/
def Backed (g : Gate) (s : Settings) (moves : List Move) (raw : String) (payload : Members)
    (expiresAt now : Int) (id : Identity) : Prop :=
  ∃ front header instant realm later,
    moves = front ++ .authenticate header instant realm :: later ∧ .clear ∉ later
      ∧ Credential.ofHeader header = .ok raw
      ∧ (g.authenticate realm (g.memoAfter front) header instant).decision = .accepted id
      ∧ Vetted s realm payload instant id
      ∧ (later ≠ [] → now ≤ expiresAt ∧ ∀ cap, s.ttlCap = some cap →
        now ≤ Seconds.add instant cap ∧ (Seconds.minimum ≤ instant → now ≤ instant + cap))

theorem skew_nonneg (h : build s hasRealm none = .ok g) : 0 ≤ s.skew := by
  have hskew := (sound_of_build h).skew_nonneg
  rw [(follows_of_build h).policy] at hskew
  exact hskew

/-- a request that was validated in full backs itself -/
theorem sound_of_validation (h : build s hasRealm none = .ok g) {before : List Move}
    {header : Option String} (ht : Credential.ofHeader header = .ok raw)
    (hacc : (g.authenticate realm (g.memoAfter before) header now).decision = .accepted id)
    (hv : (g.validate realm raw now).decision = .accepted id) :
    ∃ token key expiresAt, Genuine s raw token key ∧ Entitled s token.payload expiresAt now id
      ∧ g.Backed s (before ++ [.authenticate header now realm]) raw token.payload expiresAt now
        id := by
  obtain ⟨token, c, expiresAt, hgr, _⟩ := grounds_of_decision (sound_of_build h) hv
  obtain ⟨key, hgen⟩ := hgr.genuine h
  obtain ⟨⟨he, hle⟩, _⟩ := Policy.check_eq_ok_iff.mp hgr.policy
  rw [(follows_of_build h).policy] at hle
  have hskew := skew_nonneg h
  have hlow := (hgr.claims.expiryInRange expiresAt he).1
  have hadd : Seconds.add expiresAt s.skew ≤ expiresAt + s.skew :=
    Seconds.add_le (by unfold Seconds.minimum; omega)
  exact ⟨token, key, expiresAt, hgen, hgr.entitled h (Int.le_trans hle hadd),
    before, header, now, realm, [], rfl, List.not_mem_nil, ht, hacc, hgr.vetted h,
    fun hn => absurd rfl hn⟩

/-- an entry that is handed out is backed by the request that left it -/
theorem sound_of_entry (h : build s hasRealm none = .ok g) {before : List Move} {e : Entry}
    (he : (raw, e) ∈ (g.memoAfter before).entries) (hnow : now ≤ e.validUntil)
    (hacc : e.outcome.decision = .accepted id) (header : Option String) :
    ∃ token key expiresAt, Genuine s raw token key ∧ Entitled s token.payload expiresAt now id
      ∧ g.Backed s (before ++ [.authenticate header now realm]) raw token.payload expiresAt now
        id := by
  have hg := sound_of_build h
  obtain ⟨front, header₀, instant, realm₀, later, rfl, hclear, ht₀, hs, hd₀⟩ := origin_of_mem he
  have hv : (g.validate realm₀ raw instant).decision = .accepted id := by
    rw [← hs.outcome, hacc]
  obtain ⟨token, c, expiresAt, hgr, hexp⟩ := grounds_of_decision hg hv
  obtain ⟨key, hgen⟩ := hgr.genuine h
  rw [← hs.outcome] at hexp
  have hlate : now ≤ expiresAt := Int.le_trans hnow (hs.le_expiry hexp)
  have hskew := skew_nonneg h
  have hent := hgr.entitled h (show now ≤ expiresAt + s.skew by omega)
  have hcap : ∀ cap, s.ttlCap = some cap → now ≤ Seconds.add instant cap
      ∧ (Seconds.minimum ≤ instant → now ≤ instant + cap) := by
    intro cap hcap
    rw [← (follows_of_build h).ttlCap] at hcap
    have hpos := hg.cap_pos cap hcap
    have hle := Int.le_trans hnow (hs.le_cap hcap)
    exact ⟨hle, fun hmin => Int.le_trans hle (Seconds.add_le (by omega))⟩
  refine ⟨token, key, expiresAt, hgen, hent, front, header₀, instant, realm₀,
    later ++ [.authenticate header now realm], by simp, fun hm => ?_, ht₀, hd₀.trans hacc,
    hgr.vetted h, fun _ => ⟨hlate, hcap⟩⟩
  rcases List.mem_append.mp hm with hm | hm
  · exact hclear hm
  · simp at hm

theorem accepted_sound (h : build s hasRealm none = .ok g) {before : List Move}
    {header : Option String}
    (hacc : (g.authenticate realm (g.memoAfter before) header now).decision = .accepted id) :
    ∃ raw token key expiresAt, Credential.ofHeader header = .ok raw
      ∧ Genuine s raw token key ∧ Entitled s token.payload expiresAt now id
      ∧ g.Backed s (before ++ [.authenticate header now realm]) raw token.payload expiresAt now
        id := by
  cases ht : Credential.ofHeader header with
  | error f =>
    rw [(g.authenticate_of_error realm _ ht now).1, Outcome.decision_reject] at hacc
    cases hacc
  | ok raw =>
    rcases g.decision_cases realm (g.memoAfter before) ht now with ⟨e, he, hnow, hd⟩ | hd
    · rw [hd] at hacc
      obtain ⟨token, key, expiresAt, hsound⟩ := sound_of_entry h he hnow hacc header
      exact ⟨raw, token, key, expiresAt, rfl, hsound⟩
    · obtain ⟨token, key, expiresAt, hsound⟩ := sound_of_validation h ht hacc (hd ▸ hacc)
      exact ⟨raw, token, key, expiresAt, rfl, hsound⟩

theorem decision_sampleHeader :
    (sample.authenticate sampleRealm (sample.memoAfter []) (some sampleHeader) 0).decision
      = .accepted sampleIdentity :=
  (sample.decision_of_empty sampleRealm rfl ofHeader_sampleHeader 0).trans
    (congrArg Outcome.decision validate_sampleToken)

theorem lookup_sampleToken :
    ((sample.memoAfter [.authenticate (some sampleHeader) 0 sampleRealm]).lookup sampleToken 10).1
      = .hit ⟨.accept sampleIdentity.subject sampleIdentity.roles 3600, 0, 3600⟩ := by
  have hmiss : ∀ e, ((sample.memoAfter []).lookup sampleToken 0).1 ≠ .hit e := by
    intro e he
    cases he
  have hmemo := (sample.authenticate_of_fresh sampleRealm ofHeader_sampleHeader hmiss).2.1
  rw [memoAfter_first, hmemo, validate_sampleToken]
  rfl

/-- the second request with a token is accepted on the strength of the first -/
theorem accepted_sound_of_sample :
    build Settings.sample true none = .ok sample
      ∧ (sample.authenticate Directory.empty.realm
          (sample.memoAfter [.authenticate (some sampleHeader) 0 sampleRealm])
          (some sampleHeader) 10).decision = .accepted ⟨"user1", .ofList ["admin"]⟩
      ∧ ∃ raw token key expiresAt, Genuine Settings.sample raw token key
        ∧ Entitled Settings.sample token.payload expiresAt 10 ⟨"user1", .ofList ["admin"]⟩ := by
  have hacc : (sample.authenticate Directory.empty.realm
      (sample.memoAfter [.authenticate (some sampleHeader) 0 sampleRealm])
      (some sampleHeader) 10).decision = .accepted ⟨"user1", .ofList ["admin"]⟩ :=
    (sample.authenticate_of_hit _ ofHeader_sampleHeader lookup_sampleToken).1
  obtain ⟨raw, token, key, expiresAt, _, hgen, hent, _⟩ := accepted_sound build_sample hacc
  exact ⟨build_sample, hacc, raw, token, key, expiresAt, hgen, hent⟩

end Gate

end TokenGate
