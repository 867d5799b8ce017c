import TokenGate.Proofs.Gate.Reuse
import TokenGate.Proofs.Gate.Transparency
import TokenGate.Proofs.Token.Structure

/-!
# How soon a subject is locked out

* `Realm.Denies`           the realm does not vouch for a subject: it does not know it, or it does
                           not answer;
* `Token.Reads`            what the payload of a token has under a name; `HasSubject`, `HasExpiry`
                           are this for its subject and its expiry;
* `Grounds.not_denies`     no realm that was asked denies the subject of an accepted token;
* `Gate.Revoked`           from some point on in a run, the realm denies a subject;
* `origin_of_revoked`      what is still remembered of its tokens was left before that point;
* `Gate.Lapsed`            the cap on the time in the memo has passed since, the token has expired,
                           or the memo was cleared;
* `over_of_lapsed`         then nothing that is remembered of the token is valid;
* `revocation_bounded`     so that requests with it are rejected.

It takes two facts: whatever was left after that point has asked the realm, and being handed out
does not make an entry last longer.
-/

namespace TokenGate

/-! ## denial -/

def Realm.Denies (realm : Realm) (subject : String) : Prop :=
  ∀ record, realm subject = .ok record → record.known = false

namespace Token

/-- `raw` is a token whose payload has this value under this name -/
def Reads (raw name : String) (value : Json) : Prop :=
  Is raw fun t => Members.get? t.payload name = some value

theorem Reads.unique {raw name : String} {value other : Json} (h : Reads raw name value)
    (ho : Reads raw name other) : value = other := by
  obtain ⟨t, ht, hv⟩ := h
  have hv' := (is_iff ht).mp ho
  exact Option.some.inj (hv.symm.trans hv')

def HasSubject (raw subject : String) : Prop := Reads raw "sub" (.str subject)

def HasExpiry (raw : String) (expiresAt : Int) : Prop := Reads raw "exp" (.int expiresAt)

theorem HasSubject.unique {raw subject other : String} (h : HasSubject raw subject)
    (ho : HasSubject raw other) : subject = other := Json.str.inj (Reads.unique h ho)

theorem HasExpiry.unique {raw : String} {expiresAt other : Int} (h : HasExpiry raw expiresAt)
    (ho : HasExpiry raw other) : expiresAt = other := Json.int.inj (Reads.unique h ho)

end Token

/-- a sum that is held within 64 bits is not past one that is exact and starts later -/
theorem Seconds.add_le_of_le {a b c : Int} (hac : a ≤ c) (hb : 0 ≤ b) (hc : minimum ≤ c) :
    add a b ≤ c + b := by
  unfold add clamp
  omega

namespace Gate

variable {s : Settings} {hasRealm : Bool} {verifier : Option Verifier} {g : Gate} {realm : Realm}
  {header : Option String} {raw subject : String} {now instant : Int} {before since : List Move}
  {e : Entry}

/-! ## what an acceptance says of the realm -/

section

variable {token : Token} {c : Claims} {roles : Roles} {expiresAt : Int}

theorem Grounds.is_claims (h : g.Grounds realm raw now token c subject roles expiresAt) :
    Token.Is raw fun t => c.Of t.payload := by
  obtain ⟨t, _, ht, _, rfl⟩ := Token.decode_eq_ok_iff.mp h.decoded
  exact ⟨t, ht, h.claims⟩

theorem Grounds.hasSubject (h : g.Grounds realm raw now token c subject roles expiresAt) :
    Token.HasSubject raw subject := by
  obtain ⟨t, ht, hc⟩ := h.is_claims
  obtain ⟨_, _, _, _, hs, _⟩ := Policy.check_eq_ok_iff.mp h.policy
  refine ⟨t, ht, ?_⟩
  show Members.get? t.payload "sub" = _
  rw [hc.subject, hs]
  rfl

theorem Grounds.hasExpiry (h : g.Grounds realm raw now token c subject roles expiresAt) :
    Token.HasExpiry raw expiresAt := by
  obtain ⟨t, ht, hc⟩ := h.is_claims
  obtain ⟨⟨he, _⟩, _⟩ := Policy.check_eq_ok_iff.mp h.policy
  refine ⟨t, ht, ?_⟩
  show Members.get? t.payload "exp" = _
  rw [hc.expiresAt, he]
  rfl

theorem Grounds.not_denies (h : g.Grounds realm raw now token c subject roles expiresAt)
    (hr : g.realmRequired = true) : ¬ realm.Denies subject := by
  intro hd
  have hconfirmed := h.confirmed
  unfold Confirms at hconfirmed
  rw [if_pos hr] at hconfirmed
  obtain ⟨record, hrecord, hknown, _⟩ := hconfirmed
  rw [hd record hrecord] at hknown
  cases hknown

end

/-- a token of a subject that the realm denies does not pass a full validation -/
theorem rejected_of_denies (hg : g.Sound) (hr : g.realmRequired = true)
    (hs : Token.HasSubject raw subject) (hd : realm.Denies subject) (now : Int) :
    ∃ r, (g.validate realm raw now).decision = .rejected r := by
  cases hv : (g.validate realm raw now).decision with
  | rejected r => exact ⟨r, rfl⟩
  | accepted id =>
    obtain ⟨_, _, _, hgr, _⟩ := grounds_of_decision hg hv
    rw [hs.unique hgr.hasSubject] at hd
    exact absurd hd (hgr.not_denies hr)

theorem Stores.not_denies (hg : g.Sound) (hr : g.realmRequired = true)
    (h : g.Stores realm raw instant e) (hs : Token.HasSubject raw subject) :
    ¬ realm.Denies subject := by
  have hacc := h.accepted
  rw [h.outcome] at hacc
  obtain ⟨_, _, _, _, _, hgr, _⟩ := grounds_of_accepted hg hacc
  rw [hs.unique hgr.hasSubject]
  exact hgr.not_denies hr

/-- an entry names the expiry of its token -/
theorem Stores.hasExpiry (hg : g.Sound) (h : g.Stores realm raw instant e) :
    ∃ expiresAt, Token.HasExpiry raw expiresAt ∧ e.validUntil ≤ expiresAt := by
  have hacc := h.accepted
  rw [h.outcome] at hacc
  obtain ⟨_, _, _, _, expiresAt, hgr, hv⟩ := grounds_of_accepted hg hacc
  exact ⟨expiresAt, hgr.hasExpiry, h.le_expiry (by rw [h.outcome, hv]; rfl)⟩

/-! ## a run in which a subject is revoked -/

/-- after the moves `before`, when the clock read `instant`, and during those `since`, the realm
denies the subject -/
structure Revoked (before since : List Move) (instant : Int) (subject : String) : Prop where
  past : ∀ mv ∈ before, ∀ t, mv.instant? = some t → t ≤ instant
  denied : ∀ header now realm, .authenticate header now realm ∈ since → realm.Denies subject
  /-- the clock is read in 64 bits -/
  reading : Seconds.minimum ≤ instant

/-- nothing that was remembered of the token by the instant lasts until `now` -/
def Lapsed (s : Settings) (since : List Move) (raw : String) (instant now : Int) : Prop :=
  (∃ cap, s.ttlCap = some cap ∧ instant + cap < now)
    ∨ (∃ expiresAt, Token.HasExpiry raw expiresAt ∧ expiresAt < now) ∨ .clear ∈ since

theorem Revoked.front {later : List Move} (h : Revoked before (since ++ later) instant subject) :
    Revoked before since instant subject where
  past := h.past
  denied header now realm hm := h.denied header now realm (List.mem_append_left _ hm)
  reading := h.reading

/-- a move that is not one of the later ones is one of the earlier ones, and all later ones come
after it -/
theorem mem_before_of_split {front later : List Move} {mv : Move}
    (h : before ++ since = front ++ mv :: later) (hmv : mv ∉ since) :
    mv ∈ before ∧ since ⊆ later := by
  rcases List.append_eq_append_iff.mp h with ⟨rest, _, hsince⟩ | ⟨rest, hbefore, hlater⟩
  · exact absurd (hsince ▸ List.mem_append_right _ (List.mem_cons_self ..)) hmv
  · cases rest with
    | nil =>
      rw [List.nil_append] at hlater
      exact absurd (hlater ▸ List.mem_cons_self ..) hmv
    | cons first rest =>
      obtain ⟨rfl, rfl⟩ := List.cons.inj hlater
      exact ⟨hbefore ▸ List.mem_append_right _ (List.mem_cons_self ..),
        List.subset_append_right _ _⟩

/-- what is remembered of the token was left before the subject was revoked -/
theorem origin_of_revoked (hg : g.Sound) (hr : g.realmRequired = true)
    (hrev : Revoked before since instant subject) (hs : Token.HasSubject raw subject)
    (he : (raw, e) ∈ (g.memoAfter (before ++ since)).entries) :
    ∃ stored realm, stored ≤ instant ∧ g.Stores realm raw stored e ∧ .clear ∉ since := by
  obtain ⟨front, header, stored, realm, later, hsplit, hclear, _, hst, _⟩ := origin_of_mem he
  have hnot : .authenticate header stored realm ∉ since := fun hm =>
    hst.not_denies hg hr hs (hrev.denied header stored realm hm)
  obtain ⟨hmem, hsub⟩ := mem_before_of_split hsplit hnot
  exact ⟨stored, realm, hrev.past _ hmem stored rfl, hst, fun hc => hclear (hsub hc)⟩

theorem over_of_lapsed (h : build s hasRealm verifier = .ok g) (hr : g.realmRequired = true)
    (hrev : Revoked before since instant subject) (hs : Token.HasSubject raw subject)
    (hl : Lapsed s since raw instant now)
    (he : (raw, e) ∈ (g.memoAfter (before ++ since)).entries) : e.validUntil < now := by
  have hg := sound_of_build h
  obtain ⟨stored, realm, hle, hst, hclear⟩ := origin_of_revoked hg hr hrev hs he
  rcases hl with ⟨cap, hcap, hlate⟩ | ⟨expiresAt, hexp, hlate⟩ | hc
  · rw [← (follows_of_build h).ttlCap] at hcap
    have hpos := hg.cap_pos cap hcap
    have hsum : Seconds.add stored cap ≤ instant + cap :=
      Seconds.add_le_of_le hle (Int.le_of_lt hpos) hrev.reading
    have hcapped := hst.le_cap hcap
    omega
  · obtain ⟨expiresAt', hexp', hvalid⟩ := hst.hasExpiry hg
    rw [hexp.unique hexp'] at hlate
    omega
  · exact absurd hc hclear

/-- once the realm denies a subject, its tokens are rejected as soon as the cap on the time in the
memo has passed, the token has expired or the memo was cleared, whatever other requests there are
and whenever they come -/
theorem revocation_bounded (h : build s hasRealm verifier = .ok g)
    (hr : s.realmRequired = true) (ht : Credential.ofHeader header = .ok raw)
    (hs : Token.HasSubject raw subject)
    (hrev : Revoked before (since ++ [.authenticate header now realm]) instant subject)
    (hl : Lapsed s since raw instant now) :
    ∃ r, (g.authenticate realm (g.memoAfter (before ++ since)) header now).decision
      = .rejected r := by
  have hg := sound_of_build h
  have hreq : g.realmRequired = true := (follows_of_build h).realmRequired.trans hr
  have hd : realm.Denies subject := hrev.denied header now realm (by simp)
  rcases g.decision_cases realm (g.memoAfter (before ++ since)) ht now with
    ⟨e, he, hnow, _⟩ | hv
  · have hover := over_of_lapsed h hreq hrev.front hs hl he
    omega
  · rw [hv]
    exact rejected_of_denies hg hreq hs hd now

/-! the subject of the sample token is revoked right after a request with it -/

theorem hasSubject_sample : Token.HasSubject sampleToken sampleIdentity.subject := by
  obtain ⟨_, _, hgr⟩ :=
    (validate_eq_accept_iff (sound_of_build build_sample)).mp validate_sampleToken
  exact hgr.hasSubject

theorem denies_empty (subject : String) : Directory.empty.realm.Denies subject := by
  intro record h
  cases h
  rfl

theorem revoked_sample (since : List Move)
    (h : ∀ header now realm, .authenticate header now realm ∈ since →
      realm = Directory.empty.realm) :
    Revoked [.authenticate (some sampleHeader) 0 sampleRealm] since 0 sampleIdentity.subject where
  past mv hm t ht := by
    rw [List.mem_singleton.mp hm] at ht
    cases ht
    exact Int.le_refl 0
  denied header now realm hm := by
    rw [h header now realm hm]
    exact denies_empty _
  reading := by decide

/-- the token is still accepted, for it is remembered, but not after the memo was cleared -/
theorem revocation_bounded_of_sample :
    let request := fun now => Move.authenticate (some sampleHeader) now Directory.empty.realm
    let before := [Move.authenticate (some sampleHeader) 0 sampleRealm]
    let decision := fun since now => (sample.authenticate Directory.empty.realm
      (sample.memoAfter (before ++ since)) (some sampleHeader) now).decision
    build Settings.sample true none = .ok sample ∧ Settings.sample.realmRequired = true
      ∧ Credential.ofHeader (some sampleHeader) = .ok sampleToken
      ∧ Token.HasSubject sampleToken sampleIdentity.subject
      ∧ Revoked before ([.clear] ++ [request 10]) 0 sampleIdentity.subject
      ∧ Lapsed Settings.sample [.clear] sampleToken 0 10
      ∧ decision [] 10 = .accepted sampleIdentity ∧ ∃ r, decision [.clear] 10 = .rejected r := by
  intro request before decision
  have hholds := holds_of_opens (sound_of_build build_sample) (by decide) opens_sample
  have hhit := hholds.lookup_eq_hit (by decide) (show (10 : Int) ≤ 3600 by decide)
  have hrev : Revoked before ([.clear] ++ [request 10]) 0 sampleIdentity.subject :=
    revoked_sample _ fun header now realm hm => by
      simp only [List.cons_append, List.nil_append, List.mem_cons, List.not_mem_nil, or_false,
        reduceCtorEq, false_or] at hm
      exact (Move.authenticate.inj hm).2.2
  have hl : Lapsed Settings.sample [.clear] sampleToken 0 10 := .inr (.inr (by simp))
  refine ⟨build_sample, rfl, ofHeader_sampleHeader, hasSubject_sample, hrev, hl, ?_, ?_⟩
  · exact (sample.authenticate_of_hit Directory.empty.realm ofHeader_sampleHeader hhit).1
  · exact revocation_bounded build_sample rfl ofHeader_sampleHeader hasSubject_sample hrev hl

end Gate

end TokenGate
