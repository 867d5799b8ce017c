import TokenGate.Proofs.Gate.Soundness
import TokenGate.Proofs.Gate.Uses

/-!
# How long an acceptance is reused

* `Gate.reusableUntil`     the last instant of reuse: the expiry of the token or the end of the cap
                           on the time in the memo, whichever is earlier;
* `Gate.Opens`             a request that accepts a token by a full validation before it expires;
* `Gate.Undisturbed`       moves after it that leave its entry in place: nothing is cleared, the
                           token is not presented too late, and not too many other tokens are
                           accepted between two requests with it;
* `Gate.Holds`             the memo has one entry for the token, behind those of certain tokens;
* `holds_of_opens`, `holds_same`, `holds_other`   how it comes about and what keeps it;
* `Gate.HoldsSince`        it is behind those that were accepted since the last request with the
                           token, which all such moves keep (`holdsSince_of_undisturbed`);
* `reuse_window`           until then the decision is repeated without any call, and after that the
                           token is validated in full.

The clock may go back, to before the first request even.
-/

namespace TokenGate.Gate

open Answered (rivals)
open Signal

variable {s : Settings} {hasRealm : Bool} {verifier : Option Verifier} {g : Gate} {realm : Realm}
  {header : Option String} {raw : String} {now instant expiresAt limit : Int} {id : Identity}
  {e : Entry} {newer : Finset String} {before since moves : List Move} {first mv : Move}

/-! ## the window -/

/-- sums are exact here -/
def reusableUntil (g : Gate) (instant expiresAt : Int) : Int :=
  match g.ttlCap with
  | some cap => min expiresAt (instant + cap)
  | none => expiresAt

theorem validUntil_eq (hg : g.Sound) (hlow : Seconds.minimum ≤ instant)
    (hmax : expiresAt ≤ Seconds.maximum) :
    g.validUntil instant expiresAt = g.reusableUntil instant expiresAt := by
  unfold validUntil reusableUntil
  cases hc : g.ttlCap with
  | none => rfl
  | some cap =>
    have hpos := hg.cap_pos cap hc
    show min expiresAt (Seconds.clamp (instant + cap)) = min expiresAt (instant + cap)
    unfold Seconds.clamp
    omega

theorem le_reusableUntil (hg : g.Sound) (h : instant ≤ expiresAt) :
    instant ≤ g.reusableUntil instant expiresAt := by
  unfold reusableUntil
  cases hc : g.ttlCap with
  | none => exact h
  | some cap =>
    have hpos := hg.cap_pos cap hc
    show instant ≤ min expiresAt (instant + cap)
    omega

structure Opens (g : Gate) (before : List Move) (header : Option String) (instant : Int)
    (realm : Realm) (raw : String) (id : Identity) (expiresAt : Int) : Prop where
  token : Credential.ofHeader header = .ok raw
  accepted : (g.authenticate realm (g.memoAfter before) header instant).decision = .accepted id
  validated : .verified ∈ (g.authenticate realm (g.memoAfter before) header instant).signals
  expiry : ∃ token, Token.decode raw = .ok token
    ∧ Members.get? token.payload "exp" = some (.int expiresAt)
  current : instant ≤ expiresAt
  /-- the clock is read in 64 bits -/
  reading : Seconds.minimum ≤ instant

structure Undisturbed (g : Gate) (before : List Move) (first : Move) (since : List Move)
    (raw : String) (limit : Int) : Prop where
  uncleared : .clear ∉ since
  timely : ∀ header now realm, .authenticate header now realm ∈ since →
    Credential.ofHeader header = .ok raw → now ≤ limit
  /-- whatever stands between a request with the token and the next one -/
  uncrowded : ∀ front mv between back, first :: since = front ++ mv :: (between ++ back) →
    mv.token? = some raw → (∀ other ∈ between, other.token? ≠ some raw) →
    (g.acceptedTokens (g.memoAfter (before ++ (front ++ [mv]))) between).toFinset.card < g.capacity

/-- moves that are fewer than there is room for cannot crowd a token out -/
theorem undisturbed_of_few (hlen : since.length < g.capacity) (hclear : .clear ∉ since)
    (htimely : ∀ header now realm, .authenticate header now realm ∈ since →
      Credential.ofHeader header = .ok raw → now ≤ limit) :
    g.Undisturbed before first since raw limit where
  uncleared := hclear
  timely := htimely
  uncrowded front mv between back he _ _ := by
    have hle := g.card_acceptedTokens_le (g.memoAfter (before ++ (front ++ [mv]))) between
    have hsplit := congrArg List.length he
    simp only [List.length_cons, List.length_append] at hsplit
    omega

theorem Undisturbed.front (h : g.Undisturbed before first (since ++ [mv]) raw limit) :
    g.Undisturbed before first since raw limit where
  uncleared hc := h.uncleared (List.mem_append_left _ hc)
  timely header now realm hm := h.timely header now realm (List.mem_append_left _ hm)
  uncrowded front last between back he := by
    refine h.uncrowded front last between (back ++ [mv]) ?_
    rw [← List.cons_append, he]
    simp only [List.append_assoc, List.cons_append]

/-! ## the entry -/

structure Holds (g : Gate) (moves : List Move) (raw : String) (e : Entry)
    (newer : Finset String) : Prop where
  only : ∀ e', (raw, e') ∈ (g.memoAfter moves).entries → e' = e
  within : (g.memoAfter moves).Within raw newer

theorem Holds.lookup_eq (h : g.Holds moves raw e newer) (hpos : 0 < g.capacity) (now : Int) :
    ((g.memoAfter moves).lookup raw now).1 = if e.validUntil < now then .stale e else .hit e := by
  have hcap := g.capacity_memoAfter moves
  have hp := h.within.contains
  rcases (g.memoAfter moves).lookup_cases raw now with
    ⟨_, _, hz⟩ | ⟨_, _, ha⟩ | ⟨e', hl, _, hf, hlate⟩ | ⟨e', hl, _, hf, hnow, _⟩
  · omega
  · rw [ha] at hp
    cases hp
  · obtain rfl := h.only e' (Memo.mem_of_find? hf)
    rw [hl, if_pos hlate]
  · obtain rfl := h.only e' (Memo.mem_of_find? hf)
    rw [hl, if_neg (Int.not_lt.mpr hnow)]

theorem Holds.lookup_eq_hit (h : g.Holds moves raw e newer) (hpos : 0 < g.capacity)
    (hnow : now ≤ e.validUntil) : ((g.memoAfter moves).lookup raw now).1 = .hit e := by
  rw [h.lookup_eq hpos, if_neg (Int.not_lt.mpr hnow)]

theorem Holds.lookup_eq_stale (h : g.Holds moves raw e newer) (hpos : 0 < g.capacity)
    (hlate : e.validUntil < now) : ((g.memoAfter moves).lookup raw now).1 = .stale e := by
  rw [h.lookup_eq hpos, if_pos hlate]

theorem Holds.lookup_ne_hit (h : g.Holds moves raw e newer) (hlate : e.validUntil < now)
    (e' : Entry) : ((g.memoAfter moves).lookup raw now).1 ≠ .hit e' := by
  intro hl
  obtain ⟨hm, hnow⟩ := Memo.mem_of_hit hl
  rw [h.only e' hm] at hnow
  omega

theorem holds_of_raises {m : Memo} {u : Use} (hm : m.WellFormed)
    (hf : (m.answered u).effect = .raises raw e) (hmoves : g.memoAfter moves = (m.use u).2) :
    g.Holds moves raw e ∅ := by
  refine ⟨fun e' he => ?_, hmoves ▸ Memo.within_of_raises hm hf⟩
  rw [hmoves, Memo.entries_use hm.bounded, hf] at he
  rcases Memo.mem_of_raises he with ⟨_, he'⟩ | ⟨_, hne⟩
  · exact he'
  · exact absurd rfl hne

/-! ## the first request -/

/-- what a full validation that ends in an identity has found -/
theorem validate_of_decision (hg : g.Sound)
    (h : (g.validate realm raw now).decision = .accepted id) :
    ∃ token expiresAt, Token.decode raw = .ok token ∧ expiresAt ≤ Seconds.maximum
      ∧ Members.get? token.payload "exp" = some (.int expiresAt)
      ∧ g.validate realm raw now = .accept id.subject id.roles expiresAt := by
  obtain ⟨token, c, expiresAt, hgr, _⟩ := grounds_of_decision hg h
  obtain ⟨⟨he, _⟩, _⟩ := Policy.check_eq_ok_iff.mp hgr.policy
  refine ⟨token, expiresAt, hgr.decoded, (hgr.claims.expiryInRange expiresAt he).2, ?_,
    (validate_eq_accept_iff hg).mpr ⟨token, c, hgr⟩⟩
  rw [hgr.claims.expiresAt, he]
  rfl

/-- the entry of a token that was accepted at an instant -/
def entryFor (g : Gate) (id : Identity) (instant expiresAt : Int) : Entry :=
  ⟨.accept id.subject id.roles expiresAt, instant, g.reusableUntil instant expiresAt⟩

theorem Opens.fresh (ho : g.Opens before header instant realm raw id expiresAt) (e : Entry) :
    ((g.memoAfter before).lookup raw instant).1 ≠ .hit e := by
  intro hl
  have hoff := (g.authenticate_of_hit realm ho.token hl).2.2
  exact absurd ho.validated (List.count_eq_zero.mp hoff.unverified)

theorem Opens.validate_eq (hg : g.Sound)
    (ho : g.Opens before header instant realm raw id expiresAt) :
    expiresAt ≤ Seconds.maximum
      ∧ g.validate realm raw instant = .accept id.subject id.roles expiresAt := by
  have hd := (g.authenticate_of_fresh realm ho.token ho.fresh).1
  rw [ho.accepted] at hd
  obtain ⟨token, expiresAt', hdecode, hmax, hexp, hv⟩ := validate_of_decision hg hd.symm
  obtain ⟨token', hdecode', hexp'⟩ := ho.expiry
  obtain rfl : token' = token := Except.ok.inj (hdecode'.symm.trans hdecode)
  obtain rfl : expiresAt = expiresAt' := by simpa using hexp'.symm.trans hexp
  exact ⟨hmax, hv⟩

theorem opens_of_validate (ht : Credential.ofHeader header = .ok raw)
    (hl : ∀ e, ((g.memoAfter before).lookup raw instant).1 ≠ .hit e) (hg : g.Sound)
    (hv : g.validate realm raw instant = .accept id.subject id.roles expiresAt)
    (hcurrent : instant ≤ expiresAt) (hlow : Seconds.minimum ≤ instant) :
    g.Opens before header instant realm raw id expiresAt := by
  obtain ⟨hd, _, front, back, _, _, hs⟩ := g.authenticate_of_fresh realm ht hl
  rw [hv] at hd
  obtain ⟨token, expiresAt', hdecode, _, hexp, hv'⟩ :=
    validate_of_decision hg (congrArg Outcome.decision hv)
  obtain rfl : expiresAt = expiresAt' := by
    have he := hv.symm.trans hv'
    injection he with _ _ _ he
    exact Option.some.inj he
  refine ⟨ht, hd, ?_, ⟨token, hdecode, hexp⟩, hcurrent, hlow⟩
  have hone : verifications (g.examine realm raw instant).signals = 1 := by
    rw [verifications_examine, hdecode]
    rfl
  have hmem : .verified ∈ (g.examine realm raw instant).signals :=
    List.count_pos_iff.mp (by unfold verifications at hone; omega)
  rw [hs]
  simp [hmem]

theorem holds_of_opens (hg : g.Sound) (hpos : 0 < g.capacity)
    (ho : g.Opens before header instant realm raw id expiresAt) :
    g.Holds (before ++ [.authenticate header instant realm]) raw
      (g.entryFor id instant expiresAt) ∅ := by
  obtain ⟨hmax, hv⟩ := ho.validate_eq hg
  -- the lookup comes first, and leaves a memo with the same room
  let looked := ((g.memoAfter before).use (.lookup raw instant)).2
  have hm : looked.WellFormed := Memo.wellFormed_use (g.wellFormed_memoAfter before) _
  have hcap : looked.capacity = g.capacity := by
    rw [Memo.capacity_use, capacity_memoAfter]
  have hstored : (looked.store raw (.accept id.subject id.roles expiresAt) instant
      (g.reusableUntil instant expiresAt)).1.stored = true :=
    Memo.stored_store_iff.mpr ⟨rfl, le_reusableUntil hg ho.current, by omega⟩
  refine holds_of_raises hm (Memo.effect_of_stored hstored) ?_
  rw [memoAfter_concat]
  show (g.authenticate realm (g.memoAfter before) header instant).memo = _
  rw [(g.authenticate_of_fresh realm ho.token ho.fresh).2.1, hv, ← validUntil_eq hg ho.reading hmax]
  rfl

/-! ## the moves after it -/

theorem holds_same (h : g.Holds moves raw e newer) (hpos : 0 < g.capacity)
    (ht : Credential.ofHeader header = .ok raw) (hnow : now ≤ e.validUntil) (realm : Realm) :
    g.Holds (moves ++ [.authenticate header now realm]) raw e ∅ := by
  have hl := h.lookup_eq_hit hpos hnow
  refine holds_of_raises (g.wellFormed_memoAfter moves) (Memo.effect_of_hit hl) ?_
  rw [memoAfter_concat]
  exact (g.authenticate_of_hit realm ht hl).2.1

theorem rivals_uses (hg : g.Sound) (raw : String) (moves : List Move) (mv : Move) :
    rivals raw ((g.memoAfter moves).history (g.uses (g.memoAfter moves) mv))
      ⊆ (g.accepts? (g.memoAfter moves) mv).toList.toFinset := by
  intro t ht
  have htouch := List.mem_toFinset.mp (Finset.mem_of_mem_erase ht)
  rw [touches_uses hg htouch]
  simp

theorem holds_other (hg : g.Sound) (h : g.Holds moves raw e newer) (hmv : mv ≠ .clear)
    (htoken : mv.token? ≠ some raw)
    (hfew : (newer ∪ (g.accepts? (g.memoAfter moves) mv).toList.toFinset).card < g.capacity) :
    g.Holds (moves ++ [mv]) raw e
      (newer ∪ (g.accepts? (g.memoAfter moves) mv).toList.toFinset) := by
  have hsub := Finset.union_subset_union_right (s := newer) (rivals_uses hg raw moves mv)
  have hcap := g.capacity_memoAfter moves
  constructor
  · intro e' he
    rw [memoAfter_concat] at he
    cases mv with
    | clear => exact absurd rfl hmv
    | authenticate header now realm =>
      rcases mem_of_authenticate he with he | ⟨ht, _⟩
      · exact h.only e' he
      · exact absurd (Move.token?_eq_some_iff.mpr ht) htoken
  · rw [memoAfter_concat, memo_move]
    refine Memo.within_mono ?_ hsub
    refine Memo.within_run (g.wellFormed_memoAfter moves) h.within (fun x hx hd => ?_) ?_
    · exact htoken (token_of_drops hx hmv hd)
    · rw [hcap]
      exact Nat.lt_of_le_of_lt (Finset.card_le_card hsub) hfew

/-- after the moves, what is newer than the entry was accepted since the last request with the
token -/
def HoldsSince (g : Gate) (before moves : List Move) (raw : String) (e : Entry) : Prop :=
  ∃ front last between, moves = front ++ last :: between ∧ last.token? = some raw
    ∧ (∀ other ∈ between, other.token? ≠ some raw)
    ∧ g.Holds (before ++ moves) raw e
      (g.acceptedTokens (g.memoAfter (before ++ (front ++ [last]))) between).toFinset

theorem holdsSince_of_holds (htoken : mv.token? = some raw)
    (h : g.Holds (before ++ (moves ++ [mv])) raw e ∅) :
    g.HoldsSince before (moves ++ [mv]) raw e :=
  ⟨moves, mv, [], rfl, htoken, fun _ hm => absurd hm List.not_mem_nil, h⟩

theorem HoldsSince.same (h : g.HoldsSince before moves raw e) (hpos : 0 < g.capacity)
    (ht : Credential.ofHeader header = .ok raw) (hnow : now ≤ e.validUntil) (realm : Realm) :
    g.HoldsSince before (moves ++ [.authenticate header now realm]) raw e := by
  obtain ⟨_, _, _, _, _, _, hholds⟩ := h
  refine holdsSince_of_holds (Move.token?_eq_some_iff.mpr ht) ?_
  rw [← List.append_assoc]
  exact holds_same hholds hpos ht hnow realm

theorem HoldsSince.other (h : g.HoldsSince before moves raw e) (hg : g.Sound) (hmv : mv ≠ .clear)
    (htoken : mv.token? ≠ some raw)
    (hfew : ∀ front last between, moves ++ [mv] = front ++ last :: between →
      last.token? = some raw → (∀ other ∈ between, other.token? ≠ some raw) →
      (g.acceptedTokens (g.memoAfter (before ++ (front ++ [last]))) between).toFinset.card
        < g.capacity) :
    g.HoldsSince before (moves ++ [mv]) raw e := by
  obtain ⟨front, last, between, rfl, hlast, hbetween, hholds⟩ := h
  have hsplit : front ++ last :: between ++ [mv] = front ++ last :: (between ++ [mv]) := by simp
  have hbetween' : ∀ other ∈ between ++ [mv], other.token? ≠ some raw := by
    intro other hm
    rcases List.mem_append.mp hm with hm | hm
    · exact hbetween other hm
    · rwa [List.mem_singleton.mp hm]
  have hstate : (g.run (g.memoAfter (before ++ (front ++ [last]))) between).2.1
      = g.memoAfter (before ++ (front ++ last :: between)) := by
    rw [← memoAfter_append]
    simp
  have hfew := hfew front last (between ++ [mv]) hsplit hlast hbetween'
  refine ⟨front, last, between ++ [mv], hsplit, hlast, hbetween', ?_⟩
  rw [acceptedTokens_concat, hstate, List.toFinset_append] at hfew ⊢
  rw [← List.append_assoc]
  exact holds_other hg hholds hmv htoken hfew

theorem holdsSince_of_undisturbed (hg : g.Sound) (hpos : 0 < g.capacity)
    (ho : g.Opens before header instant realm raw id expiresAt)
    (hu : g.Undisturbed before (.authenticate header instant realm) since raw
      (g.reusableUntil instant expiresAt)) :
    g.HoldsSince before (.authenticate header instant realm :: since) raw
      (g.entryFor id instant expiresAt) := by
  induction since using List.reverseRecOn with
  | nil =>
    show g.HoldsSince before ([] ++ [_]) raw _
    exact holdsSince_of_holds (Move.token?_eq_some_iff.mpr ho.token) (holds_of_opens hg hpos ho)
  | append_singleton since mv ih =>
    have hmv : mv ≠ .clear := fun hc => hu.uncleared (by simp [hc])
    rw [← List.cons_append]
    by_cases htoken : mv.token? = some raw
    · cases mv with
      | clear => exact absurd rfl hmv
      | authenticate header' now realm' =>
        have ht := Move.token?_eq_some_iff.mp htoken
        exact (ih hu.front).same hpos ht (hu.timely header' now realm' (by simp) ht) realm'
    · refine (ih hu.front).other hg hmv htoken fun front last between he hlast hbetween => ?_
      exact hu.uncrowded front last between [] (by simpa using he) hlast hbetween

/-! ## reuse -/

/-- after a token was accepted by a full validation, and as long as its entry is left in place, the
decision is repeated up to the last instant of reuse, with no call to verifier or identity store;
the first request after it is examined in full, and the verifier is called once -/
theorem reuse_window (h : build s hasRealm verifier = .ok g) (hsize : 1 ≤ s.memoSize)
    (ho : g.Opens before header instant realm raw id expiresAt)
    (hu : g.Undisturbed before (.authenticate header instant realm) since raw
      (g.reusableUntil instant expiresAt))
    {header' : Option String} (ht : Credential.ofHeader header' = .ok raw) (now : Int)
    (realm' : Realm) :
    let moves := before ++ .authenticate header instant realm :: since
    let reply := g.authenticate realm' (g.memoAfter moves) header' now
    (now ≤ g.reusableUntil instant expiresAt →
      reply.decision = .accepted id ∧ Offline reply.signals)
    ∧ (g.reusableUntil instant expiresAt < now →
      reply.decision = (g.validate realm' raw now).decision
        ∧ (g.examine realm' raw now).signals <:+: reply.signals
        ∧ verifications reply.signals = 1) := by
  intro moves reply
  have hg := sound_of_build h
  have hpos : 0 < g.capacity := by
    obtain ⟨_, _, _, _, _, rfl⟩ := ofSettings_eq_ok_iff.mp (ofSettings_of_build h)
    exact hsize
  obtain ⟨_, _, _, _, _, _, hholds⟩ := holdsSince_of_undisturbed hg hpos ho hu
  refine ⟨fun hnow => ?_, fun hlate => ?_⟩
  · obtain ⟨hd, _, hoff⟩ := g.authenticate_of_hit realm' ht
      (hholds.lookup_eq_hit hpos hnow)
    exact ⟨hd, hoff⟩
  · obtain ⟨hd, _, front, back, hfront, hback, hs⟩ :=
      g.authenticate_of_fresh realm' ht (hholds.lookup_ne_hit hlate)
    refine ⟨hd, ⟨front, back, hs.symm⟩, ?_⟩
    obtain ⟨token, hdecode, _⟩ := ho.expiry
    show verifications (g.authenticate realm' (g.memoAfter moves) header' now).signals = 1
    rw [hs, verifications_append, verifications_append, hfront.unverified, hback.unverified,
      verifications_examine, hdecode]
    rfl

/-- a request without a token and one with the sample token, before which the clock went back -/
def sampleSince : List Move := [
  .authenticate none 7 Directory.empty.realm,
  .authenticate (some sampleHeader) (-5) Directory.empty.realm]

theorem opens_sample :
    sample.Opens [] (some sampleHeader) 0 sampleRealm sampleToken sampleIdentity 3600 := by
  refine opens_of_validate ofHeader_sampleHeader (fun e he => ?_) (sound_of_build build_sample)
    validate_sampleToken (by decide) (by decide)
  cases he

theorem undisturbed_sample :
    sample.Undisturbed [] (.authenticate (some sampleHeader) 0 sampleRealm) sampleSince sampleToken
      (sample.reusableUntil 0 3600) := by
  refine undisturbed_of_few (by decide) (by simp [sampleSince]) ?_
  intro header now realm hm _
  have hlimit : sample.reusableUntil 0 3600 = 3600 := rfl
  simp only [sampleSince, List.mem_cons, Move.authenticate.injEq, List.not_mem_nil,
    or_false] at hm
  rcases hm with ⟨_, rfl, _⟩ | ⟨_, rfl, _⟩ <;> omega

/-- the sample token is accepted at 3600 without a realm to ask, and examined again at 3601 -/
theorem reuse_window_of_sample :
    let moves := .authenticate (some sampleHeader) 0 sampleRealm :: sampleSince
    let reply := fun now => sample.authenticate Directory.empty.realm (sample.memoAfter moves)
      (some sampleHeader) now
    build Settings.sample true none = .ok sample ∧ 1 ≤ Settings.sample.memoSize
      ∧ sample.Opens [] (some sampleHeader) 0 sampleRealm sampleToken sampleIdentity 3600
      ∧ sample.Undisturbed [] (.authenticate (some sampleHeader) 0 sampleRealm) sampleSince
        sampleToken (sample.reusableUntil 0 3600)
      ∧ (reply 3600).decision = .accepted sampleIdentity ∧ Offline (reply 3600).signals
      ∧ verifications (reply 3601).signals = 1 := by
  intro moves reply
  have hsize : 1 ≤ Settings.sample.memoSize := by decide
  have hwindow := fun now => reuse_window build_sample hsize opens_sample undisturbed_sample
    ofHeader_sampleHeader now Directory.empty.realm
  obtain ⟨hd, hoff⟩ := (hwindow 3600).1 (by decide)
  obtain ⟨_, _, hone⟩ := (hwindow 3601).2 (by decide)
  exact ⟨build_sample, hsize, opens_sample, undisturbed_sample, hd, hoff, hone⟩

end TokenGate.Gate
