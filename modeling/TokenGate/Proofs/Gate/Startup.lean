import TokenGate.Proofs.Gate.Obstacles
import TokenGate.Proofs.Gate.Rejections

/-!
# What is settled at the start

* `Traced.BlamesStore`     a step that is refused for want of an identity store has asked it, and
                           the store failed;
* `blamesStore_examine`    so does an examination by a gate that was built;
* `remembers_fresh`        which acceptances are remembered, and until when;
* `Gate.Settled`           what no request to a gate runs into any more;
* `startup_settles`        a gate is built unless something obstructs it or there is no room for its
                           memo, and all requests to it find that settled.
-/

namespace TokenGate

open Checks (bind_eq_error_iff mapError_eq_error_iff)

/-! ## refusals for want of the identity store -/

namespace Traced

variable {α β ε : Type} {g : Gate} {realm : Realm}

/-- A refusal for want of the identity store comes of asking it about a subject in vain. -/
def BlamesStore (g : Gate) (realm : Realm) (t : Traced α) : Prop :=
  ∀ r, t.result = .error r → r.kind = .identityStoreUnavailable →
    g.hasRealm = true ∧ ∃ subject fault, .consulted subject ∈ t.signals
      ∧ realm subject = .error fault ∧ r = .realmFailed fault

theorem blamesStore_of_ok {t : Traced α} {a : α} (h : t.result = .ok a) :
    t.BlamesStore g realm := by
  intro r hr
  rw [h] at hr
  cases hr

theorem blamesStore_ofExcept {wrap : ε → Refusal} {x : Except ε α}
    (h : ∀ e, (wrap e).kind ≠ .identityStoreUnavailable) :
    (ofExcept wrap x).BlamesStore g realm := by
  intro r hr hk
  rw [result_ofExcept, mapError_eq_error_iff] at hr
  obtain ⟨e, _, rfl⟩ := hr
  exact absurd hk (h e)

theorem BlamesStore.bind {t : Traced α} {next : α → Traced β} (ht : t.BlamesStore g realm)
    (hn : ∀ a, (next a).BlamesStore g realm) : (t >>= next).BlamesStore g realm := by
  intro r hr hk
  rw [result_bind, bind_eq_error_iff] at hr
  rw [signals_bind]
  rcases hr with hr | ⟨a, ha, hr⟩
  · obtain ⟨hs, subject, fault, hmem, hfails⟩ := ht r hr hk
    exact ⟨hs, subject, fault, List.mem_append_left _ hmem, hfails⟩
  · obtain ⟨hs, subject, fault, hmem, hfails⟩ := hn a r hr hk
    rw [ha]
    exact ⟨hs, subject, fault, List.mem_append_right _ hmem, hfails⟩

end Traced

namespace Gate

open Traced
open Settings (Obstructs)

variable {s : Settings} {hasRealm : Bool} {verifier : Option Verifier} {g : Gate} {realm : Realm}
  {m : Memo} {raw : String} {now : Int} {before : List Move} {header : Option String}
  {id : Identity}

theorem blamesStore_confirm (hg : g.Sound) (realm : Realm) (subject : String) (own : Roles) :
    (g.confirm realm subject own).BlamesStore g realm := by
  unfold confirm
  by_cases hr : g.realmRequired = true
  swap
  · rw [if_neg hr]
    exact blamesStore_of_ok rfl
  rw [if_pos hr, if_pos (hg.realm hr)]
  intro r h hk
  cases ha : realm subject with
  | error fault =>
    rw [ha] at h
    cases h
    exact ⟨hg.realm hr, subject, fault, List.mem_cons_self .., ha, rfl⟩
  | ok record =>
    simp only [ha, result_bind, result_ofExcept, result_emit] at h
    change (if record.known then _ else _ : Traced Roles).result = _ at h
    split at h
    · cases h
    · cases h
      cases hk

theorem blamesStore_judge (hg : g.Sound) (realm : Realm) (payload : Members) (now : Int) :
    (g.judge realm payload now).BlamesStore g realm := by
  refine (blamesStore_ofExcept fun _ hk => by cases hk).bind fun claims => ?_
  refine (blamesStore_ofExcept fun f => ?_).bind fun checked => ?_
  · cases f <;> nofun
  refine (blamesStore_of_ok (result_emit _)).bind fun _ => ?_
  exact (blamesStore_confirm hg realm _ _).bind fun _ => blamesStore_of_ok (result_pure _)

theorem blamesStore_examine (hg : g.Sound) (realm : Realm) (raw : String) (now : Int) :
    (g.examine realm raw now).BlamesStore g realm := by
  rw [examine_eq]
  refine BlamesStore.bind ?_ fun token => blamesStore_judge hg realm token.payload now
  unfold authentic
  refine (blamesStore_ofExcept fun f => ?_).bind fun token => ?_
  · cases f <;> nofun
  refine (blamesStore_of_ok (result_emit _)).bind fun _ => ?_
  refine (blamesStore_ofExcept fun _ hk => by cases hk).bind fun _ => ?_
  exact blamesStore_of_ok (result_pure _)

/-- no examination finds that there is no store to ask -/
theorem examine_ne_realmAbsent (hg : g.Sound) (realm : Realm) (raw : String) (now : Int) :
    (g.examine realm raw now).result ≠ .error .realmAbsent := by
  intro h
  obtain ⟨_, _, _, _, _, hr⟩ := blamesStore_examine hg realm raw now _ h rfl
  cases hr

theorem refusal_of_rejected (hg : g.Sound) {r : Rejection}
    (h : (g.validate realm raw now).decision = .rejected r) :
    ∃ refusal, (g.examine realm raw now).result = .error refusal ∧ r.kind = refusal.kind := by
  cases hx : (g.examine realm raw now).result with
  | ok o =>
    obtain ⟨_, _, _, _, _, _, rfl⟩ := (examine_eq_ok_iff hg).mp hx
    rw [validate_of_ok hx] at h
    cases h
  | error refusal =>
    rw [validate_of_error hx] at h
    cases h
    exact ⟨refusal, rfl, rfl⟩

theorem store_failed_of_unavailable (hg : g.Sound) {r : Rejection}
    (hd : (g.authenticate realm (g.memoAfter before) header now).decision = .rejected r)
    (hk : r.kind = .identityStoreUnavailable) :
    g.hasRealm = true ∧ ∃ subject fault,
      .consulted subject ∈ (g.authenticate realm (g.memoAfter before) header now).signals
        ∧ realm subject = .error fault := by
  cases ht : Credential.ofHeader header with
  | error f =>
    rw [(g.authenticate_of_error realm _ ht now).1] at hd
    cases hd
    cases f <;> cases hk
  | ok raw =>
    have hfresh := fresh_of_rejected hg ht hd
    obtain ⟨hv, _, front, back, _, _, hs⟩ := g.authenticate_of_fresh realm ht hfresh
    rw [hd] at hv
    obtain ⟨refusal, hx, hkind⟩ := refusal_of_rejected hg hv.symm
    obtain ⟨hstore, subject, fault, hmem, hfails, _⟩ :=
      blamesStore_examine hg realm raw now refusal hx (hkind.symm.trans hk)
    refine ⟨hstore, subject, fault, ?_, hfails⟩
    rw [hs]
    exact List.mem_append_left _ (List.mem_append_right _ hmem)

/-! ## what is remembered -/

theorem absent_of_fresh (hm : m.WellFormed) (hl : ∀ e, (m.lookup raw now).1 ≠ .hit e) :
    (m.lookup raw now).2.contains raw = false := by
  rcases m.lookup_cases raw now with ⟨_, he, hc⟩ | ⟨_, he, ha⟩ | ⟨e, _, he, _⟩ | ⟨e, he, _⟩
  · have hnil : m.entries = [] := List.eq_nil_of_length_eq_zero (by
      have hsize := hm.bounded
      unfold Memo.size at hsize
      omega)
    rw [he, Memo.contains, Memo.find?, hnil]
    rfl
  · rw [Memo.contains, Memo.find?, he]
    exact ha
  · refine Bool.eq_false_iff.mpr fun hp => ?_
    obtain ⟨x, hx, hraw⟩ := List.mem_map.mp (Memo.mem_tokens_iff.mpr hp)
    rw [he] at hx
    simpa [hraw] using (List.mem_filter.mp hx).2
  · exact absurd he (hl e)

/-- what a store leaves for a token that had no entry -/
theorem contains_store_iff (hm : m.WellFormed) (habsent : m.contains raw = false) {o : Outcome}
    (hacc : o.accepted = true) {validUntil : Int} :
    ((m.store raw o now validUntil).2.contains raw = true ↔ now ≤ validUntil ∧ 0 < m.capacity)
    ∧ ∀ e, (raw, e) ∈ (m.store raw o now validUntil).2.entries → e = ⟨o, now, validUntil⟩ := by
  have hnone : ∀ e, (raw, e) ∉ m.entries := by
    intro e he
    rw [Memo.mem_tokens_iff.mp (Memo.mem_tokens_of_mem he)] at habsent
    cases habsent
  constructor
  · rcases m.store_cases raw o now validUntil with ⟨h, hx⟩ | ⟨h, _, hnow, hc⟩
    · rw [h, habsent]
      constructor
      · intro hf
        cases hf
      · intro hy
        obtain ⟨hnow, hc⟩ := hy
        rcases hx with hx | hx | hx
        · rw [hacc] at hx
          cases hx
        · omega
        · omega
    · refine iff_of_true ?_ ⟨hnow, hc⟩
      obtain ⟨n, hn⟩ := Nat.exists_eq_add_one.mpr hc
      rw [h, ← Memo.mem_tokens_iff, Memo.tokens, Memo.entries_place hm.bounded hc, hn]
      exact List.mem_cons_self ..
  · intro e he
    rcases Memo.mem_of_store he with he | ⟨he, _⟩
    · exact absurd he (hnone e)
    · cases he
      rfl

/-- a time limit never ends an entry before the instant at which it is stored -/
theorem le_validUntil_iff (hg : g.Sound) {expiresAt : Int} (hmax : expiresAt ≤ Seconds.maximum) :
    now ≤ g.validUntil now expiresAt ↔ now ≤ expiresAt := by
  unfold validUntil
  cases hc : g.ttlCap with
  | none => rfl
  | some cap =>
    have hpos := hg.cap_pos cap hc
    show now ≤ min expiresAt (Seconds.clamp (now + cap)) ↔ _
    unfold Seconds.clamp
    omega

theorem remembers_fresh (hg : g.Sound) (ht : Credential.ofHeader header = .ok raw)
    (hl : ∀ e, ((g.memoAfter before).lookup raw now).1 ≠ .hit e)
    (hd : (g.authenticate realm (g.memoAfter before) header now).decision = .accepted id) :
    ∃ token expiresAt, Token.decode raw = .ok token
      ∧ Members.get? token.payload "exp" = some (.int expiresAt)
      ∧ ((g.authenticate realm (g.memoAfter before) header now).memo.contains raw = true ↔
          0 < g.capacity ∧ now ≤ expiresAt)
      ∧ ∀ e, (raw, e) ∈ (g.authenticate realm (g.memoAfter before) header now).memo.entries →
          e.storedAt = now ∧ now ≤ e.validUntil ∧ e.validUntil ≤ expiresAt := by
  obtain ⟨hv, hmemo, _⟩ := g.authenticate_of_fresh realm ht hl
  rw [hd] at hv
  obtain ⟨token, expiresAt, hdecode, hmax, hexp, hval⟩ := validate_of_decision hg hv.symm
  -- the lookup comes first, and leaves a memo without the token and with the same room
  let looked := ((g.memoAfter before).lookup raw now).2
  have hwell : looked.WellFormed :=
    Memo.wellFormed_use (g.wellFormed_memoAfter before) (.lookup raw now)
  have hcap : looked.capacity = g.capacity :=
    (Memo.capacity_use _ (.lookup raw now)).trans (g.capacity_memoAfter before)
  have habsent : looked.contains raw = false := absent_of_fresh (g.wellFormed_memoAfter before) hl
  have hstored : (g.authenticate realm (g.memoAfter before) header now).memo
      = (looked.store raw (.accept id.subject id.roles expiresAt) now
          (g.validUntil now expiresAt)).2 := by
    rw [hmemo, hval]
    rfl
  obtain ⟨hcontains, hentry⟩ := contains_store_iff hwell habsent
    (rfl : (Outcome.accept id.subject id.roles expiresAt).accepted = true)
  rw [hcap, le_validUntil_iff hg hmax] at hcontains
  rw [hstored]
  refine ⟨token, expiresAt, hdecode, hexp, hcontains.trans and_comm, fun e he => ?_⟩
  have hnow := (hcontains.mp (Memo.mem_tokens_iff.mp (Memo.mem_tokens_of_mem he))).1
  rw [hentry e he]
  exact ⟨rfl, (le_validUntil_iff hg hmax).mpr hnow, g.validUntil_le now expiresAt⟩

/-! ## settled -/

/-- what no request to a gate runs into any more, whatever came before it -/
structure Settled (g : Gate) (s : Settings) (hasRealm : Bool) : Prop where
  /-- an examination does not find that there is no store to ask -/
  present : ∀ realm raw now, (g.examine realm raw now).result ≠ .error .realmAbsent
  /-- a rejection for want of the store comes of asking it, and of its own error -/
  blamed : ∀ before header now realm r,
    (g.authenticate realm (g.memoAfter before) header now).decision = .rejected r →
      r.kind = .identityStoreUnavailable → hasRealm = true ∧ ∃ subject fault,
        .consulted subject ∈ (g.authenticate realm (g.memoAfter before) header now).signals
          ∧ realm subject = .error fault
  /-- an acceptance by a full validation is remembered if there is a memo and the token has not
  expired, and from then on at most until it expires -/
  remembered : ∀ before header now realm raw id, Credential.ofHeader header = .ok raw →
    (g.authenticate realm (g.memoAfter before) header now).decision = .accepted id →
    .verified ∈ (g.authenticate realm (g.memoAfter before) header now).signals →
      ∃ token expiresAt, Token.decode raw = .ok token
        ∧ Members.get? token.payload "exp" = some (.int expiresAt)
        ∧ ((g.authenticate realm (g.memoAfter before) header now).memo.contains raw = true ↔
            0 < s.memoSize ∧ now ≤ expiresAt)
        ∧ ∀ e, (raw, e) ∈ (g.authenticate realm (g.memoAfter before) header now).memo.entries →
            e.storedAt = now ∧ now ≤ e.validUntil ∧ e.validUntil ≤ expiresAt

theorem fresh_of_verified (ht : Credential.ofHeader header = .ok raw)
    (h : .verified ∈ (g.authenticate realm m header now).signals) (e : Entry) :
    (m.lookup raw now).1 ≠ .hit e := by
  intro hl
  exact absurd h (List.count_eq_zero.mp (g.authenticate_of_hit realm ht hl).2.2.unverified)

theorem settled_of_build (h : build s hasRealm verifier = .ok g) : g.Settled s hasRealm where
  present := examine_ne_realmAbsent (sound_of_build h)
  blamed before header now realm r hd hk := by
    rw [← hasRealm_of_build h]
    exact store_failed_of_unavailable (sound_of_build h) hd hk
  remembered before header now realm raw id ht hd hv := by
    rw [← capacity_of_build h]
    exact remembers_fresh (sound_of_build h) ht (fresh_of_verified ht hv) hd

/-- Settings make a gate if and only if nothing obstructs it and there is room for its memo. What
obstructs it is reported, the want of room only where nothing else does; and what was settled then
is no longer met by any request, at any instant and after any moves. Room for a memo is a matter of
its capacity alone here (`Memo.hasRoom`). -/
theorem startup_settles (s : Settings) (hasRealm : Bool) (verifier : Option Verifier) :
    (∀ f, build s hasRealm verifier = .error (.settings f) ↔ Obstructs s hasRealm verifier f)
    ∧ (build s hasRealm verifier = .error .noRoom ↔
        (∀ f, ¬ Obstructs s hasRealm verifier f) ∧ Memo.maxCapacity < s.memoSize)
    ∧ ((∃ g, build s hasRealm verifier = .ok g) ↔
        (∀ f, ¬ Obstructs s hasRealm verifier f) ∧ s.memoSize ≤ Memo.maxCapacity)
    ∧ ∀ g, build s hasRealm verifier = .ok g → g.Settled s hasRealm :=
  ⟨fun _ => build_eq_settings_iff, build_eq_noRoom_iff, exists_build_iff,
    fun _ h => settled_of_build h⟩

/-- the first request to the gate of the sample settings, with a token that expires later -/
theorem startup_settles_of_sample :
    build Settings.sample true none = .ok sample
    ∧ ∃ token expiresAt, Token.decode sampleToken = .ok token
      ∧ Members.get? token.payload "exp" = some (.int expiresAt)
      ∧ ((sample.authenticate sampleRealm (sample.memoAfter []) (some sampleHeader) 0).memo.contains
          sampleToken = true ↔ 0 < Settings.sample.memoSize ∧ 0 ≤ expiresAt) := by
  have hfresh (e : Entry) : ((sample.memoAfter []).lookup sampleToken 0).1 ≠ .hit e :=
    fun hl => List.not_mem_nil (Memo.mem_of_hit hl).1
  have hopens : sample.Opens [] (some sampleHeader) 0 sampleRealm sampleToken sampleIdentity 3600 :=
    opens_of_validate ofHeader_sampleHeader hfresh (sound_of_build build_sample)
      validate_sampleToken (by decide) (by decide)
  have hsettled := (startup_settles Settings.sample true none).2.2.2 sample build_sample
  obtain ⟨token, expiresAt, hdecode, hexp, hcontains, _⟩ := hsettled.remembered []
    (some sampleHeader) 0 sampleRealm sampleToken sampleIdentity ofHeader_sampleHeader
    decision_sampleHeader hopens.validated
  exact ⟨build_sample, token, expiresAt, hdecode, hexp, hcontains⟩

end Gate

end TokenGate
