import TokenGate.Proofs.Gate.Reuse

/-!
# The memo does not show

* `Gate.freshly`       the decision on a header that a full validation comes to;
* `Move.instant?`      the reading of the clock that a move comes with;
* `decision_fresh`     after moves in order, a request is decided as if nothing were remembered;
* `run_fresh`          so are all requests of a run;
* `memo_transparent`   a gate decides a run as the gate without a memo does.

What carries the proof is that an entry outlives its token's expiry in no case, and that nothing
but the expiry can change a validation for the worse (`validate_later`).
-/

namespace TokenGate

def Move.instant? : Move → Option Int
  | .authenticate _ now _ => some now
  | .clear => none

namespace Gate

variable {g : Gate} {realm : Realm} {moves : List Move}

/-! ## decisions without a memo -/

def freshly (g : Gate) (realm : Realm) (header : Option String) (now : Int) : Decision :=
  match Credential.ofHeader header with
  | .error fault => .rejected (.ofKind fault.kind)
  | .ok token => (g.validate realm token now).decision

/-- what a move decides if nothing is remembered -/
def fresh (g : Gate) : Move → Option Decision
  | .authenticate header now realm => some (g.freshly realm header now)
  | .clear => none

theorem fresh_uncached (g : Gate) : g.uncached.fresh = g.fresh := by
  funext mv
  cases mv <;> rfl

/-! ## runs in order -/

/-- the clock never goes back -/
def Ordered (moves : List Move) : Prop := (moves.filterMap Move.instant?).Pairwise (· ≤ ·)

instance (moves : List Move) : Decidable (Ordered moves) :=
  inferInstanceAs (Decidable (List.Pairwise ..))

/-- the realm gives the same answers all along -/
def Constant (realm : Realm) (moves : List Move) : Prop :=
  ∀ header now r, .authenticate header now r ∈ moves → r = realm

theorem Ordered.front {more : List Move} (h : Ordered (moves ++ more)) : Ordered moves := by
  unfold Ordered at h ⊢
  rw [List.filterMap_append] at h
  exact (List.pairwise_append.mp h).1

theorem Ordered.le {earlier : Move} {header : Option String} {now t : Int} {r : Realm}
    (h : Ordered (moves ++ [.authenticate header now r])) (hm : earlier ∈ moves)
    (ht : earlier.instant? = some t) : t ≤ now := by
  unfold Ordered at h
  rw [List.filterMap_append] at h
  have hlast : now ∈ [Move.authenticate header now r].filterMap Move.instant? := by
    simp [Move.instant?]
  exact (List.pairwise_append.mp h).2.2 t (List.mem_filterMap.mpr ⟨earlier, hm, ht⟩) now hlast

theorem Constant.front {more : List Move} (h : Constant realm (moves ++ more)) :
    Constant realm moves :=
  fun header now r hm => h header now r (List.mem_append_left _ hm)

/-- an entry that is handed out after the instant it was stored at agrees with a validation now -/
theorem Stores.validate_eq (hg : g.Sound) {token : String} {stored now : Int} {e : Entry}
    (h : g.Stores realm token stored e) (hle : stored ≤ now) (hnow : now ≤ e.validUntil) :
    g.validate realm token now = e.outcome := by
  obtain ⟨expiresAt, he, _⟩ := h.expiry
  have hlate : now ≤ expiresAt := Int.le_trans hnow (h.le_expiry he)
  have hacc := h.accepted
  rw [h.outcome] at he hacc ⊢
  exact validate_later hg hacc he hle hlate

theorem decision_fresh (hg : g.Sound) {header : Option String} {now : Int}
    (ho : Ordered (moves ++ [.authenticate header now realm])) (hc : Constant realm moves) :
    (g.authenticate realm (g.memoAfter moves) header now).decision
      = g.freshly realm header now := by
  unfold freshly
  cases ht : Credential.ofHeader header with
  | error f => exact (g.authenticate_of_error realm _ ht now).1
  | ok token =>
    rcases g.decision_cases realm _ ht now with ⟨e, he, hnow, hd⟩ | hd
    swap
    · exact hd
    obtain ⟨front, header', stored, realm', later, rfl, _, _, hs, _⟩ := origin_of_mem he
    have hmem : Move.authenticate header' stored realm' ∈
        front ++ .authenticate header' stored realm' :: later := by simp
    have hrealm : realm' = realm := hc header' stored realm' hmem
    have hle : stored ≤ now := ho.le hmem rfl
    rw [hrealm] at hs
    show _ = (g.validate realm token now).decision
    rw [hd, hs.validate_eq hg hle hnow]

theorem run_fresh (hg : g.Sound) (ho : Ordered moves) (hc : Constant realm moves) :
    (g.run g.emptyMemo moves).1 = moves.map g.fresh := by
  induction moves using List.reverseRecOn with
  | nil => rfl
  | append_singleton moves mv ih =>
    rw [run_append, List.map_append, ← ih ho.front hc.front]
    show _ ++ [(g.move (g.memoAfter moves) mv).1] = _ ++ [g.fresh mv]
    cases mv with
    | clear => rfl
    | authenticate header now r =>
      have hr : r = realm := hc header now r (by simp)
      subst hr
      show _ ++ [some (g.authenticate r (g.memoAfter moves) header now).decision] = _
      rw [decision_fresh hg ho hc.front]
      rfl

/-! ## the gate without a memo -/

/-- as long as the clock does not go back and the realm does not change, a gate decides every
request as the gate without a memo, which is by a full validation -/
theorem memo_transparent {s : Settings} {hasRealm : Bool} {verifier : Option Verifier}
    (h : build s hasRealm verifier = .ok g) (ho : Ordered moves) (hc : Constant realm moves) :
    build { s with memoSize := 0 } hasRealm verifier = .ok g.uncached
      ∧ (g.run g.emptyMemo moves).1 = (g.uncached.run g.uncached.emptyMemo moves).1
      ∧ (g.run g.emptyMemo moves).1 = moves.map g.uncached.fresh := by
  have h₀ := build_uncached h
  have hrun := run_fresh (sound_of_build h) ho hc
  refine ⟨h₀, ?_, ?_⟩
  · rw [hrun, run_fresh (sound_of_build h₀) ho hc, fresh_uncached]
  · rw [hrun, fresh_uncached]

/-- The sample token, which is remembered, met again, forgotten, remembered anew, met when its entry
is over but the tolerance of the clock still counts, and met when it has expired. -/
def sampleMoves : List Move := [
  .authenticate (some sampleHeader) 0 sampleRealm,
  .authenticate (some sampleHeader) 10 sampleRealm,
  .clear,
  .authenticate (some sampleHeader) 20 sampleRealm,
  .authenticate (some sampleHeader) 3601 sampleRealm,
  .authenticate (some sampleHeader) 3661 sampleRealm]

theorem freshly_sample (realm : Realm) (now : Int) :
    sample.freshly realm (some sampleHeader) now
      = (sample.judge realm (Draft.start 0).claims now).outcome.decision := by
  unfold freshly
  rw [ofHeader_sampleHeader]
  exact congrArg Outcome.decision (validate_sample realm now)

theorem opens_sampleMoves :
    sample.Opens (sampleMoves.take 3) (some sampleHeader) 20 sampleRealm sampleToken sampleIdentity
      3600 := by
  have hv : sample.validate sampleRealm sampleToken 20
      = .accept sampleIdentity.subject sampleIdentity.roles 3600 := by
    rw [validate_sample]
    decide +kernel
  refine opens_of_validate ofHeader_sampleHeader (fun e he => ?_) (sound_of_build build_sample) hv
    (by decide) (by decide)
  have hclear := sample.memoAfter_concat (sampleMoves.take 2) .clear
  have hmem := (Memo.mem_of_hit he).1
  exact Memo.not_mem_clear (hclear ▸ hmem)

/-- the second request is answered from the memo, and the fourth meets an entry that is over -/
theorem memo_transparent_of_sample :
    build Settings.sample true none = .ok sample
      ∧ Ordered sampleMoves ∧ Constant sampleRealm sampleMoves
      ∧ (∃ e, ((sample.memoAfter (sampleMoves.take 1)).lookup sampleToken 10).1 = .hit e)
      ∧ (∃ e, ((sample.memoAfter (sampleMoves.take 4)).lookup sampleToken 3601).1 = .stale e)
      ∧ (sample.run sample.emptyMemo sampleMoves).1 = sampleMoves.map sample.uncached.fresh
      ∧ (sample.run sample.emptyMemo sampleMoves).1 = [
        some (.accepted sampleIdentity), some (.accepted sampleIdentity), none,
        some (.accepted sampleIdentity), some (.accepted sampleIdentity),
        some (.rejected (.ofKind .tokenExpired))] := by
  have ho : Ordered sampleMoves := by decide
  have hc : Constant sampleRealm sampleMoves := by
    intro header now r hm
    simp only [sampleMoves, List.mem_cons, Move.authenticate.injEq, reduceCtorEq,
      List.not_mem_nil, or_false, false_or] at hm
    rcases hm with h | h | h | h | h <;> exact h.2.2
  obtain ⟨_, _, hrun⟩ := memo_transparent build_sample ho hc
  have hholds := holds_of_opens (sound_of_build build_sample) (by decide) opens_sampleMoves
  refine ⟨build_sample, ho, hc, ⟨_, lookup_sampleToken⟩,
    ⟨_, hholds.lookup_eq_stale (by decide) (by decide)⟩, hrun, ?_⟩
  rw [hrun, fresh_uncached]
  simp only [sampleMoves, List.map_cons, List.map_nil, fresh, freshly_sample]
  decide +kernel

end Gate

end TokenGate
