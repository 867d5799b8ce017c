import TokenGate.Proofs.Gate.Meters
import TokenGate.Proofs.Gate.Soundness
import TokenGate.Proofs.Gate.Uses
import TokenGate.Proofs.Memo.Tallies

/-!
# Metrics, counters of the memo and decisions agree

* `Gate.found?`            what a move finds when it looks its token up;
* `measured_move`          what the metrics see of a move;
* `Gate.sampledTokens`     the tokens whose validation was timed, in order;
* `Gate.Balanced`          what metrics, memo and decisions of a run have to do with one another;
* `Balanced.cons`          a move in front of a run keeps the balance;
* `balanced_run`           so that every run is in balance;
* `Gate.Agreement`         the same in terms of the names under which metrics are reported;
* `metrics_agree`          it holds of every run of a gate that was built.

Counters are natural numbers here. Those of 64 bits show the same up to 2^64 moves.
-/

namespace TokenGate.Gate

open Signal

variable {s : Settings} {hasRealm : Bool} {verifier : Option Verifier} {g : Gate} {m : Memo}
  {realm : Realm} {header : Option String} {token : String} {now : Int} {mv : Move}
  {moves rest : List Move}

/-! ## one move -/

def found? (m : Memo) : Move → Option Lookup
  | .authenticate header now _ =>
    (Credential.ofHeader header).toOption.map fun token => (m.lookup token now).1
  | .clear => none

theorem found?_of_token (ht : Credential.ofHeader header = .ok token) :
    found? m (.authenticate header now realm) = some (m.lookup token now).1 := by
  simp only [found?, ht]
  rfl

theorem found?_of_error {f : Credential.Fault} (hf : Credential.ofHeader header = .error f) :
    found? m (.authenticate header now realm) = none := by
  simp only [found?, hf]
  rfl

/-- what the metrics see of a lookup: if it does not help, the validation is timed -/
def lookupSignals (r : Lookup) : List Signal := .lookedUp r :: if r.isHit then [] else [.timed]

theorem measured_move (g : Gate) (m : Memo) (mv : Move) :
    measured (g.move m mv).2.2 = (found? m mv).toList.flatMap lookupSignals
      ++ (g.move m mv).1.toList.map fun d => .decided d.failure? := by
  cases mv with
  | clear => rfl
  | authenticate header now realm =>
    show measured (g.authenticate realm m header now).signals = _ ++ [.decided _]
    rw [measured_authenticate]
    congr 1
    cases ht : Credential.ofHeader header with
    | error f => rw [measured_decide_of_error ht, found?_of_error ht]; rfl
    | ok token =>
      rw [decide_token ht, measured_decideToken, found?_of_token ht, Option.toList_some,
        List.flatMap_singleton]
      rfl

theorem verdicts_move (g : Gate) (m : Memo) (mv : Move) :
    verdicts (g.move m mv).2.2 = (g.move m mv).1.toList.map Decision.failure? := by
  cases mv with
  | clear => rfl
  | authenticate header now realm => exact g.verdicts_authenticate realm m header now

theorem findings_move (g : Gate) (m : Memo) (mv : Move) :
    findings (g.move m mv).2.2 = (found? m mv).toList := by
  rw [← findings_measured, measured_move, findings_append]
  cases found? m mv with
  | none => cases (g.move m mv).1 <;> rfl
  | some r => cases (g.move m mv).1 <;> cases r <;> rfl

theorem timed_move (g : Gate) (m : Memo) (mv : Move) :
    (g.move m mv).2.2.count .timed = (found? m mv).toList.countP (!·.isHit) := by
  rw [← count_timed_measured, measured_move, List.count_append]
  cases found? m mv with
  | none => cases (g.move m mv).1 <;> rfl
  | some r => cases (g.move m mv).1 <;> cases r <;> rfl

theorem length_found (m : Memo) (mv : Move) :
    (found? m mv).toList.length = mv.token?.toList.length := by
  cases mv with
  | clear => rfl
  | authenticate header now realm =>
    show ((Credential.ofHeader header).toOption.map _).toList.length
      = (Credential.ofHeader header).toOption.toList.length
    cases (Credential.ofHeader header).toOption <;> rfl

/-- a lookup comes to nothing for want of room or not at all -/
theorem disabled_of_found {r : Lookup} (h : r ∈ (found? m mv).toList) :
    r = .disabled ↔ m.capacity = 0 := by
  cases mv with
  | clear => cases h
  | authenticate header now realm =>
    cases ht : Credential.ofHeader header with
    | error f =>
      rw [found?_of_error ht] at h
      cases h
    | ok token =>
      rw [found?_of_token ht, Option.toList_some, List.mem_singleton] at h
      rw [h]
      exact m.lookup_eq_disabled_iff token now

theorem notes_storing (g : Gate) (realm : Realm) (m : Memo) (token : String) (now : Int) :
    m.tally.Notes (m.run (g.storing realm token now)).2.tally [] := by
  unfold storing
  split
  · exact m.notes_store ..
  · exact m.tally.notes_refl

theorem notes_move (g : Gate) (m : Memo) (mv : Move) :
    m.tally.Notes (g.move m mv).2.1.tally (found? m mv).toList := by
  rw [memo_move]
  cases mv with
  | clear => exact m.tally.notes_refl
  | authenticate header now realm =>
    cases ht : Credential.ofHeader header with
    | error f =>
      rw [uses_of_error ht, found?_of_error ht]
      exact m.tally.notes_refl
    | ok token =>
      rw [uses_of_token ht, found?_of_token ht, Option.toList_some]
      rcases m.hit_or_fresh token now with ⟨e, hl⟩ | hl
      · rw [usesOf_of_hit hl]
        exact m.notes_lookup token now
      · rw [usesOf_of_fresh hl]
        exact (m.notes_lookup token now).append (notes_storing ..)

theorem capacity_move (g : Gate) (m : Memo) (mv : Move) :
    (g.move m mv).2.1.capacity = m.capacity := by
  rw [memo_move, Memo.capacity_run]

/-! ## validations that were timed -/

/-- the token whose validation a move has timed -/
def sampled? (g : Gate) (m : Memo) (mv : Move) : Option String :=
  if .timed ∈ (g.move m mv).2.2 then mv.token? else none

def sampledTokens (g : Gate) (m : Memo) : List Move → List String
  | [] => []
  | mv :: rest => (g.sampled? m mv).toList ++ g.sampledTokens (g.move m mv).2.1 rest

/-- a move either has nothing examined, or it is a request whose token is not remembered -/
theorem idle_or_fresh (g : Gate) (m : Memo) (mv : Move) :
    ((g.move m mv).2.2.count .timed = 0 ∧ Unverified (g.move m mv).2.2)
      ∨ ∃ header now realm token, mv = .authenticate header now realm
        ∧ Credential.ofHeader header = .ok token ∧ ∀ e, (m.lookup token now).1 ≠ .hit e := by
  rw [timed_move]
  cases mv with
  | clear => exact .inl ⟨rfl, rfl⟩
  | authenticate header now realm =>
    cases ht : Credential.ofHeader header with
    | error f =>
      rw [found?_of_error ht]
      exact .inl ⟨rfl, g.unverified_of_error realm m ht now⟩
    | ok token =>
      rw [found?_of_token ht]
      rcases m.hit_or_fresh token now with ⟨e, hl⟩ | hl
      · rw [hl]
        exact .inl ⟨rfl, (g.authenticate_of_hit realm ht hl).2.2.unverified⟩
      · exact .inr ⟨header, now, realm, token, rfl, ht, hl⟩

theorem sampled?_of_idle (h : (g.move m mv).2.2.count .timed = 0) : g.sampled? m mv = none := by
  unfold sampled?
  rw [if_neg (List.count_eq_zero.mp h)]

theorem timed_of_fresh (g : Gate) (realm : Realm) (ht : Credential.ofHeader header = .ok token)
    (hl : ∀ e, (m.lookup token now).1 ≠ .hit e) :
    (g.move m (.authenticate header now realm)).2.2.count .timed = 1 := by
  rw [timed_move, found?_of_token ht, Option.toList_some, List.countP_singleton,
    Lookup.isHit_eq_false_iff.mpr hl]
  rfl

theorem sampled?_of_fresh (g : Gate) (realm : Realm) (ht : Credential.ofHeader header = .ok token)
    (hl : ∀ e, (m.lookup token now).1 ≠ .hit e) :
    g.sampled? m (.authenticate header now realm) = some token := by
  have hone := g.timed_of_fresh realm ht hl
  have hmem : .timed ∈ (g.move m (.authenticate header now realm)).2.2 :=
    List.count_pos_iff.mp (by omega)
  unfold sampled?
  rw [if_pos hmem]
  exact Move.token?_eq_some_iff.mpr ht

theorem length_sampled (g : Gate) (m : Memo) (mv : Move) :
    (g.sampled? m mv).toList.length = (g.move m mv).2.2.count .timed := by
  rcases g.idle_or_fresh m mv with ⟨hidle, _⟩ | ⟨header, now, realm, token, rfl, ht, hl⟩
  · rw [sampled?_of_idle hidle, hidle]
    rfl
  · rw [g.sampled?_of_fresh realm ht hl, g.timed_of_fresh realm ht hl]
    rfl

/-- the verifier is called in a timed validation, once if the token is decoded, and nowhere else -/
theorem verifications_move (g : Gate) (m : Memo) (mv : Move) :
    verifications (g.move m mv).2.2
      = (g.sampled? m mv).toList.countP fun token => (Token.decode token).isOk := by
  rcases g.idle_or_fresh m mv with ⟨hidle, hun⟩ | ⟨header, now, realm, token, rfl, ht, hl⟩
  · rw [sampled?_of_idle hidle, hun]
    rfl
  · obtain ⟨_, _, front, back, hfront, hback, hs⟩ := g.authenticate_of_fresh realm ht hl
    rw [g.sampled?_of_fresh realm ht hl, Option.toList_some, List.countP_singleton]
    show verifications (g.authenticate realm m header now).signals = _
    rw [hs, verifications_append, verifications_append, hfront.unverified, hback.unverified,
      verifications_examine, Nat.zero_add, Nat.add_zero]

/-! ## runs -/

structure Balanced (g : Gate) (m : Memo) (moves : List Move) : Prop where
  verdicts : verdicts (g.run m moves).2.2
    = (g.run m moves).1.filterMap (Option.map Decision.failure?)
  lookups : (findings (g.run m moves).2.2).length = (moves.filterMap Move.token?).length
  timed : (g.run m moves).2.2.count .timed = (findings (g.run m moves).2.2).countP (!·.isHit)
  sampled : (g.sampledTokens m moves).length = (g.run m moves).2.2.count .timed
  verified : verifications (g.run m moves).2.2
    = (g.sampledTokens m moves).countP fun token => (Token.decode token).isOk
  noted : m.tally.Notes (g.run m moves).2.1.tally (findings (g.run m moves).2.2)
  enabled : ∀ r ∈ findings (g.run m moves).2.2, r = .disabled ↔ m.capacity = 0

theorem balanced_nil (g : Gate) (m : Memo) : g.Balanced m [] :=
  ⟨rfl, rfl, rfl, rfl, rfl, m.tally.notes_refl, fun _ hr => absurd hr List.not_mem_nil⟩

theorem decisions_cons (g : Gate) (m : Memo) (mv : Move) (rest : List Move) :
    (g.run m (mv :: rest)).1 = (g.move m mv).1 :: (g.run (g.move m mv).2.1 rest).1 := rfl

theorem signals_cons (g : Gate) (m : Memo) (mv : Move) (rest : List Move) :
    (g.run m (mv :: rest)).2.2 = (g.move m mv).2.2 ++ (g.run (g.move m mv).2.1 rest).2.2 := rfl

theorem findings_cons (g : Gate) (m : Memo) (mv : Move) (rest : List Move) :
    findings (g.run m (mv :: rest)).2.2
      = (found? m mv).toList ++ findings (g.run (g.move m mv).2.1 rest).2.2 := by
  rw [signals_cons, findings_append, findings_move]

theorem Balanced.cons (h : g.Balanced (g.move m mv).2.1 rest) : g.Balanced m (mv :: rest) where
  verdicts := by
    rw [signals_cons, decisions_cons, verdicts_append, verdicts_move, h.verdicts]
    cases (g.move m mv).1 <;> rfl
  lookups := by
    rw [findings_cons, List.length_append, length_found, h.lookups, List.filterMap_cons]
    cases mv.token? with
    | none => exact Nat.zero_add _
    | some token => exact Nat.add_comm ..
  timed := by
    rw [findings_cons, signals_cons, List.count_append, List.countP_append, timed_move, h.timed]
  sampled := by
    rw [sampledTokens, signals_cons, List.length_append, List.count_append, length_sampled,
      h.sampled]
  verified := by
    rw [sampledTokens, signals_cons, verifications_append, List.countP_append,
      verifications_move, h.verified]
  noted := by
    rw [findings_cons]
    exact (g.notes_move m mv).append h.noted
  enabled r hr := by
    rw [findings_cons] at hr
    rcases List.mem_append.mp hr with hr | hr
    · exact disabled_of_found hr
    · rw [h.enabled r hr, capacity_move]

theorem balanced_run (g : Gate) (m : Memo) (moves : List Move) : g.Balanced m moves := by
  induction moves generalizing m with
  | nil => exact g.balanced_nil m
  | cons mv rest ih => exact (ih _).cons

/-! ## without room -/

theorem memoAfter_of_no_room (h : g.capacity = 0) (moves : List Move) :
    g.memoAfter moves = .ofCapacity 0 := by
  induction moves using List.reverseRecOn with
  | nil => exact congrArg Memo.ofCapacity h
  | append_singleton moves mv ih => rw [memoAfter_concat, memo_move, ih, Memo.run_ofCapacity_zero]

/-! ## agreement -/

/-- every finding has one of four labels -/
theorem length_of_labels (found : List Lookup) :
    found.countP (·.label == "hit") + found.countP (·.label == "miss")
      + found.countP (·.label == "stale") + found.countP (·.label == "disabled")
      = found.length := by
  induction found with
  | nil => rfl
  | cons r found ih =>
    simp only [List.countP_cons, List.length_cons, ← ih]
    cases r <;> simp [Lookup.label] <;> omega

theorem label_disabled_iff {r : Lookup} : r.label = "disabled" ↔ r = .disabled := by
  cases r <;> simp [Lookup.label]

theorem countP_isHit (found : List Lookup) :
    found.countP (·.label == "hit") = found.countP Lookup.isHit := by
  refine List.countP_congr fun r _ => ?_
  cases r <;> simp [Lookup.label, Lookup.isHit]

/-- metrics, memo and decisions after the moves of a gate with these settings; `sampled` are the
tokens whose validation was timed -/
structure Agreement (s : Settings) (moves : List Move) (decisions : List (Option Decision))
    (tally : Tally) (signals : List Signal) (sampled : List String) : Prop where
  accepted : counter signals (decisionCounter none)
    = decisions.countP fun d => d.any Decision.isAccepted
  rejected : ∀ kind, counter signals (decisionCounter (some kind))
    = decisions.countP fun d => d.any (·.failure? == some kind)
  hits : counter signals (lookupName "hit") = tally.hits
  misses : counter signals (lookupName "miss") = tally.misses
  stale : counter signals (lookupName "stale") = tally.staleRemovals
  disabled : counter signals (lookupName "disabled")
    = if s.memoSize = 0 then (moves.filterMap Move.token?).length else 0
  idle : s.memoSize = 0 → tally = ⟨0, 0, 0, 0⟩
  lookups : counter signals (lookupName "hit") + counter signals (lookupName "miss")
      + counter signals (lookupName "stale") + counter signals (lookupName "disabled")
    = (moves.filterMap Move.token?).length
  durations : samples signals durationName = counter signals (lookupName "miss")
    + counter signals (lookupName "stale") + counter signals (lookupName "disabled")
  timed : sampled.length = samples signals durationName
  verified : verifications signals = sampled.countP fun token => (Token.decode token).isOk

theorem Balanced.counter_decision (h : g.Balanced m moves) (f : Option Failure) :
    counter (g.run m moves).2.2 (decisionCounter f)
      = (g.run m moves).1.countP fun d => d.any (·.failure? == f) := by
  rw [Signal.counter_decision, h.verdicts, List.count_filterMap]
  refine List.countP_congr fun d _ => ?_
  cases d <;> simp

theorem countP_accepted (decisions : List (Option Decision)) :
    decisions.countP (fun d => d.any (·.failure? == none))
      = decisions.countP fun d => d.any Decision.isAccepted := by
  refine List.countP_congr fun d _ => ?_
  cases d with
  | none => rfl
  | some d => cases d <;> simp [Decision.failure?, Decision.isAccepted]

theorem Balanced.countP_disabled (h : g.Balanced m moves) :
    (findings (g.run m moves).2.2).countP (·.label == "disabled")
      = if m.capacity = 0 then (findings (g.run m moves).2.2).length else 0 := by
  by_cases hc : m.capacity = 0
  · rw [if_pos hc]
    refine List.countP_eq_length.mpr fun r hr => ?_
    exact beq_iff_eq.mpr (label_disabled_iff.mpr ((h.enabled r hr).mpr hc))
  · rw [if_neg hc]
    refine List.countP_eq_zero.mpr fun r hr hd => hc ?_
    exact (h.enabled r hr).mp (label_disabled_iff.mp (beq_iff_eq.mp hd))

/-- every lookup that does not help comes with a timed validation -/
theorem Balanced.timed_eq (h : g.Balanced m moves) :
    (g.run m moves).2.2.count .timed = (findings (g.run m moves).2.2).countP (·.label == "miss")
      + (findings (g.run m moves).2.2).countP (·.label == "stale")
      + (findings (g.run m moves).2.2).countP (·.label == "disabled") := by
  have hall := length_of_labels (findings (g.run m moves).2.2)
  have hsplit : (findings (g.run m moves).2.2).length = _ + _ :=
    List.length_eq_countP_add_countP Lookup.isHit
  have hhits := countP_isHit (findings (g.run m moves).2.2)
  rw [h.timed]
  simp only [decide_not, Bool.decide_eq_true] at hsplit
  omega

/-- after any moves the metrics show the decisions that were made, the lookups that the memo has
counted, and the validations and calls to the verifier that went with them -/
theorem metrics_agree (h : build s hasRealm verifier = .ok g) (moves : List Move) :
    Agreement s moves (g.run g.emptyMemo moves).1 (g.memoAfter moves).tally
      (g.run g.emptyMemo moves).2.2 (g.sampledTokens g.emptyMemo moves) := by
  have hb := g.balanced_run g.emptyMemo moves
  have hcap : g.capacity = s.memoSize := by
    obtain ⟨_, _, _, _, _, rfl⟩ := ofSettings_eq_ok_iff.mp (ofSettings_of_build h)
    rfl
  have hnoted : (⟨0, 0, 0, 0⟩ : Tally).Notes (g.memoAfter moves).tally _ := hb.noted
  have hhits := counter_lookup (g.run g.emptyMemo moves).2.2 (show "hit" ∈ _ by decide)
  have hmisses := counter_lookup (g.run g.emptyMemo moves).2.2 (show "miss" ∈ _ by decide)
  have hstale := counter_lookup (g.run g.emptyMemo moves).2.2 (show "stale" ∈ _ by decide)
  have hdisabled := counter_lookup (g.run g.emptyMemo moves).2.2 (show "disabled" ∈ _ by decide)
  constructor
  case accepted => rw [hb.counter_decision, countP_accepted]
  case rejected => exact fun kind => hb.counter_decision (some kind)
  case hits => rw [hhits, hnoted.hits, Nat.zero_add]
  case misses => rw [hmisses, hnoted.misses, Nat.zero_add]
  case stale => rw [hstale, hnoted.stale, Nat.zero_add]
  case disabled =>
    rw [hdisabled, hb.countP_disabled, hb.lookups, ← hcap]
    rfl
  case idle =>
    intro hsize
    rw [memoAfter_of_no_room (hcap.trans hsize)]
    rfl
  case lookups => rw [hhits, hmisses, hstale, hdisabled, length_of_labels, hb.lookups]
  case durations => rw [samples_duration, hb.timed_eq, hmisses, hstale, hdisabled]
  case timed => rw [samples_duration, hb.sampled]
  case verified => exact hb.verified

/-! the sample token is accepted, and a request without a token rejected -/

def sampleVisits : List Move := [
  .authenticate (some sampleHeader) 0 sampleRealm,
  .authenticate none 10 Directory.empty.realm,
  .clear]

theorem decisions_sample : (sample.run sample.emptyMemo sampleVisits).1
    = [some (.accepted sampleIdentity), some (.rejected (.ofKind .missingCredentials)), none] := by
  have hfirst : (sample.move sample.emptyMemo
      (.authenticate (some sampleHeader) 0 sampleRealm)).1 = some (.accepted sampleIdentity) :=
    congrArg some decision_sampleHeader
  rw [sampleVisits, decisions_cons, decisions_cons, decisions_cons, hfirst]
  rfl

theorem tokens_sample : sampleVisits.filterMap Move.token? = [sampleToken] := by
  have hfirst : (Move.authenticate (some sampleHeader) 0 sampleRealm).token? = some sampleToken :=
    Move.token?_eq_some_iff.mpr ofHeader_sampleHeader
  rw [sampleVisits, List.filterMap_cons_some hfirst]
  rfl

theorem metrics_agree_of_sample :
    let signals := (sample.run sample.emptyMemo sampleVisits).2.2
    build Settings.sample true none = .ok sample
      ∧ counter signals (decisionCounter none) = 1
      ∧ counter signals (decisionCounter (some .missingCredentials)) = 1
      ∧ counter signals (decisionCounter (some .tokenExpired)) = 0
      ∧ counter signals (lookupName "hit") + counter signals (lookupName "miss")
        + counter signals (lookupName "stale") = 1
      ∧ counter signals (lookupName "disabled") = 0 := by
  intro signals
  have hagree := metrics_agree build_sample sampleVisits
  have hdisabled := hagree.disabled
  have hlookups := hagree.lookups
  rw [tokens_sample] at hlookups
  rw [if_neg (by decide)] at hdisabled
  refine ⟨build_sample, ?_, ?_, ?_, ?_, hdisabled⟩
  · rw [hagree.accepted, decisions_sample]
    rfl
  · rw [hagree.rejected, decisions_sample]
    rfl
  · rw [hagree.rejected, decisions_sample]
    rfl
  · rwa [hdisabled, Nat.add_zero, List.length_singleton] at hlookups

end TokenGate.Gate
