import Mathlib
import TokenGate.Proofs.Gate.Signals
import TokenGate.Proofs.Memo.Entries

/-!
# What the metrics show

* `tallied_eq_count`        a name is tallied as often as it occurs;
* `Signal.counter`          the value of a counter after signals, which starts at zero;
* `Signal.samples`          the number of samples of a metric;
* `Signal.verdicts`, `findings`   the decisions and the lookups among signals;
* `counter_decision`        the counter of a verdict is the number of decisions with it;
* `counter_lookup`          that of a label is the number of lookups with it;
* `sum_counter_decision`    over all verdicts the counters add up to the number of decisions;
* `samples_duration`        there are as many samples of durations as validations were timed;
* `Signal.measured`         the signals that the metrics see;
* `measured_decideToken`    of a decision on a token they see the lookup, and that a validation was
                            timed unless the lookup helped;
* `measured_authenticate`   of a request they see in addition what it comes to.
-/

namespace TokenGate

/-! ## tallies of names -/

/-- how often a name was counted -/
def tallied (counts : List (String × Nat)) (name : String) : Nat := (counts.lookup name).getD 0

/-- count a name once more -/
def raiseTally (counts : List (String × Nat)) (name : String) : List (String × Nat) :=
  if counts.any (·.1 == name) then
    counts.map fun c => if c.1 == name then (c.1, c.2 + 1) else c
  else counts ++ [(name, 1)]

theorem tallyNames_eq (names : List String) : tallyNames names = names.foldl raiseTally [] := rfl

theorem lookup_raised (counts : List (String × Nat)) (name other : String) :
    (counts.map fun c => if c.1 == other then (c.1, c.2 + 1) else c).lookup name
      = (counts.lookup name).map fun n => if other = name then n + 1 else n := by
  induction counts with
  | nil => rfl
  | cons c counts ih =>
    obtain ⟨key, n⟩ := c
    by_cases hk : name = key
    · subst hk
      by_cases ho : name = other
      · subst ho
        simp
      · simp [ho, Ne.symm ho]
    · have hk' : (name == key) = false := beq_eq_false_iff_ne.mpr hk
      have hkept : (if key == other then (key, n + 1) else (key, n)).1 = key := by
        split <;> rfl
      rw [List.map_cons, List.lookup_cons, hkept, hk', List.lookup_cons, hk']
      exact ih

theorem tallied_raise (counts : List (String × Nat)) (name other : String) :
    tallied (raiseTally counts other) name
      = tallied counts name + if other = name then 1 else 0 := by
  unfold tallied raiseTally
  by_cases hc : counts.any (·.1 == other) = true
  · rw [if_pos hc, lookup_raised]
    obtain ⟨c, hmem, hkey⟩ := List.any_eq_true.mp hc
    by_cases ho : other = name
    · -- the name has a count, so that the count is what is raised
      subst ho
      have hsome : (counts.lookup other).isSome = true :=
        List.lookup_isSome_iff.mpr ⟨c, hmem, by rwa [BEq.comm]⟩
      obtain ⟨n, hn⟩ := Option.isSome_iff_exists.mp hsome
      simp [hn]
    · simp [ho]
  · rw [if_neg hc, List.lookup_append]
    by_cases ho : other = name
    · subst ho
      have hnone : counts.lookup other = none := by
        refine List.lookup_eq_none_iff.mpr fun c hmem => ?_
        have hne : ¬ (c.1 == other) = true := fun hkey =>
          hc (List.any_eq_true.mpr ⟨c, hmem, hkey⟩)
        rw [bne, BEq.comm]
        simpa using hne
      simp [hnone]
    · have hne : (name == other) = false := beq_eq_false_iff_ne.mpr (Ne.symm ho)
      simp [List.lookup_cons, hne, ho]

theorem tallied_foldl (names : List String) (counts : List (String × Nat)) (name : String) :
    tallied (names.foldl raiseTally counts) name = tallied counts name + names.count name := by
  induction names generalizing counts with
  | nil => rfl
  | cons first names ih =>
    rw [List.foldl_cons, ih, tallied_raise, List.count_cons]
    simp only [beq_iff_eq]
    omega

theorem tallied_eq_count (names : List String) (name : String) :
    tallied (tallyNames names) name = names.count name := by
  rw [tallyNames_eq, tallied_foldl]
  exact Nat.zero_add _

/-! ## lookups that help -/

def Lookup.isHit : Lookup → Bool
  | .hit _ => true
  | _ => false

theorem Lookup.isHit_eq_false_iff {r : Lookup} : r.isHit = false ↔ ∀ e, r ≠ .hit e := by
  cases r <;> simp [isHit]

namespace Signal

variable {l k : List Signal}

/-! ## counters -/

def counter (l : List Signal) (name : String) : Nat :=
  tallied (tallyNames (l.filterMap counter?)) name

def samples (l : List Signal) (name : String) : Nat :=
  tallied (tallyNames (l.filterMap sample?)) name

def lookupName (label : String) : String :=
  labelled "bearer_auth_cache_lookups_total" [("result", label)]

def durationName : String := "bearer_auth_validation_duration_seconds"

def verdict? : Signal → Option (Option Failure)
  | .decided failure => some failure
  | _ => none

def finding? : Signal → Option Lookup
  | .lookedUp result => some result
  | _ => none

/-- the failures of decisions in order, and `none` for each acceptance -/
def verdicts (l : List Signal) : List (Option Failure) := l.filterMap verdict?

def findings (l : List Signal) : List Lookup := l.filterMap finding?

theorem verdicts_append (l k : List Signal) : verdicts (l ++ k) = verdicts l ++ verdicts k :=
  List.filterMap_append

theorem findings_append (l k : List Signal) : findings (l ++ k) = findings l ++ findings k :=
  List.filterMap_append

/-! ## names -/

def verdictsAll : List (Option Failure) := none :: Failure.all.map some

def lookupLabels : List String := ["hit", "miss", "stale", "disabled"]

theorem mem_verdictsAll (f : Option Failure) : f ∈ verdictsAll := by
  cases f with
  | none => exact List.mem_cons_self ..
  | some kind => exact List.mem_cons_of_mem _ (List.mem_map_of_mem (Failure.mem_all kind))

theorem mem_lookupLabels (r : Lookup) : r.label ∈ lookupLabels := by
  cases r <;> simp [Lookup.label, lookupLabels]

theorem decisionCounter_inj {f f' : Option Failure} :
    decisionCounter f = decisionCounter f' ↔ f = f' := by
  have hnodup : (verdictsAll.map decisionCounter).Nodup := by decide +kernel
  constructor
  · intro h
    exact List.inj_on_of_nodup_map hnodup (mem_verdictsAll f) (mem_verdictsAll f') h
  · exact congrArg _

theorem lookupName_inj {label label' : String} (h : label ∈ lookupLabels)
    (h' : label' ∈ lookupLabels) : lookupName label = lookupName label' ↔ label = label' := by
  have hnodup : (lookupLabels.map lookupName).Nodup := by decide +kernel
  constructor
  · exact List.inj_on_of_nodup_map hnodup h h'
  · exact congrArg _

theorem lookupName_ne_decisionCounter {label : String} (h : label ∈ lookupLabels)
    (f : Option Failure) : lookupName label ≠ decisionCounter f := by
  have hall : ∀ label ∈ lookupLabels, ∀ f ∈ verdictsAll,
      lookupName label ≠ decisionCounter f := by decide +kernel
  exact hall label h f (mem_verdictsAll f)

/-! ## what a counter counts -/

theorem counter_decision (l : List Signal) (f : Option Failure) :
    counter l (decisionCounter f) = (verdicts l).count f := by
  unfold counter verdicts
  rw [tallied_eq_count, List.count_filterMap, List.count_filterMap]
  refine List.countP_congr fun s _ => ?_
  cases s with
  | decided f' => simp [counter?, verdict?, decisionCounter_inj]
  | lookedUp r =>
    have hne := lookupName_ne_decisionCounter (mem_lookupLabels r) f
    exact iff_of_false (fun hs => hne (Option.some.inj (eq_of_beq hs))) (by simp [verdict?])
  | _ => rfl

theorem counter_lookup (l : List Signal) {label : String} (h : label ∈ lookupLabels) :
    counter l (lookupName label) = (findings l).countP (·.label == label) := by
  unfold counter findings
  rw [tallied_eq_count, List.count_filterMap, List.countP_filterMap]
  refine List.countP_congr fun s _ => ?_
  cases s with
  | decided f =>
    have hne := lookupName_ne_decisionCounter h f
    exact iff_of_false (fun hs => hne (Option.some.inj (eq_of_beq hs)).symm) (by simp [finding?])
  | lookedUp r =>
    have hinj := lookupName_inj (mem_lookupLabels r) h
    show (some (lookupName r.label) == some (lookupName label)) = true ↔ _
    simp [hinj, finding?]
  | _ => rfl

theorem sum_count (found : List (Option Failure)) :
    (verdictsAll.map fun f => found.count f).sum = found.length := by
  have hone : ∀ f' ∈ verdictsAll, (verdictsAll.map fun f => if f' == f then 1 else 0).sum = 1 := by
    decide
  induction found with
  | nil => rfl
  | cons f' found ih =>
    simp only [List.count_cons, List.sum_map_add, ih, List.length_cons]
    rw [hone f' (mem_verdictsAll f')]

/-- over all labels there are as many counts as decisions -/
theorem sum_counter_decision (l : List Signal) :
    (verdictsAll.map fun f => counter l (decisionCounter f)).sum = (verdicts l).length := by
  simp only [counter_decision]
  exact sum_count _

theorem samples_duration (l : List Signal) : samples l durationName = l.count .timed := by
  unfold samples
  rw [tallied_eq_count, List.count_filterMap, List.count]
  refine List.countP_congr fun s _ => ?_
  cases s <;> simp [sample?, durationName]

/-! ## signals that are measured -/

def isMeasured : Signal → Bool
  | .decided _ => true
  | .lookedUp _ => true
  | .timed => true
  | _ => false

def measured (l : List Signal) : List Signal := l.filter isMeasured

theorem measured_append (l k : List Signal) : measured (l ++ k) = measured l ++ measured k :=
  List.filter_append ..

def Unmeasured (l : List Signal) : Prop := ∀ s ∈ l, s.isMeasured = false

theorem unmeasured_nil : Unmeasured [] := fun _ hs => absurd hs List.not_mem_nil

theorem unmeasured_single {s : Signal} (h : s.isMeasured = false) : Unmeasured [s] :=
  fun _ hs => List.mem_singleton.mp hs ▸ h

theorem unmeasured_logged (events : List Event) : Unmeasured (events.map .logged) := by
  intro s hs
  obtain ⟨_, _, rfl⟩ := List.mem_map.mp hs
  rfl

theorem Unmeasured.measured_eq (h : Unmeasured l) : measured l = [] := by
  simpa [measured, Unmeasured] using h

theorem filterMap_measured {α : Type} {f : Signal → Option α}
    (hf : ∀ s, s.isMeasured = false → f s = none) (l : List Signal) :
    (measured l).filterMap f = l.filterMap f := by
  rw [measured, List.filterMap_filter]
  refine List.filterMap_congr fun s _ => ?_
  by_cases hs : s.isMeasured = true
  · rw [if_pos hs]
  · rw [if_neg hs, hf s (by simpa using hs)]

theorem verdicts_measured (l : List Signal) : verdicts (measured l) = verdicts l :=
  filterMap_measured (fun s hs => by cases s <;> first | rfl | cases hs) l

theorem findings_measured (l : List Signal) : findings (measured l) = findings l :=
  filterMap_measured (fun s hs => by cases s <;> first | rfl | cases hs) l

theorem count_timed_measured (l : List Signal) : (measured l).count .timed = l.count .timed :=
  List.count_filter rfl

end Signal

namespace Traced

variable {α β ε : Type} {P : Signal → Prop}

/-- what all signals of the steps have in common -/
theorem forall_bind {t : Traced α} {next : α → Traced β} (ht : ∀ s ∈ t.signals, P s)
    (hn : ∀ a, ∀ s ∈ (next a).signals, P s) : ∀ s ∈ (t >>= next).signals, P s := by
  intro s hs
  rw [signals_bind] at hs
  rcases List.mem_append.mp hs with hs | hs
  · exact ht s hs
  · cases hr : t.result with
    | ok a =>
      rw [hr] at hs
      exact hn a s hs
    | error r =>
      rw [hr] at hs
      cases hs

end Traced

namespace Gate

open Signal
open Traced (forall_bind)

variable {g : Gate} {realm : Realm} {m : Memo} {header : Option String} {raw : String} {now : Int}

/-! ## an examination -/

theorem unmeasured_ofExcept {α ε : Type} (wrap : ε → Refusal) (x : Except ε α) :
    Unmeasured (Traced.ofExcept wrap x).signals := by
  cases x with
  | ok a => exact unmeasured_nil
  | error e => exact unmeasured_single rfl

theorem unmeasured_confirm (g : Gate) (realm : Realm) (subject : String) (own : Roles) :
    Unmeasured (g.confirm realm subject own).signals := by
  unfold confirm
  split
  · split
    · refine forall_bind (unmeasured_single rfl) fun _ => ?_
      refine forall_bind (unmeasured_ofExcept _ _) fun record => ?_
      split
      · exact unmeasured_nil
      · exact unmeasured_single rfl
    · exact unmeasured_single rfl
  · exact unmeasured_nil

theorem unmeasured_examine (g : Gate) (realm : Realm) (raw : String) (now : Int) :
    Unmeasured (g.examine realm raw now).signals := by
  rw [examine_eq]
  refine forall_bind ?_ fun token => ?_
  · refine forall_bind (unmeasured_ofExcept _ _) fun token => ?_
    refine forall_bind (unmeasured_single rfl) fun _ => ?_
    exact forall_bind (unmeasured_ofExcept _ _) fun _ => unmeasured_nil
  · refine forall_bind (unmeasured_ofExcept _ _) fun claims => ?_
    refine forall_bind (unmeasured_ofExcept _ _) fun checked => ?_
    refine forall_bind (unmeasured_logged _) fun _ => ?_
    exact forall_bind (g.unmeasured_confirm realm _ _) fun _ => unmeasured_nil

/-! ## a request -/

theorem measured_decideToken (g : Gate) (realm : Realm) (m : Memo) (raw : String) (now : Int) :
    measured (g.decideToken realm m raw now).signals
      = .lookedUp (m.lookup raw now).1
        :: if (m.lookup raw now).1.isHit then [] else [.timed] := by
  rcases m.hit_or_fresh raw now with ⟨e, hl⟩ | hl
  · rw [decideToken_of_hit hl, hl]
    rfl
  · obtain ⟨events, hs⟩ : ∃ events : List Event,
        (g.decideFresh realm (m.lookup raw now).2 raw now).signals
          = (g.examine realm raw now).signals ++ .timed :: events.map .logged := ⟨_, rfl⟩
    rw [decideToken_of_fresh hl, Lookup.isHit_eq_false_iff.mpr hl]
    show measured (_ ++ [_] ++ (g.decideFresh realm (m.lookup raw now).2 raw now).signals) = _
    rw [hs, measured_append, measured_append, measured_append,
      (unmeasured_logged _).measured_eq, (g.unmeasured_examine realm raw now).measured_eq]
    show [_] ++ ([] ++ (.timed :: measured (events.map .logged))) = _
    rw [(unmeasured_logged _).measured_eq]
    rfl

theorem measured_decide_of_error {f : Credential.Fault}
    (hf : Credential.ofHeader header = .error f) :
    measured (g.decide realm m header now).signals = [] := by
  unfold decide
  rw [hf]
  exact (unmeasured_logged _).measured_eq

/-- a request without a token is decided without a call to the verifier -/
theorem unverified_of_error (g : Gate) (realm : Realm) (m : Memo) {f : Credential.Fault}
    (hf : Credential.ofHeader header = .error f) (now : Int) :
    Unverified (g.authenticate realm m header now).signals := by
  unfold authenticate decide
  rw [hf]
  exact unverified_append (offline_logged _).unverified (offline_closing _).unverified

theorem measured_authenticate (g : Gate) (realm : Realm) (m : Memo) (header : Option String)
    (now : Int) : measured (g.authenticate realm m header now).signals
      = measured (g.decide realm m header now).signals
        ++ [.decided (g.authenticate realm m header now).decision.failure?] := by
  unfold authenticate
  rw [measured_append]
  show _ ++ (.decided _ :: measured ((closingEvents _).map .logged)) = _
  rw [(unmeasured_logged _).measured_eq]

theorem verdicts_decide (g : Gate) (realm : Realm) (m : Memo) (header : Option String)
    (now : Int) : verdicts (g.decide realm m header now).signals = [] := by
  rw [← verdicts_measured]
  cases ht : Credential.ofHeader header with
  | error f => rw [measured_decide_of_error ht]; rfl
  | ok token =>
    rw [decide_token ht, measured_decideToken]
    cases (m.lookup token now).1 <;> rfl

/-- a request comes to one decision -/
theorem verdicts_authenticate (g : Gate) (realm : Realm) (m : Memo) (header : Option String)
    (now : Int) : verdicts (g.authenticate realm m header now).signals
      = [(g.authenticate realm m header now).decision.failure?] := by
  rw [← verdicts_measured, measured_authenticate, verdicts_append, verdicts_measured,
    verdicts_decide]
  rfl

end Gate

end TokenGate
