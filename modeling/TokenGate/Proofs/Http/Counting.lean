import TokenGate.Http.Guard
import TokenGate.Proofs.Gate.Meters
import TokenGate.Proofs.Gate.Soundness

/-!
# Which requests in front of a handler are counted

* `Guard.answer`           the response that a decision calls for;
* `Guard.turns`            requests one after the other, each with the memo that it meets;
* `Guard.isDecided`        the gate itself comes to a decision on the request: it has no header or
                           one of visible text, and all lookups come back;
* `undecided_upToLost`     what happens up to a lookup that does not come back holds no decision;
* `verdicts_handle`        a request is counted once if the gate decides on it, and not at all if
                           it does not;
* `decided_counted`        so that the counters show the requests that the gate has decided on,
                           each under its own verdict;
* `unreadable_uncounted`   a request with an unreadable header is turned away, and no counter
                           shows it.
-/

namespace TokenGate.Guard

open Signal

variable {g : Gate} {handler : Handler} {m : Memo} {v : Visit} {visits rest : List Visit}

/-! ## one request -/

def answer (g : Gate) (handler : Handler) : Decision → Response
  | .accepted identity => handler (some identity)
  | .rejected r => refusal g.realmName r

def isDecided (g : Gate) (m : Memo) (v : Visit) : Bool :=
  match v.header with
  | none => true
  | some h =>
    match visibleText? h with
    | some text =>
      !(g.authenticate v.lookups.realm m (some text) v.now).signals.any v.lookups.lost
    | none => false

theorem handle_eq (g : Gate) (handler : Handler) (m : Memo) (v : Visit) :
    ∃ events : List Event, handle g handler m v = (answer g handler (decide g m v).decision,
      (decide g m v).memo, (decide g m v).signals ++ events.map .logged) := by
  unfold handle
  cases hd : (decide g m v).decision with
  | accepted identity => exact ⟨[], by simp [hd, answer]⟩
  | rejected r => exact ⟨refusalEvents g.realmName r, by simp [hd, answer]⟩

/-! ## a lookup that does not come back -/

/-- signals without a decision -/
def Undecided (l : List Signal) : Prop := ∀ s ∈ l, s.verdict? = none

theorem undecided_iff {l : List Signal} : Undecided l ↔ verdicts l = [] :=
  List.filterMap_eq_nil_iff.symm

theorem undecided_logged (events : List Event) : Undecided (events.map .logged) := by
  intro s hs
  obtain ⟨_, _, rfl⟩ := List.mem_map.mp hs
  rfl

theorem verdict?_of_lost {l : Lookups} {s : Signal} (h : l.lost s = true) : s.verdict? = none := by
  cases s with
  | consulted subject => rfl
  | _ => cases h

/-- the first lost lookup comes before the decision -/
theorem takeWhile_before {l : Lookups} {front back : List Signal}
    (hback : ∀ s ∈ back, l.lost s = false) (h : (front ++ back).any l.lost = true) :
    (front ++ back).takeWhile (fun s => !l.lost s) = front.takeWhile fun s => !l.lost s := by
  obtain ⟨s, hs, hlost⟩ := List.any_eq_true.mp h
  have hfront : s ∈ front := by
    rcases List.mem_append.mp hs with hs | hs
    · exact hs
    · rw [hback s hs] at hlost
      cases hlost
  rw [List.takeWhile_append, if_neg]
  intro hlen
  have hall := (List.takeWhile_prefix _).eq_of_length hlen
  have hkept := List.takeWhile_eq_self_iff.mp hall s hfront
  rw [hlost] at hkept
  cases hkept

theorem undecided_upToLost (g : Gate) (l : Lookups) (m : Memo) (header : Option String) (now : Int)
    (h : (g.authenticate l.realm m header now).signals.any l.lost = true) :
    Undecided (l.upToLost (g.authenticate l.realm m header now).signals) := by
  let back := Signal.decided (g.decide l.realm m header now).decision.failure?
    :: (Gate.closingEvents (g.decide l.realm m header now).decision).map .logged
  have hsplit : (g.authenticate l.realm m header now).signals
      = (g.decide l.realm m header now).signals ++ back := rfl
  have hback : ∀ s ∈ back, l.lost s = false := by
    intro s hs
    rcases List.mem_cons.mp hs with rfl | hs
    · rfl
    · obtain ⟨_, _, rfl⟩ := List.mem_map.mp hs
      rfl
  have hfront := undecided_iff.mpr (g.verdicts_decide l.realm m header now)
  intro s hs
  rcases List.mem_append.mp hs with hs | hs
  · rw [hsplit] at h hs
    rw [takeWhile_before hback h] at hs
    exact hfront s ((List.takeWhile_prefix _).subset hs)
  · exact verdict?_of_lost (List.mem_filter.mp (List.mem_of_mem_take hs)).2

/-! ## what is counted of a request -/

/-- a request that the gate does not decide on is turned away without a decision being counted -/
theorem decide_cases (g : Gate) (m : Memo) (v : Visit) :
    (isDecided g m v = true ∧ ∃ header, decide g m v
        = g.authenticate v.lookups.realm m header v.now)
      ∨ (isDecided g m v = false ∧ Undecided (decide g m v).signals
        ∧ ((decide g m v).decision = rejectedBy .malformedHeader
          ∨ (decide g m v).decision = rejectedBy .identityStoreUnavailable)) := by
  obtain ⟨header, now, lookups, report⟩ := v
  cases header with
  | none => exact .inl ⟨rfl, none, rfl⟩
  | some h =>
    cases hv : visibleText? h with
    | none =>
      simp only [decide, isDecided, hv]
      exact .inr ⟨trivial, undecided_logged [unseenEvent], .inl trivial⟩
    | some text =>
      simp only [decide, isDecided, hv, decideAside]
      by_cases hlost :
          (g.authenticate lookups.realm m (some text) now).signals.any lookups.lost = true
      · refine .inr ⟨by rw [hlost]; rfl, ?_, .inr (by rw [if_pos hlost])⟩
        rw [if_pos hlost, undecided_iff, verdicts_append,
          undecided_iff.mp (undecided_upToLost g lookups m (some text) now hlost)]
        rfl
      · refine .inl ⟨by simpa using hlost, some text, if_neg hlost⟩

theorem verdicts_handle (g : Gate) (handler : Handler) (m : Memo) (v : Visit) :
    verdicts (handle g handler m v).2.2
      = if isDecided g m v then [(decide g m v).decision.failure?] else [] := by
  obtain ⟨events, hhandle⟩ := handle_eq g handler m v
  rw [hhandle]
  show verdicts ((decide g m v).signals ++ events.map .logged) = _
  rw [verdicts_append, undecided_iff.mp (undecided_logged events), List.append_nil]
  rcases decide_cases g m v with ⟨hdecided, header, heq⟩ | ⟨hdecided, hun, _⟩
  · rw [if_pos hdecided, heq]
    exact g.verdicts_authenticate v.lookups.realm m header v.now
  · rw [if_neg (by simp [hdecided])]
    exact undecided_iff.mp hun

/-! ## requests one after the other -/

/-- the requests, each with the memo that it meets -/
def turns (g : Gate) (m : Memo) : List Visit → List (Memo × Visit)
  | [] => []
  | v :: rest => (m, v) :: turns g (decide g m v).memo rest

theorem visits_turns (g : Gate) (m : Memo) (visits : List Visit) :
    (turns g m visits).map Prod.snd = visits := by
  induction visits generalizing m with
  | nil => rfl
  | cons v rest ih => rw [turns, List.map_cons, ih]

theorem serve_eq (g : Gate) (handler : Handler) (m : Memo) (visits : List Visit) :
    (serve g handler m visits).1
        = (turns g m visits).map (fun t => answer g handler (decide g t.1 t.2).decision)
      ∧ (serve g handler m visits).2.2
        = (turns g m visits).flatMap fun t => (handle g handler t.1 t.2).2.2 := by
  induction visits generalizing m with
  | nil => exact ⟨rfl, rfl⟩
  | cons v rest ih =>
    obtain ⟨events, hhandle⟩ := handle_eq g handler m v
    obtain ⟨hresponses, hsignals⟩ := ih (decide g m v).memo
    rw [serve_cons, turns, List.map_cons, List.flatMap_cons, ← hresponses, ← hsignals]
    rw [hhandle]
    exact ⟨rfl, rfl⟩

theorem verdicts_flatMap {α : Type} (l : List α) (f : α → List Signal) :
    verdicts (l.flatMap f) = l.flatMap fun x => verdicts (f x) := by
  induction l with
  | nil => rfl
  | cons x l ih => rw [List.flatMap_cons, verdicts_append, ih, List.flatMap_cons]

/-- the verdicts that are counted are those on the requests that the gate has decided on -/
theorem verdicts_serve (g : Gate) (handler : Handler) (m : Memo) (visits : List Visit) :
    verdicts (serve g handler m visits).2.2
      = ((turns g m visits).filter fun t => isDecided g t.1 t.2).map
        fun t => (decide g t.1 t.2).decision.failure? := by
  rw [(serve_eq g handler m visits).2, verdicts_flatMap]
  induction turns g m visits with
  | nil => rfl
  | cons t rest ih =>
    rw [List.flatMap_cons, ih, verdicts_handle, List.filter_cons]
    split <;> rfl

/-- what responses and counters show of requests that are served one after the other -/
structure Counted (g : Gate) (handler : Handler) (turns : List (Memo × Visit))
    (responses : List Response) (signals : List Signal) : Prop where
  responses : responses = turns.map fun t => answer g handler (decide g t.1 t.2).decision
  /-- each verdict is counted for the requests that the gate has decided on -/
  counters : ∀ f, counter signals (decisionCounter f) = turns.countP fun t =>
    isDecided g t.1 t.2 && (decide g t.1 t.2).decision.failure? == f
  total : (verdictsAll.map fun f => counter signals (decisionCounter f)).sum
    = turns.countP fun t => isDecided g t.1 t.2
  /-- the others are turned away in one of two ways -/
  others : ∀ t ∈ turns, isDecided g t.1 t.2 = false →
    (decide g t.1 t.2).decision = rejectedBy .malformedHeader
      ∨ (decide g t.1 t.2).decision = rejectedBy .identityStoreUnavailable

/-- a request that the gate has decided on is counted once, under its own verdict, and any other is
turned away without being counted -/
theorem decided_counted (g : Gate) (handler : Handler) (m : Memo) (visits : List Visit) :
    (turns g m visits).map Prod.snd = visits
      ∧ Counted g handler (turns g m visits) (serve g handler m visits).1
        (serve g handler m visits).2.2 := by
  refine ⟨visits_turns g m visits, (serve_eq g handler m visits).1, fun f => ?_, ?_, ?_⟩
  · rw [counter_decision, verdicts_serve, List.count, List.countP_map, List.countP_filter]
    exact List.countP_congr fun t _ => by simp [and_comm]
  · rw [sum_counter_decision, verdicts_serve, List.length_map, List.countP_eq_length_filter]
  · intro t _ hfalse
    rcases decide_cases g t.1 t.2 with ⟨htrue, _⟩ | ⟨_, _, hturned⟩
    · rw [hfalse] at htrue
      cases htrue
    · exact hturned

/-- with a byte outside ASCII in its header a request is turned away, but not counted -/
theorem unreadable_uncounted :
    let visit : Visit := {
      header := some [0xC3, 0xA9]
      now := 0
      lookups := .ofRealm Directory.empty.realm }
    let served := serve Gate.sample whoAmI Gate.sample.emptyMemo [visit]
    served.1 = [refusal Gate.sample.realmName (.ofKind .malformedHeader)]
      ∧ ∀ f, counter served.2.2 (decisionCounter f) = 0 := by
  intro visit served
  have hdecided : isDecided Gate.sample Gate.sample.emptyMemo visit = false := rfl
  refine ⟨rfl, fun f => ?_⟩
  rw [counter_decision, verdicts_serve]
  show (List.map _ (List.filter _ [(Gate.sample.emptyMemo, visit)])).count f = 0
  rw [List.filter_cons_of_neg (by simp [hdecided])]
  rfl

end TokenGate.Guard
