import TokenGate.Proofs.Gate.Revocation
import TokenGate.Proofs.Memo.Tallies

/-!
# What rejected requests do to the memo

* `Move.overruns`          a request presents the token of an entry that is over by then;
* `fresh_of_rejected`      a rejection does not come from the memo: all that it remembers was
                           accepted;
* `memo_of_rejected`       nor is anything stored;
* `pruned_of_rejected`     so a rejected request takes the entry that it overruns at most;
* `Gate.AllRejected`       requests one after the other that are all rejected;
* `pruned_of_all_rejected` they take the entries that they overrun at most;
* `rejected_undisturbed`   both for a gate that was built, after any moves.
-/

namespace TokenGate

/-- the move presents the token of an entry after the entry's end -/
def Move.overruns (x : String × Entry) : Move → Bool
  | .authenticate header now _ =>
    (Credential.ofHeader header).toOption.any fun token => Memo.isOver token now x
  | .clear => false

theorem Move.overruns_of_token {header : Option String} {token : String} {now : Int}
    {realm : Realm} (ht : Credential.ofHeader header = .ok token) (x : String × Entry) :
    (Move.authenticate header now realm).overruns x = Memo.isOver token now x := by
  rw [overruns, ht]
  rfl

theorem Move.overruns_of_error {header : Option String} {f : Credential.Fault} {now : Int}
    {realm : Realm} (hf : Credential.ofHeader header = .error f) (x : String × Entry) :
    (Move.authenticate header now realm).overruns x = false := by
  rw [overruns, hf]
  rfl

/-- an entry is not overrun by moves that come no later than its end -/
theorem Move.not_overruns {mv : Move} {x : String × Entry}
    (h : ∀ now, mv.instant? = some now → now ≤ x.2.validUntil) : mv.overruns x = false := by
  cases mv with
  | clear => rfl
  | authenticate header now realm =>
    have hnow := h now rfl
    have hlate : decide (x.2.validUntil < now) = false := decide_eq_false (by omega)
    cases ht : Credential.ofHeader header with
    | error f => exact overruns_of_error ht x
    | ok token => rw [overruns_of_token ht, Memo.isOver, hlate, Bool.and_false]

namespace Gate

variable {s : Settings} {hasRealm : Bool} {verifier : Option Verifier} {g : Gate} {realm : Realm}
  {header : Option String} {token : String} {now : Int} {moves requests : List Move}
  {r : Rejection}

/-! ## one request -/

theorem fresh_of_rejected (hg : g.Sound) (ht : Credential.ofHeader header = .ok token)
    (hd : (g.authenticate realm (g.memoAfter moves) header now).decision = .rejected r)
    (e : Entry) : ((g.memoAfter moves).lookup token now).1 ≠ .hit e := by
  intro hl
  have hacc := isAccepted_of_mem hg (Memo.mem_of_hit hl).1
  rw [← (g.authenticate_of_hit realm ht hl).1, hd] at hacc
  cases hacc

theorem storing_of_rejected (hg : g.Sound)
    (hv : (g.validate realm token now).decision = .rejected r) :
    g.storing realm token now = [] := by
  unfold storing
  split
  · next hacc _ =>
    have hd := decision_of_accepted hg hacc
    rw [hv] at hd
    cases hd
  · rfl

theorem memo_of_rejected (hg : g.Sound) (ht : Credential.ofHeader header = .ok token)
    (hd : (g.authenticate realm (g.memoAfter moves) header now).decision = .rejected r) :
    (g.authenticate realm (g.memoAfter moves) header now).memo
      = ((g.memoAfter moves).lookup token now).2 := by
  obtain ⟨hv, hmemo, _⟩ := g.authenticate_of_fresh realm ht (fresh_of_rejected hg ht hd)
  rw [hd] at hv
  rw [hmemo, memo_remember, storing_of_rejected hg hv.symm]
  rfl

theorem pruned_of_rejected (hg : g.Sound)
    (hd : (g.authenticate realm (g.memoAfter moves) header now).decision = .rejected r) :
    (g.memoAfter moves).Pruned (g.authenticate realm (g.memoAfter moves) header now).memo
      fun x => (Move.authenticate header now realm).overruns x := by
  cases ht : Credential.ofHeader header with
  | error f =>
    rw [(g.authenticate_of_error realm _ ht now).2]
    rw [funext fun x => Move.overruns_of_error ht x]
    exact Memo.pruned_refl _
  | ok token =>
    rw [memo_of_rejected hg ht hd, funext fun x => Move.overruns_of_token ht x]
    exact Memo.pruned_lookup (g.wellFormed_memoAfter moves) (fresh_of_rejected hg ht hd)

theorem memo_of_no_token {mv : Move} (m : Memo) (hmv : mv ≠ .clear) (ht : mv.token? = none) :
    (g.move m mv).2.1 = m := by
  cases mv with
  | clear => exact absurd rfl hmv
  | authenticate header now realm =>
    cases hf : Credential.ofHeader header with
    | error f => exact (g.authenticate_of_error realm m hf now).2
    | ok token =>
      rw [Move.token?_eq_some_iff.mpr hf] at ht
      cases ht

/-! ## requests one after the other -/

/-- a run in which every move is a request, and is rejected -/
def AllRejected (g : Gate) (m : Memo) (requests : List Move) : Prop :=
  ∀ d ∈ (g.run m requests).1, ∃ r, d = some (.rejected r)

theorem allRejected_nil (g : Gate) (m : Memo) : g.AllRejected m [] :=
  fun _ hd => absurd hd List.not_mem_nil

theorem allRejected_concat (g : Gate) (m : Memo) (requests : List Move) (mv : Move) :
    g.AllRejected m (requests ++ [mv]) ↔ g.AllRejected m requests
      ∧ ∃ r, (g.move (g.run m requests).2.1 mv).1 = some (.rejected r) := by
  unfold AllRejected
  rw [run_append]
  constructor
  · intro h
    exact ⟨fun d hd => h d (List.mem_append_left _ hd),
      h _ (List.mem_append_right _ (List.mem_cons_self ..))⟩
  · intro h d hd
    rcases List.mem_append.mp hd with hd | hd
    · exact h.1 d hd
    · rw [List.mem_singleton.mp hd]
      exact h.2

theorem pruned_of_all_rejected (hg : g.Sound)
    (h : g.AllRejected (g.memoAfter moves) requests) :
    (g.memoAfter moves).Pruned (g.memoAfter (moves ++ requests))
      fun x => requests.any (·.overruns x) := by
  induction requests using List.reverseRecOn with
  | nil =>
    rw [List.append_nil]
    exact Memo.pruned_refl _
  | append_singleton requests mv ih =>
    obtain ⟨hfront, r, hd⟩ := (g.allRejected_concat _ _ _).mp h
    rw [← memoAfter_append] at hd
    rw [← List.append_assoc, memoAfter_concat]
    cases mv with
    | clear => cases hd
    | authenticate header now realm =>
      have hstep := (ih hfront).trans (pruned_of_rejected hg (Option.some.inj hd))
      simp only [List.any_append, List.any_cons, List.any_nil, Bool.or_false]
      exact hstep

theorem memo_of_no_tokens (h : g.AllRejected (g.memoAfter moves) requests)
    (ht : ∀ mv ∈ requests, mv.token? = none) :
    g.memoAfter (moves ++ requests) = g.memoAfter moves := by
  induction requests using List.reverseRecOn with
  | nil => rw [List.append_nil]
  | append_singleton requests mv ih =>
    obtain ⟨hfront, r, hd⟩ := (g.allRejected_concat _ _ _).mp h
    have hmv : mv ≠ .clear := by
      rintro rfl
      cases hd
    rw [← List.append_assoc, memoAfter_concat, memo_of_no_token _ hmv (ht mv (by simp))]
    exact ih hfront fun mv hm => ht mv (List.mem_append_left _ hm)

/-- after any moves, a rejected request takes the entry that it overruns at most, and rejected
requests one after the other take those that they overrun; hits and evictions are not counted, and
requests without a token change nothing at all. So the entries that are not over stay as they
are -/
theorem rejected_undisturbed (h : build s hasRealm verifier = .ok g) (moves : List Move) :
    let m := g.memoAfter moves
    (∀ realm header now r, (g.authenticate realm m header now).decision = .rejected r →
      m.Pruned (g.authenticate realm m header now).memo
          (fun x => (Move.authenticate header now realm).overruns x)
        ∧ ((∀ token, Credential.ofHeader header ≠ .ok token) →
          (g.authenticate realm m header now).memo = m))
    ∧ ∀ requests, g.AllRejected m requests →
      m.Pruned (g.memoAfter (moves ++ requests)) (fun x => requests.any (·.overruns x))
        ∧ ((∀ mv ∈ requests, mv.token? = none) → g.memoAfter (moves ++ requests) = m)
        ∧ ∀ x ∈ m.entries, (∀ mv ∈ requests, ∀ now, mv.instant? = some now →
          now ≤ x.2.validUntil) → x ∈ (g.memoAfter (moves ++ requests)).entries := by
  intro m
  have hg := sound_of_build h
  refine ⟨fun realm header now r hd => ⟨pruned_of_rejected hg hd, fun ht => ?_⟩,
    fun requests hrej => ⟨pruned_of_all_rejected hg hrej, memo_of_no_tokens hrej, ?_⟩⟩
  · cases hf : Credential.ofHeader header with
    | error f => exact (g.authenticate_of_error realm m hf now).2
    | ok token => exact absurd hf (ht token)
  · intro x hx htimely
    refine (pruned_of_all_rejected hg hrej).mem hx (List.any_eq_false.mpr fun mv hm => ?_)
    rw [Move.not_overruns (htimely mv hm)]
    exact Bool.false_ne_true

/-! the sample token is remembered until 3600 -/

theorem holds_sample :
    sample.Holds [.authenticate (some sampleHeader) 0 sampleRealm] sampleToken
      (sample.entryFor sampleIdentity 0 3600) ∅ :=
  holds_of_opens (sound_of_build build_sample) (by decide) opens_sample

theorem allRejected_sample :
    sample.AllRejected (sample.memoAfter [.authenticate (some sampleHeader) 0 sampleRealm])
      [.authenticate none 10 Directory.empty.realm,
        .authenticate (some sampleHeader) 3601 Directory.empty.realm] := by
  have hfresh := holds_sample.lookup_ne_hit (show (3600 : Int) < 3601 by decide)
  obtain ⟨r, hr⟩ := rejected_of_denies (sound_of_build build_sample) rfl hasSubject_sample
    (denies_empty _) 3601
  have hlate := (sample.authenticate_of_fresh Directory.empty.realm ofHeader_sampleHeader hfresh).1
  have hearly : sample.AllRejected
      (sample.memoAfter [.authenticate (some sampleHeader) 0 sampleRealm])
      [.authenticate none 10 Directory.empty.realm] :=
    (sample.allRejected_concat _ [] _).mpr ⟨sample.allRejected_nil _, _, rfl⟩
  refine (sample.allRejected_concat _ [_] _).mpr ⟨hearly, r, ?_⟩
  rw [← memoAfter_append, memo_of_no_tokens hearly fun mv hm => by
    rw [List.mem_singleton.mp hm]
    rfl]
  exact congrArg some (hlate.trans hr)

theorem rejected_undisturbed_of_sample :
    let moves := [Move.authenticate (some sampleHeader) 0 sampleRealm]
    let early := Move.authenticate none 10 Directory.empty.realm
    let late := Move.authenticate (some sampleHeader) 3601 Directory.empty.realm
    build Settings.sample true none = .ok sample
      ∧ sample.AllRejected (sample.memoAfter moves) [early, late]
      ∧ (sample.memoAfter moves).contains sampleToken = true
      ∧ sample.memoAfter (moves ++ [early]) = sample.memoAfter moves
      ∧ sampleToken ∉ (sample.memoAfter (moves ++ [early, late])).tokens := by
  intro moves early late
  obtain ⟨_, hrun⟩ := rejected_undisturbed build_sample moves
  have hearly : sample.AllRejected (sample.memoAfter moves) [early] :=
    ((sample.allRejected_concat _ [early] late).mp allRejected_sample).1
  refine ⟨build_sample, allRejected_sample, holds_sample.within.contains,
    (hrun [early] hearly).2.1 ?_, ?_⟩
  · intro mv hm
    rw [List.mem_singleton.mp hm]
    rfl
  · intro ht
    obtain ⟨⟨t, e⟩, hx, rfl⟩ := List.mem_map.mp ht
    rw [(hrun [early, late] allRejected_sample).1.entries] at hx
    obtain ⟨hmem, hkept⟩ := List.mem_filter.mp hx
    have hover : late.overruns (sampleToken, e) = true := by
      rw [holds_sample.only e hmem, Move.overruns_of_token ofHeader_sampleHeader]
      simp only [Memo.isOver, beq_self_eq_true, Bool.true_and]
      rfl
    simp [hover] at hkept

end Gate

end TokenGate
