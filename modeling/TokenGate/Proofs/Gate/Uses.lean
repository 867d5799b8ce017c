import TokenGate.Proofs.Gate.Signals
import TokenGate.Proofs.Gate.Provenance
import TokenGate.Proofs.Memo.Retention

/-!
# What moves do to the memo

* `Move.token?`          the token that a move presents;
* `Gate.uses`            the uses of the memo that a move consists of: the token is looked up, and
                         if that does not help and a full validation accepts it, it is stored;
* `memo_move`            the memo after a move is what its uses leave;
* `Gate.accepts?`        the token that a move accepts;
* `acceptedTokens`       the tokens that moves accept one after the other;
* `touches_uses`         a move touches no token but the one that it accepts;
* `token_of_drops`       a request takes the entry of no other token away.

With this what is known of runs of a memo holds of runs of a gate.
-/

namespace TokenGate

def Use.token? : Use → Option String
  | .store token _ _ _ => some token
  | .lookup token _ => some token
  | .contains token => some token
  | .clear => none

def Move.token? : Move → Option String
  | .authenticate header _ _ => (Credential.ofHeader header).toOption
  | .clear => none

theorem Move.token?_eq_some_iff {header : Option String} {token : String} {now : Int}
    {realm : Realm} : (Move.authenticate header now realm).token? = some token ↔
      Credential.ofHeader header = .ok token := by
  show (Credential.ofHeader header).toOption = some token ↔ _
  cases Credential.ofHeader header <;> simp [Except.toOption]

/-! ## the token of an effect -/

namespace Answered

variable {x : Answered} {token : String} {e : Entry}

theorem token_of_raises (h : x.effect = .raises token e) : x.use.token? = some token := by
  unfold effect at h
  split at h
  · split at h
    · cases h
      rfl
    · cases h
  · cases h
    rfl
  all_goals cases h

/-- only clearing the memo takes away more than the entry of its own token -/
theorem token_of_drops (h : x.Drops token) (hu : x.use ≠ .clear) :
    x.use.token? = some token := by
  unfold Drops effect at h
  split at h
  · split at h <;> rcases h with h | h <;> cases h
  · rcases h with h | h <;> cases h
  · rcases h with h | h <;> cases h
    rfl
  · exact absurd rfl hu
  · rcases h with h | h <;> cases h

end Answered

/-! ## the uses of a move -/

namespace Gate

open Answered (touches)

variable {g : Gate} {m : Memo} {realm : Realm} {header : Option String} {raw token : String}
  {now : Int} {mv : Move} {moves : List Move}

/-- what is stored after a full validation -/
def storing (g : Gate) (realm : Realm) (token : String) (now : Int) : List Use :=
  match (g.validate realm token now).accepted, (g.validate realm token now).expiresAt with
  | true, some expiresAt =>
    [.store token (g.validate realm token now) now (g.validUntil now expiresAt)]
  | _, _ => []

def usesOf (g : Gate) (realm : Realm) (m : Memo) (token : String) (now : Int) : List Use :=
  match (m.lookup token now).1 with
  | .hit _ => [.lookup token now]
  | _ => .lookup token now :: g.storing realm token now

def uses (g : Gate) (m : Memo) : Move → List Use
  | .authenticate header now realm =>
    match Credential.ofHeader header with
    | .ok token => g.usesOf realm m token now
    | .error _ => []
  | .clear => [.clear]

theorem uses_of_token (ht : Credential.ofHeader header = .ok token) :
    g.uses m (.authenticate header now realm) = g.usesOf realm m token now := by
  simp only [uses, ht]

theorem uses_of_error {f : Credential.Fault} (hf : Credential.ofHeader header = .error f) :
    g.uses m (.authenticate header now realm) = [] := by
  simp only [uses, hf]

theorem usesOf_of_hit {e : Entry} (h : (m.lookup token now).1 = .hit e) :
    g.usesOf realm m token now = [.lookup token now] := by
  unfold usesOf
  rw [h]

theorem usesOf_of_fresh (h : ∀ e, (m.lookup token now).1 ≠ .hit e) :
    g.usesOf realm m token now = .lookup token now :: g.storing realm token now := by
  unfold usesOf
  cases hl : (m.lookup token now).1 with
  | hit e => exact absurd hl (h e)
  | _ => rfl

theorem memo_remember (g : Gate) (realm : Realm) (m : Memo) (token : String) (now : Int) :
    (g.remember m token (g.validate realm token now) now).2
      = (m.run (g.storing realm token now)).2 := by
  unfold remember storing
  generalize g.validate realm token now = o
  obtain ⟨accepted, subject, roles, expiresAt, failure⟩ := o
  cases accepted <;> cases expiresAt <;> rfl

theorem memo_move (g : Gate) (m : Memo) (mv : Move) :
    (g.move m mv).2.1 = (m.run (g.uses m mv)).2 := by
  cases mv with
  | clear => rfl
  | authenticate header now realm =>
    show (g.authenticate realm m header now).memo = _
    cases ht : Credential.ofHeader header with
    | error f =>
      rw [(g.authenticate_of_error realm m ht now).2, uses_of_error ht]
      rfl
    | ok token =>
      rw [uses_of_token ht]
      rcases m.hit_or_fresh token now with ⟨e, hl⟩ | hl
      · rw [(g.authenticate_of_hit realm ht hl).2.1, usesOf_of_hit hl]
        rfl
      · rw [(g.authenticate_of_fresh realm ht hl).2.1, memo_remember, usesOf_of_fresh hl]
        rfl

theorem mem_storing {u : Use} (h : u ∈ g.storing realm token now) :
    (g.validate realm token now).accepted = true
      ∧ ∃ outcome validUntil, u = .store token outcome now validUntil := by
  unfold storing at h
  split at h
  · next hacc _ => exact ⟨hacc, _, _, List.mem_singleton.mp h⟩
  · cases h

/-- a move that does not clear the memo uses it for its own token -/
theorem token_of_uses {u : Use} (h : u ∈ g.uses m mv) (hmv : mv ≠ .clear) :
    u.token? = mv.token? ∧ u ≠ .clear := by
  cases mv with
  | clear => exact absurd rfl hmv
  | authenticate header now realm =>
    cases ht : Credential.ofHeader header with
    | error f =>
      rw [uses_of_error ht] at h
      cases h
    | ok token =>
      rw [uses_of_token ht] at h
      rw [Move.token?_eq_some_iff.mpr ht]
      have hu : u = .lookup token now ∨ u ∈ g.storing realm token now := by
        rcases m.hit_or_fresh token now with ⟨e, hl⟩ | hl
        · rw [usesOf_of_hit hl] at h
          exact .inl (List.mem_singleton.mp h)
        · rw [usesOf_of_fresh hl] at h
          exact List.mem_cons.mp h
      rcases hu with rfl | hu
      · exact ⟨rfl, by simp⟩
      · obtain ⟨_, _, _, rfl⟩ := mem_storing hu
        exact ⟨rfl, by simp⟩

/-! ## what every move keeps -/

theorem wellFormed_memoAfter (g : Gate) (moves : List Move) : (g.memoAfter moves).WellFormed := by
  induction moves using List.reverseRecOn with
  | nil => exact Memo.wellFormed_ofCapacity g.capacity
  | append_singleton moves mv ih =>
    rw [memoAfter_concat, memo_move]
    exact Memo.wellFormed_run ih _

theorem capacity_memoAfter (g : Gate) (moves : List Move) :
    (g.memoAfter moves).capacity = g.capacity := by
  induction moves using List.reverseRecOn with
  | nil => rfl
  | append_singleton moves mv ih => rw [memoAfter_concat, memo_move, Memo.capacity_run, ih]

/-! ## tokens that are accepted -/

/-- the token that a move accepts -/
def accepts? (g : Gate) (m : Memo) (mv : Move) : Option String :=
  if (g.move m mv).1.any Decision.isAccepted then mv.token? else none

def acceptedTokens (g : Gate) (m : Memo) : List Move → List String
  | [] => []
  | mv :: rest => (g.accepts? m mv).toList ++ g.acceptedTokens (g.move m mv).2.1 rest

theorem acceptedTokens_concat (g : Gate) (m : Memo) (moves : List Move) (mv : Move) :
    g.acceptedTokens m (moves ++ [mv])
      = g.acceptedTokens m moves ++ (g.accepts? (g.run m moves).2.1 mv).toList := by
  induction moves generalizing m with
  | nil => simp [acceptedTokens, run_nil]
  | cons first moves ih =>
    rw [List.cons_append, acceptedTokens, acceptedTokens, ih, List.append_assoc]
    rfl

theorem card_acceptedTokens_le (g : Gate) (m : Memo) (moves : List Move) :
    (g.acceptedTokens m moves).toFinset.card ≤ moves.length := by
  refine Nat.le_trans (List.toFinset_card_le _) ?_
  induction moves generalizing m with
  | nil => exact Nat.le_refl 0
  | cons mv moves ih =>
    have hone : (g.accepts? m mv).toList.length ≤ 1 := by
      cases g.accepts? m mv <;> simp
    have hrest := ih (g.move m mv).2.1
    rw [acceptedTokens, List.length_append, List.length_cons]
    omega

theorem decision_of_accepted (hg : g.Sound) (h : (g.validate realm raw now).accepted = true) :
    ((g.validate realm raw now).decision).isAccepted = true := by
  obtain ⟨_, _, _, _, _, _, hv⟩ := grounds_of_accepted hg h
  rw [hv]
  rfl

/-- what is remembered was accepted -/
theorem isAccepted_of_mem (hg : g.Sound) {e : Entry}
    (h : (token, e) ∈ (g.memoAfter moves).entries) : e.outcome.decision.isAccepted = true := by
  obtain ⟨_, _, instant, realm, _, _, _, _, hs, _⟩ := origin_of_mem h
  have hacc := hs.accepted
  rw [hs.outcome] at hacc ⊢
  exact decision_of_accepted hg hacc

theorem isAccepted_of_raises (hg : g.Sound) {x : Answered} {e : Entry}
    (hx : x ∈ (g.memoAfter moves).history (g.uses (g.memoAfter moves) mv))
    (h : x.effect = .raises token e) :
    (g.move (g.memoAfter moves) mv).1.any Decision.isAccepted = true := by
  cases mv with
  | clear =>
    obtain rfl := List.mem_singleton.mp hx
    cases h
  | authenticate header now realm =>
    show (g.authenticate realm (g.memoAfter moves) header now).decision.isAccepted = true
    cases ht : Credential.ofHeader header with
    | error f =>
      rw [uses_of_error ht] at hx
      cases hx
    | ok own =>
      rw [uses_of_token ht] at hx
      rcases (g.memoAfter moves).hit_or_fresh own now with ⟨e', hl⟩ | hl
      · rw [(g.authenticate_of_hit realm ht hl).1]
        exact isAccepted_of_mem hg (Memo.mem_of_hit hl).1
      rw [(g.authenticate_of_fresh realm ht hl).1]
      rw [usesOf_of_fresh hl, Memo.history_cons] at hx
      rcases List.mem_cons.mp hx with rfl | hx
      · exact absurd (Memo.hit_of_raises h).2 (hl e)
      · obtain ⟨hacc, _⟩ := mem_storing (Memo.use_mem_of_history hx)
        exact decision_of_accepted hg hacc

theorem touches_uses (hg : g.Sound)
    (h : token ∈ touches ((g.memoAfter moves).history (g.uses (g.memoAfter moves) mv))) :
    g.accepts? (g.memoAfter moves) mv = some token := by
  obtain ⟨x, hx, ht⟩ := List.mem_filterMap.mp h
  obtain ⟨e, he⟩ := Answered.touched?_eq_some_iff.mp ht
  have hclear : mv ≠ .clear := by
    rintro rfl
    obtain rfl := List.mem_singleton.mp hx
    cases he
  unfold accepts?
  rw [if_pos (isAccepted_of_raises hg hx he),
    ← (token_of_uses (Memo.use_mem_of_history hx) hclear).1]
  exact Answered.token_of_raises he

theorem token_of_drops {x : Answered} (hx : x ∈ m.history (g.uses m mv)) (hmv : mv ≠ .clear)
    (h : x.Drops token) : mv.token? = some token := by
  obtain ⟨ht, hu⟩ := token_of_uses (Memo.use_mem_of_history hx) hmv
  rw [← ht]
  exact Answered.token_of_drops h hu

end Gate

end TokenGate
