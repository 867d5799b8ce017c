import TokenGate.Gate.Reply
import TokenGate.Proofs.Gate.Acceptance

/-!
# What a request signals

* `Traced.signals_bind`        a step, and what comes after it unless it was refused;
* `Signal.Unverified`          signals without a call to the verifier;
* `Signal.Offline`             signals without a call to verifier or identity store;
* `verifications_examine`      an examination calls the verifier once if the token is decoded, and
                               never if it is not;
* `authenticate_of_hit`        a request that the memo answers, and that it is offline;
* `authenticate_of_fresh`      any other request with a token: its decision is that of a full
                               validation, and all its calls are those of the examination.
-/

namespace TokenGate

/-! ## signals of one kind -/

namespace Signal

variable {l k : List Signal}

theorem verifications_append (l k : List Signal) :
    verifications (l ++ k) = verifications l + verifications k :=
  List.count_append

theorem consultations_append (l k : List Signal) :
    consultations (l ++ k) = consultations l ++ consultations k :=
  List.filterMap_append

def Unverified (l : List Signal) : Prop := verifications l = 0

structure Offline (l : List Signal) : Prop where
  unverified : Unverified l
  unconsulted : consultations l = []

theorem unverified_append (hl : Unverified l) (hk : Unverified k) : Unverified (l ++ k) := by
  unfold Unverified at hl hk ⊢
  rw [verifications_append, hl, hk]

theorem offline_append (hl : Offline l) (hk : Offline k) : Offline (l ++ k) :=
  ⟨unverified_append hl.unverified hk.unverified, by
    rw [consultations_append, hl.unconsulted, hk.unconsulted, List.append_nil]⟩

theorem offline_cons {s : Signal} (hs : Offline [s]) (hl : Offline l) : Offline (s :: l) :=
  offline_append hs hl

theorem offline_nil : Offline [] := ⟨rfl, rfl⟩

theorem offline_logged (events : List Event) : Offline (events.map .logged) := by
  induction events with
  | nil => exact offline_nil
  | cons e events ih => exact offline_cons ⟨rfl, rfl⟩ ih

end Signal

/-! ## signals of traced steps -/

namespace Traced

open Signal (Unverified unverified_append)

variable {α β ε : Type}

theorem signals_bind (t : Traced α) (next : α → Traced β) :
    (t >>= next).signals = t.signals ++ match t.result with
      | .ok a => (next a).signals
      | .error _ => [] := by
  show (t.andThen next).signals = _
  unfold andThen
  cases t.result <;> simp

theorem unverified_bind {t : Traced α} {next : α → Traced β} (ht : Unverified t.signals)
    (hn : ∀ a, Unverified (next a).signals) : Unverified (t >>= next).signals := by
  rw [signals_bind]
  refine unverified_append ht ?_
  cases t.result with
  | ok a => exact hn a
  | error r => rfl

theorem unverified_ofExcept (wrap : ε → Refusal) (x : Except ε α) :
    Unverified (ofExcept wrap x).signals := by
  cases x <;> rfl

end Traced

namespace Gate

open Signal
open Traced (signals_bind unverified_bind unverified_ofExcept)

variable {g : Gate} {realm : Realm} {m : Memo} {header : Option String} {raw : String} {now : Int}

/-! ## an examination -/

theorem unverified_confirm (g : Gate) (realm : Realm) (subject : String) (own : Roles) :
    Unverified (g.confirm realm subject own).signals := by
  unfold confirm
  split
  · split
    · refine unverified_bind rfl fun _ => unverified_bind (unverified_ofExcept _ _) fun r => ?_
      split <;> rfl
    · rfl
  · rfl

theorem unverified_judge (g : Gate) (realm : Realm) (payload : Members) (now : Int) :
    Unverified (g.judge realm payload now).signals := by
  refine unverified_bind (unverified_ofExcept _ _) fun claims => ?_
  refine unverified_bind (unverified_ofExcept _ _) fun checked => ?_
  refine unverified_bind (offline_logged _).unverified fun _ => ?_
  exact unverified_bind (g.unverified_confirm realm _ _) fun _ => rfl

theorem verifications_authentic (g : Gate) (raw : String) :
    verifications (g.authentic raw).signals = if (Token.decode raw).isOk then 1 else 0 := by
  unfold authentic
  cases Token.decode raw with
  | error f => rfl
  | ok token =>
    have hrest : Unverified (Traced.ofExcept (.signature token.algorithm) (g.verification.verify
        (Text.bytes token.signingInput) token.signature token.algorithm) >>= fun _ =>
          pure token).signals :=
      unverified_bind (unverified_ofExcept _ _) fun _ => rfl
    show verifications ([.verified] ++ _) = 1
    rw [verifications_append]
    exact congrArg (1 + ·) hrest

theorem verifications_examine (g : Gate) (realm : Realm) (raw : String) (now : Int) :
    verifications (g.examine realm raw now).signals
      = if (Token.decode raw).isOk then 1 else 0 := by
  rw [examine_eq, signals_bind, verifications_append, verifications_authentic]
  cases (g.authentic raw).result with
  | ok token => rw [g.unverified_judge realm token.payload now, Nat.add_zero]
  | error r => rfl

/-! ## a request -/

theorem offline_closing (d : Decision) :
    Offline (.decided d.failure? :: (closingEvents d).map .logged) :=
  offline_cons ⟨rfl, rfl⟩ (offline_logged _)

theorem decide_token (ht : Credential.ofHeader header = .ok raw) :
    g.decide realm m header now = g.decideToken realm m raw now := by
  unfold decide
  rw [ht]

theorem decideToken_of_hit {e : Entry} (hl : (m.lookup raw now).1 = .hit e) :
    g.decideToken realm m raw now = ⟨e.outcome.decision, (m.lookup raw now).2,
      [.lookedUp (.hit e), .logged servedEvent]⟩ := by
  unfold decideToken
  simp only [hl]
  rfl

theorem authenticate_of_hit (g : Gate) (realm : Realm) (ht : Credential.ofHeader header = .ok raw)
    {e : Entry} (hl : (m.lookup raw now).1 = .hit e) :
    (g.authenticate realm m header now).decision = e.outcome.decision
      ∧ (g.authenticate realm m header now).memo = (m.lookup raw now).2
      ∧ Offline (g.authenticate realm m header now).signals := by
  unfold authenticate
  rw [decide_token ht, decideToken_of_hit hl]
  refine ⟨rfl, rfl, offline_append ?_ (offline_closing e.outcome.decision)⟩
  exact ⟨rfl, rfl⟩

theorem signals_decideFresh (g : Gate) (realm : Realm) (m : Memo) (raw : String) (now : Int) :
    ∃ back, Offline back
      ∧ (g.decideFresh realm m raw now).signals = (g.examine realm raw now).signals ++ back :=
  ⟨.timed :: ((g.remember m raw (g.validate realm raw now) now).1.events m.capacity).map .logged,
    offline_cons ⟨rfl, rfl⟩ (offline_logged _), rfl⟩

theorem decideToken_of_fresh (hl : ∀ e, (m.lookup raw now).1 ≠ .hit e) :
    g.decideToken realm m raw now =
      let reply := g.decideFresh realm (m.lookup raw now).2 raw now
      { reply with signals := ((m.lookup raw now).1.events now).map .logged
          ++ [.lookedUp (m.lookup raw now).1] ++ reply.signals } := by
  unfold decideToken
  cases hf : (m.lookup raw now).1 with
  | hit e => exact absurd hf (hl e)
  | _ => simp only [hf]

theorem authenticate_of_fresh (g : Gate) (realm : Realm)
    (ht : Credential.ofHeader header = .ok raw) (hl : ∀ e, (m.lookup raw now).1 ≠ .hit e) :
    (g.authenticate realm m header now).decision = (g.validate realm raw now).decision
      ∧ (g.authenticate realm m header now).memo
        = (g.remember (m.lookup raw now).2 raw (g.validate realm raw now) now).2
      ∧ ∃ front back, Offline front ∧ Offline back
        ∧ (g.authenticate realm m header now).signals
          = front ++ (g.examine realm raw now).signals ++ back := by
  obtain ⟨back, hback, hs⟩ := g.signals_decideFresh realm (m.lookup raw now).2 raw now
  have hfront : Offline (((m.lookup raw now).1.events now).map .logged
      ++ [.lookedUp (m.lookup raw now).1]) := offline_append (offline_logged _) ⟨rfl, rfl⟩
  unfold authenticate
  rw [decide_token ht, decideToken_of_fresh hl]
  have hclosing := offline_closing (g.validate realm raw now).decision
  refine ⟨rfl, rfl, _, _, hfront, offline_append hback hclosing, ?_⟩
  show _ ++ (g.decideFresh realm (m.lookup raw now).2 raw now).signals ++ _ = _
  rw [hs]
  simp only [List.append_assoc]
  rfl

end Gate

end TokenGate
