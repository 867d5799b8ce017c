import Mathlib.Data.List.Induction
import TokenGate.Gate.Run
import TokenGate.Proofs.Gate.Acceptance
import TokenGate.Proofs.Memo.Entries

/-!
# Where remembered outcomes come from

* `Gate.memoAfter`      the memo of a gate after moves;
* `Gate.Stores`         an entry that a full validation at an instant leaves, and how long it lasts;
* `Gate.Origin`         the move that an entry comes from, and what lies between;
* `mem_of_authenticate` the entries after a request are older ones, or the one it stores;
* `origin_of_mem`       every entry after moves has an origin among them;
* `decision_cases`      a decision on a token is that of an entry, or that of a full validation,
                        which it is with nothing remembered (`decision_of_empty`).
-/

namespace TokenGate.Gate

variable {g : Gate} {m : Memo} {realm : Realm} {token : String} {now : Int}

def memoAfter (g : Gate) (moves : List Move) : Memo := (g.run g.emptyMemo moves).2.1

theorem memoAfter_concat (g : Gate) (moves : List Move) (mv : Move) :
    g.memoAfter (moves ++ [mv]) = (g.move (g.memoAfter moves) mv).2.1 := by
  unfold memoAfter
  rw [run_append]
  rfl

theorem memoAfter_first (g : Gate) (header : Option String) (now : Int) (realm : Realm) :
    g.memoAfter [.authenticate header now realm]
      = (g.authenticate realm (g.memoAfter []) header now).memo :=
  g.memoAfter_concat [] (.authenticate header now realm)

theorem memoAfter_append (g : Gate) (moves later : List Move) :
    g.memoAfter (moves ++ later) = (g.run (g.memoAfter moves) later).2.1 := by
  unfold memoAfter
  rw [run_append]

/-! ## one request -/

/-- an entry ends with its token at the latest -/
theorem validUntil_le (g : Gate) (now expiresAt : Int) :
    g.validUntil now expiresAt ≤ expiresAt := by
  unfold validUntil
  split
  · exact Int.min_le_left ..
  · exact Int.le_refl _

theorem validUntil_le_of_cap {cap : Int} (hcap : g.ttlCap = some cap) (expiresAt : Int) :
    g.validUntil now expiresAt ≤ Seconds.add now cap := by
  unfold validUntil
  rw [hcap]
  exact Int.min_le_right ..

/-- the entry of a token that was validated at the instant `now` -/
structure Stores (g : Gate) (realm : Realm) (token : String) (now : Int) (e : Entry) : Prop where
  outcome : e.outcome = g.validate realm token now
  accepted : e.outcome.accepted = true
  expiry : ∃ expiresAt, e.outcome.expiresAt = some expiresAt
    ∧ e.validUntil = g.validUntil now expiresAt
  storedAt : e.storedAt = now
  current : now ≤ e.validUntil

theorem Stores.le_expiry {e : Entry} {expiresAt : Int} (h : g.Stores realm token now e)
    (he : e.outcome.expiresAt = some expiresAt) : e.validUntil ≤ expiresAt := by
  obtain ⟨expiresAt', he', hv⟩ := h.expiry
  rw [he] at he'
  cases he'
  rw [hv]
  exact g.validUntil_le now expiresAt

theorem Stores.le_cap {e : Entry} {cap : Int} (h : g.Stores realm token now e)
    (hcap : g.ttlCap = some cap) : e.validUntil ≤ Seconds.add now cap := by
  obtain ⟨expiresAt, _, hv⟩ := h.expiry
  rw [hv]
  exact validUntil_le_of_cap hcap expiresAt

theorem mem_of_decideFresh {x : String × Entry}
    (h : x ∈ (g.decideFresh realm m token now).memo.entries) :
    x ∈ m.entries ∨ (x.1 = token ∧ g.Stores realm token now x.2) := by
  have hmemo : (g.decideFresh realm m token now).memo
      = (g.remember m token (g.validate realm token now) now).2 := rfl
  rw [hmemo] at h
  unfold remember at h
  split at h
  · next expiresAt hacc hexp =>
    rcases Memo.mem_of_store h with h | ⟨rfl, _, hnow⟩
    · exact .inl h
    · exact .inr ⟨rfl, rfl, hacc, ⟨expiresAt, hexp, rfl⟩, rfl, hnow⟩
  · exact .inl h

/-- a token either has an entry that is handed out, or is examined with the memo that the lookup
leaves -/
theorem decideToken_cases (g : Gate) (realm : Realm) (m : Memo) (token : String) (now : Int) :
    (∃ e, (token, e) ∈ m.entries ∧ now ≤ e.validUntil
      ∧ (g.decideToken realm m token now).decision = e.outcome.decision
      ∧ (g.decideToken realm m token now).memo = (m.lookup token now).2)
    ∨ ((g.decideToken realm m token now).decision = (g.validate realm token now).decision
      ∧ (g.decideToken realm m token now).memo
        = (g.decideFresh realm (m.lookup token now).2 token now).memo) := by
  unfold decideToken
  cases hl : (m.lookup token now).1 with
  | hit e =>
    obtain ⟨hm, hnow⟩ := Memo.mem_of_hit hl
    exact .inl ⟨e, hm, hnow, by simp [hl], by simp [hl]⟩
  | _ => exact .inr ⟨by simp [hl]; rfl, by simp [hl]⟩

/-! ## one move -/

theorem authenticate_eq (g : Gate) (realm : Realm) (m : Memo) {header : Option String}
    (ht : Credential.ofHeader header = .ok token) (now : Int) :
    (g.authenticate realm m header now).decision = (g.decideToken realm m token now).decision
      ∧ (g.authenticate realm m header now).memo = (g.decideToken realm m token now).memo := by
  simp [authenticate, decide, ht]

theorem authenticate_of_error (g : Gate) (realm : Realm) (m : Memo) {header : Option String}
    {f : Credential.Fault} (hf : Credential.ofHeader header = .error f) (now : Int) :
    (g.authenticate realm m header now).decision = (Outcome.reject f.kind).decision
      ∧ (g.authenticate realm m header now).memo = m := by
  simp [authenticate, decide, hf]

theorem decision_cases (g : Gate) (realm : Realm) (m : Memo) {header : Option String}
    (ht : Credential.ofHeader header = .ok token) (now : Int) :
    (∃ e, (token, e) ∈ m.entries ∧ now ≤ e.validUntil
      ∧ (g.authenticate realm m header now).decision = e.outcome.decision)
    ∨ (g.authenticate realm m header now).decision = (g.validate realm token now).decision := by
  rw [(g.authenticate_eq realm m ht now).1]
  rcases g.decideToken_cases realm m token now with ⟨e, he, hnow, hd, _⟩ | ⟨hd, _⟩
  · exact .inl ⟨e, he, hnow, hd⟩
  · exact .inr hd

theorem decision_of_empty (g : Gate) (realm : Realm) (hm : m.entries = []) {header : Option String}
    (ht : Credential.ofHeader header = .ok token) (now : Int) :
    (g.authenticate realm m header now).decision = (g.validate realm token now).decision := by
  rcases g.decision_cases realm m ht now with ⟨e, he, _⟩ | hd
  · rw [hm] at he
    cases he
  · exact hd

/-- the only entry that a request adds is that of its own token, validated then -/
theorem mem_of_authenticate {header : Option String} {e : Entry}
    (h : (token, e) ∈ (g.authenticate realm m header now).memo.entries) :
    (token, e) ∈ m.entries ∨ (Credential.ofHeader header = .ok token
      ∧ g.Stores realm token now e
      ∧ (g.authenticate realm m header now).decision = e.outcome.decision) := by
  cases ht : Credential.ofHeader header with
  | error f =>
    rw [(g.authenticate_of_error realm m ht now).2] at h
    exact .inl h
  | ok own =>
    obtain ⟨hd, hm⟩ := g.authenticate_eq realm m ht now
    rw [hm] at h
    rcases g.decideToken_cases realm m own now with ⟨_, _, _, _, hm'⟩ | ⟨hd', hm'⟩
    · rw [hm'] at h
      exact .inl (Memo.mem_of_lookup h)
    · rw [hm'] at h
      rcases mem_of_decideFresh h with h | ⟨ho, hs⟩
      · exact .inl (Memo.mem_of_lookup h)
      · have ho' : token = own := ho
        have hs' : g.Stores realm own now e := hs
        subst ho'
        refine .inr ⟨rfl, hs', ?_⟩
        rw [hd, hd', hs'.outcome]

/-! ## runs -/

/-- the entry `e` of a token was left by a request among the moves, after which nothing was
cleared; the request was decided by a full validation -/
def Origin (g : Gate) (moves : List Move) (token : String) (e : Entry) : Prop :=
  ∃ front header now realm later,
    moves = front ++ .authenticate header now realm :: later ∧ .clear ∉ later
      ∧ Credential.ofHeader header = .ok token ∧ g.Stores realm token now e
      ∧ (g.authenticate realm (g.memoAfter front) header now).decision = e.outcome.decision

theorem Origin.concat {moves : List Move} {e : Entry} (h : g.Origin moves token e) {mv : Move}
    (hmv : mv ≠ .clear) : g.Origin (moves ++ [mv]) token e := by
  obtain ⟨front, header, now, realm, later, rfl, hlater, hrest⟩ := h
  refine ⟨front, header, now, realm, later ++ [mv], by simp, fun hc => ?_, hrest⟩
  rcases List.mem_append.mp hc with hc | hc
  · exact hlater hc
  · exact hmv (List.mem_singleton.mp hc).symm

theorem origin_of_mem {moves : List Move} {e : Entry}
    (h : (token, e) ∈ (g.memoAfter moves).entries) : g.Origin moves token e := by
  induction moves using List.reverseRecOn with
  | nil => exact absurd h List.not_mem_nil
  | append_singleton moves mv ih =>
    rw [memoAfter_concat] at h
    cases mv with
    | clear => exact absurd h Memo.not_mem_clear
    | authenticate header now realm =>
      rcases mem_of_authenticate h with h | ⟨ht, hs, hd⟩
      · exact (ih h).concat (by simp)
      · exact ⟨moves, header, now, realm, [], rfl, List.not_mem_nil, ht, hs, hd⟩

end TokenGate.Gate
