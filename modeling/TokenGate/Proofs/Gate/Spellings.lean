import TokenGate.Proofs.Gate.Reuse
import TokenGate.Proofs.Token.Presented

/-!
# One token in many spellings

* `Move.Respelled`       two requests that differ in the spelling of their header alone;
* `Move.PresentsOnly`    a move that presents no token but a given one;
* `run_respelled`        runs that differ in spelling alone cannot be told apart;
* `tokens_memoAfter`     requests with one token fill one entry at most;
* `header_grammar`       what headers read as, and that their spelling does not show.
-/

namespace TokenGate

open Credential (Presents Reads ofHeader)
open Text

/-! ## moves -/

namespace Move

/-- two moves that differ in the spelling of their header alone -/
inductive Respelled : Move → Move → Prop where
  | request {header header' : Option String} {r : Except Failure String} (h : Reads header r)
      (h' : Reads header' r) (now : Int) (realm : Realm) :
      Respelled (.authenticate header now realm) (.authenticate header' now realm)
  | clear : Respelled .clear .clear

/-- a request whose header presents `t` if it presents any token, or clearing the memo -/
def PresentsOnly (t : String) (mv : Move) : Prop := ∀ t', mv.token? = some t' → t' = t

end Move

namespace Gate

open Move (Respelled PresentsOnly)

variable {g : Gate} {m : Memo} {moves moves' : List Move}

/-- of a header nothing is looked at but what is extracted from it -/
theorem authenticate_congr (g : Gate) (realm : Realm) (m : Memo) {header header' : Option String}
    (h : ofHeader header = ofHeader header') (now : Int) :
    g.authenticate realm m header now = g.authenticate realm m header' now := by
  unfold authenticate decide
  rw [h]

theorem move_respelled {mv mv' : Move} (h : Respelled mv mv') (g : Gate) (m : Memo) :
    g.move m mv = g.move m mv' := by
  cases h with
  | clear => rfl
  | request h h' now realm =>
    have hreply := g.authenticate_congr realm m (h.congr h') now
    show (some (g.authenticate realm m _ now).decision, _) = _
    rw [hreply]
    rfl

theorem run_respelled (h : List.Forall₂ Respelled moves moves') (g : Gate) (m : Memo) :
    g.run m moves = g.run m moves' := by
  induction h generalizing m with
  | nil => rfl
  | cons h _ ih =>
    rw [run_cons, run_cons, move_respelled h]
    dsimp only
    rw [ih]

theorem memoAfter_respelled (h : List.Forall₂ Respelled moves moves') :
    g.memoAfter moves = g.memoAfter moves' := by
  unfold memoAfter
  rw [run_respelled h]

/-- every entry is one of the token that is presented, and there are no two of one token -/
theorem tokens_memoAfter {t : String} (h : ∀ mv ∈ moves, PresentsOnly t mv) :
    (g.memoAfter moves).tokens = [] ∨ (g.memoAfter moves).tokens = [t] := by
  have hall : ∀ t' ∈ (g.memoAfter moves).tokens, t' = t := by
    intro t' ht'
    obtain ⟨⟨_, e⟩, he, rfl⟩ := List.mem_map.mp ht'
    obtain ⟨front, header, now, realm, later, rfl, _, hheader, _⟩ := origin_of_mem he
    apply h (.authenticate header now realm) (by simp)
    exact Move.token?_eq_some_iff.mpr hheader
  have hdistinct := (g.wellFormed_memoAfter moves).distinct
  obtain ⟨n, hn⟩ : ∃ n, (g.memoAfter moves).tokens = List.replicate n t :=
    ⟨_, List.eq_replicate_of_mem hall⟩
  rw [hn, List.nodup_replicate] at hdistinct
  rw [hn]
  rcases Nat.le_one_iff_eq_zero_or_eq_one.mp hdistinct with rfl | rfl
  · exact .inl rfl
  · exact .inr rfl

/-! ## headers -/

/-- A header reads as the grammar says and as nothing else. The token that is extracted is not
empty and is extracted again from its plain header; blanks around a header, or between scheme and
token, do not change what comes of it. So runs that differ in the spelling of headers alone cannot
be told apart, and requests with one token, however spelled, fill one entry at most. -/
theorem header_grammar :
    (∀ header result,
      (ofHeader header).mapError Credential.Fault.kind = result ↔ Reads header result)
    ∧ (∀ text t t', Presents text t → Presents text t' → t = t')
    ∧ (∀ header t, ofHeader header = .ok t →
      t ≠ "" ∧ ofHeader (some ("Bearer " ++ t)) = .ok t)
    ∧ (∀ lead text trail : String, Blank lead.toList → Blank trail.toList →
      ofHeader (some (lead ++ text ++ trail)) = ofHeader (some text))
    ∧ (∀ gap rest : String, Blank gap.toList →
      ofHeader (some ("Bearer " ++ gap ++ rest)) = ofHeader (some ("Bearer " ++ rest)))
    ∧ (∀ (g : Gate) (m : Memo) (moves moves' : List Move), List.Forall₂ Respelled moves moves' →
      g.run m moves = g.run m moves')
    ∧ ∀ (g : Gate) (moves : List Move) (t : String), (∀ mv ∈ moves, PresentsOnly t mv) →
      (g.memoAfter moves).tokens = [] ∨ (g.memoAfter moves).tokens = [t] := by
  refine ⟨fun _ _ => Credential.ofHeader_iff, fun _ _ _ h h' => h.unique h', fun header t h => ?_,
    fun lead text trail hlead htrail => Credential.ofHeader_around hlead htrail text,
    fun gap rest hgap => ?_, fun g m _ _ h => run_respelled h g m,
    fun g moves t h => tokens_memoAfter h⟩
  · obtain ⟨text, rfl, hp⟩ := Credential.presents_of_ok h
    refine ⟨hp.ne_empty, ?_⟩
    rw [← Credential.header_eq]
    exact (Credential.presents_header hp.ne_empty hp.tight).ofHeader_eq
  · rw [String.append_assoc, ← Credential.header_eq, ← Credential.header_eq]
    exact Credential.ofHeader_header_congr (trimmed_lead hgap rest)

/-- the header of the sample token with more blanks than it needs -/
def spacedHeader : String := "\t" ++ ("Bearer " ++ " \u3000" ++ sampleToken) ++ " \n"

/-- two requests, of which the first is spelled as given -/
def spelledMoves (header : String) : List Move := [
  .authenticate (some header) 0 sampleRealm,
  .authenticate (some sampleHeader) 10 sampleRealm]

theorem mem_tokens_sample :
    sampleToken ∈ (sample.memoAfter (spelledMoves sampleHeader)).tokens := by
  have hg := sound_of_build build_sample
  have hpos : 0 < sample.capacity := by decide
  have hfirst := holds_of_opens hg hpos opens_sample
  have hlimit : 10 ≤ (sample.entryFor sampleIdentity 0 3600).validUntil := by decide
  exact Memo.mem_tokens_iff.mpr
    (holds_same hfirst hpos ofHeader_sampleHeader hlimit sampleRealm).within.contains

theorem header_grammar_of_spaced :
    Presents spacedHeader sampleToken
      ∧ List.Forall₂ Respelled (spelledMoves spacedHeader) (spelledMoves sampleHeader)
      ∧ sample.run sample.emptyMemo (spelledMoves spacedHeader)
        = sample.run sample.emptyMemo (spelledMoves sampleHeader)
      ∧ (∀ mv ∈ spelledMoves spacedHeader, PresentsOnly sampleToken mv)
      ∧ (sample.memoAfter (spelledMoves spacedHeader)).tokens = [sampleToken] := by
  obtain ⟨hreads, _, _, haround, hgap, hrun, htokens⟩ := header_grammar
  have hblank : Blank "\t".toList ∧ Blank " \u3000".toList ∧ Blank " \n".toList := by
    simp [Blank, isBlank]
  have hspaced : ofHeader (some spacedHeader) = .ok sampleToken :=
    (haround _ _ _ hblank.1 hblank.2.2).trans ((hgap _ _ hblank.2.1).trans ofHeader_sampleHeader)
  obtain ⟨_, hsome, hpresents⟩ := Credential.presents_of_ok hspaced
  cases hsome
  have hr : Reads (some spacedHeader) (.ok sampleToken) := .token hpresents
  have hr' : Reads (some sampleHeader) (.ok sampleToken) :=
    (hreads _ _).mp (congrArg (Except.mapError Credential.Fault.kind) ofHeader_sampleHeader)
  have hrespelled :
      List.Forall₂ Respelled (spelledMoves spacedHeader) (spelledMoves sampleHeader) :=
    .cons (.request hr hr' 0 sampleRealm) (.cons (.request hr' hr' 10 sampleRealm) .nil)
  have honly : ∀ mv ∈ spelledMoves spacedHeader, PresentsOnly sampleToken mv := by
    intro mv hmv t ht
    simp only [spelledMoves, List.mem_cons, List.not_mem_nil, or_false] at hmv
    rcases hmv with rfl | rfl
    · rw [Move.token?_eq_some_iff.mpr hspaced] at ht
      exact (Option.some.inj ht).symm
    · rw [Move.token?_eq_some_iff.mpr ofHeader_sampleHeader] at ht
      exact (Option.some.inj ht).symm
  have hfilled : (sample.memoAfter (spelledMoves spacedHeader)).tokens ≠ [] := by
    rw [memoAfter_respelled hrespelled]
    exact List.ne_nil_of_mem mem_tokens_sample
  exact ⟨hpresents, hrespelled, hrun sample _ _ _ hrespelled, honly,
    (htokens sample _ _ honly).resolve_left hfilled⟩

end Gate

end TokenGate
