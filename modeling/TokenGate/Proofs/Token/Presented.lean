import TokenGate.Proofs.Text.Trimmed
import TokenGate.Token.Credential

/-!
# Which headers present which tokens

* `Presents text t`    the text of a header presents the token `t`: the scheme, one space, any
                       blanks, the token, and blanks around all of it;
* `Reads header r`     what a header reads as, failures included;
* `ofTrimmed_cases`    what comes of a header without blanks around it;
* `ofHeader_iff`       a header gives exactly what it reads as;
* `ofHeader_header`    behind the scheme and one space stands the token, blanks around it aside;
* `ofHeader_around`    blanks around a header make no difference.
-/

namespace TokenGate.Credential

open Text

variable {cs gap : List Char} {text t : String} {header : Option String} {r : Except Failure String}

/-! ## the grammar -/

/-- a text that trims to the scheme, one space, any blanks and the token -/
structure Presents (text t : String) : Prop where
  ne_empty : t ≠ ""
  tight : Tight t.toList
  spelled : ∃ gap : String, Blank gap.toList ∧ Trims text.toList ("Bearer " ++ gap ++ t).toList

/-- what a header reads as -/
inductive Reads : Option String → Except Failure String → Prop where
  | absent : Reads none (.error .missingCredentials)
  | blank {text : String} (h : Blank text.toList) : Reads (some text) (.error .missingCredentials)
  | noToken {text : String} (h : Trims text.toList "Bearer".toList) :
      Reads (some text) (.error .malformedToken)
  | token {text t : String} (h : Presents text t) : Reads (some text) (.ok t)
  | other {text : String} (hblank : ¬ Blank text.toList)
      (hscheme : ¬ Trims text.toList "Bearer".toList) (htoken : ∀ t, ¬ Presents text t) :
      Reads (some text) (.error .malformedHeader)

/-! ## headers without blanks around them -/

/-- what stands in front of a token -/
def front : List Char := scheme.toList ++ [' ']

theorem toList_spelled (gap t : String) :
    ("Bearer " ++ gap ++ t).toList = front ++ gap.toList ++ t.toList := by
  rw [String.toList_append, String.toList_append]
  rfl

theorem toList_header (rest : String) : (Credential.header rest).toList = front ++ rest.toList := by
  unfold Credential.header
  rw [String.toList_append, String.toList_append]
  rfl

theorem tight_scheme : Tight scheme.toList := by
  show Tight ['B', 'e', 'a', 'r', 'e', 'r']
  exact tight_of_all (by simp [isBlank])

theorem tight_spelled (ht : Tight cs) (hne : cs ≠ []) (gap : List Char) :
    Tight (front ++ gap ++ cs) := by
  refine ⟨fun c hc => ?_, fun c hc => ?_⟩
  · cases hc
    decide
  · rw [List.getLast?_append_of_ne_nil _ hne] at hc
    exact ht.2 c hc

theorem ofTrimmed_front (rest : List Char) :
    ofTrimmed (front ++ rest) = .ok (String.ofList (trimStart rest)) := by
  have hlong : front ++ rest ≠ scheme.toList := by
    intro h
    have hl := congrArg List.length h
    simp [front] at hl
  have hafter : after? (scheme.toList ++ [' ']) (front ++ rest) = some rest :=
    after?_append front rest
  rw [ofTrimmed, if_neg (by simp [front]), if_neg hlong, hafter]

theorem ofTrimmed_other (hnil : cs ≠ []) (hscheme : cs ≠ scheme.toList)
    (h : after? front cs = none) : ofTrimmed cs = .error .otherScheme := by
  have hafter : after? (scheme.toList ++ [' ']) cs = none := h
  rw [ofTrimmed, if_neg (by simpa using hnil), if_neg hscheme, hafter]

theorem ofTrimmed_spelled (ht : Tight cs) (hgap : Blank gap) :
    ofTrimmed (front ++ gap ++ cs) = .ok (String.ofList cs) := by
  rw [List.append_assoc, ofTrimmed_front, trimStart_blanks hgap, trimStart_tight ht]

/-- Behind the space there is a token, since the header does not end with a blank. -/
theorem ofTrimmed_of_tight (h : Tight (front ++ cs)) :
    ∃ gap w, Blank gap ∧ Tight w ∧ w ≠ [] ∧ front ++ cs = front ++ gap ++ w := by
  obtain ⟨gap, hgap, hcs⟩ := exists_lead cs
  have hne : trimStart cs ≠ [] := by
    intro hnil
    rw [hnil, List.append_nil] at hcs
    have hend : Blank (' ' :: gap) := List.forall_mem_cons.mpr ⟨by decide, hgap⟩
    apply hend.not_tight (List.cons_ne_nil _ _) scheme.toList
    rw [hcs] at h
    exact h
  refine ⟨gap, trimStart cs, hgap, ⟨solid_head_trimStart cs, fun c hc => ?_⟩, hne, ?_⟩
  · apply h.2
    rw [hcs, ← List.append_assoc, List.getLast?_append_of_ne_nil _ hne]
    exact hc
  · rw [List.append_assoc, ← hcs]

/-- what comes of a header without blanks around it -/
theorem ofTrimmed_cases (h : Tight cs) :
    (cs = [] ∧ ofTrimmed cs = .error .absent)
    ∨ (cs = scheme.toList ∧ ofTrimmed cs = .error .noToken)
    ∨ (∃ gap w, Blank gap ∧ Tight w ∧ w ≠ [] ∧ cs = front ++ gap ++ w
      ∧ ofTrimmed cs = .ok (String.ofList w))
    ∨ (cs ≠ [] ∧ cs ≠ scheme.toList ∧ (∀ gap w, cs ≠ front ++ gap ++ w)
      ∧ ofTrimmed cs = .error .otherScheme) := by
  by_cases hnil : cs = []
  · subst hnil
    exact .inl ⟨rfl, rfl⟩
  by_cases hscheme : cs = scheme.toList
  · subst hscheme
    exact .inr (.inl ⟨rfl, rfl⟩)
  cases ha : after? front cs with
  | some rest =>
    rw [after?_eq_some_iff] at ha
    subst ha
    obtain ⟨gap, w, hgap, hw, hne, heq⟩ := ofTrimmed_of_tight h
    refine .inr (.inr (.inl ⟨gap, w, hgap, hw, hne, heq, ?_⟩))
    rw [heq]
    exact ofTrimmed_spelled hw hgap
  | none =>
    refine .inr (.inr (.inr ⟨hnil, hscheme, fun gap w heq => ?_, ofTrimmed_other hnil hscheme ha⟩))
    rw [heq, List.append_assoc, after?_append] at ha
    cases ha

/-! ## headers -/

theorem Presents.ofHeader_eq (h : Presents text t) : ofHeader (some text) = .ok t := by
  obtain ⟨gap, hgap, hspelled⟩ := h.spelled
  show ofTrimmed (trim text.toList) = _
  rw [hspelled.trim_eq, toList_spelled, ofTrimmed_spelled h.tight hgap, String.ofList_toList]

theorem Presents.unique {t' : String} (h : Presents text t) (h' : Presents text t') : t = t' := by
  have ht := h.ofHeader_eq
  rw [h'.ofHeader_eq] at ht
  exact (Except.ok.inj ht).symm

theorem reads_ofHeader (header : Option String) :
    Reads header ((ofHeader header).mapError Fault.kind) := by
  cases header with
  | none => exact .absent
  | some text =>
    have htrims := trims_trim text.toList
    show Reads (some text) ((ofTrimmed (trim text.toList)).mapError Fault.kind)
    rcases ofTrimmed_cases htrims.tight with ⟨hnil, hr⟩ | ⟨hscheme, hr⟩
      | ⟨gap, w, hgap, hw, hne, heq, hr⟩ | ⟨hnil, hscheme, hother, hr⟩
    all_goals rw [hr]
    · exact .blank (trim_eq_nil_iff.mp hnil)
    · rw [hscheme] at htrims
      exact .noToken htrims
    · have hlist : (String.ofList w).toList = w := String.toList_ofList
      refine .token ⟨fun he => hne ?_, hlist.symm ▸ hw, String.ofList gap, ?_, ?_⟩
      · rw [← hlist, he]
        rfl
      · rwa [String.toList_ofList]
      · rw [toList_spelled, String.toList_ofList, String.toList_ofList, ← heq]
        exact htrims
    · refine .other (mt trim_eq_nil_iff.mpr hnil) (mt Trims.trim_eq hscheme) fun t ht => ?_
      obtain ⟨gap, _, hspelled⟩ := ht.spelled
      apply hother gap.toList t.toList
      rw [hspelled.trim_eq, toList_spelled]

theorem Reads.ofHeader_eq (h : Reads header r) : (ofHeader header).mapError Fault.kind = r := by
  cases h with
  | absent => rfl
  | @blank text h =>
    show (ofTrimmed (trim text.toList)).mapError Fault.kind = _
    rw [trim_of_blank h]
    rfl
  | @noToken text h =>
    show (ofTrimmed (trim text.toList)).mapError Fault.kind = _
    rw [h.trim_eq]
    rfl
  | token h =>
    rw [h.ofHeader_eq]
    rfl
  | @other text hblank hscheme htoken =>
    -- what it does read as can only be the same
    have h := reads_ofHeader (some text)
    generalize (ofHeader (some text)).mapError Fault.kind = r at h
    cases h with
    | blank h => exact absurd h hblank
    | noToken h => exact absurd h hscheme
    | token h => exact absurd h (htoken _)
    | other => rfl

/-- a header gives exactly what it reads as -/
theorem ofHeader_iff : (ofHeader header).mapError Fault.kind = r ↔ Reads header r := by
  constructor
  · rintro rfl
    exact reads_ofHeader header
  · exact Reads.ofHeader_eq

theorem kind_injective : Function.Injective Fault.kind := by
  intro f f' h
  cases f <;> cases f' <;> first | rfl | cases h

/-- headers that read the same are the same to the gate -/
theorem Reads.congr {header' : Option String} (h : Reads header r) (h' : Reads header' r) :
    ofHeader header = ofHeader header' := by
  have heq := h.ofHeader_eq
  rw [← h'.ofHeader_eq] at heq
  cases ht : ofHeader header <;> cases ht' : ofHeader header' <;> rw [ht, ht'] at heq
  · exact congrArg Except.error (kind_injective (Except.error.inj heq))
  · cases heq
  · cases heq
  · exact congrArg Except.ok (Except.ok.inj heq)

theorem presents_of_ok (h : ofHeader header = .ok t) :
    ∃ text, header = some text ∧ Presents text t := by
  have hreads := reads_ofHeader header
  rw [h] at hreads
  cases hreads with
  | token h => exact ⟨_, rfl, h⟩

/-! ## blanks that make no difference -/

theorem ofHeader_around {lead trail : String} (hlead : Blank lead.toList)
    (htrail : Blank trail.toList) (text : String) :
    ofHeader (some (lead ++ text ++ trail)) = ofHeader (some text) := by
  show ofTrimmed (trim (lead ++ text ++ trail).toList) = ofTrimmed (trim text.toList)
  rw [String.toList_append, String.toList_append, trim_around hlead htrail]

theorem ofHeader_trimmed (text : String) :
    ofHeader (some (trimmed text)) = ofHeader (some text) := by
  show ofTrimmed (trim (trimmed text).toList) = ofTrimmed (trim text.toList)
  rw [toList_trimmed, trim_trim]

/-- behind the scheme and one space stands the token, blanks around it aside -/
theorem ofHeader_header (rest : String) :
    ofHeader (some (Credential.header rest)) =
      if trimmed rest = "" then .error .noToken else .ok (trimmed rest) := by
  obtain ⟨hw, gap, trail, hgap, htrail, hrest⟩ := trims_trim rest.toList
  have htrimmed := toList_trimmed rest
  show ofTrimmed (trim (Credential.header rest).toList) = _
  rw [toList_header]
  by_cases hnil : trim rest.toList = []
  · -- the space is one of the blanks around the scheme
    have htrims : Trims (front ++ rest.toList) scheme.toList := by
      refine ⟨tight_scheme, [], ' ' :: rest.toList, blank_nil, ?_, by simp [front]⟩
      exact List.forall_mem_cons.mpr ⟨by decide, trim_eq_nil_iff.mp hnil⟩
    rw [if_pos (String.toList_eq_nil_iff.mp (htrimmed.trans hnil)), htrims.trim_eq]
    rfl
  · have htrims : Trims (front ++ rest.toList) (front ++ gap ++ trim rest.toList) := by
      refine ⟨tight_spelled hw hnil gap, [], trail, blank_nil, htrail, ?_⟩
      conv => lhs; rw [hrest]
      simp only [List.append_assoc, List.nil_append]
    have hne : trimmed rest ≠ "" := by
      intro he
      rw [he] at htrimmed
      exact hnil htrimmed.symm
    rw [if_neg hne, htrims.trim_eq, ofTrimmed_spelled hw hgap, trimmed]

theorem ofHeader_header_congr {rest rest' : String} (h : trimmed rest = trimmed rest') :
    ofHeader (some (Credential.header rest)) = ofHeader (some (Credential.header rest')) := by
  rw [ofHeader_header, ofHeader_header, h]

/-- the plain header of a token -/
theorem presents_header (hne : t ≠ "") (ht : Tight t.toList) :
    Presents (Credential.header t) t := by
  refine ⟨hne, ht, "", blank_nil, ?_⟩
  rw [toList_header, toList_spelled]
  refine ⟨tight_spelled ht (fun h => hne (String.toList_eq_nil_iff.mp h)) _, [], [], blank_nil,
    blank_nil, ?_⟩
  simp

/-- the scheme and one space in front of a text -/
theorem header_eq (rest : String) : Credential.header rest = "Bearer " ++ rest := by
  rw [← String.toList_inj, toList_header, String.toList_append]
  rfl

end TokenGate.Credential
