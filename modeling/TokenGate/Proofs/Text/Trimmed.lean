import TokenGate.Proofs.Text.Cuts

/-!
# What trimming leaves

* `Blank cs`          nothing but blanks;
* `Trims cs w`        `cs` is `w` with blanks around it, and `w` has none at either end;
* `trim_eq_iff`       trimming leaves exactly that;
* `trim_eq_nil_iff`   it leaves nothing of blanks alone;
* `trim_around`, `trimmed_around`   blanks around a text make no difference to what it leaves.
-/

namespace TokenGate.Text

variable {cs w front lead trail : List Char}

/-! ## blanks -/

def Blank (cs : List Char) : Prop := ∀ c ∈ cs, isBlank c = true

theorem blank_nil : Blank [] := List.forall_mem_nil _

theorem Blank.append (hl : Blank lead) (ht : Blank trail) : Blank (lead ++ trail) := by
  intro c hc
  rcases List.mem_append.mp hc with hc | hc
  · exact hl c hc
  · exact ht c hc

theorem Blank.reverse (h : Blank cs) : Blank cs.reverse :=
  fun c hc => h c (List.mem_reverse.mp hc)

/-- a text that ends with blanks is not tight -/
theorem Blank.not_tight (h : Blank trail) (hne : trail ≠ []) (front : List Char) :
    ¬ Tight (front ++ trail) := by
  intro htight
  have hlast : (front ++ trail).getLast? = some (trail.getLast hne) := by
    rw [List.getLast?_append_of_ne_nil _ hne, List.getLast?_eq_getLast_of_ne_nil hne]
  have hsolid := htight.2 _ hlast
  rw [h _ (List.getLast_mem hne)] at hsolid
  cases hsolid

/-! ## one end -/

theorem exists_lead (cs : List Char) : ∃ lead, Blank lead ∧ cs = lead ++ trimStart cs :=
  ⟨cs.takeWhile isBlank, fun _ hc => List.mem_takeWhile_imp hc,
    (List.takeWhile_append_dropWhile ..).symm⟩

theorem solid_head_trimStart (cs : List Char) :
    ∀ c ∈ (trimStart cs).head?, isBlank c = false := by
  induction cs with
  | nil => nofun
  | cons c cs ih =>
    by_cases hc : isBlank c = true
    · rw [trimStart_cons_blank hc]
      exact ih
    · have hsolid : isBlank c = false := by simpa using hc
      rw [trimStart_cons_solid hsolid]
      intro d hd
      cases hd
      exact hsolid

theorem trimStart_of_blank (h : Blank cs) : trimStart cs = [] := by
  have hs := trimStart_blanks h []
  rwa [List.append_nil] at hs

/-- trimming the end is trimming the start of the text read backwards -/
theorem trimEnd_eq (cs : List Char) : trimEnd cs = (trimStart cs.reverse).reverse := rfl

theorem exists_trail (cs : List Char) : ∃ trail, Blank trail ∧ cs = trimEnd cs ++ trail := by
  obtain ⟨lead, hlead, h⟩ := exists_lead cs.reverse
  refine ⟨lead.reverse, hlead.reverse, ?_⟩
  rw [trimEnd_eq, ← List.reverse_append, ← h, List.reverse_reverse]

theorem solid_last_trimEnd (cs : List Char) :
    ∀ c ∈ (trimEnd cs).getLast?, isBlank c = false := by
  rw [trimEnd_eq, List.getLast?_reverse]
  exact solid_head_trimStart cs.reverse

/-! ## both ends -/

/-- the text is `w` with blanks around it, and `w` has none at either end -/
structure Trims (cs w : List Char) : Prop where
  tight : Tight w
  around : ∃ lead trail, Blank lead ∧ Blank trail ∧ cs = lead ++ w ++ trail

theorem trims_trim (cs : List Char) : Trims cs (trim cs) := by
  obtain ⟨lead, hlead, hl⟩ := exists_lead cs
  obtain ⟨trail, htrail, ht⟩ : ∃ trail, Blank trail ∧ trimStart cs = trim cs ++ trail :=
    exists_trail (trimStart cs)
  refine ⟨⟨fun c hc => ?_, solid_last_trimEnd (trimStart cs)⟩, lead, trail, hlead, htrail, ?_⟩
  · -- what the end is trimmed of starts as before
    apply solid_head_trimStart cs
    rw [ht, List.head?_append, Option.mem_def.mp hc]
    rfl
  · rw [List.append_assoc, ← ht]
    exact hl

theorem trim_of_blank (h : Blank cs) : trim cs = [] := by
  rw [trim, trimStart_of_blank h]
  rfl

theorem Trims.trim_eq (h : Trims cs w) : trim cs = w := by
  obtain ⟨lead, trail, hlead, htrail, rfl⟩ := h.around
  by_cases hw : w = []
  · subst hw
    rw [List.append_nil]
    exact trim_of_blank (hlead.append htrail)
  · exact trim_surrounded hlead htrail h.tight hw

theorem trim_eq_iff : trim cs = w ↔ Trims cs w := by
  constructor
  · rintro rfl
    exact trims_trim cs
  · exact Trims.trim_eq

theorem tight_trim (cs : List Char) : Tight (trim cs) := (trims_trim cs).tight

theorem trim_trim (cs : List Char) : trim (trim cs) = trim cs := trim_tight (tight_trim cs)

theorem trim_eq_nil_iff : trim cs = [] ↔ Blank cs := by
  constructor
  · intro h
    obtain ⟨lead, trail, hlead, htrail, hcs⟩ := (trim_eq_iff.mp h).around
    rw [hcs, List.append_nil]
    exact hlead.append htrail
  · exact trim_of_blank

theorem trim_around (hlead : Blank lead) (htrail : Blank trail) (cs : List Char) :
    trim (lead ++ cs ++ trail) = trim cs := by
  obtain ⟨htight, front, back, hfront, hback, hcs⟩ := trims_trim cs
  refine trim_eq_iff.mpr ⟨htight, lead ++ front, back ++ trail, hlead.append hfront,
    hback.append htrail, ?_⟩
  conv => lhs; rw [hcs]
  simp only [List.append_assoc]

theorem trim_lead (hlead : Blank lead) (cs : List Char) : trim (lead ++ cs) = trim cs := by
  have h := trim_around hlead blank_nil cs
  rwa [List.append_nil] at h

/-! ## strings -/

theorem toList_trimmed (s : String) : (trimmed s).toList = trim s.toList := String.toList_ofList

theorem trimmed_trimmed (s : String) : trimmed (trimmed s) = trimmed s := by
  show String.ofList (trim (trimmed s).toList) = String.ofList (trim s.toList)
  rw [toList_trimmed, trim_trim]

theorem trimmed_around {lead trail : String} (hlead : Blank lead.toList)
    (htrail : Blank trail.toList) (s : String) : trimmed (lead ++ s ++ trail) = trimmed s := by
  rw [trimmed, trimmed, String.toList_append, String.toList_append, trim_around hlead htrail]

theorem trimmed_lead {lead : String} (hlead : Blank lead.toList) (s : String) :
    trimmed (lead ++ s) = trimmed s := by
  rw [trimmed, trimmed, String.toList_append, trim_lead hlead]

end TokenGate.Text
