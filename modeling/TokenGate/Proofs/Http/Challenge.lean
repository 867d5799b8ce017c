import TokenGate.Challenge

/-!
# A challenge is read back as it was meant

The grammar of challenges (RFC 7235, sections 2.1 and 2.2) as relations between what a text says
and how it is spelled, with all the freedom a reader has to grant: blanks around `=` and `,`,
values with and without quotes, a backslash before any character, empty items in a list.

* `Quoted t w`            `w` spells `t` between quotes;
* `Spells scheme ps w`    `w` spells a challenge with these parameters, and nothing else;
* `Spells.unique`         a text spells at most one challenge;
* `read?_listed`          the reader gets all the parameters of a list, whatever their values are;
* `value_reads_back`      so the challenge of a rejection has one reading, the one that was meant.
-/

namespace TokenGate.Challenge

/-! ## the grammar -/

def isSpace (c : Char) : Bool := c == ' ' || c == '\t'

def IsName (w : List Char) : Prop := w ≠ [] ∧ ∀ c ∈ w, isNameChar c = true

theorem isName_of_all {w : List Char} (h : (!w.isEmpty && w.all isNameChar) = true) :
    IsName w := by
  rw [Bool.and_eq_true, Bool.not_eq_true', List.isEmpty_eq_false_iff, List.all_eq_true] at h
  exact h

def Spaces (w : List Char) : Prop := ∀ c ∈ w, isSpace c = true

/-- the text of a quoted-string, and the string without its quotes -/
inductive Quoted : List Char → List Char → Prop
  | nil : Quoted [] []
  | plain {c : Char} {t w : List Char} (hq : c ≠ '"') (hb : c ≠ '\\') (h : Quoted t w) :
      Quoted (c :: t) (c :: w)
  | escaped (c : Char) {t w : List Char} (h : Quoted t w) : Quoted (c :: t) ('\\' :: c :: w)

inductive Value : List Char → List Char → Prop
  | name {w : List Char} (h : IsName w) : Value w w
  | quoted {t w : List Char} (h : Quoted t w) : Value t ('"' :: (w ++ ['"']))

inductive Parameter : String × String → List Char → Prop
  | mk {p : String × String} {before after w : List Char} (hname : IsName p.1.toList)
      (hbefore : Spaces before) (hafter : Spaces after) (hvalue : Value p.2.toList w) :
      Parameter p (p.1.toList ++ (before ++ '=' :: (after ++ w)))

/-- parameters behind others, each after a comma; there may be more commas than parameters -/
inductive Further : List (String × String) → List Char → Prop
  | nil {w : List Char} (h : Spaces w) : Further [] w
  | gap {before w : List Char} {ps : List (String × String)} (hbefore : Spaces before)
      (h : Further ps w) : Further ps (before ++ ',' :: w)
  | next {before after v w : List Char} {p : String × String} {ps : List (String × String)}
      (hbefore : Spaces before) (hafter : Spaces after) (hp : Parameter p v)
      (h : Further ps w) : Further (p :: ps) (before ++ ',' :: (after ++ (v ++ w)))

/-- parameters behind the scheme or a comma -/
inductive Parameters : List (String × String) → List Char → Prop
  | further {w : List Char} {ps : List (String × String)} (h : Further ps w) : Parameters ps w
  | first {after v w : List Char} {p : String × String} {ps : List (String × String)}
      (hafter : Spaces after) (hp : Parameter p v) (h : Further ps w) :
      Parameters (p :: ps) (after ++ (v ++ w))

inductive Spells : String → List (String × String) → List Char → Prop
  | bare {scheme : String} (h : IsName scheme.toList) : Spells scheme [] scheme.toList
  | parameters {scheme : String} {ps : List (String × String)} {w : List Char}
      (h : IsName scheme.toList) (hp : Parameters ps w) :
      Spells scheme ps (scheme.toList ++ ' ' :: w)

/-! ## where a stretch of characters of one kind ends -/

/-- `w` does not go on with a character that satisfies `p` -/
def Stops (p : Char → Bool) (w : List Char) : Prop := ∀ c ∈ w.head?, p c = false

theorem stops_cons {p : Char → Bool} {c : Char} (h : p c = false) (w : List Char) :
    Stops p (c :: w) := by
  intro d hd
  obtain rfl : c = d := Option.some.inj hd
  exact h

theorem takeWhile_stretch {p : Char → Bool} {a x : List Char} (ha : ∀ c ∈ a, p c = true)
    (hx : Stops p x) : (a ++ x).takeWhile p = a := by
  rw [List.takeWhile_append_of_pos ha]
  cases x with
  | nil => simp
  | cons c x => simp [hx c rfl]

theorem dropWhile_stretch {p : Char → Bool} {a x : List Char} (ha : ∀ c ∈ a, p c = true)
    (hx : Stops p x) : (a ++ x).dropWhile p = x := by
  rw [List.dropWhile_append_of_pos ha]
  cases x with
  | nil => simp
  | cons c x => simp [hx c rfl]

theorem stretch_unique {p : Char → Bool} {a b x y : List Char} (ha : ∀ c ∈ a, p c = true)
    (hb : ∀ c ∈ b, p c = true) (hx : Stops p x) (hy : Stops p y) (h : a ++ x = b ++ y) :
    a = b ∧ x = y := by
  have hab : a = b := by rw [← takeWhile_stretch ha hx, h, takeWhile_stretch hb hy]
  subst hab
  exact ⟨rfl, List.append_cancel_left h⟩

theorem isNameChar_of_isSpace {c : Char} (h : isSpace c = true) : isNameChar c = false := by
  rw [isSpace, Bool.or_eq_true, beq_iff_eq, beq_iff_eq] at h
  rcases h with rfl | rfl
  · rfl
  · rfl

theorem isSpace_of_isNameChar {c : Char} (h : isNameChar c = true) : isSpace c = false := by
  cases hs : isSpace c with
  | false => rfl
  | true => rw [isNameChar_of_isSpace hs] at h; cases h

/-- Behind spaces a name cannot go on if the first other character does not let it. -/
theorem stops_spaces {b : List Char} (hb : Spaces b) {c : Char} (hc : isNameChar c = false)
    (w : List Char) : Stops isNameChar (b ++ c :: w) := by
  cases b with
  | nil => exact stops_cons hc w
  | cons d b => exact stops_cons (isNameChar_of_isSpace (hb d (List.mem_cons_self ..))) _

theorem IsName.starts {w : List Char} (h : IsName w) (x : List Char) :
    ∃ c rest, w ++ x = c :: rest ∧ isNameChar c = true := by
  obtain ⟨c, w, rfl⟩ := List.exists_cons_of_ne_nil h.1
  exact ⟨c, w ++ x, rfl, h.2 c (List.mem_cons_self ..)⟩

/-! ## a text spells at most one challenge -/

theorem Quoted.unique {t t' w w' x x' : List Char} (h : Quoted t w) (h' : Quoted t' w')
    (he : w ++ '"' :: x = w' ++ '"' :: x') : t = t' ∧ x = x' := by
  induction h generalizing t' w' with
  | nil =>
    cases h' with
    | nil => exact ⟨rfl, (List.cons.inj he).2⟩
    | plain hq _ _ => exact absurd (List.cons.inj he).1.symm hq
    | escaped _ _ => exact absurd (List.cons.inj he).1 (by decide)
  | plain hq hb _ ih =>
    cases h' with
    | nil => exact absurd (List.cons.inj he).1 hq
    | plain _ _ h' =>
      obtain ⟨hc, htail⟩ := List.cons.inj he
      obtain ⟨ht, hx⟩ := ih h' htail
      exact ⟨by rw [hc, ht], hx⟩
    | escaped _ _ => exact absurd (List.cons.inj he).1 hb
  | escaped c _ ih =>
    cases h' with
    | nil => exact absurd (List.cons.inj he).1 (by decide)
    | plain _ hb _ => exact absurd (List.cons.inj he).1.symm hb
    | escaped c' h' =>
      obtain ⟨hc, htail⟩ := List.cons.inj (List.cons.inj he).2
      obtain ⟨ht, hx⟩ := ih h' htail
      exact ⟨by rw [hc, ht], hx⟩

theorem Value.stops {t w : List Char} (h : Value t w) (x : List Char) :
    Stops isSpace (w ++ x) := by
  cases h with
  | name h =>
    obtain ⟨c, rest, he, hc⟩ := h.starts x
    rw [he]
    exact stops_cons (isSpace_of_isNameChar hc) rest
  | quoted h => exact stops_cons rfl _

theorem Value.unique {t t' w w' x x' : List Char} (h : Value t w) (h' : Value t' w')
    (hx : Stops isNameChar x) (hx' : Stops isNameChar x') (he : w ++ x = w' ++ x') :
    t = t' ∧ x = x' := by
  cases h with
  | name h =>
    cases h' with
    | name h' => exact stretch_unique h.2 h'.2 hx hx' he
    | quoted _ =>
      obtain ⟨c, rest, hw, hc⟩ := h.starts x
      rw [hw] at he
      rw [(List.cons.inj he).1] at hc
      exact absurd hc (by decide)
  | quoted h =>
    cases h' with
    | name h' =>
      obtain ⟨c, rest, hw, hc⟩ := h'.starts x'
      rw [hw] at he
      rw [← (List.cons.inj he).1] at hc
      exact absurd hc (by decide)
    | quoted h' =>
      simp only [List.cons_append, List.append_assoc] at he
      exact h.unique h' (List.cons.inj he).2

theorem Parameter.starts {p : String × String} {w : List Char} (h : Parameter p w)
    (x : List Char) : ∃ c rest, w ++ x = c :: rest ∧ isNameChar c = true := by
  cases h with
  | mk hname _ _ _ =>
    rw [List.append_assoc]
    exact hname.starts _

theorem Parameter.stops {p : String × String} {w : List Char} (h : Parameter p w)
    (x : List Char) : Stops isSpace (w ++ x) := by
  obtain ⟨c, rest, he, hc⟩ := h.starts x
  rw [he]
  exact stops_cons (isSpace_of_isNameChar hc) rest

theorem Parameter.unique {p p' : String × String} {w w' x x' : List Char} (h : Parameter p w)
    (h' : Parameter p' w') (hx : Stops isNameChar x) (hx' : Stops isNameChar x')
    (he : w ++ x = w' ++ x') : p = p' ∧ x = x' := by
  cases h with
  | mk hname hbefore hafter hvalue =>
    cases h' with
    | mk hname' hbefore' hafter' hvalue' =>
      simp only [List.append_assoc, List.cons_append] at he
      obtain ⟨hn, he⟩ := stretch_unique hname.2 hname'.2 (stops_spaces hbefore rfl _)
        (stops_spaces hbefore' rfl _) he
      obtain ⟨_, he⟩ := stretch_unique hbefore hbefore' (stops_cons rfl _) (stops_cons rfl _) he
      obtain ⟨_, he⟩ := stretch_unique hafter hafter' (hvalue.stops x) (hvalue'.stops x')
        (List.cons.inj he).2
      obtain ⟨hv, hrest⟩ := hvalue.unique hvalue' hx hx' he
      exact ⟨Prod.ext (String.toList_inj.mp hn) (String.toList_inj.mp hv), hrest⟩

/-- Behind a parameter there are spaces up to a comma or the end. -/
theorem Further.forms {ps : List (String × String)} {w : List Char} (h : Further ps w) :
    ps = [] ∧ Spaces w
      ∨ ∃ before rest, Spaces before ∧ w = before ++ ',' :: rest ∧ Parameters ps rest := by
  cases h with
  | nil h => exact .inl ⟨rfl, h⟩
  | gap hbefore h => exact .inr ⟨_, _, hbefore, rfl, .further h⟩
  | next hbefore hafter hp h => exact .inr ⟨_, _, hbefore, rfl, .first hafter hp h⟩

theorem Further.stops {ps : List (String × String)} {w : List Char} (h : Further ps w) :
    Stops isNameChar w := by
  rcases h.forms with ⟨_, hw⟩ | ⟨before, rest, hbefore, rfl, _⟩
  · exact fun c hc => isNameChar_of_isSpace (hw c (List.mem_of_mem_head? hc))
  · exact stops_spaces hbefore rfl rest

theorem not_spaces {before rest : List Char} {c : Char} (hc : isSpace c = false) :
    ¬ Spaces (before ++ c :: rest) := by
  intro h
  rw [h c (List.mem_append_right _ (List.mem_cons_self ..))] at hc
  cases hc

theorem Further.ne_parameter {ps : List (String × String)} {w : List Char} (h : Further ps w)
    {after v : List Char} {p : String × String} (hafter : Spaces after) (hp : Parameter p v)
    (x : List Char) : w ≠ after ++ (v ++ x) := by
  intro he
  obtain ⟨c, tail, hv, hc⟩ := hp.starts x
  rw [hv] at he
  rcases h.forms with ⟨_, hw⟩ | ⟨before, rest, hbefore, rfl, _⟩
  · exact not_spaces (isSpace_of_isNameChar hc) (he ▸ hw)
  · obtain ⟨_, he⟩ := stretch_unique hbefore hafter (stops_cons rfl rest)
      (stops_cons (isSpace_of_isNameChar hc) tail) he
    rw [← (List.cons.inj he).1] at hc
    exact absurd hc (by decide)

/-- The first comma is the same in every spelling of a text. -/
theorem Further.behind {ps : List (String × String)} {before rest : List Char}
    (h : Further ps (before ++ ',' :: rest)) (hbefore : Spaces before) : Parameters ps rest := by
  rcases h.forms with ⟨_, hw⟩ | ⟨before', rest', hbefore', he, hrest⟩
  · exact absurd hw (not_spaces rfl)
  · obtain ⟨_, he⟩ := stretch_unique hbefore hbefore' (stops_cons rfl _) (stops_cons rfl _) he
    rw [(List.cons.inj he).2]
    exact hrest

/-- and so is the first parameter -/
theorem Parameters.behind {ps : List (String × String)} {after v w : List Char}
    {p : String × String} (h : Parameters ps (after ++ (v ++ w))) (hafter : Spaces after)
    (hp : Parameter p v) (hw : Stops isNameChar w) : ∃ qs, ps = p :: qs ∧ Further qs w := by
  generalize he : after ++ (v ++ w) = u at h
  cases h with
  | further h => exact absurd he.symm (h.ne_parameter hafter hp w)
  | first hafter' hp' h =>
    obtain ⟨_, he⟩ := stretch_unique hafter hafter' (hp.stops _) (hp'.stops _) he
    obtain ⟨rfl, rfl⟩ := hp.unique hp' hw h.stops he
    exact ⟨_, rfl, h⟩

theorem Further.unique {ps ps' : List (String × String)} {w : List Char} (h : Further ps w)
    (h' : Further ps' w) : ps = ps' := by
  induction h generalizing ps' with
  | nil hw =>
    rcases h'.forms with ⟨rfl, _⟩ | ⟨before, rest, _, rfl, _⟩
    · rfl
    · exact absurd hw (not_spaces rfl)
  | gap hbefore h ih =>
    cases h'.behind hbefore with
    | further h' => exact ih h'
    | first hafter hp _ => exact absurd rfl (h.ne_parameter hafter hp _)
  | next hbefore hafter hp h ih =>
    obtain ⟨qs, rfl, hqs⟩ := (h'.behind hbefore).behind hafter hp h.stops
    rw [ih hqs]

theorem Parameters.unique {ps ps' : List (String × String)} {w : List Char}
    (h : Parameters ps w) (h' : Parameters ps' w) : ps = ps' := by
  cases h with
  | further h =>
    cases h' with
    | further h' => exact h.unique h'
    | first hafter hp _ => exact absurd rfl (h.ne_parameter hafter hp _)
  | first hafter hp h =>
    obtain ⟨qs, rfl, hqs⟩ := h'.behind hafter hp h.stops
    rw [h.unique hqs]

theorem Spells.unique {scheme scheme' : String} {ps ps' : List (String × String)} {w : List Char}
    (h : Spells scheme ps w) (h' : Spells scheme' ps' w) : scheme = scheme' ∧ ps = ps' := by
  have hend : Stops isNameChar [] := fun c hc => nomatch hc
  have hblank (x : List Char) : Stops isNameChar (' ' :: x) := stops_cons rfl x
  cases h with
  | bare hs =>
    generalize he : scheme.toList = u at h'
    rw [← List.append_nil scheme.toList] at he
    cases h' with
    | bare hs' =>
      rw [← List.append_nil scheme'.toList] at he
      obtain ⟨hn, _⟩ := stretch_unique hs.2 hs'.2 hend hend he
      exact ⟨String.toList_inj.mp hn, rfl⟩
    | parameters hs' _ => exact nomatch (stretch_unique hs.2 hs'.2 hend (hblank _) he).2
  | @parameters _ x hs hp =>
    generalize he : scheme.toList ++ ' ' :: x = u at h'
    cases h' with
    | bare hs' =>
      rw [← List.append_nil scheme'.toList] at he
      exact nomatch (stretch_unique hs.2 hs'.2 (hblank _) hend he).2
    | parameters hs' hp' =>
      obtain ⟨hn, he⟩ := stretch_unique hs.2 hs'.2 (hblank _) (hblank _) he
      obtain rfl := (List.cons.inj he).2
      exact ⟨String.toList_inj.mp hn, hp.unique hp'⟩

/-! ## what is written -/

theorem spaces_nil : Spaces [] := by
  intro c hc
  cases hc

theorem spaces_single : Spaces [' '] := by
  intro c hc
  rw [List.mem_singleton.mp hc]
  rfl

theorem quoted_quoteChars (cs : List Char) : Quoted cs (quoteChars cs) := by
  induction cs with
  | nil => exact .nil
  | cons c cs ih =>
    by_cases h : c = '"' ∨ c = '\\'
    · rw [quoteChars, if_pos h]
      exact .escaped c ih
    · rw [quoteChars, if_neg h]
      exact .plain (fun hq => h (.inl hq)) (fun hb => h (.inr hb)) ih

/-- a parameter with its value in quotes -/
def written (p : String × String) : List Char := p.1.toList ++ '=' :: quote p.2

/-- parameters behind others -/
def following (ps : List (String × String)) : List Char :=
  ps.flatMap fun p => ',' :: ' ' :: written p

theorem following_cons (p : String × String) (ps : List (String × String)) :
    following (p :: ps) = ',' :: ' ' :: (written p ++ following ps) := rfl

theorem parameter_written {p : String × String} (hname : IsName p.1.toList) :
    Parameter p (written p) :=
  @Parameter.mk p [] [] _ hname spaces_nil spaces_nil (.quoted (quoted_quoteChars _))

theorem further_following {ps : List (String × String)} (h : ∀ p ∈ ps, IsName p.1.toList) :
    Further ps (following ps) := by
  induction ps with
  | nil => exact .nil spaces_nil
  | cons p ps ih =>
    have hp : Parameter p (written p) := parameter_written (h p (List.mem_cons_self ..))
    exact .next spaces_nil spaces_single hp (ih fun q hq => h q (List.mem_cons_of_mem _ hq))

/-! ## what is read -/

theorem unquote?_escaped (c : Char) (cs : List Char) :
    unquote? ('\\' :: c :: cs) = (unquote? cs).map fun r => (c :: r.1, r.2) := by
  rw [unquote?]

theorem unquote?_plain {c : Char} (hq : c ≠ '"') (hb : c ≠ '\\') (cs : List Char) :
    unquote? (c :: cs) = (unquote? cs).map fun r => (c :: r.1, r.2) := by
  rw [unquote?]
  · exact hq
  · intro _ _ h _
    exact hb h
  · intro h _
    exact hb h

theorem unquote?_quoteChars (cs rest : List Char) :
    unquote? (quoteChars cs ++ '"' :: rest) = some (cs, rest) := by
  induction cs with
  | nil => rw [quoteChars_nil, List.nil_append, unquote?]
  | cons c cs ih =>
    by_cases h : c = '"' ∨ c = '\\'
    · rw [quoteChars, if_pos h, List.cons_append, List.cons_append, unquote?_escaped, ih]
      rfl
    · rw [quoteChars, if_neg h, List.cons_append,
        unquote?_plain (fun hq => h (.inl hq)) (fun hb => h (.inr hb)), ih]
      rfl

theorem parameter?_written {p : String × String} (hname : IsName p.1.toList) (rest : List Char) :
    parameter? (written p ++ rest) = some (p, rest) := by
  obtain ⟨c, name, hc⟩ := List.exists_cons_of_ne_nil hname.1
  have hw : written p ++ rest
      = p.1.toList ++ '=' :: '"' :: (quoteChars p.2.toList ++ '"' :: rest) := by
    simp [written, quote]
  have hend : Stops isNameChar ('=' :: '"' :: (quoteChars p.2.toList ++ '"' :: rest)) :=
    stops_cons rfl _
  rw [parameter?, hw, takeWhile_stretch hname.2 hend, dropWhile_stretch hname.2 hend, hc]
  show (unquote? _).map _ = _
  rw [unquote?_quoteChars, Option.map_some, ← hc]
  show some ((String.ofList p.1.toList, String.ofList p.2.toList), rest) = _
  rw [String.ofList_toList, String.ofList_toList]

theorem skip_written {b : List Char} (hb : Spaces b) {p : String × String}
    (hname : IsName p.1.toList) (rest : List Char) :
    skip (b ++ (written p ++ rest)) = written p ++ rest :=
  dropWhile_stretch hb ((parameter_written hname).stops rest)

theorem parameters?_following {p : String × String} {ps : List (String × String)}
    (h : ∀ q ∈ p :: ps, IsName q.1.toList) {fuel : Nat} (hfuel : ps.length < fuel) :
    parameters? fuel (written p ++ following ps) = some (p :: ps) := by
  induction ps generalizing p fuel with
  | nil =>
    obtain ⟨n, rfl⟩ := Nat.exists_eq_add_one.mpr hfuel
    rw [parameters?, parameter?_written (h p (List.mem_cons_self ..))]
    rfl
  | cons q qs ih =>
    obtain ⟨n, rfl⟩ := Nat.exists_eq_add_one.mpr (Nat.zero_lt_of_lt hfuel)
    have hrest : ∀ r ∈ q :: qs, IsName r.1.toList := fun r hr => h r (List.mem_cons_of_mem _ hr)
    have hq : IsName q.1.toList := hrest q (List.mem_cons_self ..)
    rw [parameters?, parameter?_written (h p (List.mem_cons_self ..)), following_cons]
    show (parameters? n (skip ([' '] ++ (written q ++ following qs)))).map _ = _
    rw [skip_written spaces_single hq, ih hrest (Nat.lt_of_succ_lt_succ hfuel), Option.map_some]

/-! ## challenges -/

/-- a challenge with one parameter at least -/
def listed (scheme : String) (p : String × String) (ps : List (String × String)) : List Char :=
  scheme.toList ++ ' ' :: (written p ++ following ps)

theorem spells_listed {scheme : String} (hs : IsName scheme.toList) {p : String × String}
    {ps : List (String × String)} (h : ∀ q ∈ p :: ps, IsName q.1.toList) :
    Spells scheme (p :: ps) (listed scheme p ps) := by
  have hp : Parameter p (written p) := parameter_written (h p (List.mem_cons_self ..))
  have hps : Further ps (following ps) :=
    further_following fun q hq => h q (List.mem_cons_of_mem _ hq)
  exact .parameters hs (.first spaces_nil hp hps)

theorem length_le_following (ps : List (String × String)) :
    ps.length ≤ (following ps).length := by
  induction ps with
  | nil => exact Nat.zero_le _
  | cons p ps ih =>
    simp only [following_cons, List.length_cons, List.length_append]
    omega

/-- a text has more characters than it lists parameters -/
theorem length_lt_written (p : String × String) (ps : List (String × String)) :
    ps.length < (written p ++ following ps).length := by
  have hps := length_le_following ps
  simp only [written, List.length_append, List.length_cons]
  omega

theorem read?_listed {scheme : String} (hs : IsName scheme.toList) {p : String × String}
    {ps : List (String × String)} (h : ∀ q ∈ p :: ps, IsName q.1.toList) :
    read? (String.ofList (listed scheme p ps)) = some (scheme, p :: ps) := by
  obtain ⟨c, name, hc⟩ := List.exists_cons_of_ne_nil hs.1
  have hend : Stops isNameChar (' ' :: (written p ++ following ps)) := stops_cons rfl _
  have hskip : skip (written p ++ following ps) = written p ++ following ps :=
    skip_written spaces_nil (h p (List.mem_cons_self ..)) _
  unfold read?
  simp only [String.toList_ofList, listed, takeWhile_stretch hs.2 hend,
    dropWhile_stretch hs.2 hend]
  rw [hc]
  show (parameters? (written p ++ following ps).length (skip (written p ++ following ps))).map _ = _
  rw [hskip, parameters?_following h (length_lt_written p ps), Option.map_some, ← hc,
    String.ofList_toList]

/-! ## rejections -/

/-- what a challenge says behind the realm -/
def furtherOf (r : Rejection) : List (String × String) :=
  if r.kind = .missingCredentials then []
  else [("error", "invalid_token"), ("error_description", r.description)]

theorem value_eq (realm : String) (r : Rejection) :
    value realm r = String.ofList (listed "Bearer" ("realm", realm) (furtherOf r)) := by
  have hfront : "Bearer realm=".toList = "Bearer".toList ++ ' ' :: ("realm".toList ++ ['=']) := by
    rfl
  have herror : ", error=".toList = ',' :: ' ' :: ("error".toList ++ ['=']) := by rfl
  have hsentence :
      ", error_description=".toList = ',' :: ' ' :: ("error_description".toList ++ ['=']) := by rfl
  unfold value furtherOf listed
  rw [hfront]
  split
  · simp [written, following]
  · rw [herror, hsentence]
    simp [written, following, invalidToken]

theorem isName_of_mem {r : Rejection} {realm : String} {q : String × String}
    (h : q ∈ ("realm", realm) :: furtherOf r) : IsName q.1.toList := by
  have hname : q.1 ∈ ["realm", "error", "error_description"] := by
    unfold furtherOf at h
    split at h
    · rcases List.mem_cons.mp h with rfl | h
      · exact List.mem_cons_self ..
      · cases h
    · exact List.mem_map_of_mem h
  have hall : ∀ n ∈ ["realm", "error", "error_description"], IsName n.toList := by
    intro n hn
    simp only [List.mem_cons, List.not_mem_nil, or_false] at hn
    rcases hn with rfl | rfl | rfl
    · exact isName_of_all (by decide +kernel)
    · exact isName_of_all (by decide +kernel)
    · exact isName_of_all (by decide +kernel)
  exact hall q.1 hname

/-- The challenge of a rejection, whatever realm and description it is about, is read back as the
realm alone where no credential was presented, else as the realm, the error and the description;
and no other reading of it keeps to the grammar, so that nothing in a realm or a description ends
a value or adds a parameter. -/
theorem value_reads_back (realm : String) (r : Rejection) :
    ∃ ps : List (String × String),
      (r.kind = .missingCredentials → ps = [("realm", realm)])
      ∧ (r.kind ≠ .missingCredentials → ps = [("realm", realm), ("error", "invalid_token"),
          ("error_description", r.description)])
      ∧ read? (value realm r) = some ("Bearer", ps)
      ∧ ∀ scheme qs, Spells scheme qs (value realm r).toList ↔ scheme = "Bearer" ∧ qs = ps := by
  have hscheme : IsName "Bearer".toList := isName_of_all (by decide +kernel)
  have hnames : ∀ q ∈ ("realm", realm) :: furtherOf r, IsName q.1.toList :=
    fun _ hq => isName_of_mem hq
  refine ⟨("realm", realm) :: furtherOf r, ?_, ?_, ?_, ?_⟩
  · intro h
    rw [furtherOf, if_pos h]
  · intro h
    rw [furtherOf, if_neg h]
  · rw [value_eq]
    exact read?_listed hscheme hnames
  · intro scheme qs
    have hspells := spells_listed hscheme hnames
    rw [value_eq, String.toList_ofList]
    constructor
    · exact fun h => h.unique hspells
    · rintro ⟨rfl, rfl⟩
      exact hspells

example : read? (value "a\\\", error=\"b" (.ofKind .tokenExpired))
    = some ("Bearer", [("realm", "a\\\", error=\"b"), ("error", "invalid_token"),
        ("error_description", "The access token has expired")]) := by
  decide +kernel

end TokenGate.Challenge
