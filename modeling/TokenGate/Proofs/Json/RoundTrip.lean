import TokenGate.Proofs.Json.Decimals
import TokenGate.Proofs.Json.Everywhere
import TokenGate.Proofs.Json.Quotes

/-!
# Values are read back as they were written

* `Reads read v`        `read` finds `v` at the front of every text that goes on behind it;
* `scalar?_…`           values that are neither array nor object;
* `items_of_reads`, `members_of_reads`   arrays and objects whose parts are read;
* `reads_render`        exact values that are not too deep;
* `written?_render`      the same for a whole text.

The induction is on the depth that is allowed for, which goes down by one where the reader enters
an array or object.
-/

namespace TokenGate.Json

def Reads (read : Read) (v : Json) : Prop :=
  ∀ tail, Stops tail → read (render v ++ tail) = some (v, tail)

/-! ## heads -/

theorem skip_of_solid {c : Char} (h : isSpace c = false) (cs : List Char) :
    skip (c :: cs) = c :: cs := by
  simp [skip, h]

theorem ne_of_isDigit {c d : Char} (h : isDigit c = true) (hd : isDigit d = false) : c ≠ d := by
  rintro rfl
  rw [h] at hd
  cases hd

theorem isSpace_of_isDigit {c : Char} (h : isDigit c = true) : isSpace c = false := by
  have h₁ : c ≠ ' ' := ne_of_isDigit h (by decide)
  have h₂ : c ≠ '\t' := ne_of_isDigit h (by decide)
  have h₃ : c ≠ '\n' := ne_of_isDigit h (by decide)
  have h₄ : c ≠ '\r' := ne_of_isDigit h (by decide)
  simp [isSpace, h₁, h₂, h₃, h₄]

theorem decimal_cons (n : Int) : ∃ c cs, decimal n = c :: cs ∧ (c = '-' ∨ isDigit c = true) := by
  unfold decimal
  by_cases h : n < 0
  · rw [if_pos h]
    exact ⟨'-', _, rfl, .inl rfl⟩
  · rw [if_neg h]
    obtain ⟨c, cs, hc, hd⟩ := toDigits_cons n.natAbs
    exact ⟨c, cs, hc, .inr hd⟩

theorem layout_cons (q : Nat) (k : Int) :
    ∃ c cs, Binary64.layout (Nat.toDigits 10 q) k = c :: cs ∧ isDigit c = true := by
  obtain ⟨c, cs, hc, hd⟩ := toDigits_cons q
  rw [hc]
  unfold Binary64.layout
  dsimp only
  split
  · exact ⟨c, _, rfl, hd⟩
  · split
    · next h =>
      obtain ⟨n, hn⟩ := Int.eq_succ_of_zero_lt h.1
      rw [hn]
      exact ⟨c, _, rfl, hd⟩
    · split
      · exact ⟨'0', _, rfl, by decide⟩
      · exact ⟨c, _, rfl, hd⟩

theorem signedText_cons (negative : Bool) (m : Nat) :
    ∃ c cs, Binary64.signedText negative m = c :: cs ∧ (c = '-' ∨ isDigit c = true) := by
  cases negative with
  | true => exact ⟨'-', _, rfl, .inl rfl⟩
  | false =>
    show ∃ c cs, Binary64.text m = c :: cs ∧ _
    unfold Binary64.text
    split
    · exact ⟨'0', _, rfl, .inr (by decide)⟩
    · next q k _ =>
      obtain ⟨c, cs, hc, hd⟩ := layout_cons q k
      exact ⟨c, cs, hc, .inr hd⟩

/-- a character that a value can start with -/
def opensValue (c : Char) : Bool :=
  isDigit c || ['-', '"', '[', '\x7b', 'n', 't', 'f'].contains c

theorem opens_of_decimal {c : Char} (h : c = '-' ∨ isDigit c = true) : opensValue c = true := by
  unfold opensValue
  rcases h with rfl | h
  · decide
  · rw [h]
    rfl

theorem render_cons (v : Json) : ∃ c cs, render v = c :: cs ∧ opensValue c = true := by
  cases v with
  | null => exact ⟨'n', _, by rw [render], by decide⟩
  | bool b => cases b <;> exact ⟨_, _, by rw [render], by decide⟩
  | int n =>
    obtain ⟨c, cs, hc, h⟩ := decimal_cons n
    exact ⟨c, cs, by rw [render, hc], opens_of_decimal h⟩
  | real negative m =>
    obtain ⟨c, cs, hc, h⟩ := signedText_cons negative m
    exact ⟨c, cs, by rw [render, hc], opens_of_decimal h⟩
  | str s => exact ⟨'"', _, by rw [render, quote, List.cons_append], by decide⟩
  | arr items =>
    cases items with
    | nil => exact ⟨'[', _, by rw [render], by decide⟩
    | cons v rest => exact ⟨'[', _, by rw [render_arr_cons, List.cons_append], by decide⟩
  | obj members =>
    cases members with
    | nil => exact ⟨'\x7b', _, by rw [render], by decide⟩
    | cons kv rest => exact ⟨'\x7b', _, by rw [render, List.cons_append, List.cons_append],
      by decide⟩

theorem solid_of_opens {c : Char} (h : opensValue c = true) :
    isSpace c = false ∧ c ≠ ']' ∧ c ≠ '\x7d' := by
  unfold opensValue at h
  rcases Bool.or_eq_true_iff.mp h with h | h
  · exact ⟨isSpace_of_isDigit h, ne_of_isDigit h (by decide), ne_of_isDigit h (by decide)⟩
  · simp only [List.contains_cons, List.contains_nil, Bool.or_false, Bool.or_eq_true,
      beq_iff_eq] at h
    rcases h with rfl | rfl | rfl | rfl | rfl | rfl | rfl <;> decide

/-! ## values without parts -/

theorem readText?_scalar (d : Nat) {c : Char} (hs : isSpace c = false) (ha : c ≠ '[')
    (ho : c ≠ '\x7b') (cs : List Char) : readText? d (c :: cs) = scalar? (c :: cs) := by
  cases d <;>
  · rw [readText?]
    dsimp only
    rw [skip_of_solid hs]
    split
    · next e => exact absurd (List.cons.inj e).1 ha
    · next e => exact absurd (List.cons.inj e).1 ho
    · rfl

theorem scalar?_decimal (n : Int) (hn : Literal.Fits n) {tail : List Char} (h : Stops tail) :
    scalar? (decimal n ++ tail) = some (.int n, tail) := by
  obtain ⟨l, hl, hv⟩ := scan?_decimal n hn h
  obtain ⟨c, cs, hc, hd⟩ := decimal_cons n
  have hne : ∀ x : Char, isDigit x = false → x ≠ '-' → c ≠ x := by
    intro x hx hx'
    rcases hd with rfl | hd
    · exact hx'.symm
    · exact ne_of_isDigit hd hx
  rw [hc] at hl ⊢
  rw [List.cons_append] at hl ⊢
  rw [scalar?, hl]
  · show l.value?.bind _ = _
    rw [hv]
    rfl
  · intro _ e
    exact hne 'n' (by decide) (by decide) (List.cons.inj e).1
  · intro _ e
    exact hne 't' (by decide) (by decide) (List.cons.inj e).1
  · intro _ e
    exact hne 'f' (by decide) (by decide) (List.cons.inj e).1
  · intro _ e
    exact hne '"' (by decide) (by decide) (List.cons.inj e).1

theorem reads_null (d : Nat) : Reads (readText? d) .null := by
  intro tail _
  rw [render]
  exact readText?_scalar d (by decide) (by decide) (by decide) _

theorem reads_bool (d : Nat) (b : Bool) : Reads (readText? d) (.bool b) := by
  intro tail _
  cases b
  · rw [render]
    exact readText?_scalar d (by decide) (by decide) (by decide) _
  · rw [render]
    exact readText?_scalar d (by decide) (by decide) (by decide) _

theorem reads_int (d : Nat) {n : Int} (hn : Literal.Fits n) : Reads (readText? d) (.int n) := by
  intro tail h
  rw [render_int, ← scalar?_decimal n hn h]
  obtain ⟨c, cs, hc, hd⟩ := decimal_cons n
  have hs : isSpace c = false := (solid_of_opens (opens_of_decimal hd)).1
  rw [hc]
  refine readText?_scalar d hs ?_ ?_ _
  · rcases hd with rfl | hd
    · decide
    · exact ne_of_isDigit hd (by decide)
  · rcases hd with rfl | hd
    · decide
    · exact ne_of_isDigit hd (by decide)

theorem reads_str (d : Nat) (s : String) : Reads (readText? d) (.str s) := by
  intro tail _
  obtain ⟨cs, hq, hs⟩ := quoted?_quote s tail
  rw [render_str, hq, readText?_scalar d (by decide) (by decide) (by decide), scalar?, hs]
  rfl

/-! ## arrays -/

variable {read : Read}

theorem items_of_reads {v : Json} {rest : List Json} (hv : Reads read v)
    (hrest : ∀ w ∈ rest, Reads read w) {fuel : Nat} (hf : rest.length < fuel)
    (tail : List Char) :
    items read fuel (render v ++ (renderItems rest ++ tail)) = some (v :: rest, tail) := by
  induction rest generalizing v fuel with
  | nil =>
    obtain ⟨fuel, rfl⟩ := Nat.exists_eq_succ_of_ne_zero (Nat.ne_of_gt hf)
    have hstop : Stops (']' :: tail) := by
      intro c hc
      cases hc
      exact .inr (.inl rfl)
    rw [renderItems, List.singleton_append, items, hv _ hstop]
    rfl
  | cons w rest ih =>
    obtain ⟨fuel, rfl⟩ := Nat.exists_eq_succ_of_ne_zero (Nat.ne_of_gt (Nat.zero_lt_of_lt hf))
    have hstop : Stops (',' :: (render w ++ (renderItems rest ++ tail))) := by
      intro c hc
      cases hc
      exact .inl rfl
    have hw := ih (hrest w (List.mem_cons_self ..))
      (fun x hx => hrest x (List.mem_cons_of_mem _ hx)) (Nat.lt_of_succ_lt_succ hf)
    rw [renderItems, List.append_assoc, List.cons_append, items, hv _ hstop]
    show (items read fuel (render w ++ (renderItems rest ++ tail))).bind _ = _
    rw [hw]
    rfl

theorem length_renderItems (rest : List Json) : rest.length < (renderItems rest).length := by
  induction rest with
  | nil => simp [renderItems]
  | cons v rest ih =>
    simp only [renderItems, List.length_append, List.length_cons]
    omega

theorem array?_of_reads {items : List Json} (h : ∀ v ∈ items, Reads read v) (tail : List Char) :
    ∃ cs, render (.arr items) ++ tail = '[' :: cs ∧ array? read cs = some (.arr items, tail) := by
  cases items with
  | nil => exact ⟨']' :: tail, by rw [render]; rfl, rfl⟩
  | cons v rest =>
    refine ⟨render v ++ (renderItems rest ++ tail), by rw [render_arr_cons]; simp, ?_⟩
    have hf : rest.length < (render v ++ (renderItems rest ++ tail)).length := by
      have := length_renderItems rest
      simp only [List.length_append]
      omega
    have hi := items_of_reads (h v (List.mem_cons_self ..))
      (fun w hw => h w (List.mem_cons_of_mem _ hw)) hf tail
    obtain ⟨c, cs, hc, ho⟩ := render_cons v
    obtain ⟨hs, hne, _⟩ := solid_of_opens ho
    unfold array?
    rw [hc, List.cons_append] at hi ⊢
    rw [skip_of_solid hs]
    split
    · next e => exact absurd (List.cons.inj e).1 hne
    · rw [hi]
      rfl

/-! ## objects -/

theorem members_of_reads {k : String} {v : Json} {rest : List (String × Json)}
    (hv : Reads read v) (hrest : ∀ kv ∈ rest, Reads read kv.2) {fuel : Nat}
    (hf : rest.length < fuel) (tail : List Char) :
    members read fuel (quote k ++ ':' :: (render v ++ (renderMembers rest ++ tail))) =
      some ((k, v) :: rest, tail) := by
  induction rest generalizing k v fuel with
  | nil =>
    obtain ⟨fuel, rfl⟩ := Nat.exists_eq_succ_of_ne_zero (Nat.ne_of_gt hf)
    have hstop : Stops ('\x7d' :: tail) := by
      intro c hc
      cases hc
      exact .inr (.inr rfl)
    obtain ⟨cs, hq, hs⟩ := quoted?_quote k (':' :: (render v ++ '\x7d' :: tail))
    rw [renderMembers, List.singleton_append, hq, members]
    show (quoted? cs).bind _ = _
    rw [hs]
    show (read (render v ++ '\x7d' :: tail)).bind _ = _
    rw [hv _ hstop]
    rfl
  | cons kw rest ih =>
    obtain ⟨k', w⟩ := kw
    obtain ⟨fuel, rfl⟩ := Nat.exists_eq_succ_of_ne_zero (Nat.ne_of_gt (Nat.zero_lt_of_lt hf))
    have hw := ih (k := k') (hrest (k', w) (List.mem_cons_self ..))
      (fun x hx => hrest x (List.mem_cons_of_mem _ hx)) (Nat.lt_of_succ_lt_succ hf)
    have hstop : Stops (',' :: (quote k'
        ++ ':' :: (render w ++ (renderMembers rest ++ tail)))) := by
      intro c hc
      cases hc
      exact .inl rfl
    obtain ⟨cs, hq, hs⟩ := quoted?_quote k (':' :: (render v
      ++ ',' :: (quote k' ++ ':' :: (render w ++ (renderMembers rest ++ tail)))))
    have htext : quote k ++ ':' :: (render v ++ (renderMembers ((k', w) :: rest) ++ tail))
        = '"' :: cs := by
      rw [← hq, renderMembers]
      simp
    rw [htext, members]
    show (quoted? cs).bind _ = _
    rw [hs]
    show (read (render v ++ _)).bind _ = _
    rw [hv _ hstop]
    show (members read fuel (quote k' ++ _)).bind _ = _
    rw [hw]
    rfl

theorem length_renderMembers (rest : List (String × Json)) :
    rest.length < (renderMembers rest).length := by
  induction rest with
  | nil => simp [renderMembers]
  | cons kv rest ih =>
    simp only [renderMembers, List.length_append, List.length_cons]
    omega

theorem object?_of_reads {members : List (String × Json)} (h : ∀ kv ∈ members, Reads read kv.2)
    (tail : List Char) :
    ∃ cs, render (.obj members) ++ tail = '\x7b' :: cs
      ∧ object? read cs = some (.obj members, tail) := by
  cases members with
  | nil => exact ⟨'\x7d' :: tail, by rw [render]; rfl, rfl⟩
  | cons kv rest =>
    obtain ⟨k, v⟩ := kv
    refine ⟨quote k ++ ':' :: (render v ++ (renderMembers rest ++ tail)),
      by rw [render_obj_cons]; simp, ?_⟩
    have hf : rest.length
        < (quote k ++ ':' :: (render v ++ (renderMembers rest ++ tail))).length := by
      have := length_renderMembers rest
      simp only [List.length_append, List.length_cons]
      omega
    have hm := members_of_reads (k := k) (h (k, v) (List.mem_cons_self ..))
      (fun w hw => h w (List.mem_cons_of_mem _ hw)) hf tail
    obtain ⟨cs, hq, _⟩ := quoted?_quote k (':' :: (render v ++ (renderMembers rest ++ tail)))
    unfold object?
    rw [hq] at hm ⊢
    rw [skip_of_solid (by decide)]
    show (Json.members read _ _).map _ = _
    rw [hm]
    rfl

/-! ## all values -/

theorem reads_render (d : Nat) {v : Json} (hv : v.all isExact = true) (hd : depth v ≤ d) :
    Reads (readText? d) v := by
  induction d generalizing v with
  | zero =>
    cases v with
    | null => exact reads_null 0
    | bool b => exact reads_bool 0 b
    | int n => exact reads_int 0 (of_decide_eq_true hv)
    | real s e => cases hv
    | str s => exact reads_str 0 s
    | arr items => exact absurd hd (by rw [depth]; omega)
    | obj members => exact absurd hd (by rw [depth]; omega)
  | succ d ih =>
    cases v with
    | null => exact reads_null _
    | bool b => exact reads_bool _ b
    | int n => exact reads_int _ (of_decide_eq_true hv)
    | real s e => cases hv
    | str s => exact reads_str _ s
    | arr items =>
      intro tail _
      have hitems : ∀ w ∈ items, Reads (readText? d) w := fun w hw =>
        ih ((all_arr.mp hv).2 w hw) (depth_item hw hd)
      obtain ⟨cs, hcs, ha⟩ := array?_of_reads hitems tail
      rw [hcs, ← ha]
      rfl
    | obj members =>
      intro tail _
      have hmembers : ∀ kv ∈ members, Reads (readText? d) kv.2 := fun kv hkv =>
        ih ((all_obj.mp hv).2 kv hkv) (depth_member hkv hd)
      obtain ⟨cs, hcs, ho⟩ := object?_of_reads hmembers tail
      rw [hcs, ← ho]
      rfl

theorem written?_render {v : Json} (hv : v.all isExact = true) (hd : depth v ≤ maxDepth) :
    written? (render v) = some v := by
  have h := reads_render maxDepth hv hd [] stops_nil
  rw [List.append_nil] at h
  unfold written?
  rw [h]
  rfl

end TokenGate.Json
