/-!
# White space and cutting a text at it

A text is cut as a list of its characters.

* `isBlank`      the characters with the Unicode property White_Space;
* `trimStart`, `trimEnd`, `trim`   a text without its blanks at the start, the end, both;
* `trimmed`      `trim` on a `String`;
* `pieces p`     the (possibly empty) stretches between the characters that satisfy `p`: always
                 one more than there are such characters;
* `beforeLast c` the part before the last `c`.

The small lemmas say what `pieces` does at each character.
-/

namespace TokenGate.Text

/-! ## blanks -/

/-- Unicode White_Space; not the separators U+001C to U+001F, and no zero-width character -/
def isBlank (c : Char) : Bool :=
  let n := c.toNat
  (0x9 ≤ n && n ≤ 0xD) || n == 0x20 || n == 0x85 || n == 0xA0 || n == 0x1680
    || (0x2000 ≤ n && n ≤ 0x200A) || n == 0x2028 || n == 0x2029 || n == 0x202F
    || n == 0x205F || n == 0x3000

/-- the text without the blanks it starts with -/
def trimStart (cs : List Char) : List Char := cs.dropWhile isBlank

/-- the text without the blanks it ends with -/
def trimEnd (cs : List Char) : List Char := (cs.reverse.dropWhile isBlank).reverse

/-- the text without the blanks around it -/
def trim (cs : List Char) : List Char := trimEnd (trimStart cs)

/-- `trim`, on strings -/
def trimmed (s : String) : String := String.ofList (trim s.toList)

theorem trimStart_cons_blank {c : Char} (h : isBlank c = true) (cs : List Char) :
    trimStart (c :: cs) = trimStart cs := by
  simp [trimStart, h]

theorem trimStart_cons_solid {c : Char} (h : isBlank c = false) (cs : List Char) :
    trimStart (c :: cs) = c :: cs := by
  simp [trimStart, h]

/-! ## pieces -/

/-- put a character in front of the first piece -/
def intoFirst (c : Char) : List (List Char) → List (List Char)
  | [] => [[c]]
  | w :: ws => (c :: w) :: ws

/-- the stretches between the separators, empty ones included -/
def pieces (p : Char → Bool) : List Char → List (List Char)
  | [] => [[]]
  | c :: cs => if p c then [] :: pieces p cs else intoFirst c (pieces p cs)

theorem pieces_nil (p : Char → Bool) : pieces p [] = [[]] := rfl

theorem pieces_cons_sep {p : Char → Bool} {c : Char} (h : p c = true) (cs : List Char) :
    pieces p (c :: cs) = [] :: pieces p cs := by
  simp [pieces, h]

theorem pieces_cons_inner {p : Char → Bool} {c : Char} (h : p c = false) (cs : List Char) :
    pieces p (c :: cs) = intoFirst c (pieces p cs) := by
  simp [pieces, h]

theorem pieces_ne_nil (p : Char → Bool) (cs : List Char) : pieces p cs ≠ [] := by
  cases cs with
  | nil => simp [pieces]
  | cons c cs =>
    by_cases h : p c = true
    · simp [pieces, h]
    · cases hw : pieces p cs <;> simp [pieces, h, hw, intoFirst]

/-- the part before the last occurrence of `c`; the empty text if there is none -/
def beforeLast (c : Char) (cs : List Char) : List Char :=
  ((cs.reverse.dropWhile fun d => d != c).drop 1).reverse

end TokenGate.Text
