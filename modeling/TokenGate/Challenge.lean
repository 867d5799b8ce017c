import TokenGate.Failure

/-!
# Challenges

The `WWW-Authenticate` value of a rejected request (RFC 6750, section 3).

* `Challenge.quote t`          a text as a quoted-string: a backslash before each quote and each
                               backslash;
* `Challenge.value realm r`    the challenge of a rejection: the realm alone where no credential
                               was presented, else also an error and its description;
* `Challenge.read? v`          the scheme and the parameters in such a value.
-/

namespace TokenGate.Challenge

/-! ## writing -/

def quoteChars : List Char → List Char
  | [] => []
  | c :: cs =>
    if c = '"' ∨ c = '\\' then '\\' :: c :: quoteChars cs else c :: quoteChars cs

def quote (text : String) : List Char := '"' :: quoteChars text.toList ++ ['"']

theorem quoteChars_nil : quoteChars [] = [] := rfl

/-- the error of every presented token -/
def invalidToken : String := "invalid_token"

def value (realm : String) (r : Rejection) : String :=
  String.ofList <|
    "Bearer realm=".toList ++ quote realm ++
      if r.kind = .missingCredentials then []
      else ", error=".toList ++ quote invalidToken
        ++ ", error_description=".toList ++ quote r.description

/-! ## reading -/

/-- a quoted-string whose opening quote is already read: its text, and the rest -/
def unquote? : List Char → Option (List Char × List Char)
  | [] => none
  | '"' :: cs => some ([], cs)
  | '\\' :: c :: cs => (unquote? cs).map fun (t, rest) => (c :: t, rest)
  | ['\\'] => none
  | c :: cs => (unquote? cs).map fun (t, rest) => (c :: t, rest)

/-- the punctuation that may stand in a name, by code point -/
def namePunctuation : List Nat :=
  [0x21, 0x23, 0x24, 0x25, 0x26, 0x27, 0x2a, 0x2b, 0x2d, 0x2e, 0x5e, 0x5f, 0x60, 0x7c, 0x7e]

/-- the characters of a name: the token characters of RFC 7230 -/
def isNameChar (c : Char) : Bool := c.isAlphanum || namePunctuation.contains c.toNat

/-- optional space between parameters -/
def skip (cs : List Char) : List Char := cs.dropWhile fun c => c == ' ' || c == '\t'

/-- one parameter: its name, its value, and the rest -/
def parameter? (cs : List Char) : Option ((String × String) × List Char) :=
  match cs.takeWhile isNameChar, cs.dropWhile isNameChar with
  | c :: name, '=' :: '"' :: rest =>
    (unquote? rest).map fun (t, rest) =>
      ((String.ofList (c :: name), String.ofList t), rest)
  | _, _ => none

/-- parameters with commas between them, at most `fuel` of them -/
def parameters? : Nat → List Char → Option (List (String × String))
  | 0, _ => none
  | fuel + 1, cs =>
    match parameter? cs with
    | none => none
    | some (p, []) => some [p]
    | some (p, ',' :: rest) => (parameters? fuel (skip rest)).map (p :: ·)
    | some _ => none

/-- the scheme and the parameters -/
def read? (text : String) : Option (String × List (String × String)) :=
  let cs := text.toList
  match cs.takeWhile isNameChar, cs.dropWhile isNameChar with
  | c :: scheme, ' ' :: rest =>
    (parameters? rest.length (skip rest)).map fun ps =>
      (String.ofList (c :: scheme), ps)
  | _, _ => none

end TokenGate.Challenge
