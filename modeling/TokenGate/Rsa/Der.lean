import TokenGate.BigEndian

/-!
# DER elements

The part of X.690 that RSA keys are written in: an element is a tag, the length of its content in
the fewest bytes, and the content.

* `lengthBytes n`, `length?`     the length, written and read;
* `element tag c`, `element? tag`   an element, written and read off the front of a byte string;
* `natural n`, `natural?`        a number that is not negative, in the fewest bytes;
* `sequence parts`, `sequence?`  elements one after the other; reading gives their bytes.

Reading accepts only what writing produces, so every value has one byte string.
-/

namespace TokenGate.Rsa.Der

def sequenceTag : UInt8 := 0x30
def integerTag : UInt8 := 0x02
def bitStringTag : UInt8 := 0x03
def octetStringTag : UInt8 := 0x04
def nullTag : UInt8 := 0x05
def objectIdTag : UInt8 := 0x06

/-! ## elements -/

/-- one byte below 128; else the number of length bytes, and these -/
def lengthBytes (n : Nat) : List UInt8 :=
  if n < 128 then [UInt8.ofNat n]
  else UInt8.ofNat (128 + (BigEndian.minimal n).length) :: BigEndian.minimal n

def length? : List UInt8 → Option (Nat × List UInt8)
  | [] => none
  | b :: bs =>
    if b.toNat < 128 then some (b.toNat, bs)
    else
      let ds := bs.take (b.toNat - 128)
      if ds.length = b.toNat - 128 ∧ ds.head? ≠ some 0 ∧ 128 ≤ BigEndian.toNat ds then
        some (BigEndian.toNat ds, bs.drop (b.toNat - 128))
      else none

def element (tag : UInt8) (content : List UInt8) : List UInt8 :=
  tag :: lengthBytes content.length ++ content

/-- the content of the element with this tag at the front, and the rest -/
def element? (tag : UInt8) : List UInt8 → Option (List UInt8 × List UInt8)
  | [] => none
  | t :: bs =>
    if t = tag then do
      let (n, bs) ← length? bs
      if n ≤ bs.length then some (bs.take n, bs.drop n) else none
    else none

/-- the content of an element that is the whole byte string -/
def whole? (tag : UInt8) (bs : List UInt8) : Option (List UInt8) :=
  match element? tag bs with
  | some (content, []) => some content
  | _ => none

/-! ## numbers -/

/-- a zero in front keeps a number from looking negative -/
def naturalContent (n : Nat) : List UInt8 :=
  match BigEndian.minimal n with
  | [] => [0]
  | b :: bs => if b.toNat < 128 then b :: bs else 0 :: b :: bs

def naturalContent? : List UInt8 → Option Nat
  | [] => none
  | [b] => if b.toNat < 128 then some b.toNat else none
  | b :: c :: bs =>
    if b.toNat ≥ 128 ∨ (b = 0 ∧ c.toNat < 128) then none else some (BigEndian.toNat (b :: c :: bs))

def natural (n : Nat) : List UInt8 := element integerTag (naturalContent n)

/-- the number at the front, and the rest -/
def natural? (bs : List UInt8) : Option (Nat × List UInt8) := do
  let (content, rest) ← element? integerTag bs
  let n ← naturalContent? content
  return (n, rest)

/-! ## sequences -/

def sequence (parts : List (List UInt8)) : List UInt8 := element sequenceTag parts.flatten

def sequence? (bs : List UInt8) : Option (List UInt8) := whole? sequenceTag bs

end TokenGate.Rsa.Der
