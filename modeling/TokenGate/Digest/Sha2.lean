import TokenGate.BigEndian

/-!
# SHA-256, SHA-384 and SHA-512

FIPS 180-4 on byte strings. The three functions are one construction over words of 32 or 64 bits.

* `Word`              what the construction asks of a word;
* `Lanes`             the eight words of the chaining value;
* `Family`            word size, rotations, round constants;
* `padded`            the message with its closing bit, zeros and length: whole blocks;
* `Family.schedule`   one word per round;
* `Family.compress`   the chaining value after one block;
* `Hash`              the three functions; `Hash.digest h m` is the digest of `m`.

The digest is a leading part of the last chaining value's bytes, so that its length does not
depend on the message (`length_digest`).
-/

namespace TokenGate.Digest

/-! ## words -/

class Word (α : Type) extends Add α, XorOp α, AndOp α, Complement α where
  /-- bytes in a word -/
  size : Nat
  rotateRight : α → Nat → α
  shiftRight : α → Nat → α
  ofNat : Nat → α
  toNat : α → Nat

instance : Word UInt32 where
  size := 4
  rotateRight x n := (x >>> UInt32.ofNat n) ||| (x <<< UInt32.ofNat (32 - n))
  shiftRight x n := x >>> UInt32.ofNat n
  ofNat := UInt32.ofNat
  toNat := UInt32.toNat

instance : Word UInt64 where
  size := 8
  rotateRight x n := (x >>> UInt64.ofNat n) ||| (x <<< UInt64.ofNat (64 - n))
  shiftRight x n := x >>> UInt64.ofNat n
  ofNat := UInt64.ofNat
  toNat := UInt64.toNat

/-! ## the construction -/

/-- the eight words of a chaining value -/
structure Lanes (α : Type) where
  a : α
  b : α
  c : α
  d : α
  e : α
  f : α
  g : α
  h : α

/-- three amounts by which a word is rotated, or rotated twice and shifted once -/
structure Turns where
  first : Nat
  second : Nat
  third : Nat

structure Family (α : Type) where
  /-- the round functions of the lanes `a` and `e` -/
  big₀ : Turns
  big₁ : Turns
  /-- the schedule functions; their third amount is a shift -/
  small₀ : Turns
  small₁ : Turns
  constants : List α

variable {α : Type} [Word α]

def Turns.rotated (t : Turns) (x : α) : α :=
  Word.rotateRight x t.first ^^^ Word.rotateRight x t.second ^^^ Word.rotateRight x t.third

def Turns.shifted (t : Turns) (x : α) : α :=
  Word.rotateRight x t.first ^^^ Word.rotateRight x t.second ^^^ Word.shiftRight x t.third

/-- bytes in a block -/
def blockSize (α : Type) [Word α] : Nat := 16 * Word.size α

/-- how many zero bytes stand between the closing bit and the length -/
def zeros (α : Type) [Word α] (length : Nat) : Nat :=
  blockSize α - 1 - (length + 2 * Word.size α) % blockSize α

/-- the message, a single set bit, zeros, and the number of the message's bits in two words -/
def padded (α : Type) [Word α] (message : List UInt8) : List UInt8 :=
  message ++ 0x80 :: List.replicate (zeros α message.length) 0
    ++ BigEndian.ofNat (8 * message.length) (2 * Word.size α)

/-- cut into parts of `size` elements, at most `count` of them -/
def parts {β : Type} (size : Nat) : Nat → List β → List (List β)
  | 0, _ => []
  | count + 1, xs => xs.take size :: parts size count (xs.drop size)

def words (α : Type) [Word α] (block : List UInt8) : List α :=
  (parts (Word.size α) 16 block).map fun bs => Word.ofNat (BigEndian.toNat bs)

/-- the last sixteen words of the schedule, the latest one first -/
def Family.next (p : Family α) (zero : α) (latest : List α) : α :=
  p.small₁.shifted (latest.getD 1 zero) + latest.getD 6 zero
    + p.small₀.shifted (latest.getD 14 zero) + latest.getD 15 zero

/-- the words of the rounds after the sixteenth -/
def Family.extend (p : Family α) : Nat → List α → List α
  | 0, _ => []
  | n + 1, latest =>
    let w := p.next (Word.ofNat 0) latest
    w :: p.extend n (w :: latest.take 15)

/-- one word for each round -/
def Family.schedule (p : Family α) (block : List UInt8) : List α :=
  let ws := words α block
  ws ++ p.extend (p.constants.length - 16) ws.reverse

/-- one round with its constant and its word -/
def Family.round (p : Family α) (s : Lanes α) (k w : α) : Lanes α :=
  let choice := (s.e &&& s.f) ^^^ (~~~s.e &&& s.g)
  let majority := (s.a &&& s.b) ^^^ (s.a &&& s.c) ^^^ (s.b &&& s.c)
  let t₁ := s.h + p.big₁.rotated s.e + choice + k + w
  let t₂ := p.big₀.rotated s.a + majority
  ⟨t₁ + t₂, s.a, s.b, s.c, s.d + t₁, s.e, s.f, s.g⟩

def Lanes.add (s t : Lanes α) : Lanes α :=
  ⟨s.a + t.a, s.b + t.b, s.c + t.c, s.d + t.d, s.e + t.e, s.f + t.f, s.g + t.g, s.h + t.h⟩

def Lanes.words (s : Lanes α) : List α := [s.a, s.b, s.c, s.d, s.e, s.f, s.g, s.h]

/-- all words, each in its bytes -/
def Lanes.bytes (s : Lanes α) : List UInt8 :=
  s.words.flatMap fun w => BigEndian.ofNat (Word.toNat w) (Word.size α)

/-- the chaining value after one block -/
def Family.compress (p : Family α) (s : Lanes α) (block : List UInt8) : Lanes α :=
  s.add ((p.constants.zip (p.schedule block)).foldl (fun t (k, w) => p.round t k w) s)

/-- the chaining value after the whole message -/
def Family.chain (p : Family α) (start : Lanes α) (message : List UInt8) : Lanes α :=
  let bs := padded α message
  (parts (blockSize α) (bs.length / blockSize α) bs).foldl p.compress start

theorem length_bytes (s : Lanes α) : s.bytes.length = 8 * Word.size α := by
  simp [Lanes.bytes, Lanes.words, BigEndian.length_ofNat]
  omega

/-! ## constants -/

def constants32 : List UInt32 := [
  0x428a2f98, 0x71374491, 0xb5c0fbcf, 0xe9b5dba5, 0x3956c25b, 0x59f111f1, 0x923f82a4, 0xab1c5ed5,
  0xd807aa98, 0x12835b01, 0x243185be, 0x550c7dc3, 0x72be5d74, 0x80deb1fe, 0x9bdc06a7, 0xc19bf174,
  0xe49b69c1, 0xefbe4786, 0x0fc19dc6, 0x240ca1cc, 0x2de92c6f, 0x4a7484aa, 0x5cb0a9dc, 0x76f988da,
  0x983e5152, 0xa831c66d, 0xb00327c8, 0xbf597fc7, 0xc6e00bf3, 0xd5a79147, 0x06ca6351, 0x14292967,
  0x27b70a85, 0x2e1b2138, 0x4d2c6dfc, 0x53380d13, 0x650a7354, 0x766a0abb, 0x81c2c92e, 0x92722c85,
  0xa2bfe8a1, 0xa81a664b, 0xc24b8b70, 0xc76c51a3, 0xd192e819, 0xd6990624, 0xf40e3585, 0x106aa070,
  0x19a4c116, 0x1e376c08, 0x2748774c, 0x34b0bcb5, 0x391c0cb3, 0x4ed8aa4a, 0x5b9cca4f, 0x682e6ff3,
  0x748f82ee, 0x78a5636f, 0x84c87814, 0x8cc70208, 0x90befffa, 0xa4506ceb, 0xbef9a3f7, 0xc67178f2]

def constants64 : List UInt64 := [
  0x428a2f98d728ae22, 0x7137449123ef65cd, 0xb5c0fbcfec4d3b2f, 0xe9b5dba58189dbbc,
  0x3956c25bf348b538, 0x59f111f1b605d019, 0x923f82a4af194f9b, 0xab1c5ed5da6d8118,
  0xd807aa98a3030242, 0x12835b0145706fbe, 0x243185be4ee4b28c, 0x550c7dc3d5ffb4e2,
  0x72be5d74f27b896f, 0x80deb1fe3b1696b1, 0x9bdc06a725c71235, 0xc19bf174cf692694,
  0xe49b69c19ef14ad2, 0xefbe4786384f25e3, 0x0fc19dc68b8cd5b5, 0x240ca1cc77ac9c65,
  0x2de92c6f592b0275, 0x4a7484aa6ea6e483, 0x5cb0a9dcbd41fbd4, 0x76f988da831153b5,
  0x983e5152ee66dfab, 0xa831c66d2db43210, 0xb00327c898fb213f, 0xbf597fc7beef0ee4,
  0xc6e00bf33da88fc2, 0xd5a79147930aa725, 0x06ca6351e003826f, 0x142929670a0e6e70,
  0x27b70a8546d22ffc, 0x2e1b21385c26c926, 0x4d2c6dfc5ac42aed, 0x53380d139d95b3df,
  0x650a73548baf63de, 0x766a0abb3c77b2a8, 0x81c2c92e47edaee6, 0x92722c851482353b,
  0xa2bfe8a14cf10364, 0xa81a664bbc423001, 0xc24b8b70d0f89791, 0xc76c51a30654be30,
  0xd192e819d6ef5218, 0xd69906245565a910, 0xf40e35855771202a, 0x106aa07032bbd1b8,
  0x19a4c116b8d2d0c8, 0x1e376c085141ab53, 0x2748774cdf8eeb99, 0x34b0bcb5e19b48a8,
  0x391c0cb3c5c95a63, 0x4ed8aa4ae3418acb, 0x5b9cca4f7763e373, 0x682e6ff3d6b2b8a3,
  0x748f82ee5defb2fc, 0x78a5636f43172f60, 0x84c87814a1f0ab72, 0x8cc702081a6439ec,
  0x90befffa23631e28, 0xa4506cebde82bde9, 0xbef9a3f7b2c67915, 0xc67178f2e372532b,
  0xca273eceea26619c, 0xd186b8c721c0c207, 0xeada7dd6cde0eb1e, 0xf57d4f7fee6ed178,
  0x06f067aa72176fba, 0x0a637dc5a2c898a6, 0x113f9804bef90dae, 0x1b710b35131c471b,
  0x28db77f523047d84, 0x32caab7b40c72493, 0x3c9ebe0a15c9bebc, 0x431d67c49c100d4c,
  0x4cc5d4becb3e42b6, 0x597f299cfc657e2a, 0x5fcb6fab3ad6faec, 0x6c44198c4a475817]

def family32 : Family UInt32 :=
  ⟨⟨2, 13, 22⟩, ⟨6, 11, 25⟩, ⟨7, 18, 3⟩, ⟨17, 19, 10⟩, constants32⟩

def family64 : Family UInt64 :=
  ⟨⟨28, 34, 39⟩, ⟨14, 18, 41⟩, ⟨1, 8, 7⟩, ⟨19, 61, 6⟩, constants64⟩

def start256 : Lanes UInt32 :=
  ⟨0x6a09e667, 0xbb67ae85, 0x3c6ef372, 0xa54ff53a, 0x510e527f, 0x9b05688c, 0x1f83d9ab, 0x5be0cd19⟩

def start384 : Lanes UInt64 :=
  ⟨0xcbbb9d5dc1059ed8, 0x629a292a367cd507, 0x9159015a3070dd17, 0x152fecd8f70e5939,
  0x67332667ffc00b31, 0x8eb44a8768581511, 0xdb0c2e0d64f98fa7, 0x47b5481dbefa4fa4⟩

def start512 : Lanes UInt64 :=
  ⟨0x6a09e667f3bcc908, 0xbb67ae8584caa73b, 0x3c6ef372fe94f82b, 0xa54ff53a5f1d36f1,
  0x510e527fade682d1, 0x9b05688c2b3e6c1f, 0x1f83d9abfb41bd6b, 0x5be0cd19137e2179⟩

/-! ## the three functions -/

inductive Hash where
  | sha256
  | sha384
  | sha512
  deriving DecidableEq, Repr

/-- bytes in a digest -/
def Hash.size : Hash → Nat
  | .sha256 => 32
  | .sha384 => 48
  | .sha512 => 64

/-- bytes in a block -/
def Hash.blockSize : Hash → Nat
  | .sha256 => 64
  | .sha384 => 128
  | .sha512 => 128

def Hash.digest : Hash → List UInt8 → List UInt8
  | .sha256, m => (family32.chain start256 m).bytes
  | .sha384, m => (family64.chain start384 m).bytes.take 48
  | .sha512, m => (family64.chain start512 m).bytes

theorem length_digest (h : Hash) (m : List UInt8) : (h.digest m).length = h.size := by
  cases h <;> simp [Hash.digest, length_bytes, Hash.size, Word.size]

end TokenGate.Digest
