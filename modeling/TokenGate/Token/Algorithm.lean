import TokenGate.Digest.Sha2

/-!
# Signing algorithms

* `Algorithm`          the six algorithms of RFC 7518 that are supported;
* `Algorithm.name`, `ofName?`   the exact name in a token's header;
* `Family`             keyed hashing or RSA, each with its hash function;
* `Algorithm.family`   the family of an algorithm.
-/

namespace TokenGate

open Digest (Hash)

inductive Algorithm where
  | hs256
  | hs384
  | hs512
  | rs256
  | rs384
  | rs512
  deriving DecidableEq, Repr

namespace Algorithm

def all : List Algorithm := [.hs256, .hs384, .hs512, .rs256, .rs384, .rs512]

def name : Algorithm → String
  | .hs256 => "HS256"
  | .hs384 => "HS384"
  | .hs512 => "HS512"
  | .rs256 => "RS256"
  | .rs384 => "RS384"
  | .rs512 => "RS512"

def ofName? (name : String) : Option Algorithm := all.find? fun a => a.name = name

theorem ofName?_name (a : Algorithm) : ofName? a.name = some a := by cases a <;> decide

theorem ofName?_eq_some_iff {n : String} {a : Algorithm} : ofName? n = some a ↔ n = a.name := by
  constructor
  · intro h
    have hn : a.name = n := by simpa using List.find?_some h
    exact hn.symm
  · rintro rfl
    exact ofName?_name a

end Algorithm

inductive Family where
  | hmac (hash : Hash)
  | rsa (hash : Hash)
  deriving DecidableEq, Repr

def Algorithm.family : Algorithm → Family
  | .hs256 => .hmac .sha256
  | .hs384 => .hmac .sha384
  | .hs512 => .hmac .sha512
  | .rs256 => .rsa .sha256
  | .rs384 => .rsa .sha384
  | .rs512 => .rsa .sha512

end TokenGate
