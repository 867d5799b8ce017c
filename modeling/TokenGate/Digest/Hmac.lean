import TokenGate.Digest.Sha2

/-!
# Keyed hashing

* `Hash.mac h key m`   the HMAC of `m` (RFC 2104): the key, hashed if it is longer than a block
                       and filled up with zeros, is mixed into an inner and an outer hash.

A code has the length of a digest, whatever the key (`length_mac`).
-/

namespace TokenGate.Digest

/-- the key in exactly one block -/
def Hash.blockKey (h : Hash) (key : List UInt8) : List UInt8 :=
  let k := if key.length > h.blockSize then h.digest key else key
  k ++ List.replicate (h.blockSize - k.length) 0

def Hash.mac (h : Hash) (key message : List UInt8) : List UInt8 :=
  let k := h.blockKey key
  let inner := h.digest (k.map (· ^^^ 0x36) ++ message)
  h.digest (k.map (· ^^^ 0x5c) ++ inner)

theorem length_mac (h : Hash) (key message : List UInt8) :
    (h.mac key message).length = h.size :=
  length_digest h _

end TokenGate.Digest
