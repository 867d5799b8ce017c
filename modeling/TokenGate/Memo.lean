import TokenGate.Event
import TokenGate.Outcome

/-!
# Remembered outcomes

Accepted outcomes are remembered by the exact text of their token, up to a number of entries; the
entry that was not touched for the longest time makes room for a new one.

* `Memo`             capacity, entries with the most recently touched one first, and counters;
                     with a capacity of zero nothing is remembered;
* `Memo.hasRoom`     whether room for a capacity can be set aside at all;
* `Memo.lookup`      the entry of a token, which counts as a touch. An entry is never handed out
                     past its end: it is dropped and reported as `stale`;
* `Memo.store`       remember an outcome. Nothing happens unless it is accepted and its end is
                     not over;
* `Memo.contains`    whether a token has an entry, without touching it;
* `Memo.clear`       forget all entries, keep the counters.
-/

namespace TokenGate

open Text

structure Entry where
  outcome : Outcome
  storedAt : Int
  /-- the last second at which the entry may be handed out -/
  validUntil : Int
  deriving DecidableEq

structure Tally where
  hits : Nat
  misses : Nat
  staleRemovals : Nat
  evictions : Nat
  deriving DecidableEq, Repr

structure Memo where
  capacity : Nat
  entries : List (String × Entry)
  tally : Tally
  deriving DecidableEq

/-- what a lookup finds -/
inductive Lookup where
  | hit (entry : Entry)
  | miss
  | stale (entry : Entry)
  | disabled
  deriving DecidableEq

/-- what comes of storing an outcome -/
inductive Placement where
  | refused
  | placed
  | displacing (token : String)
  deriving DecidableEq, Repr

def Placement.stored : Placement → Bool
  | .refused => false
  | _ => true

namespace Memo

def ofCapacity (capacity : Nat) : Memo := ⟨capacity, [], ⟨0, 0, 0, 0⟩⟩

/-- the most entries that room can be set aside for: the places are a power of two, an eighth of
them stays free, and at 17 bytes each they have to lie within 63 bits of addresses, so that there
are `1 <<< 58` of them at most -/
def maxCapacity : Nat := 7 <<< 55

/-- All the room is set aside when a memo is set up. Up to `maxCapacity` there is taken to be enough
of it: running out of memory below that, which depends on the machine, is not modelled. -/
def hasRoom (capacity : Nat) : Bool := decide (capacity ≤ maxCapacity)

def isEnabled (m : Memo) : Bool := m.capacity != 0

def size (m : Memo) : Nat := m.entries.length

/-- the tokens with an entry, the most recently touched one first -/
def tokens (m : Memo) : List String := m.entries.map Prod.fst

def find? (m : Memo) (token : String) : Option Entry := m.entries.lookup token

def contains (m : Memo) (token : String) : Bool := (m.find? token).isSome

/-- the entries of all other tokens -/
def others (m : Memo) (token : String) : List (String × Entry) :=
  m.entries.filter fun e => e.1 != token

/-! ## looking up -/

def lookup (m : Memo) (token : String) (now : Int) : Lookup × Memo :=
  if m.capacity = 0 then (.disabled, m)
  else
    match m.find? token with
    | none => (.miss, { m with tally.misses := m.tally.misses + 1 })
    | some e =>
      if now > e.validUntil then
        (.stale e, { m with
          entries := m.others token
          tally.staleRemovals := m.tally.staleRemovals + 1 })
      else
        (.hit e, { m with
          entries := (token, e) :: m.others token
          tally.hits := m.tally.hits + 1 })

/-! ## storing -/

/-- The entries with a new one in front, and what it takes the place of: the former entry of its
token, or else the last entry if there is no room. -/
def push (m : Memo) (token : String) (e : Entry) :
    Option (String × Entry) × List (String × Entry) :=
  match m.find? token with
  | some former => (some (token, former), (token, e) :: m.others token)
  | none =>
    if m.size < m.capacity then (none, (token, e) :: m.entries)
    else (m.entries.getLast?, (token, e) :: m.entries.dropLast)

/-- put an entry that is not over in front; only the entry of another token is counted as evicted -/
def place (m : Memo) (token : String) (e : Entry) : Placement × Memo :=
  let (displaced, entries) := m.push token e
  match displaced with
  | some (other, _) =>
    if other = token then (.placed, { m with entries })
    else (.displacing other, { m with entries, tally.evictions := m.tally.evictions + 1 })
  | none => (.placed, { m with entries })

def store (m : Memo) (token : String) (outcome : Outcome) (now validUntil : Int) :
    Placement × Memo :=
  if outcome.accepted = false ∨ validUntil < now ∨ m.capacity = 0 then (.refused, m)
  else m.place token ⟨outcome, now, validUntil⟩

def clear (m : Memo) : Memo := { m with entries := [] }

/-! ## diagnostics -/

def shown (m : Memo) : String :=
  let entries :=
    if m.isEnabled then
      some (Shown.openRecord "Mutex" [
        ("data", Shown.record "LruCache" [
          ("len", Shown.integer m.size), ("cap", Shown.integer m.capacity)]),
        ("poisoned", Shown.boolean false)])
    else none
  Shown.record "ValidationCache" [
    ("capacity", Shown.integer m.capacity),
    ("entries", Shown.optional entries),
    ("counters", Shown.record "Counters" [
      ("hits", Shown.integer m.tally.hits),
      ("misses", Shown.integer m.tally.misses),
      ("stale_evictions", Shown.integer m.tally.staleRemovals),
      ("capacity_evictions", Shown.integer m.tally.evictions)])]

end Memo

/-! ## reports -/

def Lookup.label : Lookup → String
  | .hit _ => "hit"
  | .miss => "miss"
  | .stale _ => "stale"
  | .disabled => "disabled"

def Lookup.events (l : Lookup) (now : Int) : List Event :=
  match l with
  | .stale e =>
    [⟨.debug, .cache, "Removed stale cache entry",
      [("expires_at", Shown.integer e.validUntil), ("now", Shown.integer now)], none⟩]
  | _ => []

def Placement.events (p : Placement) (capacity : Nat) : List Event :=
  match p with
  | .displacing _ =>
    [⟨.debug, .cache, "Evicted least recently used entry",
      [("capacity", Shown.integer capacity)], none⟩]
  | _ => []

end TokenGate
