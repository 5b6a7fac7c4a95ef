import DesignComponents.Number.Basic
import DesignComponents.OrderedMap

/-! A store of values under keys. Values expire, and when the store would grow beyond its size the
oldest of them go. -/

set_option autoImplicit false

namespace DesignComponents

structure StoreLimits where
  /-- In bytes. -/
  maxSize : Number := 52428800
  ttlSeconds : Number := 600
  /-- The share of the entries that goes when the store is full. -/
  evictFraction : Number := .real (.ofDecimal false 25 (-2))
  deriving DecidableEq, Repr, Inhabited

structure StoreEntry (α : Type) where
  value : α
  storedAt : Number
  size : Nat

structure Store (α : Type) where
  limits : StoreLimits := {}
  entries : OrderedMap (StoreEntry α) := .empty
  size : Int := 0

namespace Store

variable {α : Type}

def count (c : Store α) : Nat := c.entries.size

def remove (c : Store α) (key : String) : Store α :=
  match c.entries.get? key with
  | some e => { c with entries := c.entries.erase key, size := c.size - e.size }
  | none => c

/-- The least whole number not below the number. -/
def ceiling : Number → Except Fault Int
  | .int n => .ok n
  | .real x => Number.wholeBy Binary64.ceil? x

/-- How many of `count` entries go when the store is full. A negative number leaves that many. -/
def evicted (s : StoreLimits) (count : Nat) : Except Fault Nat := do
  let n ← ceiling (← (Number.int count).mul s.evictFraction)
  return if 0 ≤ n then n.toNat else (count + n).toNat

/-- The keys from the oldest entry to the newest. -/
def byAge (c : Store α) : List String :=
  (c.entries.entries.mergeSort fun a b => !b.2.storedAt.lt a.2.storedAt).map Prod.fst

def evict (c : Store α) : Except Fault (Store α) :=
  return (c.byAge.take (← evicted c.limits c.count)).foldl remove c

/-- The store with room for a value of a size, if there can be any. -/
def makeRoom (c : Store α) (size : Nat) : Except Fault (Store α) :=
  if c.limits.maxSize.lt (.int (c.size + size)) then c.evict else .ok c

def enter (c : Store α) (now : Number) (key : String) (value : α) (size : Nat) : Store α :=
  { c with entries := c.entries.insert key ⟨value, now, size⟩, size := c.size + size }

/-- Makes room for a value and enters it. The value that was under the key goes first, and is gone
also where no room can be made. -/
def set (c : Store α) (now : Number) (key : String) (value : α) (size : Nat) :
    Except Fault Unit × Store α :=
  let c := c.remove key
  match c.makeRoom size with
  | .ok c => (.ok (), c.enter now key value size)
  | .error f => (.error f, c)

def isExpired (c : Store α) (now : Number) (e : StoreEntry α) : Bool :=
  c.limits.ttlSeconds.lt (now.gap e.storedAt)

/-- The value under a key. One that has expired is removed. -/
def get (c : Store α) (now : Number) (key : String) : Option α × Store α :=
  match c.entries.get? key with
  | none => (none, c)
  | some e => if c.isExpired now e then (none, c.remove key) else (some e.value, c)

def clear (c : Store α) : Store α := { limits := c.limits }

end Store

end DesignComponents
