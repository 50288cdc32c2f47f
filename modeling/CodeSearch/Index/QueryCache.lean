import CodeSearch.OrderedMap
import CodeSearch.Sorting

/-! # Cache of answers

Answers are kept for a time and up to a number. The one that was stored first is dropped first. The
cache does not look inside the answers, and every call is told the time.
-/

namespace CodeSearch

/-- An answer and the time at which it was stored. -/
structure CacheEntry (τ ρ : Type) where
  answer : ρ
  createdAt : τ

/-- Answers by their keys, in the order in which they were last stored. -/
structure QueryCache (τ ρ : Type) where
  lifetime : τ
  maxEntries : Int
  entries : OrderedMap String (CacheEntry τ ρ) := ∅

namespace QueryCache

variable {τ ρ : Type} [LT τ] [DecidableLT τ] [LE τ] [DecidableLE τ]

def size (cache : QueryCache τ ρ) : Nat := cache.entries.size

def contains (cache : QueryCache τ ρ) (key : String) : Bool := cache.entries.contains key

def keys (cache : QueryCache τ ρ) : List String := cache.entries.keys

def clear (cache : QueryCache τ ρ) : QueryCache τ ρ := { cache with entries := ∅ }

/-- The answer stored under a key, if its time has not run out; one whose time has is dropped. -/
def get [Sub τ] (cache : QueryCache τ ρ) (now : τ) (key : String) :
    Option ρ × QueryCache τ ρ :=
  match cache.entries.get? key with
  | none => (none, cache)
  | some entry =>
    if cache.lifetime ≤ now - entry.createdAt then
      (none, { cache with entries := cache.entries.erase key })
    else (some entry.answer, cache)

/-- The keys from the oldest entry on; entries of one time are in the order of the map. -/
def keysByAge (entries : OrderedMap String (CacheEntry τ ρ)) : List String :=
  (byRising (fun entry => entry.2.createdAt) entries.entries).map Prod.fst

/-- Drops the oldest entries beyond the number that is kept. -/
def trim (maxEntries : Int) (entries : OrderedMap String (CacheEntry τ ρ)) :
    OrderedMap String (CacheEntry τ ρ) :=
  let surplus := ((entries.size : Int) - maxEntries).toNat
  let dropped := (keysByAge entries).take surplus
  entries.filter fun key _ => !dropped.contains key

/-- Stores an answer as the latest one. -/
def put (cache : QueryCache τ ρ) (now : τ) (key : String) (answer : ρ) :
    QueryCache τ ρ :=
  let stored := (cache.entries.erase key).insert key ⟨answer, now⟩
  { cache with entries := trim cache.maxEntries stored }

end QueryCache

end CodeSearch
