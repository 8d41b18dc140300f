import DidMethods.Action
import DidMethods.Resolution.Result
import DidMethods.Time.Duration

/-!
# Caches of results

A cache keeps results of resolution by the text that was resolved. `ResultCache` is what is
asked of a cache, as actions on its state; any of them can fail. `NoCache` keeps nothing.
`MemoryCache` keeps everything, or everything for some time: an entry that is as old as the cache
allows counts as absent, and is dropped when it is asked for.
-/

namespace DidMethods

/-- What a cache with states `κ` can do. -/
class ResultCache (κ : Type) where
  /-- The result that is kept under a key. -/
  get : String → Action κ (Option Resolution)
  /-- Keep a result under a key, in place of the one that is there. -/
  set : String → Resolution → Action κ Unit
  /-- Keep nothing under a key. -/
  delete : String → Action κ Unit
  /-- Keep nothing at all. -/
  clear : Action κ Unit
  /-- Let go of everything. -/
  close : Action κ Unit

/-- The cache that keeps nothing. -/
structure NoCache where
deriving DecidableEq, Repr

instance : ResultCache NoCache where
  get _ := pure none
  set _ _ := pure ()
  delete _ := pure ()
  clear := pure ()
  close := pure ()

/-- A result in memory. -/
structure CacheEntry where
  /-- The result. -/
  result : Resolution
  /-- When it was stored. -/
  stored : Duration
deriving DecidableEq, Repr

/-- A cache in memory. -/
structure MemoryCache where
  /-- How long an entry is kept; without a limit it is kept for good. -/
  lifetime : Option Duration := none
  /-- The entries by their keys, one for each. -/
  entries : List (String × CacheEntry) := []
  /-- The time on the clock of the cache. -/
  now : Duration := .zero
deriving DecidableEq, Repr

namespace MemoryCache

/-- The cache with an entry less. -/
def erase (c : MemoryCache) (key : String) : MemoryCache :=
  { c with entries := c.entries.filter fun e => e.1 ≠ key }

/-- The cache with a result under a key. -/
def insert (c : MemoryCache) (key : String) (r : Resolution) : MemoryCache :=
  { c with entries := (key, ⟨r, c.now⟩) :: (c.erase key).entries }

/-- The cache without entries. -/
def empty (c : MemoryCache) : MemoryCache :=
  { c with entries := [] }

/-- The cache when some time has passed. -/
def wait (c : MemoryCache) (d : Duration) : MemoryCache :=
  { c with now := c.now + d }

/-- An entry is as old as the cache allows. -/
def isExpired (c : MemoryCache) (e : CacheEntry) : Bool :=
  match c.lifetime with
  | some lifetime => lifetime ≤ c.now - e.stored
  | none => false

/-- The result under a key, and the cache after it was asked for. -/
def find (c : MemoryCache) (key : String) : Option Resolution × MemoryCache :=
  match c.entries.lookup key with
  | none => (none, c)
  | some e => if c.isExpired e then (none, c.erase key) else (some e.result, c)

/-- The number of entries, expired ones that nobody has asked for included. -/
def size (c : MemoryCache) : Nat :=
  c.entries.length

/-- There are no entries. -/
def isEmpty (c : MemoryCache) : Bool :=
  c.entries.isEmpty

instance : ResultCache MemoryCache where
  get key := fun c => let (r, c) := c.find key; (.ok r, c)
  set key r := modify fun c => c.insert key r
  delete key := modify fun c => c.erase key
  clear := modify empty
  close := modify empty

end MemoryCache

end DidMethods
