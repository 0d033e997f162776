import ServingPlatform.Library.PrefixTree
import ServingPlatform.TokenTypes

namespace ServingPlatform

variable {S : Type}

/-- A cached prefix. Two entries with one `identity` are one object:
it is the number of insertions made before the entry. -/
structure PrefixCacheEntry (S : Type) where
  identity : Nat
  tokenIds : List TokenId
  backendState : S

def PrefixCacheEntry.tokenCount (entry : PrefixCacheEntry S) : Nat := entry.tokenIds.length

structure PrefixMatch (S : Type) where
  tokenIds : List TokenId
  backendState : S
  exact : Bool

def PrefixMatch.matchedTokens (found : PrefixMatch S) : Nat := found.tokenIds.length

structure PrefixCache (S : Type) where
  maxEntries : Nat
  maxTokens : Nat
  limits : maxEntries = 0 ↔ maxTokens = 0
  entries : Dict (List TokenId) (PrefixCacheEntry S)
  root : PrefixTree TokenId (PrefixCacheEntry S)
  cachedTokens : Int
  hits : Nat
  misses : Nat
  insertions : Nat
  evictions : Nat
  bypasses : Nat
  exactHits : Nat
  partialHits : Nat
  matchedTokens : Nat

namespace PrefixCache

def ofLimits (maxEntries maxTokens : Nat) (limits : maxEntries = 0 ↔ maxTokens = 0) : PrefixCache S where
  maxEntries := maxEntries
  maxTokens := maxTokens
  limits := limits
  entries := .empty
  root := .empty
  cachedTokens := 0
  hits := 0
  misses := 0
  insertions := 0
  evictions := 0
  bypasses := 0
  exactHits := 0
  partialHits := 0
  matchedTokens := 0

def init (maxEntries maxTokens : Int) : Except Raised (PrefixCache S) :=
  if maxEntries < 0 ∨ maxTokens < 0 then
    .error (valueError "prefix cache limits must be non-negative")
  else if limits : maxEntries.toNat = 0 ↔ maxTokens.toNat = 0 then
    .ok (ofLimits maxEntries.toNat maxTokens.toNat limits)
  else .error (valueError "prefix cache entry and token limits must both be zero or positive")

def enabled (c : PrefixCache S) : Bool := 0 < c.maxEntries

/-- The matching entry becomes the most recently used one. -/
def recordHit (c : PrefixCache S) (entry : PrefixCacheEntry S) (held : PrefixCacheEntry S) (exact : Bool) :
    PrefixCache S :=
  { c with
    entries := c.entries.moveToEnd entry.tokenIds held
    hits := c.hits + 1
    exactHits := c.exactHits + exact.toNat
    partialHits := c.partialHits + (!exact).toNat
    matchedTokens := c.matchedTokens + entry.tokenCount }

def longestPrefix (c : PrefixCache S) (tokenIds : List TokenId) (exactOnly : Bool) :
    Except Raised (Option (PrefixMatch S)) × PrefixCache S :=
  if !c.enabled then (.ok none, { c with bypasses := c.bypasses + 1 })
  else
    let walked := c.root.deepest tokenIds none
    let entry := if exactOnly then walked.filter (fun entry => entry.tokenIds = tokenIds) else walked
    match entry with
    | none => (.ok none, { c with misses := c.misses + 1 })
    | some entry =>
      match c.entries.get? entry.tokenIds with
      | none => (.error (keyError s!"{entry.tokenIds}"), c)
      | some held =>
        let exact : Bool := entry.tokenIds = tokenIds
        (.ok (some ⟨entry.tokenIds, entry.backendState, exact⟩), c.recordHit entry held exact)

def get (c : PrefixCache S) (tokenIds : List TokenId) : Except Raised (Option S) × PrefixCache S :=
  let (result, after) := c.longestPrefix tokenIds true
  (result.map fun found => found.map PrefixMatch.backendState, after)

def overLimits (c : PrefixCache S) : Bool := c.maxEntries < c.entries.size || c.maxTokens < c.cachedTokens

/-- One turn of the eviction loop: the least recently used entry goes. -/
def evictOldest (c : PrefixCache S) : PrefixCache S :=
  match c.entries.entries with
  | [] => c
  | (key, evicted) :: _ =>
    { c with
      entries := c.entries.erase key
      cachedTokens := c.cachedTokens - evicted.tokenCount
      evictions := c.evictions + 1
      root := c.root.remove key }

/-- The eviction loop; each turn drops an entry, so the entry count bounds the turns. -/
def evictWhileOver : Nat → PrefixCache S → PrefixCache S
  | 0, c => c
  | turns + 1, c => if c.overLimits then evictWhileOver turns c.evictOldest else c

/-- Replaces or adds an entry as the most recently used one. -/
def store (c : PrefixCache S) (tokenIds : List TokenId) (backendState : S) : PrefixCache S :=
  let remaining := match c.entries.get? tokenIds with
    | none => c.cachedTokens
    | some replaced => c.cachedTokens - replaced.tokenCount
  let entry : PrefixCacheEntry S := ⟨c.insertions, tokenIds, backendState⟩
  { c with
    entries := (c.entries.erase tokenIds).insert tokenIds entry
    root := c.root.insert tokenIds entry
    cachedTokens := remaining + entry.tokenCount
    insertions := c.insertions + 1 }

def put (c : PrefixCache S) (tokenIds : List TokenId) (backendState : S) : Except Raised Bool × PrefixCache S :=
  if tokenIds = [] then (.error (valueError "a cached prefix must contain at least one token"), c)
  else if !c.enabled || c.maxTokens < tokenIds.length then
    (.ok false, { c with bypasses := c.bypasses + 1 })
  else
    let stored := c.store tokenIds backendState
    let kept := evictWhileOver stored.entries.size stored
    (.ok (kept.entries.contains tokenIds), kept)

def clear (c : PrefixCache S) : PrefixCache S :=
  { c with entries := .empty, root := .empty, cachedTokens := 0 }

end PrefixCache

end ServingPlatform
