import ServingPlatform.PrefixCache.Cache

namespace ServingPlatform.PrefixCache

variable {S : Type} {c : PrefixCache S}

/-- The radix tree and the map hold the same entries, each under its own
tokens, and the tree keeps no node without a purpose. -/
structure Coherent (c : PrefixCache S) : Prop where
  tidy : c.root.Tidy
  sameEntries : ∀ path, c.root.entryAt path = c.entries.get? path
  ownKey : ∀ key entry, c.entries.get? key = some entry → entry.tokenIds = key
  nonempty : c.entries.get? [] = none

theorem ofLimits_coherent (maxEntries maxTokens : Nat) (limits : maxEntries = 0 ↔ maxTokens = 0) :
    (ofLimits maxEntries maxTokens limits : PrefixCache S).Coherent where
  tidy := PrefixTree.tidy_empty
  sameEntries path := by simp [ofLimits]
  ownKey := by simp [ofLimits]
  nonempty := rfl

theorem Coherent.of_same (before : c.Coherent) {c' : PrefixCache S} (root : c'.root = c.root)
    (entries : ∀ key, c'.entries.get? key = c.entries.get? key) : c'.Coherent where
  tidy := root ▸ before.tidy
  sameEntries path := by rw [root, entries]; exact before.sameEntries path
  ownKey key entry found := before.ownKey key entry (by rw [← entries]; exact found)
  nonempty := by rw [entries]; exact before.nonempty

theorem get?_moveToEnd {entries : Dict (List TokenId) (PrefixCacheEntry S)} {key : List TokenId}
    {held : PrefixCacheEntry S} (found : entries.get? key = some held) (other : List TokenId) :
    (entries.moveToEnd key held).get? other = entries.get? other := by
  rw [Dict.moveToEnd, Dict.get?_insert, Dict.get?_erase]
  split
  · rename_i same
    rw [same, found]
  · rfl

theorem recordHit_coherent (before : c.Coherent) {entry held : PrefixCacheEntry S} {exact : Bool}
    (found : c.entries.get? entry.tokenIds = some held) : (c.recordHit entry held exact).Coherent :=
  before.of_same rfl (get?_moveToEnd found)

theorem longestPrefix_coherent (before : c.Coherent) (query : List TokenId) (exactOnly : Bool) :
    (c.longestPrefix query exactOnly).2.Coherent := by
  unfold longestPrefix
  split
  · exact before.of_same rfl fun _ => rfl
  · dsimp only
    split
    · exact before.of_same rfl fun _ => rfl
    · split
      · exact before
      · rename_i held found
        exact recordHit_coherent before found

theorem store_coherent (before : c.Coherent) {key : List TokenId} (nonempty : key ≠ []) (state : S) :
    (c.store key state).Coherent where
  tidy := before.tidy.insert key _
  sameEntries path := by
    simp only [store, PrefixTree.entryAt_insert, Dict.get?_insert, Dict.get?_erase, before.sameEntries]
    split <;> rfl
  ownKey k entry found := by
    simp only [store, Dict.get?_insert, Dict.get?_erase] at found
    split at found
    · rename_i same
      cases found
      exact same.symm
    · exact before.ownKey k entry found
  nonempty := by
    simp only [store, Dict.get?_insert, Dict.get?_erase, nonempty.symm, if_false]
    exact before.nonempty

theorem evictOldest_coherent (before : c.Coherent) : c.evictOldest.Coherent := by
  unfold evictOldest
  split
  · exact before
  · rename_i key evicted rest order
    refine ⟨before.tidy.remove key, fun path => ?_, fun k entry found => ?_, ?_⟩
    · rw [PrefixTree.entryAt_remove before.tidy, Dict.get?_erase, before.sameEntries]
    · rw [Dict.get?_erase] at found
      split at found
      · cases found
      · exact before.ownKey k entry found
    · rw [Dict.get?_erase, before.nonempty]
      split <;> rfl

theorem evictWhileOver_coherent (before : c.Coherent) (turns : Nat) : (evictWhileOver turns c).Coherent := by
  induction turns generalizing c with
  | zero => exact before
  | succ turns ih =>
    unfold evictWhileOver
    split
    · exact ih (evictOldest_coherent before)
    · exact before

theorem put_coherent (before : c.Coherent) (key : List TokenId) (state : S) : (c.put key state).2.Coherent := by
  unfold put
  split
  · exact before
  · rename_i nonempty
    split
    · exact before.of_same rfl fun _ => rfl
    · exact evictWhileOver_coherent (store_coherent before nonempty state) _

theorem clear_coherent : c.clear.Coherent where
  tidy := PrefixTree.tidy_empty
  sameEntries path := by simp [clear]
  ownKey := by simp [clear]
  nonempty := rfl

/-- The calls a client can make, with arbitrary arguments. -/
inductive Call (S : Type)
  | put (tokenIds : List TokenId) (backendState : S)
  | get (tokenIds : List TokenId)
  | longestPrefix (tokenIds : List TokenId) (exactOnly : Bool)
  | clear

def perform (c : PrefixCache S) : Call S → PrefixCache S
  | .put tokenIds backendState => (c.put tokenIds backendState).2
  | .get tokenIds => (c.get tokenIds).2
  | .longestPrefix tokenIds exactOnly => (c.longestPrefix tokenIds exactOnly).2
  | .clear => c.clear

def performAll (c : PrefixCache S) (calls : List (Call S)) : PrefixCache S := calls.foldl perform c

theorem perform_coherent (before : c.Coherent) (call : Call S) : (c.perform call).Coherent := by
  cases call with
  | put tokenIds backendState => exact put_coherent before tokenIds backendState
  | get tokenIds => exact longestPrefix_coherent before tokenIds true
  | longestPrefix tokenIds exactOnly => exact longestPrefix_coherent before tokenIds exactOnly
  | clear => exact clear_coherent

theorem performAll_coherent (before : c.Coherent) (calls : List (Call S)) : (c.performAll calls).Coherent := by
  induction calls generalizing c with
  | nil => exact before
  | cons call rest ih => exact ih (perform_coherent before call)

/-- What a search of the live entries alone should answer: the entry whose
key is the longest one that the query starts with. -/
def LongestEntry (entries : Dict (List TokenId) (PrefixCacheEntry S)) (query : List TokenId) :
    Option (PrefixCacheEntry S) → Prop
  | none => ∀ key, key <+: query → entries.get? key = none
  | some entry => entries.get? entry.tokenIds = some entry ∧ entry.tokenIds <+: query ∧
      ∀ key, key <+: query → entries.get? key ≠ none → key.length ≤ entry.tokenIds.length

theorem Coherent.deepest_longest (coherent : c.Coherent) (query : List TokenId) :
    LongestEntry c.entries query (c.root.deepest query none) := by
  rcases c.root.deepest_spec query none with ⟨walk, absent⟩ | ⟨p, entry, walk, -, isPrefix, atP, longest⟩
  · rw [walk]
    intro key isPrefix
    by_cases empty : key = []
    · rw [empty, coherent.nonempty]
    · rw [← coherent.sameEntries]
      exact absent key empty isPrefix
  · rw [walk]
    rw [coherent.sameEntries] at atP
    have key := coherent.ownKey p entry atP
    refine ⟨key ▸ atP, key ▸ isPrefix, fun other otherPrefix held => ?_⟩
    rw [← coherent.sameEntries] at held
    exact key ▸ longest other otherPrefix held

/-- The match reported for an entry. -/
def matchOf (query : List TokenId) (entry : PrefixCacheEntry S) : PrefixMatch S :=
  ⟨entry.tokenIds, entry.backendState, entry.tokenIds = query⟩

theorem Coherent.longestPrefix_ok (coherent : c.Coherent) (enabled : c.enabled = true) (query : List TokenId)
    (exactOnly : Bool) :
    ∃ entry, LongestEntry c.entries query entry ∧ (c.longestPrefix query exactOnly).1 =
      .ok ((if exactOnly then entry.filter (fun e => e.tokenIds = query) else entry).map (matchOf query)) := by
  have found := coherent.deepest_longest query
  refine ⟨_, found, ?_⟩
  unfold longestPrefix
  simp only [enabled, Bool.not_true, Bool.false_eq_true, if_false]
  generalize c.root.deepest query none = walked at *
  have held : ∀ entry, (if exactOnly then walked.filter (fun e => e.tokenIds = query) else walked) = some entry →
      c.entries.get? entry.tokenIds = some entry := by
    intro entry selected
    have same : walked = some entry := by
      split at selected
      · exact (Option.filter_eq_some_iff.mp selected).1
      · exact selected
    rw [same] at found
    exact found.1
  cases selected : (if exactOnly then walked.filter (fun e => e.tokenIds = query) else walked) with
  | none => rfl
  | some entry =>
    simp only [held entry selected, Option.map_some]
    rfl

/-- A match is of an entry that is kept, under the longest cached tokens the query starts with. -/
theorem Coherent.longestPrefix_some (coherent : c.Coherent) {query : List TokenId} {exactOnly : Bool}
    {found : PrefixMatch S} (run : (c.longestPrefix query exactOnly).1 = .ok (some found)) :
    found.tokenIds <+: query ∧ (found.exact = true ↔ found.tokenIds = query) ∧
      (∃ entry, (c.longestPrefix query exactOnly).2.entries.get? found.tokenIds = some entry ∧
        entry.backendState = found.backendState) ∧
      ∀ key, key <+: query → (c.longestPrefix query exactOnly).2.entries.get? key ≠ none →
        key.length ≤ found.matchedTokens := by
  have longest := coherent.deepest_longest query
  unfold longestPrefix at run ⊢
  split at run
  · cases run
  rename_i on
  simp only [on, Bool.false_eq_true, if_false] at run ⊢
  generalize c.root.deepest query none = walked at *
  have selects : ∀ entry, (if exactOnly then walked.filter (fun e => e.tokenIds = query) else walked) = some entry →
      walked = some entry := by
    intro entry selected
    split at selected
    · exact (Option.filter_eq_some_iff.mp selected).1
    · exact selected
  cases selected : (if exactOnly then walked.filter (fun e => e.tokenIds = query) else walked) with
  | none =>
    rw [selected] at run
    cases run
  | some entry =>
    have same := selects entry selected
    rw [same] at longest
    obtain ⟨held, isPrefix, maximal⟩ := longest
    rw [selected] at run
    simp only [held, Except.ok.injEq, Option.some.injEq] at run ⊢
    subst run
    refine ⟨isPrefix, decide_eq_true_iff, ⟨entry, ?_, rfl⟩, fun key smaller kept => maximal key smaller ?_⟩
    · exact (get?_moveToEnd held entry.tokenIds).trans held
    · rw [← get?_moveToEnd held key]
      exact kept

/-- Restricted to exact matches, the longest entry is the entry of the query itself. -/
theorem LongestEntry.exact {entries : Dict (List TokenId) (PrefixCacheEntry S)} {query : List TokenId}
    {entry : Option (PrefixCacheEntry S)} (longest : LongestEntry entries query entry) :
    entry.filter (fun e => e.tokenIds = query) = entries.get? query := by
  cases entry with
  | none => simpa using (longest query List.prefix_rfl).symm
  | some e =>
    obtain ⟨held, isPrefix, maximal⟩ := longest
    by_cases same : e.tokenIds = query
    · rw [same] at held
      simp [same, held]
    · cases atQuery : entries.get? query with
      | none => simp [same]
      | some other =>
        have bound := maximal query List.prefix_rfl (by simp [atQuery])
        exact absurd (isPrefix.eq_of_length_le bound) same

theorem longestPrefix_maxEntries (c : PrefixCache S) (query : List TokenId) (exactOnly : Bool) :
    (c.longestPrefix query exactOnly).2.maxEntries = c.maxEntries := by
  unfold longestPrefix
  split
  · rfl
  · dsimp only
    split
    · rfl
    · split <;> rfl

theorem evictWhileOver_maxEntries (turns : Nat) (c : PrefixCache S) :
    (evictWhileOver turns c).maxEntries = c.maxEntries := by
  induction turns generalizing c with
  | zero => rfl
  | succ turns ih =>
    unfold evictWhileOver
    split
    · rw [ih]
      unfold evictOldest
      split <;> rfl
    · rfl

theorem perform_maxEntries (c : PrefixCache S) (call : Call S) : (c.perform call).maxEntries = c.maxEntries := by
  cases call with
  | put tokenIds backendState =>
    simp only [perform, put]
    split
    · rfl
    · split
      · rfl
      · exact evictWhileOver_maxEntries _ _
  | get tokenIds => exact c.longestPrefix_maxEntries tokenIds true
  | longestPrefix tokenIds exactOnly => exact c.longestPrefix_maxEntries tokenIds exactOnly
  | clear => rfl

theorem performAll_maxEntries (c : PrefixCache S) (calls : List (Call S)) :
    (c.performAll calls).maxEntries = c.maxEntries := by
  induction calls generalizing c with
  | nil => rfl
  | cons call rest ih => exact (ih _).trans (c.perform_maxEntries call)

/-- In every reachable state of an enabled cache the tree and the map hold
the same entry objects, no tree node is idle, and a lookup is a search for
the longest live key. -/
theorem radix_lookup_is_longest_prefix (maxEntries maxTokens : Nat) (limits : maxEntries = 0 ↔ maxTokens = 0)
    (enabled : 0 < maxEntries) (calls : List (Call S)) (c : PrefixCache S)
    (reached : c = (ofLimits maxEntries maxTokens limits).performAll calls) :
    (∀ path, c.root.entryAt path = c.entries.get? path) ∧
      (∀ path n, path ≠ [] → c.root.nodeAt path = some n →
        ∃ rest entry, c.root.entryAt (path ++ rest) = some entry) ∧
      (∀ query, ∃ entry, LongestEntry c.entries query entry ∧
        (c.longestPrefix query false).1 = .ok (entry.map (matchOf query))) ∧
      ∀ query, (c.longestPrefix query true).1 = .ok ((c.entries.get? query).map (matchOf query)) := by
  have coherent : c.Coherent :=
    reached ▸ performAll_coherent (ofLimits_coherent maxEntries maxTokens limits) calls
  have active : c.enabled = true := by
    have kept : c.maxEntries = maxEntries := reached ▸ performAll_maxEntries _ calls
    simpa only [PrefixCache.enabled, kept, decide_eq_true_eq] using enabled
  refine ⟨coherent.sameEntries, fun path n below atPath => coherent.tidy.entry_below_nodeAt below atPath,
    fun query => ?_, fun query => ?_⟩
  · obtain ⟨entry, longest, result⟩ := coherent.longestPrefix_ok active query false
    exact ⟨entry, longest, result⟩
  · obtain ⟨entry, longest, result⟩ := coherent.longestPrefix_ok active query true
    rw [result, if_pos rfl, longest.exact]

theorem radix_lookup_is_longest_prefix_evicted :
    ((ofLimits 1 4 (by decide) : PrefixCache Nat).performAll
        [.put [1, 2] 7, .put [1, 2, 3] 8]).root.entryAt [1, 2] = none ∧
      (((ofLimits 1 4 (by decide) : PrefixCache Nat).performAll
        [.put [1, 2] 7, .put [1, 2, 3] 8]).longestPrefix [1, 2, 3] true).1.toOption =
        some (some ⟨[1, 2, 3], 8, true⟩) := by
  obtain ⟨entries, -, -, lookup⟩ := radix_lookup_is_longest_prefix 1 4 (by decide) (by decide)
    [.put [1, 2] 7, .put [1, 2, 3] 8] ((ofLimits 1 4 (by decide) : PrefixCache Nat).performAll _) rfl
  exact ⟨(entries [1, 2]).trans rfl, by rw [lookup]; rfl⟩

end ServingPlatform.PrefixCache
