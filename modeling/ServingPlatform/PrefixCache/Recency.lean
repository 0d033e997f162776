import Mathlib.Algebra.BigOperators.Group.List.Basic
import Mathlib.Logic.Function.Basic
import ServingPlatform.PrefixCache.RadixCoherence

namespace ServingPlatform.PrefixCache

variable {S : Type} {c : PrefixCache S}

/-- Keys within both limits. -/
def Fits (c : PrefixCache S) (keys : List (List TokenId)) : Prop :=
  keys.length ≤ c.maxEntries ∧ (keys.map List.length).sum ≤ c.maxTokens

/-- The token count is that of the live keys. -/
def Counted (c : PrefixCache S) : Prop := c.cachedTokens = ((c.entries.keys.map List.length).sum : Nat)

/-- Entries stand under their own tokens. -/
def OwnKeys (c : PrefixCache S) : Prop := ∀ entry ∈ c.entries.entries, entry.2.tokenIds = entry.1

theorem Coherent.ownKeys (coherent : c.Coherent) : c.OwnKeys := fun entry member =>
  coherent.ownKey entry.1 entry.2 (Dict.get?_eq_some_iff.mpr member)

theorem Counted.overLimits_iff (counted : c.Counted) : c.overLimits = true ↔ ¬ c.Fits c.entries.keys := by
  have size : c.entries.keys.length = c.entries.size := List.length_map _
  have value : c.cachedTokens = _ := counted
  unfold overLimits Fits
  rw [size, value, Bool.or_eq_true, decide_eq_true_eq, decide_eq_true_eq]
  omega

section Eviction

/-- What the eviction loop has done: the shortest run of oldest entries that restores the limits is gone. -/
structure Evicted (c c' : PrefixCache S) (gone : Nat) : Prop where
  entries : c'.entries.entries = c.entries.entries.drop gone
  counted : c'.Counted
  fits : c.Fits c'.entries.keys
  least : ∀ n < gone, ¬ c.Fits (c.entries.keys.drop n)
  limits : c'.maxEntries = c.maxEntries ∧ c'.maxTokens = c.maxTokens

theorem evictOldest_cons {key : List TokenId} {entry : PrefixCacheEntry S} {rest : List (List TokenId × PrefixCacheEntry S)}
    (order : c.entries.entries = (key, entry) :: rest) (counted : c.Counted) (own : c.OwnKeys) :
    c.evictOldest.entries.entries = rest ∧ c.evictOldest.Counted ∧ c.evictOldest.OwnKeys ∧
      c.evictOldest.maxEntries = c.maxEntries ∧ c.evictOldest.maxTokens = c.maxTokens := by
  have erased : (c.entries.erase key).entries = rest := by
    show Dict.eraseEntry key c.entries.entries = rest
    rw [order, Dict.eraseEntry, if_pos rfl]
  have after : c.evictOldest.entries.entries = rest ∧ c.evictOldest.cachedTokens = c.cachedTokens - entry.tokenCount ∧
      c.evictOldest.maxEntries = c.maxEntries ∧ c.evictOldest.maxTokens = c.maxTokens := by
    unfold evictOldest
    rw [order]
    exact ⟨erased, rfl, rfl, rfl⟩
  obtain ⟨entries, tokens, limits⟩ := after
  refine ⟨entries, ?_, fun other member => ?_, limits⟩
  · have head : entry.tokenIds = key := own (key, entry) (by rw [order]; exact List.mem_cons_self ..)
    have before : c.cachedTokens = _ := counted
    rw [Dict.keys, order, List.map_cons, List.map_cons, List.sum_cons] at before
    unfold Counted
    rw [tokens, before, Dict.keys, entries, PrefixCacheEntry.tokenCount, head]
    push_cast
    omega
  · rw [entries] at member
    exact own other (by rw [order]; exact List.mem_cons_of_mem _ member)

/-- The loop stops before the newest entry, which fits alone. -/
theorem evictWhileOver_evicted {newest : List TokenId × PrefixCacheEntry S} (older : List (List TokenId × PrefixCacheEntry S))
    (order : c.entries.entries = older ++ [newest]) (alone : c.Fits [newest.1]) (counted : c.Counted) (own : c.OwnKeys)
    {turns : Nat} (enough : older.length ≤ turns) :
    ∃ gone ≤ older.length, Evicted c (evictWhileOver turns c) gone := by
  induction older generalizing c turns with
  | nil =>
    have keys : c.entries.keys = [newest.1] := by rw [Dict.keys, order]; rfl
    have fits : c.Fits c.entries.keys := keys ▸ alone
    have same : evictWhileOver turns c = c := by
      cases turns with
      | zero => rfl
      | succ turns => exact if_neg fun isOver => counted.overLimits_iff.mp isOver fits
    rw [same]
    exact ⟨0, Nat.le_refl _, rfl, counted, fits, fun n none => absurd none (Nat.not_lt_zero n), rfl, rfl⟩
  | cons oldest rest ih =>
    obtain ⟨turns, rfl⟩ := Nat.exists_eq_add_of_le' (Nat.le_trans (Nat.succ_le_succ (Nat.zero_le _)) enough)
    by_cases isOver : c.overLimits = true
    · obtain ⟨entries, counted', own', limits⟩ := evictOldest_cons order counted own
      have alone' : c.evictOldest.Fits [newest.1] := by
        unfold Fits
        rw [limits.1, limits.2]
        exact alone
      have less : rest.length ≤ turns := Nat.le_of_succ_le_succ enough
      obtain ⟨gone, bound, evicted⟩ := ih entries alone' counted' own' less
      have run : evictWhileOver (turns + 1) c = evictWhileOver turns c.evictOldest := if_pos isOver
      have tail : c.evictOldest.entries.keys = c.entries.keys.drop 1 := by
        rw [Dict.keys, Dict.keys, entries, order]
        rfl
      rw [run]
      refine ⟨gone + 1, Nat.succ_le_succ bound, ?_, evicted.counted, ?_, fun n below => ?_, ?_⟩
      · rw [evicted.entries, entries, order]
        rfl
      · have fits := evicted.fits
        unfold Fits at fits ⊢
        rw [limits.1, limits.2] at fits
        exact fits
      · cases n with
        | zero => exact counted.overLimits_iff.mp isOver
        | succ n =>
          have least := evicted.least n (by omega)
          rw [tail, List.drop_drop] at least
          unfold Fits at least ⊢
          rw [limits.1, limits.2, Nat.add_comm 1 n] at least
          exact least
      · exact ⟨evicted.limits.1.trans limits.1, evicted.limits.2.trans limits.2⟩
    · have run : evictWhileOver (turns + 1) c = c := if_neg isOver
      rw [run]
      refine ⟨0, Nat.zero_le _, rfl, counted, ?_, fun n none => absurd none (Nat.not_lt_zero n), rfl, rfl⟩
      exact not_not.mp fun outside => isOver (counted.overLimits_iff.mpr outside)

end Eviction

section Put

/-- An entry that is stored over what is left of the others. -/
def stored (c : PrefixCache S) (key : List TokenId) (state : S) : PrefixCacheEntry S := ⟨c.insertions, key, state⟩

theorem store_entries (c : PrefixCache S) (key : List TokenId) (state : S) :
    (c.store key state).entries.entries = (c.entries.erase key).entries ++ [(key, c.stored key state)] := by
  have fresh : key ∉ (c.entries.erase key).keys := fun member => (Dict.mem_keys_erase.mp member).1 rfl
  exact Dict.entries_insert_of_fresh fresh

theorem store_counted (counted : c.Counted) (own : c.OwnKeys) (key : List TokenId) (state : S) :
    (c.store key state).Counted := by
  have value : c.cachedTokens = _ := counted
  unfold Counted
  rw [Dict.keys, store_entries, List.map_append, List.map_append, List.sum_append]
  cases found : c.entries.get? key with
  | none =>
    have tokens : (c.store key state).cachedTokens = c.cachedTokens + key.length := by
      unfold store
      rw [found]
      rfl
    rw [Dict.erase_of_absent found, tokens]
    simp only [value, Dict.keys, List.map_cons, List.map_nil, List.sum_singleton]
    push_cast
    rfl
  | some replaced =>
    have perm := Dict.entries_erase_perm found
    have total := ((perm.map Prod.fst).map List.length).sum_eq
    have head : replaced.tokenIds = key := own (key, replaced) (Dict.get?_eq_some_iff.mp found)
    have tokens : (c.store key state).cachedTokens = c.cachedTokens - replaced.tokenCount + key.length := by
      unfold store
      rw [found]
      rfl
    rw [tokens]
    simp only [List.map_cons, List.sum_cons] at total
    simp only [value, Dict.keys, total, PrefixCacheEntry.tokenCount, head, List.map_cons, List.map_nil, List.sum_singleton]
    push_cast
    omega

theorem store_ownKeys (own : c.OwnKeys) (key : List TokenId) (state : S) : (c.store key state).OwnKeys := by
  intro entry member
  rw [store_entries] at member
  rcases List.mem_append.mp member with old | new
  · exact own entry ((Dict.eraseEntry_sublist _ _).subset old)
  · rw [List.mem_singleton.mp new]
    rfl

/-- What a put of a key that fits does to the entries: some of the others, the
fewest oldest ones, make room for the new one. -/
structure PutEffect (c : PrefixCache S) (key : List TokenId) (state : S) (after : PrefixCache S) : Prop where
  evicted : ∃ gone ≤ (c.entries.erase key).size,
    after.entries.entries = (c.entries.erase key).entries.drop gone ++ [(key, c.stored key state)] ∧
      ∀ n < gone, ¬ c.Fits ((c.entries.erase key).keys.drop n ++ [key])
  counted : after.Counted
  fits : after.Fits after.entries.keys
  limits : after.maxEntries = c.maxEntries ∧ after.maxTokens = c.maxTokens

theorem put_effect (enabled : c.enabled = true) (counted : c.Counted) (own : c.OwnKeys) {key : List TokenId}
    (some : key ≠ []) (short : key.length ≤ c.maxTokens) (state : S) :
    (c.put key state).1 = .ok true ∧ PutEffect c key state (c.put key state).2 := by
  have order := c.store_entries key state
  have alone : (c.store key state).Fits [key] := by
    refine ⟨of_decide_eq_true enabled, ?_⟩
    show ([key].map List.length).sum ≤ c.maxTokens
    simpa using short
  have enough : (c.entries.erase key).entries.length ≤ (c.store key state).entries.size := by
    rw [Dict.size, order, List.length_append]
    omega
  obtain ⟨gone, bound, evicted⟩ := evictWhileOver_evicted (c.entries.erase key).entries order alone
    (store_counted counted own key state) (store_ownKeys own key state) enough
  have run : c.put key state = (.ok ((evictWhileOver (c.store key state).entries.size (c.store key state)).entries.contains key),
      evictWhileOver (c.store key state).entries.size (c.store key state)) := by
    unfold put
    rw [if_neg some, if_neg (by rw [enabled]; simpa using short)]
  have kept : (evictWhileOver (c.store key state).entries.size (c.store key state)).entries.entries =
      (c.entries.erase key).entries.drop gone ++ [(key, c.stored key state)] := by
    rw [evicted.entries, order, List.drop_append_of_le_length bound]
  have present : (evictWhileOver (c.store key state).entries.size (c.store key state)).entries.contains key = true := by
    rw [Dict.contains_iff, Dict.keys, kept, List.map_append]
    exact List.mem_append_right _ (List.mem_singleton_self _)
  rw [run, present]
  refine ⟨rfl, ⟨gone, bound, kept, fun n below => ?_⟩, evicted.counted, ?_, evicted.limits⟩
  · have least := evicted.least n below
    rw [Dict.keys, order, List.map_append, List.drop_append_of_le_length] at least
    · exact least
    · rw [List.length_map]
      omega
  · have fits := evicted.fits
    unfold Fits
    rw [evicted.limits.1, evicted.limits.2]
    exact fits

end Put

section Lookup

/-- A lookup changes the recency of the matched entry and the statistics. -/
structure LookupEffect (c : PrefixCache S) (answer : Except Raised (Option (PrefixMatch S))) (after : PrefixCache S) : Prop where
  root : after.root = c.root
  cachedTokens : after.cachedTokens = c.cachedTokens
  limits : after.maxEntries = c.maxEntries ∧ after.maxTokens = c.maxTokens
  insertions : after.insertions = c.insertions
  evictions : after.evictions = c.evictions
  entries : answer = .ok none ∧ after.entries = c.entries ∨ ∃ found entry, answer = .ok (some found) ∧
    c.entries.get? found.tokenIds = some entry ∧
      after.entries.entries = (c.entries.erase found.tokenIds).entries ++ [(found.tokenIds, entry)]

theorem Coherent.lookup_effect (coherent : c.Coherent) (query : List TokenId) (exactOnly : Bool) :
    LookupEffect c (c.longestPrefix query exactOnly).1 (c.longestPrefix query exactOnly).2 := by
  have longest := coherent.deepest_longest query
  unfold longestPrefix
  split
  · exact ⟨rfl, rfl, ⟨rfl, rfl⟩, rfl, rfl, Or.inl ⟨rfl, rfl⟩⟩
  generalize c.root.deepest query none = walked at *
  dsimp only
  cases selected : (if exactOnly then walked.filter (fun e => e.tokenIds = query) else walked) with
  | none => exact ⟨rfl, rfl, ⟨rfl, rfl⟩, rfl, rfl, Or.inl ⟨rfl, rfl⟩⟩
  | some entry =>
    have same : walked = some entry := by
      split at selected
      · exact (Option.filter_eq_some_iff.mp selected).1
      · exact selected
    rw [same] at longest
    simp only [longest.1]
    refine ⟨rfl, rfl, ⟨rfl, rfl⟩, rfl, rfl, Or.inr ⟨_, entry, rfl, longest.1, ?_⟩⟩
    have fresh : entry.tokenIds ∉ (c.entries.erase entry.tokenIds).keys := fun member => (Dict.mem_keys_erase.mp member).1 rfl
    exact Dict.entries_insert_of_fresh fresh

end Lookup

end ServingPlatform.PrefixCache

namespace ServingPlatform.PrefixCache

variable {S : Type} {c : PrefixCache S}

/-- The key a call puts or successfully looks up. -/
def touched (c : PrefixCache S) : Call S → Option (List TokenId)
  | .put tokenIds backendState =>
    match (c.put tokenIds backendState).1 with
    | .ok true => some tokenIds
    | _ => none
  | .get tokenIds => (c.longestPrefix tokenIds true).1.toOption.join.map PrefixMatch.tokenIds
  | .longestPrefix tokenIds exactOnly => (c.longestPrefix tokenIds exactOnly).1.toOption.join.map PrefixMatch.tokenIds
  | .clear => none

/-- A cache with the number of calls so far and the call that last put or found each key. -/
structure Timed (S : Type) where
  cache : PrefixCache S
  now : Nat
  lastUsed : List TokenId → Nat

namespace Timed

def perform (t : Timed S) (call : Call S) : Timed S where
  cache := t.cache.perform call
  now := t.now + 1
  lastUsed := match t.cache.touched call with
    | none => t.lastUsed
    | some key => Function.update t.lastUsed key t.now

def performAll (t : Timed S) (calls : List (Call S)) : Timed S := calls.foldl perform t

/-- What holds between any two calls. -/
structure Lru (maxEntries maxTokens : Nat) (t : Timed S) : Prop where
  limits : t.cache.maxEntries = maxEntries ∧ t.cache.maxTokens = maxTokens
  coherent : t.cache.Coherent
  counted : t.cache.Counted
  fits : t.cache.Fits t.cache.entries.keys
  ordered : t.cache.entries.keys.Pairwise fun key key' => t.lastUsed key < t.lastUsed key'
  past : ∀ key ∈ t.cache.entries.keys, t.lastUsed key < t.now

variable {maxEntries maxTokens : Nat} {t t' : Timed S} {call : Call S}

theorem keys_of_entries {entries : List (List TokenId × PrefixCacheEntry S)} (same : t.cache.entries.entries = entries) :
    t.cache.entries.keys = entries.map Prod.fst := by
  rw [Dict.keys, same]

/-- Some keys stay in their order, and the touched one comes last. -/
theorem Lru.touch (lru : t.Lru maxEntries maxTokens) {keys : List (List TokenId)} {key : List TokenId}
    (fewer : keys.Sublist t.cache.entries.keys) (other : key ∉ keys) :
    (keys ++ [key]).Pairwise (fun k k' => Function.update t.lastUsed key t.now k < Function.update t.lastUsed key t.now k') ∧
      ∀ k ∈ keys ++ [key], Function.update t.lastUsed key t.now k < t.now + 1 := by
  have same : ∀ k ∈ keys, Function.update t.lastUsed key t.now k = t.lastUsed k := fun k member =>
    Function.update_of_ne (ne_of_mem_of_not_mem member other) _ _
  have old : ∀ k ∈ keys, t.lastUsed k < t.now := fun k member => lru.past k (fewer.subset member)
  constructor
  · refine List.pairwise_append.mpr ⟨?_, List.pairwise_singleton _ _, fun k member k' last => ?_⟩
    · refine (lru.ordered.sublist fewer).imp_of_mem fun member member' less => ?_
      rw [same _ member, same _ member']
      exact less
    · rw [List.mem_singleton.mp last, same k member, Function.update_self]
      exact old k member
  · intro k member
    rcases List.mem_append.mp member with kept | last
    · rw [same k kept]
      exact Nat.lt_succ_of_lt (old k kept)
    · rw [List.mem_singleton.mp last, Function.update_self]
      exact Nat.lt_succ_self _

/-- No key is touched, and the entries stay as they are. -/
theorem Lru.untouched (lru : t.Lru maxEntries maxTokens) (none : t.cache.touched call = none) (coherent : (t.cache.perform call).Coherent)
    (entries : (t.cache.perform call).entries = t.cache.entries)
    (tokens : (t.cache.perform call).cachedTokens = t.cache.cachedTokens)
    (limits : (t.cache.perform call).maxEntries = t.cache.maxEntries ∧ (t.cache.perform call).maxTokens = t.cache.maxTokens) :
    (t.perform call).Lru maxEntries maxTokens := by
  have used : (t.perform call).lastUsed = t.lastUsed := by simp only [perform, none]
  refine ⟨⟨limits.1.trans lru.limits.1, limits.2.trans lru.limits.2⟩, coherent, ?_, ?_, ?_, ?_⟩
  · show (t.cache.perform call).cachedTokens = (((t.cache.perform call).entries.keys.map List.length).sum : Nat)
    rw [tokens, entries]
    exact lru.counted
  · show (t.cache.perform call).Fits (t.cache.perform call).entries.keys
    unfold Fits
    rw [entries, limits.1, limits.2]
    exact lru.fits
  · rw [used]
    show (t.cache.perform call).entries.keys.Pairwise _
    rw [entries]
    exact lru.ordered
  · rw [used]
    show ∀ key ∈ (t.cache.perform call).entries.keys, _
    rw [entries]
    exact fun key member => Nat.lt_succ_of_lt (lru.past key member)

theorem Lru.lookup (lru : t.Lru maxEntries maxTokens) (query : List TokenId) (exactOnly : Bool)
    (run : t.cache.perform call = (t.cache.longestPrefix query exactOnly).2)
    (touches : t.cache.touched call = (t.cache.longestPrefix query exactOnly).1.toOption.join.map PrefixMatch.tokenIds) :
    (t.perform call).Lru maxEntries maxTokens := by
  have effect := lru.coherent.lookup_effect query exactOnly
  have coherent : (t.cache.perform call).Coherent := run ▸ longestPrefix_coherent lru.coherent query exactOnly
  have tokens : (t.cache.perform call).cachedTokens = t.cache.cachedTokens := run ▸ effect.cachedTokens
  have limits : (t.cache.perform call).maxEntries = t.cache.maxEntries ∧
      (t.cache.perform call).maxTokens = t.cache.maxTokens := run ▸ effect.limits
  rcases effect.entries with ⟨answer, same⟩ | ⟨found, entry, answer, held, moved⟩
  · rw [answer] at touches
    exact lru.untouched touches coherent (run ▸ same) tokens limits
  · rw [answer] at touches
    have used : (t.perform call).lastUsed = Function.update t.lastUsed found.tokenIds t.now := by
      simp only [perform, touches]
      rfl
    have keys : (t.perform call).cache.entries.keys = (t.cache.entries.erase found.tokenIds).keys ++ [found.tokenIds] := by
      show (t.cache.perform call).entries.keys = _
      rw [run, Dict.keys, moved, List.map_append]
      rfl
    have perm : (t.perform call).cache.entries.keys.Perm t.cache.entries.keys := by
      rw [keys]
      refine (List.perm_append_singleton _ _).trans ?_
      exact ((Dict.entries_erase_perm held).map Prod.fst).symm
    obtain ⟨ordered, past⟩ := lru.touch ((Dict.eraseEntry_sublist _ t.cache.entries.entries).map Prod.fst)
      (fun member => (Dict.mem_keys_erase (k := found.tokenIds).mp member).1 rfl)
    refine ⟨⟨limits.1.trans lru.limits.1, limits.2.trans lru.limits.2⟩, coherent, ?_, ?_, ?_, ?_⟩
    · show (t.cache.perform call).cachedTokens = (((t.perform call).cache.entries.keys.map List.length).sum : Nat)
      rw [tokens, (perm.map List.length).sum_eq]
      exact lru.counted
    · show (t.cache.perform call).Fits (t.perform call).cache.entries.keys
      unfold Fits
      rw [limits.1, limits.2, perm.length_eq, (perm.map List.length).sum_eq]
      exact lru.fits
    · rw [used, keys]
      exact ordered
    · rw [used, keys]
      exact past

theorem Lru.put (lru : t.Lru maxEntries maxTokens) (key : List TokenId) (state : S) : (t.perform (.put key state)).Lru maxEntries maxTokens := by
  have coherent : (t.cache.perform (.put key state)).Coherent := put_coherent lru.coherent key state
  by_cases empty : key = []
  · have run : t.cache.put key state = (.error (valueError "a cached prefix must contain at least one token"), t.cache) :=
      if_pos empty
    have after : t.cache.perform (.put key state) = t.cache := congrArg Prod.snd run
    refine lru.untouched ?_ coherent (by rw [after]) (by rw [after]) (by rw [after]; exact ⟨rfl, rfl⟩)
    simp only [touched, run]
  by_cases refused : (!t.cache.enabled || decide (t.cache.maxTokens < key.length)) = true
  · have run : t.cache.put key state = (.ok false, { t.cache with bypasses := t.cache.bypasses + 1 }) := by
      unfold PrefixCache.put
      rw [if_neg empty, if_pos refused]
    have after : t.cache.perform (.put key state) = { t.cache with bypasses := t.cache.bypasses + 1 } := congrArg Prod.snd run
    refine lru.untouched ?_ coherent (by rw [after]) (by rw [after]) (by rw [after]; exact ⟨rfl, rfl⟩)
    simp only [touched, run]
  have enabled : t.cache.enabled = true := by
    cases on : t.cache.enabled with
    | true => rfl
    | false => simp [on] at refused
  have short : key.length ≤ t.cache.maxTokens := by simpa [enabled] using refused
  obtain ⟨accepted, effect⟩ := put_effect enabled lru.counted lru.coherent.ownKeys empty short state
  obtain ⟨gone, bound, entries, -⟩ := effect.evicted
  have touches : t.cache.touched (.put key state) = some key := by simp only [touched, accepted]
  have used : (t.perform (.put key state)).lastUsed = Function.update t.lastUsed key t.now := by
    simp only [perform, touches]
  have keys : (t.perform (.put key state)).cache.entries.keys = (t.cache.entries.erase key).keys.drop gone ++ [key] := by
    show (t.cache.put key state).2.entries.keys = _
    rw [Dict.keys, entries, List.map_append, List.map_drop]
    rfl
  have fewer : ((t.cache.entries.erase key).keys.drop gone).Sublist t.cache.entries.keys :=
    (List.drop_sublist _ _).trans ((Dict.eraseEntry_sublist _ t.cache.entries.entries).map Prod.fst)
  obtain ⟨ordered, past⟩ := lru.touch fewer fun member => (Dict.mem_keys_erase.mp (List.mem_of_mem_drop member)).1 rfl
  refine ⟨⟨effect.limits.1.trans lru.limits.1, effect.limits.2.trans lru.limits.2⟩, coherent, effect.counted, effect.fits,
    ?_, ?_⟩
  · rw [used, keys]
    exact ordered
  · rw [used, keys]
    exact past

theorem Lru.perform (lru : t.Lru maxEntries maxTokens) (call : Call S) : (t.perform call).Lru maxEntries maxTokens := by
  cases call with
  | put key state => exact lru.put key state
  | get query => exact lru.lookup query true rfl rfl
  | longestPrefix query exactOnly => exact lru.lookup query exactOnly rfl rfl
  | clear => exact ⟨lru.limits, clear_coherent, rfl, ⟨Nat.zero_le _, Nat.zero_le _⟩, .nil, fun key none => by cases none⟩

theorem Lru.performAll (lru : t.Lru maxEntries maxTokens) (calls : List (Call S)) : (t.performAll calls).Lru maxEntries maxTokens := by
  induction calls generalizing t with
  | nil => exact lru
  | cons call rest ih => exact ih (lru.perform call)

/-- A new cache, before any call. -/
def start (maxEntries maxTokens : Nat) (limits : maxEntries = 0 ↔ maxTokens = 0) : Timed S :=
  ⟨ofLimits maxEntries maxTokens limits, 0, fun _ => 0⟩

theorem start_lru (maxEntries maxTokens : Nat) (limits : maxEntries = 0 ↔ maxTokens = 0) :
    (start maxEntries maxTokens limits : Timed S).Lru maxEntries maxTokens :=
  ⟨⟨rfl, rfl⟩, ofLimits_coherent maxEntries maxTokens limits, rfl, ⟨Nat.zero_le _, Nat.zero_le _⟩, .nil, fun key none => by cases none⟩

/-- After every sequence of calls on an enabled cache, entries are counted,
bounded and ordered by their last use; a put that fits is kept and evicts the
shortest run of oldest other entries, and a lookup moves its match only. -/
theorem runs_bounded_lru (maxEntries maxTokens : Nat) (limits : maxEntries = 0 ↔ maxTokens = 0)
    (enabled : 0 < maxEntries) (calls : List (Call S)) {t : Timed S}
    (reached : t = (start maxEntries maxTokens limits).performAll calls) :
    t.cache.cachedTokens = ((t.cache.entries.keys.map List.length).sum : Nat) ∧
      (t.cache.entries.size ≤ maxEntries ∧ t.cache.cachedTokens ≤ maxTokens) ∧
      t.cache.entries.keys.Pairwise (fun key key' => t.lastUsed key < t.lastUsed key') ∧
      (∀ key state, key ≠ [] → key.length ≤ maxTokens →
        (t.cache.put key state).1 = .ok true ∧ PutEffect t.cache key state (t.cache.put key state).2) ∧
      ∀ query exactOnly, LookupEffect t.cache (t.cache.longestPrefix query exactOnly).1
        (t.cache.longestPrefix query exactOnly).2 := by
  have lru : t.Lru maxEntries maxTokens := reached ▸ (start_lru maxEntries maxTokens limits).performAll calls
  have on : t.cache.enabled = true := by
    rw [PrefixCache.enabled, lru.limits.1]
    exact decide_eq_true enabled
  refine ⟨lru.counted, ⟨?_, ?_⟩, lru.ordered, fun key state some short => ?_, lru.coherent.lookup_effect⟩
  · have fits := lru.fits.1
    rw [lru.limits.1, Dict.keys, List.length_map] at fits
    exact fits
  · have fits := lru.fits.2
    have counted : t.cache.cachedTokens = _ := lru.counted
    rw [lru.limits.2] at fits
    omega
  · exact put_effect on lru.counted lru.coherent.ownKeys some (lru.limits.2 ▸ short) state

/-- Two entries of two tokens fill this cache; the lookup saves the first one from eviction. -/
theorem runs_bounded_lru_filled :
    ((start 2 4 (by decide) : Timed Nat).performAll
        [.put [1, 2] 7, .put [3, 4] 8, .longestPrefix [1, 2, 5] false, .put [5, 6] 9]).cache.entries.keys = [[1, 2], [5, 6]] ∧
      ((start 2 4 (by decide) : Timed Nat).performAll
        [.put [1, 2] 7, .put [3, 4] 8, .longestPrefix [1, 2, 5] false, .put [5, 6] 9]).cache.cachedTokens ≤ 4 := by
  refine ⟨by decide +kernel, ?_⟩
  exact (runs_bounded_lru 2 4 (by decide) (by decide) _ rfl).2.1.2

end Timed

end ServingPlatform.PrefixCache
