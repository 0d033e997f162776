import ServingPlatform.KvCache.AllocatorInvariant
import ServingPlatform.Library.Paging
import ServingPlatform.PagedKv.AppendLoop
import ServingPlatform.PagedKv.PageWrites
import ServingPlatform.PagedKv.Pages

namespace ServingPlatform.TorchPagedKVCache

variable {α : Type}

def tableOf (cache : TorchPagedKVCache α) (sequenceId : String) : List BlockId :=
  (cache.allocator.owners.get? sequenceId).getD []

/-- What one row of a gathered batch shows at a position; `other` is what was there before. -/
def rowEntry (config : PagedKVConfig) (pages : Pages α) (layer : Nat) (table : List BlockId) (length : Nat)
    (head token dim : Nat) (other : α) : α :=
  if head < config.numKvHeads ∧ token < length ∧ dim < config.headDim then
    match Paging.slot table config.blockSizeTokens token with
    | some place => pages layer place.1 head place.2 dim
    | none => other
  else other

/-- The page walk reads every position below the length at its slot. -/
theorem gatherRow_apply (config : PagedKVConfig) (pages : Pages α) (layer row length : Nat) (table : List BlockId)
    (position : Nat) (destination : Nat → Nat → Nat → Nat → α) (r h t d : Nat) :
    gatherRow config pages layer row length table position destination r h t d =
      if r = row ∧ h < config.numKvHeads ∧ position ≤ t ∧ t < length ∧ d < config.headDim then
        match Paging.slot table config.blockSizeTokens (t - position) with
        | some place => pages layer place.1 h place.2 d
        | none => destination r h t d
      else destination r h t d := by
  have positive := config.blockSizePositive
  induction table generalizing position destination with
  | nil => simp [gatherRow, Paging.slot]
  | cons page rest ih =>
    unfold gatherRow
    dsimp only
    by_cases done : min config.blockSizeTokens (length - position) = 0
    · rw [if_pos done, if_neg]
      omega
    rw [if_neg done, ih]
    unfold gatherColumns
    by_cases first : position ≤ t ∧ t < position + min config.blockSizeTokens (length - position)
    · have behind : ¬ position + min config.blockSizeTokens (length - position) ≤ t := by omega
      have below : t < length := by omega
      rw [Paging.slot_cons_of_lt (by omega)]
      simp [behind, first, below]
    · by_cases later : position ≤ t ∧ t < length
      · have full : min config.blockSizeTokens (length - position) = config.blockSizeTokens := by omega
        rw [Paging.slot_cons_of_le positive (by omega), full, Nat.sub_add_eq]
        have behind : position + config.blockSizeTokens ≤ t := by omega
        have beyond : ¬ t < position + config.blockSizeTokens := by omega
        simp [behind, beyond, later]
      · have outside : ¬ (position + min config.blockSizeTokens (length - position) ≤ t ∧ t < length) := by omega
        rw [if_neg (fun inside => outside ⟨inside.2.2.1, inside.2.2.2.1⟩),
          if_neg (fun inside => first ⟨inside.2.2.1, inside.2.2.2.1⟩),
          if_neg (fun inside => later ⟨inside.2.2.1, inside.2.2.2.1⟩)]

theorem gatherRow_start (config : PagedKVConfig) (pages : Pages α) (layer row length : Nat) (table : List BlockId)
    (destination : Nat → Nat → Nat → Nat → α) (r h t d : Nat) :
    gatherRow config pages layer row length table 0 destination r h t d =
      if r = row then rowEntry config pages layer table length h t d (destination r h t d)
      else destination r h t d := by
  rw [gatherRow_apply]
  unfold rowEntry
  by_cases same : r = row <;> simp [same]

/-- The request in row `r`, when the rows of `pairs` start at `row`. -/
def rowOf (pairs : List (String × Nat)) (row r : Nat) : Option (String × Nat) :=
  if row ≤ r then pairs[r - row]? else none

/-- The batch after gathering the given rows. -/
def gathered (cache : TorchPagedKVCache α) (layer row : Nat) (pairs : List (String × Nat))
    (batch : GatheredBatch α) : GatheredBatch α :=
  { batch with
    keys := fun r h t d =>
      match rowOf pairs row r with
      | some (sequenceId, length) => rowEntry cache.config cache.pools.keyPages layer (cache.tableOf sequenceId)
          length h t d (batch.keys r h t d)
      | none => batch.keys r h t d
    values := fun r h t d =>
      match rowOf pairs row r with
      | some (sequenceId, length) => rowEntry cache.config cache.pools.valuePages layer (cache.tableOf sequenceId)
          length h t d (batch.values r h t d)
      | none => batch.values r h t d
    mask := fun r t =>
      match rowOf pairs row r with
      | some (_, length) => if t < length then true else batch.mask r t
      | none => batch.mask r t }

theorem rowOf_cons (pair : String × Nat) (pairs : List (String × Nat)) (row r : Nat) :
    rowOf (pair :: pairs) row r = if r = row then some pair else rowOf pairs (row + 1) r := by
  unfold rowOf
  by_cases same : r = row
  · simp [same]
  · by_cases before : row ≤ r
    · have next : row + 1 ≤ r := by omega
      have index : r - row = r - (row + 1) + 1 := by omega
      simp [same, before, next, index]
    · have next : ¬ row + 1 ≤ r := by omega
      simp [same, before, next]

/-- Rows of allocated sequences are all gathered. -/
theorem gatherRows_ok (cache : TorchPagedKVCache α) (layer : Nat) (pairs : List (String × Nat))
    (known : ∀ pair ∈ pairs, ∃ table, cache.allocator.owners.get? pair.1 = some table) (row : Nat)
    (batch : GatheredBatch α) :
    cache.gatherRows layer row pairs batch = .ok (cache.gathered layer row pairs batch) := by
  induction pairs generalizing row batch with
  | nil =>
    unfold gatherRows gathered rowOf
    simp
  | cons pair rest ih =>
    obtain ⟨sequenceId, length⟩ := pair
    obtain ⟨table, found⟩ := known _ (List.mem_cons_self ..)
    have atTable : cache.tableOf sequenceId = table := by
      unfold tableOf
      rw [found]
      rfl
    unfold gatherRows KVBlockAllocator.table KVBlockAllocator.blockTable
    simp only [found, Except.map]
    rw [ih fun pair member => known pair (List.mem_cons_of_mem _ member)]
    unfold gathered
    congr 1
    simp only [rowOf_cons, gatherRow_start, GatheredBatch.mk.injEq, true_and]
    refine ⟨?_, ?_, ?_⟩
    · funext r h t d
      by_cases same : r = row
      · subst same
        simp [rowOf, atTable]
      · simp [same]
    · funext r h t d
      by_cases same : r = row
      · subst same
        simp [rowOf, atTable]
      · simp [same]
    · funext r t
      by_cases same : r = row
      · subst same
        simp [rowOf]
      · simp [same]

/-- The lengths, when every sequence is known, in the order asked for. -/
theorem lengthsOf_ok (cache : TorchPagedKVCache α) {sequenceIds : List String} {lengths : List Nat}
    (run : cache.lengthsOf sequenceIds = .ok lengths) :
    List.Forall₂ (fun sequenceId length => cache.lengths.get? sequenceId = some length) sequenceIds lengths := by
  induction sequenceIds generalizing lengths with
  | nil =>
    cases run
    exact .nil
  | cons sequenceId rest ih =>
    unfold lengthsOf at run
    cases found : cache.lengths.get? sequenceId with
    | none => simp [found] at run
    | some length =>
      cases tail : cache.lengthsOf rest with
      | error raised => simp [found, tail, Except.map] at run
      | ok restLengths =>
        simp only [found, tail, Except.map, Except.ok.injEq] at run
        subst run
        exact .cons found (ih tail)

end ServingPlatform.TorchPagedKVCache

namespace ServingPlatform

/-- No block is in the tables of two owners, as long as nothing is retained. -/
def KVBlockAllocator.Exclusive (a : KVBlockAllocator) : Prop :=
  ∀ first second table table' b, a.owners.get? first = some table → a.owners.get? second = some table' →
    b ∈ table → b ∈ table' → first = second

namespace TorchPagedKVCache

variable {α : Type} {cache : TorchPagedKVCache α} {contents : SequenceContents α}

/-- The pool holds every live sequence's list at the slots of its block table. -/
structure Represents (cache : TorchPagedKVCache α) (contents : SequenceContents α) : Prop where
  consistent : cache.allocator.Consistent
  exclusive : cache.allocator.Exclusive
  blockSize : cache.allocator.dimensions.blockSizeTokens = cache.config.blockSizeTokens
  lengths : ∀ id, cache.lengths.get? id = (contents id).map List.length
  live : ∀ id, (cache.allocator.owners.get? id).isSome = (contents id).isSome
  stored : ∀ id table columns, cache.allocator.owners.get? id = some table → contents id = some columns →
    ∀ token column, columns[token]? = some column → ∃ place,
      Paging.slot table cache.config.blockSizeTokens token = some place ∧
        HoldsColumn cache.config cache.pools place column

theorem Represents.sameTables {allocator : KVBlockAllocator} (before : Represents cache contents)
    (same : KVBlockAllocator.SameTables cache.allocator allocator) :
    Represents { cache with allocator } contents where
  consistent := same.consistent before.consistent
  exclusive := by
    show allocator.Exclusive
    unfold KVBlockAllocator.Exclusive
    rw [same.owners]
    exact before.exclusive
  blockSize := by rw [← before.blockSize]; exact congrArg _ same.dimensions
  lengths := before.lengths
  live id := by rw [← before.live id]; exact congrArg (fun owners => (owners.get? id).isSome) same.owners
  stored id table columns found := before.stored id table columns (same.owners ▸ found)

section Allocate

theorem Represents.allocated {allocator : KVBlockAllocator} {id : String} {n : Nat}
    (before : Represents cache contents) (fresh : cache.allocator.owners.get? id = none)
    (grown : KVBlockAllocator.Grown cache.allocator allocator id [] n) :
    Represents { cache with allocator, lengths := cache.lengths.insert id 0 }
      (Function.update contents id (some [])) := by
  have owners : ∀ other, allocator.owners.get? other =
      if other = id then some (cache.allocator.free.take n) else cache.allocator.owners.get? other := by
    intro other
    rw [grown.owners, Dict.get?_insert, List.nil_append]
  have apart : ∀ other table b, cache.allocator.owners.get? other = some table → b ∈ table →
      b ∉ cache.allocator.free.take n := fun other table b found member taken =>
    before.consistent.table_not_free found member (List.mem_of_mem_take taken)
  refine ⟨grown.consistent (Or.inr ⟨fresh, rfl⟩) before.consistent, ?_, ?_, fun other => ?_, fun other => ?_, ?_⟩
  · intro first second table table' b atFirst atSecond inFirst inSecond
    rw [owners] at atFirst atSecond
    split at atFirst <;> split at atSecond
    · rename_i here there
      rw [here, there]
    · cases atFirst
      exact absurd inFirst (apart second table' b atSecond inSecond)
    · cases atSecond
      exact absurd inSecond (apart first table b atFirst inFirst)
    · exact before.exclusive first second table table' b atFirst atSecond inFirst inSecond
  · show allocator.dimensions.blockSizeTokens = _
    rw [grown.dimensions]
    exact before.blockSize
  · show (cache.lengths.insert id 0).get? other = _
    rw [Dict.get?_insert, Function.update_apply]
    split
    · rfl
    · exact before.lengths other
  · show (allocator.owners.get? other).isSome = _
    rw [owners, Function.update_apply]
    split
    · rfl
    · exact before.live other
  · intro other table columns found listed token column inside
    rw [Function.update_apply] at listed
    split at listed
    · cases listed
      cases inside
    · rename_i differ
      rw [show allocator.owners.get? other = cache.allocator.owners.get? other from
        (owners other).trans (if_neg differ)] at found
      exact before.stored other table columns found listed token column inside

theorem allocate_represents [Zero α] (before : Represents cache contents) (id : String) (tokens : Int) :
    Represents (cache.allocate id tokens).2
      (contents.record (.allocate id tokens) ((cache.allocate id tokens).1.map .sequence)) := by
  unfold allocate
  by_cases positive : tokens ≤ 0
  · rw [if_pos positive]
    exact before
  rw [if_neg positive]
  rcases cache.allocator.allocate_cases id tokens with
    ⟨raised, allocator, run, same⟩ | ⟨n, allocator, run, -, -, fresh, grown⟩
  · rw [run]
    exact before.sameTables same
  · have found : allocator.owners.get? id = some (cache.allocator.free.take n) := by
      rw [grown.owners, Dict.get?_insert_self, List.nil_append]
    rw [run]
    simp only [KVBlockAllocator.table, KVBlockAllocator.blockTable, found, Except.map]
    exact before.allocated fresh grown

end Allocate

section Release

theorem Represents.released {allocator : KVBlockAllocator} {id : String} {table : List BlockId}
    (before : Represents cache contents)
    (released : KVBlockAllocator.Released cache.allocator allocator id table) :
    Represents { cache with allocator, lengths := cache.lengths.erase id }
      (Function.update contents id none) := by
  have owners : ∀ other, allocator.owners.get? other =
      if other = id then none else cache.allocator.owners.get? other := by
    intro other
    rw [released.owners, Dict.get?_erase]
  refine ⟨released.consistent before.consistent, ?_, ?_, fun other => ?_, fun other => ?_, ?_⟩
  · intro first second left right b atFirst atSecond
    rw [owners] at atFirst atSecond
    split at atFirst
    · cases atFirst
    split at atSecond
    · cases atSecond
    exact before.exclusive first second left right b atFirst atSecond
  · show allocator.dimensions.blockSizeTokens = _
    rw [released.dimensions]
    exact before.blockSize
  · show (cache.lengths.erase id).get? other = _
    rw [Dict.get?_erase, Function.update_apply]
    split
    · rfl
    · exact before.lengths other
  · show (allocator.owners.get? other).isSome = _
    rw [owners, Function.update_apply]
    split
    · rfl
    · exact before.live other
  · intro other left columns found listed
    rw [Function.update_apply] at listed
    split at listed
    · cases listed
    · rename_i differ
      rw [show allocator.owners.get? other = cache.allocator.owners.get? other from
        (owners other).trans (if_neg differ)] at found
      exact before.stored other left columns found listed

theorem release_represents [Zero α] (before : Represents cache contents) (id : String) :
    Represents (cache.release id).2
      (contents.record (.release id) ((cache.release id).1.map .flag)) := by
  unfold release
  rcases KVBlockAllocator.release_cases before.consistent id with ⟨run, absent⟩ | ⟨table, allocator, run, released⟩
  · rw [run]
    have unlisted : contents id = none := by
      have live := before.live id
      rw [absent] at live
      exact Option.isNone_iff_eq_none.mp (by simpa using live.symm)
    have same : Function.update contents id none = contents := by
      rw [← unlisted, Function.update_eq_self]
    show Represents { cache with lengths := cache.lengths.erase id, allocator := cache.allocator }
      (Function.update contents id none)
    rw [same]
    refine ⟨before.consistent, before.exclusive, before.blockSize, fun other => ?_, before.live, before.stored⟩
    show (cache.lengths.erase id).get? other = _
    rw [Dict.get?_erase]
    split
    · rename_i here
      rw [here, unlisted]
      rfl
    · exact before.lengths other
  · rw [run]
    exact before.released released

end Release

end TorchPagedKVCache

end ServingPlatform
