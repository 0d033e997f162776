import ServingPlatform.PagedKv.Refinement

namespace ServingPlatform

variable {α : Type}

theorem Tensor.dimension_ok {tensor : Tensor α} {axis size : Nat} (run : tensor.dimension axis = .ok size) :
    tensor.shape[axis]? = some size := by
  unfold Tensor.dimension at run
  split at run
  · cases run
  · rename_i found
    cases run
    exact found

theorem tokenCounts_mem {tensors : List (Tensor α)} {counts : List Nat} (run : tokenCounts tensors = .ok counts) :
    ∀ tensor ∈ tensors, ∃ count ∈ counts, tensor.shape[1]? = some count := by
  induction tensors generalizing counts with
  | nil => simp
  | cons first rest ih =>
    unfold tokenCounts at run
    split at run
    · cases run
    · cases run
    · rename_i count counts' atFirst atRest
      cases run
      intro tensor member
      rcases List.mem_cons.mp member with rfl | later
      · exact ⟨count, List.mem_insert_self .., Tensor.dimension_ok atFirst⟩
      · obtain ⟨other, listed, atTensor⟩ := ih atRest tensor later
        exact ⟨other, List.mem_insert_of_mem listed, atTensor⟩

namespace TorchPagedKVCache

variable {cache : TorchPagedKVCache α} {contents : SequenceContents α}

theorem checkTensor_ok {tensor : Tensor α} (run : cache.checkTensor tensor = .ok ()) :
    tensor.shape[0]? = some cache.config.numKvHeads ∧ tensor.shape[2]? = some cache.config.headDim := by
  unfold checkTensor at run
  cases heads : tensor.dimension 0 with
  | error raised => simp [heads, bind, Except.bind] at run
  | ok headCount =>
    by_cases sameHeads : headCount = cache.config.numKvHeads
    · cases dims : tensor.dimension 2 with
      | error raised => simp [heads, sameHeads, dims, bind, Except.bind] at run
      | ok dim =>
        by_cases sameDim : dim = cache.config.headDim
        · exact ⟨sameHeads ▸ Tensor.dimension_ok heads, sameDim ▸ Tensor.dimension_ok dims⟩
        · simp [heads, sameHeads, dims, sameDim, bind, Except.bind, throw, throwThe, MonadExceptOf.throw] at run
    · simp [heads, sameHeads, bind, Except.bind, throw, throwThe, MonadExceptOf.throw] at run

theorem checkTensors_ok {tensors : List (Tensor α)} (run : cache.checkTensors tensors = .ok ()) :
    ∀ tensor ∈ tensors, cache.checkTensor tensor = .ok () := by
  induction tensors with
  | nil => simp
  | cons first rest ih =>
    unfold checkTensors at run
    split at run
    · cases run
    · rename_i atFirst
      intro tensor member
      rcases List.mem_cons.mp member with rfl | later
      · exact atFirst
      · exact ih run tensor later

/-- What an append has established when it starts to write. -/
structure Accepted (cache : TorchPagedKVCache α) (id : String) (keys values : List (Tensor α))
    (start tokens : Nat) (table : List BlockId) : Prop where
  keyCount : keys.length = cache.config.numLayers
  valueCount : values.length = cache.config.numLayers
  atStart : cache.lengths.get? id = some start
  nonempty : 0 < tokens
  shapes : ∀ tensor ∈ keys ++ values, ∃ more,
    tensor.shape = cache.config.numKvHeads :: tokens :: cache.config.headDim :: more
  owned : cache.allocator.owners.get? id = some table
  room : start + tokens ≤ table.length * cache.allocator.dimensions.blockSizeTokens

/-- An append is refused with nothing changed, or runs its copy loop. -/
theorem append_cases (cache : TorchPagedKVCache α) (id : String) (keys values : List (Tensor α)) :
    (∃ raised, cache.append id keys values = (.error raised, cache)) ∨
      ∃ start tokens table result pools, Accepted cache id keys values start tokens table ∧
        writeTokens cache.config cache.torch keys values table start tokens 0 cache.pools = (result, pools) ∧
        cache.append id keys values = match result with
          | .error raised => (.error raised, { cache with pools })
          | .ok () =>
            (.ok ⟨id, ⟨id, table, cache.allocator.dimensions.blockSizeTokens⟩, start + tokens⟩,
              { cache with pools, lengths := cache.lengths.insert id (start + tokens) }) := by
  unfold append
  by_cases layers : keys.length ≠ cache.config.numLayers ∨ values.length ≠ cache.config.numLayers
  · rw [if_pos layers]
    exact Or.inl ⟨_, rfl⟩
  rw [if_neg layers]
  cases atStart : cache.lengths.get? id with
  | none => exact Or.inl ⟨_, rfl⟩
  | some start =>
    dsimp only
    split
    · exact Or.inl ⟨_, rfl⟩
    · rename_i tokens counted
      by_cases empty : tokens = 0
      · rw [if_pos empty]
        exact Or.inl ⟨_, rfl⟩
      rw [if_neg empty]
      cases checked : cache.checkTensors (keys ++ values) with
      | error raised => exact Or.inl ⟨raised, rfl⟩
      | ok done =>
        cases owned : cache.allocator.owners.get? id with
        | none =>
          simp only [KVBlockAllocator.table, KVBlockAllocator.blockTable, owned, Except.map]
          exact Or.inl ⟨_, rfl⟩
        | some table =>
          simp only [KVBlockAllocator.table, KVBlockAllocator.blockTable, owned, Except.map,
            KVBlockTable.tokenCapacity]
          by_cases isOver : table.length * cache.allocator.dimensions.blockSizeTokens < start + tokens
          · simp only [isOver, if_true]
            exact Or.inl ⟨_, rfl⟩
          simp only [isOver, if_false]
          obtain ⟨result, pools, run⟩ : ∃ result pools, writeTokens cache.config cache.torch keys values table
            start tokens 0 cache.pools = (result, pools) := ⟨_, _, rfl⟩
          refine Or.inr ⟨start, tokens, table, result, pools, ⟨?_, ?_, atStart, by omega, ?_, owned, by omega⟩, run, ?_⟩
          · exact not_not.mp fun differ => layers (Or.inl differ)
          · exact not_not.mp fun differ => layers (Or.inr differ)
          · intro tensor member
            obtain ⟨count, listed, atOne⟩ := tokenCounts_mem counted tensor member
            obtain ⟨atZero, atTwo⟩ := checkTensor_ok (checkTensors_ok checked tensor member)
            cases List.mem_singleton.mp listed
            rcases shape : tensor.shape with _ | ⟨heads, _ | ⟨count, _ | ⟨dim, more⟩⟩⟩
            · simp [shape] at atTwo
            · simp [shape] at atTwo
            · simp [shape] at atTwo
            · simp only [shape, List.getElem?_cons_zero, List.getElem?_cons_succ, Option.some.injEq] at atZero atOne atTwo
              exact ⟨more, by rw [atZero, atOne, atTwo]⟩
          · rw [run]
            cases result <;> rfl
    · exact Or.inl ⟨_, rfl⟩

/-- Writing behind a sequence's length leaves every stored column in place. -/
theorem Represents.overwritten {id : String} {keys values : List (Tensor α)} {start tokens : Nat}
    {table : List BlockId} {pools : PagePools α} (before : Represents cache contents)
    (accepted : Accepted cache id keys values start tokens table)
    (agree : AgreeOutside cache.config (AppendPlaces cache.config table start tokens 0) cache.pools pools) :
    Represents { cache with pools } contents := by
  refine ⟨before.consistent, before.exclusive, before.blockSize, before.lengths, before.live, ?_⟩
  intro other left columns found listed token column inside
  obtain ⟨place, atPlace, held⟩ := before.stored other left columns found listed token column inside
  refine ⟨place, atPlace, held.of_agree agree ?_⟩
  rintro ⟨i, -, -, written⟩
  have same := before.exclusive other id left table place.1 found accepted.owned (Paging.slot_mem atPlace)
    (Paging.slot_mem written)
  subst same
  cases found.symm.trans accepted.owned
  have position := Paging.slot_injective (before.consistent.tablesNodup other table found) atPlace written
  have length := (before.lengths other).symm.trans accepted.atStart
  rw [listed, Option.map_some, Option.some.injEq] at length
  have bound := (List.getElem?_eq_some_iff.mp inside).1
  omega

theorem appendedColumns_eq [Zero α] {id : String} {keys values : List (Tensor α)} {start tokens : Nat}
    {table : List BlockId} (accepted : Accepted cache id keys values start tokens table) :
    appendedColumns keys values = (List.range tokens).map (columnAt keys values) := by
  have some_layer : 0 < keys.length := accepted.keyCount ▸ cache.config.layersPositive
  obtain ⟨first, rest, rfl⟩ := List.exists_cons_of_length_pos some_layer
  obtain ⟨more, shape⟩ := accepted.shapes first (List.mem_append_left _ (List.mem_cons_self ..))
  unfold appendedColumns
  simp [shape]

theorem append_represents [Zero α] (before : Represents cache contents) (id : String)
    (keys values : List (Tensor α)) :
    Represents (cache.append id keys values).2
      (contents.record (.append id keys values) ((cache.append id keys values).1.map .sequence)) := by
  rcases cache.append_cases id keys values with
    ⟨raised, run⟩ | ⟨start, tokens, table, result, pools, accepted, loop, run⟩
  · rw [run]
    exact before
  have kept := before.overwritten accepted (writeTokens_agree loop)
  cases result with
  | error raised =>
    rw [run]
    exact kept
  | ok done =>
    rw [run]
    have distinct := before.consistent.tablesNodup id table accepted.owned
    have written := writeTokens_written distinct accepted.keyCount accepted.valueCount loop
    have length := (before.lengths id).symm.trans accepted.atStart
    obtain ⟨old, listed, oldLength⟩ := Option.map_eq_some_iff.mp length
    have columns : (contents id).map (· ++ appendedColumns keys values) =
        some (old ++ (List.range tokens).map (columnAt keys values)) := by
      rw [listed, Option.map_some, appendedColumns_eq accepted]
    show Represents { cache with pools, lengths := cache.lengths.insert id (start + tokens) }
      (Function.update contents id ((contents id).map (· ++ appendedColumns keys values)))
    rw [columns]
    refine ⟨before.consistent, before.exclusive, before.blockSize, fun other => ?_, fun other => ?_, ?_⟩
    · show (cache.lengths.insert id (start + tokens)).get? other = _
      rw [Dict.get?_insert, Function.update_apply]
      split
      · simp [oldLength]
      · exact before.lengths other
    · rw [Function.update_apply]
      split
      · rename_i here
        show (cache.allocator.owners.get? other).isSome = true
        rw [here, accepted.owned]
        rfl
      · exact before.live other
    · intro other left listing found given token column inside
      rw [Function.update_apply] at given
      split at given
      · rename_i here
        subst here
        cases given
        cases accepted.owned.symm.trans found
        by_cases first : token < old.length
        · rw [List.getElem?_append_left first] at inside
          exact kept.stored other table old found listed token column inside
        · rw [List.getElem?_append_right (by omega), List.getElem?_map, Option.map_eq_some_iff] at inside
          obtain ⟨i, atIndex, rfl⟩ := inside
          obtain ⟨bound, same⟩ := List.getElem?_eq_some_iff.mp atIndex
          rw [List.getElem_range] at same
          rw [List.length_range] at bound
          obtain ⟨place, atPlace, held⟩ := written i (Nat.zero_le i) (by omega)
          have position : start + i = token := by omega
          exact ⟨place, position ▸ atPlace, held⟩
      · exact kept.stored other left listing found given token column inside

end TorchPagedKVCache

end ServingPlatform
