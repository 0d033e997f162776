import ServingPlatform.PagedKv.AppendRefinement

namespace ServingPlatform.TorchPagedKVCache

variable {α : Type} [Zero α] {cache : TorchPagedKVCache α} {contents : SequenceContents α}

/-- The pool and the recorded lists after a sequence of calls, whether they return or raise. -/
def performAll (cache : TorchPagedKVCache α) (contents : SequenceContents α) (calls : List (PagedCall α)) :
    TorchPagedKVCache α × SequenceContents α :=
  calls.foldl (fun state call => ((state.1.perform call).2, state.2.record call (state.1.perform call).1))
    (cache, contents)

theorem perform_represents (before : Represents cache contents) (call : PagedCall α) :
    Represents (cache.perform call).2 (contents.record call (cache.perform call).1) := by
  cases call with
  | allocate id tokens => exact allocate_represents before id tokens
  | append id keys values => exact append_represents before id keys values
  | release id => exact release_represents before id

theorem performAll_represents (before : Represents cache contents) (calls : List (PagedCall α)) :
    Represents (cache.performAll contents calls).1 (cache.performAll contents calls).2 := by
  induction calls generalizing cache contents with
  | nil => exact before
  | cons call rest ih => exact ih (perform_represents before call)

omit [Zero α] in
theorem perform_config (cache : TorchPagedKVCache α) (call : PagedCall α) :
    (cache.perform call).2.config = cache.config := by
  cases call with
  | allocate id tokens =>
    unfold perform allocate
    dsimp only
    split
    · rfl
    · split <;> rfl
  | append id keys values =>
    unfold perform
    dsimp only
    rcases cache.append_cases id keys values with ⟨raised, run⟩ | ⟨start, tokens, table, result, pools, -, -, run⟩
    · rw [run]
    · rw [run]
      cases result <;> rfl
  | release id => rfl

theorem performAll_config (cache : TorchPagedKVCache α) (contents : SequenceContents α)
    (calls : List (PagedCall α)) :
    (cache.performAll contents calls).1.config = cache.config := by
  induction calls generalizing cache contents with
  | nil => rfl
  | cons call rest ih => exact (ih _ _).trans (perform_config cache call)

omit [Zero α] in
theorem Represents.lengthsOf (represents : Represents cache contents) (sequenceIds : List String) :
    cache.lengthsOf sequenceIds = contents.lengthsOf sequenceIds := by
  induction sequenceIds with
  | nil => rfl
  | cons id rest ih =>
    unfold TorchPagedKVCache.lengthsOf SequenceContents.lengthsOf
    rw [represents.lengths, ih]
    cases contents id <;> rfl

/-- A gathered row shows its sequence's columns and keeps its padding. -/
theorem Represents.rowEntry (represents : Represents cache contents) {id : String} {columns : List (TokenColumns α)}
    (listed : contents id = some columns) {layer : Nat} (bound : layer < cache.config.numLayers) (h t d : Nat) :
    rowEntry cache.config cache.pools.keyPages layer (cache.tableOf id) columns.length h t d 0 =
        (if h < cache.config.numKvHeads ∧ d < cache.config.headDim then
          columns[t]?.elim 0 fun column => column.key layer h d else 0) ∧
      rowEntry cache.config cache.pools.valuePages layer (cache.tableOf id) columns.length h t d 0 =
        (if h < cache.config.numKvHeads ∧ d < cache.config.headDim then
          columns[t]?.elim 0 fun column => column.value layer h d else 0) := by
  unfold TorchPagedKVCache.rowEntry
  by_cases shape : h < cache.config.numKvHeads ∧ d < cache.config.headDim
  · by_cases inside : t < columns.length
    · have live := represents.live id
      rw [listed, Option.isSome_some, Option.isSome_iff_exists] at live
      obtain ⟨table, found⟩ := live
      have atToken := List.getElem?_eq_getElem inside
      obtain ⟨place, atPlace, held⟩ := represents.stored id table columns found listed t _ atToken
      obtain ⟨key, value⟩ := held layer h d bound shape.1 shape.2
      have atTable : cache.tableOf id = table := by
        unfold tableOf
        rw [found]
        rfl
      simp only [shape, inside, and_self, if_true, atTable, atPlace, atToken, Option.elim_some]
      exact ⟨key, value⟩
    · simp [inside]
  · have outside : ¬ (h < cache.config.numKvHeads ∧ t < columns.length ∧ d < cache.config.headDim) :=
      fun all => shape ⟨all.1, all.2.2⟩
    simp only [outside, shape, if_false, and_self]

/-- The pool's gather is the batch read off the lists, errors included. -/
theorem Represents.materialize (represents : Represents cache contents) (layer : Int) (sequenceIds : List String) :
    cache.materialize layer sequenceIds = contents.materialize cache.config layer sequenceIds := by
  unfold TorchPagedKVCache.materialize SequenceContents.materialize
  by_cases range : ¬ (0 ≤ layer ∧ layer < cache.config.numLayers)
  · rw [if_pos range, if_pos range]
  rw [if_neg range, if_neg range, ← represents.lengthsOf]
  cases run : cache.lengthsOf sequenceIds with
  | error raised => rfl
  | ok lengths =>
    have paired := cache.lengthsOf_ok run
    have bound : layer.toNat < cache.config.numLayers := by omega
    have rowAt : ∀ r : Nat, (rowOf (sequenceIds.zip lengths) 0 r = none ∧ sequenceIds[r]? = none) ∨
        ∃ id columns, rowOf (sequenceIds.zip lengths) 0 r = some (id, columns.length) ∧
          sequenceIds[r]? = some id ∧ contents id = some columns := by
      intro r
      by_cases inside : r < sequenceIds.length
      · have within : r < lengths.length := paired.length_eq ▸ inside
        obtain ⟨columns, listed, length⟩ := Option.map_eq_some_iff.mp
          ((represents.lengths _).symm.trans (paired.get inside within))
        refine Or.inr ⟨sequenceIds[r], columns, ?_, List.getElem?_eq_getElem inside, listed⟩
        rw [length]
        simp [rowOf, inside, within]
      · refine Or.inl ⟨?_, List.getElem?_eq_none (by omega)⟩
        simp only [rowOf, Nat.zero_le, if_true, Nat.sub_zero]
        exact List.getElem?_eq_none (by rw [List.length_zip]; omega)
    have known : ∀ pair ∈ sequenceIds.zip lengths, ∃ table, cache.allocator.owners.get? pair.1 = some table := by
      rintro ⟨id, length⟩ member
      have held := List.forall₂_iff_zip.mp paired |>.2 member
      rw [represents.lengths, Option.map_eq_some_iff] at held
      obtain ⟨columns, listed, -⟩ := held
      have live := represents.live id
      rw [listed, Option.isSome_some, Option.isSome_iff_exists] at live
      exact live
    dsimp only
    rw [gatherRows_ok cache _ _ known]
    congr 4
    unfold gathered SequenceContents.batch SequenceContents.tokenAt GatheredBatch.zeros
    simp only [GatheredBatch.mk.injEq, true_and]
    refine ⟨?_, ?_, ?_⟩
    · funext r h t d
      rcases rowAt r with ⟨noRow, noId⟩ | ⟨id, columns, atRow, atId, listed⟩
      · simp [noRow, noId]
      · simp only [atRow, atId, listed, Option.bind_some, (represents.rowEntry listed bound h t d).1]
    · funext r h t d
      rcases rowAt r with ⟨noRow, noId⟩ | ⟨id, columns, atRow, atId, listed⟩
      · simp [noRow, noId]
      · simp only [atRow, atId, listed, Option.bind_some, (represents.rowEntry listed bound h t d).2]
    · funext r t
      rcases rowAt r with ⟨noRow, noId⟩ | ⟨id, columns, atRow, atId, listed⟩
      · simp [noRow, noId]
      · simp only [atRow, atId, listed, Option.bind_some]
        by_cases inside : t < columns.length <;> simp [inside]

omit [Zero α] in
theorem init_represents {torch : Torch} {config : PagedKVConfig} {keyPages valuePages : Pages α}
    (made : init torch config keyPages valuePages = .ok cache) :
    Represents cache (fun _ => none) ∧ cache.config = config := by
  unfold init at made
  split at made
  · cases made
  · cases made
    refine ⟨⟨KVBlockAllocator.ofDimensions_consistent _, ?_, rfl, fun _ => rfl, fun _ => rfl, ?_⟩, rfl⟩
    · intro first second table table' b found
      simp [KVBlockAllocator.ofDimensions] at found
    · intro id table columns found
      simp [KVBlockAllocator.ofDimensions] at found

/-- A tensor of a wrong rank, if there is one, is the first to be copied. -/
def RefusedInTime (keys values : List (Tensor α)) : Prop :=
  (∀ tensor ∈ keys ++ values, tensor.shape.length ≤ 3) ∨ ∀ key, keys[0]? = some key → key.shape.length ≠ 3

omit [Zero α] in
/-- A raising append changes no length, and no page unless a tensor of a
higher rank is met after the first key was copied. -/
theorem Represents.append_error {raised : Raised} {id : String} {keys values : List (Tensor α)}
    (represents : Represents cache contents) (failed : (cache.append id keys values).1 = .error raised) :
    (cache.append id keys values).2.lengths = cache.lengths ∧
      ((∀ length tokens table, Accepted cache id keys values length tokens table → RefusedInTime keys values) →
        (cache.append id keys values).2.pools = cache.pools) := by
  rcases cache.append_cases id keys values with
    ⟨cause, run⟩ | ⟨start, tokens, table, result, pools, accepted, loop, run⟩
  · rw [run]
    exact ⟨rfl, fun _ => rfl⟩
  cases result with
  | ok done =>
    rw [run] at failed
    cases failed
  | error cause =>
    rw [run]
    refine ⟨rfl, fun condition => ?_⟩
    rcases condition start tokens table accepted with ranks | first
    · have shapes : ∀ tensor ∈ keys ++ values,
          tensor.shape = [cache.config.numKvHeads, tokens, cache.config.headDim] := by
        intro tensor member
        obtain ⟨more, shape⟩ := accepted.shapes tensor member
        have rank := ranks tensor member
        rw [shape] at rank ⊢
        simp only [List.length_cons] at rank
        rw [List.length_eq_zero_iff.mp (by omega : more.length = 0)]
      have room := accepted.room
      rw [represents.blockSize] at room
      obtain ⟨after, complete⟩ := writeTokens_of_shape cache.torch 0 cache.pools shapes accepted.keyCount
        accepted.valueCount room
      cases loop.symm.trans complete
    · have some_layer : 0 < keys.length := accepted.keyCount ▸ cache.config.layersPositive
      have atFirst := List.getElem?_eq_getElem some_layer
      exact writeTokens_refused atFirst (first _ atFirst) loop

/-- Over every run the gather shows exactly the appended columns, calls on
other sequences never show, and a raising append changes no length; it
changes no page either unless a tensor of a wrong rank passes the checks. -/
theorem runs_refine_lists (torch : Torch) (config : PagedKVConfig) (keyPages valuePages : Pages α)
    (calls : List (PagedCall α)) {start : TorchPagedKVCache α}
    (made : init torch config keyPages valuePages = .ok start)
    (reached : (cache, contents) = start.performAll (fun _ => none) calls) :
    (∀ layer ids, cache.materialize layer ids = contents.materialize config layer ids) ∧
      (∀ call layer ids, PagedCall.sequenceId call ∉ ids →
        (cache.perform call).2.materialize layer ids = cache.materialize layer ids) ∧
      ∀ id keys values raised, (cache.append id keys values).1 = .error raised →
        (cache.append id keys values).2.lengths = cache.lengths ∧
          ((∀ length tokens table, Accepted cache id keys values length tokens table → RefusedInTime keys values) →
            (cache.append id keys values).2.pools = cache.pools) := by
  obtain ⟨fresh, sameConfig⟩ := init_represents made
  have represents : Represents cache contents := by
    have all := performAll_represents fresh calls
    rw [← reached] at all
    exact all
  have configured : cache.config = config := by
    have all := performAll_config start (fun _ => none) calls
    rw [← reached] at all
    exact all.trans sameConfig
  refine ⟨fun layer ids => configured ▸ represents.materialize layer ids, fun call layer ids apart => ?_, ?_⟩
  · rw [represents.materialize, (perform_represents represents call).materialize, perform_config]
    refine SequenceContents.materialize_congr _ layer fun id member => ?_
    exact contents.record_of_ne call _ fun same => apart (same ▸ member)
  · intro id keys values raised failed
    exact represents.append_error failed

def oneBlockConfig : PagedKVConfig :=
  ⟨1, 1, 1, 1, 1, "cpu", "float32", Nat.one_pos, Nat.one_pos, Nat.one_pos, Nat.one_pos, Nat.one_pos, by decide, by decide⟩

def cpuTorch : Torch := ⟨false, id, fun destination source =>
  runtimeError s!"output with shape {destination} doesn't match the broadcast shape {source}"⟩

def column (shape : List Nat) (value : Int) : Tensor Int := ⟨shape, "cpu", "float32", fun _ => value⟩

theorem runs_refine_lists_oneToken :
    ∃ start, init cpuTorch oneBlockConfig (fun _ _ _ _ _ => (0 : Int)) (fun _ _ _ _ _ => 0) = .ok start ∧
      let state := start.performAll (fun _ => none) [.allocate "a" 1, .append "a" [column [1, 1, 1] 5] [column [1, 1, 1] 6]]
      state.1.materialize 0 ["a"] = state.2.materialize oneBlockConfig 0 ["a"] :=
  ⟨_, rfl, (runs_refine_lists cpuTorch oneBlockConfig _ _ _ rfl rfl).1 0 ["a"]⟩

/-- A value tensor of rank four is refused after the key page was written. -/
theorem append_writes_before_raising :
    ∃ start, init cpuTorch oneBlockConfig (fun _ _ _ _ _ => (0 : Int)) (fun _ _ _ _ _ => 0) = .ok start ∧
      let before := (start.performAll (fun _ => none) [.allocate "a" 1]).1
      let result := before.append "a" [column [1, 1, 1] 5] [column [1, 1, 1, 1] 6]
      result.1.toBool = false ∧ before.pools.keyPages 0 0 0 0 0 = 0 ∧ result.2.pools.keyPages 0 0 0 0 0 = 5 :=
  ⟨_, rfl, by decide +kernel⟩

end ServingPlatform.TorchPagedKVCache

namespace ServingPlatform

variable {α : Type} [Zero α]

namespace SequenceContents

variable {contents : SequenceContents α} {config : PagedKVConfig} {layer : Int} {ids : List String}

omit [Zero α] in
theorem lengthsOf_cases {lengths : List Nat} (run : contents.lengthsOf ids = .ok lengths) :
    ∀ id ∈ ids, ∃ columns, contents id = some columns ∧ columns.length ≤ lengths.foldr max 0 := by
  induction ids generalizing lengths with
  | nil =>
    intro id none
    cases none
  | cons first rest ih =>
    unfold lengthsOf at run
    cases found : contents first with
    | none => simp [found] at run
    | some columns =>
      cases tail : contents.lengthsOf rest with
      | error raised => simp [found, tail, Except.map] at run
      | ok restLengths =>
        simp only [found, tail, Except.map, Except.ok.injEq] at run
        subst run
        intro id member
        rcases List.mem_cons.mp member with rfl | later
        · exact ⟨columns, found, Nat.le_max_left _ _⟩
        · obtain ⟨others, listed, bound⟩ := ih tail id later
          exact ⟨others, listed, Nat.le_trans bound (Nat.le_max_right _ _)⟩

/-- In an accepted batch a row shows a key exactly where its sequence has a column. -/
theorem mask_row {batch : GatheredBatch α} (accepted : contents.materialize config layer ids = .ok batch)
    {row : Nat} {id : String} (atRow : ids[row]? = some id) :
    ∃ columns, contents id = some columns ∧ ((∃ token < batch.tokens, batch.mask row token = true) ↔ columns ≠ []) := by
  unfold materialize at accepted
  split at accepted
  · cases accepted
  split at accepted
  · cases accepted
  split at accepted
  · cases accepted
  split at accepted
  · cases accepted
  rename_i lengths run
  split at accepted
  · cases accepted
  cases accepted
  obtain ⟨columns, listed, bound⟩ := lengthsOf_cases run id (List.mem_of_getElem? atRow)
  have shown : ∀ token, (contents.tokenAt ids row token).isSome = true ↔ token < columns.length := by
    intro token
    simp [tokenAt, atRow, listed]
  refine ⟨columns, listed, ?_, fun some => ?_⟩
  · rintro ⟨token, -, visible⟩ none
    have inside := (shown token).mp visible
    rw [none] at inside
    exact Nat.not_lt_zero _ inside
  · have positive : 0 < columns.length := List.length_pos_of_ne_nil some
    exact ⟨0, Nat.lt_of_lt_of_le positive bound, (shown 0).mpr positive⟩

end SequenceContents

namespace TorchPagedKVCache

variable {cache : TorchPagedKVCache α} {contents : SequenceContents α}

/-- In every run, an accepted batch shows a key in each of its rows exactly
when none of its sequences is empty. -/
theorem attention_rows_defined_iff (torch : Torch) (config : PagedKVConfig) (keyPages valuePages : Pages α)
    (calls : List (PagedCall α)) {start : TorchPagedKVCache α}
    (made : init torch config keyPages valuePages = .ok start)
    (reached : (cache, contents) = start.performAll (fun _ => none) calls) {layer : Int} {ids : List String}
    {batch : GatheredBatch α} (accepted : cache.materialize layer ids = .ok batch) :
    (∀ row < ids.length, ∃ token < batch.tokens, batch.mask row token = true) ↔
      ∀ id ∈ ids, cache.lengths.get? id ≠ some 0 := by
  obtain ⟨fresh, -⟩ := init_represents made
  have represents : Represents cache contents := by
    have all := performAll_represents fresh calls
    rw [← reached] at all
    exact all
  rw [represents.materialize] at accepted
  have rowOf : ∀ row id, ids[row]? = some id →
      ((∃ token < batch.tokens, batch.mask row token = true) ↔ cache.lengths.get? id ≠ some 0) := by
    intro row id atRow
    obtain ⟨columns, listed, visible⟩ := SequenceContents.mask_row accepted atRow
    rw [visible, represents.lengths, listed, Option.map_some, not_iff_not, Option.some.injEq, List.length_eq_zero_iff]
  constructor
  · intro rows id member
    obtain ⟨row, bound, same⟩ := List.getElem_of_mem member
    exact (rowOf row id (List.getElem?_eq_some_iff.mpr ⟨bound, same⟩)).mp (rows row bound)
  · intro filled row bound
    exact (rowOf row _ (List.getElem?_eq_getElem bound)).mpr (filled _ (List.getElem_mem bound))

def twoBlockConfig : PagedKVConfig := { oneBlockConfig with totalBlocks := 2, totalPositive := Nat.two_pos }

/-- One sequence has a token, the other is only allocated. -/
def oneFilled : List (PagedCall Int) :=
  [.allocate "a" 1, .append "a" [column [1, 1, 1] 5] [column [1, 1, 1] 6], .allocate "b" 1]

/-- What a batch of a pool shows after some calls. -/
def showsBatch (made : Except Raised (TorchPagedKVCache Int)) (calls : List (PagedCall Int)) (ids : List String)
    (seen : GatheredBatch Int → Bool) : Bool :=
  match made with
  | .error _ => false
  | .ok start =>
    match (start.performAll (fun _ => none) calls).1.materialize 0 ids with
    | .error _ => false
    | .ok batch => seen batch

theorem showsBatch_accepted {made : Except Raised (TorchPagedKVCache Int)} {calls : List (PagedCall Int)}
    {ids : List String} {seen : GatheredBatch Int → Bool} (shown : showsBatch made calls ids seen = true) :
    ∃ start, made = .ok start ∧
      ∃ batch, (start.performAll (fun _ => none) calls).1.materialize 0 ids = .ok batch ∧ seen batch = true := by
  cases made with
  | error raised => cases shown
  | ok start =>
    unfold showsBatch at shown
    dsimp only at shown
    split at shown
    · cases shown
    · rename_i batch accepted
      exact ⟨start, rfl, batch, accepted, shown⟩

theorem attention_rows_defined_oneFilled :
    ∃ start, init cpuTorch twoBlockConfig (fun _ _ _ _ _ => (0 : Int)) (fun _ _ _ _ _ => 0) = .ok start ∧
      ∃ batch, (start.performAll (fun _ => none) oneFilled).1.materialize 0 ["a"] = .ok batch ∧
        ((∀ row < ["a"].length, ∃ token < batch.tokens, batch.mask row token = true) ↔
          ∀ id ∈ ["a"], (start.performAll (fun _ => none) oneFilled).1.lengths.get? id ≠ some 0) := by
  have shown : showsBatch (init cpuTorch twoBlockConfig (fun _ _ _ _ _ => (0 : Int)) (fun _ _ _ _ _ => 0)) oneFilled ["a"]
      (fun _ => true) = true := by decide +kernel
  obtain ⟨start, made, batch, accepted, -⟩ := showsBatch_accepted shown
  exact ⟨start, made, batch, accepted,
    attention_rows_defined_iff cpuTorch twoBlockConfig _ _ oneFilled made Prod.mk.eta accepted⟩

/-- A batch with an empty sequence is accepted when another one is not empty. -/
theorem attention_accepts_empty_row :
    ∃ start, init cpuTorch twoBlockConfig (fun _ _ _ _ _ => (0 : Int)) (fun _ _ _ _ _ => 0) = .ok start ∧
      ∃ batch, (start.performAll (fun _ => none) oneFilled).1.materialize 0 ["a", "b"] = .ok batch ∧
        ∀ token < batch.tokens, batch.mask 1 token = false := by
  have shown : showsBatch (init cpuTorch twoBlockConfig (fun _ _ _ _ _ => (0 : Int)) (fun _ _ _ _ _ => 0)) oneFilled
      ["a", "b"] (fun batch => decide (∀ token < batch.tokens, batch.mask 1 token = false)) = true := by
    decide +kernel
  obtain ⟨start, made, batch, accepted, empty⟩ := showsBatch_accepted shown
  exact ⟨start, made, batch, accepted, of_decide_eq_true empty⟩

end TorchPagedKVCache

end ServingPlatform
