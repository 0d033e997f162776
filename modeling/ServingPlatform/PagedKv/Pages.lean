import ServingPlatform.KvCache.Allocator

namespace ServingPlatform

/-- The configuration, with the checks of `__post_init__` as fields. -/
structure PagedKVConfig where
  totalBlocks : Nat
  blockSizeTokens : Nat
  numLayers : Nat
  numKvHeads : Nat
  headDim : Nat
  device : String
  dtype : String
  totalPositive : 0 < totalBlocks
  blockSizePositive : 0 < blockSizeTokens
  layersPositive : 0 < numLayers
  headsPositive : 0 < numKvHeads
  headDimPositive : 0 < headDim
  knownDevice : device = "cpu" ∨ "cuda".toList <+: device.toList
  knownDtype : dtype ∈ ["float16", "bfloat16", "float32"]

def PagedKVConfig.ofArguments (totalBlocks blockSizeTokens numLayers numKvHeads headDim : Int)
    (device dtype : String) : Except Raised PagedKVConfig :=
  if sizes : 0 < totalBlocks ∧ 0 < blockSizeTokens ∧ 0 < numLayers ∧ 0 < numKvHeads ∧ 0 < headDim then
    if knownDevice : device = "cpu" ∨ "cuda".toList <+: device.toList then
      if knownDtype : dtype ∈ ["float16", "bfloat16", "float32"] then
        .ok ⟨totalBlocks.toNat, blockSizeTokens.toNat, numLayers.toNat, numKvHeads.toNat, headDim.toNat,
          device, dtype, by omega, by omega, by omega, by omega, by omega, knownDevice, knownDtype⟩
      else .error (valueError "paged KV dtype must be float16, bfloat16, or float32")
    else .error (valueError "paged KV device must be cpu, cuda, or cuda:<index>")
  else .error (valueError "paged KV dimensions must be positive")

/-- A tensor of any rank; only entries inside its shape are read. -/
structure Tensor (α : Type) where
  shape : List Nat
  device : String
  dtype : String
  entry : List Nat → α

/-- What the cache takes from PyTorch: whether CUDA is available, the name
a device string gets, and the error of a copy between different shapes. -/
structure Torch where
  cudaAvailable : Bool
  deviceName : String → String
  copyError : List Nat → List Nat → Raised

/-- A pool indexed by layer, block, head, token in block and head dimension. -/
abbrev Pages (α : Type) := Nat → BlockId → Nat → Nat → Nat → α

structure PagePools (α : Type) where
  keyPages : Pages α
  valuePages : Pages α

structure PagedSequence where
  sequenceId : String
  blockTable : KVBlockTable
  tokens : Nat

structure TorchPagedKVCache (α : Type) where
  config : PagedKVConfig
  torch : Torch
  pools : PagePools α
  device : String
  allocator : KVBlockAllocator
  lengths : Dict String Nat

def PagedKVConfig.elementSize (config : PagedKVConfig) : Nat := if config.dtype = "float32" then 4 else 2

theorem PagedKVConfig.elementSize_pos (config : PagedKVConfig) : 0 < config.elementSize := by
  unfold elementSize
  split <;> omega

/-- The allocator's dimensions, with its default watermarks. -/
def PagedKVConfig.dimensions (config : PagedKVConfig) : KvDimensions where
  totalBlocks := config.totalBlocks
  blockSizeTokens := config.blockSizeTokens
  bytesPerBlock := 2 * config.numLayers * config.numKvHeads * config.blockSizeTokens * config.headDim *
    config.elementSize
  highWatermark := 9 / 10
  lowWatermark := 7 / 10
  totalPositive := config.totalPositive
  blockSizePositive := config.blockSizePositive
  bytesPositive := Nat.mul_pos (Nat.mul_pos (Nat.mul_pos (Nat.mul_pos (Nat.mul_pos Nat.two_pos
    config.layersPositive) config.headsPositive) config.blockSizePositive) config.headDimPositive)
    config.elementSize_pos
  watermarks := defaultWatermarks

variable {α : Type}

def Tensor.dimension (tensor : Tensor α) (axis : Nat) : Except Raised Nat :=
  match tensor.shape[axis]? with
  | none => .error (indexError "tuple index out of range")
  | some size => .ok size

/-- `{int(tensor.shape[1]) for tensor in ...}` as a list. -/
def tokenCounts : List (Tensor α) → Except Raised (List Nat)
  | [] => .ok []
  | tensor :: rest =>
    match tensor.dimension 1, tokenCounts rest with
    | .error raised, _ => .error raised
    | .ok _, .error raised => .error raised
    | .ok count, .ok counts => .ok (counts.insert count)

/-- `pages[layer, page_id, :, page_offset : page_offset + count, :].copy_(...)`
from the columns of `source` at `sourceOffset`. The sizes were checked, so
nothing broadcasts: different shapes mean a source of higher rank. -/
def copyColumns (config : PagedKVConfig) (torch : Torch) (layer : Nat) (page : BlockId)
    (pageOffset sourceOffset count : Nat) (source : Tensor α) (pages : Pages α) : Except Raised (Pages α) :=
  let destinationShape :=
    [config.numKvHeads, min (pageOffset + count) config.blockSizeTokens - pageOffset, config.headDim]
  let sourceShape := source.shape.modify 1 fun tokens => min (sourceOffset + count) tokens - sourceOffset
  if sourceShape = destinationShape then
    .ok fun l p head token dim =>
      if l = layer ∧ p = page ∧ head < config.numKvHeads ∧ pageOffset ≤ token ∧ token < pageOffset + count ∧
          dim < config.headDim then
        source.entry [head, sourceOffset + (token - pageOffset), dim]
      else pages l p head token dim
  else .error (torch.copyError destinationShape sourceShape)

namespace TorchPagedKVCache

/-- `keyPages` and `valuePages` stand for the uninitialized memory of the two pools. -/
def init (torch : Torch) (config : PagedKVConfig) (keyPages valuePages : Pages α) :
    Except Raised (TorchPagedKVCache α) :=
  if "cuda".toList <+: config.device.toList ∧ torch.cudaAvailable = false then
    .error (runtimeError "CUDA paged KV was requested but CUDA is unavailable")
  else .ok {
    config, torch
    pools := ⟨keyPages, valuePages⟩
    device := torch.deviceName config.device
    allocator := .ofDimensions config.dimensions
    lengths := .empty }

def sequence (cache : TorchPagedKVCache α) (sequenceId : String) : Except Raised PagedSequence :=
  match cache.lengths.get? sequenceId with
  | none => .error (keyError s!"unknown paged KV sequence: {sequenceId}")
  | some tokens => (cache.allocator.table sequenceId).map fun table => ⟨sequenceId, table, tokens⟩

def allocate (cache : TorchPagedKVCache α) (sequenceId : String) (tokenCapacity : Int) :
    Except Raised PagedSequence × TorchPagedKVCache α :=
  if tokenCapacity ≤ 0 then (.error (valueError "paged KV token capacity must be positive"), cache)
  else match cache.allocator.allocate sequenceId tokenCapacity with
    | (.error raised, allocator) => (.error raised, { cache with allocator })
    | (.ok _, allocator) =>
      ((allocator.table sequenceId).map fun table => ⟨sequenceId, table, 0⟩,
        { cache with allocator, lengths := cache.lengths.insert sequenceId 0 })

def checkTensor (cache : TorchPagedKVCache α) (tensor : Tensor α) : Except Raised Unit := do
  let heads ← tensor.dimension 0
  if heads ≠ cache.config.numKvHeads then
    throw (valueError "paged KV tensor shape must be [KV heads, tokens, head dim]")
  let headDim ← tensor.dimension 2
  if headDim ≠ cache.config.headDim then
    throw (valueError "paged KV tensor shape must be [KV heads, tokens, head dim]")
  if tensor.device ≠ cache.device then
    throw (valueError "paged KV tensors must be on the configured device")
  if tensor.dtype ≠ cache.config.dtype then
    throw (valueError "paged KV tensors must use the configured dtype")

def checkTensors (cache : TorchPagedKVCache α) : List (Tensor α) → Except Raised Unit
  | [] => .ok ()
  | tensor :: rest =>
    match cache.checkTensor tensor with
    | .error raised => .error raised
    | .ok () => cache.checkTensors rest

/-- The copies of one page run, layer by layer, keys before values. -/
def copyLayers (config : PagedKVConfig) (torch : Torch) (keys values : List (Tensor α)) (page : BlockId)
    (pageOffset sourceOffset count : Nat) : List Nat → PagePools α → Except Raised Unit × PagePools α
  | [], pools => (.ok (), pools)
  | layer :: rest, pools =>
    match keys[layer]?, values[layer]? with
    | some key, some value =>
      match copyColumns config torch layer page pageOffset sourceOffset count key pools.keyPages with
      | .error raised => (.error raised, pools)
      | .ok keyPages =>
        match copyColumns config torch layer page pageOffset sourceOffset count value pools.valuePages with
        | .error raised => (.error raised, { pools with keyPages })
        | .ok valuePages =>
          copyLayers config torch keys values page pageOffset sourceOffset count rest ⟨keyPages, valuePages⟩
    | _, _ => (.error (indexError "tuple index out of range"), pools)

/-- The loop over page runs: each one ends at a page's or at the input's end. -/
def writeTokens (config : PagedKVConfig) (torch : Torch) (keys values : List (Tensor α))
    (table : List BlockId) (start tokenCount sourceOffset : Nat) (pools : PagePools α) :
    Except Raised Unit × PagePools α :=
  if sourceOffset < tokenCount then
    let pageOffset := (start + sourceOffset) % config.blockSizeTokens
    match table[(start + sourceOffset) / config.blockSizeTokens]? with
    | none => (.error (indexError "tuple index out of range"), pools)
    | some page =>
      let count := min (tokenCount - sourceOffset) (config.blockSizeTokens - pageOffset)
      match copyLayers config torch keys values page pageOffset sourceOffset count
          (List.range config.numLayers) pools with
      | (.error raised, pools) => (.error raised, pools)
      | (.ok (), pools) =>
        writeTokens config torch keys values table start tokenCount (sourceOffset + count) pools
  else (.ok (), pools)
termination_by tokenCount - sourceOffset
decreasing_by
  have := Nat.mod_lt (start + sourceOffset) config.blockSizePositive
  omega

def append (cache : TorchPagedKVCache α) (sequenceId : String) (keys values : List (Tensor α)) :
    Except Raised PagedSequence × TorchPagedKVCache α :=
  if keys.length ≠ cache.config.numLayers ∨ values.length ≠ cache.config.numLayers then
    (.error (valueError "one key and value tensor are required per model layer"), cache)
  else match cache.lengths.get? sequenceId with
    | none => (.error (keyError s!"unknown paged KV sequence: {sequenceId}"), cache)
    | some start =>
      match tokenCounts (keys ++ values) with
      | .error raised => (.error raised, cache)
      | .ok [tokenCount] =>
        if tokenCount = 0 then (.error (valueError "paged KV append requires at least one token"), cache)
        else match cache.checkTensors (keys ++ values) with
          | .error raised => (.error raised, cache)
          | .ok () =>
            match cache.allocator.table sequenceId with
            | .error raised => (.error raised, cache)
            | .ok table =>
              if table.tokenCapacity < start + tokenCount then
                (.error (valueError "paged KV append exceeds the reserved sequence capacity"), cache)
              else
                match writeTokens cache.config cache.torch keys values table.blockIds start tokenCount 0
                    cache.pools with
                | (.error raised, pools) => (.error raised, { cache with pools })
                | (.ok (), pools) =>
                  (.ok ⟨sequenceId, table, start + tokenCount⟩,
                    { cache with pools, lengths := cache.lengths.insert sequenceId (start + tokenCount) })
      | .ok _ => (.error (valueError "all paged KV tensors must contain the same token count"), cache)

def release (cache : TorchPagedKVCache α) (sequenceId : String) :
    Except Raised Bool × TorchPagedKVCache α :=
  ((cache.allocator.release sequenceId).1,
    { cache with
      lengths := cache.lengths.erase sequenceId
      allocator := (cache.allocator.release sequenceId).2 })

end TorchPagedKVCache

/-- The padded keys, values and mask of one attention batch. -/
structure GatheredBatch (α : Type) where
  rows : Nat
  kvHeads : Nat
  tokens : Nat
  headDim : Nat
  keys : Nat → Nat → Nat → Nat → α
  values : Nat → Nat → Nat → Nat → α
  mask : Nat → Nat → Bool

def GatheredBatch.zeros [Zero α] (config : PagedKVConfig) (rows tokens : Nat) : GatheredBatch α :=
  ⟨rows, config.numKvHeads, tokens, config.headDim, fun _ _ _ _ => 0, fun _ _ _ _ => 0, fun _ _ => false⟩

namespace TorchPagedKVCache

/-- `destination[row, :, position : position + count, :].copy_(pages[layer, page_id, :, :count, :])`. -/
def gatherColumns (config : PagedKVConfig) (layer row : Nat) (page : BlockId) (position count : Nat)
    (pages : Pages α) (destination : Nat → Nat → Nat → Nat → α) : Nat → Nat → Nat → Nat → α :=
  fun r head token dim =>
    if r = row ∧ head < config.numKvHeads ∧ position ≤ token ∧ token < position + count ∧
        dim < config.headDim then
      pages layer page head (token - position) dim
    else destination r head token dim

/-- The walk along one block table, which stops when the length is reached. -/
def gatherRow (config : PagedKVConfig) (pages : Pages α) (layer row length : Nat) :
    List BlockId → Nat → (Nat → Nat → Nat → Nat → α) → Nat → Nat → Nat → Nat → α
  | [], _, destination => destination
  | page :: rest, position, destination =>
    let count := min config.blockSizeTokens (length - position)
    if count = 0 then destination
    else gatherRow config pages layer row length rest (position + count)
      (gatherColumns config layer row page position count pages destination)

def gatherRows (cache : TorchPagedKVCache α) (layer : Nat) :
    Nat → List (String × Nat) → GatheredBatch α → Except Raised (GatheredBatch α)
  | _, [], batch => .ok batch
  | row, (sequenceId, length) :: rest, batch =>
    match cache.allocator.table sequenceId with
    | .error raised => .error raised
    | .ok table =>
      cache.gatherRows layer (row + 1) rest { batch with
        keys := gatherRow cache.config cache.pools.keyPages layer row length table.blockIds 0 batch.keys
        values := gatherRow cache.config cache.pools.valuePages layer row length table.blockIds 0 batch.values
        mask := fun r token => if r = row ∧ token < length then true else batch.mask r token }

def lengthsOf (cache : TorchPagedKVCache α) : List String → Except Raised (List Nat)
  | [] => .ok []
  | sequenceId :: rest =>
    match cache.lengths.get? sequenceId with
    | none => .error (keyError s!"unknown paged KV sequence: {sequenceId}")
    | some length => (cache.lengthsOf rest).map (length :: ·)

def materialize [Zero α] (cache : TorchPagedKVCache α) (layer : Int) (sequenceIds : List String) :
    Except Raised (GatheredBatch α) :=
  if ¬ (0 ≤ layer ∧ layer < cache.config.numLayers) then
    .error (valueError "paged KV layer is out of range")
  else if sequenceIds = [] then .error (valueError "at least one sequence is required")
  else if ¬ sequenceIds.Nodup then .error (valueError "paged KV batch contains duplicate sequences")
  else match cache.lengthsOf sequenceIds with
    | .error raised => .error raised
    | .ok lengths =>
      if lengths.foldr max 0 = 0 then .error (valueError "paged attention requires stored KV tokens")
      else cache.gatherRows layer.toNat 0 (sequenceIds.zip lengths)
        (.zeros cache.config sequenceIds.length (lengths.foldr max 0))

end TorchPagedKVCache

end ServingPlatform
