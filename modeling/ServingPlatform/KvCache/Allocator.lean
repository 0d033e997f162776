import Mathlib.Data.Rat.Defs
import ServingPlatform.Errors
import ServingPlatform.Library.Binary64
import ServingPlatform.Library.Dict

namespace ServingPlatform

abbrev BlockId := Int

/-- The constructor arguments, with the checks of `__init__` as fields. -/
structure KvDimensions where
  totalBlocks : Nat
  blockSizeTokens : Nat
  bytesPerBlock : Nat
  highWatermark : Rat
  lowWatermark : Rat
  totalPositive : 0 < totalBlocks
  blockSizePositive : 0 < blockSizeTokens
  bytesPositive : 0 < bytesPerBlock
  watermarks : 0 < lowWatermark ∧ lowWatermark < highWatermark ∧ highWatermark ≤ 1

theorem defaultWatermarks : (0 : Rat) < 7 / 10 ∧ (7 / 10 : Rat) < 9 / 10 ∧ (9 / 10 : Rat) ≤ 1 := by norm_num

/-- The allocator's fields. The free list is kept with its last element,
the next one to pop, in front. -/
structure KVBlockAllocator where
  dimensions : KvDimensions
  free : List BlockId
  owners : Dict String (List BlockId)
  references : Dict BlockId Nat
  allocationFailures : Nat
  pressure : Bool

namespace KVBlockAllocator

def ofDimensions (dimensions : KvDimensions) : KVBlockAllocator where
  dimensions := dimensions
  free := (List.range dimensions.totalBlocks).map Int.ofNat
  owners := .empty
  references := .empty
  allocationFailures := 0
  pressure := false

def init (totalBlocks blockSizeTokens bytesPerBlock : Int) (highWatermark lowWatermark : Rat) :
    Except Raised KVBlockAllocator :=
  if sizes : 0 < totalBlocks ∧ 0 < blockSizeTokens ∧ 0 < bytesPerBlock then
    if marks : 0 < lowWatermark ∧ lowWatermark < highWatermark ∧ highWatermark ≤ 1 then
      .ok (ofDimensions ⟨totalBlocks.toNat, blockSizeTokens.toNat, bytesPerBlock.toNat, highWatermark,
        lowWatermark, by omega, by omega, by omega, marks⟩)
    else .error (valueError "KV watermarks must satisfy 0 < low < high <= 1")
  else .error (valueError "KV block dimensions must be positive")

/-- `math.ceil` of a true division: the quotient passes through a double. -/
def blocksForTokens (a : KVBlockAllocator) (tokens : Int) : Except Raised Nat :=
  if tokens < 0 then .error (valueError "token capacity must be non-negative")
  else match Binary64.quotient tokens.toNat a.dimensions.blockSizeTokens with
    | none => .error ⟨.overflowError, "integer division result too large for a float"⟩
    | some quotient => .ok quotient.ceil

/-- Hysteresis over the exact utilization. -/
def updatePressure (a : KVBlockAllocator) : KVBlockAllocator :=
  let utilization : Rat := a.references.size / a.dimensions.totalBlocks
  if !a.pressure && decide (a.dimensions.highWatermark ≤ utilization) then { a with pressure := true }
  else if a.pressure && decide (utilization ≤ a.dimensions.lowWatermark) then { a with pressure := false }
  else a

def countFailure (a : KVBlockAllocator) : KVBlockAllocator :=
  updatePressure { a with allocationFailures := a.allocationFailures + 1 }

/-- `self._references[block_id] = 1` for each block. -/
def referenceFresh (blocks : List BlockId) (references : Dict BlockId Nat) : Dict BlockId Nat :=
  blocks.foldl (fun refs block => refs.insert block 1) references

def allocate (a : KVBlockAllocator) (owner : String) (tokenCapacity : Int) :
    Except Raised (List BlockId) × KVBlockAllocator :=
  if owner = "" then (.error (valueError "KV owner identifier is required"), a)
  else match a.blocksForTokens tokenCapacity with
    | .error raised => (.error raised, a)
    | .ok required =>
      if a.owners.contains owner then
        (.error (ownershipError s!"KV owner already exists: {owner}"), a)
      else if a.free.length < required then
        (.error (capacityError
          s!"KV cache requires {required} blocks but only {a.free.length} are free"), a.countFailure)
      else
        let blocks := a.free.take required
        (.ok blocks, updatePressure { a with
          free := a.free.drop required
          owners := a.owners.insert owner blocks
          references := referenceFresh blocks a.references })

/-- `self._references[block_id] += 1` for each block. -/
def retainBlocks : List BlockId → Dict BlockId Nat → Except Raised Unit × Dict BlockId Nat
  | [], references => (.ok (), references)
  | block :: rest, references =>
    match references.get? block with
    | none => (.error (keyError s!"{block}"), references)
    | some count => retainBlocks rest (references.insert block (count + 1))

def retain (a : KVBlockAllocator) (owner : String) (blocks : List BlockId) :
    Except Raised Unit × KVBlockAllocator :=
  if owner = "" ∨ blocks = [] then (.error (valueError "owner and shared KV blocks are required"), a)
  else if ¬ blocks.Nodup then (.error (valueError "shared KV block identifiers must be unique"), a)
  else if a.owners.contains owner then
    (.error (ownershipError s!"KV owner already exists: {owner}"), a)
  else if blocks.any (fun block => !a.references.contains block) then
    (.error (ownershipError "cannot retain an unallocated KV block"), a)
  else
    match retainBlocks blocks a.references with
    | (.error raised, references) =>
      (.error raised, { a with owners := a.owners.insert owner blocks, references := references })
    | (.ok (), references) =>
      (.ok (), updatePressure { a with owners := a.owners.insert owner blocks, references := references })

/-- `del self._references[block_id]; self._free.append(block_id)` for each block. -/
def dropBlocks : List BlockId → Dict BlockId Nat → List BlockId →
    Except Raised Unit × Dict BlockId Nat × List BlockId
  | [], references, free => (.ok (), references, free)
  | block :: rest, references, free =>
    if references.contains block then dropBlocks rest (references.erase block) (block :: free)
    else (.error (keyError s!"{block}"), references, free)

/-- `any(self._references[block_id] != 1 ...)`, which stops at the first shared block. -/
def anyShared : List BlockId → Dict BlockId Nat → Except Raised Bool
  | [], _ => .ok false
  | block :: rest, references =>
    match references.get? block with
    | none => .error (keyError s!"{block}")
    | some count => if count ≠ 1 then .ok true else anyShared rest references

def resize (a : KVBlockAllocator) (owner : String) (tokenCapacity : Int) :
    Except Raised (List BlockId) × KVBlockAllocator :=
  match a.blocksForTokens tokenCapacity with
  | .error raised => (.error raised, a)
  | .ok required =>
    match a.owners.get? owner with
    | none => (.error (ownershipError s!"unknown KV owner: {owner}"), a)
    | some blocks =>
      match anyShared blocks a.references with
      | .error raised => (.error raised, a)
      | .ok true => (.error (ownershipError "cannot resize a shared KV block table"), a)
      | .ok false =>
        let additional : Int := required - blocks.length
        if a.free.length < additional then
          (.error (capacityError
            s!"KV cache requires {additional} more blocks but only {a.free.length} are free"),
            a.countFailure)
        else if 0 < additional then
          let newBlocks := a.free.take additional.toNat
          (.ok (blocks ++ newBlocks), updatePressure { a with
            free := a.free.drop additional.toNat
            owners := a.owners.insert owner (blocks ++ newBlocks)
            references := referenceFresh newBlocks a.references })
        else if additional < 0 then
          match dropBlocks (blocks.drop required) a.references a.free with
          | (.error raised, references, free) => (.error raised, { a with references, free })
          | (.ok (), references, free) =>
            (.ok (blocks.take required), updatePressure { a with
              free, references, owners := a.owners.insert owner (blocks.take required) })
        else (.ok blocks, a.updatePressure)

/-- Drops one reference from each block; the last one frees the block. -/
def releaseBlocks : List BlockId → Dict BlockId Nat → List BlockId →
    Except Raised Unit × Dict BlockId Nat × List BlockId
  | [], references, free => (.ok (), references, free)
  | block :: rest, references, free =>
    match references.get? block with
    | none => (.error (keyError s!"{block}"), references, free)
    | some count =>
      if count - 1 ≠ 0 then releaseBlocks rest (references.insert block (count - 1)) free
      else releaseBlocks rest (references.erase block) (block :: free)

def release (a : KVBlockAllocator) (owner : String) : Except Raised Bool × KVBlockAllocator :=
  match a.owners.get? owner with
  | none => (.ok false, a)
  | some blocks =>
    let owners := a.owners.erase owner
    match releaseBlocks blocks a.references a.free with
    | (.error raised, references, free) => (.error raised, { a with owners, references, free })
    | (.ok (), references, free) => (.ok true, updatePressure { a with owners, references, free })

def blockTable (a : KVBlockAllocator) (owner : String) : Except Raised (List BlockId) :=
  match a.owners.get? owner with
  | none => .error (ownershipError s!"unknown KV owner: {owner}")
  | some blocks => .ok blocks

end KVBlockAllocator

/-- A table handed out by the allocator. -/
structure KVBlockTable where
  ownerId : String
  blockIds : List BlockId
  blockSizeTokens : Nat

def KVBlockTable.tokenCapacity (table : KVBlockTable) : Nat :=
  table.blockIds.length * table.blockSizeTokens

def KVBlockAllocator.table (a : KVBlockAllocator) (owner : String) : Except Raised KVBlockTable :=
  (a.blockTable owner).map fun blocks => ⟨owner, blocks, a.dimensions.blockSizeTokens⟩

end ServingPlatform
