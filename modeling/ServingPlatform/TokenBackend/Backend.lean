import ServingPlatform.Library.Attempt
import ServingPlatform.TokenEngine.Backend

namespace ServingPlatform

/-- The arguments of one call of the model; a row of `inputIds` and of
`attentionMask` for each sequence, and one `cachePosition` for all of them. -/
structure ModelCall (κ : Type) where
  inputIds : List (List TokenId)
  attentionMask : List (List Nat)
  pastKeyValues : κ
  cachePosition : List Nat

structure ModelOutputs (κ ℓ : Type) where
  logits : Nat → ℓ
  pastKeyValues : κ

structure WorkerTokenizer where
  padTokenId : Option TokenId
  encode : String → List TokenId
  decode : TokenId → String

/-- What the backend runs on: `transformers` with its caches, the model and the
tokenizer of the worker, and the sampler. A call of the model that raises may
have written into the cache it was given. -/
structure TokenRuntime where
  Cache : Type
  Logits : Type
  World : Type
  dynamicCache : Cache
  cacheLength : Cache → Nat
  fromBatchSplits : List Cache → Cache
  batchSplit : Cache → Nat → List Cache
  loadModel : Attempt Raised World Unit
  modelLoaded : World → Bool
  tokenizer : World → Option WorkerTokenizer
  eosTokenIds : World → List TokenId
  callModel : ModelCall Cache → World → Except (Raised × Cache) (ModelOutputs Cache Logits) × World
  select : Logits → SamplingParameters → Attempt Raised World TokenId
  unload : World → World

/-- `_SequenceCache`. -/
structure SequenceCache (rt : TokenRuntime) where
  cache : rt.Cache
  attentionMask : List Nat
  cachePosition : List Nat
  lastTokenId : TokenId
  nextTokenLogits : Option rt.Logits

/-- `_PrefixSnapshot`. -/
structure PrefixSnapshot (rt : TokenRuntime) where
  cache : rt.Cache
  attentionMask : List Nat
  cachePosition : List Nat
  nextTokenLogits : rt.Logits

/-- The backend with what it runs on, and the calls that its model has got, the last first. -/
structure HuggingFaceTokenBackend (rt : TokenRuntime) where
  sequences : Dict String (SequenceCache rt)
  stopped : Bool
  world : rt.World
  calls : List (ModelCall rt.Cache)

/-- `cache_position[-1:] + 1` -/
def nextPosition (positions : List Nat) : List Nat := (positions.drop (positions.length - 1)).map (· + 1)

namespace HuggingFaceTokenBackend

open Attempt

variable {rt : TokenRuntime}

/-- A method of the backend. -/
abbrev Method (rt : TokenRuntime) (α : Type) : Type := Attempt Raised (HuggingFaceTokenBackend rt) α

def onWorld {α : Type} (m : Attempt Raised rt.World α) : Method rt α :=
  zoom HuggingFaceTokenBackend.world (fun world b => { b with world }) m

def store (sequenceId : String) (sequence : SequenceCache rt) (b : HuggingFaceTokenBackend rt) :
    HuggingFaceTokenBackend rt :=
  { b with sequences := b.sequences.insert sequenceId sequence }

def requireActive : Method rt Unit := do
  if ← read HuggingFaceTokenBackend.stopped then raise (runtimeError "inference backend is shut down")

def loadModel : Method rt Unit := do
  requireActive
  onWorld rt.loadModel

def requireModel (message : String) : Method rt Unit := do
  if (← read fun b => rt.modelLoaded b.world) = false then raise (runtimeError message)

def requireAbsent (sequenceId : String) : Method rt Unit := do
  if ← read fun b => b.sequences.contains sequenceId then
    raise (valueError s!"sequence already exists: {sequenceId}")

/-- The model is called; `left` is what becomes of a cache it was given if it raises. -/
def call (input : ModelCall rt.Cache) (left : rt.Cache → HuggingFaceTokenBackend rt → HuggingFaceTokenBackend rt) :
    Method rt (ModelOutputs rt.Cache rt.Logits) := fun b =>
  match rt.callModel input b.world with
  | (.ok outputs, world) => (.ok outputs, { b with world, calls := input :: b.calls })
  | (.error (raised, cache), world) => (.error raised, left cache { b with world, calls := input :: b.calls })

/-- `_token` -/
def token (logits : rt.Logits) (parameters : SamplingParameters) : Method rt TokenId :=
  onWorld (rt.select logits parameters)

/-- `_decode_text`, and the token that is returned. -/
def generated (tokenId : TokenId) (index : Nat) (cache : rt.Cache) : Method rt GeneratedToken := do
  match ← read fun b => rt.tokenizer b.world with
  | none => raise (runtimeError "tokenizer is unavailable during decode")
  | some tokenizer => pure ⟨tokenId, tokenizer.decode tokenId, index, rt.cacheLength cache⟩

def tokenize (prompt : String) : Method rt TokenizedPrompt := do
  loadModel
  match ← read fun b => rt.tokenizer b.world with
  | none => raise (runtimeError "tokenizer is unavailable after model load")
  | some tokenizer => answer (TokenizedPrompt.ofTokens (tokenizer.encode prompt))

def eosTokenIds : Method rt (List TokenId) := do
  loadModel
  if ← read fun b => rt.modelLoaded b.world && (rt.tokenizer b.world).isSome then
    read fun b => rt.eosTokenIds b.world
  else raise (runtimeError "model components are unavailable after model load")

def snapshotPrefix (sequenceId : String) : Method rt (PrefixSnapshot rt) := do
  match ← read fun b => b.sequences.get? sequenceId with
  | none => raise (keyError s!"sequence does not exist: {sequenceId}")
  | some sequence =>
    match sequence.nextTokenLogits with
    | none => raise (runtimeError "sequence has no reusable prefill logits")
    | some logits => pure ⟨sequence.cache, sequence.attentionMask, sequence.cachePosition, logits⟩

/-- `_restore_prefix_cache` -/
def restorePrefixCache (sequenceId : String) (snapshot : PrefixSnapshot rt) (lastTokenId : TokenId) :
    Method rt rt.Cache := do
  update (store sequenceId
    ⟨snapshot.cache, snapshot.attentionMask, snapshot.cachePosition, lastTokenId, some snapshot.nextTokenLogits⟩)
  pure snapshot.cache

def restorePrefix (sequenceId : String) (snapshot : PrefixSnapshot rt) (parameters : SamplingParameters) :
    Method rt GeneratedToken := do
  requireActive
  requireAbsent sequenceId
  let tokenId ← token snapshot.nextTokenLogits parameters
  let cache ← restorePrefixCache sequenceId snapshot tokenId
  generated tokenId 0 cache

/-- The input of a prefill: the whole prompt, nothing masked. -/
def prefillCall (rt : TokenRuntime) (prompt : TokenizedPrompt) : ModelCall rt.Cache where
  inputIds := [prompt.tokenIds]
  attentionMask := [List.replicate prompt.tokenIds.length 1]
  pastKeyValues := rt.dynamicCache
  cachePosition := List.range prompt.tokenIds.length

def prefill (request : PrefillRequest) : Method rt GeneratedToken := do
  requireActive
  requireAbsent request.sequenceId
  loadModel
  requireModel "model is unavailable after model load"
  let outputs ← call (prefillCall rt request.prompt) (fun _ b => b)
  let tokenId ← token (outputs.logits 0) request.parameters
  update (store request.sequenceId {
    cache := outputs.pastKeyValues
    attentionMask := List.replicate request.prompt.tokenIds.length 1
    cachePosition := nextPosition (List.range request.prompt.tokenIds.length)
    lastTokenId := tokenId
    nextTokenLogits := some (outputs.logits 0) })
  generated tokenId 0 outputs.pastKeyValues

/-- The width of a batch: its longest prompt. -/
def width (requests : List PrefillRequest) : Nat := (requests.map fun r => r.prompt.tokenIds.length).foldr max 0

/-- How far a prompt is shifted to the right. -/
def padding (requests : List PrefillRequest) (request : PrefillRequest) : Nat :=
  width requests - request.prompt.tokenIds.length

def maskRow (requests : List PrefillRequest) (request : PrefillRequest) : List Nat :=
  List.replicate (padding requests request) 0 ++ List.replicate request.prompt.tokenIds.length 1

/-- The input of a batched prefill: prompts padded on the left, and one vector of positions. -/
def prefillBatchCall (rt : TokenRuntime) (padId : TokenId) (requests : List PrefillRequest) : ModelCall rt.Cache where
  inputIds := requests.map fun r => List.replicate (padding requests r) padId ++ r.prompt.tokenIds
  attentionMask := requests.map (maskRow requests)
  pastKeyValues := rt.dynamicCache
  cachePosition := List.range (width requests)

/-- The loop over `zip(requests, caches, strict=True)`. -/
def storePrefilled (requests : List PrefillRequest) (logits : Nat → rt.Logits) :
    Nat → List PrefillRequest → List rt.Cache → Dict String GeneratedToken → Method rt (Dict String GeneratedToken)
  | _, [], [], tokens => pure tokens
  | row, request :: rest, cache :: caches, tokens => do
    let tokenId ← token (logits row) request.parameters
    update (store request.sequenceId {
      cache
      attentionMask := maskRow requests request
      cachePosition := nextPosition (List.range (width requests))
      lastTokenId := tokenId
      nextTokenLogits := some (logits row) })
    let made ← generated tokenId 0 cache
    storePrefilled requests logits (row + 1) rest caches (tokens.insert request.sequenceId made)
  | _, [], _ :: _, _ => raise (valueError "zip() argument 2 is longer than argument 1")
  | _, _ :: _, [], _ => raise (valueError "zip() argument 2 is shorter than argument 1")

def prefillBatch : List PrefillRequest → Method rt BatchTokenResult
  | [] => pure ⟨.empty, .empty⟩
  | [request] => do
    let made ← prefill request
    pure ⟨Dict.empty.insert request.sequenceId made, .empty⟩
  | requests => do
    requireActive
    if ¬(requests.map PrefillRequest.sequenceId).Nodup then
      raise (valueError "prefill batch contains duplicate sequence identifiers")
    if ← read fun b => requests.any fun r => b.sequences.contains r.sequenceId then
      raise (valueError "prefill batch contains an existing sequence")
    loadModel
    requireModel "model components are unavailable after model load"
    match ← read fun b => rt.tokenizer b.world with
    | none => raise (runtimeError "model components are unavailable after model load")
    | some tokenizer =>
      match tokenizer.padTokenId with
      | none => raise (runtimeError "tokenizer does not define a padding token")
      | some padId =>
        let outputs ← call (prefillBatchCall rt padId requests) (fun _ b => b)
        let tokens ← storePrefilled requests outputs.logits 0 requests
          (rt.batchSplit outputs.pastKeyValues requests.length) .empty
        pure ⟨tokens, .empty⟩

/-- The mask and the cache that a chunk is added to. -/
def chunkCall (existing : Option (SequenceCache rt)) (prompt : TokenizedPrompt) : ModelCall rt.Cache where
  inputIds := [prompt.tokenIds]
  attentionMask := [existing.elim [] SequenceCache.attentionMask ++ List.replicate prompt.tokenIds.length 1]
  pastKeyValues := existing.elim rt.dynamicCache SequenceCache.cache
  cachePosition := List.range' (existing.elim 0 fun sequence => rt.cacheLength sequence.cache) prompt.tokenIds.length

def prefillChunk (sequenceId : String) (prompt : TokenizedPrompt) (parameters : SamplingParameters) (final : Bool) :
    Method rt (Option GeneratedToken) := do
  requireActive
  loadModel
  requireModel "model is unavailable after model load"
  let existing ← read fun b => b.sequences.get? sequenceId
  let outputs ← call (chunkCall existing prompt) fun cache b =>
    existing.elim b fun sequence => store sequenceId { sequence with cache } b
  let sequence : SequenceCache rt := {
    cache := outputs.pastKeyValues
    attentionMask := existing.elim [] SequenceCache.attentionMask ++ List.replicate prompt.tokenIds.length 1
    cachePosition := nextPosition (chunkCall existing prompt).cachePosition
    lastTokenId := -1
    nextTokenLogits := if final then some (outputs.logits 0) else none }
  update (store sequenceId sequence)
  if final then
    let tokenId ← token (outputs.logits 0) parameters
    update (store sequenceId { sequence with lastTokenId := tokenId })
    let made ← generated tokenId 0 outputs.pastKeyValues
    pure (some made)
  else pure none

def resumePrefix (sequenceId : String) (snapshot : PrefixSnapshot rt) (suffix : TokenizedPrompt)
    (parameters : SamplingParameters) : Method rt GeneratedToken := do
  requireActive
  requireAbsent sequenceId
  if suffix.tokenIds = [] then restorePrefix sequenceId snapshot parameters
  else
    let _ ← restorePrefixCache sequenceId snapshot (-1)
    match ← prefillChunk sequenceId suffix parameters true with
    | none => raise (runtimeError "suffix prefill did not produce a token")
    | some made => pure made

/-- The input of a decode: the last token, after the whole cache. -/
def decodeCall (sequence : SequenceCache rt) : ModelCall rt.Cache where
  inputIds := [[sequence.lastTokenId]]
  attentionMask := [sequence.attentionMask ++ [1]]
  pastKeyValues := sequence.cache
  cachePosition := sequence.cachePosition

def decode (request : DecodeRequest) : Method rt GeneratedToken := do
  requireActive
  match ← read fun b => b.sequences.get? request.sequenceId with
  | none => raise (keyError s!"sequence does not exist: {request.sequenceId}")
  | some sequence =>
    requireModel "model is unavailable during decode"
    let grown : SequenceCache rt := { sequence with attentionMask := sequence.attentionMask ++ [1] }
    update (store request.sequenceId grown)
    let outputs ← call (decodeCall sequence) fun cache b => store request.sequenceId { grown with cache } b
    let decoded : SequenceCache rt := { grown with
      cache := outputs.pastKeyValues
      cachePosition := sequence.cachePosition.map (· + 1)
      nextTokenLogits := none }
    update (store request.sequenceId decoded)
    let tokenId ← token (outputs.logits 0) request.parameters
    update (store request.sequenceId { decoded with lastTokenId := tokenId })
    generated tokenId request.index outputs.pastKeyValues

/-- The sequences of a batch, looked up in turn. -/
def lookup (b : HuggingFaceTokenBackend rt) : List DecodeRequest → Except Raised (List (SequenceCache rt))
  | [] => .ok []
  | request :: rest =>
    match b.sequences.get? request.sequenceId with
    | none => .error (keyError s!"'{request.sequenceId}'")
    | some sequence => (b.lookup rest).map (sequence :: ·)

/-- The input of a batched decode; the positions are those of the first sequence. -/
def decodeBatchCall (sequences : List (SequenceCache rt)) : ModelCall rt.Cache where
  inputIds := sequences.map fun sequence => [sequence.lastTokenId]
  attentionMask := sequences.map fun sequence => sequence.attentionMask ++ [1]
  pastKeyValues := rt.fromBatchSplits (sequences.map SequenceCache.cache)
  cachePosition := sequences.head?.elim [] SequenceCache.cachePosition

/-- The loop over `zip(requests, sequences, caches, strict=True)`. -/
def storeDecoded (logits : Nat → rt.Logits) :
    Nat → List DecodeRequest → List (SequenceCache rt) → List rt.Cache → Dict String GeneratedToken →
      Method rt (Dict String GeneratedToken)
  | _, [], [], [], tokens => pure tokens
  | row, request :: rest, sequence :: sequences, cache :: caches, tokens => do
    let tokenId ← token (logits row) request.parameters
    let current ← read fun b => (b.sequences.get? request.sequenceId).getD sequence
    update (store request.sequenceId {
      cache
      attentionMask := sequence.attentionMask ++ [1]
      cachePosition := current.cachePosition.map (· + 1)
      lastTokenId := tokenId
      nextTokenLogits := none })
    let made ← generated tokenId request.index cache
    storeDecoded logits (row + 1) rest sequences caches (tokens.insert request.sequenceId made)
  | _, [], _, _, _ => raise (valueError "zip() argument 3 is longer than arguments 1-2")
  | _, _ :: _, _, _, _ => raise (valueError "zip() argument 3 is shorter than arguments 1-2")

def decodeBatch : List DecodeRequest → Method rt BatchTokenResult
  | [] => pure ⟨.empty, .empty⟩
  | [request] => do
    let made ← decode request
    pure ⟨Dict.empty.insert request.sequenceId made, .empty⟩
  | requests => do
    let sequences ← fun b => (b.lookup requests, b)
    if ¬∀ first ∈ sequences, ∀ second ∈ sequences, rt.cacheLength first.cache = rt.cacheLength second.cache then
      raise (valueError "decode batches require equal physical cache lengths")
    requireModel "model is unavailable during decode"
    if ¬∀ first ∈ sequences, ∀ second ∈ sequences, first.attentionMask.length = second.attentionMask.length then
      raise (runtimeError "Sizes of tensors must match except in dimension 0.")
    let outputs ← call (decodeBatchCall sequences) (fun _ b => b)
    let tokens ← storeDecoded outputs.logits 0 requests sequences
      (rt.batchSplit outputs.pastKeyValues requests.length) .empty
    pure ⟨tokens, .empty⟩

def releaseSequence (sequenceId : String) : Method rt Unit :=
  update fun b => { b with sequences := b.sequences.erase sequenceId }

def shutdown : Method rt Unit :=
  update fun b => { b with sequences := .empty, world := rt.unload b.world, stopped := true }

end HuggingFaceTokenBackend

end ServingPlatform
