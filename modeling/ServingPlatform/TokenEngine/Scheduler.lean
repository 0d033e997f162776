import ServingPlatform.Library.Coroutine
import ServingPlatform.TokenEngine.Engine

namespace ServingPlatform

/-- What the engine's coroutines wait for. A backend call carries, for
bookkeeping only, the sequences on whose behalf it is made. -/
inductive EngineOp (S : Type)
  | call (command : BackendCall S) (sequences : List Ref)
  | wakeWait
  | nextEvent (r : Ref)
  | yieldEvent (event : StreamEvent)
  | doneWait (r : Ref)
  | schedulerDone
  | backendShutdown

abbrev EngineOp.Answer {S : Type} : EngineOp S → Type
  | .call command _ => command.Answer
  | .wakeWait => Unit
  | .nextEvent _ => StreamEvent
  | .yieldEvent _ => Unit
  | .doneWait _ => Unit
  | .schedulerDone => Unit
  | .backendShutdown => Unit

/-- A coroutine of the engine. -/
abbrev EngineM (S : Type) := Coro (Engine S) (EngineOp S) EngineOp.Answer Raised

namespace TokenGenerationEngine

variable {S : Type}

def runAsync (method : BackendMethod S) (sequences : List Ref) : EngineM S method.Answer :=
  Coro.request (EngineOp.call (.direct method) sequences)

def checkInterruption (r : Ref) : EngineM S (Option FinishReason) := do
  let e ← Coro.read
  if (e.sequences r).state.cancellation then return some .cancelled
  let now ← Coro.clock
  return if (e.sequences r).state.deadline ≤ now then some .timeout else none

/-- The common body of `_complete` and `_fail`. -/
def finish (r : Ref) (phase : SequencePhase) (event : ScheduledSequence → StreamEvent) : EngineM S Unit := do
  let e ← Coro.read
  if e.active.contains (e.requestId r) then
    Coro.modify fun e => e.setPhase r phase
    if (e.sequences r).backendCreated then
      runAsync (.releaseSequence (e.requestId r)) [r]
      Coro.modify fun e => e.clearBackendCreated r
    Coro.sync fun e => e.retire r event

def completion (reason : FinishReason) (runtime : ScheduledSequence) : GenerationComplete where
  finishReason := reason
  inputTokens := runtime.state.promptTokenIds.length
  outputTokens := runtime.state.generatedTokenIds.length
  prefillMs := runtime.state.prefillMs
  decodeMs := runtime.state.decodeMs

def complete (r : Ref) (reason : FinishReason) : EngineM S Unit :=
  finish r reason.phase fun runtime => .complete (completion reason runtime)

def fail (r : Ref) (error : Raised) : EngineM S Unit := finish r .failed fun _ => .failure error

def failAll (error : Raised) : List Ref → EngineM S Unit
  | [] => pure ()
  | r :: rest => do
    fail r error
    failAll error rest

def acceptToken (r : Ref) (token : GeneratedToken) (eosIds : List TokenId) : EngineM S Unit := do
  match ← checkInterruption r with
  | some reason => complete r reason
  | none =>
    let e ← Coro.read
    if token.tokenId ∈ eosIds then complete r .eos
    else if token.tokenId ∈ (e.sequences r).state.sampling.stopTokenIds then complete r .stop
    else
      Coro.modify fun e => e.emit r token
      let e ← Coro.read
      if (e.sequences r).state.sampling.maxNewTokens ≤ (e.sequences r).state.generatedTokenIds.length then
        complete r .length

def getEosIds (sequences : List Ref) : EngineM S (List TokenId) := do
  let e ← Coro.read
  match e.eosIds with
  | some eosIds => return eosIds
  | none =>
    let eosIds ← runAsync .eosTokenIds sequences
    Coro.modify fun e => e.setEosIds eosIds
    return eosIds

def storePrefix (r : Ref) : EngineM S Unit := do
  let e ← Coro.read
  match (e.sequences r).tokenized with
  | none => return
  | some prompt =>
    if e.prefixCache.enabled ∧ e.config.capabilities.snapshotPrefix = true then
      let snapshot ← runAsync (.snapshotPrefix (e.requestId r)) [r]
      let _ ← Coro.sync fun e => e.putPrefix prompt.tokenIds snapshot
      return

/-- What a batch's outcome has for one sequence; only a prefill stores prefixes. -/
def acceptResult (outcome : BatchTokenResult) (eosIds : List TokenId) (measure : Ref → Engine S → Engine S)
    (stores : Bool) (r : Ref) : EngineM S Unit := do
  let e ← Coro.read
  match outcome.failures.get? (e.requestId r) with
  | some failure => fail r failure
  | none =>
    Coro.modify (measure r)
    match outcome.tokens.get? (e.requestId r) with
    | none => Coro.raise (keyError (e.requestId r))
    | some token =>
      Coro.modify fun e => e.setCacheTokens r token.cacheTokens
      if stores then storePrefix r
      acceptToken r token eosIds

/-- The last loop of `_run_prefill` and of `_run_decode`. -/
def acceptOutcome (outcome : BatchTokenResult) (eosIds : List TokenId) (measure : Ref → Engine S → Engine S)
    (stores : Bool) : List Ref → EngineM S Unit
  | [] => pure ()
  | r :: rest => do
    acceptResult outcome eosIds measure stores r
    acceptOutcome outcome eosIds measure stores rest

/-- The batch call of `_run_prefill` and of `_run_decode`. -/
def runBatch (command : BackendCall S) (outcomeOf : command.Answer → BatchTokenResult)
    (count : Nat → Engine S → Engine S) (measure : Int → Ref → Engine S → Engine S) (stores : Bool)
    (batch : List Ref) : EngineM S Unit := do
  let started ← Coro.clock
  match ← (Coro.request (EngineOp.call command batch) : EngineM S command.Answer).attempt with
  | .error error => failAll error batch
  | .ok answer =>
    let ended ← Coro.clock
    Coro.modify (count batch.length)
    match ← (getEosIds batch).attempt with
    | .error error => failAll error batch
    | .ok eosIds => acceptOutcome (outcomeOf answer) eosIds (measure (ended - started)) stores batch

section Prefill

/-- The prompt's tokens; the first time the reservation is resized to them. -/
def tokenizePrompt (r : Ref) : EngineM S TokenizedPrompt := do
  let e ← Coro.read
  match (e.sequences r).tokenized with
  | some prompt => return prompt
  | none =>
    let prompt ← runAsync (.tokenize (e.sequences r).state.prompt) [r]
    Coro.modify fun e => e.setTokenized r prompt
    Coro.sync fun e => e.resizeReservation r prompt
    return prompt

def findPrefix (tokenIds : List TokenId) : EngineM S (Option (PrefixMatch S)) := do
  let e ← Coro.read
  if e.config.capabilities.restorePrefix then
    Coro.sync fun e => e.lookupPrefix tokenIds !e.config.capabilities.resumePrefix
  else return none

/-- The backend takes a cached prefix as the sequence's start. -/
def startFromPrefix (r : Ref) (prompt : TokenizedPrompt) (found : PrefixMatch S) : EngineM S GeneratedToken := do
  let e ← Coro.read
  let sampling := (e.sequences r).state.sampling
  if found.exact then runAsync (.restorePrefix (e.requestId r) found.backendState sampling) [r]
  else
    let suffix ← Coro.lift (TokenizedPrompt.ofTokens (prompt.tokenIds.drop found.matchedTokens))
    runAsync (.resumePrefix (e.requestId r) found.backendState suffix sampling) [r]

def reusePrefix (r : Ref) (prompt : TokenizedPrompt) (found : PrefixMatch S) : EngineM S Unit := do
  let started ← Coro.clock
  let token ← startFromPrefix r prompt found
  let ended ← Coro.clock
  Coro.modify fun e => e.addPrefillTime r (ended - started)
  Coro.modify fun e => e.setCacheTokens r token.cacheTokens
  if !found.exact then storePrefix r
  let eosIds ← getEosIds [r]
  acceptToken r token eosIds

/-- One sequence's turn in the first loop of `_run_prefill`; the answer is
whether it goes on into the batch. -/
def prepare (r : Ref) : EngineM S Bool := do
  let prompt ← tokenizePrompt r
  Coro.modify fun e => e.beginPrefill r
  match ← findPrefix prompt.tokenIds with
  | none => return true
  | some found =>
    reusePrefix r prompt found
    return false

/-- The first loop of `_run_prefill`: any exception fails its sequence only. -/
def collect : List String → EngineM S (List Ref)
  | [] => pure []
  | id :: rest => do
    let e ← Coro.read
    match e.active.get? id with
    | none => collect rest
    | some r =>
      let joins ← (prepare r).catchError fun error => do
        fail r error
        return false
      let batch ← collect rest
      return if joins then r :: batch else batch

def prefillRequest (e : Engine S) (r : Ref) : Option PrefillRequest :=
  (e.sequences r).tokenized.map fun prompt => ⟨e.requestId r, prompt, (e.sequences r).state.sampling⟩

/-- The next chunk of a sequence's prompt. -/
def runChunk (eosIds : List TokenId) (r : Ref) (prompt : TokenizedPrompt) : EngineM S Unit := do
  let e ← Coro.read
  let start := (e.sequences r).prefillOffset
  let stop := min (start + e.config.prefillChunkSizeTokens) prompt.tokenIds.length
  let chunk ← Coro.lift (TokenizedPrompt.ofTokens ((prompt.tokenIds.take stop).drop start))
  let started ← Coro.clock
  match ← (runAsync (.prefillChunk (e.requestId r) chunk (e.sequences r).state.sampling
      (stop = prompt.tokenIds.length)) [r]).attempt with
  | .error error => fail r error
  | .ok token =>
    let ended ← Coro.clock
    Coro.modify fun e => e.addPrefillTime r (ended - started)
    Coro.modify fun e => e.setPrefillOffset r stop
    Coro.modify fun e => e.countPrefill 1
    match token with
    | none => return
    | some token =>
      Coro.modify fun e => e.setCacheTokens r token.cacheTokens
      storePrefix r
      acceptToken r token eosIds

def runChunks (eosIds : List TokenId) : List Ref → EngineM S Unit
  | [] => pure ()
  | r :: rest => do
    let e ← Coro.read
    match (e.sequences r).tokenized with
    | none => runChunks eosIds rest
    | some prompt =>
      if e.active.contains (e.requestId r) then runChunk eosIds r prompt
      runChunks eosIds rest

def runPrefillChunks (batch : List Ref) : EngineM S Unit := do
  let e ← Coro.read
  if e.config.capabilities.prefillChunk then
    match ← (getEosIds batch).attempt with
    | .error error => failAll error batch
    | .ok eosIds => runChunks eosIds batch
  else failAll (runtimeError "configured backend does not support chunked prefill") batch

def runPrefill (ids : List String) : EngineM S Unit := do
  let batch ← collect ids
  if batch ≠ [] then
    let e ← Coro.read
    if e.config.prefillChunkSizeTokens ≠ 0 then runPrefillChunks batch
    else
      let requests := batch.filterMap (prefillRequest e)
      let count := fun size e => Engine.countPrefill e size
      let measure := fun elapsed r e => Engine.addPrefillTime e r elapsed
      if e.config.capabilities.prefillBatch then
        runBatch (.direct (.prefillBatch requests)) id count measure true batch
      else runBatch (.prefillFallback requests) id count measure true batch

end Prefill

section Decode

def decodeRequest (e : Engine S) (r : Ref) : DecodeRequest :=
  ⟨e.requestId r, (e.sequences r).state.sampling, (e.sequences r).state.generatedTokenIds.length⟩

def runDecode (ids : List String) : EngineM S Unit := do
  let e ← Coro.read
  let batch := ids.filterMap e.active.get?
  if batch ≠ [] then
    let requests := batch.map (decodeRequest e)
    let count := fun size e => Engine.countDecode e size
    let measure := fun elapsed r e => Engine.addDecodeTime e r elapsed
    if e.config.capabilities.decodeBatch then
      runBatch (.direct (.decodeBatch requests)) id count measure false batch
    else runBatch (.decodeFallback requests) id count measure false batch

end Decode

def finishIfInterrupted (r : Ref) : EngineM S Unit := do
  match ← checkInterruption r with
  | some reason => complete r reason
  | none => return

/-- `for runtime in tuple(self._active.values())`. -/
def finishInterrupted : List Ref → EngineM S Unit
  | [] => pure ()
  | r :: rest => do
    finishIfInterrupted r
    finishInterrupted rest

/-- One turn of the scheduler loop; the answer is whether the loop goes on. -/
def schedulerIteration : EngineM S Bool := do
  let e ← Coro.read
  if e.closed ∧ e.active.size = 0 then return false
  finishInterrupted e.active.values
  let decision ← Coro.sync Engine.decision
  if decision.prefillIds ≠ [] then
    runPrefill decision.prefillIds
    return true
  else if decision.decodeIds ≠ [] then
    runDecode decision.decodeIds
    return true
  else
    Coro.modify Engine.clearWake
    let e ← Coro.read
    if e.closed ∧ e.active.size = 0 then return false
    Coro.request EngineOp.wakeWait
    return true

end TokenGenerationEngine

end ServingPlatform

namespace ServingPlatform

variable {S : Type}

/-- The first part of `stream`: the sequence is looked up and the scheduler started. -/
def Engine.openStream (e : Engine S) (requestId : String) : Except Raised Ref × Engine S :=
  match (e.active.get? requestId).or (e.finished.get? requestId) with
  | none => (.error (keyError s!"sequence is not reserved: {requestId}"), e)
  | some r => (.ok r, e.ensureScheduler)

def Engine.queueEmpty (e : Engine S) (r : Ref) : Bool := (e.sequences r).events.length ≤ (e.sequences r).taken

namespace TokenGenerationEngine

def streamEvent (r : Ref) (requestId : String) : EngineM S Bool := do
  let event : StreamEvent ← Coro.request (EngineOp.nextEvent r)
  match event with
  | .failure error => Coro.raise error
  | .token _ =>
    Coro.request (EngineOp.yieldEvent event)
    return true
  | .complete _ =>
    Coro.request (EngineOp.yieldEvent event)
    Coro.modify fun e => e.popFinished requestId
    return false

/-- `except asyncio.CancelledError`. -/
def streamCancelled (r : Ref) (requestId : String) (error : Raised) : EngineM S Bool := do
  if error.kind = .cancelledError then
    Coro.modify fun e => e.setCancellation r
    Coro.modify Engine.setWake
    Coro.request (EngineOp.doneWait r)
    Coro.modify fun e => e.popFinished requestId
  Coro.raise error

/-- The `finally` block. -/
def streamFinally (r : Ref) (requestId : String) : EngineM S Unit := do
  let e ← Coro.read
  if (e.sequences r).done then
    if e.queueEmpty r then
      Coro.modify fun e => e.popFinished requestId
  else
    Coro.modify fun e => e.setCancellation r
    Coro.modify Engine.setWake

/-- One turn of the loop of `stream`, with its handlers when the loop is left. -/
def streamIteration (r : Ref) (requestId : String) : EngineM S Bool := do
  let turn := (streamEvent r requestId).catchError (streamCancelled r requestId)
  match ← turn.attempt with
  | .ok true => return true
  | result =>
    streamFinally r requestId
    Coro.lift result

def completeAll : List Ref → EngineM S Unit
  | [] => pure ()
  | r :: rest => do
    complete r .cancelled
    completeAll rest

def shutdown : EngineM S Bool := do
  let e ← Coro.read
  if e.closed then return false
  Coro.modify Engine.close
  match e.schedulerTask with
  | some _ => Coro.request EngineOp.schedulerDone
  | none => completeAll e.active.values
  Coro.modify Engine.clearPrefixCache
  Coro.request EngineOp.backendShutdown
  Coro.modify Engine.closeExecutor
  return false

end TokenGenerationEngine

end ServingPlatform
