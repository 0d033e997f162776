import Mathlib.Data.List.Sort
import ServingPlatform.KvCache.Allocator
import ServingPlatform.PrefixCache.Cache
import ServingPlatform.TokenEngine.Backend
import ServingPlatform.TokenTypes

namespace ServingPlatform

inductive TokenSchedulingPolicyName
  | prefillFirst
  | decodeFirst
  | balanced
  deriving DecidableEq

def TokenSchedulingPolicyName.ofString : String → Except Raised TokenSchedulingPolicyName
  | "prefill_first" => .ok .prefillFirst
  | "decode_first" => .ok .decodeFirst
  | "balanced" => .ok .balanced
  | name => .error (valueError s!"'{name}' is not a valid TokenSchedulingPolicyName")

structure TokenResourceSnapshot where
  availableSlots : Int
  freeKvBlocks : Nat
  maxBatchSize : Nat

structure TokenSchedulingDecision where
  prefillIds : List String := []
  decodeIds : List String := []
  reason : String := ""

structure PrefillDecodePolicy where
  name : TokenSchedulingPolicyName
  balancedDecodeTurn : Bool := false

/-- One iteration's workload: prefill or decode, never both. The balanced
policy takes turns and remembers whose turn it is. -/
def PrefillDecodePolicy.select (policy : PrefillDecodePolicy) (waiting running : List SequenceState)
    (resources : TokenResourceSnapshot) : TokenSchedulingDecision × PrefillDecodePolicy :=
  let waitingIds := (waiting.take resources.maxBatchSize).map SequenceState.requestId
  let runningIds := (running.take resources.maxBatchSize).map SequenceState.requestId
  match policy.name with
  | .prefillFirst =>
    if waitingIds ≠ [] then ({ prefillIds := waitingIds, reason := "prefill_first" }, policy)
    else ({ decodeIds := runningIds, reason := "decode_fallback" }, policy)
  | .decodeFirst =>
    if runningIds ≠ [] then ({ decodeIds := runningIds, reason := "decode_first" }, policy)
    else ({ prefillIds := waitingIds, reason := "prefill_fallback" }, policy)
  | .balanced =>
    let turned := { policy with balancedDecodeTurn := !policy.balancedDecodeTurn }
    if turned.balancedDecodeTurn ∧ runningIds ≠ [] then
      ({ decodeIds := runningIds, reason := "balanced_decode" }, turned)
    else if waitingIds ≠ [] then ({ prefillIds := waitingIds, reason := "balanced_prefill" }, turned)
    else ({ decodeIds := runningIds, reason := "balanced_decode_fallback" }, turned)

/-- A decision names waiting sequences to prefill and running ones to decode,
in order and each once. -/
theorem PrefillDecodePolicy.select_ids (policy : PrefillDecodePolicy) (waiting running : List SequenceState)
    (resources : TokenResourceSnapshot) :
    (policy.select waiting running resources).1.prefillIds.Sublist (waiting.map SequenceState.requestId) ∧
      (policy.select waiting running resources).1.decodeIds.Sublist (running.map SequenceState.requestId) := by
  have front : ∀ states : List SequenceState,
      ((states.take resources.maxBatchSize).map SequenceState.requestId).Sublist
        (states.map SequenceState.requestId) := fun states => (List.take_sublist _ states).map _
  have none : ∀ ids : List String, [].Sublist ids := fun ids => List.nil_sublist ids
  unfold select
  cases policy.name with
  | prefillFirst =>
    dsimp only
    split
    · exact ⟨front waiting, none _⟩
    · exact ⟨none _, front running⟩
  | decodeFirst =>
    dsimp only
    split
    · exact ⟨none _, front running⟩
    · exact ⟨front waiting, none _⟩
  | balanced =>
    dsimp only
    split
    · exact ⟨none _, front running⟩
    · split
      · exact ⟨front waiting, none _⟩
      · exact ⟨none _, front running⟩

end ServingPlatform

namespace ServingPlatform

/-- The identity of a sequence object: the number of such objects made before it. -/
abbrev Ref := Nat

inductive StreamEvent
  | token (token : GeneratedToken)
  | complete (completion : GenerationComplete)
  | failure (error : Raised)
  deriving DecidableEq

/-- `events` lists everything ever put on the sequence's queue; consumers
have taken the first `taken` of them. -/
structure ScheduledSequence where
  state : SequenceState
  events : List StreamEvent := []
  taken : Nat := 0
  done : Bool := false
  tokenized : Option TokenizedPrompt := none
  backendCreated : Bool := false
  cacheTokens : Nat := 0
  prefillOffset : Nat := 0

/-- The optional methods a backend has. -/
structure Capabilities where
  restorePrefix : Bool
  resumePrefix : Bool
  snapshotPrefix : Bool
  prefillBatch : Bool
  prefillChunk : Bool
  decodeBatch : Bool

/-- The engine's settings, with the checks of `__init__` as fields. -/
structure EngineConfig where
  maxActiveSequences : Nat
  maxBatchSize : Nat
  prefillChunkSizeTokens : Nat
  capabilities : Capabilities
  activePositive : 0 < maxActiveSequences
  batchPositive : 0 < maxBatchSize

def EngineConfig.ofArguments (capabilities : Capabilities) (maxActiveSequences : Int) (maxBatchSize : Option Int)
    (prefillChunkSizeTokens : Int) : Except Raised EngineConfig :=
  if active : maxActiveSequences ≤ 0 then .error (valueError "maximum active sequences must be positive")
  else if batch : maxBatchSize.any (· ≤ 0) then .error (valueError "token batch size must be positive")
  else if prefillChunkSizeTokens < 0 then .error (valueError "prefill chunk size must be non-negative")
  else .ok {
    maxActiveSequences := maxActiveSequences.toNat
    maxBatchSize := (maxBatchSize.getD maxActiveSequences).toNat
    prefillChunkSizeTokens := prefillChunkSizeTokens.toNat
    capabilities
    activePositive := by omega
    batchPositive := by
      cases maxBatchSize with
      | none => simp only [Option.getD_none]; omega
      | some size => simp at batch; simp only [Option.getD_some]; omega }

/-- The scheduler's task object, once it is created. -/
inductive SchedulerTask
  | running
  | returned
  | raised (error : Raised)
  deriving DecidableEq

/-- The engine object. `sequences` holds the sequence objects, `created` of
them so far; `executorClosed` is the flag of its executor. -/
structure Engine (S : Type) where
  config : EngineConfig
  policy : PrefillDecodePolicy
  kvAllocator : KVBlockAllocator
  prefixCache : PrefixCache S
  sequences : Ref → ScheduledSequence
  created : Nat := 0
  active : Dict String Ref := .empty
  finished : Dict String Ref := .empty
  schedulerTask : Option SchedulerTask := none
  wake : Bool := false
  closed : Bool := false
  executorClosed : Bool := false
  eosIds : Option (List TokenId) := none
  iterations : Nat := 0
  prefillBatches : Nat := 0
  decodeBatches : Nat := 0
  maxObservedBatchSize : Nat := 0

/-- Stands for the sequence objects not made yet. -/
def ScheduledSequence.blank : ScheduledSequence where
  state := {
    requestId := ""
    prompt := ""
    sampling := .unstopped 1 Nat.one_pos
    deadline := 0
    createdAt := 0 }

def FinishReason.phase : FinishReason → SequencePhase
  | .cancelled => .cancelled
  | .timeout => .timedOut
  | .failed => .failed
  | .eos | .stop | .length => .completed

namespace Engine

variable {S : Type}

/-- A new engine over a new allocator and a new prefix cache. -/
def new (config : EngineConfig) (policy : TokenSchedulingPolicyName) (dimensions : KvDimensions)
    (prefixCache : PrefixCache S) : Engine S where
  config := config
  policy := { name := policy }
  kvAllocator := .ofDimensions dimensions
  prefixCache := prefixCache
  sequences := fun _ => .blank

def requestId (e : Engine S) (r : Ref) : String := (e.sequences r).state.requestId

def modifySequence (e : Engine S) (r : Ref) (f : ScheduledSequence → ScheduledSequence) : Engine S :=
  { e with sequences := fun r' => if r' = r then f (e.sequences r) else e.sequences r' }

def setCancellation (e : Engine S) (r : Ref) : Engine S :=
  e.modifySequence r fun runtime => { runtime with state := { runtime.state with cancellation := true } }

def setWake (e : Engine S) : Engine S := { e with wake := true }

def cancel (e : Engine S) (requestId : String) : Bool × Engine S :=
  match e.active.get? requestId with
  | none => (false, e)
  | some r =>
    if (e.sequences r).state.terminal then (false, e) else (true, (e.setCancellation r).setWake)

/-- The new sequence object of an admitted request. -/
def admitSequence (e : Engine S) (state : SequenceState) (kvAllocator : KVBlockAllocator) : Engine S :=
  { e with
    kvAllocator := kvAllocator
    sequences := fun r => if r = e.created then { state } else e.sequences r
    created := e.created + 1
    active := e.active.insert state.requestId e.created
    wake := true }

def reserve (e : Engine S) (requestId prompt : String) (sampling : SamplingParameters) (deadline : Seconds)
    (promptTokenCount : Int) (createdAt : Seconds) : Except Raised Unit × Engine S :=
  if e.closed then (.error (runtimeError "generation engine is shut down"), e)
  else if e.active.contains requestId || e.finished.contains requestId then
    (.error (valueError s!"sequence already exists: {requestId}"), e)
  else if e.config.maxActiveSequences ≤ e.active.size then
    (.error ⟨.engineCapacityError, "token engine is at sequence capacity"⟩, e)
  else match e.kvAllocator.allocate requestId (promptTokenCount + sampling.maxNewTokens) with
    | (.error raised, kvAllocator) =>
      (.error (if raised.kind = .kvCacheCapacityError then ⟨.engineCapacityError, raised.message⟩ else raised),
        { e with kvAllocator })
    | (.ok blocks, kvAllocator) =>
      (.ok (), e.admitSequence { requestId, prompt, sampling, deadline, createdAt, kvBlockIds := blocks } kvAllocator)

section Scheduling

/-- `sorted(..., key=created_at)` over the active sequences in some phase. -/
def sequencesIn (e : Engine S) (phases : SequencePhase → Bool) : List Ref :=
  (e.active.values.filter fun r => phases (e.sequences r).state.phase).insertionSort
    fun r r' => (e.sequences r).state.createdAt ≤ (e.sequences r').state.createdAt

def waiting (e : Engine S) : List Ref := e.sequencesIn fun phase => phase = .queued ∨ phase = .prefill

def running (e : Engine S) : List Ref := e.sequencesIn fun phase => phase = .decode

def cacheTokensOf (e : Engine S) (requestId : String) : Nat :=
  (e.active.get? requestId).elim 0 fun r => (e.sequences r).cacheTokens

/-- Only the decode requests with the shortest physical caches run together. -/
def compatible (e : Engine S) (ids : List String) : List String :=
  let target := (ids.map e.cacheTokensOf).min?.getD 0
  ids.filter fun id => e.cacheTokensOf id = target

def decision (e : Engine S) : Except Raised TokenSchedulingDecision × Engine S :=
  let resources : TokenResourceSnapshot := {
    availableSlots := e.config.maxActiveSequences - e.active.size
    freeKvBlocks := e.kvAllocator.free.length
    maxBatchSize := e.config.maxBatchSize }
  let (decision, policy) := e.policy.select (e.waiting.map fun r => (e.sequences r).state)
    (e.running.map fun r => (e.sequences r).state) resources
  let decided := if decision.decodeIds ≠ [] then
    { decodeIds := e.compatible decision.decodeIds, reason := decision.reason } else decision
  (.ok decided, { e with policy })

end Scheduling

section Updates

def setPhase (e : Engine S) (r : Ref) (phase : SequencePhase) : Engine S :=
  e.modifySequence r fun runtime => { runtime with state := { runtime.state with phase } }

def setTokenized (e : Engine S) (r : Ref) (prompt : TokenizedPrompt) : Engine S :=
  e.modifySequence r fun runtime => { runtime with
    tokenized := some prompt
    state := { runtime.state with promptTokenIds := prompt.tokenIds } }

/-- The tokens of a prompt and all that may be generated for it. -/
def totalTokens (e : Engine S) (r : Ref) (prompt : TokenizedPrompt) : Nat :=
  prompt.tokenIds.length + (e.sequences r).state.sampling.maxNewTokens

/-- What the engine keeps of a resized reservation. -/
def noteResize (e : Engine S) (r : Ref) : Except Raised (List BlockId) × KVBlockAllocator → Except Raised Unit × Engine S
  | (.error raised, kvAllocator) => (.error raised, { e with kvAllocator })
  | (.ok blocks, kvAllocator) => (.ok (), { e with kvAllocator }.modifySequence r fun runtime =>
      { runtime with state := { runtime.state with kvBlockIds := blocks } })

/-- The reservation is resized to the prompt's real length. -/
def resizeReservation (e : Engine S) (r : Ref) (prompt : TokenizedPrompt) : Except Raised Unit × Engine S :=
  e.noteResize r (e.kvAllocator.resize (e.requestId r) (e.totalTokens r prompt))

def beginPrefill (e : Engine S) (r : Ref) : Engine S :=
  e.modifySequence r fun runtime =>
    { runtime with state := { runtime.state with phase := .prefill }, backendCreated := true }

def lookupPrefix (e : Engine S) (tokenIds : List TokenId) (exactOnly : Bool) :
    Except Raised (Option (PrefixMatch S)) × Engine S :=
  ((e.prefixCache.longestPrefix tokenIds exactOnly).1,
    { e with prefixCache := (e.prefixCache.longestPrefix tokenIds exactOnly).2 })

def putPrefix (e : Engine S) (tokenIds : List TokenId) (snapshot : S) : Except Raised Bool × Engine S :=
  ((e.prefixCache.put tokenIds snapshot).1, { e with prefixCache := (e.prefixCache.put tokenIds snapshot).2 })

def addPrefillTime (e : Engine S) (r : Ref) (elapsed : Int) : Engine S :=
  e.modifySequence r fun runtime =>
    { runtime with state := { runtime.state with prefillMs := runtime.state.prefillMs + elapsed * 1000 } }

def addDecodeTime (e : Engine S) (r : Ref) (elapsed : Int) : Engine S :=
  e.modifySequence r fun runtime =>
    { runtime with state := { runtime.state with decodeMs := runtime.state.decodeMs + elapsed * 1000 } }

def setCacheTokens (e : Engine S) (r : Ref) (cacheTokens : Nat) : Engine S :=
  e.modifySequence r fun runtime => { runtime with cacheTokens }

def setPrefillOffset (e : Engine S) (r : Ref) (prefillOffset : Nat) : Engine S :=
  e.modifySequence r fun runtime => { runtime with prefillOffset }

def countPrefill (e : Engine S) (batchSize : Nat) : Engine S :=
  { e with
    iterations := e.iterations + 1
    prefillBatches := e.prefillBatches + 1
    maxObservedBatchSize := max e.maxObservedBatchSize batchSize }

def countDecode (e : Engine S) (batchSize : Nat) : Engine S :=
  { e with
    iterations := e.iterations + 1
    decodeBatches := e.decodeBatches + 1
    maxObservedBatchSize := max e.maxObservedBatchSize batchSize }

def setEosIds (e : Engine S) (eosIds : List TokenId) : Engine S := { e with eosIds := some eosIds }

def clearBackendCreated (e : Engine S) (r : Ref) : Engine S :=
  e.modifySequence r fun runtime => { runtime with backendCreated := false }

/-- An accepted token goes to the sequence and to its queue. -/
def emit (e : Engine S) (r : Ref) (token : GeneratedToken) : Engine S :=
  e.modifySequence r fun runtime => { runtime with
    state := { runtime.state with
      phase := .decode
      generatedTokenIds := runtime.state.generatedTokenIds ++ [token.tokenId] }
    events := runtime.events ++ [.token token] }

/-- The end of `_complete` and `_fail`: blocks are released, the sequence moves
to the finished ones and its terminal event is put. -/
def retire (e : Engine S) (r : Ref) (event : ScheduledSequence → StreamEvent) : Except Raised Unit × Engine S :=
  match e.kvAllocator.release (e.requestId r) with
  | (.error raised, kvAllocator) => (.error raised, { e with kvAllocator })
  | (.ok _, kvAllocator) => (.ok (), { e.modifySequence r fun runtime =>
      { runtime with events := runtime.events ++ [event runtime], done := true } with
    kvAllocator := kvAllocator
    active := e.active.erase (e.requestId r)
    finished := e.finished.insert (e.requestId r) r
    wake := true })

def clearWake (e : Engine S) : Engine S := { e with wake := false }

def popFinished (e : Engine S) (requestId : String) : Engine S := { e with finished := e.finished.erase requestId }

def ensureScheduler (e : Engine S) : Engine S :=
  { e with schedulerTask := some (e.schedulerTask.getD .running) }

/-- `shutdown` closes the engine and cancels what is active. -/
def close (e : Engine S) : Engine S :=
  { e with
    closed := true
    wake := true
    sequences := fun r => if r ∈ e.active.values then
      { e.sequences r with state := { (e.sequences r).state with cancellation := true } } else e.sequences r }

def clearPrefixCache (e : Engine S) : Engine S := { e with prefixCache := e.prefixCache.clear }

def closeExecutor (e : Engine S) : Engine S := { e with executorClosed := true }

end Updates

end Engine

end ServingPlatform
