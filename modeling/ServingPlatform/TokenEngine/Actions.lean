import ServingPlatform.TokenEngine.Views

namespace ServingPlatform

variable {S : Type} {backend : InferenceBackend S}

/-- Updates no invariant depends on: flags that only go up, times, counters and queues' readers. -/
structure Engine.Quiet (e e' : Engine S) : Prop where
  config : e'.config = e.config
  policy : e'.policy = e.policy
  kvAllocator : e'.kvAllocator = e.kvAllocator
  prefixCache : e'.prefixCache = e.prefixCache
  sequences : ∀ r, (e'.sequences r).vital = (e.sequences r).vital
  cancellation : ∀ r, (e.sequences r).state.cancellation = true → (e'.sequences r).state.cancellation = true
  created : e'.created = e.created
  active : e'.active = e.active
  finished : e'.finished = e.finished
  schedulerTask : e'.schedulerTask = e.schedulerTask
  closed : e.closed = true → e'.closed = true
  executorClosed : e'.executorClosed = e.executorClosed
  eosIds : e'.eosIds = e.eosIds

namespace Shared

/-- When a sequence may leave its live phases. -/
def MayClose (t : Shared backend) (r : Ref) (phase : SequencePhase) : Prop :=
  phase = .failed ∨ (t.view r).phase.isTerminal = false ∧
    (phase = .cancelled ∧ t.Cancelled r ∨ (phase = .completed ∨ phase = .timedOut) ∧ ¬ t.Cancelled r)

/-- What must hold when a sequence completes for a reason. -/
def ReasonHolds (t : Shared backend) (r : Ref) : FinishReason → Prop
  | .length => (t.view r).limit ≤ (t.view r).generated.length
  | .eos => (t.view r).generated.length < (t.view r).limit ∧ ∃ token eosIds,
      (t.view r).answered[(t.view r).generated.length]? = some token ∧ t.engine.eosIds = some eosIds ∧
        token.tokenId ∈ eosIds
  | .stop => (t.view r).generated.length < (t.view r).limit ∧ ∃ token,
      (t.view r).answered[(t.view r).generated.length]? = some token ∧
        token.tokenId ∈ (t.view r).sequence.state.sampling.stopTokenIds
  | .cancelled | .timeout => (t.view r).generated.length < (t.view r).limit
  | .failed => False

/-- The terminal events a sequence may get, with the phases they come from. -/
inductive FinalEvent (t : Shared backend) (r : Ref) : SequencePhase → (ScheduledSequence → StreamEvent) → Prop
  | complete (reason : FinishReason) (clean : (t.view r).Clean) (holds : t.ReasonHolds r reason) :
      FinalEvent t r reason.phase fun runtime => .complete (TokenGenerationEngine.completion reason runtime)
  | failure (error : Raised) (blames : (t.view r).Blames error) : FinalEvent t r .failed fun _ => .failure error

/-- The scheduler's atomic updates with what it has established for each. -/
inductive Action : Shared backend → Shared backend → Prop
  | quiet {t : Shared backend} {e : Engine S} (same : t.engine.Quiet e) : Action t (t.withEngine e)
  | tokenized {t : Shared backend} {r : Ref} {prompt : TokenizedPrompt} (active : t.ActiveRef r)
      (phase : (t.view r).phase = .queued) (new : (t.view r).sequence.tokenized = none)
      (generated : (t.view r).generated = []) (backendCreated : (t.view r).sequence.backendCreated = false) :
      Action t (t.withEngine (t.engine.setTokenized r prompt))
  | resized {t : Shared backend} {r : Ref} {prompt : TokenizedPrompt} (active : t.ActiveRef r)
      (backendCreated : (t.view r).sequence.backendCreated = false) :
      Action t (t.withEngine (t.engine.resizeReservation r prompt).2)
  | beginPrefill {t : Shared backend} {r : Ref} {prompt : TokenizedPrompt} (active : t.ActiveRef r)
      (task : t.engine.schedulerTask = some .running)
      (phase : (t.view r).phase = .queued ∨ (t.view r).phase = .prefill)
      (promptable : (t.view r).Promptable t.engine.config t.engine.kvAllocator.dimensions prompt) :
      Action t (t.withEngine (t.engine.beginPrefill r))
  | lookup {t : Shared backend} {tokenIds : List TokenId} {exactOnly : Bool} :
      Action t (t.withEngine (t.engine.lookupPrefix tokenIds exactOnly).2)
  | advanced {t : Shared backend} {r : Ref} {stop : Nat} (active : t.ActiveRef r)
      (phase : (t.view r).phase = .prefill) (submitted : (t.view r).submitted = stop) :
      Action t (t.withEngine (t.engine.setPrefillOffset r stop))
  | eosKnown {t : Shared backend} {eosIds : List TokenId} (unknown : t.engine.eosIds = none) :
      Action t (t.withEngine (t.engine.setEosIds eosIds))
  | stored {t : Shared backend} {r : Ref} {prompt : TokenizedPrompt} {snapshot : S} {rest : List (CallRecord S)}
      (active : t.ActiveRef r) (prompted : (t.view r).sequence.tokenized = some prompt)
      (last : t.log = ⟨.direct (.snapshotPrefix (t.engine.requestId r)), [r], .ok snapshot⟩ :: rest) :
      Action t (t.withEngine (t.engine.putPrefix prompt.tokenIds snapshot).2)
  | closing {t : Shared backend} {r : Ref} {phase : SequencePhase} (active : t.ActiveRef r)
      (may : t.MayClose r phase) : Action t (t.withEngine (t.engine.setPhase r phase))
  | released {t : Shared backend} {r : Ref} (active : t.ActiveRef r)
      (phase : (t.view r).phase.isTerminal = true)
      (gone : ¬ backend.held t.backendState (t.engine.requestId r)) :
      Action t (t.withEngine (t.engine.clearBackendCreated r))
  | cached {t : Shared backend} {r : Ref} {token : GeneratedToken} (active : t.ActiveRef r)
      (pending : (t.view r).Pending t.engine.kvAllocator.dimensions token) :
      Action t (t.withEngine (t.engine.setCacheTokens r token.cacheTokens))
  | emitted {t : Shared backend} {r : Ref} {token : GeneratedToken} {eosIds : List TokenId} (active : t.ActiveRef r)
      (pending : (t.view r).Pending t.engine.kvAllocator.dimensions token) (live : ¬ t.Cancelled r)
      (eos : t.engine.eosIds = some eosIds) (notEos : token.tokenId ∉ eosIds)
      (notStop : token.tokenId ∉ (t.view r).sequence.state.sampling.stopTokenIds) :
      Action t (t.withEngine (t.engine.emit r token))
  | retired {t : Shared backend} {r : Ref} {event : ScheduledSequence → StreamEvent} (active : t.ActiveRef r)
      (phase : (t.view r).phase.isTerminal = true) (released : (t.view r).sequence.backendCreated = false)
      (final : t.FinalEvent r (t.view r).phase event) : Action t (t.withEngine (t.engine.retire r event).2)

/-- The atomic updates of reservations, cancellations, streams and shutdowns. -/
inductive ClientAction : Shared backend → Shared backend → Prop
  | quiet {t : Shared backend} {e : Engine S} (same : t.engine.Quiet e) : ClientAction t (t.withEngine e)
  | reserve {t : Shared backend} {requestId prompt : String} {sampling : SamplingParameters} {deadline : Seconds}
      {promptTokenCount : Int} {createdAt : Seconds} : ClientAction t
        (t.withEngine (t.engine.reserve requestId prompt sampling deadline promptTokenCount createdAt).2)
  | ensureScheduler {t : Shared backend} : ClientAction t (t.withEngine t.engine.ensureScheduler)
  | popFinished {t : Shared backend} {requestId : String} :
      ClientAction t (t.withEngine (t.engine.popFinished requestId))
  | clearPrefixCache {t : Shared backend} (idle : t.engine.schedulerTask ≠ some .running) :
      ClientAction t (t.withEngine t.engine.clearPrefixCache)
  | closeExecutor {t : Shared backend} (closed : t.engine.closed = true) (none : ∀ r, ¬ t.ActiveRef r) :
      ClientAction t (t.withEngine t.engine.closeExecutor)
  | action {t t' : Shared backend} (idle : t.engine.schedulerTask = none) (action : Action t t') : ClientAction t t'

/-- The requests of a prefill batch, each for a sequence of its own. -/
def PrefillGuard (t : Shared backend) (sequences : List Ref) (requests : List PrefillRequest) : Prop :=
  sequences.Nodup ∧ t.engine.config.prefillChunkSizeTokens = 0 ∧
    List.Forall₂ (fun r request => t.ActiveRef r ∧
      (t.view r).Prefilling t.engine.config t.engine.kvAllocator.dimensions request.prompt ∧
      request.sequenceId = t.engine.requestId r) sequences requests

def DecodeGuard (t : Shared backend) (sequences : List Ref) (requests : List DecodeRequest) : Prop :=
  sequences.Nodup ∧ (∃ length, ∀ r ∈ sequences, (t.view r).sequence.cacheTokens = length) ∧
    List.Forall₂ (fun r request => t.ActiveRef r ∧ (t.view r).Decoding t.engine.kvAllocator.dimensions ∧
      request.sequenceId = t.engine.requestId r ∧ request.index = (t.view r).generated.length) sequences requests

/-- What the scheduler has established when it makes a backend call. -/
inductive CallGuard (t : Shared backend) : BackendCall S → List Ref → Prop
  | tokenize {r : Ref} {prompt : String} (active : t.ActiveRef r) (fresh : (t.view r).Fresh) :
      CallGuard t (.direct (.tokenize prompt)) [r]
  | prefillBatch {sequences : List Ref} {requests : List PrefillRequest}
      (guard : t.PrefillGuard sequences requests) : CallGuard t (.direct (.prefillBatch requests)) sequences
  | prefillFallback {sequences : List Ref} {requests : List PrefillRequest}
      (guard : t.PrefillGuard sequences requests) : CallGuard t (.prefillFallback requests) sequences
  | prefillChunk {r : Ref} {prompt chunk : TokenizedPrompt} {parameters : SamplingParameters} {final : Bool}
      (active : t.ActiveRef r)
      (prefilling : (t.view r).Prefilling t.engine.config t.engine.kvAllocator.dimensions prompt)
      (bounded : chunk.tokenIds.length ≤ t.engine.config.prefillChunkSizeTokens)
      (piece : prompt.tokenIds.take ((t.view r).submitted + chunk.tokenIds.length) =
        prompt.tokenIds.take (t.view r).submitted ++ chunk.tokenIds)
      (last : final = true ↔ (t.view r).submitted + chunk.tokenIds.length = prompt.tokenIds.length) :
      CallGuard t (.direct (.prefillChunk (t.engine.requestId r) chunk parameters final)) [r]
  | restorePrefix {r : Ref} {prompt : TokenizedPrompt} {entry : PrefixCacheEntry S} {parameters : SamplingParameters}
      (active : t.ActiveRef r)
      (prefilling : (t.view r).Prefilling t.engine.config t.engine.kvAllocator.dimensions prompt)
      (cached : t.engine.prefixCache.entries.get? prompt.tokenIds = some entry) :
      CallGuard t (.direct (.restorePrefix (t.engine.requestId r) entry.backendState parameters)) [r]
  | resumePrefix {r : Ref} {prompt suffix : TokenizedPrompt} {key : List TokenId} {entry : PrefixCacheEntry S}
      {parameters : SamplingParameters} (active : t.ActiveRef r)
      (prefilling : (t.view r).Prefilling t.engine.config t.engine.kvAllocator.dimensions prompt)
      (cached : t.engine.prefixCache.entries.get? key = some entry)
      (split : prompt.tokenIds = key ++ suffix.tokenIds)
      (longest : ∀ other, other <+: prompt.tokenIds → t.engine.prefixCache.entries.get? other ≠ none →
        other.length ≤ key.length) :
      CallGuard t (.direct (.resumePrefix (t.engine.requestId r) entry.backendState suffix parameters)) [r]
  | snapshotPrefix {r : Ref} {token : GeneratedToken} (active : t.ActiveRef r)
      (pending : (t.view r).Pending t.engine.kvAllocator.dimensions token) (first : (t.view r).generated = []) :
      CallGuard t (.direct (.snapshotPrefix (t.engine.requestId r))) [r]
  | decodeBatch {sequences : List Ref} {requests : List DecodeRequest}
      (guard : t.DecodeGuard sequences requests) : CallGuard t (.direct (.decodeBatch requests)) sequences
  | decodeFallback {sequences : List Ref} {requests : List DecodeRequest}
      (guard : t.DecodeGuard sequences requests) : CallGuard t (.decodeFallback requests) sequences
  | eosTokenIds {sequences : List Ref} (active : ∀ r ∈ sequences, t.ActiveRef r) :
      CallGuard t (.direct .eosTokenIds) sequences
  | releaseSequence {r : Ref} (active : t.ActiveRef r) (phase : (t.view r).phase.isTerminal = true) :
      CallGuard t (.direct (.releaseSequence (t.engine.requestId r))) [r]

/-- The steps that explain every run: atomic updates and backend calls. -/
inductive Step : Shared backend → Shared backend → Prop
  | scheduler {t t' : Shared backend} (action : Action t t') : Step t t'
  | decided {t : Shared backend} : Step t (t.withEngine t.engine.decision.2)
  | client {t t' : Shared backend} (action : ClientAction t t') : Step t t'
  | call {t : Shared backend} {command : BackendCall S} {sequences : List Ref} {result : Except Raised command.Answer}
      {after : backend.State} (guard : CallGuard t command sequences)
      (run : backend.Runs command t.backendState result after) :
      Step t (t.record command sequences result after)
  | stop {t : Shared backend} {result : Except Raised Unit} {after : backend.State}
      (closed : t.engine.closed = true) (none : ∀ r, ¬ t.ActiveRef r)
      (run : backend.Runs (.direct .shutdown) t.backendState result after) :
      Step t { t with backendState := after }
  | schedulerReturned {t : Shared backend} (closed : t.engine.closed = true) (none : ∀ r, ¬ t.ActiveRef r) :
      Step t (t.withEngine { t.engine with schedulerTask := some .returned })
  | schedulerRaised {t : Shared backend} {error : Raised} (task : t.engine.schedulerTask = some .running) :
      Step t (t.withEngine { t.engine with schedulerTask := some (.raised error) })

def initial (backend : InferenceBackend S) (setup : EngineSetup) : Shared backend := ⟨setup.engine, backend.start, []⟩

/-- What can come about from a new engine by the steps above. -/
def Reach (setup : EngineSetup) : Shared backend → Prop := Relation.ReflTransGen Step (initial backend setup)

end Shared

end ServingPlatform
