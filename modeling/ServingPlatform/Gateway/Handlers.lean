import ServingPlatform.ControlPlane.Pipeline
import ServingPlatform.RequestScheduler.Loop
import ServingPlatform.TokenEngine.System

namespace ServingPlatform

/-- The terminal state of a request record for a terminal status. -/
def RequestStatus.recordState : RequestStatus → Option RequestState
  | .completed => some .completed
  | .failed => some .failed
  | .rejected => some .rejected
  | .timeout => some .timedOut
  | .cancelled => some .cancelled
  | .received | .queued | .running => none

/-- What a stream makes of the way its generation ended. -/
def FinishReason.itemStatus : FinishReason → RequestStatus
  | .cancelled => .cancelled
  | .timeout => .timeout
  | .failed => .failed
  | .eos | .stop | .length => .completed

/-- `except Exception` catches it. -/
def ExceptionClass.isException : ExceptionClass → Bool
  | .cancelledError | .generatorExit => false
  | _ => true

structure GatewaySettings where
  scheduling : SchedulerSettings
  modelName : String

/-- The body of a generation request. -/
structure GenerateRequest where
  prompt : String
  maxNewTokens : Int
  temperature : Rat
  priority : Int
  deadlineSeconds : Option Seconds

def apiError (code message : String) : Raised := ⟨.other "APIError" false, s!"{code}: {message}"⟩

/-- A new item, before any of its times is set. -/
def InferenceRequest.new (body : GenerateRequest) (estimatedTokens : Int) (deadlineAt : Option Seconds) : InferenceRequest where
  prompt := body.prompt
  maxNewTokens := body.maxNewTokens
  temperature := body.temperature
  estimatedTokens := estimatedTokens
  queuedAt := 0
  startedAt := 0
  completedAt := 0
  inputTokens := 0
  outputTokens := 0
  status := .received
  resultText := ""
  errorMessage := ""
  batchSize := 1
  workerTokenizationMs := 0
  generationMs := 0
  decodingMs := 0
  batchCollectionMs := 0
  future := .missing
  metricsRecorded := false
  deadlineAt := deadlineAt

/-- `_platform_request`. -/
def platformRequest (settings : GatewaySettings) (body : GenerateRequest) (requestId tenantId : String) (promptTokens : Int)
    (now : Seconds) : Except Raised RequestRecord := do
  let submission : Submission := {
    tenantId := tenantId
    prompt := body.prompt
    promptTokens := promptTokens
    maxNewTokens := body.maxNewTokens
    temperature := body.temperature
    priority := body.priority
    deadlineSeconds := .finite (body.deadlineSeconds.getD settings.scheduling.requestTimeout) }
  let record ← submission.request requestId settings.modelName now
  let record ← record.transition .validated now
  let record ← record.transition .admitted now
  record.transition .queued now

/-- The transitions of `_finish_platform_request`; a start of zero is not set. -/
def RequestRecord.finished (record : RequestRecord) (status : RequestStatus) (startedAt now : Seconds) :
    Except Raised RequestRecord :=
  match status.recordState with
  | none => .ok record
  | some target =>
    if record.terminal then .ok record
    else if record.status = .queued ∧ startedAt ≠ 0 then do
      let record ← record.transition .running startedAt
      record.transition target now
    else record.transition target now

/-- Where a handler waits. `generate` has one place; the others are the awaits
and the yields of the response body of `generate_stream`, which reads the
engine's stream or the worker's, and of the engine's stream that it runs. -/
inductive HandlerPlace
  | waiting
  | unstarted
  | receiving (sequence : Ref)
  | yielding (sequence : Ref) (complete : Bool)
  | draining (sequence : Ref)
  | reading
  | chunkSent
  | doneSent
  | errorSent
  | failureSent
  | releasing (result : Except Raised Unit)
  | ended (result : Except Raised Unit)

def HandlerPlace.isYielding : HandlerPlace → Bool
  | yielding _ _ => true
  | _ => false

def HandlerPlace.isDraining : HandlerPlace → Bool
  | draining _ => true
  | _ => false

/-- A handler that has stored its record, of which it keeps its own copy. -/
structure Handler where
  item : RequestRef
  record : RequestRecord
  place : HandlerPlace

/-- The application state that the handlers share; `created` counts the items made so far. -/
structure Gateway {S : Type} (backend : InferenceBackend S) where
  scheduler : SchedulerSystem
  engine : Option (Configuration backend)
  platformRequests : RequestStore
  activeGatewayRequests : Dict String RequestRef
  handlers : List Handler
  created : Nat

/-- What lets a handler go on: an item of the worker's stream where it reads one. -/
inductive HandlerResumption
  | proceed
  | chunk (outputTokens : Int)
  | exhausted
  | raises (raised : Raised)

namespace Gateway

variable {S : Type} {backend : InferenceBackend S}

section Operations

variable (g : Gateway backend)

def shared : Scheduling := g.scheduler.shared

def status (item : RequestRef) : RequestStatus := g.shared.status item

def withShared (shared : Scheduling) : Gateway backend := { g with scheduler := { g.scheduler with shared } }

def onEngine (f : Engine S → Engine S) : Gateway backend :=
  { g with engine := g.engine.map fun c => { c with shared := c.shared.withEngine (f c.shared.engine) } }

/-- `_finish_platform_request`. -/
def finishPlatformRequest (record : RequestRecord) (status : RequestStatus) (startedAt : Seconds) :
    Except Raised RequestRecord × Gateway backend :=
  let (now, shared) := g.shared.monotonic
  let g := g.withShared shared
  match record.finished status startedAt now with
  | .error raised => (.error raised, g)
  | .ok record =>
    match g.platformRequests.save record with
    | (.error raised, _) => (.error raised, g)
    | (.ok (), store) => (.ok record, { g with
        platformRequests := store
        activeGatewayRequests :=
          if record.terminal then g.activeGatewayRequests.erase record.requestId else g.activeGatewayRequests })

/-- `DELETE /v1/requests/{request_id}`; it answers with the state of the record. -/
def cancelRequest (requestId tenantId : String) : Except Raised RequestRecord × Gateway backend :=
  match g.platformRequests.get? requestId with
  | none => (.error (apiError "request_not_found" "request was not found"), g)
  | some record =>
    if record.tenantId ≠ tenantId then (.error (apiError "request_not_found" "request was not found"), g)
    else if record.terminal then (.error (apiError "request_already_terminal" "request is already terminal"), g)
    else
      match g.activeGatewayRequests.get? requestId with
      | none => (.error (apiError "request_not_cancellable" "request cannot be cancelled"), g)
      | some item =>
        let g := g.onEngine fun e => (e.cancel requestId).2
        let g := g.withShared (g.shared.cancel item "cancelled through request API")
        g.finishPlatformRequest record (g.status item) (g.shared.requests item).startedAt

/-- A new item object. -/
def addItem (item : InferenceRequest) : Gateway backend :=
  { g.withShared (g.shared.set g.created item) with created := g.created + 1 }

/-- The record of a new item goes to the store, and the item to the active ones. -/
def enter (record : RequestRecord) : Except Raised Unit × Gateway backend :=
  match g.platformRequests.create record with
  | (.error raised, _) => (.error raised, g)
  | (.ok (), store) => (.ok (), { g with
      platformRequests := store
      activeGatewayRequests := g.activeGatewayRequests.insert record.requestId (g.created - 1) })

/-- How `generate` answers a request that the scheduler's queue refuses. -/
def refuse (raised : Raised) : Except Raised Unit × Gateway backend :=
  if raised = queueFull then
    (.error (apiError "queue_full" "scheduler queue is full"), g.withShared (g.shared.measure fun m =>
      { m.rejected "queue_full" with queueFullRejections := m.queueFullRejections + 1 }))
  else
    (.error (apiError "service_shutting_down" "server is shutting down"),
      g.withShared (g.shared.measure (·.rejected "service_shutting_down")))

/-- `generate` after its validation, to its one await, at one reading of the clock. -/
def generate (settings : GatewaySettings) (body : GenerateRequest) (requestId tenantId : String) (tokens : Int) :
    Except Raised Unit × Gateway backend :=
  let (now, shared) := g.shared.monotonic
  let g := (g.withShared shared).addItem (.new body tokens (body.deadlineSeconds.map (now + ·)))
  match platformRequest settings body requestId tenantId tokens now with
  | .error raised => (.error raised, g)
  | .ok record =>
    match g.enter record with
    | (.error raised, g) => (.error raised, g)
    | (.ok (), g) =>
      let item := g.created - 1
      match g.shared.submit item with
      | (.ok (), shared) => (.ok (), { g with
          scheduler := { g.scheduler with shared, accepted := item :: g.scheduler.accepted }
          handlers := g.handlers ++ [⟨item, record, .waiting⟩] })
      | (.error raised, shared) =>
        match (g.withShared shared).finishPlatformRequest record .rejected 0 with
        | (.error other, g) => (.error other, g)
        | (.ok _, g) => g.refuse raised

/-- `engine.reserve` for a stream, if there is an engine. -/
def reserve (settings : GatewaySettings) (body : GenerateRequest) (sampling : SamplingParameters) (requestId : String)
    (tokens : Int) (deadlineAt : Option Seconds) (now : Seconds) : Except Raised Unit × Gateway backend :=
  match g.engine with
  | none => (.ok (), g)
  | some c =>
    let deadline := (deadlineAt.filter (· ≠ 0)).getD (now + settings.scheduling.requestTimeout)
    match c.shared.engine.reserve requestId body.prompt sampling deadline tokens now with
    | (.ok (), engine) => (.ok (), { g with engine := some { c with shared := c.shared.withEngine engine } })
    | (.error raised, engine) =>
      (.error (if raised.kind = .engineCapacityError then apiError "engine_capacity_exceeded" raised.message
        else apiError "token_backend_unavailable" "the token inference backend is unavailable"),
        { g with engine := some { c with shared := c.shared.withEngine engine } })

/-- `generate_stream` after its validation, to the response whose body has not
begun, at one reading of the clock. -/
def generateStream (settings : GatewaySettings) (body : GenerateRequest) (sampling : SamplingParameters)
    (requestId tenantId : String) (tokens : Int) : Except Raised Unit × Gateway backend :=
  let (now, shared) := g.shared.monotonic
  let deadlineAt := body.deadlineSeconds.map (now + ·)
  let g := (g.withShared shared).addItem { InferenceRequest.new body tokens deadlineAt with
    queuedAt := now, startedAt := now, status := .running }
  match g.reserve settings body sampling requestId tokens deadlineAt now with
  | (.error raised, g) => (.error raised, g)
  | (.ok (), g) =>
    match platformRequest settings body requestId tenantId tokens now with
    | .error raised => (.error raised, g)
    | .ok record =>
      match { record with stream := true }.transition (if g.engine.isSome then .prefill else .running) now with
      | .error raised => (.error raised, g)
      | .ok record =>
        match g.enter record with
        | (.error raised, g) => (.error raised, g)
        | (.ok (), g) => (.ok (), { g with handlers := g.handlers ++ [⟨g.created - 1, record, .unstarted⟩] })

end Operations

end Gateway

end ServingPlatform
