import ServingPlatform.ControlPlane.Admission
import ServingPlatform.ControlPlane.Dispatch
import ServingPlatform.FairQueue.PopUntil

namespace ServingPlatform

/-- `LocalControlPlanePipeline`; it shares store, fair queue and workers with its control plane. -/
structure Pipeline where
  plane : Plane
  model : ModelDefinition
  admission : TenantAdmissionController

/-- The arguments of `submit`. -/
structure Submission where
  tenantId : String
  prompt : String
  promptTokens : Int
  maxNewTokens : Int
  temperature : Rat
  priority : Int
  deadlineSeconds : Deadline

structure PlatformGenerationResult where
  requestId : String
  result : RuntimeResult
  schedulerPolicy : String
  batchSize : Nat

def Deadline.after (now : Seconds) : Deadline → Deadline
  | .finite seconds => .finite (now + seconds)
  | .infinite => .infinite

/-- The new request of a submission, with the checks of `__post_init__`. -/
def Submission.request (s : Submission) (requestId modelId : String) (now : Seconds) : Except Raised RequestRecord :=
  if identified : requestId ≠ "" ∧ s.tenantId ≠ "" ∧ modelId ≠ "" then
    if sound : isBlank s.prompt = false ∧ 0 ≤ s.promptTokens ∧ 0 < s.maxNewTokens ∧ 0 ≤ s.temperature then .ok {
      requestId := requestId
      tenantId := s.tenantId
      modelId := modelId
      prompt := s.prompt
      promptTokens := s.promptTokens.toNat
      maxNewTokens := s.maxNewTokens.toNat
      priority := s.priority
      deadline := s.deadlineSeconds.after now
      stream := false
      temperature := s.temperature
      createdAt := now
      status := .received
      assignedWorkerId := none
      attemptCount := 0
      retryReasons := []
      payloadAvailable := true
      transitionTimestamps := ⟨[(.received, now)], List.nodup_singleton _⟩
      identified := identified
      prompted := sound.1
      positive := by omega
      temperate := sound.2.2.2
      stamped := rfl }
    else .error (valueError "request token and prompt values are invalid")
  else .error (valueError "request, tenant, and model identifiers are required")

/-- What one `submit` reads from outside: the new identifier and object, the
clocks, and what its dispatch and the worker's batch read. -/
structure SubmitReadings where
  requestId : String
  object : ObjectId
  now : Seconds
  decidedAt : Seconds
  changedAt : Seconds
  queuedAt : Seconds
  clocks : Nat → Nat → Seconds
  dispatch : (i : ObjectId) → DispatchInputs i
  batch : ManagedWorker.BatchInputs
  endedAt : Seconds

def platformExecutionError (message : String) : Raised := ⟨.platformExecutionError, message⟩

namespace Pipeline

variable {α : Type}

def onPlane (m : Attempt Raised Plane α) : Attempt Raised Pipeline α :=
  Attempt.zoom Pipeline.plane (fun plane p => { p with plane := plane }) m

/-- A new object, and its first copy in the store. -/
def create (i : ObjectId) (r : RequestRecord) : Attempt Raised Plane Unit := fun p =>
  let created := { p with objects := p.objects.put i r }
  match p.store with
  | none => (.ok (), created)
  | some store => ((store.create r).1, { created with store := some (store.create r).2 })

/-- `self.admission.decide(request, self.model, self.registry.list())`. -/
def decideAdmission (i : ObjectId) (now : Seconds) : Attempt Raised Pipeline AdmissionDecision := fun p =>
  let (decision, admission) := p.admission.decide (p.plane.objects i) (some p.model) p.plane.registry.list now
  (.ok decision, { p with admission := admission })

/-- An operation of the fair queue on the shared requests. -/
def onQueue (m : WeightedFairRequestQueue → Objects → Except Raised α × WeightedFairRequestQueue × Objects) :
    Attempt Raised Plane α := fun p =>
  match p.globalQueue with
  | none => (.error (runtimeError "fair queue is required"), p)
  | some q =>
    let (result, q, objects) := m q p.objects
    (result, { p with globalQueue := some q, objects := objects })

def enqueue (i : ObjectId) (now : Seconds) : Attempt Raised Plane Unit :=
  onQueue fun q objects => q.enqueue objects i now

/-- The loop around `pop`; its turns suffice, so that it does not end without a request. -/
def popRequest (i : ObjectId) (clocks : Nat → Nat → Seconds) : Attempt Raised Plane ObjectId :=
  onQueue fun q objects =>
    match q.popUntil objects clocks (q.turnsFor objects (objects i).tenantId) with
    | (.ok (some selected), q) => (.ok selected, q, objects)
    | (.ok none, q) => (.error (runtimeError "no request was popped"), q, objects)
    | (.error raised, q) => (.error raised, q, objects)

def release (requestId : String) (p : Pipeline) : Pipeline := { p with admission := p.admission.release requestId }

def markRunning (requestId : String) : Attempt Raised Pipeline Unit :=
  Attempt.zoom Pipeline.admission (fun admission p => { p with admission := admission })
    fun admission => admission.markRunning requestId

/-- A request takes a last transition and is saved. -/
def close (i : ObjectId) (target : RequestState) (now : Seconds) : Attempt Raised Plane Unit := do
  Plane.transition i target now
  Plane.save none i

def conclude (i : ObjectId) (target : RequestState) (now : Seconds) : Attempt Raised Plane Unit := do
  let r ← Plane.current i
  if r.terminal then pure () else close i target now

/-- The worker's batch, and the result of the request in it. -/
def executeOn (batch : ManagedWorker.BatchInputs) (i : ObjectId) (requestId : String) (assignment : Assignment) :
    Attempt Raised Plane PlatformGenerationResult := do
  let batch ← Plane.onWorker assignment.workerId (ManagedWorker.executeBatch batch)
  match batch.find? fun execution => execution.requestId = requestId with
  | none => Attempt.raise (platformExecutionError "worker did not return the assigned request")
  | some execution => do
    Plane.save none i
    pure ⟨requestId, execution.result, assignment.policy, batch.length⟩

/-- The `try` block of `_execute`. -/
def run (readings : SubmitReadings) (i : ObjectId) : Attempt Raised Pipeline PlatformGenerationResult := do
  let r ← onPlane (Plane.current i)
  let assignment ← onPlane (Plane.dispatch (readings.dispatch i))
  markRunning r.requestId
  let reachable ← onPlane (Attempt.read fun plane => decide (assignment.workerId ∈ plane.directory))
  if reachable = false then Attempt.raise (platformExecutionError "assigned worker became unavailable")
  else onPlane (executeOn readings.batch i r.requestId assignment)

/-- The `except` clauses of `_execute`. -/
def recoverRun (readings : SubmitReadings) (i : ObjectId) (raised : Raised) :
    Attempt Raised Pipeline PlatformGenerationResult :=
  if raised.kind = .noEligibleWorker ∨ raised.kind = .requestDeadlineExceeded then do
    let r ← onPlane (Plane.current i)
    onPlane (conclude i (if r.deadline.expired readings.endedAt then .timedOut else .failed) readings.changedAt)
    Attempt.raise (platformExecutionError raised.message)
  else do
    onPlane (conclude i .failed readings.changedAt)
    Attempt.raise
      (if raised.kind = .platformExecutionError then raised
      else platformExecutionError "control-plane execution failed")

/-- `LocalControlPlanePipeline._execute`. -/
def execute (readings : SubmitReadings) (i : ObjectId) : Attempt Raised Pipeline PlatformGenerationResult := fun p =>
  Attempt.ensure (Attempt.handle (run readings i) fun raised => some (recoverRun readings i raised))
    (release (p.plane.objects i).requestId) p

/-- The new request is stored as received, then as validated. -/
def register (readings : SubmitReadings) (r : RequestRecord) : Attempt Raised Plane Unit := do
  create readings.object r
  Plane.transition readings.object .validated readings.now
  Plane.save none readings.object

/-- An admitted request waits in the fair queue, which hands out a request. -/
def admitRequest (readings : SubmitReadings) : Attempt Raised Plane ObjectId := do
  Plane.transition readings.object .admitted readings.changedAt
  enqueue readings.object readings.queuedAt
  Plane.save none readings.object
  popRequest readings.object readings.clocks

/-- The part of `submit` up to the popped request. -/
def intake (readings : SubmitReadings) (r : RequestRecord) : Attempt Raised Pipeline ObjectId := do
  onPlane (register readings r)
  let decision ← decideAdmission readings.object readings.decidedAt
  if decision.admitted = false then do
    onPlane (close readings.object .rejected readings.changedAt)
    Attempt.raise ⟨.platformAdmissionError, decision.reason⟩
  else onPlane (admitRequest readings)

/-- `submit` with the popped request: it must be the submitted one. -/
def serve (readings : SubmitReadings) (requestId : String) (selected : ObjectId) :
    Attempt Raised Pipeline PlatformGenerationResult := do
  let popped ← onPlane (Plane.current selected)
  if popped.requestId ≠ requestId then do
    onPlane (close readings.object .failed readings.changedAt)
    Attempt.update (release requestId)
    Attempt.raise (platformExecutionError "control-plane queue ownership was violated")
  else execute readings selected

/-- `LocalControlPlanePipeline.submit`, under its execution lock. -/
def submit (readings : SubmitReadings) (s : Submission) : Attempt Raised Pipeline PlatformGenerationResult := fun p =>
  match s.request readings.requestId p.model.modelId readings.now with
  | .error raised => (.error raised, p)
  | .ok r => (intake readings r >>= serve readings r.requestId) p

end Pipeline

end ServingPlatform
