import Mathlib.Data.List.Sort
import ServingPlatform.ControlPlane.Requests
import ServingPlatform.Library.Attempt

namespace ServingPlatform

inductive HealthStatus
  | registering
  | healthy
  | suspect
  | unhealthy
  | recovering
  | stopped
  deriving DecidableEq, Repr

/-- What loading and placement read of a model definition. -/
structure ModelDefinition where
  modelId : String
  revision : String
  estimatedMemoryBytes : Nat
  maxContextTokens : Nat
  maxBatchTokens : Nat
  deriving DecidableEq, Repr

/-- The memory a runtime reports. -/
structure RuntimeCapacity where
  totalMemoryBytes : Option Int
  availableMemoryBytes : Option Int
  allocatedMemoryBytes : Option Int
  reservedMemoryBytes : Option Int
  deriving DecidableEq, Repr

/-- A snapshot of a worker, as the registry keeps it. -/
structure WorkerState where
  workerId : String
  totalMemoryBytes : Option Int
  availableMemoryBytes : Option Int
  residentModels : List String
  loadingModels : List String
  queueDepth : Nat
  activeBatchCount : Nat
  maxConcurrency : Nat
  healthStatus : HealthStatus
  draining : Bool
  lastHeartbeat : Seconds
  allocatedMemoryBytes : Option Int
  reservedMemoryBytes : Option Int
  heartbeatSequence : Nat
  consecutiveFailures : Nat
  lastErrorCode : Option String
  deriving DecidableEq, Repr

/-- The checks of `__post_init__` on the memory of a snapshot. -/
def WorkerState.checked (w : WorkerState) : Except Raised WorkerState :=
  let within : Option Int → Option Int → Bool := fun value total =>
    match value, total with
    | some value, some total => decide (0 ≤ value ∧ value ≤ total)
    | _, _ => true
  if w.totalMemoryBytes.isNone ≠ w.availableMemoryBytes.isNone then
    .error (valueError "worker memory values must both be known or both be unknown")
  else if w.totalMemoryBytes.isNone ∧ (w.allocatedMemoryBytes.isSome ∨ w.reservedMemoryBytes.isSome) then
    .error (valueError "allocated and reserved memory require a known total")
  else if w.totalMemoryBytes.any (· < 0) ∨ within w.availableMemoryBytes w.totalMemoryBytes = false then
    .error (valueError "worker memory accounting is invalid")
  else if within w.allocatedMemoryBytes w.totalMemoryBytes = false ∨
      within w.reservedMemoryBytes w.totalMemoryBytes = false then
    .error (valueError "worker CUDA memory accounting is invalid")
  else .ok w

/-- Keys in the order of `sorted`. -/
def sortedKeys {ν : Type} (d : Dict String ν) : List String := d.keys.insertionSort (· ≤ ·)

/-- The operational shell of a worker. Its queue holds request objects; a
counter without an entry is zero. -/
structure ManagedWorker where
  workerId : String
  maxQueueDepth : Nat
  maxConcurrency : Nat
  maxBatchSize : Nat
  maxBatchTokens : Nat
  memorySafetyReserveBytes : Nat
  health : HealthStatus
  draining : Bool
  residentModels : List String
  loadingModels : List String
  modelDefinitions : Dict String ModelDefinition
  modelLastUsed : Dict String Seconds
  activeRequestsByModel : Dict String Int
  activeRequests : Dict String ObjectId
  loadAttempts : Dict String Nat
  loadFailures : Dict String (Nat × Raised)
  reservedModelMemoryBytes : Int
  queue : List ObjectId
  activeBatchCount : Int
  identified : workerId ≠ ""
  positive : 0 < maxQueueDepth ∧ 0 < maxConcurrency ∧ 0 < maxBatchSize ∧ 0 < maxBatchTokens

/-- A worker with the request objects of its process. -/
structure WorkerProcess where
  worker : ManagedWorker
  objects : Objects

/-- A shared request takes a transition, or refuses it. -/
def Objects.transition (i : ObjectId) (target : RequestState) (at_ : Seconds) : Attempt Raised Objects Unit :=
  fun objects =>
    match (objects i).transition target at_ with
    | .ok r => (.ok (), objects.put i r)
    | .error raised => (.error raised, objects)

namespace ManagedWorker

def snapshot (w : ManagedWorker) (capacity : RuntimeCapacity) (now : Seconds) : Except Raised WorkerState :=
  WorkerState.checked {
    workerId := w.workerId
    totalMemoryBytes := capacity.totalMemoryBytes
    availableMemoryBytes := capacity.availableMemoryBytes
    residentModels := w.residentModels
    loadingModels := w.loadingModels
    queueDepth := w.queue.length
    activeBatchCount := w.activeBatchCount.toNat
    maxConcurrency := w.maxConcurrency
    healthStatus := w.health
    draining := w.draining
    lastHeartbeat := now
    allocatedMemoryBytes := capacity.allocatedMemoryBytes
    reservedMemoryBytes := capacity.reservedMemoryBytes
    heartbeatSequence := 0
    consecutiveFailures := 0
    lastErrorCode := none }

def accepting (w : ManagedWorker) : Bool := w.health = .healthy && !w.draining

def enqueueRequest (i : ObjectId) (now : Seconds) : Attempt Raised WorkerProcess Unit := fun p =>
  let r := p.objects i
  if p.worker.accepting = false then (.error (runtimeError "worker is not accepting requests"), p)
  else if r.modelId ∉ p.worker.residentModels then (.error (runtimeError "request model is not resident"), p)
  else if p.worker.maxQueueDepth ≤ p.worker.queue.length then (.error ⟨.overflowError, "worker queue is full"⟩, p)
  else if p.worker.maxBatchTokens < r.estimatedTokens then
    (.error ⟨.overflowError, "request exceeds the worker batch token budget"⟩, p)
  else if r.status ≠ .assigned then
    (.error (valueError "only assigned requests can enter a worker queue"), p)
  else
    (.ok (), {
      worker := { p.worker with queue := p.worker.queue ++ [i] }
      objects := p.objects.put i (r.enter .queued now) })

/-- A queued request is taken out and cancelled; an active one is marked. -/
def cancelRequest (requestId : String) (now : Seconds) : Attempt Raised WorkerProcess Bool := fun p =>
  match p.worker.queue.find? fun i => (p.objects i).requestId = requestId with
  | some i =>
    let removed := { p with worker := { p.worker with queue := p.worker.queue.erase i } }
    match (p.objects i).transition .cancelled now with
    | .ok r => (.ok true, { removed with objects := p.objects.put i r })
    | .error raised => (.error raised, removed)
  | none =>
    match p.worker.activeRequests.get? requestId with
    | none => (.ok false, p)
    | some i =>
      if (p.objects i).terminal then (.ok false, p)
      else
        match (p.objects i).transition .cancelled now with
        | .ok r => (.ok true, { p with objects := p.objects.put i r })
        | .error raised => (.error raised, p)

end ManagedWorker

end ServingPlatform
