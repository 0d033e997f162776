import ServingPlatform.ControlPlane.Batches
import ServingPlatform.ControlPlane.Placement
import ServingPlatform.FairQueue.Queue

namespace ServingPlatform

/-- The control plane with what it shares: requests, workers and registries.
The directory holds the workers that can be reached by a handle. -/
structure Plane where
  objects : Objects
  store : Option RequestStore
  workers : String → ManagedWorker
  directory : List String
  registry : WorkerRegistry
  models : Option (Dict String ModelDefinition)
  reservationModels : Option (Dict String ModelDefinition)
  reservations : Option PlacementReservations
  globalQueue : Option WeightedFairRequestQueue

/-- The points of a dispatch where a component behind an interface may raise instead of answering. -/
inductive DispatchStep
  | placement
  | firstSave
  | directory
  | registry
  | models
  | heartbeat
  | enqueue
  | finalSave
  deriving DecidableEq, Repr

/-- What a dispatch reads from outside: clocks, the policy, the runtime's
answers, and what other threads do to the worker and the registry during a load.
These have no reference to the request that is dispatched. -/
structure DispatchInputs (i : ObjectId) where
  policy : RoutingPolicy
  faults : DispatchStep → Option Raised
  assignedAt : Seconds
  load : LoadAnswers
  woken : ManagedWorker → ManagedWorker
  meanwhile : ManagedWorker → ManagedWorker
  registryMeanwhile : WorkerRegistry → WorkerRegistry
  heartbeatCapacity : Except Raised RuntimeCapacity
  heartbeatAt : Seconds
  loadedAt : Seconds
  transitionAt : Seconds
  apart : ∀ w : ManagedWorker, (i ∈ (woken w).queue ↔ i ∈ w.queue) ∧ (i ∈ (meanwhile w).queue ↔ i ∈ w.queue)

structure Assignment where
  requestId : String
  workerId : String
  policy : String
  candidates : List String
  rejected : Dict String String
  estimatedRequestTokens : Nat
  assignedAt : Seconds

def dispatchError (message : String) : Raised := ⟨.workerDispatchError, message⟩

/-- Whether the `except` clause of `dispatch` catches an exception. -/
def Raised.rejectsHandoff (raised : Raised) : Bool :=
  raised.kind = .memoryError || raised.kind = .overflowError || raised.kind.isRuntimeError

namespace Plane

variable {i : ObjectId}

def setWorker (p : Plane) (workerId : String) (w : ManagedWorker) : Plane :=
  { p with workers := fun other => if other = workerId then w else p.workers other }

def onObjects {α : Type} (m : Attempt Raised Objects α) : Attempt Raised Plane α :=
  Attempt.zoom Plane.objects (fun objects p => { p with objects := objects }) m

/-- An operation of a worker that lives in this process. -/
def onWorker {α : Type} (workerId : String) (m : Attempt Raised WorkerProcess α) : Attempt Raised Plane α :=
  Attempt.zoom (fun p => ⟨p.workers workerId, p.objects⟩)
    (fun process p => { p.setWorker workerId process.worker with objects := process.objects }) m

/-- An answer that a fault may take the place of. -/
def faultOr {α : Type} (fault : Option Raised) (m : Attempt Raised Plane α) : Attempt Raised Plane α :=
  fault.elim m Attempt.raise

/-- `if self.requests is not None: self.requests.save(request)`; the store keeps a copy. -/
def save (fault : Option Raised) (i : ObjectId) : Attempt Raised Plane Unit := fun p =>
  match p.store, fault with
  | none, _ => (.ok (), p)
  | some _, some raised => (.error raised, p)
  | some store, none =>
    let (result, store) := store.save (p.objects i)
    (result, { p with store := some store })

/-- The placement of a request, with a reservation where these are kept. -/
def place (inputs : DispatchInputs i) : Attempt Raised Plane RoutingDecision := fun p =>
  match inputs.faults .placement, p.reservations with
  | some raised, _ => (.error raised, p)
  | none, none => (inputs.policy (p.objects i) p.registry.list, p)
  | none, some book =>
    let (result, book) := book.selectAndReserve p.registry p.reservationModels (p.objects i) inputs.policy
    (result, { p with reservations := some book })

def current (i : ObjectId) : Attempt Raised Plane RequestRecord := Attempt.read fun p => p.objects i

def modify (i : ObjectId) (change : RequestRecord → RequestRecord) : Attempt Raised Plane Unit :=
  Attempt.update fun p => { p with objects := p.objects.put i (change (p.objects i)) }

def transition (i : ObjectId) (target : RequestState) (at_ : Seconds) : Attempt Raised Plane Unit :=
  onObjects (Objects.transition i target at_)

/-- `GlobalScheduler.assign`. -/
def assign (inputs : DispatchInputs i) : Attempt Raised Plane Assignment := do
  let r ← current i
  if r.status ≠ .admitted ∧ r.status ≠ .queued then
    Attempt.raise (valueError "only admitted or globally queued requests can be assigned")
  else if r.deadline.expired inputs.assignedAt then do
    transition i .timedOut inputs.assignedAt
    Attempt.raise ⟨.requestDeadlineExceeded, "request deadline expired before assignment"⟩
  else do
    let decision ← place inputs
    modify i fun r => (r.assign (some decision.selectedWorkerId)).countAttempt
    transition i .assigned inputs.assignedAt
    pure {
      requestId := r.requestId
      workerId := decision.selectedWorkerId
      policy := decision.policy
      candidates := decision.candidates
      rejected := decision.rejected
      estimatedRequestTokens := r.estimatedTokens
      assignedAt := inputs.assignedAt }

/-- `worker.load_model(model)` and `worker.heartbeat()`. -/
def loadModel (inputs : DispatchInputs i) (workerId : String) (model : ModelDefinition) : Attempt Raised Plane Unit :=
  fun p =>
    let w := p.workers workerId
    let (result, loaded) := w.loadModel (inputs.woken w) inputs.meanwhile p.objects model inputs.load
    let p := { p.setWorker workerId loaded with registry := inputs.registryMeanwhile p.registry }
    match result with
    | .error raised => (.error raised, p)
    | .ok () =>
      match inputs.faults .heartbeat with
      | some raised => (.error raised, p)
      | none =>
        let (result, registry) := loaded.heartbeat p.registry inputs.heartbeatCapacity inputs.heartbeatAt
        (result.map fun _ => (), { p with registry := registry })

/-- The worker is made to host the model of a request. -/
def provideModel (inputs : DispatchInputs i) (workerId modelId : String) : Attempt Raised Plane Unit := fun p =>
  match p.models with
  | none => (.error (dispatchError "selected worker does not host the model"), p)
  | some models =>
    match inputs.faults .models with
    | some raised => (.error raised, p)
    | none =>
      match models.get? modelId with
      | none => (.error (dispatchError "request model is not registered"), p)
      | some model => loadModel inputs workerId model p

/-- The steps of the `try` block before the deadline is read again. -/
def prepare (inputs : DispatchInputs i) (workerId : String) (reachable : Bool) :
    Attempt Raised Plane Unit := fun p =>
  if reachable = false then (.error (dispatchError "selected worker is no longer reachable"), p)
  else
    match inputs.faults .registry with
    | some raised => (.error raised, p)
    | none =>
      match p.registry.get workerId with
      | none => (.error (dispatchError "selected worker is no longer registered"), p)
      | some snapshot =>
        if (p.objects i).modelId ∈ snapshot.residentModels then (.ok (), p)
        else provideModel inputs workerId (p.objects i).modelId p

/-- The second reading of the deadline. -/
def checkDeadline (inputs : DispatchInputs i) : Attempt Raised Plane Unit := do
  let r ← current i
  if r.deadline.expired inputs.loadedAt then do
    transition i .timedOut inputs.transitionAt
    Attempt.raise (dispatchError "request deadline expired during model loading")
  else pure ()

/-- The `try` block of `dispatch`. -/
def handOff (inputs : DispatchInputs i) (workerId : String) (reachable : Bool) :
    Attempt Raised Plane Unit := do
  prepare inputs workerId reachable
  checkDeadline inputs
  faultOr (inputs.faults .enqueue) (onWorker workerId (ManagedWorker.enqueueRequest i inputs.transitionAt))
  save (inputs.faults .finalSave) i

/-- The request goes back to the global queue unless it is over. -/
def giveBack (inputs : DispatchInputs i) : Attempt Raised Plane Unit := do
  let r ← current i
  if r.terminal then pure ()
  else do
    modify i fun r => r.assign none
    transition i .queued inputs.transitionAt

/-- The `except` clause of `dispatch`. -/
def rejectHandoff (inputs : DispatchInputs i) (raised : Raised) : Option (Attempt Raised Plane Unit) :=
  if raised.rejectsHandoff then some do
    giveBack inputs
    Attempt.raise
      (if raised.kind = .workerDispatchError then raised else dispatchError "selected worker rejected the handoff")
  else none

/-- `GlobalScheduler.release_assignment`. -/
def releaseAssignment (requestId : String) (p : Plane) : Plane :=
  { p with reservations := p.reservations.map fun book => book.erase requestId }

/-- `ControlPlane.dispatch`; the lookup in the directory stands before the `try`. -/
def dispatch (inputs : DispatchInputs i) : Attempt Raised Plane Assignment := do
  let assignment ← assign inputs
  save (inputs.faults .firstSave) i
  let reachable ← faultOr (inputs.faults .directory)
    (Attempt.read fun p => decide (assignment.workerId ∈ p.directory))
  Attempt.ensure (Attempt.handle (handOff inputs assignment.workerId reachable) (rejectHandoff inputs))
    (releaseAssignment assignment.requestId)
  pure assignment

end Plane

end ServingPlatform
