import ServingPlatform.ControlPlane.ModelLoads

namespace ServingPlatform

/-- The in-memory worker registry. -/
structure WorkerRegistry where
  heartbeatTimeoutSeconds : Seconds
  suspectAfterSeconds : Seconds
  workers : Dict String WorkerState
  thresholds : 0 < suspectAfterSeconds ∧ suspectAfterSeconds < heartbeatTimeoutSeconds

namespace WorkerRegistry

def get (registry : WorkerRegistry) (workerId : String) : Option WorkerState := registry.workers.get? workerId

def list (registry : WorkerRegistry) : List WorkerState :=
  (sortedKeys registry.workers).filterMap registry.workers.get?

def register (registry : WorkerRegistry) (worker : WorkerState) (now : Seconds) : WorkerRegistry :=
  { registry with
    workers := registry.workers.insert worker.workerId { worker with
      healthStatus := .healthy
      lastHeartbeat := now
      heartbeatSequence := 0
      consecutiveFailures := 0
      lastErrorCode := none } }

def heartbeat (registry : WorkerRegistry) (worker : WorkerState) (now : Seconds) :
    Except Raised Unit × WorkerRegistry :=
  match registry.workers.get? worker.workerId with
  | none => (.error (keyError s!"worker must register before heartbeat: {worker.workerId}"), registry)
  | some current =>
    if current.healthStatus = .unhealthy ∨ current.healthStatus = .stopped then
      (.error (runtimeError s!"worker must re-register before recovery: {worker.workerId}"), registry)
    else
      (.ok (), { registry with
        workers := registry.workers.insert worker.workerId { worker with
          healthStatus := .healthy
          lastHeartbeat := now
          heartbeatSequence := current.heartbeatSequence + 1
          consecutiveFailures := 0
          lastErrorCode := none } })

def unregister (registry : WorkerRegistry) (workerId : String) : WorkerRegistry :=
  { registry with workers := registry.workers.erase workerId }

/-- A worker after an expiry scan; it expires when it turns unhealthy. -/
def age (registry : WorkerRegistry) (now : Seconds) (worker : WorkerState) : WorkerState :=
  let age := now - worker.lastHeartbeat
  if (worker.healthStatus = .healthy ∨ worker.healthStatus = .suspect) ∧ registry.heartbeatTimeoutSeconds < age then
    { worker with
      healthStatus := .unhealthy
      consecutiveFailures := worker.consecutiveFailures + 1
      lastErrorCode := some "heartbeat_expired" }
  else if worker.healthStatus = .healthy ∧ registry.suspectAfterSeconds < age then
    { worker with
      healthStatus := .suspect
      consecutiveFailures := worker.consecutiveFailures + 1
      lastErrorCode := some "heartbeat_delayed" }
  else worker

def expireStale (registry : WorkerRegistry) (now : Seconds) : List String × WorkerRegistry :=
  let expired := registry.workers.entries.filter fun (_, worker) =>
    worker.healthStatus ≠ .unhealthy && (registry.age now worker).healthStatus = .unhealthy
  ((expired.map fun (_, worker) => worker.workerId).insertionSort (· ≤ ·), { registry with
    workers := registry.workers.keys.foldl (fun workers key =>
      match workers.get? key with
      | some worker => workers.insert key (registry.age now worker)
      | none => workers) registry.workers })

end WorkerRegistry

/-- `ManagedWorker.heartbeat`. -/
def ManagedWorker.heartbeat (w : ManagedWorker) (registry : WorkerRegistry) (capacity : Except Raised RuntimeCapacity)
    (now : Seconds) : Except Raised WorkerState × WorkerRegistry :=
  if w.health ≠ .healthy then (.error (runtimeError "only a healthy registered worker can heartbeat"), registry)
  else
    match capacity with
    | .error raised => (.error raised, registry)
    | .ok capacity =>
      match w.snapshot capacity now with
      | .error raised => (.error raised, registry)
      | .ok snapshot =>
        match registry.heartbeat snapshot now with
        | (.error raised, registry) => (.error raised, registry)
        | (.ok (), registry) => (.ok snapshot, registry)

structure RoutingDecision where
  selectedWorkerId : String
  policy : String
  candidates : List String
  rejected : Dict String String

/-- A placement policy: what it decides for a request among worker snapshots. -/
abbrev RoutingPolicy := RequestRecord → List WorkerState → Except Raised RoutingDecision

structure PlacementReservation where
  requestId : String
  workerId : String
  modelId : String
  memoryBytes : Nat
  deriving DecidableEq, Repr

/-- The reservations by request id, in the order they were made. -/
abbrev PlacementReservations := Dict String PlacementReservation

namespace PlacementReservations

/-- A reservation is counted against its worker's snapshot; memory for one model only once. -/
def charge (reservation : PlacementReservation) (workers : Dict String WorkerState) (models : List (String × String)) :
    Dict String WorkerState × List (String × String) :=
  match workers.get? reservation.workerId with
  | none => (workers, models)
  | some worker =>
    let key := (reservation.workerId, reservation.modelId)
    let deeper := { worker with queueDepth := worker.queueDepth + 1 }
    if reservation.memoryBytes ≠ 0 ∧ key ∉ models then
      (workers.insert reservation.workerId { deeper with
        availableMemoryBytes := deeper.availableMemoryBytes.map fun available =>
          max 0 (available - reservation.memoryBytes) }, key :: models)
    else (workers.insert reservation.workerId deeper, models)

def effectiveWorkers (reservations : PlacementReservations) (registry : WorkerRegistry) : List WorkerState :=
  let workers := (reservations.values.foldl (fun (workers, models) reservation => charge reservation workers models)
    (registry.workers, [])).1
  (sortedKeys workers).filterMap workers.get?

def selectAndReserve (reservations : PlacementReservations) (registry : WorkerRegistry)
    (models : Option (Dict String ModelDefinition)) (r : RequestRecord) (policy : RoutingPolicy) :
    Except Raised RoutingDecision × PlacementReservations :=
  if reservations.contains r.requestId then
    (.error (valueError s!"request already has a placement reservation: {r.requestId}"), reservations)
  else
    match policy r (reservations.effectiveWorkers registry) with
    | .error raised => (.error raised, reservations)
    | .ok decision =>
      match registry.get decision.selectedWorkerId with
      | none => (.error (runtimeError "selected worker disappeared before reservation"), reservations)
      | some worker =>
        let shared := reservations.values.any fun other =>
          other.workerId = worker.workerId && other.modelId = r.modelId
        let memoryBytes :=
          if r.modelId ∈ worker.residentModels ∨ shared then 0
          else ((models.bind fun models => models.get? r.modelId).elim 0 ModelDefinition.estimatedMemoryBytes)
        (.ok decision, reservations.insert r.requestId {
          requestId := r.requestId
          workerId := worker.workerId
          modelId := r.modelId
          memoryBytes := memoryBytes })

/-- The reservations change only when a decision is returned, by the request's own entry. -/
theorem selectAndReserve_cases (reservations : PlacementReservations) (registry : WorkerRegistry)
    (models : Option (Dict String ModelDefinition)) (r : RequestRecord) (policy : RoutingPolicy) :
    (∃ raised, reservations.selectAndReserve registry models r policy = (.error raised, reservations)) ∨
      ∃ decision reservation, reservations.contains r.requestId = false ∧
        policy r (reservations.effectiveWorkers registry) = .ok decision ∧
        (registry.get decision.selectedWorkerId).isSome = true ∧
        reservations.selectAndReserve registry models r policy =
          (.ok decision, reservations.insert r.requestId reservation) := by
  unfold selectAndReserve
  split
  · exact Or.inl ⟨_, rfl⟩
  rename_i fresh
  split
  · exact Or.inl ⟨_, rfl⟩
  rename_i decision selected
  split
  · exact Or.inl ⟨_, rfl⟩
  rename_i worker found
  exact Or.inr ⟨decision, _, by simpa using fresh, selected, by rw [found]; rfl, rfl⟩

end PlacementReservations

end ServingPlatform
