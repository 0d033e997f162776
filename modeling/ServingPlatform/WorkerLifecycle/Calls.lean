import ServingPlatform.ControlPlane.BatchQueues
import ServingPlatform.ControlPlane.ModelLoads
import ServingPlatform.WorkerLifecycle.Runtime

namespace ServingPlatform

/-- A worker with its request objects and its runtime, and whether the registry lists it. -/
structure WorkerHost (ρ : Type) where
  process : WorkerProcess
  runtime : ρ
  registered : Bool

/-- A model load that goes ahead. -/
structure ModelLoad where
  model : ModelDefinition
  evictions : List (String × ModelDefinition)
  attempt : Nat

/-- Where a call in flight stands: each place is followed by one section under the lock, or by one runtime call. -/
inductive CallPlace
  -- `load_model`
  | waiting (model : ModelDefinition) (entered : ManagedWorker)
  | evicting (load : ModelLoad) (unloaded rest : List (String × ModelDefinition))
  | checking (load : ModelLoad)
  | adding (load : ModelLoad)
  | warming (load : ModelLoad)
  | publishing (load : ModelLoad)
  | recovering (load : ModelLoad) (unloaded : List (String × ModelDefinition)) (raised : Raised)
  | restoring (load : ModelLoad) (unloaded rest : List (String × ModelDefinition)) (raised : Raised)
  | closing (load : ModelLoad) (failure : Option Raised)
  -- `unload_model`, which `evict_idle_models` calls for the models that are idle
  | unloading (modelId : String) (later : Option (List String))
  | puttingBack (modelId : String) (raised : Raised)
  | sorting (eligible : List String)
  | sweeping (rest : List String)
  -- `execute_batch`
  | running (selected : List ObjectId)
  | failing (selected : List ObjectId) (raised : Raised)
  | retiring (selected : List ObjectId) (failure : Option Raised)
  | completing (selected : List ObjectId)
  -- `shutdown`
  | stopping (rest : List String)
  | unregistering (raised : Raised)

inductive CallOutcome
  | proceeds (place : CallPlace)
  | returns
  | raises (raised : Raised)

/-- What a section reads from outside: the fault that its runtime call raises
before it takes effect, the clocks, and what the runtime generates. -/
structure WorkerReadings where
  fault : Option Raised
  now : Seconds
  lastUsed : String → Option Seconds
  generated : Except Raised (List RuntimeResult)
  closedAt : ObjectId → Seconds

inductive WorkerRequest
  | loadModel (model : ModelDefinition)
  | unloadModel (modelId : String)
  | evictIdleModels
  | enqueueRequest (i : ObjectId)
  | cancelRequest (requestId : String)
  | executeBatch
  | register
  | drain
  | shutdown

def WorkerReadings.call {α : Type} (readings : WorkerReadings) (answer : Except Raised α) : Except Raised α :=
  match readings.fault with
  | some raised => .error raised
  | none => answer

/-- What a failed call ends with, or how it goes on. -/
def CallOutcome.after (failure : Option Raised) (place : Option CallPlace) : CallOutcome :=
  match failure, place with
  | some raised, _ => .raises raised
  | none, some place => .proceeds place
  | none, none => .returns

namespace ManagedWorker

def queues (w : ManagedWorker) (objects : Objects) (modelId : String) : Bool :=
  w.queue.any fun i => (objects i).modelId = modelId

def publish (w : ManagedWorker) (model : ModelDefinition) (now : Seconds) : ManagedWorker :=
  { w with
    modelDefinitions := w.modelDefinitions.insert model.modelId model
    residentModels := w.residentModels.insert model.modelId
    modelLastUsed := w.modelLastUsed.insert model.modelId now
    loadFailures := w.loadFailures.erase model.modelId }

def closeLoad (w : ManagedWorker) (model : ModelDefinition) : ManagedWorker :=
  { w with
    loadingModels := w.loadingModels.erase model.modelId
    reservedModelMemoryBytes := w.reservedModelMemoryBytes - model.estimatedMemoryBytes }

def remove (w : ManagedWorker) (modelId : String) : ManagedWorker :=
  { w with
    residentModels := w.residentModels.filter (· ≠ modelId)
    modelLastUsed := w.modelLastUsed.erase modelId }

def putBack (w : ManagedWorker) (modelId : String) (now : Seconds) : ManagedWorker :=
  { w with
    residentModels := w.residentModels.insert modelId
    modelLastUsed := w.modelLastUsed.insert modelId now }

/-- The models that `evict_idle_models` finds idle. -/
def idleModels (w : ManagedWorker) (objects : Objects) (idleEvictionSeconds : ModelDefinition → Seconds) (now : Seconds) :
    Except Raised (List String) :=
  let unused := w.residentModels.filter fun modelId => !w.inUse objects modelId
  match unused.find? fun modelId => (w.modelDefinitions.get? modelId).isNone with
  | some modelId => .error (keyError modelId)
  | none => .ok (unused.filter fun modelId => (w.modelDefinitions.get? modelId).any fun definition =>
      idleEvictionSeconds definition ≤ now - (w.modelLastUsed.get? modelId).getD now)

/-- `shutdown` fails the queued requests one after the other. -/
def failQueued (at_ : ObjectId → Seconds) : List ObjectId → Objects → Except Raised Unit × List ObjectId × Objects
  | [], objects => (.ok (), [], objects)
  | i :: rest, objects =>
    match (objects i).transition .failed (at_ i) with
    | .ok r => failQueued at_ rest (objects.put i r)
    | .error raised => (.error raised, rest, objects)

end ManagedWorker

namespace WorkerHost

variable {ρ : Type} (runtime : ModelRuntime ρ) (idleEvictionSeconds : ModelDefinition → Seconds)

def worker (h : WorkerHost ρ) : ManagedWorker := h.process.worker

def objects (h : WorkerHost ρ) : Objects := h.process.objects

def setWorker (h : WorkerHost ρ) (w : ManagedWorker) : WorkerHost ρ := { h with process := ⟨w, h.process.objects⟩ }

/-- What a load reads in its locked first part. -/
def loadAnswers (h : WorkerHost ρ) (readings : WorkerReadings) : LoadAnswers where
  capacity := readings.call (runtime.capacity h.runtime)
  unload _ := none
  load := none
  warmup := none
  isModelLoaded _ := false
  now := readings.now

/-- The locked first part of a load that has not to wait, or has waited. -/
def goAhead (h : WorkerHost ρ) (entered : ManagedWorker) (model : ModelDefinition) (readings : WorkerReadings) :
    CallOutcome × WorkerHost ρ :=
  match entered.beginLoad h.worker h.objects model (h.loadAnswers runtime readings) with
  | (.error raised, w) => (.raises raised, h.setWorker w)
  | (.ok none, w) => (.returns, h.setWorker w)
  | (.ok (some (evictions, attempt)), w) => (.proceeds (.evicting ⟨model, evictions, attempt⟩ [] evictions), h.setWorker w)

/-- The locked part of `unload_model`. -/
def beginUnload (h : WorkerHost ρ) (modelId : String) (later : Option (List String)) : CallOutcome × WorkerHost ρ :=
  if h.worker.queues h.objects modelId then (.raises (runtimeError "cannot unload a model with queued requests"), h)
  else if modelId ∉ h.worker.residentModels then (.after none (later.map .sweeping), h)
  else (.proceeds (.unloading modelId later), h.setWorker (h.worker.remove modelId))

/-- A call that is over after its section. -/
def atOnce {α : Type} (h : WorkerHost ρ) (m : Attempt Raised WorkerProcess α) : CallOutcome × WorkerHost ρ :=
  match m h.process with
  | (.ok _, process) => (.returns, { h with process := process })
  | (.error raised, process) => (.raises raised, { h with process := process })

/-- The first section of a call. -/
def begin (h : WorkerHost ρ) (readings : WorkerReadings) : WorkerRequest → CallOutcome × WorkerHost ρ
  | .loadModel model =>
    if h.worker.accepting ∧ model.modelId ∉ h.worker.residentModels ∧ model.modelId ∈ h.worker.loadingModels then
      (.proceeds (.waiting model h.worker), h)
    else h.goAhead runtime h.worker model readings
  | .unloadModel modelId => h.beginUnload modelId none
  | .evictIdleModels =>
    match h.worker.idleModels h.objects idleEvictionSeconds readings.now with
    | .error raised => (.raises raised, h)
    | .ok eligible => (.proceeds (.sorting eligible), h)
  | .enqueueRequest i => h.atOnce (ManagedWorker.enqueueRequest i readings.now)
  | .cancelRequest requestId => h.atOnce (ManagedWorker.cancelRequest requestId readings.now)
  | .executeBatch =>
    match ManagedWorker.beginBatch readings.now h.process with
    | (.error raised, process) => (.raises raised, { h with process := process })
    | (.ok [], process) => (.returns, { h with process := process })
    | (.ok selected, process) => (.proceeds (.running selected), { h with process := process })
  | .register =>
    let h := h.setWorker { h.worker with
      draining := h.worker.draining && h.worker.health ≠ .stopped
      health := .healthy }
    match readings.call (runtime.capacity h.runtime) with
    | .error raised => (.raises raised, h)
    | .ok capacity =>
      match h.worker.snapshot capacity readings.now with
      | .error raised => (.raises raised, h)
      | .ok _ => (.returns, { h with registered := true })
  | .drain =>
    if h.worker.health = .stopped then (.raises (runtimeError "stopped worker cannot drain"), h)
    else (.returns, h.setWorker { h.worker with draining := true })
  | .shutdown =>
    match ManagedWorker.failQueued readings.closedAt h.worker.queue h.objects with
    | (.error raised, queue, objects) =>
      (.raises raised, { h with process := ⟨{ h.worker with draining := true, queue := queue }, objects⟩ })
    | (.ok (), queue, objects) =>
      (.proceeds (.stopping h.worker.residentModels), { h with
        process := ⟨{ h.worker with draining := true, queue := queue, residentModels := [], health := .stopped }, objects⟩ })

/-- The next section or runtime call of a call in flight. -/
def advance (h : WorkerHost ρ) (readings : WorkerReadings) : CallPlace → CallOutcome × WorkerHost ρ
  | .waiting model entered =>
    if model.modelId ∈ h.worker.loadingModels then (.proceeds (.waiting model entered), h)
    else h.goAhead runtime entered model readings
  | .evicting load _ [] => (.proceeds (.checking load), h)
  | .evicting load unloaded (e :: rest) =>
    match readings.call (runtime.unloadModel h.runtime e.1) with
    | .error raised => (.proceeds (.recovering load unloaded raised), h)
    | .ok after => (.proceeds (.evicting load (unloaded ++ [e]) rest), { h with runtime := after })
  | .checking load =>
    match readings.call (runtime.checkLoad h.runtime load.model) with
    | .error raised => (.proceeds (.recovering load load.evictions raised), h)
    | .ok true => (.proceeds (.adding load), h)
    | .ok false => (.proceeds (.warming load), h)
  | .adding load => (.proceeds (.warming load), { h with runtime := runtime.addLoaded h.runtime load.model.modelId })
  | .warming load =>
    match readings.call (runtime.warmupModel h.runtime load.model.modelId) with
    | .error raised => (.proceeds (.recovering load load.evictions raised), h)
    | .ok () => (.proceeds (.publishing load), h)
  | .publishing load => (.proceeds (.closing load none), h.setWorker (h.worker.publish load.model readings.now))
  | .recovering load unloaded raised =>
    (.proceeds (.restoring load unloaded load.evictions raised), h.setWorker { h.worker with
      loadFailures := h.worker.loadFailures.insert load.model.modelId (load.attempt, raised) })
  | .restoring load _ [] raised => (.proceeds (.closing load (some raised)), h)
  | .restoring load unloaded (e :: rest) raised =>
    match readings.call (runtime.isModelLoaded h.runtime e.1) with
    | .error other => (.proceeds (.closing load (some other)), h)
    | .ok true => (.proceeds (.restoring load unloaded rest raised),
        h.setWorker (ManagedWorker.restore readings.now h.worker e))
    | .ok false => (.proceeds (.restoring load unloaded rest raised), h)
  | .closing load failure => (.after failure none, h.setWorker (h.worker.closeLoad load.model))
  | .unloading modelId later =>
    match readings.call (runtime.unloadModel h.runtime modelId) with
    | .error raised => (.proceeds (.puttingBack modelId raised), h)
    | .ok after => (.after none (later.map .sweeping), { h with runtime := after })
  | .puttingBack modelId raised => (.raises raised, h.setWorker (h.worker.putBack modelId readings.now))
  | .sorting eligible =>
    -- the times are read one by one and without the lock
    match eligible.find? fun modelId => (readings.lastUsed modelId).isNone with
    | some modelId => (.raises (keyError modelId), h)
    | none => (.proceeds (.sweeping (eligible.insertionSort fun a b =>
        (readings.lastUsed a).getD 0 ≤ (readings.lastUsed b).getD 0)), h)
  | .sweeping [] => (.returns, h)
  | .sweeping (modelId :: rest) => h.beginUnload modelId (some rest)
  | .running selected =>
    let stream := selected.head?.elim false fun i => (h.objects i).stream
    match ManagedWorker.checkResults stream selected.length readings.generated with
    | .error raised => (.proceeds (.failing selected raised), h)
    | .ok _ => (.proceeds (.retiring selected none), h)
  | .failing selected raised =>
    match ManagedWorker.closeAll .failed (fun _ => readings.now) selected h.process with
    | (.ok (), process) => (.proceeds (.retiring selected (some raised)), { h with process := process })
    | (.error other, process) => (.proceeds (.retiring selected (some other)), { h with process := process })
  | .retiring selected failure =>
    (.after failure (some (.completing selected)), { h with process := ManagedWorker.retire selected h.process })
  | .completing selected => h.atOnce (ManagedWorker.closeAll .completed readings.closedAt selected)
  | .stopping [] => (.returns, { h with registered := false })
  | .stopping (modelId :: rest) =>
    match readings.call (runtime.unloadModel h.runtime modelId) with
    | .error raised => (.proceeds (.unregistering raised), h)
    | .ok after => (.proceeds (.stopping rest), { h with runtime := after })
  | .unregistering raised => (.raises raised, { h with registered := false })

end WorkerHost

namespace CallPlace

/-- Whether the call keeps the lock between its steps. -/
def holdsLock : CallPlace → Bool
  | .restoring .. => true
  | _ => false

/-- Whether the next step is made under the lock. -/
def locks : CallPlace → Bool
  | .waiting .. | .publishing .. | .recovering .. | .restoring .. | .closing .. | .puttingBack .. | .sweeping ..
  | .failing .. | .retiring .. | .completing .. => true
  | _ => false

end CallPlace

/-- A worker and the calls in flight on it. -/
structure WorkerSystem (ρ : Type) where
  host : WorkerHost ρ
  calls : Dict Nat CallPlace

/-- A call starts, or makes its next step; or somebody else's transition of a request. -/
inductive WorkerAction
  | start (call : Nat) (request : WorkerRequest) (readings : WorkerReadings)
  | advance (call : Nat) (readings : WorkerReadings)
  | outside (i : ObjectId) (target : RequestState) (at_ : Seconds)

namespace WorkerSystem

variable {ρ : Type} (runtime : ModelRuntime ρ) (idleEvictionSeconds : ModelDefinition → Seconds)

/-- Whether another call keeps the lock. -/
def locked (s : WorkerSystem ρ) (call : Nat) : Bool :=
  s.calls.entries.any fun (other, place) => other ≠ call && place.holdsLock

def settle (s : WorkerSystem ρ) (call : Nat) : CallOutcome × WorkerHost ρ → WorkerSystem ρ
  | (.proceeds place, h) => ⟨h, s.calls.insert call place⟩
  | (_, h) => ⟨h, s.calls.erase call⟩

def act (s : WorkerSystem ρ) : WorkerAction → Option (WorkerSystem ρ)
  | .start call request readings =>
    if s.calls.contains call || s.locked call then none
    else some (s.settle call (s.host.begin runtime idleEvictionSeconds readings request))
  | .advance call readings =>
    match s.calls.get? call with
    | none => none
    | some place =>
      if place.locks && s.locked call then none
      else some (s.settle call (s.host.advance runtime readings place))
  | .outside i target at_ =>
    match Objects.transition i target at_ s.host.objects with
    | (.ok (), objects) => some { s with host := { s.host with process := ⟨s.host.worker, objects⟩ } }
    | (.error _, _) => none

/-- A worker as its constructor leaves it. -/
structure Fresh (s : WorkerSystem ρ) : Prop where
  calls : s.calls = .empty
  residentModels : s.host.worker.residentModels = []
  loadingModels : s.host.worker.loadingModels = []
  activeRequestsByModel : s.host.worker.activeRequestsByModel = .empty
  queue : s.host.worker.queue = []

/-- The states of a worker, in runs whose actions are all allowed. -/
inductive Reach (Start : WorkerSystem ρ → Prop) (Allowed : WorkerSystem ρ → WorkerAction → Prop) :
    WorkerSystem ρ → Prop
  | start {s} : Start s → Reach Start Allowed s
  | next {s s' action} : Reach Start Allowed s → Allowed s action → s.act runtime idleEvictionSeconds action = some s' →
      Reach Start Allowed s'

/-- The state after an action, where it is possible. -/
def after (s : WorkerSystem ρ) (action : WorkerAction) : WorkerSystem ρ := (s.act runtime idleEvictionSeconds action).getD s

/-- A list of actions that are all allowed and possible. -/
def Permits (Allowed : WorkerSystem ρ → WorkerAction → Prop) : WorkerSystem ρ → List WorkerAction → Prop
  | _, [] => True
  | s, action :: rest => Allowed s action ∧ (s.act runtime idleEvictionSeconds action).isSome = true ∧
      Permits Allowed (s.after runtime idleEvictionSeconds action) rest

/-- The states of a worker with a history to which every action adds, in runs whose actions are all allowed. -/
inductive Traced {η : Type} (note : WorkerSystem ρ → η → WorkerAction → η) (Start : WorkerSystem ρ → η → Prop)
    (Allowed : WorkerSystem ρ → WorkerAction → Prop) : WorkerSystem ρ → η → Prop
  | start {s history} : Start s history → Traced note Start Allowed s history
  | next {s s' history action} : Traced note Start Allowed s history → Allowed s action →
      s.act runtime idleEvictionSeconds action = some s' → Traced note Start Allowed s' (note s history action)

/-- A state and its history after some actions. -/
def trace {η : Type} (note : WorkerSystem ρ → η → WorkerAction → η) (s : WorkerSystem ρ) (history : η)
    (actions : List WorkerAction) : WorkerSystem ρ × η :=
  actions.foldl (fun now action => (now.1.after runtime idleEvictionSeconds action, note now.1 now.2 action)) (s, history)

variable {runtime idleEvictionSeconds}

theorem Reach.run {Start : WorkerSystem ρ → Prop} {Allowed : WorkerSystem ρ → WorkerAction → Prop} {s : WorkerSystem ρ}
    {actions : List WorkerAction} (reached : Reach runtime idleEvictionSeconds Start Allowed s)
    (permits : s.Permits runtime idleEvictionSeconds Allowed actions) :
    Reach runtime idleEvictionSeconds Start Allowed (actions.foldl (after runtime idleEvictionSeconds) s) := by
  induction actions generalizing s with
  | nil => exact reached
  | cons action rest ih =>
    obtain ⟨allowed, possible, permits⟩ := permits
    obtain ⟨s', acts⟩ := Option.isSome_iff_exists.mp possible
    have same : s.after runtime idleEvictionSeconds action = s' := by rw [after, acts, Option.getD_some]
    rw [same] at permits
    rw [List.foldl_cons, same]
    exact ih (reached.next allowed acts) permits

theorem Traced.run {η : Type} {note : WorkerSystem ρ → η → WorkerAction → η} {Start : WorkerSystem ρ → η → Prop}
    {Allowed : WorkerSystem ρ → WorkerAction → Prop} {s : WorkerSystem ρ} {history : η} {actions : List WorkerAction}
    (traced : Traced runtime idleEvictionSeconds note Start Allowed s history)
    (permits : s.Permits runtime idleEvictionSeconds Allowed actions) :
    Traced runtime idleEvictionSeconds note Start Allowed (trace runtime idleEvictionSeconds note s history actions).1
      (trace runtime idleEvictionSeconds note s history actions).2 := by
  induction actions generalizing s history with
  | nil => exact traced
  | cons action rest ih =>
    obtain ⟨allowed, possible, permits⟩ := permits
    obtain ⟨s', acts⟩ := Option.isSome_iff_exists.mp possible
    have same : s.after runtime idleEvictionSeconds action = s' := by rw [after, acts, Option.getD_some]
    rw [same] at permits
    have later := ih (traced.next allowed acts) permits
    unfold trace at later ⊢
    rwa [List.foldl_cons, same]

namespace Sample

theorem named : "worker" ≠ "" := by decide

def worker : ManagedWorker where
  workerId := "worker"
  maxQueueDepth := 8
  maxConcurrency := 1
  maxBatchSize := 4
  maxBatchTokens := 4096
  memorySafetyReserveBytes := 0
  health := .registering
  draining := false
  residentModels := []
  loadingModels := []
  modelDefinitions := .empty
  modelLastUsed := .empty
  activeRequestsByModel := .empty
  activeRequests := .empty
  loadAttempts := .empty
  loadFailures := .empty
  reservedModelMemoryBytes := 0
  queue := []
  activeBatchCount := 0
  identified := named
  positive := by decide

theorem identified : "request" ≠ "" ∧ "tenant" ≠ "" ∧ "model" ≠ "" := by decide

theorem prompted : isBlank "hello" = false := by decide

def request : RequestRecord where
  requestId := "request"
  tenantId := "tenant"
  modelId := "model"
  prompt := "hello"
  promptTokens := 1
  maxNewTokens := 2
  priority := 0
  deadline := .infinite
  stream := false
  temperature := 0
  createdAt := 0
  status := .assigned
  assignedWorkerId := some "worker"
  attemptCount := 1
  retryReasons := []
  payloadAvailable := true
  transitionTimestamps := ⟨[(.received, 0), (.assigned, 0)], by decide⟩
  identified := identified
  prompted := prompted
  positive := Nat.two_pos
  temperate := Rat.le_refl
  stamped := by decide

def model : ModelDefinition := ⟨"model", "main", 100, 1024, 2048⟩

def gpu : SimulatedGpuRuntime := ⟨⟨[("model", model)], by decide⟩, 1000, [], Nat.succ_pos 999⟩

/-- A new worker on a simulated GPU that knows one model. -/
def system : WorkerSystem SimulatedGpuRuntime := ⟨⟨⟨worker, fun _ => request⟩, gpu, false⟩, .empty⟩

theorem system_fresh : system.Fresh := ⟨rfl, rfl, rfl, rfl, rfl⟩

def readings : WorkerReadings := ⟨none, 0, fun _ => some 0, .ok [], fun _ => 0⟩

/-- The runtime call of the step fails. -/
def faulty : WorkerReadings := { readings with fault := some (runtimeError "injected fault") }

/-- The worker is registered and loads its model. -/
def loading : List WorkerAction :=
  [.start 0 .register readings, .start 0 (.loadModel model) readings, .advance 0 readings, .advance 0 readings,
    .advance 0 readings, .advance 0 readings, .advance 0 readings, .advance 0 readings]

end Sample

end WorkerSystem

end ServingPlatform
