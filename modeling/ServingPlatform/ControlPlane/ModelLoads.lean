import ServingPlatform.ControlPlane.Worker

namespace ServingPlatform

/-- A runtime's answers while a model is loaded. -/
structure LoadAnswers where
  capacity : Except Raised RuntimeCapacity
  unload : String → Option Raised
  load : Option Raised
  warmup : Option Raised
  isModelLoaded : String → Bool
  now : Seconds

namespace ManagedWorker

/-- Whether a model is in use, so that it cannot be evicted. -/
def inUse (w : ManagedWorker) (objects : Objects) (modelId : String) : Bool :=
  (w.activeRequestsByModel.get? modelId).getD 0 ≠ 0 || w.queue.any fun i => (objects i).modelId = modelId

/-- Least recently used models first. -/
def evictionOrder (w : ManagedWorker) : List String :=
  let lastUsed := fun modelId => (w.modelLastUsed.get? modelId).getD 0
  w.residentModels.insertionSort fun a b => lastUsed a < lastUsed b ∨ lastUsed a = lastUsed b ∧ a ≤ b

/-- Models are chosen until the required memory is usable; the result is what was chosen and what is usable. -/
def chooseEvictions (w : ManagedWorker) (objects : Objects) (required : Int) :
    List String → Int → Except Raised (List (String × ModelDefinition) × Int)
  | [], usable => .ok ([], usable)
  | modelId :: rest, usable =>
    if w.inUse objects modelId then w.chooseEvictions objects required rest usable
    else
      match w.modelDefinitions.get? modelId with
      | none => .error (keyError modelId)
      | some definition =>
        let freed := usable + definition.estimatedMemoryBytes
        if required ≤ freed then .ok ([(modelId, definition)], freed)
        else (w.chooseEvictions objects required rest freed).map fun (chosen, usable) =>
          ((modelId, definition) :: chosen, usable)

def planEvictions (w : ManagedWorker) (objects : Objects) (model : ModelDefinition) (capacity : RuntimeCapacity) :
    Except Raised (List (String × ModelDefinition)) :=
  match capacity.availableMemoryBytes with
  | none => .ok []
  | some available =>
    let required : Int := model.estimatedMemoryBytes
    let usable := available - w.reservedModelMemoryBytes - w.memorySafetyReserveBytes
    if required ≤ usable then .ok []
    else
      match w.chooseEvictions objects required w.evictionOrder usable with
      | .error raised => .error raised
      | .ok (evictions, usable) =>
        if usable < required then .error ⟨.memoryError, s!"insufficient worker memory for {model.modelId}"⟩
        else .ok evictions

/-- The locked first part of a load. A load that another thread has under way is
waited for; `woken` is the worker after the wait. Nothing is planned for a model
that is resident. -/
def beginLoad (w woken : ManagedWorker) (objects : Objects) (model : ModelDefinition) (answers : LoadAnswers) :
    Except Raised (Option (List (String × ModelDefinition) × Nat)) × ManagedWorker :=
  if w.accepting = false then (.error (runtimeError "worker is not accepting model loads"), w)
  else if model.modelId ∈ w.residentModels then
    (.ok none, { w with modelLastUsed := w.modelLastUsed.insert model.modelId answers.now })
  else
    let waitingForAttempt := (w.loadAttempts.get? model.modelId).getD 0
    let joined := decide (model.modelId ∈ w.loadingModels)
    let w := if joined then woken else w
    if model.modelId ∈ w.residentModels then
      (.ok none, { w with modelLastUsed := w.modelLastUsed.insert model.modelId answers.now })
    else if joined ∧ (w.loadFailures.get? model.modelId).any (fun failure => failure.1 = waitingForAttempt) then
      (.error (runtimeError s!"coalesced model load failed: {model.modelId}"), w)
    else
      match answers.capacity with
      | .error raised => (.error raised, w)
      | .ok capacity =>
        match w.planEvictions objects model capacity with
        | .error raised => (.error raised, w)
        | .ok evictions =>
          let attempt := (w.loadAttempts.get? model.modelId).getD 0 + 1
          (.ok (some (evictions, attempt)), { w with
            residentModels := w.residentModels.filter fun modelId => evictions.all fun e => modelId ≠ e.1
            modelLastUsed := evictions.foldl (fun lastUsed e => lastUsed.erase e.1) w.modelLastUsed
            loadAttempts := w.loadAttempts.insert model.modelId attempt
            loadingModels := w.loadingModels.insert model.modelId
            reservedModelMemoryBytes := w.reservedModelMemoryBytes + model.estimatedMemoryBytes })

/-- The unlocked part of a load: the first thing that the runtime raises. -/
def runLoad (evictions : List (String × ModelDefinition)) (answers : LoadAnswers) : Option Raised :=
  (evictions.findSome? fun e => answers.unload e.1).or (answers.load.or answers.warmup)

/-- A model that was to be evicted but is still loaded becomes resident again. -/
def restore (now : Seconds) (w : ManagedWorker) (e : String × ModelDefinition) : ManagedWorker :=
  { w with
    residentModels := w.residentModels.insert e.1
    modelDefinitions := w.modelDefinitions.insert e.1 e.2
    modelLastUsed := w.modelLastUsed.insert e.1 now }

/-- The locked last part of a load, on the worker as other threads left it. -/
def endLoad (w : ManagedWorker) (model : ModelDefinition) (evictions : List (String × ModelDefinition)) (attempt : Nat)
    (answers : LoadAnswers) : ManagedWorker :=
  let settled := match runLoad evictions answers with
    | none => { w with
        modelDefinitions := w.modelDefinitions.insert model.modelId model
        residentModels := w.residentModels.insert model.modelId
        modelLastUsed := w.modelLastUsed.insert model.modelId answers.now
        loadFailures := w.loadFailures.erase model.modelId }
    | some raised =>
      let survivors := evictions.filter fun (e : String × ModelDefinition) => answers.isModelLoaded e.1
      survivors.foldl (restore answers.now)
        { w with loadFailures := w.loadFailures.insert model.modelId (attempt, raised) }
  { settled with
    loadingModels := settled.loadingModels.erase model.modelId
    reservedModelMemoryBytes := settled.reservedModelMemoryBytes - model.estimatedMemoryBytes }

/-- `load_model`; `woken` and `meanwhile` are what other threads make of the worker in its unlocked parts. -/
def loadModel (w woken : ManagedWorker) (meanwhile : ManagedWorker → ManagedWorker) (objects : Objects)
    (model : ModelDefinition) (answers : LoadAnswers) : Except Raised Unit × ManagedWorker :=
  match w.beginLoad woken objects model answers with
  | (.error raised, w) => (.error raised, w)
  | (.ok none, w) => (.ok (), w)
  | (.ok (some (evictions, attempt)), w) =>
    let ended := (meanwhile w).endLoad model evictions attempt answers
    match runLoad evictions answers with
    | some raised => (.error raised, ended)
    | none => (.ok (), ended)

end ManagedWorker

end ServingPlatform
