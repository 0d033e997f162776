import Mathlib.Algebra.Ring.Int.Defs
import ServingPlatform.ControlPlane.Worker

namespace ServingPlatform

/-- What a worker asks of its runtime. A load first finds out whether the model
has still to be loaded, and takes effect later. -/
structure ModelRuntime (ρ : Type) where
  capacity : ρ → Except Raised RuntimeCapacity
  checkLoad : ρ → ModelDefinition → Except Raised Bool
  addLoaded : ρ → String → ρ
  unloadModel : ρ → String → Except Raised ρ
  warmupModel : ρ → String → Except Raised Unit
  isModelLoaded : ρ → String → Except Raised Bool

/-- The simulated GPU: the models it knows by their ids, and those that are loaded. -/
structure SimulatedGpuRuntime where
  models : Dict String ModelDefinition
  totalMemoryBytes : Nat
  loaded : List String
  positive : 0 < totalMemoryBytes

namespace SimulatedGpuRuntime

variable (r : SimulatedGpuRuntime)

def definition (modelId : String) : Except Raised ModelDefinition :=
  match r.models.get? modelId with
  | some model => .ok model
  | none => .error (valueError s!"model is not registered: {modelId}")

/-- The memory of the loaded models; only known models are ever loaded. -/
def used : Int :=
  (r.loaded.map fun modelId => (r.models.get? modelId).elim 0 fun model => (model.estimatedMemoryBytes : Int)).sum

def capacity : RuntimeCapacity where
  totalMemoryBytes := some r.totalMemoryBytes
  availableMemoryBytes := some (r.totalMemoryBytes - r.used)
  allocatedMemoryBytes := some r.used
  reservedMemoryBytes := some r.used

/-- `load_model` up to its wait. -/
def checkLoad (model : ModelDefinition) : Except Raised Bool :=
  match r.definition model.modelId with
  | .error raised => .error raised
  | .ok registered =>
    if registered ≠ model then .error (valueError "model definition does not match the registered definition")
    else if model.modelId ∈ r.loaded then .ok false
    else if r.totalMemoryBytes - r.used < model.estimatedMemoryBytes then
      .error ⟨.memoryError, s!"insufficient simulated GPU memory for {model.modelId}"⟩
    else .ok true

/-- `load_model` after its wait. -/
def addLoaded (modelId : String) : SimulatedGpuRuntime := { r with loaded := r.loaded.insert modelId }

def unloadModel (modelId : String) : Except Raised SimulatedGpuRuntime :=
  match r.definition modelId with
  | .error raised => .error raised
  | .ok _ => .ok { r with loaded := r.loaded.filter (· ≠ modelId) }

def warmupModel (modelId : String) : Except Raised Unit :=
  match r.definition modelId with
  | .error raised => .error raised
  | .ok _ => if modelId ∈ r.loaded then .ok () else .error (runtimeError s!"model is not loaded: {modelId}")

def isModelLoaded (modelId : String) : Except Raised Bool :=
  match r.definition modelId with
  | .error raised => .error raised
  | .ok _ => .ok (modelId ∈ r.loaded)

def runtime : ModelRuntime SimulatedGpuRuntime where
  capacity r := .ok r.capacity
  checkLoad := checkLoad
  addLoaded := addLoaded
  unloadModel := unloadModel
  warmupModel := warmupModel
  isModelLoaded := isModelLoaded

variable {r} {r' : SimulatedGpuRuntime} {modelId other : String} {model : ModelDefinition}

theorem mem_addLoaded : other ∈ (r.addLoaded modelId).loaded ↔ other = modelId ∨ other ∈ r.loaded := List.mem_insert_iff

theorem mem_of_unloadModel (unloaded : r.unloadModel modelId = .ok r') :
    other ∈ r'.loaded ↔ other ∈ r.loaded ∧ other ≠ modelId := by
  unfold unloadModel at unloaded
  split at unloaded
  · cases unloaded
  · cases unloaded
    simp

theorem checkLoad_loaded {new : Bool} (checked : r.checkLoad model = .ok new) : model.modelId ∈ r.loaded ↔ new = false := by
  unfold checkLoad at checked
  split at checked
  · cases checked
  split at checked
  · cases checked
  split at checked
  · rename_i loaded
    cases checked
    simp [loaded]
  split at checked
  · cases checked
  · rename_i absent _
    cases checked
    simp [absent]

theorem warmupModel_loaded (warm : r.warmupModel modelId = .ok ()) : modelId ∈ r.loaded := by
  unfold warmupModel at warm
  split at warm
  · cases warm
  split at warm
  · assumption
  · cases warm

theorem isModelLoaded_iff {answer : Bool} (answered : r.isModelLoaded modelId = .ok answer) :
    answer = true ↔ modelId ∈ r.loaded := by
  unfold isModelLoaded at answered
  split at answered
  · cases answered
  · cases answered
    simp

end SimulatedGpuRuntime

end ServingPlatform
