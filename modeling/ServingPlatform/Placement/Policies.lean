import Mathlib.Algebra.Order.Floor.Defs
import Mathlib.Data.Rat.Floor
import ServingPlatform.ControlPlane.Placement

namespace ServingPlatform

inductive DeviceType
  | cpu
  | cuda
  | simulatedGpu
  deriving DecidableEq, Repr

inductive RuntimeType
  | huggingface
  | simulated
  deriving DecidableEq, Repr

def HealthStatus.value : HealthStatus → String
  | .registering => "registering"
  | .healthy => "healthy"
  | .suspect => "suspect"
  | .unhealthy => "unhealthy"
  | .recovering => "recovering"
  | .stopped => "stopped"

/-- The fields of a worker's snapshot that only placement reads. -/
structure WorkerProfile where
  deviceType : DeviceType
  recentTokensPerSecond : Rat

/-- The fields of a model definition that only placement reads. -/
structure ModelProfile where
  runtimeType : RuntimeType
  loadTimeoutSeconds : Rat

/-- The model registry: definitions under their own names, with the checks of `__post_init__`. -/
structure ModelRegistry where
  definitions : Dict String ModelDefinition
  profiles : String → ModelProfile
  keyed : ∀ modelId model, definitions.get? modelId = some model → model.modelId = modelId
  positive : ∀ modelId model, definitions.get? modelId = some model →
    0 < model.estimatedMemoryBytes ∧ 0 < model.maxContextTokens ∧ 0 < model.maxBatchTokens

/-- What the placement policies share. `rounded` is the rounding of float arithmetic. -/
structure PlacementPolicy where
  models : ModelRegistry
  workers : String → WorkerProfile
  memorySafetyReserveBytes : Nat
  rounded : Rat → Rat

def unknownModel (modelId : String) : Raised := ⟨.unknownModel, s!"model is not registered: {modelId}"⟩

def noEligibleWorker : Raised := ⟨.noEligibleWorker, "no eligible worker"⟩

namespace PlacementPolicy

variable (p : PlacementPolicy)

def runtimeCompatible (model : ModelDefinition) (worker : WorkerState) : Bool :=
  match (p.models.profiles model.modelId).runtimeType, (p.workers worker.workerId).deviceType with
  | .simulated, .simulatedGpu => true
  | .huggingface, .cpu => true
  | .huggingface, .cuda => true
  | _, _ => false

/-- Why `_filter` rejects a worker. -/
def rejection (r : RequestRecord) (model : ModelDefinition) (worker : WorkerState) : Option String :=
  if worker.healthStatus ≠ .healthy then some s!"health:{worker.healthStatus.value}"
  else if worker.draining then some "worker_draining"
  else if worker.maxConcurrency ≤ worker.activeBatchCount then some "worker_concurrency_saturated"
  else if p.runtimeCompatible model worker = false then some "runtime_incompatible"
  else if model.maxContextTokens < r.estimatedTokens then some "context_window_exceeded"
  else if model.modelId ∉ worker.residentModels then
    match worker.availableMemoryBytes with
    | none => some "memory_unknown_for_cold_load"
    | some available =>
      if available - p.memorySafetyReserveBytes < model.estimatedMemoryBytes then
        some "insufficient_memory_after_safety_reserve"
      else none
  else none

/-- `_filter`, which goes through the workers by their ids. -/
def filter (r : RequestRecord) (workers : List WorkerState) :
    Except Raised (ModelDefinition × List WorkerState × Dict String String) :=
  match p.models.definitions.get? r.modelId with
  | none => .error (unknownModel r.modelId)
  | some model =>
    let workers := workers.insertionSort fun a b => a.workerId ≤ b.workerId
    .ok (model, workers.filter fun worker => (p.rejection r model worker).isNone,
      workers.foldl (fun rejected worker =>
        match p.rejection r model worker with
        | some reason => rejected.insert worker.workerId reason
        | none => rejected) .empty)

/-- `min(eligible, key=…)`: the first worker whose key is least. -/
def least (before : WorkerState → WorkerState → Bool) (best : WorkerState) : List WorkerState → WorkerState
  | [] => best
  | worker :: rest => least before (if before worker best then worker else best) rest

/-- `_decision` for the least of the eligible workers. -/
def decision (policy : String) (eligible : List WorkerState) (rejected : Dict String String)
    (before : WorkerState → WorkerState → Bool) : Except Raised RoutingDecision :=
  match eligible with
  | [] => .error noEligibleWorker
  | first :: rest => .ok {
      selectedWorkerId := (least before first rest).workerId
      policy
      candidates := eligible.map WorkerState.workerId
      rejected }

/-- Orders by score, then by id. -/
def byScore (score : WorkerState → Rat) (a b : WorkerState) : Bool :=
  score a < score b || (score a = score b && a.workerId < b.workerId)

def concurrencyUtilization (worker : WorkerState) : Rat :=
  p.rounded (worker.activeBatchCount / worker.maxConcurrency)

end PlacementPolicy

/-- `ModelResidencyAwarePolicy.select`: warm workers first, then by queue depth. -/
def ModelResidencyAwarePolicy.select (p : PlacementPolicy) (r : RequestRecord) (workers : List WorkerState) :
    Except Raised RoutingDecision :=
  match p.filter r workers with
  | .error raised => .error raised
  | .ok (model, eligible, rejected) =>
    let score := fun worker : WorkerState => if model.modelId ∈ worker.residentModels then 0 else 1
    PlacementPolicy.decision "model_residency_aware" eligible rejected fun a b =>
      score a < score b || (score a = score b &&
        (a.queueDepth < b.queueDepth || (a.queueDepth = b.queueDepth && a.workerId < b.workerId)))

/-- The score of `MemoryAwareLeastLoadedPolicy`. -/
def MemoryAwareLeastLoadedPolicy.score (p : PlacementPolicy) (model : ModelDefinition) (worker : WorkerState) : Rat :=
  let projectedModelBytes : Int := if model.modelId ∈ worker.residentModels then 0 else model.estimatedMemoryBytes
  let memoryUtilization : Rat := match worker.totalMemoryBytes, worker.availableMemoryBytes with
    | some total, some available =>
      if total = 0 then 1 / 2
      else min (p.rounded ((total - available + projectedModelBytes + p.memorySafetyReserveBytes : Int) / total)) 1
    | _, _ => 1 / 2
  p.rounded (p.rounded (memoryUtilization + p.concurrencyUtilization worker) + p.rounded worker.queueDepth)

def MemoryAwareLeastLoadedPolicy.select (p : PlacementPolicy) (r : RequestRecord) (workers : List WorkerState) :
    Except Raised RoutingDecision :=
  match p.filter r workers with
  | .error raised => .error raised
  | .ok (model, eligible, rejected) =>
    PlacementPolicy.decision "memory_aware_least_loaded" eligible rejected (PlacementPolicy.byScore (score p model))

/-- The parameters of `EstimatedCompletionTimePolicy`, with the checks of its constructor. -/
structure CompletionEstimate where
  fallbackTokensPerSecond : Rat
  batchingPenaltyRatio : Rat
  positive : 0 < fallbackTokensPerSecond
  nonneg : 0 ≤ batchingPenaltyRatio

/-- The seconds until a worker would have completed the request. -/
def CompletionEstimate.seconds (e : CompletionEstimate) (p : PlacementPolicy) (r : RequestRecord)
    (model : ModelDefinition) (worker : WorkerState) : Rat :=
  let recent := (p.workers worker.workerId).recentTokensPerSecond
  let throughput := if recent = 0 then e.fallbackTokensPerSecond else recent
  let tokens : Rat := p.rounded r.estimatedTokens
  let generation := p.rounded (tokens / throughput)
  let queueDelay := p.rounded (p.rounded (worker.queueDepth * r.estimatedTokens : Nat) /
    p.rounded (throughput * p.rounded worker.maxConcurrency))
  let modelLoad := if model.modelId ∈ worker.residentModels then 0
    else (p.models.profiles model.modelId).loadTimeoutSeconds
  let batchingPenalty := p.rounded (p.rounded (p.rounded (generation * e.batchingPenaltyRatio) *
    p.rounded worker.activeBatchCount) / p.rounded worker.maxConcurrency)
  p.rounded (p.rounded (p.rounded (queueDelay + modelLoad) + generation) + batchingPenalty)

def CompletionEstimate.feasible (e : CompletionEstimate) (p : PlacementPolicy) (r : RequestRecord)
    (model : ModelDefinition) (worker : WorkerState) (now : Seconds) : Bool :=
  match r.deadline with
  | .infinite => true
  | .finite deadline => p.rounded (now + e.seconds p r model worker) ≤ deadline

/-- `EstimatedCompletionTimePolicy.select`; `clock` is what it reads when it looks at a worker. -/
def EstimatedCompletionTimePolicy.select (e : CompletionEstimate) (p : PlacementPolicy) (clock : String → Seconds)
    (r : RequestRecord) (workers : List WorkerState) : Except Raised RoutingDecision :=
  match p.filter r workers with
  | .error raised => .error raised
  | .ok (model, initiallyEligible, rejected) =>
    let feasible := fun worker : WorkerState => e.feasible p r model worker (clock worker.workerId)
    PlacementPolicy.decision "estimated_completion_time" (initiallyEligible.filter feasible)
      ((initiallyEligible.filter fun worker => feasible worker = false).foldl
        (fun rejected worker => rejected.insert worker.workerId "deadline_not_feasible") rejected)
      (PlacementPolicy.byScore (e.seconds p r model))

/-- The parameters of `DemandAwarePlacementPolicy`, with the checks of its constructor. -/
structure ReplicaDemand where
  demand : String → Int
  requestsPerReplica : Nat
  coldLoadPenalty : Rat
  positive : 0 < requestsPerReplica
  nonneg : 0 ≤ coldLoadPenalty

def ReplicaDemand.desiredReplicas (d : ReplicaDemand) (p : PlacementPolicy) (model : ModelDefinition)
    (eligible : List WorkerState) : Int :=
  min eligible.length (max 1 ⌈p.rounded ((d.demand model.modelId + 1 : Int) / d.requestsPerReplica)⌉)

def ReplicaDemand.score (d : ReplicaDemand) (p : PlacementPolicy) (model : ModelDefinition) (scaleOut : Bool)
    (worker : WorkerState) : Rat :=
  let replicaTerm := if model.modelId ∈ worker.residentModels then 0 else if scaleOut then -1 else d.coldLoadPenalty
  p.rounded (p.rounded (p.rounded worker.queueDepth + p.concurrencyUtilization worker) + replicaTerm)

/-- `DemandAwarePlacementPolicy.select`. -/
def DemandAwarePlacementPolicy.select (d : ReplicaDemand) (p : PlacementPolicy) (r : RequestRecord)
    (workers : List WorkerState) : Except Raised RoutingDecision :=
  match p.filter r workers with
  | .error raised => .error raised
  | .ok (model, eligible, rejected) =>
    let residentReplicas := eligible.countP fun worker => model.modelId ∈ worker.residentModels
    let scaleOut : Bool := residentReplicas < d.desiredReplicas p model eligible
    PlacementPolicy.decision "demand_aware_placement" eligible rejected
      (PlacementPolicy.byScore (d.score p model scaleOut))

/-- The policies that place by memory. -/
inductive PlacementChoice
  | modelResidencyAware
  | memoryAwareLeastLoaded
  | estimatedCompletionTime (estimate : CompletionEstimate) (clock : String → Seconds)
  | demandAware (demand : ReplicaDemand)

def PlacementChoice.select (choice : PlacementChoice) (p : PlacementPolicy) : RoutingPolicy :=
  match choice with
  | .modelResidencyAware => ModelResidencyAwarePolicy.select p
  | .memoryAwareLeastLoaded => MemoryAwareLeastLoadedPolicy.select p
  | .estimatedCompletionTime estimate clock => EstimatedCompletionTimePolicy.select estimate p clock
  | .demandAware demand => DemandAwarePlacementPolicy.select demand p

namespace PlacementPolicy

variable {p : PlacementPolicy} {r : RequestRecord} {workers : List WorkerState}

theorem least_mem (before : WorkerState → WorkerState → Bool) (best : WorkerState) (rest : List WorkerState) :
    least before best rest ∈ best :: rest := by
  induction rest generalizing best with
  | nil => exact List.mem_cons_self
  | cons worker rest ih =>
    unfold least
    split
    · exact List.mem_cons_of_mem _ (ih worker)
    · rcases List.mem_cons.mp (ih best) with same | later
      · rw [same]
        exact List.mem_cons_self
      · exact List.mem_cons_of_mem _ (List.mem_cons_of_mem _ later)

theorem decision_mem {policy : String} {eligible : List WorkerState} {rejected : Dict String String}
    {before : WorkerState → WorkerState → Bool} {d : RoutingDecision}
    (decided : decision policy eligible rejected before = .ok d) :
    ∃ worker ∈ eligible, worker.workerId = d.selectedWorkerId := by
  cases eligible with
  | nil => cases decided
  | cons first rest =>
    cases decided
    exact ⟨_, least_mem before first rest, rfl⟩

/-- `_filter` lets through what has no reason to be rejected. -/
theorem filter_cases (p : PlacementPolicy) (r : RequestRecord) (workers : List WorkerState) :
    (∃ raised, p.filter r workers = .error raised) ∨ ∃ model eligible rejected,
      p.filter r workers = .ok (model, eligible, rejected) ∧ p.models.definitions.get? r.modelId = some model ∧
      ∀ worker ∈ eligible, worker ∈ workers ∧ p.rejection r model worker = none := by
  unfold filter
  cases found : p.models.definitions.get? r.modelId with
  | none => exact Or.inl ⟨_, rfl⟩
  | some model =>
    refine Or.inr ⟨model, _, _, rfl, rfl, fun worker member => ?_⟩
    obtain ⟨inside, accepted⟩ := List.mem_filter.mp member
    exact ⟨List.mem_insertionSort _ |>.mp inside, by simpa using accepted⟩

/-- Every policy decides for a worker that `_filter` lets through. -/
theorem select_eligible {choice : PlacementChoice} {d : RoutingDecision} (selected : choice.select p r workers = .ok d) :
    ∃ model worker, p.models.definitions.get? r.modelId = some model ∧ worker ∈ workers ∧
      worker.workerId = d.selectedWorkerId ∧ p.rejection r model worker = none := by
  rcases p.filter_cases r workers with ⟨raised, refused⟩ | ⟨model, eligible, rejected, filtered, found, accepted⟩
  · cases choice <;>
      simp [PlacementChoice.select, ModelResidencyAwarePolicy.select, MemoryAwareLeastLoadedPolicy.select,
        EstimatedCompletionTimePolicy.select, DemandAwarePlacementPolicy.select, refused] at selected
  have within : ∃ worker ∈ eligible, worker.workerId = d.selectedWorkerId := by
    cases choice with
    | modelResidencyAware =>
      simp only [PlacementChoice.select, ModelResidencyAwarePolicy.select, filtered] at selected
      exact decision_mem selected
    | memoryAwareLeastLoaded =>
      simp only [PlacementChoice.select, MemoryAwareLeastLoadedPolicy.select, filtered] at selected
      exact decision_mem selected
    | estimatedCompletionTime estimate clock =>
      simp only [PlacementChoice.select, EstimatedCompletionTimePolicy.select, filtered] at selected
      obtain ⟨worker, member, named⟩ := decision_mem selected
      exact ⟨worker, (List.mem_filter.mp member).1, named⟩
    | demandAware demand =>
      simp only [PlacementChoice.select, DemandAwarePlacementPolicy.select, filtered] at selected
      exact decision_mem selected
  obtain ⟨worker, member, named⟩ := within
  exact ⟨model, worker, found, (accepted worker member).1, named, (accepted worker member).2⟩

/-- A worker that lacks the model is let through only with room for it beyond the reserve. -/
theorem room_of_accepted {model : ModelDefinition} {worker : WorkerState} (accepted : p.rejection r model worker = none)
    (cold : model.modelId ∉ worker.residentModels) : ∃ available, worker.availableMemoryBytes = some available ∧
      (model.estimatedMemoryBytes : Int) + p.memorySafetyReserveBytes ≤ available := by
  unfold rejection at accepted
  simp only [cold, not_false_eq_true, if_true] at accepted
  split at accepted
  · cases accepted
  split at accepted
  · cases accepted
  split at accepted
  · cases accepted
  split at accepted
  · cases accepted
  split at accepted
  · cases accepted
  split at accepted
  · cases accepted
  rename_i available known
  split at accepted
  · cases accepted
  · exact ⟨available, known, by omega⟩

end PlacementPolicy

end ServingPlatform
