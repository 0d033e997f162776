import Mathlib.Data.Prod.Lex
import ServingPlatform.Placement.Policies

namespace ServingPlatform

/-- What a decision records about a worker besides its score. -/
inductive ScoringInput
  | number (value : Rat)
  | flag (value : Bool)
  | unknown
  deriving DecidableEq, Repr

def ScoringInput.ofOption : Option Int → ScoringInput
  | some value => .number value
  | none => .unknown

/-- A decision with the scores it was made by. -/
structure ScoredDecision extends RoutingDecision where
  scores : Dict String Rat
  scoringInputs : Dict String (List (String × ScoringInput))

/-- Why a policy selects no worker. -/
inductive Refusal
  | notRegistered (modelId : String)
  | noneEligible (rejected : Dict String String)

def Refusal.raised : Refusal → Raised
  | .notRegistered modelId => unknownModel modelId
  | .noneEligible _ => noEligibleWorker

/-- The workers that a policy chooses among, and what it goes by. -/
structure Ranking where
  policy : String
  eligible : List WorkerState
  rejected : Dict String String
  before : WorkerState → WorkerState → Bool
  score : WorkerState → Rat
  inputs : WorkerState → List (String × ScoringInput)

def Ranking.decide (ranking : Ranking) : Except Refusal ScoredDecision :=
  match ranking.eligible with
  | [] => .error (.noneEligible ranking.rejected)
  | first :: rest => .ok {
      selectedWorkerId := (PlacementPolicy.least ranking.before first rest).workerId
      policy := ranking.policy
      candidates := (first :: rest).map WorkerState.workerId
      rejected := ranking.rejected
      scores := .ofValues WorkerState.workerId ranking.score (first :: rest)
      scoringInputs := .ofValues WorkerState.workerId ranking.inputs (first :: rest) }

/-- The workers in the order of their ids. -/
def byId (workers : List WorkerState) : List WorkerState := workers.insertionSort fun a b => a.workerId ≤ b.workerId

/-- The reasons that a filter gives for the workers it drops. -/
def reasons (rejection : WorkerState → Option String) (workers : List WorkerState) : Dict String String :=
  workers.foldl (fun rejected worker =>
    match rejection worker with
    | some reason => rejected.insert worker.workerId reason
    | none => rejected) .empty

/-- Why `filter_workers` rejects a worker. -/
def warmRejection (r : RequestRecord) (worker : WorkerState) : Option String :=
  if worker.healthStatus ≠ .healthy then some s!"health:{worker.healthStatus.value}"
  else if worker.draining then some "worker_draining"
  else if r.modelId ∉ worker.residentModels then some "model_not_resident"
  else if worker.maxConcurrency ≤ worker.activeBatchCount then some "worker_concurrency_saturated"
  else none

def filterWorkers (r : RequestRecord) (workers : List WorkerState) : List WorkerState × Dict String String :=
  ((byId workers).filter fun worker => (warmRejection r worker).isNone, reasons (warmRejection r) (byId workers))

/-- `LeastQueueDepthPolicy.select` up to its choice of the least. -/
def LeastQueueDepthPolicy.rank (rounded : Rat → Rat) (r : RequestRecord) (workers : List WorkerState) : Ranking where
  policy := "least_queue_depth"
  eligible := (filterWorkers r workers).1
  rejected := (filterWorkers r workers).2
  before := PlacementPolicy.byScore fun worker => rounded worker.queueDepth
  score worker := rounded worker.queueDepth
  inputs worker := [("queue_depth", .number worker.queueDepth)]

/-- `_filter`, of which only the missing model is an error. -/
def PlacementPolicy.sift (p : PlacementPolicy) (r : RequestRecord) (workers : List WorkerState) :
    Except Refusal (ModelDefinition × List WorkerState × Dict String String) :=
  match p.filter r workers with
  | .error _ => .error (.notRegistered r.modelId)
  | .ok sifted => .ok sifted

/-- `ModelResidencyAwarePolicy.select` up to its choice of the least. -/
def ModelResidencyAwarePolicy.rank (p : PlacementPolicy) (r : RequestRecord) (workers : List WorkerState) :
    Except Refusal Ranking :=
  match p.sift r workers with
  | .error refusal => .error refusal
  | .ok (model, eligible, rejected) =>
    let score := fun worker : WorkerState => if model.modelId ∈ worker.residentModels then 0 else 1
    .ok {
      policy := "model_residency_aware"
      eligible
      rejected
      before := fun a b => score a < score b || (score a = score b &&
        (a.queueDepth < b.queueDepth || (a.queueDepth = b.queueDepth && a.workerId < b.workerId)))
      score := fun worker => (score worker : Nat)
      inputs := fun worker => [
        ("model_resident", .flag (model.modelId ∈ worker.residentModels)),
        ("queue_depth", .number worker.queueDepth),
        ("available_memory_bytes", .ofOption worker.availableMemoryBytes)] }

namespace MemoryAwareLeastLoadedPolicy

def projectedModelBytes (model : ModelDefinition) (worker : WorkerState) : Int :=
  if model.modelId ∈ worker.residentModels then 0 else model.estimatedMemoryBytes

def memoryUtilization (p : PlacementPolicy) (model : ModelDefinition) (worker : WorkerState) : Rat :=
  match worker.totalMemoryBytes, worker.availableMemoryBytes with
  | some total, some available =>
    if total = 0 then 1 / 2
    else min (p.rounded
      ((total - available + projectedModelBytes model worker + p.memorySafetyReserveBytes : Int) / total)) 1
  | _, _ => 1 / 2

/-- `MemoryAwareLeastLoadedPolicy.select` up to its choice of the least. -/
def rank (p : PlacementPolicy) (r : RequestRecord) (workers : List WorkerState) : Except Refusal Ranking :=
  match p.sift r workers with
  | .error refusal => .error refusal
  | .ok (model, eligible, rejected) => .ok {
      policy := "memory_aware_least_loaded"
      eligible
      rejected
      before := PlacementPolicy.byScore (score p model)
      score := score p model
      inputs := fun worker => [
        ("model_resident", .flag (model.modelId ∈ worker.residentModels)),
        ("available_memory_bytes", .ofOption worker.availableMemoryBytes),
        ("projected_model_bytes", .number (projectedModelBytes model worker)),
        ("memory_safety_reserve_bytes", .number p.memorySafetyReserveBytes),
        ("memory_utilization", .number (memoryUtilization p model worker)),
        ("concurrency_utilization", .number (p.concurrencyUtilization worker)),
        ("queue_depth", .number worker.queueDepth)] }

/-- The score adds up what the decision records. -/
theorem score_eq (p : PlacementPolicy) (model : ModelDefinition) (worker : WorkerState) :
    score p model worker = p.rounded (p.rounded (memoryUtilization p model worker +
      p.concurrencyUtilization worker) + p.rounded worker.queueDepth) := rfl

end MemoryAwareLeastLoadedPolicy

namespace CompletionEstimate

variable (e : CompletionEstimate) (p : PlacementPolicy) (r : RequestRecord) (model : ModelDefinition)
  (worker : WorkerState)

def throughput : Rat :=
  let recent := (p.workers worker.workerId).recentTokensPerSecond
  if recent = 0 then e.fallbackTokensPerSecond else recent

def generationSeconds : Rat := p.rounded (p.rounded r.estimatedTokens / e.throughput p worker)

def queueDelaySeconds : Rat := p.rounded (p.rounded (worker.queueDepth * r.estimatedTokens : Nat) /
  p.rounded (e.throughput p worker * p.rounded worker.maxConcurrency))

def modelLoadSeconds : Rat :=
  if model.modelId ∈ worker.residentModels then 0 else (p.models.profiles model.modelId).loadTimeoutSeconds

def batchingPenaltySeconds : Rat :=
  p.rounded (p.rounded (p.rounded (e.generationSeconds p r worker * e.batchingPenaltyRatio) *
    p.rounded worker.activeBatchCount) / p.rounded worker.maxConcurrency)

/-- The estimate adds up what the decision records. -/
theorem seconds_eq : e.seconds p r model worker = p.rounded (p.rounded (p.rounded (e.queueDelaySeconds p r worker +
    modelLoadSeconds p model worker) + e.generationSeconds p r worker) + e.batchingPenaltySeconds p r worker) := rfl

def inputs : List (String × ScoringInput) := [
  ("estimated_queue_delay_seconds", .number (e.queueDelaySeconds p r worker)),
  ("model_load_penalty_seconds", .number (modelLoadSeconds p model worker)),
  ("estimated_generation_seconds", .number (e.generationSeconds p r worker)),
  ("batching_penalty_seconds", .number (e.batchingPenaltySeconds p r worker)),
  ("recent_tokens_per_second", .number (p.workers worker.workerId).recentTokensPerSecond),
  ("fallback_throughput_used", .flag ((p.workers worker.workerId).recentTokensPerSecond ≤ 0))]

end CompletionEstimate

/-- `EstimatedCompletionTimePolicy.select` up to its choice of the least. -/
def EstimatedCompletionTimePolicy.rank (e : CompletionEstimate) (p : PlacementPolicy) (clock : String → Seconds)
    (r : RequestRecord) (workers : List WorkerState) : Except Refusal Ranking :=
  match p.sift r workers with
  | .error refusal => .error refusal
  | .ok (model, initiallyEligible, rejected) =>
    let feasible := fun worker : WorkerState => e.feasible p r model worker (clock worker.workerId)
    .ok {
      policy := "estimated_completion_time"
      eligible := initiallyEligible.filter feasible
      rejected := (initiallyEligible.filter fun worker => feasible worker = false).foldl
        (fun rejected worker => rejected.insert worker.workerId "deadline_not_feasible") rejected
      before := PlacementPolicy.byScore (e.seconds p r model)
      score := e.seconds p r model
      inputs := e.inputs p r model }

namespace ReplicaDemand

variable (d : ReplicaDemand) (p : PlacementPolicy) (model : ModelDefinition) (eligible : List WorkerState)

def residentReplicas : Nat := eligible.countP fun worker => model.modelId ∈ worker.residentModels

def scaleOut : Bool := residentReplicas model eligible < d.desiredReplicas p model eligible

def replicaTerm (worker : WorkerState) : Rat :=
  if model.modelId ∈ worker.residentModels then 0 else if d.scaleOut p model eligible then -1 else d.coldLoadPenalty

def inputs (worker : WorkerState) : List (String × ScoringInput) := [
  ("model_resident", .flag (model.modelId ∈ worker.residentModels)),
  ("pending_model_demand", .number (d.demand model.modelId + 1 : Int)),
  ("resident_replicas", .number (residentReplicas model eligible)),
  ("desired_replicas", .number (d.desiredReplicas p model eligible)),
  ("scale_out_requested", .flag (d.scaleOut p model eligible)),
  ("queue_depth", .number worker.queueDepth),
  ("concurrency_utilization", .number (p.concurrencyUtilization worker)),
  ("replica_score_term", .number (d.replicaTerm p model eligible worker))]

/-- The score adds up what the decision records. -/
theorem score_eq (worker : WorkerState) : d.score p model (d.scaleOut p model eligible) worker =
    p.rounded (p.rounded (p.rounded worker.queueDepth + p.concurrencyUtilization worker) +
      d.replicaTerm p model eligible worker) := rfl

end ReplicaDemand

/-- `DemandAwarePlacementPolicy.select` up to its choice of the least. -/
def DemandAwarePlacementPolicy.rank (d : ReplicaDemand) (p : PlacementPolicy) (r : RequestRecord)
    (workers : List WorkerState) : Except Refusal Ranking :=
  match p.sift r workers with
  | .error refusal => .error refusal
  | .ok (model, eligible, rejected) => .ok {
      policy := "demand_aware_placement"
      eligible
      rejected
      before := PlacementPolicy.byScore (d.score p model (d.scaleOut p model eligible))
      score := d.score p model (d.scaleOut p model eligible)
      inputs := d.inputs p model eligible }

def PlacementChoice.rank (choice : PlacementChoice) (p : PlacementPolicy) (r : RequestRecord)
    (workers : List WorkerState) : Except Refusal Ranking :=
  match choice with
  | .modelResidencyAware => ModelResidencyAwarePolicy.rank p r workers
  | .memoryAwareLeastLoaded => MemoryAwareLeastLoadedPolicy.rank p r workers
  | .estimatedCompletionTime estimate clock => EstimatedCompletionTimePolicy.rank estimate p clock r workers
  | .demandAware demand => DemandAwarePlacementPolicy.rank demand p r workers

/-- The policies that decide by the workers alone. -/
inductive RoutingChoice
  | leastQueueDepth (rounded : Rat → Rat)
  | placement (choice : PlacementChoice) (p : PlacementPolicy)

def RoutingChoice.rank (r : RequestRecord) (workers : List WorkerState) : RoutingChoice → Except Refusal Ranking
  | .leastQueueDepth rounded => .ok (LeastQueueDepthPolicy.rank rounded r workers)
  | .placement choice p => choice.rank p r workers

/-- `select`, with the whole decision. -/
def RoutingChoice.select (choice : RoutingChoice) (r : RequestRecord) (workers : List WorkerState) :
    Except Refusal ScoredDecision :=
  (choice.rank r workers).bind Ranking.decide

end ServingPlatform
