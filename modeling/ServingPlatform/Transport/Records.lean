import Mathlib.Data.Finset.Sort
import Mathlib.Data.String.Basic
import ServingPlatform.Placement.Policies
import ServingPlatform.PythonValues
import ServingPlatform.Transport.Payloads

namespace ServingPlatform

def DeviceType.value : DeviceType → String
  | .cpu => "cpu"
  | .cuda => "cuda"
  | .simulatedGpu => "simulated_gpu"

def DeviceType.ofValue : String → Option DeviceType
  | "cpu" => some .cpu
  | "cuda" => some .cuda
  | "simulated_gpu" => some .simulatedGpu
  | _ => none

def RuntimeType.value : RuntimeType → String
  | .huggingface => "huggingface"
  | .simulated => "simulated"

def RuntimeType.ofValue : String → Option RuntimeType
  | "huggingface" => some .huggingface
  | "simulated" => some .simulated
  | _ => none

def HealthStatus.ofValue : String → Option HealthStatus
  | "registering" => some .registering
  | "healthy" => some .healthy
  | "suspect" => some .suspect
  | "unhealthy" => some .unhealthy
  | "recovering" => some .recovering
  | "stopped" => some .stopped
  | _ => none

namespace Wire

/-! The records of the transport with all their fields. A record is made of
fields that pass the checks of its `__post_init__`. -/

structure ModelFields where
  modelId : String
  revision : String
  runtimeType : RuntimeType
  estimatedMemoryBytes : Int
  supportedDtypes : List String
  defaultDtype : String
  maxContextTokens : Int
  maxBatchTokens : Int
  supportsStreaming : Bool
  supportsCancellation : Bool
  loadTimeoutSeconds : PyFloat
  idleEvictionSeconds : PyFloat

def ModelFields.postInit (m : ModelFields) : Except Raised Unit :=
  if m.modelId = "" ∨ m.revision = "" then .error (valueError "model_id and revision are required")
  else if m.defaultDtype ∉ m.supportedDtypes then .error (valueError "default_dtype must be supported")
  else if min (min m.estimatedMemoryBytes m.maxContextTokens) m.maxBatchTokens ≤ 0 then
    .error (valueError "model memory and token limits must be positive")
  else .ok ()

structure ModelDefinition extends ModelFields where
  constructed : toModelFields.postInit = .ok ()

structure WorkerFields where
  workerId : String
  deviceType : DeviceType
  deviceName : String
  totalMemoryBytes : Option Int
  availableMemoryBytes : Option Int
  residentModels : Finset String
  loadingModels : Finset String
  queueDepth : Int
  activeBatchCount : Int
  maxConcurrency : Int
  recentTokensPerSecond : PyFloat
  healthStatus : HealthStatus
  draining : Bool
  lastHeartbeat : PyFloat
  allocatedMemoryBytes : Option Int
  reservedMemoryBytes : Option Int
  gpuIndex : Option Int
  computeCapability : Option String
  driverVersion : Option String
  runtimeVersion : Option String
  heartbeatSequence : Int
  consecutiveFailures : Int
  lastErrorCode : Option String
  nodeId : Option String
  numaNode : Option Int
  pcieRootId : Option String
  fabricId : Option String

/-- The memory that a worker knows of. -/
def WorkerFields.memoryAccounted (w : WorkerFields) : Except Raised Unit :=
  match w.totalMemoryBytes, w.availableMemoryBytes with
  | some total, some available =>
    if total < 0 ∨ ¬(0 ≤ available ∧ available ≤ total) then .error (valueError "worker memory accounting is invalid")
    else if [w.allocatedMemoryBytes, w.reservedMemoryBytes].any fun value =>
        value.any fun value => !decide (0 ≤ value ∧ value ≤ total) then
      .error (valueError "worker CUDA memory accounting is invalid")
    else .ok ()
  | _, _ => .ok ()

def WorkerFields.postInit (w : WorkerFields) : Except Raised Unit :=
  if w.workerId = "" then .error (valueError "worker_id is required")
  else if w.totalMemoryBytes.isNone ≠ w.availableMemoryBytes.isNone then
    .error (valueError "worker memory values must both be known or both be unknown")
  else if w.totalMemoryBytes = none ∧ (w.allocatedMemoryBytes ≠ none ∨ w.reservedMemoryBytes ≠ none) then
    .error (valueError "allocated and reserved memory require a known total")
  else
    match w.memoryAccounted with
    | .error raised => .error raised
    | .ok () =>
      if min w.queueDepth w.activeBatchCount < 0 ∨ w.maxConcurrency ≤ 0 then
        .error (valueError "worker queue and concurrency values are invalid")
      else if w.heartbeatSequence < 0 ∨ w.consecutiveFailures < 0 then
        .error (valueError "worker health counters must be non-negative")
      else if w.gpuIndex.any (· < 0) then .error (valueError "GPU index must be non-negative")
      else if w.numaNode.any (· < 0) then .error (valueError "NUMA node must be non-negative")
      else .ok ()

structure WorkerState extends WorkerFields where
  constructed : toWorkerFields.postInit = .ok ()

structure RequestFields where
  requestId : String
  tenantId : String
  modelId : String
  prompt : String
  promptTokens : Int
  maxNewTokens : Int
  priority : Int
  deadline : PyFloat
  stream : Bool
  temperature : PyFloat
  createdAt : PyFloat
  status : RequestState
  assignedWorkerId : Option String
  attemptCount : Int
  retryReasons : List String
  payloadAvailable : Bool
  transitionTimestamps : Dict RequestState PyFloat

/-- The checks of `__post_init__`. -/
def RequestFields.checks (r : RequestFields) : Except Raised Unit :=
  if r.requestId = "" ∨ r.tenantId = "" ∨ r.modelId = "" then
    .error (valueError "request, tenant, and model identifiers are required")
  else if isBlank r.prompt = true ∨ r.promptTokens < 0 ∨ r.maxNewTokens ≤ 0 ∨ r.temperature.isNegative = true then
    .error (valueError "request token and prompt values are invalid")
  else .ok ()

/-- `self.transition_timestamps.setdefault(self.status, self.created_at)` -/
def RequestFields.stamp (r : RequestFields) : RequestFields :=
  if r.transitionTimestamps.contains r.status then r
  else { r with transitionTimestamps := r.transitionTimestamps.insert r.status r.createdAt }

theorem RequestFields.checks_stamp (r : RequestFields) : r.stamp.checks = r.checks := by
  unfold stamp
  split <;> rfl

theorem RequestFields.stamp_contains (r : RequestFields) :
    r.stamp.transitionTimestamps.contains r.stamp.status = true := by
  unfold stamp
  split
  · assumption
  · exact by rw [Dict.contains, Dict.get?_insert_self]; rfl

/-- A request; its status always has a timestamp. -/
structure RequestRecord extends RequestFields where
  constructed : toRequestFields.checks = .ok ()
  stamped : toRequestFields.transitionTimestamps.contains toRequestFields.status = true

structure RuntimeCapacity where
  deviceType : DeviceType
  deviceName : String
  totalMemoryBytes : Option Int
  availableMemoryBytes : Option Int
  allocatedMemoryBytes : Option Int
  reservedMemoryBytes : Option Int
  deviceIndex : Option Int
  computeCapability : Option String
  driverVersion : Option String
  runtimeVersion : Option String
  numaNode : Option Int
  pcieRootId : Option String
  fabricId : Option String

structure RuntimeResult where
  text : String
  inputTokens : Int
  outputTokens : Int
  tokenizationMs : PyFloat
  generationMs : PyFloat
  decodingMs : PyFloat

/-- `ModelDefinition(..)` -/
def ModelFields.construct (m : ModelFields) : Except Raised ModelDefinition :=
  match checked : m.postInit with
  | .error raised => .error raised
  | .ok () => .ok ⟨m, checked⟩

/-- `WorkerState(..)` -/
def WorkerFields.construct (w : WorkerFields) : Except Raised WorkerState :=
  match checked : w.postInit with
  | .error raised => .error raised
  | .ok () => .ok ⟨w, checked⟩

/-- `RequestRecord(..)` -/
def RequestFields.construct (r : RequestFields) : Except Raised RequestRecord :=
  match checked : r.checks with
  | .error raised => .error raised
  | .ok () => .ok ⟨r.stamp, r.checks_stamp.trans checked, r.stamp_contains⟩

theorem ModelDefinition.construct (m : ModelDefinition) : m.toModelFields.construct = .ok m := by
  have checked := m.constructed
  unfold ModelFields.construct
  split
  · rename_i failed
    rw [checked] at failed
    cases failed
  · rfl

theorem WorkerState.construct (w : WorkerState) : w.toWorkerFields.construct = .ok w := by
  have checked := w.constructed
  unfold WorkerFields.construct
  split
  · rename_i failed
    rw [checked] at failed
    cases failed
  · rfl

theorem RequestRecord.construct (r : RequestRecord) : r.toRequestFields.construct = .ok r := by
  have checked := r.constructed
  have same : r.toRequestFields.stamp = r.toRequestFields := if_pos r.stamped
  unfold RequestFields.construct
  split
  · rename_i failed
    rw [checked] at failed
    cases failed
  · obtain ⟨fields, constructed, stamped⟩ := r
    congr

/-! The records whose numbers are finite. -/

def ModelDefinition.Finite (m : ModelDefinition) : Prop :=
  m.loadTimeoutSeconds.isFinite = true ∧ m.idleEvictionSeconds.isFinite = true

def WorkerState.Finite (w : WorkerState) : Prop :=
  w.recentTokensPerSecond.isFinite = true ∧ w.lastHeartbeat.isFinite = true

/-- The deadline may be infinite, too. -/
def RequestRecord.Finite (r : RequestRecord) : Prop :=
  (r.deadline.isFinite = true ∨ r.deadline = .infinite false) ∧ r.temperature.isFinite = true ∧
    r.createdAt.isFinite = true ∧ ∀ at_ ∈ r.transitionTimestamps.values, at_.isFinite = true

def RuntimeResult.Finite (r : RuntimeResult) : Prop :=
  r.tokenizationMs.isFinite = true ∧ r.generationMs.isFinite = true ∧ r.decodingMs.isFinite = true

end Wire

end ServingPlatform
