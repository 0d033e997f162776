import ServingPlatform.Transport.Records

namespace ServingPlatform

namespace Wire

/-- The entries of a dictionary with text keys. -/
abbrev Payload := List (String × PyValue)

/-! What is stored as it is read. Python keeps any value there; what is not of
the type that the field declares is an error here. -/

def asInt : PyValue → Except Raised Int
  | .int n => .ok n
  | value => .error (typeError s!"int field holds a '{value.typeName}'")

def asStr : PyValue → Except Raised String
  | .str s => .ok s
  | value => .error (typeError s!"str field holds a '{value.typeName}'")

def asOptional {α : Type} (read : PyValue → Except Raised α) : PyValue → Except Raised (Option α)
  | .none => .ok none
  | value => (read value).map some

def ofOptional {α : Type} (write : α → PyValue) : Option α → PyValue
  | none => .none
  | some a => write a

/-- `iter(value)` -/
def iter : PyValue → Except Raised (List PyValue)
  | .list items | .tuple items => .ok items
  | .str s => .ok (s.toList.map fun c => .str (String.singleton c))
  | .dict entries => .ok (entries.map fun e => .str e.1)
  | value => .error (typeError s!"'{value.typeName}' object is not iterable")

def asStrings : List PyValue → Except Raised (List String)
  | [] => .ok []
  | item :: rest =>
    match asStr item, asStrings rest with
    | .ok s, .ok rest => .ok (s :: rest)
    | .error raised, _ | _, .error raised => .error raised

/-- `list(value)`, `tuple(value)` and `set(value)`, of texts -/
def strings (value : PyValue) : Except Raised (List String) :=
  match iter value with
  | .error raised => .error raised
  | .ok items => asStrings items

def ofStrings (l : List String) : PyValue := .list (l.map .str)

section Enums

variable {ε : Type} (text : PyText) (name : String) (ofValue : String → Option ε)

/-- `name(value)`, of an enumeration of texts -/
def member (value : PyValue) : Except Raised ε :=
  match value with
  | .str s =>
    match ofValue s with
    | some a => .ok a
    | none => .error (valueError s!"{text.repr value} is not a valid {name}")
  | _ => .error (valueError s!"{text.repr value} is not a valid {name}")

end Enums

def requestState : String → Option RequestState := fun s => (RequestState.ofValue s).toOption

variable (text : PyText)

def modelToDict (m : ModelDefinition) : Payload := [
  ("model_id", .str m.modelId),
  ("revision", .str m.revision),
  ("runtime_type", .str m.runtimeType.value),
  ("estimated_memory_bytes", .int m.estimatedMemoryBytes),
  ("supported_dtypes", ofStrings m.supportedDtypes),
  ("default_dtype", .str m.defaultDtype),
  ("max_context_tokens", .int m.maxContextTokens),
  ("max_batch_tokens", .int m.maxBatchTokens),
  ("supports_streaming", .bool m.supportsStreaming),
  ("supports_cancellation", .bool m.supportsCancellation),
  ("load_timeout_seconds", .float m.loadTimeoutSeconds),
  ("idle_eviction_seconds", .float m.idleEvictionSeconds)]

def modelFromDict (payload : Payload) : Except Raised ModelDefinition := do
  let item := PyValue.getItem payload
  let fields : ModelFields := {
    modelId := (← item "model_id").toStr text
    revision := (← item "revision").toStr text
    runtimeType := ← member text "RuntimeType" RuntimeType.ofValue (← item "runtime_type")
    estimatedMemoryBytes := ← (← item "estimated_memory_bytes").toInt text
    supportedDtypes := ← strings (← item "supported_dtypes")
    defaultDtype := (← item "default_dtype").toStr text
    maxContextTokens := ← (← item "max_context_tokens").toInt text
    maxBatchTokens := ← (← item "max_batch_tokens").toInt text
    supportsStreaming := (← item "supports_streaming").truth
    supportsCancellation := (← item "supports_cancellation").truth
    loadTimeoutSeconds := ← (← item "load_timeout_seconds").toFloat text
    idleEvictionSeconds := ← (← item "idle_eviction_seconds").toFloat text }
  fields.construct

def workerStateToDict (w : WorkerState) : Payload := [
  ("worker_id", .str w.workerId),
  ("device_type", .str w.deviceType.value),
  ("device_name", .str w.deviceName),
  ("total_memory_bytes", ofOptional .int w.totalMemoryBytes),
  ("available_memory_bytes", ofOptional .int w.availableMemoryBytes),
  ("resident_models", ofStrings (w.residentModels.sort (· ≤ ·))),
  ("loading_models", ofStrings (w.loadingModels.sort (· ≤ ·))),
  ("queue_depth", .int w.queueDepth),
  ("active_batch_count", .int w.activeBatchCount),
  ("max_concurrency", .int w.maxConcurrency),
  ("recent_tokens_per_second", .float w.recentTokensPerSecond),
  ("health_status", .str w.healthStatus.value),
  ("draining", .bool w.draining),
  ("last_heartbeat", .float w.lastHeartbeat),
  ("allocated_memory_bytes", ofOptional .int w.allocatedMemoryBytes),
  ("reserved_memory_bytes", ofOptional .int w.reservedMemoryBytes),
  ("gpu_index", ofOptional .int w.gpuIndex),
  ("compute_capability", ofOptional .str w.computeCapability),
  ("driver_version", ofOptional .str w.driverVersion),
  ("runtime_version", ofOptional .str w.runtimeVersion),
  ("heartbeat_sequence", .int w.heartbeatSequence),
  ("consecutive_failures", .int w.consecutiveFailures),
  ("last_error_code", ofOptional .str w.lastErrorCode),
  ("node_id", ofOptional .str w.nodeId),
  ("numa_node", ofOptional .int w.numaNode),
  ("pcie_root_id", ofOptional .str w.pcieRootId),
  ("fabric_id", ofOptional .str w.fabricId)]

/-- `payload.get(key, 0)` -/
def getOrZero (payload : Payload) (key : String) : PyValue := (Dict.lookupEntry key payload).getD (.int 0)

def workerStateFromDict (payload : Payload) : Except Raised WorkerState := do
  let item := PyValue.getItem payload
  let get := PyValue.get payload
  let fields : WorkerFields := {
    workerId := (← item "worker_id").toStr text
    deviceType := ← member text "DeviceType" DeviceType.ofValue (← item "device_type")
    deviceName := (← item "device_name").toStr text
    totalMemoryBytes := ← asOptional asInt (← item "total_memory_bytes")
    availableMemoryBytes := ← asOptional asInt (← item "available_memory_bytes")
    residentModels := (← strings (← item "resident_models")).toFinset
    loadingModels := (← strings (← item "loading_models")).toFinset
    queueDepth := ← (← item "queue_depth").toInt text
    activeBatchCount := ← (← item "active_batch_count").toInt text
    maxConcurrency := ← (← item "max_concurrency").toInt text
    recentTokensPerSecond := ← (← item "recent_tokens_per_second").toFloat text
    healthStatus := ← member text "HealthStatus" HealthStatus.ofValue (← item "health_status")
    draining := (← item "draining").truth
    lastHeartbeat := ← (← item "last_heartbeat").toFloat text
    allocatedMemoryBytes := ← asOptional asInt (← item "allocated_memory_bytes")
    reservedMemoryBytes := ← asOptional asInt (← item "reserved_memory_bytes")
    gpuIndex := ← asOptional asInt (get "gpu_index")
    computeCapability := ← asOptional asStr (get "compute_capability")
    driverVersion := ← asOptional asStr (get "driver_version")
    runtimeVersion := ← asOptional asStr (get "runtime_version")
    heartbeatSequence := ← (getOrZero payload "heartbeat_sequence").toInt text
    consecutiveFailures := ← (getOrZero payload "consecutive_failures").toInt text
    lastErrorCode := ← asOptional asStr (get "last_error_code")
    nodeId := ← asOptional asStr (get "node_id")
    numaNode := ← asOptional asInt (get "numa_node")
    pcieRootId := ← asOptional asStr (get "pcie_root_id")
    fabricId := ← asOptional asStr (get "fabric_id") }
  fields.construct

/-- The timestamps by the names of their states. -/
def ofTimestamps (timestamps : Dict RequestState PyFloat) : Payload :=
  timestamps.entries.map fun e => (e.1.value, .float e.2)

/-- `{RequestState(state): float(timestamp) for state, timestamp in entries}` -/
def timestamps (read : Dict RequestState PyFloat) : Payload → Except Raised (Dict RequestState PyFloat)
  | [] => .ok read
  | (name, value) :: rest =>
    match member text "RequestState" requestState (.str name) with
    | .error raised => .error raised
    | .ok state =>
      match value.toFloat text with
      | .error raised => .error raised
      | .ok at_ => timestamps (read.insert state at_) rest

/-- `value.items()` -/
def entries : PyValue → Except Raised Payload
  | .dict entries => .ok entries
  | value => .error ⟨.other "AttributeError" false, s!"'{value.typeName}' object has no attribute 'items'"⟩

def requestToDict (r : RequestRecord) : Payload := [
  ("request_id", .str r.requestId),
  ("tenant_id", .str r.tenantId),
  ("model_id", .str r.modelId),
  ("prompt", .str r.prompt),
  ("prompt_tokens", .int r.promptTokens),
  ("max_new_tokens", .int r.maxNewTokens),
  ("priority", .int r.priority),
  ("deadline", if r.deadline.isFinite then .float r.deadline else .none),
  ("stream", .bool r.stream),
  ("temperature", .float r.temperature),
  ("created_at", .float r.createdAt),
  ("status", .str r.status.value),
  ("assigned_worker_id", ofOptional .str r.assignedWorkerId),
  ("attempt_count", .int r.attemptCount),
  ("retry_reasons", ofStrings r.retryReasons),
  ("payload_available", .bool r.payloadAvailable),
  ("transition_timestamps", .dict (ofTimestamps r.transitionTimestamps))]

/-- `float(value) if value is not None else float("inf")` -/
def deadline : PyValue → Except Raised PyFloat
  | .none => .ok (.infinite false)
  | value => value.toFloat text

def requestFromDict (payload : Payload) : Except Raised RequestRecord := do
  let item := PyValue.getItem payload
  let fields : RequestFields := {
    requestId := (← item "request_id").toStr text
    tenantId := (← item "tenant_id").toStr text
    modelId := (← item "model_id").toStr text
    prompt := (← item "prompt").toStr text
    promptTokens := ← (← item "prompt_tokens").toInt text
    maxNewTokens := ← (← item "max_new_tokens").toInt text
    priority := ← (← item "priority").toInt text
    deadline := ← deadline text (← item "deadline")
    stream := (← item "stream").truth
    temperature := ← (← item "temperature").toFloat text
    createdAt := ← (← item "created_at").toFloat text
    status := ← member text "RequestState" requestState (← item "status")
    assignedWorkerId := ← asOptional asStr (← item "assigned_worker_id")
    attemptCount := ← (← item "attempt_count").toInt text
    retryReasons := ← strings (← item "retry_reasons")
    payloadAvailable := (← item "payload_available").truth
    transitionTimestamps := ← timestamps text .empty (← entries (← item "transition_timestamps")) }
  fields.construct

def capacityToDict (c : RuntimeCapacity) : Payload := [
  ("device_type", .str c.deviceType.value),
  ("device_name", .str c.deviceName),
  ("total_memory_bytes", ofOptional .int c.totalMemoryBytes),
  ("available_memory_bytes", ofOptional .int c.availableMemoryBytes),
  ("allocated_memory_bytes", ofOptional .int c.allocatedMemoryBytes),
  ("reserved_memory_bytes", ofOptional .int c.reservedMemoryBytes),
  ("device_index", ofOptional .int c.deviceIndex),
  ("compute_capability", ofOptional .str c.computeCapability),
  ("driver_version", ofOptional .str c.driverVersion),
  ("runtime_version", ofOptional .str c.runtimeVersion),
  ("numa_node", ofOptional .int c.numaNode),
  ("pcie_root_id", ofOptional .str c.pcieRootId),
  ("fabric_id", ofOptional .str c.fabricId)]

def capacityFromDict (payload : Payload) : Except Raised RuntimeCapacity := do
  let item := PyValue.getItem payload
  let get := PyValue.get payload
  return {
    deviceType := ← member text "DeviceType" DeviceType.ofValue (← item "device_type")
    deviceName := (← item "device_name").toStr text
    totalMemoryBytes := ← asOptional asInt (← item "total_memory_bytes")
    availableMemoryBytes := ← asOptional asInt (← item "available_memory_bytes")
    allocatedMemoryBytes := ← asOptional asInt (← item "allocated_memory_bytes")
    reservedMemoryBytes := ← asOptional asInt (← item "reserved_memory_bytes")
    deviceIndex := ← asOptional asInt (get "device_index")
    computeCapability := ← asOptional asStr (get "compute_capability")
    driverVersion := ← asOptional asStr (get "driver_version")
    runtimeVersion := ← asOptional asStr (get "runtime_version")
    numaNode := ← asOptional asInt (get "numa_node")
    pcieRootId := ← asOptional asStr (get "pcie_root_id")
    fabricId := ← asOptional asStr (get "fabric_id") }

def resultToDict (r : RuntimeResult) : Payload := [
  ("text", .str r.text),
  ("input_tokens", .int r.inputTokens),
  ("output_tokens", .int r.outputTokens),
  ("tokenization_ms", .float r.tokenizationMs),
  ("generation_ms", .float r.generationMs),
  ("decoding_ms", .float r.decodingMs)]

def resultFromDict (payload : Payload) : Except Raised RuntimeResult := do
  let item := PyValue.getItem payload
  return {
    text := (← item "text").toStr text
    inputTokens := ← (← item "input_tokens").toInt text
    outputTokens := ← (← item "output_tokens").toInt text
    tokenizationMs := ← (← item "tokenization_ms").toFloat text
    generationMs := ← (← item "generation_ms").toFloat text
    decodingMs := ← (← item "decoding_ms").toFloat text }

section RoundTrips

variable {text}

/-! One rule for each part of a decoder; the names are compared by `String.reduceEq`. -/

@[simp] theorem asOptional_int (n : Option Int) : asOptional asInt (ofOptional .int n) = .ok n := by
  cases n <;> rfl

@[simp] theorem asOptional_str (s : Option String) : asOptional asStr (ofOptional .str s) = .ok s := by
  cases s <;> rfl

@[simp] theorem strings_ofStrings (l : List String) : strings (ofStrings l) = .ok l := by
  have read : asStrings (l.map .str) = .ok l := by
    induction l with
    | nil => rfl
    | cons s rest ih =>
      rw [List.map_cons, asStrings, ih]
      rfl
  exact read

theorem member_of_value {ε : Type} {name : String} {ofValue : String → Option ε} {value : ε → String}
    (inverse : ∀ a, ofValue (value a) = some a) (a : ε) : member text name ofValue (.str (value a)) = .ok a := by
  unfold member
  dsimp only
  rw [inverse]

@[simp] theorem member_deviceType (d : DeviceType) : member text "DeviceType" DeviceType.ofValue (.str d.value) = .ok d :=
  member_of_value (fun a => by cases a <;> rfl) d

@[simp] theorem member_runtimeType (r : RuntimeType) :
    member text "RuntimeType" RuntimeType.ofValue (.str r.value) = .ok r :=
  member_of_value (fun a => by cases a <;> rfl) r

@[simp] theorem member_healthStatus (h : HealthStatus) :
    member text "HealthStatus" HealthStatus.ofValue (.str h.value) = .ok h :=
  member_of_value (fun a => by cases a <;> rfl) h

@[simp] theorem member_requestState (s : RequestState) :
    member text "RequestState" requestState (.str s.value) = .ok s := by
  refine member_of_value (fun a => ?_) s
  unfold requestState
  rw [RequestState.ofValue_value]
  rfl

/-- The timestamps come back in their order. -/
theorem timestamps_map (read : Dict RequestState PyFloat) (l : List (RequestState × PyFloat))
    (distinct : ((read.entries ++ l).map Prod.fst).Nodup) :
    timestamps text read (l.map fun e => (e.1.value, .float e.2)) = .ok ⟨read.entries ++ l, distinct⟩ := by
  induction l generalizing read with
  | nil =>
    have same : (⟨read.entries ++ [], distinct⟩ : Dict RequestState PyFloat) = read := by
      obtain ⟨entries, nodup⟩ := read
      simp
    rw [same]
    rfl
  | cons e rest ih =>
    obtain ⟨state, at_⟩ := e
    have fresh : state ∉ read.keys := by
      intro member
      rw [List.map_append, List.nodup_append] at distinct
      exact distinct.2.2 state member state List.mem_cons_self rfl
    have appended := Dict.entries_insert_of_fresh (v := at_) fresh
    rw [List.map_cons, timestamps, member_requestState]
    dsimp only [PyValue.toFloat]
    rw [ih]
    · congr 1
      simp only [appended, List.append_assoc, List.singleton_append]
    · rw [appended, List.append_assoc, List.singleton_append]
      exact distinct

@[simp] theorem timestamps_ofTimestamps (t : Dict RequestState PyFloat) :
    timestamps text .empty (ofTimestamps t) = .ok t := timestamps_map .empty t.entries t.nodup

@[simp] theorem entries_dict (payload : Payload) : entries (.dict payload) = .ok payload := rfl

/-- An infinite deadline is `None` on the way. -/
theorem deadline_sent {d : PyFloat} (reads : d.isFinite = true ∨ d = .infinite false) :
    deadline text (if d.isFinite then .float d else .none) = .ok d := by
  rcases reads with finite | rfl
  · rw [if_pos finite]
    rfl
  · rfl

@[simp] theorem ok_bind {α β : Type} (a : α) (next : α → Except Raised β) : (Except.ok a >>= next) = next a := rfl

theorem lookup_self (key : String) (value : PyValue) (rest : Payload) :
    Dict.lookupEntry key ((key, value) :: rest) = some value := if_pos rfl

theorem lookup_next {key name : String} {value : PyValue} {rest : Payload} (differ : (name = key) = False) :
    Dict.lookupEntry key ((name, value) :: rest) = Dict.lookupEntry key rest := if_neg (of_eq_false differ)

theorem resultFromDict_resultToDict (r : RuntimeResult) : resultFromDict text (resultToDict r) = .ok r := rfl

theorem capacityFromDict_capacityToDict (c : RuntimeCapacity) : capacityFromDict text (capacityToDict c) = .ok c := by
  simp only [capacityFromDict, capacityToDict, PyValue.getItem, PyValue.get, lookup_self, lookup_next, String.reduceEq,
    asOptional_int, asOptional_str, member_deviceType, ok_bind, Option.getD_some, PyValue.toStr]
  rfl

theorem modelFromDict_modelToDict (m : ModelDefinition) : modelFromDict text (modelToDict m) = .ok m := by
  simp only [modelFromDict, modelToDict, PyValue.getItem, lookup_self, lookup_next, String.reduceEq, member_runtimeType,
    strings_ofStrings, ok_bind, PyValue.toStr, PyValue.toInt, PyValue.toFloat, PyValue.truth]
  exact m.construct

theorem workerStateFromDict_workerStateToDict (w : WorkerState) :
    workerStateFromDict text (workerStateToDict w) = .ok w := by
  simp only [workerStateFromDict, workerStateToDict, PyValue.getItem, PyValue.get, getOrZero, lookup_self, lookup_next,
    String.reduceEq, member_deviceType, member_healthStatus, strings_ofStrings, asOptional_int, asOptional_str, ok_bind,
    Option.getD_some, PyValue.toStr, PyValue.toInt, PyValue.toFloat, PyValue.truth, Finset.sort_toFinset]
  exact w.construct

theorem requestFromDict_requestToDict (r : RequestRecord) (finite : r.Finite) :
    requestFromDict text (requestToDict r) = .ok r := by
  simp only [requestFromDict, requestToDict, PyValue.getItem, lookup_self, lookup_next, String.reduceEq,
    member_requestState, strings_ofStrings, asOptional_str, entries_dict, timestamps_ofTimestamps, deadline_sent finite.1,
    ok_bind, PyValue.toStr, PyValue.toInt, PyValue.toFloat, PyValue.truth]
  exact r.construct

/-- `json.dumps(payload, allow_nan=False)` -/
def wireJson : JsonOptions := ⟨false, false⟩

theorem plain_ofStrings {o : JsonOptions} (l : List String) : (ofStrings l).Plain o := by
  have items : PyValue.PlainItems o (l.map .str) := by
    induction l with
    | nil => trivial
    | cons s rest ih => exact ⟨trivial, ih⟩
  exact items

theorem plain_ofOptional {o : JsonOptions} {α : Type} {write : α → PyValue} (plain : ∀ a, (write a).Plain o)
    (a : Option α) : (ofOptional write a).Plain o := by
  cases a with
  | none => trivial
  | some a => exact plain a

theorem plain_ofTimestamps {o : JsonOptions} (t : Dict RequestState PyFloat)
    (written : ∀ at_ ∈ t.values, (at_.isFinite || o.allowNan) = true) : PyValue.Plain o (.dict (ofTimestamps t)) := by
  have values : ∀ l : List (RequestState × PyFloat), (∀ at_ ∈ l.map Prod.snd, (at_.isFinite || o.allowNan) = true) →
      PyValue.PlainEntries o (l.map fun e => (e.1.value, .float e.2)) := by
    intro l written
    induction l with
    | nil => trivial
    | cons e rest ih =>
      exact ⟨written e.2 List.mem_cons_self, ih fun at_ member => written at_ (List.mem_cons_of_mem _ member)⟩
  refine ⟨?_, values t.entries written⟩
  have names : (ofTimestamps t).map Prod.fst = t.keys.map RequestState.value := by
    unfold ofTimestamps Dict.keys
    rw [List.map_map, List.map_map]
    rfl
  rw [names]
  exact t.nodup.map RequestState.value_injective

/-- A record comes back from its dictionary, also when that went through JSON,
and what comes back has the same dictionary. -/
structure RoundTrips {α : Type} (toDict : α → Payload) (fromDict : Payload → Except Raised α) (a : α) : Prop where
  direct : fromDict (toDict a) = .ok a
  json : ∃ document, Json.dumps wireJson (.dict (toDict a)) = .ok document ∧
    ∃ payload, Json.loads document = .dict payload ∧ fromDict payload = .ok a
  image : ∀ document payload b, Json.dumps wireJson (.dict (toDict a)) = .ok document →
    payload = toDict a ∨ Json.loads document = .dict payload → fromDict payload = .ok b → toDict b = payload

theorem RoundTrips.of_plain {α : Type} {toDict : α → Payload} {fromDict : Payload → Except Raised α} {a : α}
    (direct : fromDict (toDict a) = .ok a) (plain : PyValue.Plain wireJson (.dict (toDict a))) :
    RoundTrips toDict fromDict a := by
  obtain ⟨document, written, read⟩ := Json.loads_dumps (.dict (toDict a)) plain
  rw [Json.arranged_unsorted rfl] at read
  refine ⟨direct, ⟨document, written, _, read, direct⟩, fun document' payload b written' sent decoded => ?_⟩
  have same : payload = toDict a := by
    rcases sent with same | read'
    · exact same
    · rw [written] at written'
      rw [← Except.ok.inj written', read] at read'
      exact (PyValue.dict.inj read').symm
  rw [same, direct] at decoded
  rw [same, ← Except.ok.inj decoded]

/-- Every record with finite numbers, and every request whose deadline may be
infinite, comes back from its encoding. -/
theorem encodings_round_trip (text : PyText) :
    (∀ m : ModelDefinition, m.Finite → RoundTrips modelToDict (modelFromDict text) m) ∧
      (∀ w : WorkerState, w.Finite → RoundTrips workerStateToDict (workerStateFromDict text) w) ∧
      (∀ r : RequestRecord, r.Finite → RoundTrips requestToDict (requestFromDict text) r) ∧
      (∀ c : RuntimeCapacity, RoundTrips capacityToDict (capacityFromDict text) c) ∧
      ∀ r : RuntimeResult, r.Finite → RoundTrips resultToDict (resultFromDict text) r := by
  have float : ∀ {x : PyFloat}, x.isFinite = true → (x.isFinite || wireJson.allowNan) = true := fun finite => by
    rw [finite, Bool.true_or]
  have int : ∀ n, PyValue.Plain wireJson (ofOptional .int n) := plain_ofOptional fun _ => trivial
  have str : ∀ s, PyValue.Plain wireJson (ofOptional .str s) := plain_ofOptional fun _ => trivial
  refine ⟨fun m finite => ?_, fun w finite => ?_, fun r finite => ?_, fun c => ?_, fun r finite => ?_⟩
  · refine .of_plain (modelFromDict_modelToDict m) ⟨by simp only [modelToDict, List.map_cons, List.map_nil]; decide, ?_⟩
    simp only [modelToDict, PyValue.PlainEntries, PyValue.Plain, plain_ofStrings, float finite.1, float finite.2, and_true]
  · refine .of_plain (workerStateFromDict_workerStateToDict w)
      ⟨by simp only [workerStateToDict, List.map_cons, List.map_nil]; decide, ?_⟩
    simp only [workerStateToDict, PyValue.PlainEntries, PyValue.Plain, plain_ofStrings, int, str, float finite.1,
      float finite.2, and_true]
  · obtain ⟨deadline, temperature, createdAt, stamps⟩ := finite
    have sent : PyValue.Plain wireJson (if r.deadline.isFinite then .float r.deadline else .none) := by
      split
      · rename_i finite
        exact float finite
      · trivial
    refine .of_plain (requestFromDict_requestToDict r ⟨deadline, temperature, createdAt, stamps⟩)
      ⟨by simp only [requestToDict, List.map_cons, List.map_nil]; decide, ?_⟩
    have timestamps : PyValue.Plain wireJson (.dict (ofTimestamps r.transitionTimestamps)) :=
      plain_ofTimestamps r.transitionTimestamps fun at_ member => float (stamps at_ member)
    simp only [requestToDict, PyValue.PlainEntries, PyValue.Plain, plain_ofStrings, str, sent, float temperature,
      float createdAt, and_true, true_and]
    exact timestamps
  · refine .of_plain (capacityFromDict_capacityToDict c)
      ⟨by simp only [capacityToDict, List.map_cons, List.map_nil]; decide, ?_⟩
    simp only [capacityToDict, PyValue.PlainEntries, PyValue.Plain, int, str, and_true]
  · refine .of_plain (resultFromDict_resultToDict r) ⟨by simp only [resultToDict, List.map_cons, List.map_nil]; decide, ?_⟩
    simp only [resultToDict, PyValue.PlainEntries, PyValue.Plain, float finite.1, float finite.2.1, float finite.2.2, and_true]

end RoundTrips

namespace Sample

def pyText : PyText := ⟨fun _ => "", fun _ => none, fun _ => none⟩

def model : ModelDefinition where
  modelId := "model"
  revision := "1"
  runtimeType := .simulated
  estimatedMemoryBytes := 100
  supportedDtypes := ["float16", "float32"]
  defaultDtype := "float16"
  maxContextTokens := 64
  maxBatchTokens := 128
  supportsStreaming := true
  supportsCancellation := true
  loadTimeoutSeconds := .finite 30
  idleEvictionSeconds := .finite 600
  constructed := by decide

def worker : WorkerState where
  workerId := "gpu-0"
  deviceType := .cuda
  deviceName := "Example GPU"
  totalMemoryBytes := some 1000
  availableMemoryBytes := some 750
  residentModels := {"b", "a"}
  loadingModels := ∅
  queueDepth := 0
  activeBatchCount := 0
  maxConcurrency := 1
  recentTokensPerSecond := .finite 0
  healthStatus := .suspect
  draining := false
  lastHeartbeat := .finite 7
  allocatedMemoryBytes := some 100
  reservedMemoryBytes := some 200
  gpuIndex := some 0
  computeCapability := some "9.0"
  driverVersion := some "example-driver"
  runtimeVersion := some "12.8"
  heartbeatSequence := 7
  consecutiveFailures := 2
  lastErrorCode := some "heartbeat_delayed"
  nodeId := some "node-a"
  numaNode := some 1
  pcieRootId := some "0000:40"
  fabricId := none
  constructed := by decide

def request : RequestRecord where
  requestId := "request"
  tenantId := "tenant"
  modelId := "model"
  prompt := "prompt"
  promptTokens := 3
  maxNewTokens := 2
  priority := 5
  deadline := .infinite false
  stream := false
  temperature := .finite 0
  createdAt := .finite 1
  status := .validated
  assignedWorkerId := none
  attemptCount := 1
  retryReasons := ["test_retry"]
  payloadAvailable := true
  transitionTimestamps := (Dict.empty.insert .received (.finite 1)).insert .validated (.finite 2)
  constructed := by decide
  stamped := by decide

def capacity : RuntimeCapacity :=
  ⟨.cuda, "Example GPU", some 1000, some 750, some 100, some 200, some 0, some "9.0", none, none, some 1, none, none⟩

def result : RuntimeResult := ⟨"text", 3, 2, .finite 1, .finite 2, .finite 3⟩

end Sample

theorem encodings_round_trip_sample :
    RoundTrips modelToDict (modelFromDict Sample.pyText) Sample.model ∧
      RoundTrips workerStateToDict (workerStateFromDict Sample.pyText) Sample.worker ∧
      RoundTrips requestToDict (requestFromDict Sample.pyText) Sample.request ∧
      RoundTrips capacityToDict (capacityFromDict Sample.pyText) Sample.capacity ∧
      RoundTrips resultToDict (resultFromDict Sample.pyText) Sample.result := by
  obtain ⟨model, worker, request, capacity, result⟩ := encodings_round_trip Sample.pyText
  exact ⟨model _ ⟨rfl, rfl⟩, worker _ ⟨rfl, rfl⟩, request _ ⟨Or.inr rfl, rfl, rfl, by decide⟩, capacity _,
    result _ ⟨rfl, rfl, rfl⟩⟩

end Wire

/-- The dictionary of a request's payload. -/
def RequestPayload.entries (p : RequestPayload) : Wire.Payload := [
  ("request_id", .str p.requestId),
  ("tenant_id", .str p.tenantId),
  ("model_id", .str p.modelId),
  ("prompt", .str p.prompt),
  ("prompt_tokens", .int p.promptTokens),
  ("max_new_tokens", .int p.maxNewTokens),
  ("priority", .int p.priority),
  ("deadline", Wire.ofOptional (fun at_ : Seconds => .float (.finite at_)) p.deadline),
  ("stream", .bool p.stream),
  ("temperature", .float (.finite p.temperature)),
  ("created_at", .float (.finite p.createdAt)),
  ("status", .str p.status),
  ("assigned_worker_id", Wire.ofOptional .str p.assignedWorkerId),
  ("attempt_count", .int p.attemptCount),
  ("retry_reasons", Wire.ofStrings p.retryReasons),
  ("payload_available", .bool p.payloadAvailable),
  ("transition_timestamps", .dict (p.transitionTimestamps.entries.map fun e => (e.1, .float (.finite e.2))))]

/-- The fields of a request as Python has them; a time is a float. -/
def RequestRecord.wire (r : RequestRecord) : Wire.RequestFields where
  requestId := r.requestId
  tenantId := r.tenantId
  modelId := r.modelId
  prompt := r.prompt
  promptTokens := r.promptTokens
  maxNewTokens := r.maxNewTokens
  priority := r.priority
  deadline :=
    match r.deadline with
    | .finite at_ => .finite at_
    | .infinite => .infinite false
  stream := r.stream
  temperature := .finite r.temperature
  createdAt := .finite r.createdAt
  status := r.status
  assignedWorkerId := r.assignedWorkerId
  attemptCount := r.attemptCount
  retryReasons := r.retryReasons
  payloadAvailable := r.payloadAvailable
  transitionTimestamps := r.transitionTimestamps.map fun at_ : Seconds => .finite at_

/-- The request of the control plane is one that Python can construct, and its
payload is the dictionary that is sent for it. -/
theorem RequestRecord.payload_wire (r : RequestRecord) :
    ∃ sent : Wire.RequestRecord, sent.toRequestFields = r.wire ∧ sent.Finite ∧
      Wire.requestToDict sent = (requestToDict r).entries := by
  have constructed : r.wire.checks = .ok () := by
    have identified : ¬(r.wire.requestId = "" ∨ r.wire.tenantId = "" ∨ r.wire.modelId = "") := by
      have some_ := r.identified
      unfold RequestRecord.wire
      tauto
    have sound : ¬(isBlank r.wire.prompt = true ∨ r.wire.promptTokens < 0 ∨ r.wire.maxNewTokens ≤ 0 ∨
        r.wire.temperature.isNegative = true) := by
      have positive := r.positive
      have temperate := r.temperate
      simp only [RequestRecord.wire, PyFloat.isNegative, r.prompted, decide_eq_true_eq]
      refine not_or.mpr ⟨by simp, not_or.mpr ⟨by omega, not_or.mpr ⟨by omega, not_lt.mpr temperate⟩⟩⟩
    unfold Wire.RequestFields.checks
    rw [if_neg identified, if_neg sound]
  have stamped : r.wire.transitionTimestamps.contains r.wire.status = true := by
    have before := r.stamped
    unfold Dict.contains at before ⊢
    unfold RequestRecord.wire
    dsimp only
    rw [Dict.get?_map, Option.isSome_map]
    exact before
  refine ⟨⟨r.wire, constructed, stamped⟩, rfl, ⟨?_, rfl, rfl, fun at_ member => ?_⟩, ?_⟩
  · unfold RequestRecord.wire
    cases r.deadline
    · exact Or.inl rfl
    · exact Or.inr rfl
  · obtain ⟨key, found⟩ := Dict.mem_values_iff.mp member
    unfold RequestRecord.wire at found
    dsimp only at found
    rw [Dict.get?_map] at found
    obtain ⟨at_, -, rfl⟩ := Option.map_eq_some_iff.mp found
    rfl
  · unfold Wire.requestToDict requestToDict RequestPayload.entries RequestRecord.wire Wire.ofTimestamps timestampsToDict
    dsimp only [Dict.map]
    cases r.deadline <;>
      simp only [PyFloat.isFinite, Wire.ofOptional, List.map_map, if_true, Bool.false_eq_true, if_false] <;> rfl

end ServingPlatform
