import ServingPlatform.ControlPlane.Requests

namespace ServingPlatform

/-- `RequestState(value)`. -/
def RequestState.ofValue : String → Except Raised RequestState
  | "received" => .ok .received
  | "validated" => .ok .validated
  | "admitted" => .ok .admitted
  | "queued" => .ok .queued
  | "assigned" => .ok .assigned
  | "prefill" => .ok .prefill
  | "decode" => .ok .decode
  | "running" => .ok .running
  | "streaming" => .ok .streaming
  | "completed" => .ok .completed
  | "rejected" => .ok .rejected
  | "timed_out" => .ok .timedOut
  | "cancelled" => .ok .cancelled
  | "failed" => .ok .failed
  | other => .error (valueError s!"'{other}' is not a valid RequestState")

theorem RequestState.ofValue_value (state : RequestState) : ofValue state.value = .ok state := by
  cases state <;> rfl

theorem RequestState.value_injective : Function.Injective RequestState.value := by
  intro state other same
  have read := congrArg ofValue same
  rw [ofValue_value, ofValue_value] at read
  exact Except.ok.inj read

/-- A request as JSON between control plane and worker. An infinite deadline is `null`. -/
structure RequestPayload where
  requestId : String
  tenantId : String
  modelId : String
  prompt : String
  promptTokens : Int
  maxNewTokens : Int
  priority : Int
  deadline : Option Seconds
  stream : Bool
  temperature : Rat
  createdAt : Seconds
  status : String
  assignedWorkerId : Option String
  attemptCount : Nat
  retryReasons : List String
  payloadAvailable : Bool
  transitionTimestamps : Dict String Seconds

/-- The timestamps by the names of their states. -/
def timestampsToDict (timestamps : Dict RequestState Seconds) : Dict String Seconds where
  entries := timestamps.entries.map fun (state, at_) => (state.value, at_)
  nodup := by
    rw [List.map_map, show Prod.fst ∘ (fun e : RequestState × Seconds => (e.1.value, e.2)) =
      RequestState.value ∘ Prod.fst from rfl, ← List.map_map]
    exact timestamps.nodup.map RequestState.value_injective

def timestampsFromDict (timestamps : Dict RequestState Seconds) :
    List (String × Seconds) → Except Raised (Dict RequestState Seconds)
  | [] => .ok timestamps
  | (name, at_) :: rest =>
    match RequestState.ofValue name with
    | .error raised => .error raised
    | .ok state => timestampsFromDict (timestamps.insert state at_) rest

def requestToDict (r : RequestRecord) : RequestPayload where
  requestId := r.requestId
  tenantId := r.tenantId
  modelId := r.modelId
  prompt := r.prompt
  promptTokens := r.promptTokens
  maxNewTokens := r.maxNewTokens
  priority := r.priority
  deadline :=
    match r.deadline with
    | .finite at_ => some at_
    | .infinite => none
  stream := r.stream
  temperature := r.temperature
  createdAt := r.createdAt
  status := r.status.value
  assignedWorkerId := r.assignedWorkerId
  attemptCount := r.attemptCount
  retryReasons := r.retryReasons
  payloadAvailable := r.payloadAvailable
  transitionTimestamps := timestampsToDict r.transitionTimestamps

/-- The timestamps once the status has one (`setdefault`). -/
def stampedWith (timestamps : Dict RequestState Seconds) (status : RequestState) (createdAt : Seconds) :
    Dict RequestState Seconds :=
  if timestamps.contains status then timestamps else timestamps.insert status createdAt

theorem stampedWith_contains (timestamps : Dict RequestState Seconds) (status : RequestState) (createdAt : Seconds) :
    (stampedWith timestamps status createdAt).contains status = true := by
  unfold stampedWith
  split
  · assumption
  · rw [Dict.contains, Dict.get?_insert_self]
    rfl

def requestFromDict (payload : RequestPayload) : Except Raised RequestRecord :=
  match RequestState.ofValue payload.status, timestampsFromDict .empty payload.transitionTimestamps.entries with
  | .error raised, _ => .error raised
  | .ok _, .error raised => .error raised
  | .ok status, .ok timestamps =>
    if identified : payload.requestId ≠ "" ∧ payload.tenantId ≠ "" ∧ payload.modelId ≠ "" then
      if sound : isBlank payload.prompt = false ∧ 0 ≤ payload.promptTokens ∧ 0 < payload.maxNewTokens ∧
          0 ≤ payload.temperature then .ok {
        requestId := payload.requestId
        tenantId := payload.tenantId
        modelId := payload.modelId
        prompt := payload.prompt
        promptTokens := payload.promptTokens.toNat
        maxNewTokens := payload.maxNewTokens.toNat
        priority := payload.priority
        deadline := payload.deadline.elim .infinite .finite
        stream := payload.stream
        temperature := payload.temperature
        createdAt := payload.createdAt
        status := status
        assignedWorkerId := payload.assignedWorkerId
        attemptCount := payload.attemptCount
        retryReasons := payload.retryReasons
        payloadAvailable := payload.payloadAvailable
        transitionTimestamps := stampedWith timestamps status payload.createdAt
        identified := identified
        prompted := sound.1
        positive := by omega
        temperate := sound.2.2.2
        stamped := stampedWith_contains _ _ _ }
      else .error (valueError "request token and prompt values are invalid")
    else .error (valueError "request, tenant, and model identifiers are required")

/-- What a payload changes of the request that it is merged into. -/
def RequestRecord.merge (r restored : RequestRecord) : RequestRecord :=
  { r with
    status := restored.status
    assignedWorkerId := restored.assignedWorkerId
    attemptCount := restored.attemptCount
    retryReasons := restored.retryReasons
    payloadAvailable := restored.payloadAvailable
    transitionTimestamps := restored.transitionTimestamps
    stamped := restored.stamped }

def applyRequestDict (r : RequestRecord) (payload : RequestPayload) : Except Raised RequestRecord :=
  (requestFromDict payload).map r.merge

theorem timestampsFromDict_map (timestamps : Dict RequestState Seconds) (entries : List (RequestState × Seconds))
    (distinct : (timestamps.entries ++ entries).map Prod.fst |>.Nodup) :
    timestampsFromDict timestamps (entries.map fun (state, at_) => (state.value, at_)) =
      .ok ⟨timestamps.entries ++ entries, distinct⟩ := by
  induction entries generalizing timestamps with
  | nil =>
    have same : (⟨timestamps.entries ++ [], distinct⟩ : Dict RequestState Seconds) = timestamps := by
      obtain ⟨entries, nodup⟩ := timestamps
      simp
    rw [same]
    rfl
  | cons entry rest induct =>
    obtain ⟨state, at_⟩ := entry
    have fresh : state ∉ timestamps.keys := by
      intro member
      rw [List.map_append, List.nodup_append] at distinct
      exact distinct.2.2 state member state List.mem_cons_self rfl
    have appended := Dict.entries_insert_of_fresh (v := at_) fresh
    rw [List.map_cons]
    unfold timestampsFromDict
    rw [RequestState.ofValue_value]
    dsimp only
    rw [induct]
    · congr 1
      simp only [appended, List.append_assoc, List.singleton_append]
    · rw [appended, List.append_assoc, List.singleton_append]
      exact distinct

/-- What is sent arrives. -/
theorem requestFromDict_requestToDict (r : RequestRecord) : requestFromDict (requestToDict r) = .ok r := by
  have timestamps : timestampsFromDict .empty (requestToDict r).transitionTimestamps.entries =
      .ok r.transitionTimestamps :=
    timestampsFromDict_map .empty r.transitionTimestamps.entries r.transitionTimestamps.nodup
  have status : RequestState.ofValue (requestToDict r).status = .ok r.status := RequestState.ofValue_value r.status
  have sound : isBlank (requestToDict r).prompt = false ∧ 0 ≤ (requestToDict r).promptTokens ∧
      0 < (requestToDict r).maxNewTokens ∧ 0 ≤ (requestToDict r).temperature := by
    refine ⟨r.prompted, Int.natCast_nonneg _, ?_, r.temperate⟩
    have positive := r.positive
    change (0 : Int) < (r.maxNewTokens : Int)
    omega
  have identified : (requestToDict r).requestId ≠ "" ∧ (requestToDict r).tenantId ≠ "" ∧ (requestToDict r).modelId ≠ "" :=
    r.identified
  have deadline : (requestToDict r).deadline.elim .infinite .finite = r.deadline := by
    unfold requestToDict
    cases r.deadline <;> rfl
  have stamped : stampedWith r.transitionTimestamps r.status (requestToDict r).createdAt = r.transitionTimestamps :=
    if_pos r.stamped
  unfold requestFromDict
  rw [timestamps, status]
  dsimp only
  rw [dif_pos identified, dif_pos sound]
  simp only [deadline, stamped]
  rfl

/-- A merge of what was sent. -/
theorem applyRequestDict_requestToDict (r sent : RequestRecord) :
    applyRequestDict r (requestToDict sent) = .ok (r.merge sent) := by
  unfold applyRequestDict
  rw [requestFromDict_requestToDict]
  rfl

/-- A later state of a request: only what a payload merges has changed. -/
def RequestRecord.Merges (r later : RequestRecord) : Prop := r.merge later = later

theorem RequestRecord.Merges.refl (r : RequestRecord) : r.Merges r := rfl

theorem RequestRecord.merges_enter (r : RequestRecord) (target : RequestState) (at_ : Seconds) :
    r.Merges (r.enter target at_) := rfl

theorem RequestRecord.Merges.trans {r later latest : RequestRecord} (first : r.Merges later)
    (second : later.Merges latest) : r.Merges latest := by
  unfold RequestRecord.Merges at first second ⊢
  rw [← second, ← first]
  rfl

end ServingPlatform
