import ServingPlatform.ControlPlane.Worker
import ServingPlatform.FairQueue.Queue

namespace ServingPlatform

structure AdmissionDecision where
  admitted : Bool
  code : String
  reason : String
  deriving DecidableEq, Repr

structure AdmissionReservation where
  tenantId : String
  tokens : Nat
  running : Bool
  deriving DecidableEq, Repr

/-- The counters of `TenantAdmissionController`; a tenant without an entry counts zero. -/
structure TenantAdmissionController where
  tenants : Dict String TenantLimits
  globalQueueCapacity : Nat
  queued : Dict String Int
  running : Dict String Int
  tokens : Dict String Int
  reserved : Dict String AdmissionReservation
  positive : 0 < globalQueueCapacity

namespace TenantAdmissionController

def count (counter : Dict String Int) (tenant : String) : Int := (counter.get? tenant).getD 0

def add (counter : Dict String Int) (tenant : String) (change : Int) : Dict String Int :=
  counter.insert tenant (count counter tenant + change)

/-- What `decide` answers for a request without a reservation. -/
def decision (c : TenantAdmissionController) (r : RequestRecord) (model : Option ModelDefinition)
    (workers : List WorkerState) (now : Seconds) : AdmissionDecision :=
  match c.tenants.get? r.tenantId, model with
  | none, _ => ⟨false, "unknown_tenant", "tenant is not configured"⟩
  | some _, none => ⟨false, "unsupported_model", "model is not registered"⟩
  | some tenant, some model =>
    if model.maxContextTokens < r.estimatedTokens then ⟨false, "context_window_exceeded", "context is too large"⟩
    else if r.deadline.expired now then ⟨false, "deadline_exceeded", "deadline has expired"⟩
    else if workers.all fun w => w.healthStatus ≠ .healthy ∨ w.draining = true then
      ⟨false, "no_healthy_capacity", "no healthy worker"⟩
    else if (c.globalQueueCapacity : Int) ≤ c.queued.values.sum then ⟨false, "global_queue_full", "global queue is full"⟩
    else if (tenant.maxQueuedRequests : Int) ≤ count c.queued tenant.tenantId then
      ⟨false, "tenant_queue_full", "tenant queue is full"⟩
    else if (tenant.maxConcurrentRequests : Int) ≤ count c.running tenant.tenantId then
      ⟨false, "tenant_concurrency_limit", "tenant concurrency limit reached"⟩
    else if (tenant.tokenQuota : Int) < count c.tokens tenant.tenantId + r.estimatedTokens then
      ⟨false, "tenant_token_quota", "tenant token quota exceeded"⟩
    else ⟨true, "admitted", "request capacity reserved"⟩

/-- The controller once it has reserved capacity for a request. -/
def reserve (c : TenantAdmissionController) (r : RequestRecord) : TenantAdmissionController :=
  let tenant := (c.tenants.get? r.tenantId).elim r.tenantId TenantLimits.tenantId
  { c with
    queued := add c.queued tenant 1
    tokens := add c.tokens tenant r.estimatedTokens
    reserved := c.reserved.insert r.requestId ⟨tenant, r.estimatedTokens, false⟩ }

def decide (c : TenantAdmissionController) (r : RequestRecord) (model : Option ModelDefinition)
    (workers : List WorkerState) (now : Seconds) : AdmissionDecision × TenantAdmissionController :=
  if c.reserved.contains r.requestId then (⟨true, "already_admitted", "reservation already exists"⟩, c)
  else
    let decision := c.decision r model workers now
    (decision, if decision.admitted then c.reserve r else c)

def markRunning (c : TenantAdmissionController) (requestId : String) : Except Raised Unit × TenantAdmissionController :=
  match c.reserved.get? requestId with
  | none => (.error (keyError requestId), c)
  | some reservation =>
    if reservation.running then (.ok (), c)
    else
      match c.tenants.get? reservation.tenantId with
      | none => (.error (keyError reservation.tenantId), c)
      | some limits =>
        if (limits.maxConcurrentRequests : Int) ≤ count c.running reservation.tenantId then
          (.error (runtimeError "tenant concurrency limit reached"), c)
        else
          (.ok (), { c with
            queued := if 0 < count c.queued reservation.tenantId then add c.queued reservation.tenantId (-1) else c.queued
            running := add c.running reservation.tenantId 1
            reserved := c.reserved.insert requestId { reservation with running := true } })

def release (c : TenantAdmissionController) (requestId : String) : TenantAdmissionController :=
  match c.reserved.get? requestId with
  | none => c
  | some reservation =>
    { c with
      queued := if reservation.running then c.queued else add c.queued reservation.tenantId (-1)
      running := if reservation.running then add c.running reservation.tenantId (-1) else c.running
      tokens := add c.tokens reservation.tenantId (-reservation.tokens)
      reserved := c.reserved.erase requestId }

variable {c : TenantAdmissionController} {r : RequestRecord} {model : Option ModelDefinition}
  {workers : List WorkerState} {now : Seconds} {requestId : String}

/-- A refused request holds no reservation. -/
theorem decide_refused (refused : (c.decide r model workers now).1.admitted = false) :
    (c.decide r model workers now).2 = c ∧ c.reserved.contains r.requestId = false := by
  unfold decide at *
  split at refused
  · cases refused
  · rename_i fresh
    rw [if_neg fresh]
    dsimp only at refused ⊢
    rw [refused]
    exact ⟨rfl, by simpa using fresh⟩

theorem decide_admitted (admitted : (c.decide r model workers now).1.admitted = true) :
    (c.decide r model workers now).2.reserved.contains r.requestId = true := by
  unfold decide at *
  split at admitted
  · rename_i known
    rw [if_pos known]
    exact known
  · rename_i fresh
    rw [if_neg fresh]
    dsimp only at admitted ⊢
    rw [admitted, if_pos rfl, Dict.contains]
    unfold reserve
    rw [Dict.get?_insert_self]
    rfl

theorem release_contains (c : TenantAdmissionController) (requestId : String) :
    (c.release requestId).reserved.contains requestId = false := by
  unfold release
  split
  · rename_i absent
    rw [Dict.contains, absent]
    rfl
  · rw [Dict.contains, Dict.get?_erase_self]
    rfl

end TenantAdmissionController

end ServingPlatform
