import Mathlib.Algebra.Order.Ring.Rat
import ServingPlatform.ControlPlane.Requests

namespace ServingPlatform

/-- A tenant's limits, with the checks of `__post_init__` as fields. -/
structure TenantLimits where
  tenantId : String
  maxConcurrentRequests : Nat
  maxQueuedRequests : Nat
  tokenQuota : Nat
  schedulingWeight : Nat
  identified : tenantId ≠ ""
  positive : 0 < maxConcurrentRequests ∧ 0 < maxQueuedRequests ∧ 0 < tokenQuota ∧ 0 < schedulingWeight

/-- `{tenant.tenant_id: value for tenant in tenants}`. -/
def TenantLimits.table {α : Type} (value : TenantLimits → α) (tenants : List TenantLimits) : Dict String α :=
  tenants.foldl (fun table tenant => table.insert tenant.tenantId (value tenant)) .empty

/-- The queue of the requests waiting for a worker. Requests are shared objects,
so its operations also read and write these. -/
structure WeightedFairRequestQueue where
  tenants : Dict String TenantLimits
  baseQuantumTokens : Nat
  priorityAgingSeconds : Rat
  queues : Dict String (List ObjectId)
  deficits : Dict String Nat
  active : List String
  quantumPositive : 0 < baseQuantumTokens
  agingPositive : 0 < priorityAgingSeconds

namespace WeightedFairRequestQueue

def init (tenants : List TenantLimits) (baseQuantumTokens : Int) (priorityAgingSeconds : Rat) :
    Except Raised WeightedFairRequestQueue :=
  if positive : 0 < baseQuantumTokens ∧ 0 < priorityAgingSeconds then .ok {
    tenants := TenantLimits.table id tenants
    baseQuantumTokens := baseQuantumTokens.toNat
    priorityAgingSeconds := priorityAgingSeconds
    queues := TenantLimits.table (fun _ => []) tenants
    deficits := TenantLimits.table (fun _ => 0) tenants
    active := []
    quantumPositive := by omega
    agingPositive := positive.2 }
  else .error (valueError "fair queue parameters must be positive")

def queueOf (q : WeightedFairRequestQueue) (tenant : String) : List ObjectId := (q.queues.get? tenant).getD []

def deficitOf (q : WeightedFairRequestQueue) (tenant : String) : Nat := (q.deficits.get? tenant).getD 0

def weightOf (q : WeightedFairRequestQueue) (tenant : String) : Nat :=
  (q.tenants.get? tenant).elim 0 TenantLimits.schedulingWeight

/-- The credit of one visit. -/
def quantumOf (q : WeightedFairRequestQueue) (tenant : String) : Nat := q.baseQuantumTokens * q.weightOf tenant

/-- A request that is queued globally, or becomes so, joins its tenant's queue. -/
def join (q : WeightedFairRequestQueue) (objects : Objects) (i : ObjectId) (queue : List ObjectId) :
    WeightedFairRequestQueue :=
  { q with
    queues := q.queues.insert (objects i).tenantId (queue ++ [i])
    active := if (objects i).tenantId ∈ q.active then q.active else q.active ++ [(objects i).tenantId] }

def enqueue (q : WeightedFairRequestQueue) (objects : Objects) (i : ObjectId) (now : Seconds) :
    Except Raised Unit × WeightedFairRequestQueue × Objects :=
  match q.queues.get? (objects i).tenantId with
  | none => (.error (valueError s!"tenant is not configured: {(objects i).tenantId}"), q, objects)
  | some queue =>
    if (objects i).status ≠ .admitted ∧ (objects i).status ≠ .queued then
      (.error (valueError "only admitted or retry-queued requests enter the global fair queue"), q, objects)
    else if queue.any fun j => (objects j).requestId = (objects i).requestId then
      (.error (valueError s!"request is already queued: {(objects i).requestId}"), q, objects)
    else
      (.ok (), q.join objects i queue,
        if (objects i).status = .admitted then objects.put i ((objects i).enter .queued now) else objects)

/-- Priority with its age, then the earlier creation. -/
def urgency (q : WeightedFairRequestQueue) (r : RequestRecord) (now : Seconds) : Except Raised (Rat × Int) :=
  match r.transitionTimestamps.get? .queued with
  | none => .error (keyError "<RequestState.QUEUED: 'queued'>")
  | some queuedAt => .ok (r.priority + (now - queuedAt : Int) / q.priorityAgingSeconds, -r.createdAt)

/-- `max(queue, key=...)`: the first of the most urgent requests. -/
def mostUrgent (q : WeightedFairRequestQueue) (objects : Objects) (now : Seconds) (best : ObjectId) (key : Rat × Int) :
    List ObjectId → Except Raised ObjectId
  | [] => .ok best
  | i :: rest =>
    match q.urgency (objects i) now with
    | .error raised => .error raised
    | .ok other =>
      if key.1 < other.1 ∨ key.1 = other.1 ∧ key.2 < other.2 then q.mostUrgent objects now i other rest
      else q.mostUrgent objects now best key rest

def nextForTenant (q : WeightedFairRequestQueue) (objects : Objects) (now : Seconds) :
    List ObjectId → Except Raised ObjectId
  | [] => .error (valueError "max() iterable argument is empty")
  | i :: rest =>
    match q.urgency (objects i) now with
    | .error raised => .error raised
    | .ok key => q.mostUrgent objects now i key rest

/-- One turn of the loop of `pop`, for the tenant taken from the front. -/
def visit (q : WeightedFairRequestQueue) (objects : Objects) (now : Seconds) (tenant : String) (rest : List String) :
    Except Raised (Option ObjectId) × WeightedFairRequestQueue :=
  let queue := (q.queueOf tenant).filter fun i => !(objects i).terminal
  let pruned := { q with active := rest, queues := q.queues.insert tenant queue }
  if queue = [] then (.ok none, { pruned with deficits := q.deficits.insert tenant 0 })
  else
    let credit := q.deficitOf tenant + q.quantumOf tenant
    match q.nextForTenant objects now queue with
    | .error raised => (.error raised, { pruned with deficits := q.deficits.insert tenant credit })
    | .ok i =>
      if (objects i).estimatedTokens ≤ credit then
        (.ok (some i), { pruned with
          queues := q.queues.insert tenant (queue.erase i)
          deficits := q.deficits.insert tenant (credit - (objects i).estimatedTokens)
          active := if queue.erase i = [] then rest else rest ++ [tenant] })
      else
        (.ok none, { pruned with deficits := q.deficits.insert tenant credit, active := rest ++ [tenant] })

/-- The clock is read once in every visit. -/
def popLoop (objects : Objects) (clock : Nat → Seconds) :
    Nat → WeightedFairRequestQueue → Except Raised (Option ObjectId) × WeightedFairRequestQueue
  | 0, q => (.ok none, q)
  | visitsRemaining + 1, q =>
    match q.active with
    | [] => (.ok none, q)
    | tenant :: rest =>
      match q.visit objects (clock visitsRemaining) tenant rest with
      | (.ok none, q') => popLoop objects clock visitsRemaining q'
      | (result, q') => (result, q')

def pop (q : WeightedFairRequestQueue) (objects : Objects) (clock : Nat → Seconds) :
    Except Raised (Option ObjectId) × WeightedFairRequestQueue :=
  popLoop objects clock q.active.length q

def cancel (q : WeightedFairRequestQueue) (objects : Objects) (requestId : String) (now : Seconds) :
    Except Raised Bool × WeightedFairRequestQueue × Objects :=
  let named := fun i => decide ((objects i).requestId = requestId)
  match q.queues.entries.find? fun entry => entry.2.any named with
  | none => (.ok false, q, objects)
  | some (tenant, queue) =>
    match queue.find? named with
    | none => (.ok false, q, objects)
    | some i =>
      let removed := { q with queues := q.queues.insert tenant (queue.erase i) }
      match (objects i).transition .cancelled now with
      | .error raised => (.error raised, removed, objects)
      | .ok r => (.ok true, removed, objects.put i r)

end WeightedFairRequestQueue

end ServingPlatform
