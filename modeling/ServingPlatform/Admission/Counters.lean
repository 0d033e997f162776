import ServingPlatform.ControlPlane.Admission
import ServingPlatform.Library.Tally

namespace ServingPlatform

/-- The counters of a tenant, as `snapshot` reports them. -/
structure AdmissionSnapshot where
  queued : Int
  running : Int
  reservedTokens : Int
  deriving DecidableEq, Repr

/-- The operations of an admission controller, with the clock reading that a decision may take. -/
inductive AdmissionCall
  | decide (r : RequestRecord) (model : Option ModelDefinition) (workers : List WorkerState) (now : Seconds)
  | markRunning (requestId : String)
  | release (requestId : String)
  | snapshot (tenantId : String)

/-- What an operation returns. -/
inductive AdmissionAnswer
  | decided (decision : AdmissionDecision)
  | done
  | shown (snapshot : AdmissionSnapshot)
  deriving DecidableEq, Repr

namespace TenantAdmissionController

def init (tenants : List TenantLimits) (globalQueueCapacity : Int) : Except Raised TenantAdmissionController :=
  if positive : 0 < globalQueueCapacity then
    if (TenantLimits.table id tenants).size ≠ tenants.length then
      .error (valueError "tenant identifiers must be unique")
    else .ok {
      tenants := TenantLimits.table id tenants
      globalQueueCapacity := globalQueueCapacity.toNat
      queued := .empty
      running := .empty
      tokens := .empty
      reserved := .empty
      positive := by omega }
  else .error (valueError "global queue capacity must be positive")

def snapshot (c : TenantAdmissionController) (tenantId : String) : AdmissionSnapshot :=
  ⟨count c.queued tenantId, count c.running tenantId, count c.tokens tenantId⟩

def perform (c : TenantAdmissionController) : AdmissionCall → Except Raised AdmissionAnswer × TenantAdmissionController
  | .decide r model workers now =>
    let (decision, c) := c.decide r model workers now
    (.ok (.decided decision), c)
  | .markRunning requestId =>
    let (result, c) := c.markRunning requestId
    (result.map fun _ => .done, c)
  | .release requestId => (.ok .done, c.release requestId)
  | .snapshot tenantId => (.ok (.shown (c.snapshot tenantId)), c)

def performAll (c : TenantAdmissionController) (calls : List AdmissionCall) : TenantAdmissionController :=
  calls.foldl (fun c call => (c.perform call).2) c

section Counters

variable {counter : Dict String Int} {tenant : String} {change : Int}

theorem count_add : count (add counter tenant change) = Tallies.bump (count counter) tenant change := by
  funext other
  unfold add Tallies.bump Function.update
  rw [count, Dict.get?_insert]
  by_cases same : other = tenant
  · subst same
    simp
  · simp [same, count]

theorem sum_add : (add counter tenant change).values.sum = counter.values.sum + change := by
  have values : ∀ d : Dict String Int, d.values.sum = d.total id := fun d => by rw [Dict.total, List.map_id]
  unfold add count
  rw [values, values]
  cases found : counter.get? tenant with
  | none =>
    rw [Dict.total_insert_fresh id found]
    simp
  | some n =>
    rw [Dict.total_replace id _ found]
    simp only [Option.getD_some, id_eq]
    omega

end Counters

end TenantAdmissionController

namespace AdmissionReservation

/-- One for a reservation that waits. -/
def waiting (r : AdmissionReservation) : Int := if r.running then 0 else 1

/-- One for a reservation that runs. -/
def executing (r : AdmissionReservation) : Int := if r.running then 1 else 0

def tokenCount (r : AdmissionReservation) : Int := r.tokens

theorem waiting_nonneg (r : AdmissionReservation) : 0 ≤ r.waiting := by
  unfold waiting
  split <;> decide

end AdmissionReservation

namespace TenantAdmissionController

open AdmissionReservation

/-- The counters say what the reservations are, and no limit is exceeded. -/
structure Balanced (c : TenantAdmissionController) : Prop where
  queued : Tallies (count c.queued) c.reserved AdmissionReservation.tenantId waiting
  running : Tallies (count c.running) c.reserved AdmissionReservation.tenantId executing
  tokens : Tallies (count c.tokens) c.reserved AdmissionReservation.tenantId tokenCount
  total : c.queued.values.sum = c.reserved.total waiting
  keyed : ∀ tenant limits, c.tenants.get? tenant = some limits → limits.tenantId = tenant
  configured : ∀ r ∈ c.reserved.values, ∃ limits, c.tenants.get? r.tenantId = some limits
  capacity : c.queued.values.sum ≤ c.globalQueueCapacity
  limited : ∀ tenant limits, c.tenants.get? tenant = some limits →
    count c.queued tenant ≤ limits.maxQueuedRequests ∧ count c.running tenant ≤ limits.maxConcurrentRequests ∧
      count c.tokens tenant ≤ limits.tokenQuota

section Steps

variable {c c' : TenantAdmissionController} {r : RequestRecord} {model : Option ModelDefinition}
  {workers : List WorkerState} {now : Seconds} {requestId : String}

theorem init_balanced {tenants : List TenantLimits} {capacity : Int} (built : init tenants capacity = .ok c) :
    c.Balanced ∧ (c.globalQueueCapacity : Int) = capacity ∧
      ∀ limits ∈ tenants, c.tenants.get? limits.tenantId = some limits := by
  unfold init at built
  split at built
  · split at built
    · cases built
    · rename_i positive unique
      cases built
      have distinct := Dict.nodup_of_size_ofValues (not_not.mp unique)
      refine ⟨⟨Tallies.start, Tallies.start, Tallies.start, rfl, ?_, ?_, ?_, ?_⟩, Int.toNat_of_nonneg positive.le, ?_⟩
      · intro tenant limits found
        obtain ⟨other, -, named, rfl⟩ := Dict.get?_ofValues found
        exact named
      · exact fun r member => by cases member
      · exact Int.natCast_nonneg _
      · exact fun tenant limits found => ⟨Int.natCast_nonneg _, Int.natCast_nonneg _, Int.natCast_nonneg _⟩
      · exact fun limits member => Dict.get?_ofValues_of_mem distinct member
  · cases built

/-- A request is admitted when it has a configured tenant and stays within all limits. -/
theorem decision_admitted (admitted : (c.decision r model workers now).admitted = true) :
    ∃ limits, c.tenants.get? r.tenantId = some limits ∧ c.queued.values.sum < c.globalQueueCapacity ∧
      count c.queued limits.tenantId < limits.maxQueuedRequests ∧
      count c.running limits.tenantId < limits.maxConcurrentRequests ∧
      count c.tokens limits.tenantId + r.estimatedTokens ≤ limits.tokenQuota := by
  unfold decision at admitted
  split at admitted
  · cases admitted
  · cases admitted
  rename_i limits model found
  split at admitted
  · cases admitted
  split at admitted
  · cases admitted
  split at admitted
  · cases admitted
  split at admitted
  · cases admitted
  split at admitted
  · cases admitted
  split at admitted
  · cases admitted
  split at admitted
  · cases admitted
  · rename_i room queue running quota
    exact ⟨limits, found, by omega, by omega, by omega, by omega⟩

/-- Reserving, where the limits leave room. -/
theorem Balanced.reserve (balanced : c.Balanced) (fresh : c.reserved.contains r.requestId = false)
    (admitted : (c.decision r model workers now).admitted = true) : (c.reserve r).Balanced := by
  obtain ⟨limits, found, room, queue, concurrency, quota⟩ := decision_admitted admitted
  have named := balanced.keyed _ _ found
  rw [named] at queue concurrency quota
  have absent := Dict.contains_eq_false_iff.mp fresh
  unfold TenantAdmissionController.reserve
  simp only [found, Option.elim_some, named]
  refine ⟨?_, ?_, ?_, ?_, balanced.keyed, ?_, ?_, ?_⟩
  · rw [count_add]
    exact balanced.queued.add (v := ⟨r.tenantId, r.estimatedTokens, false⟩) absent
  · intro tenant
    rw [Dict.total_insert_fresh _ absent, ← balanced.running tenant]
    simp [executing]
  · rw [count_add]
    exact balanced.tokens.add (v := ⟨r.tenantId, r.estimatedTokens, false⟩) absent
  · rw [sum_add, Dict.total_insert_fresh _ absent, balanced.total]
    rfl
  · intro reservation member
    obtain ⟨other, held⟩ := Dict.mem_values_iff.mp member
    rw [Dict.get?_insert] at held
    split at held
    · cases held
      exact ⟨limits, found⟩
    · exact balanced.configured reservation (Dict.mem_values_iff.mpr ⟨other, held⟩)
  · dsimp only
    rw [sum_add]
    omega
  · intro tenant other configured
    obtain ⟨before, running, tokens⟩ := balanced.limited tenant other configured
    dsimp only
    rw [count_add, count_add, Tallies.bump_apply, Tallies.bump_apply]
    by_cases same : r.tenantId = tenant
    · subst same
      cases found.symm.trans configured
      rw [if_pos rfl, if_pos rfl]
      omega
    · rw [if_neg same, if_neg same]
      omega

theorem Balanced.decide (balanced : c.Balanced) (r : RequestRecord) (model : Option ModelDefinition)
    (workers : List WorkerState) (now : Seconds) : (c.decide r model workers now).2.Balanced := by
  unfold TenantAdmissionController.decide
  split
  · exact balanced
  rename_i fresh
  dsimp only
  split
  · rename_i admitted
    exact balanced.reserve (by simpa using fresh) admitted
  · exact balanced

/-- A reservation that waits is counted, so that its counter can be lowered. -/
theorem Balanced.queued_pos (balanced : c.Balanced) {reservation : AdmissionReservation}
    (found : c.reserved.get? requestId = some reservation) (waits : reservation.running = false) :
    0 < count c.queued reservation.tenantId := by
  have least := balanced.queued.le_count waiting_nonneg found
  have one : reservation.waiting = 1 := by simp [waiting, waits]
  omega

/-- Marking a reservation as running fails, or changes nothing, or moves one request. -/
theorem markRunning_cases (c : TenantAdmissionController) (requestId : String) :
    (∃ raised, c.markRunning requestId = (.error raised, c)) ∨ c.markRunning requestId = (.ok (), c) ∨
      ∃ reservation limits, c.reserved.get? requestId = some reservation ∧ reservation.running = false ∧
        c.tenants.get? reservation.tenantId = some limits ∧
        count c.running reservation.tenantId < limits.maxConcurrentRequests ∧
        c.markRunning requestId = (.ok (), { c with
          queued := if 0 < count c.queued reservation.tenantId then add c.queued reservation.tenantId (-1) else c.queued
          running := add c.running reservation.tenantId 1
          reserved := c.reserved.insert requestId { reservation with running := true } }) := by
  unfold markRunning
  cases found : c.reserved.get? requestId with
  | none => exact Or.inl ⟨_, rfl⟩
  | some reservation =>
    dsimp only
    by_cases running : reservation.running = true
    · rw [if_pos running]
      exact Or.inr (Or.inl rfl)
    rw [if_neg running]
    cases configured : c.tenants.get? reservation.tenantId with
    | none => exact Or.inl ⟨_, rfl⟩
    | some limits =>
      dsimp only
      split
      · exact Or.inl ⟨_, rfl⟩
      · rename_i room
        exact Or.inr (Or.inr ⟨reservation, limits, rfl, by simpa using running, configured, by omega, rfl⟩)

theorem Balanced.markRunning (balanced : c.Balanced) (requestId : String) : (c.markRunning requestId).2.Balanced := by
  rcases c.markRunning_cases requestId with
    ⟨raised, run⟩ | run | ⟨reservation, limits, found, waits, configured, room, run⟩
  · rw [run]
    exact balanced
  · rw [run]
    exact balanced
  rw [run, if_pos (balanced.queued_pos found waits)]
  have owner : ({ reservation with running := true } : AdmissionReservation).tenantId = reservation.tenantId := rfl
  have waited : reservation.waiting = 1 := by simp [waiting, waits]
  have idle : reservation.executing = 0 := by simp [executing, waits]
  refine ⟨?_, ?_, ?_, ?_, balanced.keyed, ?_, ?_, ?_⟩
  · have moved := balanced.queued.replace found owner
    rw [waited] at moved
    rw [count_add]
    exact moved
  · have moved := balanced.running.replace found owner
    rw [idle] at moved
    rw [count_add]
    exact moved
  · intro tenant
    have moved := balanced.tokens.replace found owner tenant
    rw [Tallies.bump_apply] at moved
    simp only [tokenCount, sub_self, ite_self, add_zero] at moved
    exact moved
  · rw [sum_add, Dict.total_replace _ _ found, balanced.total, waited]
    simp [waiting]
    omega
  · intro other member
    obtain ⟨key, held⟩ := Dict.mem_values_iff.mp member
    rw [Dict.get?_insert] at held
    split at held
    · cases held
      exact ⟨limits, configured⟩
    · exact balanced.configured other (Dict.mem_values_iff.mpr ⟨key, held⟩)
  · have capacity := balanced.capacity
    rw [sum_add]
    dsimp only
    omega
  · intro tenant other known
    obtain ⟨before, running, tokens⟩ := balanced.limited tenant other known
    dsimp only
    rw [count_add, count_add, Tallies.bump_apply, Tallies.bump_apply]
    by_cases same : reservation.tenantId = tenant
    · subst same
      cases configured.symm.trans known
      rw [if_pos rfl, if_pos rfl]
      omega
    · rw [if_neg same, if_neg same]
      omega

theorem Balanced.release (balanced : c.Balanced) (requestId : String) : (c.release requestId).Balanced := by
  unfold TenantAdmissionController.release
  cases found : c.reserved.get? requestId with
  | none => exact balanced
  | some reservation =>
    have split := c.reserved.total_erase waiting found
    have counters : ∀ tenant,
        count (if reservation.running then c.queued else add c.queued reservation.tenantId (-1)) tenant =
          Tallies.bump (count c.queued) reservation.tenantId (-reservation.waiting) tenant ∧
        count (if reservation.running then add c.running reservation.tenantId (-1) else c.running) tenant =
          Tallies.bump (count c.running) reservation.tenantId (-reservation.executing) tenant := by
      intro tenant
      rw [Tallies.bump_apply, Tallies.bump_apply]
      unfold waiting executing
      cases reservation.running <;> simp [count_add, Tallies.bump_apply]
    have sum : (if reservation.running then c.queued else add c.queued reservation.tenantId (-1)).values.sum =
        c.queued.values.sum - reservation.waiting := by
      unfold waiting
      cases reservation.running <;> simp [sum_add, Int.sub_eq_add_neg]
    refine ⟨?_, ?_, ?_, ?_, balanced.keyed, ?_, ?_, ?_⟩
    · intro tenant
      rw [(counters tenant).1]
      exact balanced.queued.remove found tenant
    · intro tenant
      rw [(counters tenant).2]
      exact balanced.running.remove found tenant
    · rw [count_add]
      exact balanced.tokens.remove found
    · dsimp only
      rw [sum, balanced.total, split]
      omega
    · intro other member
      obtain ⟨key, held⟩ := Dict.mem_values_iff.mp member
      rw [Dict.get?_erase] at held
      split at held
      · cases held
      · exact balanced.configured other (Dict.mem_values_iff.mpr ⟨key, held⟩)
    · have capacity := balanced.capacity
      have waits := reservation.waiting_nonneg
      dsimp only
      rw [sum]
      omega
    · intro tenant limits known
      obtain ⟨before, running, tokens⟩ := balanced.limited tenant limits known
      have waits := reservation.waiting_nonneg
      have executes : 0 ≤ reservation.executing := by unfold executing; split <;> decide
      dsimp only
      rw [(counters tenant).1, (counters tenant).2, count_add, Tallies.bump_apply, Tallies.bump_apply,
        Tallies.bump_apply]
      split <;> omega

theorem Balanced.perform (balanced : c.Balanced) (call : AdmissionCall) : (c.perform call).2.Balanced := by
  cases call with
  | decide r model workers now => exact balanced.decide r model workers now
  | markRunning requestId => exact balanced.markRunning requestId
  | release requestId => exact balanced.release requestId
  | snapshot tenantId => exact balanced

/-- The invariant holds after any calls in any order. -/
theorem Balanced.performAll (balanced : c.Balanced) (calls : List AdmissionCall) : (c.performAll calls).Balanced := by
  induction calls generalizing c with
  | nil => exact balanced
  | cons call rest ih => exact ih (balanced.perform call)

end Steps

section Constants

variable (c : TenantAdmissionController)

theorem decide_constants (r : RequestRecord) (model : Option ModelDefinition) (workers : List WorkerState)
    (now : Seconds) : (c.decide r model workers now).2.tenants = c.tenants ∧
      (c.decide r model workers now).2.globalQueueCapacity = c.globalQueueCapacity := by
  unfold decide
  split
  · exact ⟨rfl, rfl⟩
  dsimp only
  split <;> exact ⟨rfl, rfl⟩

theorem release_constants (requestId : String) : (c.release requestId).tenants = c.tenants ∧
    (c.release requestId).globalQueueCapacity = c.globalQueueCapacity := by
  unfold release
  split <;> exact ⟨rfl, rfl⟩

theorem markRunning_constants (requestId : String) : (c.markRunning requestId).2.tenants = c.tenants ∧
    (c.markRunning requestId).2.globalQueueCapacity = c.globalQueueCapacity := by
  rcases c.markRunning_cases requestId with ⟨raised, run⟩ | run | ⟨reservation, limits, -, -, -, -, run⟩ <;> rw [run] <;>
    exact ⟨rfl, rfl⟩

theorem perform_constants (call : AdmissionCall) : (c.perform call).2.tenants = c.tenants ∧
    (c.perform call).2.globalQueueCapacity = c.globalQueueCapacity := by
  cases call with
  | decide r model workers now => exact c.decide_constants r model workers now
  | markRunning requestId => exact c.markRunning_constants requestId
  | release requestId => exact c.release_constants requestId
  | snapshot tenantId => exact ⟨rfl, rfl⟩

theorem performAll_constants (calls : List AdmissionCall) : (c.performAll calls).tenants = c.tenants ∧
    (c.performAll calls).globalQueueCapacity = c.globalQueueCapacity := by
  induction calls generalizing c with
  | nil => exact ⟨rfl, rfl⟩
  | cons call rest ih =>
    obtain ⟨tenants, capacity⟩ := ih (c.perform call).2
    obtain ⟨tenants', capacity'⟩ := c.perform_constants call
    exact ⟨tenants.trans tenants', capacity.trans capacity'⟩

end Constants

section Amounts

variable {c : TenantAdmissionController}

/-- How many reservations of a tenant wait, or run. -/
def reservationsOf (c : TenantAdmissionController) (tenant : String) (running : Bool) : Nat :=
  c.reserved.values.countP fun r => r.tenantId = tenant && r.running == running

/-- The tokens that a tenant's reservations hold together. -/
def tokensOf (c : TenantAdmissionController) (tenant : String) : Nat :=
  ((c.reserved.values.filter fun r => r.tenantId = tenant).map AdmissionReservation.tokens).sum

theorem Balanced.queued_eq (balanced : c.Balanced) (tenant : String) :
    count c.queued tenant = c.reservationsOf tenant false := by
  rw [balanced.queued tenant, reservationsOf, ← Dict.total_indicator]
  refine Dict.total_congr fun r _ => ?_
  unfold waiting
  cases r.running <;> simp

theorem Balanced.running_eq (balanced : c.Balanced) (tenant : String) :
    count c.running tenant = c.reservationsOf tenant true := by
  rw [balanced.running tenant, reservationsOf, ← Dict.total_indicator]
  refine Dict.total_congr fun r _ => ?_
  unfold executing
  cases r.running <;> simp

theorem Balanced.tokens_eq (balanced : c.Balanced) (tenant : String) : count c.tokens tenant = c.tokensOf tenant := by
  rw [balanced.tokens tenant, tokensOf, Dict.total]
  induction c.reserved.values with
  | nil => rfl
  | cons r rest ih =>
    rw [List.map_cons, List.sum_cons, ih, List.filter_cons]
    by_cases same : r.tenantId = tenant <;> simp [same, tokenCount]

theorem Balanced.total_eq (balanced : c.Balanced) :
    c.queued.values.sum = c.reserved.values.countP fun r => !r.running := by
  rw [balanced.total, ← Dict.total_indicator]
  refine Dict.total_congr fun r _ => ?_
  unfold waiting
  cases r.running <;> simp

end Amounts

/-- After any calls, each tenant's counters are what its reservations add up
to, every limit holds, and what is reserved or unknown already is left alone. -/
theorem counters_match_reservations {tenants : List TenantLimits} {capacity : Int} {c₀ : TenantAdmissionController}
    (built : init tenants capacity = .ok c₀) (calls : List AdmissionCall) :
    (∀ tenant, (c₀.performAll calls).snapshot tenant =
      ⟨(c₀.performAll calls).reservationsOf tenant false, (c₀.performAll calls).reservationsOf tenant true,
        (c₀.performAll calls).tokensOf tenant⟩) ∧
    (c₀.performAll calls).queued.values.sum = ((c₀.performAll calls).reserved.values.countP fun r => !r.running) ∧
    (c₀.performAll calls).queued.values.sum ≤ capacity ∧
    (∀ limits ∈ tenants,
      (c₀.performAll calls).reservationsOf limits.tenantId false ≤ limits.maxQueuedRequests ∧
      (c₀.performAll calls).reservationsOf limits.tenantId true ≤ limits.maxConcurrentRequests ∧
      (c₀.performAll calls).tokensOf limits.tenantId ≤ limits.tokenQuota) ∧
    (∀ r model workers now, (c₀.performAll calls).reserved.contains r.requestId = true →
      (c₀.performAll calls).decide r model workers now =
        (⟨true, "already_admitted", "reservation already exists"⟩, c₀.performAll calls)) ∧
    ∀ requestId, (c₀.performAll calls).reserved.contains requestId = false →
      (c₀.performAll calls).release requestId = c₀.performAll calls := by
  obtain ⟨start, capacityEq, table⟩ := init_balanced built
  obtain ⟨sameTenants, sameCapacity⟩ := c₀.performAll_constants calls
  have balanced := start.performAll calls
  generalize c₀.performAll calls = c at *
  refine ⟨fun tenant => ?_, balanced.total_eq, ?_, fun limits member => ?_, ?_, ?_⟩
  · rw [snapshot, balanced.queued_eq, balanced.running_eq, balanced.tokens_eq]
  · have room := balanced.capacity
    rw [sameCapacity, capacityEq] at room
    exact room
  · obtain ⟨queued, running, tokens⟩ := balanced.limited _ limits (by rw [sameTenants]; exact table limits member)
    rw [balanced.queued_eq] at queued
    rw [balanced.running_eq] at running
    rw [balanced.tokens_eq] at tokens
    exact ⟨Int.ofNat_le.mp queued, Int.ofNat_le.mp running, Int.ofNat_le.mp tokens⟩
  · intro r model workers now known
    rw [decide, if_pos known]
  · intro requestId unknown
    rw [release, Dict.contains_eq_false_iff.mp unknown]

namespace Sample

/-- One tenant with room for one request. -/
def tenant : TenantLimits := ⟨"tenant", 1, 1, 10, 1, by decide, by decide⟩

def request : RequestRecord where
  requestId := "request"
  tenantId := "tenant"
  modelId := "model"
  prompt := "hello"
  promptTokens := 9
  maxNewTokens := 1
  priority := 0
  deadline := .finite 100
  stream := false
  temperature := 0
  createdAt := 0
  status := .received
  assignedWorkerId := none
  attemptCount := 0
  retryReasons := []
  payloadAvailable := true
  transitionTimestamps := ⟨[(.received, 0)], by decide⟩
  identified := by decide
  prompted := by decide
  positive := Nat.one_pos
  temperate := le_refl _
  stamped := by decide

def model : ModelDefinition := ⟨"model", "main", 100, 100, 200⟩

def worker : WorkerState where
  workerId := "worker"
  totalMemoryBytes := some 1000
  availableMemoryBytes := some 900
  residentModels := []
  loadingModels := []
  queueDepth := 0
  activeBatchCount := 0
  maxConcurrency := 1
  healthStatus := .healthy
  draining := false
  lastHeartbeat := 0
  allocatedMemoryBytes := none
  reservedMemoryBytes := none
  heartbeatSequence := 0
  consecutiveFailures := 0
  lastErrorCode := none

end Sample

open Sample in
theorem counters_match_reservations_sample : ∃ c₀, init [tenant] 1 = .ok c₀ ∧
    (c₀.performAll [.decide request (some model) [worker] 0, .markRunning "request"]).snapshot "tenant" = ⟨0, 1, 10⟩ := by
  obtain ⟨c₀, built⟩ : ∃ c₀, init [tenant] 1 = .ok c₀ := ⟨_, rfl⟩
  refine ⟨c₀, built, ?_⟩
  rw [(counters_match_reservations built [.decide request (some model) [worker] 0, .markRunning "request"]).1 "tenant"]
  cases built
  rfl

end TenantAdmissionController

end ServingPlatform
