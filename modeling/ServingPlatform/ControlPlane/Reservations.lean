import ServingPlatform.ControlPlane.DispatchCases

namespace ServingPlatform.Plane

variable {i : ObjectId} {inputs : DispatchInputs i} {p p' q q' final : Plane} {a : Assignment} {raised : Raised}

/-- The policy and the reservations find a worker for a request that may be
assigned and is not past its deadline. -/
def Places (inputs : DispatchInputs i) (p : Plane) : Prop :=
  (p.objects i).Schedulable ∧ (p.objects i).deadline.expired inputs.assignedAt = false ∧
    ∃ decision, (place inputs p).1 = .ok decision

/-- A save of the request succeeds where there is a store. -/
def Stores (fault : Option Raised) (i : ObjectId) (p : Plane) : Prop :=
  ∀ entries, p.store = some entries → fault = none ∧ entries.contains (p.objects i).requestId = true

/-- No placement reservation is held for a request id. -/
def Unreserved (p : Plane) (requestId : String) : Prop :=
  ∀ book, p.reservations = some book → book.contains requestId = false

theorem Assigned.places (assigned : Assigned inputs p (.ok a) q) : Places inputs p := by
  cases assigned with
  | placed schedulable early decided chosen named => exact ⟨schedulable, early, _, by rw [decided]⟩

theorem Assigned.not_places (assigned : Assigned inputs p (.error raised) q) : ¬Places inputs p := by
  rintro ⟨schedulable, early, decision, decided⟩
  cases assigned with
  | unschedulable status => exact status schedulable
  | expired schedulable late =>
    rw [early] at late
    cases late
  | unplaced schedulable early refused =>
    rw [refused] at decided
    cases decided

/-- What an assignment makes of the request, the reservations and the rest. -/
theorem Assigned.placed_facts (assigned : Assigned inputs p (.ok a) q) :
    (∃ decision : RoutingDecision,
      q.objects = p.objects.put i ((p.objects i).assignedTo decision.selectedWorkerId inputs.assignedAt)) ∧
    q.store = p.store ∧ q.workers = p.workers ∧ a.requestId = (p.objects i).requestId ∧
    (p.reservations = none ∧ q.reservations = none ∨
      ∃ book reservation, p.reservations = some book ∧
        q.reservations = some (book.insert (p.objects i).requestId reservation)) := by
  cases assigned with
  | @placed decision booked _ schedulable early decided chosen named =>
    refine ⟨⟨decision, rfl⟩, rfl, rfl, named, ?_⟩
    rcases place_cases inputs p with ⟨raised, run⟩ | ⟨other, book, run, reserved⟩
    · cases decided.symm.trans run
    · have same : booked = book := by
        have planes := congrArg (fun result => result.2.reservations) (decided.symm.trans run)
        exact planes
      rw [same]
      rcases reserved with ⟨unbooked, none⟩ | ⟨entries, reservation, held, -, inserted⟩
      · exact Or.inl ⟨unbooked, none⟩
      · exact Or.inr ⟨entries, reservation, held, inserted⟩

theorem Assigned.requestId (assigned : Assigned inputs p (.ok a) q) :
    (q.objects i).requestId = (p.objects i).requestId := by
  obtain ⟨⟨decision, objects⟩, -⟩ := assigned.placed_facts
  rw [objects, Objects.put_self]
  rfl

theorem save_ok_iff {fault : Option Raised} : (save fault i p).1 = .ok () ↔ Stores fault i p := by
  rcases save_cases fault i p with ⟨raised, entries, held, run, reason⟩ | ⟨store, run, kept⟩
  · rw [run]
    refine ⟨fun ok => (by cases ok), fun stores => ?_⟩
    have fine := stores entries held
    rcases reason with fault | missing
    · exact absurd fine.1 fault
    · rw [fine.2] at missing
      cases missing
  · rw [run]
    refine ⟨fun _ entries held => ?_, fun _ => rfl⟩
    rcases kept with ⟨none, -⟩ | ⟨others, some, fault, known, -⟩
    · rw [none] at held
      cases held
    · rw [some] at held
      cases held
      exact ⟨fault, known⟩

theorem Assigned.stores_iff {fault : Option Raised} (assigned : Assigned inputs p (.ok a) q) :
    Stores fault i q ↔ Stores fault i p := by
  unfold Stores
  rw [assigned.placed_facts.2.1, assigned.requestId]

theorem released (requestId : String) (p : Plane) : (p.releaseAssignment requestId).Unreserved requestId := by
  intro book held
  obtain ⟨entries, -, rfl⟩ := Option.map_eq_some_iff.mp held
  rw [Dict.contains, Dict.get?_erase_self]
  rfl

/-- A dispatch ends without a reservation for its request unless it fails
between the placement and its `try` block, or there was a reservation before. -/
theorem dispatch_unreserved_iff (inputs : DispatchInputs i) (p : Plane) :
    (dispatch inputs p).2.Unreserved (p.objects i).requestId ↔
      (Places inputs p ∧ (p.reservations = none ∨
        Stores (inputs.faults .firstSave) i p ∧ inputs.faults .directory = none)) ∨
      (¬Places inputs p ∧ p.Unreserved (p.objects i).requestId) := by
  obtain ⟨result, p', run, dispatched⟩ := dispatch_cases inputs p
  rw [run]
  dsimp only
  have leaked : ∀ {a q}, Assigned inputs p (.ok a) q →
      (q.Unreserved (p.objects i).requestId ↔ p.reservations = none) := by
    intro a q assigned
    rcases assigned.placed_facts.2.2.2.2 with ⟨unbooked, none⟩ | ⟨book, reservation, held, booked⟩
    · refine ⟨fun _ => unbooked, fun _ book held => ?_⟩
      rw [none] at held
      cases held
    · refine ⟨fun unreserved => ?_, fun unbooked => ?_⟩
      · have absent := unreserved _ booked
        rw [Dict.contains, Dict.get?_insert_self] at absent
        cases absent
      · rw [held] at unbooked
        cases unbooked
  have finished : ∀ {a q q'}, Assigned inputs p (.ok a) q → save (inputs.faults .firstSave) i q = (.ok (), q') →
      inputs.faults .directory = none → ∀ final : Plane,
      ((final.releaseAssignment a.requestId).Unreserved (p.objects i).requestId ↔
        (Places inputs p ∧ (p.reservations = none ∨
          Stores (inputs.faults .firstSave) i p ∧ inputs.faults .directory = none)) ∨
        (¬Places inputs p ∧ p.Unreserved (p.objects i).requestId)) := by
    intro a q q' assigned saved looked final
    have stores := assigned.stores_iff.mp (save_ok_iff.mp (congrArg Prod.fst saved))
    rw [assigned.placed_facts.2.2.2.1]
    exact ⟨fun _ => Or.inl ⟨assigned.places, Or.inr ⟨stores, looked⟩⟩, fun _ => released _ _⟩
  cases dispatched with
  | unassigned unplaced =>
    have assigned := Assigned.of_run unplaced
    have unchanged : p'.reservations = p.reservations := by
      cases assigned <;> rfl
    unfold Unreserved
    rw [unchanged]
    exact ⟨fun unreserved => Or.inr ⟨assigned.not_places, unreserved⟩, fun cond =>
      cond.elim (fun places => absurd places.1 assigned.not_places) And.right⟩
  | unsaved placed lost =>
    have assigned := Assigned.of_run placed
    rw [leaked assigned]
    have unstored : ¬Stores (inputs.faults .firstSave) i p := fun stores => by
      have ok := save_ok_iff.mpr (assigned.stores_iff.mpr stores)
      rw [lost] at ok
      cases ok
    refine ⟨fun none => Or.inl ⟨assigned.places, Or.inl none⟩, fun cond => ?_⟩
    rcases cond with ⟨-, none | ⟨stores, -⟩⟩ | ⟨unplaced, -⟩
    · exact none
    · exact absurd stores unstored
    · exact absurd assigned.places unplaced
  | unlooked placed saved fault =>
    have assigned := Assigned.of_run placed
    have same : p'.Unreserved (p.objects i).requestId ↔ p.reservations = none := by
      rw [← leaked assigned]
      unfold Unreserved
      rw [(save_objects saved).2.2]
    rw [same]
    refine ⟨fun none => Or.inl ⟨assigned.places, Or.inl none⟩, fun cond => ?_⟩
    rcases cond with ⟨-, none | ⟨-, looked⟩⟩ | ⟨unplaced, -⟩
    · exact none
    · rw [fault] at looked
      cases looked
    · exact absurd assigned.places unplaced
  | accepted placed saved looked handed => exact finished (.of_run placed) saved looked _
  | escaped placed saved looked handed uncaught => exact finished (.of_run placed) saved looked _
  | isOver placed saved looked handed caught isOver => exact finished (.of_run placed) saved looked _
  | returned placed saved looked handed caught status => exact finished (.of_run placed) saved looked _
  | stuck placed saved looked handed caught status kind => exact finished (.of_run placed) saved looked _

namespace Rejected

theorem identified : "request" ≠ "" ∧ "tenant" ≠ "" ∧ "model" ≠ "" := by decide

theorem prompted : isBlank "hello" = false := by decide

theorem temperate : (0 : Rat) ≤ 0 := le_refl _

/-- An admitted request. -/
def request : RequestRecord where
  requestId := "request"
  tenantId := "tenant"
  modelId := "model"
  prompt := "hello"
  promptTokens := 1
  maxNewTokens := 2
  priority := 0
  deadline := .infinite
  stream := false
  temperature := 0
  createdAt := 0
  status := .admitted
  assignedWorkerId := none
  attemptCount := 0
  retryReasons := []
  payloadAvailable := true
  transitionTimestamps := ⟨[(.received, 0), (.validated, 0), (.admitted, 0)], by decide⟩
  identified := identified
  prompted := prompted
  positive := Nat.two_pos
  temperate := temperate
  stamped := by decide

def worker : ManagedWorker where
  workerId := "worker"
  maxQueueDepth := 128
  maxConcurrency := 1
  maxBatchSize := 8
  maxBatchTokens := 4096
  memorySafetyReserveBytes := 0
  health := .healthy
  draining := false
  residentModels := []
  loadingModels := []
  modelDefinitions := .empty
  modelLastUsed := .empty
  activeRequestsByModel := .empty
  activeRequests := .empty
  loadAttempts := .empty
  loadFailures := .empty
  reservedModelMemoryBytes := 0
  queue := []
  activeBatchCount := 0
  identified := by decide
  positive := by decide

def snapshot : WorkerState where
  workerId := "worker"
  totalMemoryBytes := none
  availableMemoryBytes := none
  residentModels := []
  loadingModels := []
  queueDepth := 0
  activeBatchCount := 0
  maxConcurrency := 1
  healthStatus := .healthy
  draining := false
  lastHeartbeat := 0
  allocatedMemoryBytes := none
  reservedMemoryBytes := none
  heartbeatSequence := 0
  consecutiveFailures := 0
  lastErrorCode := none

def model : ModelDefinition := ⟨"model", "test", 100, 1024, 2048⟩

/-- A cold worker that is registered; whether it can be reached, and whether
the request was stored, varies. -/
def plane (entries : RequestStore) (directory : List String) : Plane where
  objects := fun _ => request
  store := some entries
  workers := fun _ => worker
  directory := directory
  registry := ⟨30, 15, ⟨[("worker", snapshot)], by decide⟩, by decide⟩
  models := some ⟨[("model", model)], by decide⟩
  reservationModels := none
  reservations := some .empty
  globalQueue := none

def limits : TenantLimits := ⟨"tenant", 1, 2, 100, 1, request.identified.2.1, by decide⟩

def tenants : Dict String TenantLimits := ⟨[("tenant", limits)], by decide⟩

/-- One tenant, for whom nothing waits. -/
def globalQueue : WeightedFairRequestQueue where
  tenants := tenants
  baseQuantumTokens := 128
  priorityAgingSeconds := 1
  queues := ⟨[("tenant", [])], by decide⟩
  deficits := ⟨[("tenant", 0)], by decide⟩
  active := []
  quantumPositive := by decide
  agingPositive := by decide

def known : RequestStore := RequestStore.empty.insert request

/-- The first of the workers is chosen; the runtime may fail to load a model. -/
def readings (i : ObjectId) (load : Option Raised) : DispatchInputs i where
  policy := fun _ workers =>
    match workers with
    | [] => .error ⟨.noEligibleWorker, "no eligible worker"⟩
    | w :: _ => .ok ⟨w.workerId, "first", [w.workerId], .empty⟩
  faults := fun _ => none
  assignedAt := 1
  load := ⟨.ok ⟨none, none, none, none⟩, fun _ => none, load, none, fun _ => false, 1⟩
  woken := id
  meanwhile := id
  registryMeanwhile := id
  heartbeatCapacity := .ok ⟨none, none, none, none⟩
  heartbeatAt := 1
  loadedAt := 1
  transitionAt := 1
  apart := fun _ => ⟨Iff.rfl, Iff.rfl⟩

end Rejected

open Rejected

/-- The reservation of a request that the store does not know is never released. -/
theorem unsaved_request_keeps_reservation : ∃ p : Plane, ∃ inputs : DispatchInputs 0,
    ¬(dispatch inputs p).2.Unreserved (p.objects 0).requestId := by
  refine ⟨plane .empty ["worker"], readings 0 none, fun unreserved => ?_⟩
  have kept : (dispatch (readings 0 none) (plane .empty ["worker"])).2.reservations.map (fun book =>
      book.contains "request") = some true := rfl
  obtain ⟨book, held, contained⟩ := Option.map_eq_some_iff.mp kept
  have absent := unreserved book held
  rw [show ((plane .empty ["worker"]).objects 0).requestId = "request" from rfl, contained] at absent
  cases absent

end ServingPlatform.Plane
