import ServingPlatform.ControlPlane.Executions

namespace ServingPlatform

/-- The readings of a submission to a pipeline: its identifier and its object
are new, and store and directory answer the dispatch. -/
structure SubmitInputs (p : Pipeline) extends SubmitReadings where
  unique : ∀ j, (p.plane.objects j).requestId = requestId → j = object
  waitsNowhere : ∀ q, p.plane.globalQueue = some q → ∀ tenant, object ∉ q.queueOf tenant
  unstored : ∀ store, p.plane.store = some store → store.contains requestId = false
  unreserved : p.plane.Unreserved requestId
  answers : (dispatch object).faults .firstSave = none ∧ (dispatch object).faults .directory = none

namespace Submission

variable {s : Submission} {requestId modelId : String} {now : Seconds} {r : RequestRecord}

theorem request_facts (built : s.request requestId modelId now = .ok r) :
    r.requestId = requestId ∧ r.tenantId = s.tenantId ∧ r.status = .received := by
  unfold request at built
  split at built
  · split at built
    · cases built
      exact ⟨rfl, rfl, rfl⟩
    · cases built
  · cases built

end Submission

namespace Pipeline

open Plane

variable {p p' : Pipeline} {plane : Plane} {i : ObjectId} {r : RequestRecord} {store : RequestStore}

section Register

variable {readings : SubmitReadings}

/-- The plane that has stored a new request as validated. -/
def registered (readings : SubmitReadings) (r : RequestRecord) (store : RequestStore) (plane : Plane) : Plane :=
  { plane with
    objects := plane.objects.put readings.object (r.enter .validated readings.now)
    store := some ((store.insert r).insert (r.enter .validated readings.now)) }

theorem register_run (stored : plane.store = some store) (fresh : store.contains r.requestId = false)
    (received : r.status = .received) : register readings r plane = (.ok (), registered readings r store plane) := by
  have created : create readings.object r plane = (.ok (), { plane with
      objects := plane.objects.put readings.object r, store := some (store.insert r) }) := by
    unfold create RequestStore.create
    rw [stored]
    dsimp only
    rw [if_neg (by rw [fresh]; decide)]
  have object : (plane.objects.put readings.object r) readings.object = r := Objects.put_self
  have allowed : RequestState.validated ∈ ((plane.objects.put readings.object r) readings.object).status.allowed := by
    rw [object, received]
    decide
  have validated := transition_ok (p := { plane with
    objects := plane.objects.put readings.object r, store := some (store.insert r) }) (i := readings.object) allowed
    readings.now
  dsimp only at validated
  rw [Objects.put_put, object] at validated
  have again : (plane.objects.put readings.object (r.enter .validated readings.now)) readings.object =
      r.enter .validated readings.now := Objects.put_self
  have saved := save_run (p := { plane with
    objects := plane.objects.put readings.object (r.enter .validated readings.now), store := some (store.insert r) })
    (i := readings.object) rfl
    (by dsimp only; rw [again]; exact RequestStore.contains_insert_self)
  dsimp only at saved
  rw [again] at saved
  unfold register
  rw [Attempt.bind_ok created, Attempt.bind_ok validated, saved]
  rfl

/-- The enqueue of an admitted request: it is refused, or the request is queued. -/
theorem enqueue_run (plane : Plane) (admitted : (plane.objects readings.object).status = .admitted) :
    (∃ raised, enqueue readings.object readings.queuedAt plane = (.error raised, plane)) ∨
      ∃ queue, enqueue readings.object readings.queuedAt plane = (.ok (), { plane with
        objects := plane.objects.put readings.object ((plane.objects readings.object).enter .queued readings.queuedAt)
        globalQueue := some queue }) := by
  unfold enqueue onQueue
  rcases Option.eq_none_or_eq_some plane.globalQueue with held | ⟨q, held⟩
  · rw [held]
    exact Or.inl ⟨_, rfl⟩
  rw [held]
  dsimp only
  rcases q.enqueue_cases plane.objects readings.object readings.queuedAt with
    ⟨raised, run, -⟩ | ⟨queue, -, -, ⟨-, run⟩ | ⟨queued, -⟩⟩
  · rw [run]
    exact Or.inl ⟨raised, by rw [← held]⟩
  · rw [run]
    exact Or.inr ⟨_, rfl⟩
  · rw [admitted] at queued
    cases queued

theorem popRequest_cases (readings : SubmitReadings) (plane : Plane) :
    ∃ result queue, popRequest readings.object readings.clocks plane = (result, { plane with globalQueue := queue }) := by
  unfold popRequest onQueue
  rcases Option.eq_none_or_eq_some plane.globalQueue with held | ⟨q, held⟩
  · have same : { plane with globalQueue := none } = plane := by rw [← held]
    rw [held]
    exact ⟨.error _, none, by rw [same]⟩
  rw [held]
  dsimp only
  rcases q.popUntil plane.objects readings.clocks (q.turnsFor plane.objects (plane.objects readings.object).tenantId)
    with ⟨raised | none | selected, q'⟩
  · exact ⟨_, _, rfl⟩
  · exact ⟨_, _, rfl⟩
  · exact ⟨_, _, rfl⟩

/-- A request as it waits in the fair queue. -/
def waiting (readings : SubmitReadings) (r : RequestRecord) : RequestRecord :=
  (r.enter .admitted readings.changedAt).enter .queued readings.queuedAt

/-- An admitted request is queued once a request is popped. Until then the store shows it alive. -/
theorem admit_cases (validated : (plane.objects readings.object).status = .validated)
    (alive : plane.Alive (plane.objects readings.object).requestId) :
    ∃ result plane', admitRequest readings plane = (result, plane') ∧ Touches readings.object plane plane' ∧
      plane'.reservations = plane.reservations ∧ plane'.Alive (plane.objects readings.object).requestId ∧
      ∀ popped, result = .ok popped → (plane'.objects readings.object).status = .queued := by
  obtain ⟨r, object⟩ : ∃ r, plane.objects readings.object = r := ⟨_, rfl⟩
  have allowed : RequestState.admitted ∈ (plane.objects readings.object).status.allowed := by
    rw [validated]
    decide
  have admitted := transition_ok allowed readings.changedAt
  rw [object] at admitted alive
  have entered : (plane.objects.put readings.object (r.enter .admitted readings.changedAt)) readings.object =
      r.enter .admitted readings.changedAt := Objects.put_self
  have queued : (plane.objects.put readings.object (waiting readings r)) readings.object = waiting readings r :=
    Objects.put_self
  unfold admitRequest
  rw [Attempt.bind_ok admitted, object]
  rcases enqueue_run { plane with objects := plane.objects.put readings.object (r.enter .admitted readings.changedAt) }
      (by dsimp only; rw [entered]; rfl) with ⟨raised, run⟩ | ⟨queue, run⟩
  · rw [Attempt.bind_error run]
    exact ⟨_, _, rfl, .of_put rfl rfl (by rw [object]; rfl) (by rw [object]; rfl), rfl, alive,
      fun popped ok => (by cases ok)⟩
  have waits : enqueue readings.object readings.queuedAt
      { plane with objects := plane.objects.put readings.object (r.enter .admitted readings.changedAt) } =
      (.ok (), { plane with
        objects := plane.objects.put readings.object (waiting readings r), globalQueue := some queue }) := by
    dsimp only at run
    rw [Objects.put_put, entered] at run
    exact run
  obtain ⟨entries, copy, stored, found, -⟩ := alive
  have saved := save_run (i := readings.object)
    (p := { plane with objects := plane.objects.put readings.object (waiting readings r), globalQueue := some queue })
    stored (by dsimp only; rw [queued]; exact RequestStore.contains_iff.mpr ⟨copy, found⟩)
  dsimp only at saved
  rw [queued] at saved
  obtain ⟨result, popped, run'⟩ := popRequest_cases readings { plane with
    objects := plane.objects.put readings.object (waiting readings r)
    globalQueue := some queue
    store := some (entries.insert (waiting readings r)) }
  rw [Attempt.bind_ok waits, Attempt.bind_ok saved, run']
  have touches : Touches readings.object plane { plane with
      objects := plane.objects.put readings.object (waiting readings r), globalQueue := some queue } :=
    .of_put rfl rfl (by rw [object]; rfl) (by rw [object]; rfl)
  refine ⟨_, _, rfl, (touches.trans (.of_save saved)).trans (.of_eq rfl rfl), rfl, ?_, fun _ _ => ?_⟩
  · exact alive_of_insert (r := waiting readings r) rfl rfl
  · dsimp only
    rw [queued]
    rfl

end Register

/-- The admission controller refuses a new request. -/
def Refuses (readings : SubmitReadings) (r : RequestRecord) (p : Pipeline) : Prop :=
  (p.admission.decide (r.enter .validated readings.now) (some p.model) p.plane.registry.list
    readings.decidedAt).1.admitted = false

/-- Nothing is stored but under one request id. -/
def Files (requestId : String) (p p' : Pipeline) : Prop :=
  ∀ other, other ≠ requestId → p'.plane.stored other = p.plane.stored other

theorem registered_stored (readings : SubmitReadings) (stored : plane.store = some store) {other : String}
    (differ : other ≠ r.requestId) : (registered readings r store plane).stored other = plane.stored other := by
  unfold registered Plane.stored
  rw [stored, Option.bind_some, Option.bind_some, RequestStore.get?_insert, RequestRecord.enter_requestId,
    if_neg differ, RequestStore.get?_insert, if_neg differ]

theorem Closed.of_touches {plane' : Plane} {admission : TenantAdmissionController} {requestId : String}
    (ended : plane'.Ended i) (named : (plane'.objects i).requestId = requestId)
    (unadmitted : admission.reserved.contains requestId = false) (unreserved : plane.Unreserved requestId)
    (reserved : plane'.reservations = plane.reservations) :
    Closed { p with plane := plane', admission := admission } i := by
  subst named
  refine ⟨ended, unadmitted, ?_⟩
  unfold Unreserved
  rw [reserved]
  exact unreserved

/-- The ways a submission comes to a popped request, or fails before. -/
theorem intake_cases (inputs : SubmitInputs p) {s : Submission}
    (built : s.request inputs.requestId p.model.modelId inputs.now = .ok r) (stored : p.plane.store = some store) :
    (Refuses inputs.toSubmitReadings r p ∧ ∃ raised p', intake inputs.toSubmitReadings r p = (.error raised, p') ∧
      Closed p' inputs.object ∧ Files r.requestId p p') ∨
    ¬Refuses inputs.toSubmitReadings r p ∧
      ((∃ raised p', intake inputs.toSubmitReadings r p = (.error raised, p') ∧
          ¬Closed p' inputs.object ∧ Files r.requestId p p') ∨
        ∃ selected p', intake inputs.toSubmitReadings r p = (.ok selected, p') ∧
          Popped inputs.toSubmitReadings inputs.object p' ∧
          (p'.plane.objects inputs.object).requestId = r.requestId ∧ Files r.requestId p p') := by
  obtain ⟨named, -, received⟩ := Submission.request_facts built
  have fresh : store.contains r.requestId = false := by
    rw [named]
    exact inputs.unstored store stored
  have object : (registered inputs.toSubmitReadings r store p.plane).objects inputs.object =
      r.enter .validated inputs.now := Objects.put_self
  have alive : (registered inputs.toSubmitReadings r store p.plane).Alive
      ((registered inputs.toSubmitReadings r store p.plane).objects inputs.object).requestId := by
    rw [object]
    exact alive_of_insert rfl rfl
  have unreserved : (registered inputs.toSubmitReadings r store p.plane).Unreserved r.requestId := by
    rw [named]
    exact inputs.unreserved
  have validated : ((registered inputs.toSubmitReadings r store p.plane).objects inputs.object).status = .validated := by
    rw [object]
    rfl
  have requestId : ((registered inputs.toSubmitReadings r store p.plane).objects inputs.object).requestId =
      r.requestId := by
    rw [object]
    rfl
  unfold intake
  rw [Attempt.bind_ok (onPlane_run (register_run stored fresh received))]
  have decided : decideAdmission inputs.object inputs.decidedAt
      { p with plane := registered inputs.toSubmitReadings r store p.plane } =
      (.ok (p.admission.decide (r.enter .validated inputs.now) (some p.model) p.plane.registry.list inputs.decidedAt).1,
        { p with
          plane := registered inputs.toSubmitReadings r store p.plane
          admission := (p.admission.decide (r.enter .validated inputs.now) (some p.model) p.plane.registry.list
            inputs.decidedAt).2 }) := by
    unfold decideAdmission
    dsimp only
    rw [object]
    rfl
  have files : ∀ {plane' : Plane} {admission : TenantAdmissionController},
      Touches inputs.object (registered inputs.toSubmitReadings r store p.plane) plane' →
      Files r.requestId p { p with plane := plane', admission := admission } := by
    intro plane' admission touches other differ
    exact (touches.stored other (requestId ▸ differ)).trans (registered_stored _ stored differ)
  rw [Attempt.bind_ok decided]
  by_cases refused : Refuses inputs.toSubmitReadings r p
  · have unadmits := refused
    unfold Refuses at unadmits
    obtain ⟨same, unadmitted⟩ := TenantAdmissionController.decide_refused refused
    obtain ⟨plane, run, touches, reserved, ended⟩ := close_run (i := inputs.object) .rejected
      (by rw [validated]; decide) rfl alive inputs.changedAt
    rw [if_pos unadmits, Attempt.bind_ok (onPlane_run run), same]
    refine Or.inl ⟨refused, _, _, rfl, ?_⟩
    exact ⟨.of_touches ended (touches.requestId.trans requestId) unadmitted unreserved reserved, files touches⟩
  · have admits := refused
    unfold Refuses at admits
    obtain ⟨result, plane, run, touches, reserved, alive', queued⟩ := admit_cases validated alive
    rw [if_neg admits, onPlane_run run]
    refine Or.inr ⟨refused, ?_⟩
    cases result with
    | error raised =>
      refine Or.inl ⟨_, _, rfl, fun closed => ?_, files touches⟩
      exact alive'.not_ended touches.requestId closed.ended
    | ok selected =>
      refine Or.inr ⟨_, _, rfl, ⟨⟨queued selected rfl, ?_, ?_, inputs.answers.1, inputs.answers.2⟩, ?_⟩,
        touches.requestId.trans requestId, files touches⟩
      · dsimp only
        rw [touches.requestId]
        exact alive'
      · dsimp only
        rw [touches.requestId, requestId]
        unfold Unreserved
        rw [reserved]
        exact unreserved
      · intro j same
        by_contra differ
        dsimp only at same
        rw [touches.others j differ, touches.requestId, requestId, named] at same
        refine differ (inputs.unique j ?_)
        rw [← same]
        exact congrArg RequestRecord.requestId (Objects.put_of_ne differ).symm

end Pipeline

end ServingPlatform

namespace ServingPlatform.Pipeline

open Plane

variable {p p' : Pipeline} {r : RequestRecord} {store : RequestStore} {readings : SubmitReadings} {selected : ObjectId}
  {s : Submission}

/-- With the request of another submission in hand, a submission fails its own. -/
theorem serve_foreign (popped : Popped readings readings.object p) (foreign : selected ≠ readings.object) :
    ∃ raised p', serve readings (p.plane.objects readings.object).requestId selected p = (.error raised, p') ∧
      Closed p' readings.object ∧ (p'.plane.objects readings.object).requestId =
        (p.plane.objects readings.object).requestId ∧ Files (p.plane.objects readings.object).requestId p p' := by
  have other : (p.plane.objects selected).requestId ≠ (p.plane.objects readings.object).requestId :=
    fun same => foreign (popped.unique selected same)
  obtain ⟨plane, run, touches, reserved, ended⟩ := close_run (i := readings.object) .failed
    (by rw [popped.ready.queued]; decide) rfl popped.ready.alive readings.changedAt
  unfold serve
  rw [Attempt.bind_ok (onPlane_run current_run), if_pos other, Attempt.bind_ok (onPlane_run run),
    Attempt.bind_ok Attempt.run_update]
  refine ⟨_, _, rfl, ?_, touches.requestId, touches.stored⟩
  exact .of_touches ended touches.requestId (TenantAdmissionController.release_contains _ _)
    popped.ready.unreserved reserved

theorem serve_own (requestId : String) (named : (p.plane.objects readings.object).requestId = requestId) :
    serve readings requestId readings.object p = execute readings readings.object p := by
  unfold serve
  rw [Attempt.bind_ok (onPlane_run current_run), if_neg (not_not.mpr named)]

theorem serve_closed_iff (popped : Popped readings readings.object p) :
    Closed (serve readings (p.plane.objects readings.object).requestId selected p).2 readings.object ↔
      selected ≠ readings.object ∨ ¬Abandons readings readings.object p := by
  by_cases own : selected = readings.object
  · subst own
    rw [serve_own _ rfl]
    obtain ⟨result, p', run, named, unreserved, unadmitted, -, ended⟩ := execute_closed popped
    rw [run]
    constructor
    · exact fun closed => Or.inr (ended.mp closed.ended)
    · rintro (foreign | kept)
      · exact absurd rfl foreign
      · exact ⟨ended.mpr kept, by rw [named]; exact unadmitted, by rw [named]; exact unreserved⟩
  · obtain ⟨raised, p', run, closed, -⟩ := serve_foreign popped own
    rw [run]
    exact ⟨fun _ => Or.inl own, fun _ => closed⟩

/-- After `submit` its request is over, stored as it is and without any
reservation, exactly if it was refused, or a request was popped and the
submitted one is not ended by its dispatch or its worker. -/
theorem submit_closed_iff (inputs : SubmitInputs p)
    (built : s.request inputs.requestId p.model.modelId inputs.now = .ok r) (stored : p.plane.store = some store) :
    Closed (submit inputs.toSubmitReadings s p).2 inputs.object ↔
      Refuses inputs.toSubmitReadings r p ∨
      ∃ selected p', intake inputs.toSubmitReadings r p = (.ok selected, p') ∧
        (selected ≠ inputs.object ∨ ¬Abandons inputs.toSubmitReadings inputs.object p') := by
  unfold submit
  rw [built]
  dsimp only
  rcases intake_cases inputs built stored with ⟨refused, raised, p', run, closed, -⟩ |
    ⟨admitted, ⟨raised, p', run, unclosed, -⟩ | ⟨selected, p', run, popped, named, -⟩⟩
  · rw [Attempt.bind_error run]
    exact ⟨fun _ => Or.inl refused, fun _ => closed⟩
  · rw [Attempt.bind_error run]
    refine ⟨fun closed => absurd closed unclosed, ?_⟩
    rintro (refused | ⟨selected, other, run', -⟩)
    · exact absurd refused admitted
    · cases run.symm.trans run'
  · rw [Attempt.bind_ok run, ← named, serve_closed_iff popped]
    constructor
    · exact fun kept => Or.inr ⟨selected, p', run, kept⟩
    · rintro (refused | ⟨other, p'', run', kept⟩)
      · exact absurd refused admitted
      · cases run.symm.trans run'
        exact kept

namespace Unanswered

/-- A pipeline with a warm worker and one tenant. -/
def pipeline : Pipeline where
  plane := { Rejected.plane RequestStore.empty ["worker"] with
    workers := fun _ => { Rejected.worker with residentModels := ["model"] }
    registry := { (Rejected.plane .empty []).registry with
      workers := ⟨[("worker", { Rejected.snapshot with residentModels := ["model"] })], by decide⟩ }
    globalQueue := some Rejected.globalQueue }
  model := Rejected.model
  admission := {
    tenants := Rejected.tenants
    globalQueueCapacity := 2
    queued := .empty
    running := .empty
    tokens := .empty
    reserved := .empty
    positive := Nat.two_pos }

def submission : Submission := ⟨"tenant", "hello", 1, 2, 0, 0, .infinite⟩

/-- The runtime fails to generate. -/
def answers : SubmitReadings where
  requestId := "submitted"
  object := 1
  now := 1
  decidedAt := 1
  changedAt := 1
  queuedAt := 1
  clocks := fun _ _ => 1
  dispatch := fun _ => Rejected.readings _ none
  batch := ⟨1, .error (runtimeError "generation failed"), 1, fun _ => 1⟩
  endedAt := 1

/-- No object bears the new id, and nothing waits. -/
def inputs : SubmitInputs pipeline :=
  { answers with
    unique := fun j same => absurd (show "request" = "submitted" from same) (by decide)
    waitsNowhere := by
      intro q held tenant waits
      cases held
      obtain ⟨queue, entry, member⟩ := WeightedFairRequestQueue.queueOf_entry waits
      cases List.mem_singleton.mp entry
      cases member
    unstored := by
      intro store held
      cases held
      rfl
    unreserved := by
      intro book held
      cases held
      rfl
    answers := ⟨rfl, rfl⟩ }

/-- The request of the submission. -/
def request : RequestRecord :=
  { Rejected.request with
    requestId := "submitted"
    createdAt := 1
    status := .received
    transitionTimestamps := ⟨[(.received, 1)], by decide⟩
    identified := by decide
    stamped := by decide }

end Unanswered

open Unanswered

/-- When the runtime fails, `submit` leaves a request that failed queued in the store. -/
theorem failed_request_stays_queued : ∃ p : Pipeline, ∃ inputs : SubmitInputs p, ∃ s r store,
    s.request inputs.requestId p.model.modelId inputs.now = .ok r ∧ p.plane.store = some store ∧
      ¬Closed (submit inputs.toSubmitReadings s p).2 inputs.object := by
  refine ⟨pipeline, inputs, submission, request, RequestStore.empty, rfl, rfl, fun closed => ?_⟩
  obtain ⟨entries, copy, held, found, isOver, -⟩ := closed.ended
  have shown : (submit inputs.toSubmitReadings submission pipeline).2.plane.store.map (fun entries =>
      entries.requests.entries.map fun entry => entry.2.status) = some [.queued] := by decide +kernel
  rw [held, Option.map_some] at shown
  have status : copy.status ∈ [RequestState.queued] :=
    Option.some.inj shown ▸ List.mem_map_of_mem (f := fun entry : String × RequestRecord => entry.2.status)
      (Dict.get?_eq_some_iff.mp found)
  unfold RequestRecord.terminal at isOver
  rw [List.mem_singleton.mp status] at isOver
  cases isOver

theorem submit_closed_iff_failed : ∃ r, submission.request inputs.requestId pipeline.model.modelId inputs.now = .ok r ∧
    (Closed (submit inputs.toSubmitReadings submission pipeline).2 inputs.object ↔
      Refuses inputs.toSubmitReadings r pipeline ∨
      ∃ selected p', intake inputs.toSubmitReadings r pipeline = (.ok selected, p') ∧
        (selected ≠ inputs.object ∨ ¬Abandons inputs.toSubmitReadings inputs.object p')) := by
  have built : submission.request inputs.requestId pipeline.model.modelId inputs.now = .ok request := rfl
  have stored : pipeline.plane.store = some RequestStore.empty := rfl
  exact ⟨request, built, submit_closed_iff inputs built stored⟩

end ServingPlatform.Pipeline
