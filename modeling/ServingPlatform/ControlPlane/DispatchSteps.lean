import ServingPlatform.ControlPlane.Dispatch

namespace ServingPlatform

/-- `request.status in {ADMITTED, QUEUED}`. -/
def RequestRecord.Schedulable (r : RequestRecord) : Prop := r.status = .admitted ∨ r.status = .queued

/-- A request as `assign` leaves it. -/
def RequestRecord.assignedTo (r : RequestRecord) (workerId : String) (now : Seconds) : RequestRecord :=
  (r.assign (some workerId)).countAttempt.enter .assigned now

namespace ManagedWorker

variable {w woken : ManagedWorker} {objects : Objects} {model : ModelDefinition} {answers : LoadAnswers}
  {meanwhile : ManagedWorker → ManagedWorker}

/-- The requests that wait at a worker, and those that run. -/
def holdings (w : ManagedWorker) : List ObjectId × Dict String ObjectId := (w.queue, w.activeRequests)

theorem beginLoad_holdings (w woken : ManagedWorker) (objects : Objects) (model : ModelDefinition)
    (answers : LoadAnswers) :
    (w.beginLoad woken objects model answers).2.holdings = w.holdings ∨
      (w.beginLoad woken objects model answers).2.holdings = woken.holdings := by
  unfold beginLoad
  dsimp only
  split
  · exact Or.inl rfl
  split
  · exact Or.inl rfl
  split
  · split
    · exact Or.inr rfl
    split
    · exact Or.inr rfl
    split
    · exact Or.inr rfl
    split <;> exact Or.inr rfl
  · split
    · exact Or.inl rfl
    split
    · exact Or.inl rfl
    split <;> exact Or.inl rfl

theorem foldl_restore_holdings (now : Seconds) (survivors : List (String × ModelDefinition)) (w : ManagedWorker) :
    (survivors.foldl (restore now) w).holdings = w.holdings := by
  induction survivors generalizing w with
  | nil => rfl
  | cons e rest ih => exact ih (restore now w e)

theorem endLoad_holdings (w : ManagedWorker) (model : ModelDefinition) (evictions : List (String × ModelDefinition))
    (attempt : Nat) (answers : LoadAnswers) : (w.endLoad model evictions attempt answers).holdings = w.holdings := by
  unfold endLoad
  dsimp only
  split
  · rfl
  · exact foldl_restore_holdings _ _ _

/-- A load leaves the requests of a worker as it or other threads have them. -/
theorem loadModel_holdings {P : List ObjectId × Dict String ObjectId → Prop} (before : P w.holdings) (wakes : P woken.holdings)
    (others : ∀ w : ManagedWorker, P w.holdings → P (meanwhile w).holdings) :
    P (w.loadModel woken meanwhile objects model answers).2.holdings := by
  have started : P (w.beginLoad woken objects model answers).2.holdings := by
    rcases beginLoad_holdings w woken objects model answers with same | same
    · rw [same]
      exact before
    · rw [same]
      exact wakes
  unfold loadModel
  split
  · rename_i run
    rw [run] at started
    exact started
  · rename_i run
    rw [run] at started
    exact started
  · rename_i evictions attempt w' run
    rw [run] at started
    have ended : P ((meanwhile w').endLoad model evictions attempt answers).holdings := by
      rw [endLoad_holdings]
      exact others w' started
    dsimp only
    split <;> exact ended

/-- An assigned request is accepted, or refused with an error that rejects the handoff. -/
theorem enqueueRequest_cases {i : ObjectId} (now : Seconds) {p : WorkerProcess}
    (assigned : (p.objects i).status = .assigned) :
    (∃ raised, enqueueRequest i now p = (.error raised, p) ∧ raised.rejectsHandoff = true) ∨
      enqueueRequest i now p = (.ok (), {
        worker := { p.worker with queue := p.worker.queue ++ [i] }
        objects := p.objects.put i ((p.objects i).enter .queued now) }) := by
  unfold enqueueRequest
  dsimp only
  split
  · exact Or.inl ⟨_, rfl, rfl⟩
  split
  · exact Or.inl ⟨_, rfl, rfl⟩
  split
  · exact Or.inl ⟨_, rfl, rfl⟩
  split
  · exact Or.inl ⟨_, rfl, rfl⟩
  rw [if_neg (not_not.mpr assigned)]
  exact Or.inr rfl

end ManagedWorker

namespace Plane

variable {i : ObjectId} {inputs : DispatchInputs i} {p p' : Plane} {workerId : String} {now : Seconds}

theorem transition_ok {target : RequestState} (allowed : target ∈ (p.objects i).status.allowed) (now : Seconds) :
    transition i target now p = (.ok (), { p with objects := p.objects.put i ((p.objects i).enter target now) }) := by
  unfold transition onObjects Attempt.zoom Objects.transition
  rw [RequestRecord.transition_ok allowed]

@[simp] theorem modify_run (change : RequestRecord → RequestRecord) :
    modify i change p = (.ok (), { p with objects := p.objects.put i (change (p.objects i)) }) := rfl

@[simp] theorem current_run : current i p = (.ok (p.objects i), p) := rfl

theorem setWorker_self (p : Plane) (workerId : String) : p.setWorker workerId (p.workers workerId) = p := by
  have workers : (fun other => if other = workerId then p.workers workerId else p.workers other) = p.workers := by
    funext other
    split
    · rename_i found
      rw [found]
    · rfl
  unfold setWorker
  rw [workers]

theorem setWorker_setWorker (p : Plane) (workerId : String) (w w' : ManagedWorker) :
    (p.setWorker workerId w).setWorker workerId w' = p.setWorker workerId w' := by
  unfold setWorker
  congr 1
  funext other
  by_cases same : other = workerId
  · simp only [if_pos same]
  · simp only [if_neg same]

theorem onWorker_bind {α β : Type} (workerId : String) (m : Attempt Raised WorkerProcess α)
    (f : α → Attempt Raised WorkerProcess β) :
    onWorker workerId (m >>= f) = onWorker workerId m >>= fun a => onWorker workerId (f a) := by
  refine Attempt.zoom_bind (fun process p => ?_) fun process process' p => ?_
  · unfold setWorker
    simp
  · exact congrArg (fun p : Plane => { p with objects := process'.objects })
      (setWorker_setWorker p workerId process.worker process'.worker)

theorem onWorker_pure {α : Type} (workerId : String) (a : α) :
    onWorker workerId (pure a) p = (.ok a, p) := by
  have same := congrArg (fun q : Plane => { q with objects := p.objects }) (setWorker_self p workerId)
  exact congrArg (Prod.mk _) same

/-- The stored record of a request id. -/
def stored (p : Plane) (requestId : String) : Option RequestRecord := p.store.bind fun store => store.get? requestId

/-- A placement leaves all as it is, or it books what it decides. -/
theorem place_cases (inputs : DispatchInputs i) (p : Plane) :
    (∃ raised, place inputs p = (.error raised, p)) ∨
      ∃ decision book, place inputs p = (.ok decision, { p with reservations := book }) ∧
        (p.reservations = none ∧ book = none ∨
          ∃ entries reservation, p.reservations = some entries ∧
            entries.contains (p.objects i).requestId = false ∧
            book = some (entries.insert (p.objects i).requestId reservation)) := by
  unfold place
  cases inputs.faults .placement with
  | some raised => exact Or.inl ⟨raised, rfl⟩
  | none =>
    cases booked : p.reservations with
    | none =>
      dsimp only
      cases inputs.policy (p.objects i) p.registry.list with
      | error raised => exact Or.inl ⟨raised, rfl⟩
      | ok decision => exact Or.inr ⟨decision, none, by rw [← booked], Or.inl ⟨rfl, rfl⟩⟩
    | some book =>
      dsimp only
      rcases book.selectAndReserve_cases p.registry p.reservationModels (p.objects i) inputs.policy with
        ⟨raised, run⟩ | ⟨decision, reservation, fresh, -, -, run⟩
      · rw [run, ← booked]
        exact Or.inl ⟨raised, rfl⟩
      · rw [run]
        exact Or.inr ⟨decision, _, rfl, Or.inr ⟨book, reservation, rfl, fresh, rfl⟩⟩

/-- The ways an assignment ends. -/
inductive Assigned (inputs : DispatchInputs i) (p : Plane) : Except Raised Assignment → Plane → Prop
  | unschedulable {raised : Raised} (status : ¬(p.objects i).Schedulable) : Assigned inputs p (.error raised) p
  | expired {raised : Raised} (schedulable : (p.objects i).Schedulable)
      (late : (p.objects i).deadline.expired inputs.assignedAt = true) :
      Assigned inputs p (.error raised)
        { p with objects := p.objects.put i ((p.objects i).enter .timedOut inputs.assignedAt) }
  | unplaced {raised : Raised} (schedulable : (p.objects i).Schedulable)
      (early : (p.objects i).deadline.expired inputs.assignedAt = false)
      (refused : (place inputs p).1 = .error raised) : Assigned inputs p (.error raised) p
  | placed {decision : RoutingDecision} {book : Option PlacementReservations} {assignment : Assignment}
      (schedulable : (p.objects i).Schedulable)
      (early : (p.objects i).deadline.expired inputs.assignedAt = false)
      (decided : place inputs p = (.ok decision, { p with reservations := book }))
      (chosen : assignment.workerId = decision.selectedWorkerId)
      (named : assignment.requestId = (p.objects i).requestId) :
      Assigned inputs p (.ok assignment) { p with
        objects := p.objects.put i ((p.objects i).assignedTo decision.selectedWorkerId inputs.assignedAt)
        reservations := book }

theorem assign_cases (inputs : DispatchInputs i) (p : Plane) :
    ∃ result p', assign inputs p = (result, p') ∧ Assigned inputs p result p' := by
  unfold assign
  rw [Attempt.bind_ok current_run]
  by_cases schedulable : (p.objects i).Schedulable
  · have status : ¬((p.objects i).status ≠ .admitted ∧ (p.objects i).status ≠ .queued) := fun wrong =>
      schedulable.elim wrong.1 wrong.2
    rw [if_neg status]
    by_cases late : (p.objects i).deadline.expired inputs.assignedAt = true
    · have allowed : RequestState.timedOut ∈ (p.objects i).status.allowed := by
        rcases schedulable with same | same <;> rw [same] <;> decide
      rw [if_pos late, Attempt.bind_ok (transition_ok allowed _)]
      exact ⟨_, _, rfl, .expired schedulable late⟩
    have early : (p.objects i).deadline.expired inputs.assignedAt = false := by simpa using late
    rw [if_neg late]
    rcases place_cases inputs p with ⟨raised, run⟩ | ⟨decision, book, run, -⟩
    · rw [Attempt.bind_error run]
      exact ⟨_, _, rfl, .unplaced schedulable early (by rw [run])⟩
    · have allowed : RequestState.assigned ∈ (p.objects i).status.allowed := by
        rcases schedulable with same | same <;> rw [same] <;> decide
      rw [Attempt.bind_ok run, Attempt.bind_ok (modify_run _), Attempt.bind_ok (transition_ok _ _)]
      · dsimp only [Attempt.run_pure]
        rw [Objects.put_put, Objects.put_self]
        exact ⟨_, _, rfl, .placed schedulable early run rfl rfl⟩
      · dsimp only
        rw [Objects.put_self]
        exact allowed
  · have status : (p.objects i).status ≠ .admitted ∧ (p.objects i).status ≠ .queued :=
      ⟨fun same => schedulable (Or.inl same), fun same => schedulable (Or.inr same)⟩
    rw [if_pos status]
    exact ⟨_, _, rfl, .unschedulable schedulable⟩

/-- A save is refused without effect, or it stores a copy where there is a store. -/
theorem save_cases (fault : Option Raised) (i : ObjectId) (p : Plane) :
    (∃ raised entries, p.store = some entries ∧ save fault i p = (.error raised, p) ∧
      (fault ≠ none ∨ entries.contains (p.objects i).requestId = false)) ∨
      ∃ store, save fault i p = (.ok (), { p with store := store }) ∧
        (p.store = none ∧ store = none ∨
          ∃ entries, p.store = some entries ∧ fault = none ∧ entries.contains (p.objects i).requestId = true ∧
            store = some (entries.insert (p.objects i))) := by
  unfold save
  cases held : p.store with
  | none =>
    have same : { p with store := none } = p := by rw [← held]
    exact Or.inr ⟨none, by rw [same], Or.inl ⟨rfl, rfl⟩⟩
  | some entries =>
    cases fault with
    | some raised => exact Or.inl ⟨raised, entries, rfl, rfl, Or.inl (by simp)⟩
    | none =>
      have same : { p with store := some entries } = p := by rw [← held]
      dsimp only [RequestStore.save]
      by_cases known : entries.contains (p.objects i).requestId = true
      · rw [if_pos known]
        exact Or.inr ⟨_, rfl, Or.inr ⟨entries, rfl, rfl, known, rfl⟩⟩
      · rw [if_neg known]
        exact Or.inl ⟨_, entries, rfl, by rw [same], Or.inr (by simpa using known)⟩

end Plane

end ServingPlatform
