import ServingPlatform.ControlPlane.BatchSteps
import ServingPlatform.ControlPlane.RecoveryRuns

namespace ServingPlatform.Plane

variable {i : ObjectId} {p : Plane} {workerId : String}

/-- The request id of each request object. -/
def names (p : Plane) : ObjectId → String := fun j => (p.objects j).requestId

theorem names_put {r : RequestRecord} (named : r.requestId = (p.objects i).requestId) :
    ({ p with objects := p.objects.put i r } : Plane).names = p.names := by
  funext j
  change (p.objects.put i r j).requestId = (p.objects j).requestId
  rcases eq_or_ne j i with rfl | differ
  · rw [Objects.put_self, named]
  · rw [Objects.put_of_ne differ]

theorem modify_names {change : RequestRecord → RequestRecord} (keeps : ∀ r, (change r).requestId = r.requestId) :
    (modify i change).Keeps names :=
  fun _ => names_put (keeps _)

theorem addReason_names (reason : String) : (modify i fun r => r.addReason reason).Keeps names :=
  modify_names fun _ => rfl

theorem transition_names (target : RequestState) (now : Seconds) : (transition i target now).Keeps names := by
  intro p
  rcases transition_cases i target now p with ⟨-, run⟩ | ⟨-, raised, run⟩
  · rw [run]
    exact names_put rfl
  · rw [run]

theorem save_names (fault : Option Raised) (i : ObjectId) : (save fault i).Keeps names := by
  intro p
  rcases save_cases fault i p with ⟨raised, -, -, run, -⟩ | ⟨store, run, -⟩
  · rw [run]
  · rw [run]
    rfl

theorem assign_names (inputs : DispatchInputs i) : (assign inputs).Keeps names := by
  intro p
  obtain ⟨result, p', run, assigned⟩ := assign_cases inputs p
  rw [run]
  cases assigned with
  | unschedulable => rfl
  | unplaced => rfl
  | expired => exact names_put rfl
  | @placed _ book =>
    exact names_put (p := { p with reservations := book }) rfl

theorem giveBack_names (inputs : DispatchInputs i) : (giveBack inputs).Keeps names := by
  refine .bind (Attempt.keeps_read _) fun r => ?_
  split
  · exact Attempt.keeps_pure _
  · exact .bind (modify_names fun _ => rfl) fun _ => transition_names _ _

theorem handOff_names (inputs : DispatchInputs i) (workerId : String) (reachable : Bool) :
    (handOff inputs workerId reachable).Keeps names := by
  refine .bind (fun p => ?_) fun _ => .bind (.bind (Attempt.keeps_read _) fun r => ?_) fun _ =>
    .bind (fun p => ?_) fun _ => save_names _ _
  · unfold names
    rw [(prepare_kept inputs workerId reachable p).objects]
  · split
    · exact (transition_names _ _).bind fun _ => Attempt.keeps_raise _
    · exact Attempt.keeps_pure _
  · unfold faultOr
    cases inputs.faults .enqueue with
    | some raised => rfl
    | none =>
      unfold Option.elim onWorker Attempt.zoom ManagedWorker.enqueueRequest
      dsimp only
      split
      · rfl
      split
      · rfl
      split
      · rfl
      split
      · rfl
      split
      · rfl
      · exact names_put (p := p.setWorker workerId _) rfl

/-- A dispatch renames no request. -/
theorem dispatch_names (inputs : DispatchInputs i) : (dispatch inputs).Keeps names := by
  refine (assign_names inputs).bind fun a => (save_names _ _).bind fun _ => .bind ?_ fun reachable => .bind ?_ fun _ =>
    Attempt.keeps_pure _
  · unfold faultOr
    cases inputs.faults .directory with
    | some raised => exact Attempt.keeps_raise _
    | none => exact Attempt.keeps_read _
  · refine .ensure (.handle (handOff_names inputs a.workerId reachable) fun raised clause found => ?_) fun _ => rfl
    unfold rejectHandoff at found
    split at found
    · cases found
      exact (giveBack_names inputs).bind fun _ => Attempt.keeps_raise _
    · cases found

theorem beginBatch_names (workerId : String) (now : Seconds) :
    (onWorker workerId (ManagedWorker.beginBatch now)).Keeps names := by
  intro p
  funext j
  have opened : ∀ q : WorkerProcess, (q.objects j).Opened now ((ManagedWorker.beginBatch now q).2.objects j) := by
    intro q
    rcases ManagedWorker.beginBatch_cases now q with ⟨raised, q', run, opened⟩ | ⟨q', run, opened⟩ |
      ⟨selected, q', -, run, opened, -⟩ <;> rw [run] <;> exact opened j
  exact (opened ⟨p.workers workerId, p.objects⟩).requestId

theorem closeAll_names (target : RequestState) (at_ : ObjectId → Seconds) (selected : List ObjectId) :
    (ManagedWorker.closeAll target at_ selected).Keeps fun q j => (q.objects j).requestId := by
  induction selected with
  | nil => exact Attempt.keeps_pure _
  | cons first rest induct =>
    intro q
    unfold ManagedWorker.closeAll
    split
    · exact induct q
    rcases (q.objects first).transition_cases target (at_ first) with ⟨-, run⟩ | ⟨-, raised, run, -⟩
    · rw [run]
      refine (induct _).trans ?_
      funext j
      dsimp only
      rcases eq_or_ne j first with rfl | differ
      · rw [Objects.put_self]
        rfl
      · rw [Objects.put_of_ne differ]
    · rw [run]

theorem finishBatch_names (workerId : String) (selected : List ObjectId)
    (generated : Except Raised (List RuntimeResult)) (failedAt : Seconds) (completedAt : ObjectId → Seconds) :
    (onWorker workerId (ManagedWorker.finishBatch selected generated failedAt completedAt)).Keeps names := by
  have kept : (ManagedWorker.finishBatch selected generated failedAt completedAt).Keeps fun q j =>
      (q.objects j).requestId := by
    intro q
    unfold ManagedWorker.finishBatch
    dsimp only
    split
    · exact Attempt.Keeps.ensure ((closeAll_names _ _ _).bind fun _ => Attempt.keeps_raise _) (fun _ => rfl) q
    · exact ((closeAll_names _ _ _).bind fun _ => Attempt.keeps_read _) (ManagedWorker.retire selected q)
  exact fun p => kept ⟨p.workers workerId, p.objects⟩

theorem requeue_names (now : Seconds) : (requeue i now).Keeps names := by
  intro p
  unfold requeue
  split
  · exact (transition_names _ _).bind (fun _ => (addReason_names _).bind fun _ => Attempt.keeps_pure _) p
  · rename_i q held
    rcases q.enqueue_cases p.objects i now with ⟨raised, run, -⟩ | ⟨queue, -, -, ⟨-, run⟩ | ⟨-, run⟩⟩
    · rw [run]
      rfl
    · rw [run]
      exact names_put (p := { p with globalQueue := some (q.join p.objects i queue) }) rfl
    · rw [run]
      rfl

theorem recoverRequest_names (inputs : RecoveryReadings) (workerId : String) (maxAttempts : Int) (requestId : String) :
    (recoverRequest inputs workerId maxAttempts requestId).Keeps names := by
  refine .bind (Attempt.keeps_read _) fun r => ?_
  split
  · exact Attempt.keeps_pure _
  refine .bind ?_ fun _ => (save_names _ _).bind fun _ => Attempt.keeps_pure _
  unfold settle
  dsimp only
  split
  · exact (transition_names _ _).bind fun _ => (addReason_names _).bind fun _ => Attempt.keeps_pure _
  · refine .bind ?_ fun _ => .bind (modify_names fun _ => rfl) fun _ => requeue_names _
    split
    · exact transition_names _ _
    · exact Attempt.keeps_pure _

end ServingPlatform.Plane

namespace ServingPlatform.Plane

variable {inputs : RecoveryReadings} {maxAttempts : Int} {p p' : Plane} {i : ObjectId} {r : RequestRecord}
  {workerId requestId : String}

/-- A request object waits in the global queue. -/
def Waits (p : Plane) (i : ObjectId) : Prop :=
  ∃ q, p.globalQueue = some q ∧ i ∈ q.queueOf (p.objects i).tenantId

/-- The global queue accepts a record that a recovery has detached from its worker. -/
def Takes (p : Plane) (r : RequestRecord) : Prop :=
  ∃ q queue, p.globalQueue = some q ∧ q.queues.get? r.tenantId = some queue ∧
    (r.status = .assigned ∨ r.Schedulable) ∧ ∀ j ∈ queue, p.names j ≠ r.requestId

/-- A recovery tries a record again: it was lost with the worker, shows no sign
of a start, has its payload, attempts and time left, and the queue takes it. -/
structure Retries (inputs : RecoveryReadings) (workerId : String) (maxAttempts : Int) (p : Plane) (r : RequestRecord) :
    Prop where
  lost : LostWith workerId r
  unstarted : inputs.loss maxAttempts r = none
  taken : p.Takes r

/-- What decides whether a request object waits. -/
def queueView (i : ObjectId) (p : Plane) : Option WeightedFairRequestQueue × String :=
  (p.globalQueue, (p.objects i).tenantId)

theorem waits_congr (same : queueView i p' = queueView i p) : p'.Waits i ↔ p.Waits i := by
  obtain ⟨queue, tenant⟩ := Prod.mk.inj same
  unfold Waits
  rw [queue, tenant]

theorem queueView_put {r : RequestRecord} (tenant : r.tenantId = (p.objects i).tenantId) :
    queueView i { p with objects := p.objects.put i r } = queueView i p := by
  unfold queueView
  dsimp only
  rw [Objects.put_self, tenant]

theorem transition_queueView (target : RequestState) (now : Seconds) : (transition i target now).Keeps (queueView i) := by
  intro p
  rcases transition_cases i target now p with ⟨-, run⟩ | ⟨-, raised, run⟩
  · rw [run]
    exact queueView_put rfl
  · rw [run]

theorem save_queueView (fault : Option Raised) (i : ObjectId) : (save fault i).Keeps (queueView i) := by
  intro p
  rcases save_cases fault i p with ⟨raised, -, -, run, -⟩ | ⟨store, run, -⟩
  · rw [run]
  · rw [run]
    rfl

theorem takes_detached {q : WeightedFairRequestQueue} (now : Seconds) (current : p.objects i = r)
    (held : p.globalQueue = some q) :
    p.Takes r ↔ ((q.enqueue (p.objects.put i (detached r now)) i now).1 = .ok ()) := by
  obtain ⟨status, named, tenant, -⟩ := detached_facts r now
  have names : ({ p with objects := p.objects.put i (detached r now) } : Plane).names = p.names :=
    names_put (named.trans (by rw [current]))
  have schedulable : (detached r now).Schedulable ↔ r.status = .assigned ∨ r.Schedulable := by
    unfold RequestRecord.Schedulable
    rw [status]
    by_cases assigned : r.status = .assigned
    · simp [assigned]
    · simp [assigned]
  rw [WeightedFairRequestQueue.enqueue_ok_iff, Objects.put_self, schedulable, tenant, named]
  unfold Takes
  constructor
  · rintro ⟨q', queue, same, found, able, fresh⟩
    cases held.symm.trans same
    exact ⟨queue, found, able, fun j member => (congrFun names j).trans_ne (fresh j member)⟩
  · rintro ⟨queue, found, able, fresh⟩
    exact ⟨q, queue, held, found, able, fun j member => (congrFun names j).symm.trans_ne (fresh j member)⟩

/-- A requeue puts a detached copy into the queue exactly when the queue takes it. -/
theorem requeue_waits_iff (now : Seconds) (current : p.objects i = r) :
    ((requeue i now { p with objects := p.objects.put i (detached r now) }).2.Waits i ∧ ¬p.Waits i) ↔ p.Takes r := by
  obtain ⟨-, named, tenant, -⟩ := detached_facts r now
  have same : queueView i { p with objects := p.objects.put i (detached r now) } = queueView i p :=
    queueView_put (tenant.trans (by rw [current]))
  rcases Option.eq_none_or_eq_some p.globalQueue with held | ⟨q, held⟩
  · have refused : ¬p.Takes r := by
      rintro ⟨q, -, some, -⟩
      cases held.symm.trans some
    have kept : ∀ p' : Plane, p'.globalQueue = none → ¬p'.Waits i := by
      rintro p' none ⟨q, some, -⟩
      cases none.symm.trans some
    refine ⟨?_, fun takes => absurd takes refused⟩
    rintro ⟨waits, -⟩
    rcases requeue_failed (p := { p with objects := p.objects.put i (detached r now) }) (i := i) held now with
      ⟨-, run⟩ | ⟨-, raised, run⟩
    · rw [run] at waits
      exact absurd waits (kept _ held)
    · rw [run] at waits
      exact absurd waits (kept _ held)
  · rw [takes_detached now current held]
    unfold requeue
    simp only [held]
    rcases q.enqueue_cases (p.objects.put i (detached r now)) i now with ⟨raised, run, -⟩ | ⟨queue, found, fresh, runs⟩
    · rw [run]
      have unchanged : queueView i { p with
          objects := p.objects.put i (detached r now)
          globalQueue := some q } = queueView i p := by
        rw [← same]
        unfold queueView
        rw [held]
      refine ⟨fun both => absurd ((waits_congr unchanged).mp both.1) both.2, fun ok => (by cases ok)⟩
    · have absent : ¬p.Waits i := by
        rintro ⟨q', some, member⟩
        cases held.symm.trans some
        rw [current, ← tenant] at member
        rw [Objects.put_self] at found
        unfold WeightedFairRequestQueue.queueOf at member
        rw [found] at member
        exact fresh i member rfl
      have joined : ∀ objects : Objects, (objects i).tenantId = (p.objects.put i (detached r now) i).tenantId →
          ({ p with
            objects := objects
            globalQueue := some (q.join (p.objects.put i (detached r now)) i queue) } : Plane).Waits i := by
        intro objects tenant'
        refine ⟨_, rfl, ?_⟩
        dsimp only
        unfold WeightedFairRequestQueue.join WeightedFairRequestQueue.queueOf
        dsimp only
        rw [tenant', Dict.get?_insert_self]
        exact List.mem_append_right _ (List.mem_singleton_self i)
      rcases runs with ⟨-, run⟩ | ⟨-, run⟩
      · rw [run]
        refine ⟨fun _ => rfl, fun _ => ⟨joined _ ?_, absent⟩⟩
        rw [Objects.put_self]
        rfl
      · rw [run]
        exact ⟨fun _ => rfl, fun _ => ⟨joined _ rfl, absent⟩⟩

/-- Settling a lost request puts it into the queue exactly when it is tried again and the queue takes it. -/
theorem settle_waits_iff (current : p.objects (inputs.copies r.requestId) = r) :
    ((settle inputs maxAttempts r p).2.Waits (inputs.copies r.requestId) ∧ ¬p.Waits (inputs.copies r.requestId)) ↔
      inputs.loss maxAttempts r = none ∧ p.Takes r := by
  cases retried : inputs.loss maxAttempts r with
  | none =>
    rw [settle_retried retried current, requeue_waits_iff _ current]
    simp
  | some loss =>
    have kept : (settle inputs maxAttempts r).Keeps (queueView (inputs.copies r.requestId)) := by
      unfold settle
      rw [retried]
      exact (transition_queueView _ _).bind fun _ =>
        .bind (fun _ => queueView_put rfl) fun _ => Attempt.keeps_pure _
    rw [waits_congr (kept p)]
    simp

/-- A recovery puts a listed request into the global queue exactly when it tries it again. -/
theorem recoverRequest_waits_iff (named : (p.objects (inputs.copies requestId)).requestId = requestId) :
    ((recoverRequest inputs workerId maxAttempts requestId p).2.Waits (inputs.copies requestId) ∧
        ¬p.Waits (inputs.copies requestId)) ↔
      Retries inputs workerId maxAttempts p (p.objects (inputs.copies requestId)) := by
  unfold recoverRequest
  rw [Attempt.bind_ok current_run]
  generalize current : p.objects (inputs.copies requestId) = r at *
  subst named
  by_cases untouched : r.assignedWorkerId ≠ some workerId ∨ r.terminal = true
  · rw [if_pos untouched]
    refine ⟨fun both => absurd both.1 both.2, fun retries => ?_⟩
    rcases untouched with elsewhere | isOver
    · exact absurd retries.lost.1 elsewhere
    · rw [retries.lost.2] at isOver
      cases isOver
  rw [if_neg untouched]
  obtain ⟨assigned, alive⟩ := not_or.mp untouched
  have lost : LostWith workerId r := ⟨not_not.mp assigned, by simpa using alive⟩
  have saved := Attempt.bind_reading (settle inputs maxAttempts r) (fun outcome =>
    (save_queueView none (inputs.copies r.requestId)).bind fun _ => Attempt.keeps_pure outcome) p
  rw [waits_congr saved, settle_waits_iff current]
  exact ⟨fun both => ⟨lost, both.1, both.2⟩, fun retries => ⟨retries.unstarted, retries.taken⟩⟩

end ServingPlatform.Plane
