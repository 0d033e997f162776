import ServingPlatform.ControlPlane.DispatchSteps
import ServingPlatform.FairQueue.Membership

namespace ServingPlatform

/-- Clock readings of a recovery for each request id, and the objects that hold the listed copies. -/
structure RecoveryReadings where
  copies : String → ObjectId
  checkedAt : String → Seconds
  decidedAt : String → Seconds
  changedAt : String → Seconds

/-- The copies are new objects, one for each stored request. -/
structure RecoveryInputs (p : Plane) extends RecoveryReadings where
  distinct : ∀ store, p.store = some store → ∀ a b, store.contains a = true → store.contains b = true →
    copies a = copies b → a = b
  new : ∀ q, p.globalQueue = some q → ∀ tenant, ∀ i ∈ q.queueOf tenant, ∀ requestId, copies requestId ≠ i

structure RecoveryCounts where
  requeued : Nat
  failed : Nat
  untouched : Nat
  deriving DecidableEq, Repr

inductive RecoveryOutcome
  | requeued
  | failed
  | untouched
  deriving DecidableEq, Repr

def RecoveryCounts.count (counts : RecoveryCounts) : RecoveryOutcome → RecoveryCounts
  | .requeued => { counts with requeued := counts.requeued + 1 }
  | .failed => { counts with failed := counts.failed + 1 }
  | .untouched => { counts with untouched := counts.untouched + 1 }

/-- Why a request of a lost worker is not retried: the state it ends in, and the recorded reason. -/
def RecoveryReadings.loss (inputs : RecoveryReadings) (maxAttempts : Int) (r : RequestRecord) :
    Option (RequestState × String) :=
  if r.status = .running ∨ r.status = .streaming ∨ r.reached .running = true ∨ r.reached .streaming = true then
    some (.failed, "worker_lost_after_execution_started")
  else if r.payloadAvailable = false then some (.failed, "request_payload_unavailable_after_restart")
  else if maxAttempts ≤ r.attemptCount ∨ r.deadline.expired (inputs.checkedAt r.requestId) = true then
    if r.deadline.expired (inputs.decidedAt r.requestId) then some (.timedOut, "deadline_exhausted")
    else some (.failed, "retry_budget_exhausted")
  else none

namespace Plane

/-- `requests.list()`: the stored requests in order, as copies. -/
def copyAll (store : RequestStore) (copies : String → ObjectId) (requestIds : List String) (objects : Objects) :
    Objects :=
  requestIds.foldl (fun objects requestId =>
    match store.get? requestId with
    | some r => objects.put (copies requestId) r
    | none => objects) objects

/-- A request that may be tried again goes to the global queue, where there is one. -/
def requeue (i : ObjectId) (now : Seconds) : Attempt Raised Plane RecoveryOutcome := fun p =>
  match p.globalQueue with
  | none =>
    (transition i .failed now >>= fun _ =>
      modify i (fun r => r.addReason "global_retry_queue_unavailable") >>= fun _ => pure .failed) p
  | some q =>
    match q.enqueue p.objects i now with
    | (.error raised, q, objects) => (.error raised, { p with globalQueue := some q, objects := objects })
    | (.ok (), q, objects) => (.ok .requeued, { p with globalQueue := some q, objects := objects })

/-- The body of the loop of `recover_failed_worker` for a request that was lost with the worker. -/
def settle (inputs : RecoveryReadings) (maxAttempts : Int) (r : RequestRecord) : Attempt Raised Plane RecoveryOutcome :=
  let i := inputs.copies r.requestId
  let now := inputs.changedAt r.requestId
  match inputs.loss maxAttempts r with
  | some (target, reason) => do
    transition i target now
    modify i fun r => r.addReason reason
    pure .failed
  | none => do
    (if r.status = .assigned then transition i .queued now else pure ())
    modify i fun r => (r.assign none).addReason "assigned_worker_heartbeat_expired"
    requeue i now

def recoverRequest (inputs : RecoveryReadings) (workerId : String) (maxAttempts : Int) (requestId : String) :
    Attempt Raised Plane RecoveryOutcome := do
  let r ← current (inputs.copies requestId)
  if r.assignedWorkerId ≠ some workerId ∨ r.terminal = true then pure .untouched
  else do
    let outcome ← settle inputs maxAttempts r
    save none (inputs.copies requestId)
    pure outcome

def recoverAll (inputs : RecoveryReadings) (workerId : String) (maxAttempts : Int) (counts : RecoveryCounts) :
    List String → Attempt Raised Plane RecoveryCounts
  | [] => pure counts
  | requestId :: rest => do
    let outcome ← recoverRequest inputs workerId maxAttempts requestId
    recoverAll inputs workerId maxAttempts (counts.count outcome) rest

/-- The plane once a recovery has taken its listing. -/
def listed (inputs : RecoveryReadings) (workerId : String) (store : RequestStore) (p : Plane) : Plane :=
  { p with
    directory := p.directory.filter fun other => other ≠ workerId
    objects := copyAll store inputs.copies (sortedKeys store.requests) p.objects }

/-- `ControlPlane.recover_failed_worker`. -/
def recoverFailedWorker (inputs : RecoveryReadings) (workerId : String) (maxAttempts : Int) :
    Attempt Raised Plane RecoveryCounts := fun p =>
  if maxAttempts ≤ 0 then (.error (valueError "maximum attempts must be positive"), p)
  else
    match p.store with
    | none => (.error (runtimeError "request state store is required for worker recovery"), p)
    | some store =>
      recoverAll inputs workerId maxAttempts ⟨0, 0, 0⟩ (sortedKeys store.requests) (p.listed inputs workerId store)

end Plane

end ServingPlatform

namespace ServingPlatform

namespace WeightedFairRequestQueue

variable {q : WeightedFairRequestQueue} {objects objects' : Objects} {i : ObjectId} {queue : List ObjectId}

/-- How many waiting requests have a request id. -/
def occurrences (q : WeightedFairRequestQueue) (objects : Objects) (requestId : String) : Nat :=
  (q.queues.values.map fun queue => queue.countP fun i => (objects i).requestId = requestId).sum

theorem occurrences_congr (same : ∀ j, (objects' j).requestId = (objects j).requestId) (requestId : String) :
    q.occurrences objects' requestId = q.occurrences objects requestId := by
  unfold occurrences
  simp only [same]

theorem occurrences_join (found : q.queues.get? (objects i).tenantId = some queue) (requestId : String) :
    (q.join objects i queue).occurrences objects requestId =
      q.occurrences objects requestId + if (objects i).requestId = requestId then 1 else 0 := by
  have sum := Dict.sum_values_replace (fun queue => queue.countP fun j => (objects j).requestId = requestId)
    (queue ++ [i]) found
  unfold occurrences join
  dsimp only at sum ⊢
  rw [List.countP_append, List.countP_singleton] at sum
  simp only [decide_eq_true_eq] at sum
  omega

/-- A request id that occurs nowhere is in no queue. -/
theorem occurrences_eq_zero (found : q.queues.get? tenant = some queue) (none : q.occurrences objects requestId = 0) :
    ∀ j ∈ queue, (objects j).requestId ≠ requestId := by
  intro j member same
  have counted : queue.countP (fun i => (objects i).requestId = requestId) ∈
      q.queues.values.map fun queue => queue.countP fun i => (objects i).requestId = requestId :=
    List.mem_map_of_mem (Dict.mem_values_iff.mpr ⟨tenant, found⟩)
  have zero := List.sum_eq_zero_iff_forall_eq_nat.mp none _ counted
  exact absurd (List.countP_eq_zero.mp zero j member) (by simp [same])

/-- An enqueue is accepted when the tenant is configured, the status fits and the id is new to the tenant. -/
theorem enqueue_ok_iff (now : Seconds) : (q.enqueue objects i now).1 = .ok () ↔
    ∃ queue, q.queues.get? (objects i).tenantId = some queue ∧ (objects i).Schedulable ∧
      ∀ j ∈ queue, (objects j).requestId ≠ (objects i).requestId := by
  unfold enqueue
  cases found : q.queues.get? (objects i).tenantId with
  | none => simp
  | some queue =>
    dsimp only
    by_cases wrong : (objects i).status ≠ .admitted ∧ (objects i).status ≠ .queued
    · rw [if_pos wrong]
      refine ⟨fun ok => (by cases ok), ?_⟩
      rintro ⟨-, -, schedulable, -⟩
      exact absurd schedulable (by simpa [RequestRecord.Schedulable] using wrong)
    rw [if_neg wrong]
    have schedulable : (objects i).Schedulable := by
      unfold RequestRecord.Schedulable
      tauto
    by_cases twice : queue.any (fun j => (objects j).requestId = (objects i).requestId) = true
    · rw [if_pos twice]
      refine ⟨fun ok => (by cases ok), ?_⟩
      rintro ⟨_, same, -, fresh⟩
      cases same
      obtain ⟨j, member, equal⟩ := List.any_eq_true.mp twice
      exact absurd (of_decide_eq_true equal) (fresh j member)
    · rw [if_neg twice]
      refine ⟨fun _ => ⟨queue, rfl, schedulable, fun j member same => twice ?_⟩, fun _ => rfl⟩
      exact List.any_eq_true.mpr ⟨j, member, by simp [same]⟩

end WeightedFairRequestQueue

/-- A lost request can be settled: its last transition is allowed, or it can be
queued again, and is not queued already. -/
def RequestRecord.Recoverable (r : RequestRecord) (inputs : RecoveryReadings) (maxAttempts : Int) (p : Plane) : Prop :=
  match inputs.loss maxAttempts r with
  | some (target, _) => target ∈ r.status.allowed
  | none =>
    match p.globalQueue with
    | none => .failed ∈ (if r.status = .assigned then RequestState.queued else r.status).allowed
    | some q => (r.status = .assigned ∨ r.Schedulable) ∧ q.queues.contains r.tenantId = true ∧
        q.occurrences p.objects r.requestId = 0

namespace Plane

variable {inputs : RecoveryReadings} {maxAttempts : Int} {p p' : Plane} {i : ObjectId} {r : RequestRecord}
  {store : RequestStore} {workerId requestId : String}

/-- The stored record of a request is over, or waits in the global queue, once and without a worker. -/
def Settled (p : Plane) (requestId : String) : Prop :=
  ∃ store r, p.store = some store ∧ store.get? requestId = some r ∧ (r.terminal = true ∨
    r.status = .queued ∧ r.assignedWorkerId = none ∧
      ∃ q, p.globalQueue = some q ∧ q.occurrences p.objects requestId = 1)

theorem transition_cases (i : ObjectId) (target : RequestState) (now : Seconds) (p : Plane) :
    (target ∈ (p.objects i).status.allowed ∧
      transition i target now p = (.ok (), { p with objects := p.objects.put i ((p.objects i).enter target now) })) ∨
      target ∉ (p.objects i).status.allowed ∧ ∃ raised, transition i target now p = (.error raised, p) := by
  by_cases allowed : target ∈ (p.objects i).status.allowed
  · exact Or.inl ⟨allowed, transition_ok allowed now⟩
  · refine Or.inr ⟨allowed, ?_⟩
    unfold transition onObjects Attempt.zoom Objects.transition
    rcases (p.objects i).transition_cases target now with ⟨other, -⟩ | ⟨-, raised, run, -⟩
    · exact absurd other allowed
    · rw [run]
      exact ⟨raised, rfl⟩

/-- A requeue without a global queue fails the request, where that is allowed. -/
theorem requeue_failed (missing : p.globalQueue = none) (now : Seconds) :
    (RequestState.failed ∈ (p.objects i).status.allowed ∧ requeue i now p = (.ok .failed, { p with
        objects := p.objects.put i (((p.objects i).enter .failed now).addReason "global_retry_queue_unavailable") })) ∨
      RequestState.failed ∉ (p.objects i).status.allowed ∧ ∃ raised, requeue i now p = (.error raised, p) := by
  unfold requeue
  rw [missing]
  dsimp only
  rcases transition_cases i .failed now p with ⟨allowed, run⟩ | ⟨refused, raised, run⟩
  · rw [Attempt.bind_ok run, Attempt.bind_ok (modify_run _)]
    dsimp only [Attempt.run_pure]
    rw [Objects.put_put, Objects.put_self]
    exact Or.inl ⟨allowed, by rw [missing]⟩
  · rw [Attempt.bind_error run]
    exact Or.inr ⟨refused, raised, rfl⟩

/-- What settling a lost request makes of the plane: its copy is over, or it
waits in its tenant's queue. -/
inductive SettledTo (inputs : RecoveryReadings) (maxAttempts : Int) (p : Plane) (i : ObjectId) (r : RequestRecord) :
    RecoveryOutcome → Plane → Prop
  | ended {r' : RequestRecord} (recoverable : r.Recoverable inputs maxAttempts p) (isOver : r'.terminal = true)
      (named : r'.requestId = r.requestId) :
      SettledTo inputs maxAttempts p i r .failed { p with objects := p.objects.put i r' }
  | requeued {q : WeightedFairRequestQueue} {queue : List ObjectId} {r' : RequestRecord}
      (recoverable : r.Recoverable inputs maxAttempts p ↔ q.occurrences p.objects r.requestId = 0)
      (held : p.globalQueue = some q) (found : q.queues.get? r.tenantId = some queue) (status : r'.status = .queued)
      (unassigned : r'.assignedWorkerId = none) (named : r'.requestId = r.requestId)
      (tenant : r'.tenantId = r.tenantId) :
      SettledTo inputs maxAttempts p i r .requeued { p with
        objects := p.objects.put i r'
        globalQueue := some (q.join (p.objects.put i r') i queue) }

/-- A loss that is not retried ends the request, where its last transition is allowed. -/
theorem settle_ended {target : RequestState} {reason : String} (lost : inputs.loss maxAttempts r = some (target, reason))
    (current : p.objects (inputs.copies r.requestId) = r) :
    (∃ raised p', settle inputs maxAttempts r p = (.error raised, p') ∧ ¬r.Recoverable inputs maxAttempts p) ∨
      ∃ outcome p', settle inputs maxAttempts r p = (.ok outcome, p') ∧
        SettledTo inputs maxAttempts p (inputs.copies r.requestId) r outcome p' := by
  have recoverable : r.Recoverable inputs maxAttempts p ↔ target ∈ r.status.allowed := by
    unfold RequestRecord.Recoverable
    rw [lost]
  have ends : target.isTerminal = true := by
    unfold RecoveryReadings.loss at lost
    split at lost
    · cases lost
      rfl
    split at lost
    · cases lost
      rfl
    split at lost
    · split at lost <;> cases lost <;> rfl
    · cases lost
  unfold settle
  rw [lost]
  dsimp only
  rcases transition_cases (inputs.copies r.requestId) target (inputs.changedAt r.requestId) p with
    ⟨allowed, run⟩ | ⟨refused, raised, run⟩
  · rw [current] at allowed run
    rw [Attempt.bind_ok run, Attempt.bind_ok (modify_run _)]
    dsimp only [Attempt.run_pure]
    rw [Objects.put_put, Objects.put_self]
    exact Or.inr ⟨_, _, rfl, .ended (recoverable.mpr allowed) ends rfl⟩
  · rw [Attempt.bind_error run]
    rw [current] at refused
    exact Or.inl ⟨raised, p, rfl, fun fine => refused (recoverable.mp fine)⟩

/-- The copy of a request that is to be tried again, before it enters the queue. -/
def detached (r : RequestRecord) (now : Seconds) : RequestRecord :=
  ((if r.status = .assigned then r.enter .queued now else r).assign none).addReason "assigned_worker_heartbeat_expired"

theorem detached_facts (r : RequestRecord) (now : Seconds) :
    (detached r now).status = (if r.status = .assigned then RequestState.queued else r.status) ∧
      (detached r now).requestId = r.requestId ∧ (detached r now).tenantId = r.tenantId ∧
      (detached r now).assignedWorkerId = none := by
  unfold detached
  split <;> exact ⟨rfl, rfl, rfl, rfl⟩

theorem settle_retried (retried : inputs.loss maxAttempts r = none)
    (current : p.objects (inputs.copies r.requestId) = r) :
    settle inputs maxAttempts r p = requeue (inputs.copies r.requestId) (inputs.changedAt r.requestId) { p with
      objects := p.objects.put (inputs.copies r.requestId) (detached r (inputs.changedAt r.requestId)) } := by
  unfold settle detached
  rw [retried]
  dsimp only
  by_cases assigned : r.status = .assigned
  · have allowed : RequestState.queued ∈ (p.objects (inputs.copies r.requestId)).status.allowed := by
      rw [current, assigned]
      decide
    rw [if_pos assigned, if_pos assigned, Attempt.bind_ok (transition_ok allowed _), Attempt.bind_ok (modify_run _),
      current]
    dsimp only
    rw [Objects.put_put, Objects.put_self]
  · rw [if_neg assigned, if_neg assigned, Attempt.bind_ok Attempt.run_pure, Attempt.bind_ok (modify_run _), current]

theorem settle_requeued (retried : inputs.loss maxAttempts r = none)
    (current : p.objects (inputs.copies r.requestId) = r) :
    (∃ raised p', settle inputs maxAttempts r p = (.error raised, p') ∧ ¬r.Recoverable inputs maxAttempts p) ∨
      ∃ outcome p', settle inputs maxAttempts r p = (.ok outcome, p') ∧
        SettledTo inputs maxAttempts p (inputs.copies r.requestId) r outcome p' := by
  obtain ⟨status, named, tenant, unassigned⟩ := detached_facts r (inputs.changedAt r.requestId)
  rw [settle_retried retried current]
  generalize detached r (inputs.changedAt r.requestId) = r₁ at *
  generalize inputs.changedAt r.requestId = now at *
  have requestIds : ∀ j, ((p.objects.put (inputs.copies r.requestId) r₁) j).requestId = (p.objects j).requestId := by
    intro j
    rcases eq_or_ne j (inputs.copies r.requestId) with rfl | differ
    · rw [Objects.put_self, named, current]
    · rw [Objects.put_of_ne differ]
  rcases Option.eq_none_or_eq_some p.globalQueue with held | ⟨q, held⟩
  · have recoverable : r.Recoverable inputs maxAttempts p ↔ .failed ∈ r₁.status.allowed := by
      unfold RequestRecord.Recoverable
      rw [retried, held, status]
    rcases requeue_failed (p := { p with objects := p.objects.put (inputs.copies r.requestId) r₁ })
      (i := inputs.copies r.requestId) held now with ⟨allowed, run⟩ | ⟨refused, raised, run⟩
    · dsimp only at allowed run
      rw [Objects.put_self] at allowed
      rw [Objects.put_self, Objects.put_put] at run
      rw [run]
      exact Or.inr ⟨_, _, rfl, .ended (recoverable.mpr allowed) rfl named⟩
    · dsimp only at refused
      rw [Objects.put_self] at refused
      rw [run]
      exact Or.inl ⟨raised, _, rfl, fun fine => refused (recoverable.mp fine)⟩
  · have schedulable : r₁.Schedulable ↔ r.status = .assigned ∨ r.Schedulable := by
      unfold RequestRecord.Schedulable
      rw [status]
      by_cases assigned : r.status = .assigned
      · simp [assigned]
      · simp [assigned]
    have recoverable : r.Recoverable inputs maxAttempts p ↔ r₁.Schedulable ∧
        q.queues.contains r.tenantId = true ∧ q.occurrences p.objects r.requestId = 0 := by
      unfold RequestRecord.Recoverable
      rw [retried, held, schedulable]
    have accepted := @WeightedFairRequestQueue.enqueue_ok_iff q (p.objects.put (inputs.copies r.requestId) r₁)
      (inputs.copies r.requestId) now
    simp only [Objects.put_self, requestIds, tenant, named] at accepted
    unfold requeue
    simp only [held]
    rcases q.enqueue_cases (p.objects.put (inputs.copies r.requestId) r₁) (inputs.copies r.requestId) now with
      ⟨raised, run, -⟩ | ⟨queue, found, -, runs⟩
    · rw [run] at accepted ⊢
      refine Or.inl ⟨raised, _, rfl, fun fine => ?_⟩
      obtain ⟨able, known, absent⟩ := recoverable.mp fine
      obtain ⟨queue, found⟩ := Option.isSome_iff_exists.mp known
      have ok := accepted.mpr ⟨queue, found, able, WeightedFairRequestQueue.occurrences_eq_zero found absent⟩
      cases ok
    · rw [Objects.put_self, tenant] at found
      have fine : r₁.Schedulable → (r.Recoverable inputs maxAttempts p ↔ q.occurrences p.objects r.requestId = 0) := by
        intro able
        rw [recoverable]
        exact ⟨fun fine => fine.2.2, fun absent => ⟨able, by rw [Dict.contains, found]; rfl, absent⟩⟩
      rcases runs with ⟨admitted, run⟩ | ⟨queued, run⟩
      · rw [Objects.put_self] at admitted run
        rw [run]
        have tenants : q.join (p.objects.put (inputs.copies r.requestId) r₁) (inputs.copies r.requestId) queue =
            q.join (p.objects.put (inputs.copies r.requestId) (r₁.enter .queued now)) (inputs.copies r.requestId) queue := by
          unfold WeightedFairRequestQueue.join
          simp only [Objects.put_self, RequestRecord.enter_tenantId]
        rw [tenants]
        dsimp only
        rw [Objects.put_put]
        exact Or.inr ⟨_, _, rfl, .requeued (fine (Or.inl admitted)) held found rfl unassigned named tenant⟩
      · rw [Objects.put_self] at queued
        rw [run]
        exact Or.inr ⟨_, _, rfl, .requeued (fine (Or.inr queued)) held found queued unassigned named tenant⟩

end Plane

end ServingPlatform

namespace ServingPlatform.Plane

variable {inputs : RecoveryReadings} {maxAttempts : Int} {p p' p'' : Plane} {i : ObjectId} {r : RequestRecord}
  {store : RequestStore} {workerId requestId other : String}

/-- How often a request id waits in the global queue, where there is one. -/
def waiting (p : Plane) (requestId : String) : Option Nat :=
  p.globalQueue.map fun q => q.occurrences p.objects requestId

/-- Whether the global queue is configured for a tenant. -/
def serves (p : Plane) (tenant : String) : Option Bool := p.globalQueue.map fun q => q.queues.contains tenant

theorem settled_congr (same : p'.stored requestId = p.stored requestId)
    (waits : p'.waiting requestId = p.waiting requestId) : p'.Settled requestId ↔ p.Settled requestId := by
  have facts : ∀ p : Plane, p.Settled requestId ↔ ∃ r, p.stored requestId = some r ∧ (r.terminal = true ∨
      r.status = .queued ∧ r.assignedWorkerId = none ∧ p.waiting requestId = some 1) := by
    intro p
    unfold Settled stored waiting
    constructor
    · rintro ⟨store, r, held, found, rest⟩
      refine ⟨r, by rw [held]; exact found, rest.imp id ?_⟩
      rintro ⟨queued, unassigned, q, queue, once⟩
      exact ⟨queued, unassigned, by rw [queue, Option.map_some, once]⟩
    · rintro ⟨r, found, rest⟩
      obtain ⟨store, held, found⟩ := Option.bind_eq_some_iff.mp found
      refine ⟨store, r, held, found, rest.imp id ?_⟩
      rintro ⟨queued, unassigned, once⟩
      obtain ⟨q, queue, count⟩ := Option.map_eq_some_iff.mp once
      exact ⟨queued, unassigned, q, queue, count⟩
  rw [facts, facts, same, waits]

theorem recoverable_congr (waits : p'.waiting r.requestId = p.waiting r.requestId)
    (known : p'.serves r.tenantId = p.serves r.tenantId) :
    r.Recoverable inputs maxAttempts p' ↔ r.Recoverable inputs maxAttempts p := by
  unfold waiting at waits
  unfold serves at known
  unfold RequestRecord.Recoverable
  cases inputs.loss maxAttempts r with
  | some loss => exact Iff.rfl
  | none =>
    dsimp only
    cases before : p.globalQueue with
    | none =>
      rw [before] at waits
      rw [Option.map_eq_none_iff.mp waits]
    | some q =>
      rw [before] at waits known
      obtain ⟨q', after, count⟩ := Option.map_eq_some_iff.mp waits
      rw [after, Option.map_some, Option.map_some] at known
      rw [after]
      dsimp only
      rw [count, Option.some.inj known]

/-- A recovery step for one request leaves the other requests alone. -/
structure Apart (inputs : RecoveryReadings) (requestId : String) (p p' : Plane) : Prop where
  objects : ∀ j, j ≠ inputs.copies requestId → p'.objects j = p.objects j
  stored : ∀ other, other ≠ requestId → p'.stored other = p.stored other
  waiting : ∀ other, other ≠ requestId → p'.waiting other = p.waiting other
  serves : ∀ tenant, p'.serves tenant = p.serves tenant

theorem Apart.refl (p : Plane) : Apart inputs requestId p p :=
  ⟨fun _ _ => rfl, fun _ _ => rfl, fun _ _ => rfl, fun _ => rfl⟩

/-- A listed copy has not been processed yet. -/
structure Listed (inputs : RecoveryReadings) (p : Plane) (requestId : String) (r : RequestRecord) : Prop where
  stored : p.stored requestId = some r
  copied : p.objects (inputs.copies requestId) = r

theorem Listed.named (listed : Listed inputs p requestId r) : r.requestId = requestId := by
  obtain ⟨store, held, found⟩ := Option.bind_eq_some_iff.mp listed.stored
  exact store.keyed requestId r found

theorem SettledTo.apart {outcome : RecoveryOutcome} (settled : SettledTo inputs maxAttempts p i r outcome p')
    (current : p.objects i = r) :
    (∀ j, (p'.objects j).requestId = (p.objects j).requestId) ∧
      (∀ j, j ≠ i → p'.objects j = p.objects j) ∧ p'.store = p.store ∧
      (∀ other, other ≠ r.requestId → p'.waiting other = p.waiting other) ∧
      ∀ tenant, p'.serves tenant = p.serves tenant := by
  have named : ∀ {r' : RequestRecord}, r'.requestId = r.requestId →
      ∀ j, ((p.objects.put i r') j).requestId = (p.objects j).requestId := by
    intro r' same j
    rcases eq_or_ne j i with rfl | differ
    · rw [Objects.put_self, same, current]
    · rw [Objects.put_of_ne differ]
  cases settled with
  | ended recoverable isOver same =>
    refine ⟨named same, fun j differ => Objects.put_of_ne differ, rfl, fun other _ => ?_, fun _ => rfl⟩
    unfold Plane.waiting
    simp only [WeightedFairRequestQueue.occurrences_congr (named same)]
  | @requeued q queue r' recoverable held found status unassigned same tenant =>
    refine ⟨named same, fun j differ => Objects.put_of_ne differ, rfl, fun other differ => ?_, fun tenant' => ?_⟩
    · have own : ((p.objects.put i r') i).tenantId = r.tenantId := by rw [Objects.put_self, tenant]
      unfold Plane.waiting
      dsimp only
      rw [held, Option.map_some, Option.map_some, WeightedFairRequestQueue.occurrences_join (by rw [own]; exact found),
        Objects.put_self, same, if_neg (Ne.symm differ), Nat.add_zero,
        WeightedFairRequestQueue.occurrences_congr (named same)]
    · have own : ((p.objects.put i r') i).tenantId = r.tenantId := by rw [Objects.put_self, tenant]
      unfold Plane.serves WeightedFairRequestQueue.join
      dsimp only
      rw [held, Option.map_some, Option.map_some, own]
      congr 1
      simp only [Dict.contains, Dict.get?_insert]
      split
      · rename_i same
        rw [same, found]
        rfl
      · rfl

/-- Settled and saved, a lost request is settled for good exactly when it was recoverable. -/
theorem SettledTo.settled {outcome : RecoveryOutcome} (settled : SettledTo inputs maxAttempts p i r outcome p')
    (current : p.objects i = r) :
    ({ p' with store := some (store.insert (p'.objects i)) } : Plane).Settled r.requestId ↔
      r.Recoverable inputs maxAttempts p := by
  have named := (settled.apart current).1
  cases settled with
  | @ended r' recoverable isOver same =>
    refine ⟨fun _ => recoverable, fun _ => ⟨_, r', rfl, ?_, Or.inl isOver⟩⟩
    dsimp only
    rw [Objects.put_self, ← same]
    exact RequestStore.get?_insert_self
  | @requeued q queue r' recoverable queued found status unassigned same tenant =>
    have own : ((p.objects.put i r') i).tenantId = r.tenantId := by rw [Objects.put_self, tenant]
    have count : (q.join (p.objects.put i r') i queue).occurrences (p.objects.put i r') r.requestId =
        q.occurrences p.objects r.requestId + 1 := by
      rw [WeightedFairRequestQueue.occurrences_join (by rw [own]; exact found), Objects.put_self, if_pos same,
        WeightedFairRequestQueue.occurrences_congr named]
    rw [recoverable]
    constructor
    · rintro ⟨store', copy, kept, shown, isOver | ⟨-, -, q', queue', once⟩⟩
      · cases kept
        dsimp only at shown
        rw [Objects.put_self, ← same, RequestStore.get?_insert_self] at shown
        cases shown
        unfold RequestRecord.terminal at isOver
        rw [status] at isOver
        cases isOver
      · cases queue'
        dsimp only at once
        omega
    · intro absent
      refine ⟨_, r', rfl, ?_, Or.inr ⟨status, unassigned, _, rfl, ?_⟩⟩
      · dsimp only
        rw [Objects.put_self, ← same]
        exact RequestStore.get?_insert_self
      · dsimp only
        omega

theorem requeue_keeps_store (i : ObjectId) (now : Seconds) : (requeue i now).Keeps Plane.store := by
  intro p
  unfold requeue
  split
  · exact Attempt.Keeps.bind (fun _ => rfl) (fun _ => Attempt.Keeps.bind (fun _ => rfl) fun _ => Attempt.keeps_pure _) p
  · split <;> rfl

/-- Settling a request does not save it. -/
theorem settle_keeps_store (inputs : RecoveryReadings) (maxAttempts : Int) (r : RequestRecord) :
    (settle inputs maxAttempts r).Keeps Plane.store := by
  unfold settle
  dsimp only
  split
  · exact .bind (fun _ => rfl) fun _ => .bind (fun _ => rfl) fun _ => Attempt.keeps_pure _
  · refine .bind ?_ fun _ => .bind (fun _ => rfl) fun _ => requeue_keeps_store _ _
    split
    · exact fun _ => rfl
    · exact Attempt.keeps_pure _

/-- What the loop does with one listed request of the lost worker. -/
theorem recoverRequest_lost (listed : Listed inputs p requestId r) (assigned : r.assignedWorkerId = some workerId)
    (alive : r.terminal = false) :
    (∃ raised p', recoverRequest inputs workerId maxAttempts requestId p = (.error raised, p') ∧
      ¬r.Recoverable inputs maxAttempts p ∧ p'.store = p.store) ∨
    ∃ outcome p', recoverRequest inputs workerId maxAttempts requestId p = (.ok outcome, p') ∧
      Apart inputs requestId p p' ∧ (p'.Settled requestId ↔ r.Recoverable inputs maxAttempts p) := by
  have named := listed.named
  subst named
  obtain ⟨store, held, found⟩ := Option.bind_eq_some_iff.mp listed.stored
  have lost : ¬(r.assignedWorkerId ≠ some workerId ∨ r.terminal = true) := by simp [assigned, alive]
  unfold recoverRequest
  rw [Attempt.bind_ok current_run, listed.copied, if_neg lost]
  have settled : (∃ raised p', settle inputs maxAttempts r p = (.error raised, p') ∧
      ¬r.Recoverable inputs maxAttempts p) ∨
      ∃ outcome p', settle inputs maxAttempts r p = (.ok outcome, p') ∧
        SettledTo inputs maxAttempts p (inputs.copies r.requestId) r outcome p' := by
    cases retried : inputs.loss maxAttempts r with
    | none => exact settle_requeued retried listed.copied
    | some loss => exact settle_ended retried listed.copied
  rcases settled with ⟨raised, p', run, refused⟩ | ⟨outcome, p', run, settled⟩
  · have kept := settle_keeps_store inputs maxAttempts r p
    rw [run] at kept
    rw [Attempt.bind_error run]
    exact Or.inl ⟨raised, p', rfl, refused, kept⟩
  obtain ⟨requestIds, objects, keeps, waits, known⟩ := settled.apart listed.copied
  have saved : save none (inputs.copies r.requestId) p' =
      (.ok (), { p' with store := some (store.insert (p'.objects (inputs.copies r.requestId))) }) := by
    have contained : store.contains (p'.objects (inputs.copies r.requestId)).requestId = true := by
      rw [requestIds, listed.copied]
      exact RequestStore.contains_iff.mpr ⟨r, found⟩
    unfold save RequestStore.save
    rw [keeps, held]
    dsimp only
    rw [if_pos contained]
  rw [Attempt.bind_ok run, Attempt.bind_ok saved]
  refine Or.inr ⟨outcome, _, rfl, ⟨objects, fun other differ => ?_, waits, known⟩, settled.settled listed.copied⟩
  unfold Plane.stored
  rw [held]
  dsimp only [Option.bind_some]
  rw [RequestStore.get?_insert, requestIds, listed.copied, if_neg differ]

end ServingPlatform.Plane
