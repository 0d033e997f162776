import ServingPlatform.ControlPlane.Identities

namespace ServingPlatform

open Plane

/-- A recovery on its way, with the ids of its listing that it has not come to. -/
structure Recovery where
  readings : RecoveryReadings
  workerId : String
  maxAttempts : Int
  remaining : List String

/-- A control plane with the batches and recoveries on their way in its process.
Two relations record the history: which worker has begun which request, and what
a recovery of the worker queued again after that. -/
structure Cluster where
  plane : Plane
  batches : List (String × List ObjectId)
  recoveries : List Recovery
  begun : String → String → Prop
  restarted : String → String → Prop

namespace Recovery

/-- The copy of a listed request. -/
def copy (recovery : Recovery) (requestId : String) : ObjectId := recovery.readings.copies requestId

/-- The loop of a recovery looks at the next request of its listing. -/
def attempt (recovery : Recovery) (requestId : String) : Attempt Raised Plane RecoveryOutcome :=
  recoverRequest recovery.readings recovery.workerId recovery.maxAttempts requestId

/-- What is left of a recovery after a round of its loop; an exception ends it. -/
def next (recovery : Recovery) (rest : List String) : Except Raised RecoveryOutcome → List Recovery
  | .ok _ => [{ recovery with remaining := rest }]
  | .error _ => []

end Recovery

namespace Cluster

variable {s s' first : Cluster} {p : Plane} {recovery : Recovery} {requestId : String}
  {Allowed : Recovery → String → Cluster → Prop}

/-- Nothing has begun. -/
def start (p : Plane) : Cluster := ⟨p, [], [], fun _ _ => False, fun _ _ => False⟩

/-- A request of that id becomes `RUNNING` between two states of the plane. -/
def Begins (p p' : Plane) (requestId : String) : Prop :=
  ∃ j, (p.objects j).requestId = requestId ∧ (p.objects j).status ≠ .running ∧ (p'.objects j).status = .running

/-- The state once the locked part of a worker's `execute_batch` has run. -/
def began (s : Cluster) (workerId : String) (now : Seconds) : Cluster :=
  let (result, plane) := onWorker workerId (ManagedWorker.beginBatch now) s.plane
  { s with
    plane := plane
    batches :=
      match result with
      | .ok (i :: rest) => (workerId, i :: rest) :: s.batches
      | _ => s.batches
    begun := fun other requestId => s.begun other requestId ∨ other = workerId ∧ Begins s.plane plane requestId }

/-- The state once a recovery has looked at the next request of its listing. -/
def recovered (s : Cluster) (before after : List Recovery) (recovery : Recovery) (requestId : String)
    (rest : List String) : Cluster :=
  let (result, plane) := recovery.attempt requestId s.plane
  { s with
    plane := plane
    recoveries := before ++ recovery.next rest result ++ after
    restarted := fun workerId other => s.restarted workerId other ∨
      workerId = recovery.workerId ∧ other = requestId ∧ s.begun workerId requestId ∧
        plane.Waits (recovery.copy requestId) ∧ ¬s.plane.Waits (recovery.copy requestId) }

/-- What may happen next, in any order: a worker thread may run between any two
rounds of a recovery, and batches of one or more workers may overlap. A component
may save a request at any time, a dispatch that a batch overtakes among them. -/
inductive Step (Allowed : Recovery → String → Cluster → Prop) (s : Cluster) : Cluster → Prop
  | dispatched (i : ObjectId) (inputs : DispatchInputs i) :
      Step Allowed s { s with plane := (dispatch inputs s.plane).2 }
  | saved (fault : Option Raised) (i : ObjectId) : Step Allowed s { s with plane := (save fault i s.plane).2 }
  | began (workerId : String) (now : Seconds) : Step Allowed s (s.began workerId now)
  | finished {before after : List (String × List ObjectId)} {workerId : String} {selected : List ObjectId}
      (open_ : s.batches = before ++ (workerId, selected) :: after) (generated : Except Raised (List RuntimeResult))
      (failedAt : Seconds) (completedAt : ObjectId → Seconds) :
      Step Allowed s { s with
        plane :=
          (onWorker workerId (ManagedWorker.finishBatch selected generated failedAt completedAt) s.plane).2
        batches := before ++ after }
  | expired (now : Seconds) :
      Step Allowed s { s with plane := { s.plane with registry := (s.plane.registry.expireStale now).2 } }
  | listed {store : RequestStore} (inputs : RecoveryInputs s.plane) (workerId : String) {maxAttempts : Int}
      (positive : 0 < maxAttempts) (held : s.plane.store = some store)
      (fresh : ∀ other ∈ s.recoveries, ∀ a ∈ other.remaining, ∀ b, inputs.copies b ≠ other.copy a) :
      Step Allowed s { s with
        plane := s.plane.listed inputs.toRecoveryReadings workerId store
        recoveries := ⟨inputs.toRecoveryReadings, workerId, maxAttempts, sortedKeys store.requests⟩ :: s.recoveries }
  | recovered {before after : List Recovery} {recovery : Recovery} {requestId : String} {rest : List String}
      (running : s.recoveries = before ++ recovery :: after) (next : recovery.remaining = requestId :: rest)
      (allowed : Allowed recovery requestId s) :
      Step Allowed s (s.recovered before after recovery requestId rest)

abbrev Run (Allowed : Recovery → String → Cluster → Prop) : Cluster → Cluster → Prop :=
  Relation.ReflTransGen (Step Allowed)

/-- Each copy of a listing has the id under which it is listed. -/
def Named (s : Cluster) : Prop :=
  ∀ recovery ∈ s.recoveries, ∀ requestId ∈ recovery.remaining,
    (s.plane.objects (recovery.copy requestId)).requestId = requestId

theorem Named.of_names (named : s.Named) (names : s'.plane.names = s.plane.names)
    (recoveries : ∀ recovery ∈ s'.recoveries, ∃ other ∈ s.recoveries, other.readings = recovery.readings ∧
      ∀ requestId ∈ recovery.remaining, requestId ∈ other.remaining) : s'.Named := by
  intro recovery member requestId remains
  obtain ⟨other, old, readings, inside⟩ := recoveries recovery member
  have same := named other old requestId (inside requestId remains)
  unfold Recovery.copy at same ⊢
  rw [readings] at same
  exact (congrFun names _).trans same

theorem Named.step (named : s.Named) (step : Step Allowed s s') : s'.Named := by
  cases step with
  | dispatched i inputs =>
    exact named.of_names (dispatch_names inputs _) fun recovery member => ⟨recovery, member, rfl, fun _ => id⟩
  | saved fault i => exact named.of_names (save_names _ _ _) fun recovery member => ⟨recovery, member, rfl, fun _ => id⟩
  | began workerId now =>
    exact named.of_names (beginBatch_names _ _ _) fun recovery member => ⟨recovery, member, rfl, fun _ => id⟩
  | finished =>
    exact named.of_names (finishBatch_names _ _ _ _ _ _) fun recovery member => ⟨recovery, member, rfl, fun _ => id⟩
  | expired => exact named.of_names rfl fun recovery member => ⟨recovery, member, rfl, fun _ => id⟩
  | @listed store inputs workerId maxAttempts positive held fresh =>
    intro recovery member requestId remains
    rcases List.mem_cons.mp member with rfl | old
    · obtain ⟨-, -, -, listing⟩ := listing_facts inputs workerId held
      obtain ⟨r, listed⟩ := listing requestId remains
      change ((s.plane.listed inputs.toRecoveryReadings workerId store).objects (inputs.copies requestId)).requestId = _
      rw [listed.copied, listed.named]
    · have kept : (s.plane.listed inputs.toRecoveryReadings workerId store).objects (recovery.copy requestId) =
          s.plane.objects (recovery.copy requestId) :=
        copyAll_of_forall_ne _ _ fun other _ => fresh recovery old requestId remains other
      change ((s.plane.listed inputs.toRecoveryReadings workerId store).objects _).requestId = _
      rw [kept]
      exact named recovery old requestId remains
  | @recovered before after recovery first rest running next allowed =>
    refine named.of_names (recoverRequest_names _ _ _ _ _) fun other member => ?_
    rw [running]
    rcases List.mem_append.mp member with front | back
    · rcases List.mem_append.mp front with old | same
      · exact ⟨other, List.mem_append_left _ old, rfl, fun _ => id⟩
      · refine ⟨recovery, List.mem_append_right _ List.mem_cons_self, ?_⟩
        unfold Recovery.next at same
        split at same
        · rw [List.mem_singleton.mp same]
          exact ⟨rfl, fun _ inside => next ▸ List.mem_cons_of_mem _ inside⟩
        · cases same
    · exact ⟨other, List.mem_append_right _ (List.mem_cons_of_mem _ back), rfl, fun _ => id⟩

theorem Named.run (run : Run Allowed (start p) s) : s.Named := by
  induction run with
  | refl => exact fun _ member => absurd member List.not_mem_nil
  | tail _ step named => exact named.step step

/-- Undisturbed, the rounds of a recovery do what its loop does. -/
theorem recoverAll_run {others : List Recovery} (counts : RecoveryCounts)
    (running : s.recoveries = recovery :: others) :
    ∃ s', Run (fun _ _ _ => True) s s' ∧ s'.plane =
      (recoverAll recovery.readings recovery.workerId recovery.maxAttempts counts recovery.remaining s.plane).2 := by
  obtain ⟨readings, workerId, maxAttempts, remaining⟩ := recovery
  induction remaining generalizing s counts with
  | nil => exact ⟨s, .refl, rfl⟩
  | cons requestId rest induct =>
    have round : Step (fun _ _ _ => True) s
        (s.recovered [] others ⟨readings, workerId, maxAttempts, requestId :: rest⟩ requestId rest) :=
      .recovered running rfl trivial
    unfold recoverAll
    rcases Attempt.bind_cases (recoverRequest readings workerId maxAttempts requestId) (fun outcome =>
      recoverAll readings workerId maxAttempts (counts.count outcome) rest) s.plane with
      ⟨outcome, plane, run, onward⟩ | ⟨raised, plane, run, onward⟩
    · have left : (s.recovered [] others ⟨readings, workerId, maxAttempts, requestId :: rest⟩ requestId rest).recoveries =
          ⟨readings, workerId, maxAttempts, rest⟩ :: others := by
        unfold Cluster.recovered Recovery.attempt
        dsimp only
        rw [run]
        rfl
      obtain ⟨s', later, same⟩ := induct (counts.count outcome) left
      refine ⟨s', .head round later, ?_⟩
      rw [same, onward]
      unfold Cluster.recovered Recovery.attempt
      dsimp only
      rw [run]
    · refine ⟨_, .single round, ?_⟩
      rw [onward]
      unfold Cluster.recovered Recovery.attempt
      dsimp only
      rw [run]

/-- A call of `recover_failed_worker` is a run of its own steps. -/
theorem recoverFailedWorker_run (s : Cluster) (inputs : RecoveryInputs s.plane) (workerId : String) (maxAttempts : Int)
    (fresh : ∀ other ∈ s.recoveries, ∀ a ∈ other.remaining, ∀ b, inputs.copies b ≠ other.copy a) :
    ∃ s', Run (fun _ _ _ => True) s s' ∧
      s'.plane = (recoverFailedWorker inputs.toRecoveryReadings workerId maxAttempts s.plane).2 := by
  unfold recoverFailedWorker
  split
  · exact ⟨s, .refl, rfl⟩
  rename_i positive
  rcases Option.eq_none_or_eq_some s.plane.store with held | ⟨store, held⟩
  · rw [held]
    exact ⟨s, .refl, rfl⟩
  · rw [held]
    have listed : Step (fun _ _ _ => True) s _ := .listed inputs workerId (by omega : 0 < maxAttempts) held fresh
    obtain ⟨s', later, same⟩ := recoverAll_run ⟨0, 0, 0⟩ rfl (s := { s with
      plane := s.plane.listed inputs.toRecoveryReadings workerId store
      recoveries := ⟨inputs.toRecoveryReadings, workerId, maxAttempts, sortedKeys store.requests⟩ :: s.recoveries })
    exact ⟨s', .head listed later, same⟩

/-- A call of `execute_batch` is the beginning and the end of a batch. -/
theorem executeBatch_run (s : Cluster) (workerId : String) (inputs : ManagedWorker.BatchInputs) :
    ∃ s', Run (fun _ _ _ => True) s s' ∧
      s'.plane = (onWorker workerId (ManagedWorker.executeBatch inputs) s.plane).2 := by
  have began : Step (fun _ _ _ => True) s (s.began workerId inputs.now) := .began workerId inputs.now
  unfold ManagedWorker.executeBatch
  rw [onWorker_bind]
  rcases run : onWorker workerId (ManagedWorker.beginBatch inputs.now) s.plane with ⟨raised | selected, plane⟩
  · rw [Attempt.bind_error run]
    refine ⟨_, .single began, ?_⟩
    unfold Cluster.began
    rw [run]
  · rw [Attempt.bind_ok run]
    cases selected with
    | nil =>
      refine ⟨_, .single began, ?_⟩
      unfold Cluster.began
      rw [run, if_pos rfl, onWorker_pure]
    | cons i rest =>
      have opened : (s.began workerId inputs.now).batches = [] ++ (workerId, i :: rest) :: s.batches := by
        unfold Cluster.began
        rw [run]
        rfl
      refine ⟨_, .tail (.single began) (.finished opened inputs.generated inputs.failedAt inputs.completedAt), ?_⟩
      unfold Cluster.began
      rw [run, if_neg (List.cons_ne_nil i rest)]

end Cluster

end ServingPlatform
