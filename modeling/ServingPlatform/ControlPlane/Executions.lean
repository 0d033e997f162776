import ServingPlatform.ControlPlane.BatchSteps
import ServingPlatform.ControlPlane.DispatchFates
import ServingPlatform.ControlPlane.Pipeline

namespace ServingPlatform

namespace Plane

variable {p p' : Plane} {i : ObjectId} {entries : RequestStore} {requestId : String}

/-- The store shows the end of a request, as it is. -/
def Ended (p : Plane) (i : ObjectId) : Prop :=
  ∃ entries copy, p.store = some entries ∧ entries.get? (p.objects i).requestId = some copy ∧ copy.terminal = true ∧
    copy.status = (p.objects i).status

theorem ended_of_insert {r : RequestRecord} (stored : p.store = some (entries.insert r)) (object : p.objects i = r)
    (isOver : r.terminal = true) : p.Ended i := by
  refine ⟨_, r, stored, ?_, isOver, by rw [object]⟩
  rw [object]
  exact RequestStore.get?_insert_self

theorem Alive.not_ended (alive : p.Alive requestId) (named : (p.objects i).requestId = requestId) : ¬p.Ended i := by
  rintro ⟨entries, copy, held, found, isOver, -⟩
  obtain ⟨others, other, held', found', waits⟩ := alive
  cases held.symm.trans held'
  rw [named] at found
  cases found.symm.trans found'
  rw [isOver] at waits
  cases waits

theorem save_run (stored : p.store = some entries) (known : entries.contains (p.objects i).requestId = true) :
    save none i p = (.ok (), { p with store := some (entries.insert (p.objects i)) }) := by
  unfold save RequestStore.save
  rw [stored]
  dsimp only
  rw [if_pos known]

end Plane

namespace Pipeline

open Plane

variable {α : Type} {p p' : Pipeline} {plane : Plane} {i : ObjectId} {readings : SubmitReadings}

theorem onPlane_run {m : Attempt Raised Plane α} {result : Except Raised α} (run : m p.plane = (result, plane)) :
    onPlane m p = (result, { p with plane := plane }) :=
  Attempt.zoom_run run

theorem conclude_over {p : Plane} (isOver : (p.objects i).terminal = true) (target : RequestState) (now : Seconds) :
    conclude i target now p = (.ok (), p) := by
  unfold conclude
  rw [Attempt.bind_ok current_run, if_pos isOver]
  rfl

/-- A stored request is saved with its last transition. -/
theorem close_run {p : Plane} (target : RequestState) (allowed : target ∈ (p.objects i).status.allowed)
    (ends : target.isTerminal = true) (alive : p.Alive (p.objects i).requestId) (now : Seconds) :
    ∃ p', close i target now p = (.ok (), p') ∧ Touches i p p' ∧ p'.reservations = p.reservations ∧ p'.Ended i := by
  obtain ⟨entries, copy, stored, found, -⟩ := alive
  have object : (p.objects.put i ((p.objects i).enter target now)) i = (p.objects i).enter target now := Objects.put_self
  have saved := save_run (p := { p with objects := p.objects.put i ((p.objects i).enter target now) }) (i := i) stored
    (by dsimp only; rw [object]; exact RequestStore.contains_iff.mpr ⟨copy, found⟩)
  have touches : Touches i p { p with objects := p.objects.put i ((p.objects i).enter target now) } :=
    .of_put rfl rfl rfl rfl
  unfold close
  rw [Attempt.bind_ok (transition_ok allowed now), saved]
  exact ⟨_, rfl, touches.trans (.of_save saved), rfl, ended_of_insert rfl rfl (by dsimp only; rw [object]; exact ends)⟩

theorem conclude_alive {p : Plane} (waits : (p.objects i).terminal = false) (target : RequestState) (now : Seconds) :
    conclude i target now p = close i target now p := by
  unfold conclude
  rw [Attempt.bind_ok current_run, if_neg (by simp [waits])]

/-- A request that `_execute` may still fail. -/
def Failable (r : RequestRecord) : Prop :=
  r.terminal = false → r.status = .queued ∨ r.status = .assigned ∨ r.status = .running

theorem Failable.allowed {r : RequestRecord} (failable : Failable r) (waits : r.terminal = false) :
    .failed ∈ r.status.allowed ∧ .timedOut ∈ r.status.allowed := by
  rcases failable waits with status | status | status <;> rw [status] <;> decide

/-- The `except` clauses close the request unless it is over already. -/
theorem recoverRun_fate (raised : Raised) (alive : p.plane.Alive (p.plane.objects i).requestId)
    (failable : Failable (p.plane.objects i)) :
    ∃ result p', recoverRun readings i raised p = (.error result, p') ∧ Touches i p.plane p'.plane ∧
      p'.plane.reservations = p.plane.reservations ∧ p'.admission = p.admission ∧
      (p'.plane.Ended i ↔ (p.plane.objects i).terminal = false) := by
  have concluded : ∀ target ∈ [RequestState.failed, RequestState.timedOut], ∃ plane,
      conclude i target readings.changedAt p.plane = (.ok (), plane) ∧ Touches i p.plane plane ∧
        plane.reservations = p.plane.reservations ∧ (plane.Ended i ↔ (p.plane.objects i).terminal = false) := by
    intro target member
    cases isOver : (p.plane.objects i).terminal with
    | true =>
      refine ⟨p.plane, conclude_over isOver target _, .refl _, rfl, ?_⟩
      exact ⟨fun ended => absurd ended (alive.not_ended rfl), fun waits => (by cases waits)⟩
    | false =>
      obtain ⟨failed, timedOut⟩ := failable.allowed isOver
      have allowed : target ∈ (p.plane.objects i).status.allowed := by
        rcases List.mem_pair.mp member with rfl | rfl <;> assumption
      have ends : target.isTerminal = true := by
        rcases List.mem_pair.mp member with rfl | rfl <;> rfl
      obtain ⟨plane, run, touches, kept, ended⟩ := close_run _ allowed ends alive readings.changedAt
      rw [conclude_alive isOver]
      exact ⟨plane, run, touches, kept, fun _ => rfl, fun _ => ended⟩
  unfold recoverRun
  split
  · obtain ⟨plane, run, touches, kept, ended⟩ := concluded
      (if (p.plane.objects i).deadline.expired readings.endedAt then .timedOut else .failed) (by split <;> simp)
    rw [Attempt.bind_ok (onPlane_run current_run), Attempt.bind_ok (onPlane_run run)]
    exact ⟨_, _, rfl, touches, kept, rfl, ended⟩
  · obtain ⟨plane, run, touches, kept, ended⟩ := concluded .failed (by simp)
    rw [Attempt.bind_ok (onPlane_run run)]
    exact ⟨_, _, rfl, touches, kept, rfl, ended⟩

end Pipeline

end ServingPlatform

namespace ServingPlatform.Pipeline

open Plane ManagedWorker

variable {p p' : Pipeline} {plane : Plane} {i : ObjectId} {readings : SubmitReadings} {requestId : String}

/-- A dispatched request that its worker's batch ends without a result. -/
def Dropped (readings : SubmitReadings) (i : ObjectId) (p : Pipeline) : Prop :=
  ∃ a plane admission, dispatch (readings.dispatch i) p.plane = (.ok a, plane) ∧
    p.admission.markRunning (p.plane.objects i).requestId = (.ok (), admission) ∧ a.workerId ∈ plane.directory ∧
    Drops readings.batch i ⟨plane.workers a.workerId, plane.objects⟩

/-- The request is ended by the dispatch, which finds it overdue, or by the worker. -/
def Abandons (readings : SubmitReadings) (i : ObjectId) (p : Pipeline) : Prop :=
  Overdue (readings.dispatch i) p.plane ∨ Dropped readings i p

/-- A popped request, ready for dispatch; no other object bears its id. -/
structure Popped (readings : SubmitReadings) (i : ObjectId) (p : Pipeline) : Prop where
  ready : Ready (readings.dispatch i) p.plane
  unique : ∀ j, (p.plane.objects j).requestId = (p.plane.objects i).requestId → j = i

/-- How the `try` block of `_execute` ends: with the result of the saved,
completed request, or with the request ended exactly if it is abandoned. -/
inductive Ran (readings : SubmitReadings) (i : ObjectId) (p : Pipeline) :
    Except Raised PlatformGenerationResult → Pipeline → Prop
  | answered {answer : PlatformGenerationResult} {p' : Pipeline} (named : (p'.plane.objects i).requestId =
        (p.plane.objects i).requestId) (unreserved : p'.plane.Unreserved (p.plane.objects i).requestId)
      (frame : ∀ other, other ≠ (p.plane.objects i).requestId → p'.plane.stored other = p.plane.stored other)
      (ended : p'.plane.Ended i) (kept : ¬Abandons readings i p) : Ran readings i p (.ok answer) p'
  | raised {raised : Raised} {p' : Pipeline} (named : (p'.plane.objects i).requestId = (p.plane.objects i).requestId)
      (unreserved : p'.plane.Unreserved (p.plane.objects i).requestId)
      (frame : ∀ other, other ≠ (p.plane.objects i).requestId → p'.plane.stored other = p.plane.stored other)
      (alive : p'.plane.Alive (p.plane.objects i).requestId)
      (isOver : (p'.plane.objects i).terminal = true ↔ Abandons readings i p)
      (failable : Failable (p'.plane.objects i)) : Ran readings i p (.error raised) p'

theorem find?_named {batch : List WorkerExecutionResult}
    (found : ∃ execution ∈ batch, execution.requestId = requestId) :
    ∃ execution, (batch.find? fun execution => execution.requestId = requestId) = some execution := by
  obtain ⟨execution, member, named⟩ := found
  rw [← Option.isSome_iff_exists, List.find?_isSome]
  exact ⟨execution, member, by simp [named]⟩

theorem find?_unnamed {batch : List WorkerExecutionResult}
    (absent : ∀ execution ∈ batch, execution.requestId ≠ requestId) :
    (batch.find? fun execution => execution.requestId = requestId) = none := by
  rw [List.find?_eq_none]
  exact fun execution member => by simpa using absent execution member

/-- The batch of a queued request's worker: the request is completed and saved, or it is over only if dropped. -/
theorem executeOn_cases {batch : BatchInputs} {a : Assignment} (alive : plane.Alive requestId)
    (named : (plane.objects i).requestId = requestId)
    (unique : ∀ j, (plane.objects j).requestId = requestId → j = i) (queued : (plane.objects i).status = .queued) :
    ∃ result plane', executeOn batch i requestId a plane = (result, plane') ∧
      (plane'.objects i).requestId = requestId ∧ plane'.reservations = plane.reservations ∧
      (∀ other, other ≠ requestId → plane'.stored other = plane.stored other) ∧
      ((∃ answer, result = .ok answer) ∧ plane'.Ended i ∧
          ¬Drops batch i ⟨plane.workers a.workerId, plane.objects⟩ ∨
        (∃ raised, result = .error raised) ∧ plane'.Alive requestId ∧ Failable (plane'.objects i) ∧
          ((plane'.objects i).terminal = true ↔ Drops batch i ⟨plane.workers a.workerId, plane.objects⟩)) := by
  subst named
  obtain ⟨executed, process, batched, same, outcome⟩ :=
    executeBatch_cases batch ⟨plane.workers a.workerId, plane.objects⟩ (i := i) unique
  have ran : onWorker a.workerId (executeBatch batch) plane =
      (executed, { plane.setWorker a.workerId process.worker with objects := process.objects }) :=
    Attempt.zoom_run batched
  have after : ({ plane.setWorker a.workerId process.worker with objects := process.objects } : Plane).Alive
      (plane.objects i).requestId := alive.congr rfl
  unfold executeOn
  rcases outcome with ⟨executions, rfl, found, completed, kept⟩ | ⟨unnamed, isOver, statuses⟩
  · obtain ⟨execution, chosen⟩ := find?_named found
    obtain ⟨entries, copy, stored, shown, -⟩ := after
    have saved := save_run (p := { plane.setWorker a.workerId process.worker with objects := process.objects })
      (i := i) stored (by dsimp only; rw [same]; exact RequestStore.contains_iff.mpr ⟨copy, shown⟩)
    rw [Attempt.bind_ok ran]
    dsimp only
    rw [chosen]
    dsimp only
    rw [Attempt.bind_ok saved]
    have frame : ∀ other, other ≠ (plane.objects i).requestId → _ = plane.stored other := fun other differ =>
      (Touches.of_save saved).stored other (by dsimp only; rw [same]; exact differ)
    refine ⟨_, _, rfl, same i, rfl, frame, Or.inl ⟨⟨_, rfl⟩, ended_of_insert rfl rfl ?_, kept⟩⟩
    dsimp only
    unfold RequestRecord.terminal
    rw [completed]
    rfl
  · have failable : Failable (process.objects i) := fun waits =>
      (statuses waits).imp (fun status => status.trans queued) Or.inr
    cases executed with
    | error raised =>
      rw [Attempt.bind_error ran]
      exact ⟨_, _, rfl, same i, rfl, fun _ _ => rfl, Or.inr ⟨⟨_, rfl⟩, after, failable, isOver⟩⟩
    | ok executions =>
      rw [Attempt.bind_ok ran, find?_unnamed (unnamed executions rfl)]
      exact ⟨_, _, rfl, same i, rfl, fun _ _ => rfl, Or.inr ⟨⟨_, rfl⟩, after, failable, isOver⟩⟩

theorem run_cases (popped : Popped readings i p) :
    ∃ result p', run readings i p = (result, p') ∧ Ran readings i p result p' := by
  obtain ⟨dispatched, plane, first, fate, queued⟩ := dispatch_fate popped.ready
  have dropped_ok : Dropped readings i p → ∃ a, dispatched = .ok a := by
    rintro ⟨a, other, admission, run, -⟩
    exact ⟨a, congrArg Prod.fst (first.symm.trans run)⟩
  unfold run
  rw [Attempt.bind_ok (onPlane_run current_run)]
  cases dispatched with
  | error raised =>
    have same : Abandons readings i p ↔ Overdue (readings.dispatch i) p.plane := by
      refine ⟨fun abandons => abandons.resolve_right fun dropped => ?_, Or.inl⟩
      obtain ⟨a, other⟩ := dropped_ok dropped
      cases other
    have failable : Failable (plane.objects i) := fun waits => (fate.status waits).imp id Or.inl
    rw [Attempt.bind_error (onPlane_run first)]
    exact ⟨_, _, rfl, .raised fate.touches.requestId fate.unreserved fate.touches.stored fate.alive (fate.isOver.trans same.symm) failable⟩
  | ok a =>
    have status := queued a rfl
    have waits : (plane.objects i).terminal = false := not_terminal_of_status status rfl
    have early : ¬Overdue (readings.dispatch i) p.plane := by
      rw [← fate.isOver, waits]
      simp
    -- it stays queued if the worker is not reached
    have unreached : ∀ {raised admission}, ¬Dropped readings i p →
        Ran readings i p (.error raised) { p with plane := plane, admission := admission } := by
      intro raised admission kept
      refine .raised fate.touches.requestId fate.unreserved fate.touches.stored fate.alive ?_ (fun _ => Or.inl status)
      dsimp only
      rw [waits]
      exact ⟨fun isOver => (by cases isOver), fun abandons => absurd abandons (not_or.mpr ⟨early, kept⟩)⟩
    have dropped_iff : ∀ {admission}, p.admission.markRunning (p.plane.objects i).requestId = (.ok (), admission) →
        (Dropped readings i p ↔ a.workerId ∈ plane.directory ∧
          Drops readings.batch i ⟨plane.workers a.workerId, plane.objects⟩) := by
      intro admission marked
      constructor
      · rintro ⟨a', other, admission', run, -, listed, drops⟩
        cases first.symm.trans run
        exact ⟨listed, drops⟩
      · rintro ⟨listed, drops⟩
        exact ⟨a, plane, admission, first, marked, listed, drops⟩
    rw [Attempt.bind_ok (onPlane_run first)]
    rcases marking : p.admission.markRunning (p.plane.objects i).requestId with ⟨raised | ⟨⟩, admission⟩
    · have marked : markRunning (p.plane.objects i).requestId { p with plane := plane } =
          (.error raised, { p with plane := plane, admission := admission }) := Attempt.zoom_run marking
      rw [Attempt.bind_error marked]
      refine ⟨_, _, rfl, unreached ?_⟩
      rintro ⟨a', other, admission', -, marked', -⟩
      cases marking.symm.trans marked'
    have marked : markRunning (p.plane.objects i).requestId { p with plane := plane } =
        (.ok (), { p with plane := plane, admission := admission }) := Attempt.zoom_run marking
    rw [Attempt.bind_ok marked, Attempt.bind_ok (onPlane_run Attempt.run_read)]
    by_cases listed : a.workerId ∈ plane.directory
    · have reached : ¬decide (a.workerId ∈ plane.directory) = false := by simp [listed]
      dsimp only
      rw [if_neg reached]
      have unique : ∀ j, (plane.objects j).requestId = (p.plane.objects i).requestId → j = i := by
        intro j same
        by_contra differ
        rw [fate.touches.others j differ] at same
        exact differ (popped.unique j same)
      have dropped := dropped_iff marking
      obtain ⟨result, plane', executed, named, reserved, frame, outcome⟩ :=
        executeOn_cases (a := a) fate.alive fate.touches.requestId unique status
      rw [onPlane_run executed]
      have unreserved : plane'.Unreserved (p.plane.objects i).requestId := by
        unfold Unreserved
        rw [reserved]
        exact fate.unreserved
      have abandons : Abandons readings i p ↔ Drops readings.batch i ⟨plane.workers a.workerId, plane.objects⟩ := by
        unfold Abandons
        rw [dropped]
        simp [early, listed]
      have frames : ∀ other, other ≠ (p.plane.objects i).requestId → plane'.stored other = p.plane.stored other :=
        fun other differ => (frame other differ).trans (fate.touches.stored other differ)
      rcases outcome with ⟨⟨answer, rfl⟩, ended, kept⟩ | ⟨⟨raised, rfl⟩, alive, failable, isOver⟩
      · exact ⟨_, _, rfl, .answered named unreserved frames ended (by rw [abandons]; exact kept)⟩
      · exact ⟨_, _, rfl, .raised named unreserved frames alive (isOver.trans abandons.symm) failable⟩
    · have unlisted : decide (a.workerId ∈ plane.directory) = false := by simp [listed]
      dsimp only
      rw [if_pos unlisted]
      exact ⟨_, _, rfl, unreached fun dropped => listed ((dropped_iff marking).mp dropped).1⟩

/-- Nothing is left open for a request: its end is stored, and no capacity or worker is reserved for it. -/
structure Closed (p : Pipeline) (i : ObjectId) : Prop where
  ended : p.plane.Ended i
  unadmitted : p.admission.reserved.contains (p.plane.objects i).requestId = false
  unreserved : p.plane.Unreserved (p.plane.objects i).requestId

/-- `_execute` closes a popped request unless the dispatch or the worker ends it before. -/
theorem execute_closed (popped : Popped readings i p) :
    ∃ result p', execute readings i p = (result, p') ∧ (p'.plane.objects i).requestId = (p.plane.objects i).requestId ∧
      p'.plane.Unreserved (p.plane.objects i).requestId ∧
      p'.admission.reserved.contains (p.plane.objects i).requestId = false ∧
      (∀ other, other ≠ (p.plane.objects i).requestId → p'.plane.stored other = p.plane.stored other) ∧
      (p'.plane.Ended i ↔ ¬Abandons readings i p) := by
  obtain ⟨result, p', ran, outcome⟩ := run_cases popped
  unfold execute Attempt.ensure
  cases outcome with
  | answered named unreserved frame ended kept =>
    rw [Attempt.handle_ok ran]
    exact ⟨_, _, rfl, named, unreserved, TenantAdmissionController.release_contains _ _, frame, fun _ => kept, fun _ => ended⟩
  | @raised raised p' named unreserved frame alive isOver failable =>
    rw [← named] at alive
    obtain ⟨recovered, p'', run', touches, reserved, -, ended⟩ :=
      recoverRun_fate raised alive failable
    rw [Attempt.handle_caught ran rfl, run']
    refine ⟨_, _, rfl, touches.requestId.trans named, ?_, TenantAdmissionController.release_contains _ _,
      fun other differ => (touches.stored other (named ▸ differ)).trans (frame other differ), ?_⟩
    · unfold Unreserved
      change ∀ book, p''.plane.reservations = some book → _
      rw [reserved]
      exact unreserved
    · change p''.plane.Ended i ↔ _
      rw [ended, ← isOver, Bool.not_eq_true]

end ServingPlatform.Pipeline
