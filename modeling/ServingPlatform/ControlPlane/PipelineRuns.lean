import ServingPlatform.ControlPlane.Submissions
import ServingPlatform.ControlPlane.RecoveryRuns

namespace ServingPlatform

/-- A request that a submission has popped from the fair queue, and whether a worker took it. -/
structure Taken where
  requestId : String
  dispatched : Bool
  deriving DecidableEq, Repr

namespace Pipeline

open Plane

variable {p p' first : Pipeline} {r : RequestRecord} {readings : SubmitReadings} {log : List Taken}

/-- What a submission pops. -/
def taken (readings : SubmitReadings) (r : RequestRecord) (p : Pipeline) : List Taken :=
  match intake readings r p with
  | (.error _, _) => []
  | (.ok selected, p') =>
    [⟨(p'.plane.objects selected).requestId,
      selected = readings.object && (dispatch (readings.dispatch readings.object) p'.plane).1.isOk⟩]

/-- The runs of submissions and recoveries on one control plane, with all that
is popped. Each of them runs alone: neither awaits anything on its way. -/
inductive Run (Allowed : SubmitReadings → RequestRecord → Pipeline → Prop) (first : Pipeline) :
    List Taken → Pipeline → Prop
  | start : Run Allowed first [] first
  | submitted {log : List Taken} {p : Pipeline} {s : Submission} {r : RequestRecord} {store : RequestStore}
      (before : Run Allowed first log p) (stored : p.plane.store = some store) (inputs : SubmitInputs p)
      (built : s.request inputs.requestId p.model.modelId inputs.now = .ok r)
      (allowed : Allowed inputs.toSubmitReadings r p) :
      Run Allowed first (log ++ taken inputs.toSubmitReadings r p) (submit inputs.toSubmitReadings s p).2
  | recovered {log : List Taken} {p : Pipeline} (before : Run Allowed first log p) (inputs : RecoveryInputs p.plane)
      (workerId : String) (maxAttempts : Int) :
      Run Allowed first log
        { p with plane := (recoverFailedWorker inputs.toRecoveryReadings workerId maxAttempts p.plane).2 }

/-- A popped request is not lost: a worker took it, it waits again, or its end is stored. -/
def Kept (p : Pipeline) (t : Taken) : Prop :=
  t.dispatched = true ∨
    (∃ q tenant, p.plane.globalQueue = some q ∧ ∃ i ∈ q.queueOf tenant, (p.plane.objects i).requestId = t.requestId) ∨
    ∃ r, p.plane.stored t.requestId = some r ∧ r.terminal = true

/-- A submission pops its own request, which the dispatch does not find overdue. -/
def PopsOwn (readings : SubmitReadings) (r : RequestRecord) (p : Pipeline) : Prop :=
  ∀ selected p', intake readings r p = (.ok selected, p') →
    selected = readings.object ∧ ¬Overdue (readings.dispatch readings.object) p'.plane

/-- A worker took the popped request, or its end is stored. -/
def Handled (p : Pipeline) (t : Taken) : Prop :=
  t.dispatched = true ∨ ∃ r, p.plane.stored t.requestId = some r ∧ r.terminal = true

/-- What is stored as over stays so while another, new request is submitted. -/
theorem Handled.files {requestId : String} {t : Taken} (handled : Handled p t) (files : Files requestId p p')
    (fresh : p.plane.stored requestId = none) : Handled p' t := by
  rcases handled with dispatched | ⟨r, found, isOver⟩
  · exact Or.inl dispatched
  · have differ : t.requestId ≠ requestId := by
      rintro same
      rw [same, fresh] at found
      cases found
    exact Or.inr ⟨r, (files t.requestId differ).trans found, isOver⟩

/-- The request that a submission serves is handled unless it is overdue. -/
theorem execute_handled (popped : Popped readings readings.object p)
    (early : ¬Overdue (readings.dispatch readings.object) p.plane) :
    ∃ result p', execute readings readings.object p = (result, p') ∧
      Files (p.plane.objects readings.object).requestId p p' ∧
      Handled p' ⟨(p.plane.objects readings.object).requestId,
        (dispatch (readings.dispatch readings.object) p.plane).1.isOk⟩ := by
  obtain ⟨result, p', run, named, -, -, files, ended⟩ := execute_closed popped
  refine ⟨result, p', run, files, ?_⟩
  rcases dispatched : dispatch (readings.dispatch readings.object) p.plane with ⟨raised | a, plane⟩
  · have kept : ¬Abandons readings readings.object p := by
      rintro (late | ⟨a, other, admission, run', -⟩)
      · exact early late
      · cases dispatched.symm.trans run'
    obtain ⟨entries, copy, held, found, isOver, -⟩ := ended.mpr kept
    refine Or.inr ⟨copy, ?_, isOver⟩
    rw [named] at found
    unfold Plane.stored
    rw [held]
    exact found
  · exact Or.inl rfl

/-- A submission that pops its own request handles it, and keeps what was handled before. -/
theorem submit_handled {store : RequestStore} {s : Submission} (stored : p.plane.store = some store)
    (inputs : SubmitInputs p) (built : s.request inputs.requestId p.model.modelId inputs.now = .ok r)
    (pops : PopsOwn inputs.toSubmitReadings r p) :
    Files r.requestId p (submit inputs.toSubmitReadings s p).2 ∧
      ∀ t ∈ taken inputs.toSubmitReadings r p, Handled (submit inputs.toSubmitReadings s p).2 t := by
  unfold submit taken
  rw [built]
  dsimp only
  rcases intake_cases inputs built stored with ⟨-, raised, p', run, -, files⟩ |
    ⟨-, ⟨raised, p', run, -, files⟩ | ⟨selected, p', run, popped, named, files⟩⟩
  · rw [Attempt.bind_error run, run]
    exact ⟨files, fun t member => absurd member List.not_mem_nil⟩
  · rw [Attempt.bind_error run, run]
    exact ⟨files, fun t member => absurd member List.not_mem_nil⟩
  · obtain ⟨rfl, early⟩ := pops selected p' run
    obtain ⟨result, p'', run', files', handled⟩ := execute_handled popped early
    rw [Attempt.bind_ok run, serve_own _ named, run', run]
    rw [named] at files'
    refine ⟨fun other differ => (files' other differ).trans (files other differ), fun t member => ?_⟩
    rw [List.mem_singleton.mp member]
    simpa using handled

/-- In a run whose submissions pop their own requests before these are overdue, no popped request is lost. -/
theorem run_keeps (run : Run PopsOwn first log p) : ∀ t ∈ log, Kept p t := by
  have handled : ∀ t ∈ log, Handled p t := by
    induction run with
    | start => exact fun t member => absurd member List.not_mem_nil
    | @submitted log p s r store before stored inputs built pops induct =>
      obtain ⟨files, own⟩ := submit_handled stored inputs built pops
      have fresh : p.plane.stored r.requestId = none := by
        obtain ⟨named, -⟩ := Submission.request_facts built
        unfold Plane.stored
        rw [stored, Option.bind_some, named]
        exact Dict.contains_eq_false_iff.mp (inputs.unstored store stored)
      intro t member
      rcases List.mem_append.mp member with old | new
      · exact (induct t old).files files fresh
      · exact own t new
    | recovered before inputs workerId maxAttempts induct =>
      intro t member
      refine (induct t member).imp id ?_
      rintro ⟨r, found, isOver⟩
      exact ⟨r, recoverFailedWorker_over inputs workerId maxAttempts found isOver, isOver⟩
  exact fun t member => (handled t member).imp id Or.inr

namespace Dropped

/-- A stored request is assigned to a worker that is gone. -/
def pipeline : Pipeline :=
  { Unanswered.pipeline with
    plane := { Unanswered.pipeline.plane with store := some (RequestStore.empty.insert (Lost.assigned "lost" (by decide))) } }

def recovery : RecoveryInputs pipeline.plane :=
  { copies := fun _ => 5
    checkedAt := fun _ => 2
    decidedAt := fun _ => 2
    changedAt := fun _ => 2
    distinct := by
      intro store held a b inA inB _
      cases held
      have first : a ∈ ["lost"] := Dict.contains_iff.mp inA
      have second : b ∈ ["lost"] := Dict.contains_iff.mp inB
      rw [List.mem_singleton.mp first, List.mem_singleton.mp second]
    new := by
      intro q held tenant i waits requestId _
      cases held
      obtain ⟨queue, entry, member⟩ := WeightedFairRequestQueue.queueOf_entry waits
      cases List.mem_singleton.mp entry
      cases member }

/-- The pipeline when the worker's request waits in the fair queue. -/
def requeued : Pipeline :=
  { pipeline with plane := (recoverFailedWorker recovery.toRecoveryReadings "worker" 3 pipeline.plane).2 }

theorem requeued_queues : requeued.plane.globalQueue.map (fun q => q.queues.entries) = some [("tenant", [5])] := by
  decide +kernel

theorem requeued_store : requeued.plane.store.map (fun store => store.contains "submitted") = some false := by
  decide +kernel

def inputs : SubmitInputs requeued :=
  { Unanswered.answers with
    now := 3
    queuedAt := 3
    clocks := fun _ _ => 4
    unique := by
      intro j same
      by_cases copied : j = 5
      · subst copied
        exact absurd same (by decide +kernel)
      · have kept : requeued.plane.objects j = Rejected.request :=
          recoverFailedWorker_objects (fun _ => Ne.symm copied) "worker" 3 pipeline.plane
        rw [kept] at same
        exact absurd same (by decide)
    waitsNowhere := by
      intro q held tenant waits
      have entries := requeued_queues
      rw [held, Option.map_some] at entries
      obtain ⟨queue, entry, member⟩ := WeightedFairRequestQueue.queueOf_entry waits
      rw [Option.some.inj entries] at entry
      cases List.mem_singleton.mp entry
      exact absurd member (by decide)
    unstored := by
      intro store held
      have known := requeued_store
      rw [held, Option.map_some] at known
      exact Option.some.inj known
    unreserved := by
      intro book held
      have reserved : requeued.plane.reservations.map (fun book => book.contains "submitted") = some false := by
        decide +kernel
      rw [held, Option.map_some] at reserved
      exact Option.some.inj reserved
    answers := Unanswered.inputs.answers }

/-- The request of the later submission. -/
def submitted : RequestRecord :=
  { Unanswered.request with
    createdAt := 3
    transitionTimestamps := ⟨[(.received, 3)], by decide⟩
    stamped := by decide }

end Dropped

/-- A submission after a recovery pops the recovered request, and drops it while it is queued. -/
theorem recovered_request_dropped : ∃ first p : Pipeline, ∃ log, Run (fun _ _ _ => True) first log p ∧
    ∃ t ∈ log, ¬Kept p t ∧ ∃ r, p.plane.stored t.requestId = some r ∧ r.status = .queued := by
  obtain ⟨store, stored⟩ : ∃ store, Dropped.requeued.plane.store = some store :=
    Option.isSome_iff_exists.mp (by decide +kernel)
  have built : Unanswered.submission.request Dropped.inputs.requestId Dropped.requeued.model.modelId
      Dropped.inputs.now = .ok Dropped.submitted := rfl
  have run : Run (fun _ _ _ => True) Dropped.pipeline
      ([] ++ taken Dropped.inputs.toSubmitReadings Dropped.submitted Dropped.requeued)
      (submit Dropped.inputs.toSubmitReadings Unanswered.submission Dropped.requeued).2 :=
    .submitted (.recovered .start Dropped.recovery "worker" 3) stored Dropped.inputs built trivial
  have popped : taken Dropped.inputs.toSubmitReadings Dropped.submitted Dropped.requeued = [⟨"lost", false⟩] := by
    decide +kernel
  rw [popped] at run
  have queues : (submit Dropped.inputs.toSubmitReadings Unanswered.submission Dropped.requeued).2.plane.globalQueue.map
      (fun q => q.queues.entries) = some [("tenant", [1])] := by decide +kernel
  have named : ((submit Dropped.inputs.toSubmitReadings Unanswered.submission Dropped.requeued).2.plane.objects
      1).requestId = "submitted" := by decide +kernel
  have shown : ((submit Dropped.inputs.toSubmitReadings Unanswered.submission Dropped.requeued).2.plane.stored
      "lost").map RequestRecord.status = some .queued := by decide +kernel
  obtain ⟨r, found, status⟩ := Option.map_eq_some_iff.mp shown
  refine ⟨_, _, _, run, ⟨"lost", false⟩, List.mem_singleton_self _, ?_, r, found, status⟩
  rintro (dispatched | ⟨q, tenant, held, i, waits, same⟩ | ⟨other, found', isOver⟩)
  · cases dispatched
  · rw [held, Option.map_some] at queues
    obtain ⟨queue, entry, member⟩ := WeightedFairRequestQueue.queueOf_entry waits
    rw [Option.some.inj queues] at entry
    cases List.mem_singleton.mp entry
    cases List.mem_singleton.mp member
    rw [named] at same
    exact absurd same (by decide)
  · cases found.symm.trans found'
    unfold RequestRecord.terminal at isOver
    rw [status] at isOver
    cases isOver

/-- A submission to the empty pipeline pops its own request. -/
theorem run_keeps_alone : ∃ p log, Run PopsOwn Unanswered.pipeline log p ∧ log ≠ [] ∧ ∀ t ∈ log, Kept p t := by
  have popped : (intake Unanswered.answers Unanswered.request Unanswered.pipeline).1 = .ok 1 := by decide +kernel
  have pops : PopsOwn Unanswered.answers Unanswered.request Unanswered.pipeline := by
    intro selected p' run
    have deadline : ((intake Unanswered.answers Unanswered.request Unanswered.pipeline).2.plane.objects 1).deadline =
        .infinite := by decide +kernel
    rw [run] at popped deadline
    refine ⟨Except.ok.inj popped, ?_⟩
    rintro (⟨-, late⟩ | ⟨a, q, -, -, late⟩)
    · exact absurd (deadline ▸ late) (by decide)
    · exact absurd (deadline ▸ late) (by decide)
  have built : Unanswered.submission.request Unanswered.inputs.requestId Unanswered.pipeline.model.modelId
      Unanswered.inputs.now = .ok Unanswered.request := rfl
  have stored : Unanswered.pipeline.plane.store = some RequestStore.empty := rfl
  have taken : taken Unanswered.answers Unanswered.request Unanswered.pipeline = [⟨"submitted", true⟩] := by
    decide +kernel
  have run : Run PopsOwn Unanswered.pipeline
      ([] ++ Pipeline.taken Unanswered.answers Unanswered.request Unanswered.pipeline)
      (submit Unanswered.answers Unanswered.submission Unanswered.pipeline).2 :=
    .submitted .start stored Unanswered.inputs built pops
  rw [taken] at run
  exact ⟨_, _, run, List.cons_ne_nil _ _, run_keeps run⟩

end Pipeline

end ServingPlatform
