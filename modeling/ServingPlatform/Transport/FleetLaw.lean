import ServingPlatform.Transport.FleetRuns

namespace ServingPlatform

/-- The answer to a hand-over is lawful for the assigned request. -/
theorem RequestRecord.lawful_handOver {r : RequestRecord} {now : Seconds} (status : r.status = .assigned) :
    r.Lawful (requestToDict (r.enter .queued now)) := by
  intro merged run
  rw [applyRequestDict_requestToDict] at run
  cases run
  refine ⟨?_, fun isOver => ?_⟩
  · have assigned : r.status.Leads .queued := by
      rw [status]
      exact .of_allowed (by decide)
    exact assigned
  · unfold terminal at isOver
    rw [status] at isOver
    cases isOver

namespace WorkerApp

variable {app : WorkerApp}

theorem report_ok {executions : List WorkerExecutionResult}
    (found : ∀ execution ∈ executions, ∃ j, app.requests.get? execution.requestId = some j) :
    ∃ items, app.report executions = .ok items := by
  induction executions with
  | nil => exact ⟨[], rfl⟩
  | cons execution rest ih =>
    obtain ⟨j, here⟩ := found execution List.mem_cons_self
    obtain ⟨items, run⟩ := ih fun other member => found other (List.mem_cons_of_mem _ member)
    unfold report
    rw [here, run]
    exact ⟨_, rfl⟩

/-- An app reports each batch of its worker. -/
theorem Served.reported (served : app.Served) {inputs : ManagedWorker.BatchInputs} {executions : List WorkerExecutionResult}
    (run : (ManagedWorker.executeBatch inputs app.process).1 = .ok executions) :
    ∃ items, (executeBatch inputs app).1 = .ok items := by
  rcases begun : ManagedWorker.executeBatch inputs app.process with ⟨result, process⟩
  rw [begun] at run
  cases run
  rw [executeBatch_run begun]
  refine report_ok fun execution member => ?_
  obtain ⟨k, queued, named, -⟩ := ManagedWorker.executeBatch_reports (by rw [begun]) member
  refine ⟨k, ?_⟩
  rw [← named]
  exact served.waiting k queued

end WorkerApp

namespace Fleet

variable {f f' : Fleet} {action : FleetAction}

theorem Tracked.start (fresh : f.Fresh) : f.Tracked := by
  have late : f.lateEnqueues = [] := by
    unfold lateEnqueues
    rw [fresh.late]
    rfl
  refine ⟨fun workerId => ⟨fun requestId j found => ?_, fun j member => ?_⟩, fun i workerId here => ?_, fun i workerId here => ?_,
    fun workerId requestId k found => ?_, fun k inside => ?_, fun workerId requestId j found => ?_, fun workerId payload member => ?_, ?_⟩
  · obtain ⟨-, requests, -⟩ := fresh.apps workerId
    rw [requests] at found
    cases found
  · obtain ⟨-, -, queue, -⟩ := fresh.apps workerId
    rw [queue] at member
    cases member
  · rw [fresh.phase] at here
    cases here
  · rw [fresh.phase] at here
    cases here
  · rw [fresh.clients] at found
    cases found
  · rw [fresh.created] at inside
    cases inside
  · obtain ⟨-, requests, -⟩ := fresh.apps workerId
    rw [requests] at found
    cases found
  · rw [late] at member
    cases member
  · rw [late]
    exact List.nodup_nil

/-- A step keeps track. -/
theorem Tracked.act (tracked : f.Tracked) (acts : f.act action = some f') : f'.Tracked := by
  cases action with
  | submit s requestId modelId now intake => exact tracked.submit acts
  | enqueue delivery now at_ => exact tracked.enqueue acts
  | execute delivery inputs at_ => exact tracked.execute acts
  | arrive n now answers inputs => exact tracked.arrive acts
  | load delivery model answers at_ =>
    simp only [Fleet.act] at acts
    split at acts
    · rename_i i workerId here
      obtain ⟨loaded, phase⟩ := tracked.load delivery model answers
      rcases run : Link.loadModel delivery model answers (f.link workerId) with ⟨raised | ⟨⟨⟩⟩, l⟩
      · rw [run] at acts loaded phase
        cases acts
        refine loaded.abandon (Or.inl ⟨workerId, ?_⟩) at_
        unfold lose
        split <;> exact phase.trans here
      · rw [run] at acts loaded
        cases acts
        exact loaded
    · cases acts
  | refuse expired at_ =>
    simp only [Fleet.act] at acts
    split at acts
    · rename_i i workerId here
      have current : f.Current i := Or.inl ⟨workerId, here⟩
      split at acts <;> cases acts
      · refine tracked.leave current (RequestRecord.follow_requestId _) ?_
        rw [RequestRecord.follow_single]
        · rfl
        · rw [(tracked.assigned i workerId here).2]
          decide
      · exact tracked.abandon current at_
    · cases acts
  | desert dispatched at_ =>
    simp only [Fleet.act] at acts
    split at acts
    · rename_i i workerId here
      split at acts <;> cases acts
      · exact tracked.giveUp here at_
      · exact tracked.abandon (Or.inr ⟨workerId, here⟩) at_
    · cases acts

/-- Where a reachable pipeline merges, a submission waits for its batch. -/
theorem Tracked.merges_awaited (tracked : f.Tracked) : (∀ m ∈ f.merges action, m.1.Lawful m.2) ↔ f.Awaited action := by
  cases action with
  | submit s requestId modelId now intake => simp [merges, Awaited]
  | load delivery model answers at_ => simp [merges, Awaited]
  | refuse expired at_ => simp [merges, Awaited]
  | desert dispatched at_ => simp [merges, Awaited]
  | arrive n now answers inputs => simp [merges, Awaited]
  | enqueue delivery now at_ =>
    have accepted : (f.Awaited (.enqueue delivery now at_)) := trivial
    refine iff_of_true (fun m member => ?_) accepted
    unfold merges at member
    dsimp only at member
    split at member
    · rename_i i workerId here
      have effect := WorkerApp.enqueueRequest_cases (requestToDict (f.objects i)) now (f.apps workerId)
      rw [requestFromDict_requestToDict] at effect
      rcases Link.request_cases delivery "POST" "/internal/requests" (WorkerApp.enqueueRequest (requestToDict (f.objects i)) now)
        (f.link workerId) with ⟨raised, -, run⟩ | ⟨raised, -, run⟩ | ⟨payload, -, answered, run⟩
      · rw [run] at member
        cases member
      · rw [run] at member
        cases member
      · rw [run] at member
        cases List.mem_singleton.mp member
        rcases effect with ⟨raised, refused⟩ | ⟨r, ⟨⟩, kept⟩
        · have here : (WorkerApp.enqueueRequest (requestToDict (f.objects i)) now (f.link workerId).app).1 = .error raised := by
            exact congrArg Prod.fst refused
          rw [here] at answered
          cases answered
        · have here : (WorkerApp.enqueueRequest (requestToDict (f.objects i)) now (f.link workerId).app).1 =
              .ok (requestToDict ((f.objects i).enter .queued now)) := congrArg Prod.fst kept
          rw [here] at answered
          cases answered
          exact RequestRecord.lawful_handOver (tracked.assigned i workerId ‹_›).2
    · cases member
  | execute delivery inputs at_ =>
    unfold merges
    dsimp only
    split
    · rename_i i workerId here
      have served := tracked.apps workerId
      cases delivery with
      | requestLost => exact iff_of_true (fun m member => by cases member) trivial
      | replyLost => exact iff_of_true (fun m member => by cases member) trivial
      | answered =>
        unfold Awaited Link.request
        rw [here]
        rcases answered : WorkerApp.executeBatch inputs (f.link workerId).app with ⟨raised | items, app⟩
        · refine iff_of_true (fun m member => by cases member) fun executions batch => ?_
          obtain ⟨items, told⟩ := served.reported batch
          cases told.symm.trans (congrArg Prod.fst answered)
        · obtain ⟨executions, batch, ids, completed⟩ := served.reports answered
          have queued : ∀ requestId k, (f.clients workerId).requests.get? requestId = some k →
              (f.objects k).terminal = true ∨ (f.objects k).status = .queued := by
            intro requestId k found
            obtain ⟨-, -, stands⟩ := tracked.known workerId requestId k found
            refine stands.imp id ?_
            rintro ⟨other, handed⟩
            exact (tracked.handedOver k other handed).2
          dsimp only
          rw [Link.merged_lawful_iff completed queued, ids]
          constructor
          · intro awaited executions' batch'
            cases batch.symm.trans batch'
            exact awaited
          · intro awaited
            exact awaited executions batch
    · rename_i other
      refine iff_of_true (fun m member => by cases member) ?_
      unfold Awaited
      split
      · rename_i inputs' at' same
        split
        · rename_i i workerId here
          exact absurd here (other i workerId)
        · trivial
      · trivial

/-- Merges respect the lifecycle just if every answered batch reports only
requests whose submissions have not ended otherwise. -/
theorem merges_lawful_iff (fresh : f.Fresh) (actions : List FleetAction) :
    (∀ m ∈ f.mergesOf actions, m.1.Lawful m.2) ↔ f.AwaitedIn actions := by
  have tracked := Tracked.start fresh
  clear fresh
  induction actions generalizing f with
  | nil =>
    refine iff_of_true (fun m member => ?_) trivial
    cases member
  | cons action rest ih =>
    unfold mergesOf AwaitedIn
    rw [List.forall_mem_append, tracked.merges_awaited]
    refine and_congr_right fun _ => ?_
    cases acts : f.act action with
    | none =>
      refine iff_of_true (fun m member => ?_) trivial
      cases member
    | some f' => exact ih (tracked.act acts)

namespace Sample

def submission : Submission := ⟨"tenant", "hello", 1, 2, 0, 0, .finite 100⟩

/-- Every worker has the model, and nothing to do. -/
def pipeline : Fleet where
  objects _ := Plane.Rejected.request
  created := 0
  clients workerId := ⟨workerId, .empty⟩
  apps _ := ⟨{ Plane.Rejected.worker with residentModels := ["model"] }, fun _ => Plane.Rejected.request, 0, .empty, .empty⟩
  phase := .idle
  late := []

theorem fresh : pipeline.Fresh := ⟨rfl, fun _ => rfl, fun _ => ⟨rfl, rfl, rfl, rfl⟩, rfl, rfl⟩

/-- The request of the submission when it is to be handed over. -/
def assigned (requestId : String) (new : requestId ≠ "") (at_ : Seconds) : RequestRecord :=
  { Plane.Rejected.request with
    requestId
    deadline := .finite (at_ + 100)
    createdAt := at_
    status := .assigned
    assignedWorkerId := some "worker"
    attemptCount := 1
    transitionTimestamps := ⟨[(.received, at_), (.validated, at_), (.admitted, at_), (.queued, at_), (.assigned, at_)],
      (by decide : List.Nodup [RequestState.received, .validated, .admitted, .queued, .assigned])⟩
    identified := ⟨new, by decide, by decide⟩
    stamped := rfl }

theorem first_named : "first" ≠ "" := by decide

theorem second_named : "second" ≠ "" := by decide

def first : RequestRecord := assigned "first" first_named 0

def second : RequestRecord := assigned "second" second_named 2

def answers (at_ : Seconds) (results : List RuntimeResult) : ManagedWorker.BatchInputs := ⟨at_, .ok results, at_, fun _ => at_⟩

def served : List FleetAction :=
  [.submit submission "first" "model" 0 (.placed "worker"), .enqueue .answered 0 0,
    .execute .answered (answers 1 [⟨"text", 1, 1⟩]) 1]

/-- The batch of the first submission is asked for in vain; that of the second brings both results. -/
def lost : List FleetAction :=
  [.submit submission "first" "model" 0 (.placed "worker"), .enqueue .answered 0 0, .execute .requestLost (answers 1 []) 1,
    .submit submission "second" "model" 2 (.placed "worker"), .enqueue .answered 2 2,
    .execute .answered (answers 3 [⟨"text", 1, 1⟩, ⟨"text", 1, 1⟩]) 3]

def placed : Fleet := { pipeline with objects := pipeline.objects.put 0 first, created := 1, phase := .assigned 0 "worker" }

def handOver (f : Fleet) (i : ObjectId) (now : Seconds) : Fleet :=
  { f.setLink "worker" {
      client := { f.clients "worker" with requests := (f.clients "worker").requests.insert (f.objects i).requestId i }
      objects := f.objects.put i ((f.objects i).merge ((f.objects i).enter .queued now))
      app := (f.apps "worker").keep (f.objects i) now } with phase := .handedOver i "worker" }

/-- The first submission has failed, and its worker does not know. -/
def deserted : Fleet :=
  (((handOver placed 0 0).setLink "worker" ((handOver placed 0 0).link "worker")).lose .requestLost "worker" .execute).leave 0
    (·.giveUp 1)

def next : Fleet := { deserted with objects := deserted.objects.put 1 second, created := 2, phase := .assigned 1 "worker" }

theorem act_enqueue {i : ObjectId} (now at_ : Seconds) (here : f.phase = .assigned i "worker")
    (accepts : (Link.enqueueRequest .answered i now (f.link "worker")).1.isOk = true) :
    f.act (.enqueue .answered now at_) = some (handOver f i now) := by
  unfold act
  dsimp only
  rw [here]
  dsimp only
  rcases Link.enqueueRequest_cases .answered i now (f.link "worker") with ⟨raised, run⟩ | ⟨raised, -, run⟩ | ⟨-, run⟩
  · rw [run] at accepts
    cases accepts
  · rw [run] at accepts
    cases accepts
  · rw [run]
    rfl

theorem act_first : placed.act (.enqueue .answered 0 0) = some (handOver placed 0 0) := act_enqueue 0 0 rfl rfl

theorem mergesOf_step {actions : List FleetAction} (acts : f.act action = some f') {m : RequestRecord × RequestPayload}
    (later : m ∈ f'.mergesOf actions) : m ∈ f.mergesOf (action :: actions) := by
  unfold mergesOf
  rw [acts]
  exact List.mem_append_right _ later

end Sample

open Sample in
theorem merges_lawful_iff_served : pipeline.Fresh ∧ ∀ m ∈ pipeline.mergesOf served, m.1.Lawful m.2 := by
  refine ⟨fresh, (merges_lawful_iff fresh served).mpr ⟨trivial, ?_⟩⟩
  have placed_first : pipeline.act (.submit submission "first" "model" 0 (.placed "worker")) = some placed := rfl
  rw [placed_first]
  refine ⟨trivial, ?_⟩
  rw [act_first]
  refine ⟨fun executions batch requestId member k found => Or.inl ?_, trivial⟩
  have executed : (ManagedWorker.executeBatch (answers 1 [⟨"text", 1, 1⟩]) ((handOver placed 0 0).apps "worker").process).1 =
      .ok [⟨"first", ⟨"text", 1, 1⟩⟩] := rfl
  cases executed.symm.trans batch
  cases List.mem_singleton.mp (List.takeWhile_subset _ member)
  cases (show ((handOver placed 0 0).clients "worker").requests.get? "first" = some 0 from rfl).symm.trans found
  rfl

open Sample in
/-- A submission that has failed is completed with the batch of the next one. -/
theorem failed_request_completed : pipeline.Fresh ∧ ∃ m ∈ pipeline.mergesOf lost, m.1.status = .failed ∧
    ∃ merged, applyRequestDict m.1 m.2 = .ok merged ∧ merged.status = .completed := by
  refine ⟨fresh, ?_⟩
  have answered : ((handOver next 1 2).merges (.execute .answered (answers 3 [⟨"text", 1, 1⟩, ⟨"text", 1, 1⟩]) 3)).head?.map
      (fun m => (m.1.status, (applyRequestDict m.1 m.2).toOption.map (·.status))) = some (.failed, some .completed) := rfl
  obtain ⟨m, here, statuses⟩ := Option.map_eq_some_iff.mp answered
  obtain ⟨failed, applied⟩ := Prod.mk.inj statuses
  obtain ⟨merged, reads, completed⟩ := Option.map_eq_some_iff.mp applied
  refine ⟨m, ?_, failed, merged, ?_, completed⟩
  · have act_placed : pipeline.act (.submit submission "first" "model" 0 (.placed "worker")) = some placed := rfl
    have act_deserted : (handOver placed 0 0).act (.execute .requestLost (answers 1 []) 1) = some deserted := rfl
    have act_next : deserted.act (.submit submission "second" "model" 2 (.placed "worker")) = some next := rfl
    refine mergesOf_step act_placed (mergesOf_step act_first (mergesOf_step act_deserted (mergesOf_step act_next
      (mergesOf_step (act_enqueue 2 2 rfl rfl) ?_))))
    exact List.mem_append_left _ (List.mem_of_mem_head? here)
  · revert reads
    cases applyRequestDict m.1 m.2 with
    | error raised => exact fun impossible => by cases impossible
    | ok r => exact fun same => by cases same; rfl

end Fleet

end ServingPlatform
