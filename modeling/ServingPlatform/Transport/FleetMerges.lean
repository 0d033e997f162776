import ServingPlatform.ControlPlane.BatchPlans
import ServingPlatform.Transport.Fleet
import ServingPlatform.WorkerLifecycle.LocalBatches

namespace ServingPlatform

namespace RequestState

variable {s t : RequestState}

theorem Leads.of_terminal (leads : s.Leads t) (isOver : s.isTerminal = true) : t = s := by
  induction leads with
  | refl => rfl
  | tail _ moves same =>
    rw [same, allowed_of_terminal isOver] at moves
    cases moves

theorem Leads.of_allowed (allowed : t ∈ s.allowed) : s.Leads t := .single allowed

theorem queued_leads_completed : RequestState.queued.Leads .completed :=
  .tail (.single (show RequestState.running ∈ RequestState.queued.allowed by decide)) (by decide)

/-- From the queue on, a request that is not over may time out or fail. -/
theorem Leads.ends (leads : RequestState.queued.Leads s) (alive : s.isTerminal = false) :
    .timedOut ∈ s.allowed ∧ .failed ∈ s.allowed := by
  have later : s ≠ .received ∧ s ≠ .validated ∧ s ≠ .admitted := by
    clear alive
    induction leads with
    | refl => decide
    | @tail b c _ moves _ =>
      have never : c = .received ∨ c = .validated ∨ c = .admitted → b = .received ∨ b = .validated := by
        rintro (rfl | rfl | rfl) <;> revert moves <;> cases b <;> decide
      grind
  cases s <;> simp_all <;> first | decide | cases alive

end RequestState

namespace ManagedWorker

variable {inputs : BatchInputs} {p : WorkerProcess}

/-- A batch takes each request along allowed transitions. -/
theorem executeBatch_leads (inputs : BatchInputs) (p : WorkerProcess) {j : ObjectId}
    (served : RequestState.queued.Leads (p.objects j).status) :
    RequestState.queued.Leads ((executeBatch inputs p).2.objects j).status ∧
      ((executeBatch inputs p).2.objects j).requestId = (p.objects j).requestId := by
  have opens : ∀ {r : RequestRecord}, (p.objects j).Opened inputs.now r →
      RequestState.queued.Leads r.status ∧ r.requestId = (p.objects j).requestId := by
    intro r opened
    refine ⟨?_, opened.requestId⟩
    cases opened with
    | started allowed => exact served.tail allowed
    | skipped skipped =>
      cases skipped with
      | kept => exact served
      | expired alive late => exact served.tail (served.ends alive).1
  have closes : ∀ {target : RequestState} (at_ : ObjectId → Seconds) {selected : List ObjectId} {p' : WorkerProcess},
      (p.objects j).Opened inputs.now (p'.objects j) → (∀ i ∈ selected, (p'.objects i).status = .running) →
        target ∈ RequestState.running.allowed →
          RequestState.queued.Leads (closed target at_ selected p'.objects j).status ∧
            (closed target at_ selected p'.objects j).requestId = (p.objects j).requestId := by
    intro target at_ selected p' opened running allowed
    obtain ⟨leads, same⟩ := opens opened
    refine ⟨?_, (closed_requestId j).trans same⟩
    unfold closed
    split
    · rename_i inside
      rw [running j inside.1] at leads
      exact leads.tail allowed
    · exact leads
  unfold executeBatch
  rcases beginBatch_cases inputs.now p with ⟨raised, p', run, opened⟩ | ⟨p', run, opened⟩ |
    ⟨selected, p', some, run, opened, running⟩
  · rw [Attempt.bind_error run]
    exact opens (opened j)
  · rw [Attempt.bind_ok run, if_pos rfl]
    exact opens (opened j)
  · rw [Attempt.bind_ok run, if_neg some]
    rcases finishBatch_cases inputs.failedAt inputs.completedAt running with
      ⟨-, raised, final, run', after⟩ | ⟨results, final, -, -, run', after⟩
    · rw [run', after]
      exact closes _ (opened j) running (by decide)
    · rw [run', after]
      exact closes _ (opened j) running (by decide)

/-- What waits after a batch waited before. -/
theorem executeBatch_queue (inputs : BatchInputs) (p : WorkerProcess) :
    ∀ j ∈ (executeBatch inputs p).2.worker.queue, j ∈ p.worker.queue := by
  have fewer := beginBatch_subperm inputs.now p
  intro j member
  refine fewer.subset (List.mem_append_right _ ?_)
  rcases beginBatch_cases inputs.now p with ⟨raised, p', run, -⟩ | ⟨p', run, -⟩ | ⟨selected, p', -, run, -, running⟩
  · unfold executeBatch at member
    rw [Attempt.bind_error run] at member
    rw [run]
    exact member
  · rw [(executeBatch_frame run (fun i none => absurd none List.not_mem_nil)).1] at member
    rw [run]
    exact member
  · rw [(executeBatch_frame run running).1] at member
    rw [run]
    exact member

end ManagedWorker

namespace WorkerApp

variable {app app' : WorkerApp} {payload : RequestPayload} {now : Seconds}

/-- The records of an app are queued ones and what became of them, and those
that wait are found under their request ids. -/
structure Served (app : WorkerApp) : Prop where
  queued : ∀ requestId j, app.requests.get? requestId = some j →
    j < app.created ∧ RequestState.queued.Leads (app.objects j).status ∧ (app.objects j).requestId = requestId
  waiting : ∀ j ∈ app.worker.queue, app.requests.get? (app.objects j).requestId = some j

/-- An accepted payload makes a new queued record; a refused one changes nothing. -/
theorem enqueueRequest_cases (payload : RequestPayload) (now : Seconds) (app : WorkerApp) :
    (∃ raised, enqueueRequest payload now app = (.error raised, app)) ∨
      ∃ r, requestFromDict payload = .ok r ∧ enqueueRequest payload now app =
        (.ok (requestToDict (r.enter .queued now)), { app with
          worker := { app.worker with queue := app.worker.queue ++ [app.created] }
          objects := app.objects.put app.created (r.enter .queued now)
          created := app.created + 1
          requests := app.requests.insert r.requestId app.created }) := by
  unfold enqueueRequest
  cases read : requestFromDict payload with
  | error raised => exact Or.inl ⟨raised, rfl⟩
  | ok r =>
    have accepts : (∃ raised process, ManagedWorker.enqueueRequest app.created now ⟨app.worker, app.objects.put app.created r⟩ =
        (.error raised, process)) ∨ ManagedWorker.enqueueRequest app.created now ⟨app.worker, app.objects.put app.created r⟩ =
          (.ok (), ⟨{ app.worker with queue := app.worker.queue ++ [app.created] },
            app.objects.put app.created (r.enter .queued now)⟩) := by
      unfold ManagedWorker.enqueueRequest
      dsimp only
      split
      · exact Or.inl ⟨_, _, rfl⟩
      split
      · exact Or.inl ⟨_, _, rfl⟩
      split
      · exact Or.inl ⟨_, _, rfl⟩
      split
      · exact Or.inl ⟨_, _, rfl⟩
      split
      · exact Or.inl ⟨_, _, rfl⟩
      · rw [Objects.put_self, Objects.put_put]
        exact Or.inr rfl
    dsimp only
    rcases accepts with ⟨raised, process, run⟩ | run
    · rw [run]
      exact Or.inl ⟨raised, rfl⟩
    · rw [run]
      dsimp only
      rw [Objects.put_self]
      exact Or.inr ⟨r, rfl, rfl⟩

/-- The batch of the worker, and then the report. -/
theorem executeBatch_run {inputs : ManagedWorker.BatchInputs} {result : Except Raised (List WorkerExecutionResult)}
    {process : WorkerProcess} (run : ManagedWorker.executeBatch inputs app.process = (result, process)) :
    executeBatch inputs app = (result.bind (app.setProcess process).report, app.setProcess process) := by
  have ran : onProcess (ManagedWorker.executeBatch inputs) app = (result, app.setProcess process) := Attempt.zoom_run run
  change Attempt.bind (onProcess (ManagedWorker.executeBatch inputs)) (fun executions app => (app.report executions, app)) app = _
  unfold Attempt.bind
  rw [ran]
  cases result <;> rfl

namespace Served

theorem enqueue (served : app.Served) {r : RequestRecord} (new : app.requests.get? r.requestId = none) :
    Served { app with
      worker := { app.worker with queue := app.worker.queue ++ [app.created] }
      objects := app.objects.put app.created (r.enter .queued now)
      created := app.created + 1
      requests := app.requests.insert r.requestId app.created } := by
  have differ : ∀ {requestId : String} {j : ObjectId}, app.requests.get? requestId = some j → j ≠ app.created ∧ requestId ≠ r.requestId := by
    intro requestId j found
    refine ⟨Nat.ne_of_lt (served.queued requestId j found).1, ?_⟩
    rintro rfl
    rw [new] at found
    cases found
  refine ⟨fun requestId j found => ?_, fun j member => ?_⟩
  · dsimp only at found ⊢
    rw [Dict.get?_insert] at found
    split at found
    · rename_i same
      cases found
      rw [Objects.put_self]
      exact ⟨Nat.lt_succ_self _, .refl, same.symm⟩
    · obtain ⟨inside, leads, own⟩ := served.queued requestId j found
      rw [Objects.put_of_ne (differ found).1]
      exact ⟨Nat.lt_succ_of_lt inside, leads, own⟩
  · dsimp only at member ⊢
    rcases List.mem_append.mp member with before | here
    · have found := served.waiting j before
      rw [Objects.put_of_ne (differ found).1, Dict.get?_insert, if_neg (differ found).2]
      exact found
    · cases List.mem_singleton.mp here
      rw [Objects.put_self]
      exact Dict.get?_insert_self

theorem execute (served : app.Served) (inputs : ManagedWorker.BatchInputs) : Served (executeBatch inputs app).2 := by
  have kept : (executeBatch inputs app).2 = app.setProcess (ManagedWorker.executeBatch inputs app.process).2 := by
    rcases run : ManagedWorker.executeBatch inputs app.process with ⟨result, process⟩
    rw [executeBatch_run run]
  rw [kept]
  refine ⟨fun requestId j found => ?_, fun j member => ?_⟩
  · obtain ⟨inside, leads, own⟩ := served.queued requestId j found
    obtain ⟨later, same⟩ := ManagedWorker.executeBatch_leads inputs app.process leads
    exact ⟨inside, later, same.trans own⟩
  · have found := served.waiting j (ManagedWorker.executeBatch_queue inputs app.process j member)
    obtain ⟨-, leads, -⟩ := served.queued _ j found
    have same := (ManagedWorker.executeBatch_leads inputs app.process leads).2
    have found' : app.requests.get? ((ManagedWorker.executeBatch inputs app.process).2.objects j).requestId = some j := by
      rw [same]
      exact found
    exact found'

theorem load (served : app.Served) (model : ModelDefinition) (answers : LoadAnswers) : Served (loadModel model answers app).2 := by
  unfold loadModel
  split
  · exact served
  split
  · exact served
  rename_i expected _ _
  have held : (app.worker.loadModel app.worker id app.objects expected answers).2.holdings = app.worker.holdings :=
    ManagedWorker.loadModel_holdings (P := fun held => held = app.worker.holdings) rfl rfl fun _ => id
  have queue : (app.worker.loadModel app.worker id app.objects expected answers).2.queue = app.worker.queue :=
    (Prod.mk.inj held).1
  refine ⟨served.queued, fun j member => ?_⟩
  dsimp only at member
  rw [queue] at member
  exact served.waiting j member

/-- Every execution that an app reports is of a completed record. -/
theorem reports (served : app.Served) {inputs : ManagedWorker.BatchInputs} {items : List ExecutionPayload}
    (run : executeBatch inputs app = (.ok items, app')) : ∃ executions,
    (ManagedWorker.executeBatch inputs app.process).1 = .ok executions ∧
      items.map (·.requestId) = executions.map (·.requestId) ∧
      ∀ item ∈ items, ∃ r, item.request = requestToDict r ∧ r.status = .completed ∧ r.requestId = item.requestId := by
  rcases begun : ManagedWorker.executeBatch inputs app.process with ⟨raised | executions, process⟩
  · rw [executeBatch_run begun] at run
    cases run
  rw [executeBatch_run begun] at run
  have completes : ∀ execution ∈ executions, ∀ j, app.requests.get? execution.requestId = some j →
      (process.objects j).status = .completed ∧ (process.objects j).requestId = execution.requestId := by
    intro execution member j found
    obtain ⟨k, queued, named, completed⟩ := ManagedWorker.executeBatch_reports (by rw [begun]) member
    have here := served.waiting k queued
    obtain ⟨-, leads, -⟩ := served.queued _ k here
    have same := (ManagedWorker.executeBatch_leads inputs app.process leads).2
    rw [begun] at completed same
    have other : app.requests.get? (app.objects k).requestId = some j := by
      have named' : (app.objects k).requestId = execution.requestId := named
      rw [named']
      exact found
    cases here.symm.trans other
    exact ⟨completed, same.trans named⟩
  have reported : (app.setProcess process).report executions = .ok items := congrArg Prod.fst run
  refine ⟨executions, rfl, ?_⟩
  clear run begun
  induction executions generalizing items with
  | nil =>
    cases reported
    exact ⟨rfl, fun item member => absurd member List.not_mem_nil⟩
  | cons execution rest ih =>
    unfold report at reported
    have later := fun other member => completes other (List.mem_cons_of_mem _ member)
    split at reported
    · cases reported
    · cases reported
    · rename_i j items' found rest_reported
      cases reported
      obtain ⟨same, all⟩ := ih later rest_reported
      obtain ⟨completed, own⟩ := completes execution List.mem_cons_self j found
      refine ⟨?_, fun item member => ?_⟩
      · rw [List.map_cons, List.map_cons, same]
      · rcases List.mem_cons.mp member with rfl | member
        · exact ⟨_, rfl, completed, own⟩
        · exact all item member

end Served

end WorkerApp

namespace Link

variable {l l' : Link} {items : List ExecutionPayload}

/-- The answer is the app's, and its effects are the app's. -/
theorem request_cases {α : Type} (delivery : Delivery) (method path : String) (endpoint : Attempt Raised WorkerApp α) (l : Link) :
    (∃ raised, delivery = .requestLost ∧ request delivery method path endpoint l = (.error raised, l)) ∨
    (∃ raised, delivery ≠ .requestLost ∧ request delivery method path endpoint l =
      (.error raised, { l with app := (endpoint l.app).2 })) ∨
    ∃ answer, delivery = .answered ∧ (endpoint l.app).1 = .ok answer ∧
      request delivery method path endpoint l = (.ok answer, { l with app := (endpoint l.app).2 }) := by
  unfold request
  rcases run : endpoint l.app with ⟨raised | answer, app⟩
  · cases delivery with
    | requestLost => exact Or.inl ⟨_, rfl, rfl⟩
    | replyLost => exact Or.inr (Or.inl ⟨_, by simp, rfl⟩)
    | answered => exact Or.inr (Or.inl ⟨_, by simp, rfl⟩)
  · cases delivery with
    | requestLost => exact Or.inl ⟨_, rfl, rfl⟩
    | replyLost => exact Or.inr (Or.inl ⟨_, by simp, rfl⟩)
    | answered => exact Or.inr (Or.inr ⟨_, rfl, rfl, rfl⟩)

/-- A record of the app is merged into a request. -/
theorem applyTo_requestToDict {i : ObjectId} {r : RequestRecord} (l : Link) :
    applyTo i (requestToDict r) l = (.ok (), { l with objects := l.objects.put i ((l.objects i).merge r) }) := by
  unfold applyTo
  rw [applyRequestDict_requestToDict]

/-- What the loop over completed items makes of the objects. -/
structure Merged (l l' : Link) : Prop where
  client : l'.client = l.client
  app : l'.app = l.app
  objects : ∀ k, l'.objects k = l.objects k ∨
    (∃ requestId, l.client.requests.get? requestId = some k) ∧ (l'.objects k).status = .completed ∧
      (l'.objects k).requestId = (l.objects k).requestId

/-- All items are of completed records. -/
def Completed (items : List ExecutionPayload) : Prop :=
  ∀ item ∈ items, ∃ r, item.request = requestToDict r ∧ r.status = .completed ∧ r.requestId = item.requestId

theorem Completed.tail {item : ExecutionPayload} (completed : Completed (item :: items)) : Completed items :=
  fun other member => completed other (List.mem_cons_of_mem _ member)

theorem Merged.put {i : ObjectId} {requestId : String} (known : l.client.requests.get? requestId = some i) {r : RequestRecord}
    (status : r.status = .completed) (own : r.requestId = (l.objects i).requestId)
    (rest : Merged { l with objects := l.objects.put i r } l') : Merged l l' where
  client := rest.client
  app := rest.app
  objects k := by
    rcases eq_or_ne k i with rfl | differ
    · have here : (l.objects.put k r) k = r := Objects.put_self
      rcases rest.objects k with same | ⟨found, later, id⟩
      · dsimp only at same
        rw [here] at same
        exact Or.inr ⟨⟨requestId, known⟩, by rw [same, status], by rw [same, own]⟩
      · dsimp only at id
        rw [here] at id
        exact Or.inr ⟨found, later, id.trans own⟩
    · have here : (l.objects.put i r) k = l.objects k := Objects.put_of_ne differ
      have after := rest.objects k
      dsimp only at after
      rw [here] at after
      exact after

theorem mergeAll_merged (completed : Completed items) (l : Link) : ∃ result l', mergeAll items l = (result, l') ∧ Merged l l' ∧
    ∀ executions, result = .ok executions → executions.map (·.requestId) = items.map (·.requestId) ∧
      ∀ item ∈ items, ∃ k, l.client.requests.get? item.requestId = some k ∧ (l'.objects k).status = .completed := by
  induction items generalizing l with
  | nil =>
    refine ⟨_, l, rfl, ⟨rfl, rfl, fun k => Or.inl rfl⟩, fun executions same => ?_⟩
    cases same
    exact ⟨rfl, fun item member => absurd member List.not_mem_nil⟩
  | cons item rest ih =>
    obtain ⟨r, sent, status, -⟩ := completed item List.mem_cons_self
    have reads : (Attempt.read fun l => l.client.requests.get? item.requestId : Attempt Raised Link (Option ObjectId)) l =
        (.ok (l.client.requests.get? item.requestId), l) := rfl
    unfold mergeAll
    rw [Attempt.bind_ok reads]
    cases known : l.client.requests.get? item.requestId with
    | none =>
      exact ⟨_, l, rfl, ⟨rfl, rfl, fun k => Or.inl rfl⟩, fun executions same => by cases same⟩
    | some i =>
      obtain ⟨result, l', run, merged, told⟩ := ih completed.tail { l with objects := l.objects.put i ((l.objects i).merge r) }
      have applied : applyTo i item.request l = (.ok (), { l with objects := l.objects.put i ((l.objects i).merge r) }) := by
        rw [sent]
        exact applyTo_requestToDict l
      have joined : Merged l l' := Merged.put (r := (l.objects i).merge r) known status rfl merged
      dsimp only
      rw [Attempt.bind_ok applied]
      cases result with
      | error raised =>
        rw [Attempt.bind_error run]
        exact ⟨_, l', rfl, joined, fun executions same => by cases same⟩
      | ok executions =>
        rw [Attempt.bind_ok run]
        refine ⟨_, l', rfl, joined, fun executions' same => ?_⟩
        cases same
        obtain ⟨ids, all⟩ := told executions rfl
        refine ⟨by rw [List.map_cons, List.map_cons, ids], fun other member => ?_⟩
        rcases List.mem_cons.mp member with rfl | member
        · refine ⟨i, known, ?_⟩
          rcases merged.objects i with same | ⟨-, completed, -⟩
          · dsimp only at same
            rw [Objects.put_self] at same
            rw [same]
            exact status
          · exact completed
        · exact all other member

theorem lawful_completed {r sent : RequestRecord} (completed : sent.status = .completed)
    (queued : r.terminal = true ∨ r.status = .queued) :
    r.Lawful (requestToDict sent) ↔ r.terminal = false ∨ r.status = .completed := by
  unfold RequestRecord.Lawful
  rw [applyRequestDict_requestToDict]
  constructor
  · intro lawful
    by_cases isOver : r.terminal = true
    · have same := (lawful _ rfl).2 isOver
      exact Or.inr (same.symm.trans completed)
    · exact Or.inl (by simpa using isOver)
  · rintro open_ merged ⟨⟩
    have status : (r.merge sent).status = .completed := completed
    rw [status]
    rcases open_ with alive | ended
    · have waits := queued.resolve_left (by simp [alive])
      rw [waits]
      exact ⟨RequestState.queued_leads_completed, fun isOver => by simp [alive] at isOver⟩
    · rw [ended]
      exact ⟨.refl, fun _ => rfl⟩

/-- The merges of completed items are lawful just if each request up to the
first unknown one is not over, or completed. -/
theorem merged_lawful_iff (completed : Completed items)
    (queued : ∀ requestId k, l.client.requests.get? requestId = some k → (l.objects k).terminal = true ∨ (l.objects k).status = .queued) :
    (∀ m ∈ merged items l, m.1.Lawful m.2) ↔
      ∀ requestId ∈ (items.map (·.requestId)).takeWhile l.client.requests.contains, ∀ k,
        l.client.requests.get? requestId = some k → (l.objects k).terminal = false ∨ (l.objects k).status = .completed := by
  induction items generalizing l with
  | nil => simp [merged]
  | cons item rest ih =>
    obtain ⟨r, sent, status, -⟩ := completed item List.mem_cons_self
    unfold merged
    rw [List.map_cons, List.takeWhile_cons]
    cases known : l.client.requests.get? item.requestId with
    | none => simp [Dict.contains, known]
    | some i =>
      have applied : applyTo i item.request l = (.ok (), { l with objects := l.objects.put i ((l.objects i).merge r) }) := by
        rw [sent]
        exact applyTo_requestToDict l
      have after : ∀ k, (l.objects.put i ((l.objects i).merge r)) k = l.objects k ∧ k ≠ i ∨
          k = i ∧ ((l.objects.put i ((l.objects i).merge r)) k).status = .completed := by
        intro k
        rcases eq_or_ne k i with rfl | differ
        · exact Or.inr ⟨rfl, by rw [Objects.put_self]; exact status⟩
        · exact Or.inl ⟨Objects.put_of_ne differ, differ⟩
      have later := ih (l := { l with objects := l.objects.put i ((l.objects i).merge r) }) completed.tail (by
        intro requestId k found
        dsimp only
        rcases after k with ⟨same, -⟩ | ⟨-, ended⟩
        · rw [same]
          exact queued requestId k found
        · refine Or.inl ?_
          unfold RequestRecord.terminal
          rw [ended]
          rfl)
      have here : (l.objects i).Lawful item.request ↔ (l.objects i).terminal = false ∨ (l.objects i).status = .completed := by
        rw [sent]
        exact lawful_completed status (queued _ i known)
      have shown : l.client.requests.contains item.requestId = true := by
        unfold Dict.contains
        rw [known]
        rfl
      rw [if_pos shown]
      dsimp only
      rw [applied]
      dsimp only
      rw [List.forall_mem_cons, here, later, List.forall_mem_cons]
      dsimp only
      constructor
      · rintro ⟨first, others⟩
        refine ⟨fun k found => ?_, fun requestId member k found => ?_⟩
        · cases known.symm.trans found
          exact first
        · rcases after k with ⟨same, -⟩ | ⟨rfl, -⟩
          · rw [← same]
            exact others requestId member k found
          · exact first
      · rintro ⟨first, others⟩
        refine ⟨first i known, fun requestId member k found => ?_⟩
        rcases after k with ⟨same, -⟩ | ⟨-, ended⟩
        · rw [same]
          exact others requestId member k found
        · exact Or.inr ended

end Link

end ServingPlatform
