import ServingPlatform.WorkerLifecycle.BatchActivity
import ServingPlatform.WorkerLifecycle.ModelMoves

namespace ServingPlatform

open ManagedWorker Objects

/-- The batch that a call of `execute_batch` is at. -/
def CallPlace.batch : CallPlace → Option (List ObjectId)
  | .running selected | .failing selected _ | .retiring selected _ | .completing selected => some selected
  | _ => none

/-- Whether the call's batch is still counted as active. -/
def CallPlace.occupies : CallPlace → Bool
  | .running _ | .failing .. | .retiring .. => true
  | _ => false

/-- The calls that change the queue or the requests. -/
def WorkerRequest.handlesRequests : WorkerRequest → Bool
  | .enqueueRequest _ | .cancelRequest _ | .executeBatch | .shutdown => true
  | _ => false

namespace WorkerHost

variable {ρ : Type} {runtime : ModelRuntime ρ} {idleEvictionSeconds : ModelDefinition → Seconds} {h : WorkerHost ρ}
  {readings : WorkerReadings}

/-- What a worker has to do: its queue, its requests and its running batches. -/
def workload (h : WorkerHost ρ) : List ObjectId × Activity × Objects × Nat :=
  (h.worker.queue, h.worker.activity, h.objects, h.worker.maxBatchTokens)

theorem goAhead_workload {entered : ManagedWorker} {model : ModelDefinition} (joins : entered = h.worker ∨
      entered.accepting = true ∧ model.modelId ∉ entered.residentModels ∧ model.modelId ∈ entered.loadingModels) :
    (h.goAhead runtime entered model readings).2.workload = h.workload ∧
      (h.goAhead runtime entered model readings).1.place?.bind CallPlace.batch = none := by
  unfold goAhead
  rcases ManagedWorker.beginLoad_cases h.objects (h.loadAnswers runtime readings) joins with ⟨raised, run⟩ | ⟨-, run⟩ |
    ⟨capacity, evictions, -, -, -, -, run⟩ <;> rw [run] <;> exact ⟨rfl, rfl⟩

theorem beginUnload_workload (h : WorkerHost ρ) (modelId : String) (later : Option (List String)) :
    (h.beginUnload modelId later).2.workload = h.workload ∧
      (h.beginUnload modelId later).1.place?.bind CallPlace.batch = none := by
  unfold beginUnload
  split
  · exact ⟨rfl, rfl⟩
  split
  · cases later <;> exact ⟨rfl, rfl⟩
  · exact ⟨rfl, rfl⟩

theorem begin_workload (h : WorkerHost ρ) (runtime : ModelRuntime ρ) (idleEvictionSeconds : ModelDefinition → Seconds)
    (readings : WorkerReadings) {request : WorkerRequest} (other : request.handlesRequests = false) :
    (h.begin runtime idleEvictionSeconds readings request).2.workload = h.workload ∧
      (h.begin runtime idleEvictionSeconds readings request).1.place?.bind CallPlace.batch = none := by
  unfold WorkerHost.begin
  cases request with
  | loadModel model =>
    dsimp only
    split
    · exact ⟨rfl, rfl⟩
    · exact goAhead_workload (Or.inl rfl)
  | unloadModel modelId => exact beginUnload_workload h modelId none
  | evictIdleModels =>
    dsimp only
    split <;> exact ⟨rfl, rfl⟩
  | register =>
    dsimp only
    split
    · exact ⟨rfl, rfl⟩
    split <;> exact ⟨rfl, rfl⟩
  | drain =>
    dsimp only
    split <;> exact ⟨rfl, rfl⟩
  | _ => cases other

theorem advance_workload (h : WorkerHost ρ) (runtime : ModelRuntime ρ) (readings : WorkerReadings) {place : CallPlace} (other : place.batch = none) (joined : ∀ model entered, place = .waiting model entered →
      entered.accepting = true ∧ model.modelId ∉ entered.residentModels ∧ model.modelId ∈ entered.loadingModels) :
    (h.advance runtime readings place).2.workload = h.workload ∧
      (h.advance runtime readings place).1.place?.bind CallPlace.batch = none := by
  unfold WorkerHost.advance
  cases place with
  | waiting model entered =>
    dsimp only
    split
    · exact ⟨rfl, rfl⟩
    · exact goAhead_workload (Or.inr (joined model entered rfl))
  | evicting load unloaded rest =>
    cases rest with
    | nil => exact ⟨rfl, rfl⟩
    | cons e rest =>
      dsimp only
      split <;> exact ⟨rfl, rfl⟩
  | checking load =>
    dsimp only
    split <;> exact ⟨rfl, rfl⟩
  | adding load => exact ⟨rfl, rfl⟩
  | warming load =>
    dsimp only
    split <;> exact ⟨rfl, rfl⟩
  | publishing load => exact ⟨rfl, rfl⟩
  | recovering load unloaded raised => exact ⟨rfl, rfl⟩
  | restoring load unloaded rest raised =>
    cases rest with
    | nil => exact ⟨rfl, rfl⟩
    | cons e rest =>
      dsimp only
      split <;> exact ⟨rfl, rfl⟩
  | closing load failure => cases failure <;> exact ⟨rfl, rfl⟩
  | unloading modelId later =>
    dsimp only
    split
    · exact ⟨rfl, rfl⟩
    · cases later <;> exact ⟨rfl, rfl⟩
  | puttingBack modelId raised => exact ⟨rfl, rfl⟩
  | sorting eligible =>
    dsimp only
    split <;> exact ⟨rfl, rfl⟩
  | sweeping rest =>
    cases rest with
    | nil => exact ⟨rfl, rfl⟩
    | cons modelId rest => exact beginUnload_workload h modelId (some rest)
  | stopping rest =>
    cases rest with
    | nil => exact ⟨rfl, rfl⟩
    | cons modelId rest =>
      dsimp only
      split <;> exact ⟨rfl, rfl⟩
  | unregistering raised => exact ⟨rfl, rfl⟩
  | _ => cases other

end WorkerHost

namespace ManagedWorker

/-- A worker's activity is that of one batch. -/
structure Occupied (w : ManagedWorker) (objects : Objects) (selected : List ObjectId) : Prop where
  batches : w.activeBatchCount = 1
  counted : ∀ modelId, w.active modelId = share objects.models selected modelId
  listed : ∀ id j, w.activeRequests.get? id = some j → j ∈ selected ∧ (objects j).requestId = id

theorem Occupied.onward {w w' : ManagedWorker} {objects objects' : Objects} {selected : List ObjectId}
    (occupied : w.Occupied objects selected) (activity : w'.activity = w.activity) (onward : Onward selected objects objects') :
    w'.Occupied objects' selected := by
  have same := congrArg Activity.byModel activity
  refine ⟨(congrArg Activity.batches activity).trans occupied.batches, fun modelId => ?_, fun id j found => ?_⟩
  · rw [onward.models, ← occupied.counted modelId]
    exact congrFun same modelId
  · obtain ⟨member, named⟩ := occupied.listed id j ((congrArg (·.requests.get? id) activity).symm.trans found)
    exact ⟨member, (onward.ids j).trans named⟩

theorem activity_eq_none {w : ManagedWorker} (batches : w.activeBatchCount = 0) (counted : ∀ modelId, w.active modelId = 0)
    (listed : ∀ id, w.activeRequests.get? id = none) : w.activity = Activity.none := by
  have empty : w.activeRequests = .empty := Dict.eq_empty listed
  unfold activity Activity.none
  rw [batches, empty, funext counted]

/-- A batch that retires leaves nothing behind. -/
theorem Occupied.retire {p : WorkerProcess} {selected : List ObjectId} (occupied : p.worker.Occupied p.objects selected) :
    (retire selected p).worker.activity = Activity.none := by
  obtain ⟨count, lists⟩ := retire_requests selected p
  refine activity_eq_none ?_ (fun modelId => ?_) fun id => ?_
  · rw [count, occupied.batches]
    rfl
  · rw [(retire_frame selected p).2.2.2 modelId, occupied.counted modelId, Int.sub_self]
  · rw [Option.eq_none_iff_forall_ne_some]
    intro j found
    obtain ⟨before, gone⟩ := lists id j found
    obtain ⟨member, named⟩ := occupied.listed id j before
    exact gone j member named

end ManagedWorker

/-- What has happened to the requests of a worker: those that `cancel_request`
says it has cancelled, and for each `execute_batch` the worker's activity before
it, the requests that it selected and the results that it accepted. -/
structure BatchLog where
  cancelled : List ObjectId
  before : Nat → Activity
  selected : Nat → List ObjectId
  generated : Nat → List RuntimeResult

namespace WorkerSystem

variable {ρ : Type} {runtime : ModelRuntime ρ} {idleEvictionSeconds : ModelDefinition → Seconds} {s s' : WorkerSystem ρ}
  {action : WorkerAction} {call : Nat} {place old : CallPlace} {readings : WorkerReadings} {log log' : BatchLog}
  {selected : List ObjectId} {h : WorkerHost ρ}

/-- The log after an action. -/
def observe (s : WorkerSystem ρ) (log : BatchLog) : WorkerAction → BatchLog
  | .start _ (.cancelRequest requestId) readings =>
    match (cancelRequest requestId readings.now s.host.process).1 with
    | .ok true => { log with cancelled := log.cancelled ++ (cancelTarget requestId s.host.process).toList }
    | _ => log
  | .start call .executeBatch readings => { log with
      before := Function.update log.before call s.host.worker.activity
      selected := Function.update log.selected call ((beginBatch readings.now s.host.process).1.toOption.getD [])
      generated := Function.update log.generated call [] }
  | .advance call readings =>
    match s.calls.get? call with
    | some (.running selected) =>
      let stream := selected.head?.elim false fun i => (s.host.objects i).stream
      let results := (checkResults stream selected.length readings.generated).toOption.getD []
      { log with generated := Function.update log.generated call results }
    | _ => log
  | _ => log

/-- Nothing is running yet, and the queue is as `enqueue_request` fills it. -/
structure Unoccupied (s : WorkerSystem ρ) : Prop where
  queue : LocalQueue s.host.process
  places : ∀ {c place}, s.calls.get? c = some place → place.batch = none
  activity : s.host.worker.activity = Activity.none
  waits : s.Waits

/-- One batch runs at a time; others may only end a request, or touch those that are neither queued nor in a batch. -/
def Alone (s : WorkerSystem ρ) : WorkerAction → Prop
  | .start _ .executeBatch _ => ∀ c place, s.calls.get? c = some place → place.batch = none
  | .outside i target _ => target.isTerminal = true ∨ i ∉ s.host.worker.queue ∧
      ∀ c place selected, s.calls.get? c = some place → place.batch = some selected → i ∉ selected
  | _ => True

/-- A call that is at a batch, with what is logged of it. -/
structure InBatch (h : WorkerHost ρ) (log : BatchLog) (call : Nat) (place : CallPlace) (selected : List ObjectId) : Prop where
  logged : log.selected call = selected
  before : log.before call = Activity.none
  alive : ∀ i ∈ selected, (h.objects i).status = .running ∨ (h.objects i).terminal = true
  occupies : place.occupies = true → h.worker.Occupied h.objects selected
  released : place.occupies = false → h.worker.activity = Activity.none
  failed : ∀ raised, place = .retiring selected (some raised) → ∀ i ∈ selected, (h.objects i).terminal = true
  answered : place = .retiring selected none ∨ place = .completing selected → (log.generated call).length = selected.length

/-- One call at most is at a batch, and the worker's activity is that of its batch. -/
structure Batched (s : WorkerSystem ρ) (log : BatchLog) : Prop where
  waits : s.Waits
  queue : LocalQueue s.host.process
  cancelled : ∀ i ∈ log.cancelled, (s.host.objects i).status = .cancelled
  alone : ∀ {c d p q}, s.calls.get? c = some p → s.calls.get? d = some q → p.batch.isSome = true → q.batch.isSome = true → c = d
  batch : ∀ {c p selected}, s.calls.get? c = some p → p.batch = some selected → InBatch s.host log c p selected
  idle : (∀ c p, s.calls.get? c = some p → p.batch = none) → s.host.worker.activity = Activity.none

theorem Batched.start (unoccupied : s.Unoccupied) (none_cancelled : log.cancelled = []) : s.Batched log := by
  have none : ∀ {c p}, s.calls.get? c = some p → p.batch.isSome = true → False := by
    intro c p found isSome
    rw [unoccupied.places found] at isSome
    cases isSome
  refine ⟨unoccupied.waits, unoccupied.queue, fun i member => ?_, fun found _ isSome => ?_, fun found isSome => ?_,
    fun _ => unoccupied.activity⟩
  · rw [none_cancelled] at member
    cases member
  · exact (none found isSome).elim
  · exact (none found (by rw [isSome]; rfl)).elim

/-- Nothing happens to a batch: the requests go on, and the worker's activity stays. -/
theorem Batched.bystander (batched : s.Batched log) (waits : s'.Waits) (queue : LocalQueue s'.host.process)
    (places : ∀ c p, p.batch.isSome = true → (s'.calls.get? c = some p ↔ s.calls.get? c = some p))
    (activity : s'.host.worker.activity = s.host.worker.activity)
    (onward : ∀ {c p selected}, s.calls.get? c = some p → p.batch = some selected →
      Onward selected s.host.objects s'.host.objects)
    (cancelled : ∀ i ∈ log'.cancelled, (s'.host.objects i).status = .cancelled)
    (logged : ∀ c p, s.calls.get? c = some p → p.batch.isSome = true → log'.before c = log.before c ∧
      log'.selected c = log.selected c ∧ log'.generated c = log.generated c) : s'.Batched log' := by
  refine ⟨waits, queue, cancelled, fun first second isBatch isBatch' => ?_, fun {c p selected} found isBatch => ?_, fun none => ?_⟩
  · exact batched.alone ((places _ _ isBatch).mp first) ((places _ _ isBatch').mp second) isBatch isBatch'
  · have some : p.batch.isSome = true := by rw [isBatch, Option.isSome_some]
    have before := (places c p some).mp found
    obtain ⟨sameBefore, sameSelected, sameGenerated⟩ := logged c p before some
    have inBatch := batched.batch before isBatch
    have goes := onward before isBatch
    refine ⟨sameSelected.trans inBatch.logged, sameBefore.trans inBatch.before, goes.alive inBatch.alive, fun occupies => ?_,
      fun released => ?_, fun raised same i member => ?_, fun same => ?_⟩
    · exact (inBatch.occupies occupies).onward activity goes
    · exact activity.trans (inBatch.released released)
    · rw [goes.ended i (inBatch.failed raised same i member)]
      exact inBatch.failed raised same i member
    · rw [sameGenerated]
      exact inBatch.answered same
  · refine activity.trans (batched.idle fun c p found => ?_)
    by_contra isBatch
    have some : p.batch.isSome = true := Option.isSome_iff_ne_none.mpr isBatch
    exact isBatch (none c p ((places c p some).mpr found))

/-- The one batch goes a step on, or begins, or ends. -/
theorem Batched.own (selected : List ObjectId) {result : CallOutcome × WorkerHost ρ} (waits : (s.settle call result).Waits)
    (others : ∀ c p, s.calls.get? c = some p → p.batch.isSome = true → c = call) (queue : LocalQueue result.2.process)
    (cancelled : ∀ i ∈ log'.cancelled, (result.2.objects i).status = .cancelled)
    (next : ∀ place, result.1.place? = some place → place.batch = some selected ∧ InBatch result.2 log' call place selected)
    (ended : result.1.place? = none → result.2.worker.activity = Activity.none) : (s.settle call result).Batched log' := by
  have only : ∀ {c p}, (s.settle call result).calls.get? c = some p → p.batch.isSome = true →
      c = call ∧ result.1.place? = some p := by
    intro c p found isBatch
    rw [settle_get?] at found
    split at found
    · rename_i here
      exact ⟨here, found⟩
    · exact absurd (others c p found isBatch) (by assumption)
  refine ⟨waits, ?_, ?_, fun first second isBatch isBatch' => ?_, fun {c p chosen} found isBatch => ?_, fun none => ?_⟩
  · rw [settle_host]
    exact queue
  · rw [settle_host]
    exact cancelled
  · exact (only first isBatch).1.trans (only second isBatch').1.symm
  · have some : p.batch.isSome = true := by rw [isBatch, Option.isSome_some]
    obtain ⟨here, placed⟩ := only found some
    obtain ⟨same, inBatch⟩ := next p placed
    rw [isBatch] at same
    cases same
    rw [settle_host, here]
    exact inBatch
  · rw [settle_host]
    refine ended (Option.eq_none_iff_forall_ne_some.mpr fun place placed => ?_)
    have found : (s.settle call result).calls.get? call = some place := by rw [settle_get?, if_pos rfl, placed]
    have isBatch := (next place placed).1
    rw [none call place found] at isBatch
    cases isBatch

theorem settle_places {result : CallOutcome × WorkerHost ρ} (before : (s.calls.get? call).bind CallPlace.batch = none)
    (after : result.1.place?.bind CallPlace.batch = none) (c : Nat) (p : CallPlace) (isBatch : p.batch.isSome = true) :
    (s.settle call result).calls.get? c = some p ↔ s.calls.get? c = some p := by
  rw [settle_get?]
  split
  · rename_i here
    subst here
    constructor
    · intro placed
      rw [placed, Option.bind_some] at after
      rw [after] at isBatch
      cases isBatch
    · intro found
      rw [found, Option.bind_some] at before
      rw [before] at isBatch
      cases isBatch
  · rfl

theorem atOnce_process {α : Type} (h : WorkerHost ρ) (m : Attempt Raised WorkerProcess α) :
    (h.atOnce m).2.process = (m h.process).2 ∧ (h.atOnce m).1.place? = none := by
  unfold WorkerHost.atOnce
  rcases m h.process with ⟨raised | done, process⟩ <;> exact ⟨rfl, rfl⟩

/-- A request that was cancelled stays so. -/
theorem Batched.still_cancelled (batched : s.Batched log) {objects : Objects} (onward : Onward selected s.host.objects objects) :
    ∀ i ∈ log.cancelled, (objects i).status = .cancelled := by
  intro i member
  have status := batched.cancelled i member
  rw [onward.ended i (by rw [RequestRecord.terminal, status]; rfl)]
  exact status

/-- A call that has nothing to do with batches, and the requests go on. -/
theorem Batched.settle (batched : s.Batched log) {result : CallOutcome × WorkerHost ρ} (waits : (s.settle call result).Waits)
    (before : (s.calls.get? call).bind CallPlace.batch = none) (after : result.1.place?.bind CallPlace.batch = none)
    (queue : LocalQueue result.2.process) (activity : result.2.worker.activity = s.host.worker.activity)
    (onward : ∀ selected, (∀ i ∈ selected, (s.host.objects i).status = .running ∨ (s.host.objects i).terminal = true) →
      Onward selected s.host.objects result.2.objects)
    (cancelled : ∀ i ∈ log'.cancelled, (result.2.objects i).status = .cancelled)
    (logged : ∀ c p, s.calls.get? c = some p → p.batch.isSome = true → log'.before c = log.before c ∧
      log'.selected c = log.selected c ∧ log'.generated c = log.generated c) : (s.settle call result).Batched log' := by
  have host := s.settle_host call result
  refine batched.bystander waits (by rwa [host]) (settle_places before after) (by rw [host, activity])
    (fun found isBatch => ?_) (by rwa [host]) logged
  rw [host]
  exact onward _ (batched.batch found isBatch).alive

theorem Batched.of_workload (batched : s.Batched log) {result : CallOutcome × WorkerHost ρ} (waits : (s.settle call result).Waits)
    (before : (s.calls.get? call).bind CallPlace.batch = none) (after : result.1.place?.bind CallPlace.batch = none)
    (same : result.2.workload = s.host.workload) : (s.settle call result).Batched log := by
  have objects : result.2.objects = s.host.objects := congrArg (·.2.2.1) same
  have queued : result.2.worker.queue = s.host.worker.queue := congrArg Prod.fst same
  have queue : LocalQueue result.2.process :=
    batched.queue.of_fewer (queued ▸ List.Sublist.refl _) (congrArg (·.2.2.2) same) fun i _ => Or.inl (congrFun objects i)
  refine batched.settle waits before after queue (congrArg (·.2.1) same) (fun _ _ => ?_) ?_ fun _ _ _ _ => ⟨rfl, rfl, rfl⟩
  · rw [objects]
    exact .refl
  · rw [objects]
    exact batched.cancelled

theorem Batched.cancelRequest (batched : s.Batched log) (free : s.calls.get? call = none) (requestId : String)
    (waits : (s.settle call (s.host.atOnce (ManagedWorker.cancelRequest requestId readings.now))).Waits) :
    (s.settle call (s.host.atOnce (ManagedWorker.cancelRequest requestId readings.now))).Batched
      (s.observe log (.start call (.cancelRequest requestId) readings)) := by
  obtain ⟨process, isOver⟩ := atOnce_process s.host (ManagedWorker.cancelRequest requestId readings.now)
  have spec := fun selected => @cancelRequest_onward selected requestId readings.now s.host.process
  have objects : (s.host.atOnce (ManagedWorker.cancelRequest requestId readings.now)).2.objects =
      (ManagedWorker.cancelRequest requestId readings.now s.host.process).2.objects := congrArg WorkerProcess.objects process
  refine batched.settle waits (by rw [free, Option.bind_none]) (by rw [isOver, Option.bind_none]) ?_ ?_ (fun selected _ => ?_) ?_ ?_
  · rw [process]
    exact batched.queue.cancel requestId readings.now
  · exact (congrArg (·.worker.activity) process).trans (spec []).1
  · rw [objects]
    exact (spec selected).2.1
  · intro i member
    rw [objects]
    have still := batched.still_cancelled (spec []).2.1
    unfold observe at member
    dsimp only at member
    split at member
    · rename_i answered
      rcases List.mem_append.mp member with old | new
      · exact still i old
      · obtain ⟨j, target, status⟩ := (spec []).2.2 answered
        rw [target, Option.toList_some, List.mem_singleton] at new
        rwa [new]
    · exact still i member
  · intro c p _ _
    unfold observe
    dsimp only
    split <;> exact ⟨rfl, rfl, rfl⟩

theorem Batched.executeBatch (batched : s.Batched log)
    (alone : ∀ c place, s.calls.get? c = some place → place.batch = none)
    (waits : (s.settle call (s.host.begin runtime idleEvictionSeconds readings .executeBatch)).Waits) :
    (s.settle call (s.host.begin runtime idleEvictionSeconds readings .executeBatch)).Batched
      (s.observe log (.start call .executeBatch readings)) := by
  obtain ⟨selected, p', run, selects, -, running⟩ := beginBatch_selects batched.queue readings.now
  have opened := beginBatch_opened readings.now s.host.process
  have budget := beginBatch_budget readings.now s.host.process
  have activity := beginBatch_activity run
  have models := (beginBatch_modelState readings.now s.host.process).2
  rw [run] at opened budget models
  have queue : LocalQueue p' := batched.queue.select selects budget
  have idle := batched.idle alone
  have none : ∀ c p, s.calls.get? c = some p → p.batch.isSome = true → c = call := by
    intro c p found isBatch
    rw [alone c p found] at isBatch
    cases isBatch
  have cancelled : ∀ i ∈ log.cancelled, (p'.objects i).status = .cancelled := by
    intro i member
    have status := batched.cancelled i member
    rw [(opened i).of_terminal (by rw [RequestRecord.terminal]; exact congrArg RequestState.isTerminal status)]
    exact status
  have observed : s.observe log (.start call .executeBatch readings) = { log with
      before := Function.update log.before call s.host.worker.activity
      selected := Function.update log.selected call selected
      generated := Function.update log.generated call [] } := by
    unfold observe
    dsimp only
    rw [run]
    rfl
  rcases activity with ⟨rfl, same⟩ | ⟨nonempty, count, counted, listed⟩
  · have result : s.host.begin runtime idleEvictionSeconds readings .executeBatch = (.returns, { s.host with process := p' }) := by
      unfold WorkerHost.begin
      dsimp only
      rw [run]
    rw [result] at waits ⊢
    rw [observed]
    exact Batched.own [] waits none queue cancelled (fun _ placed => by cases placed) fun _ => same.trans idle
  · have result : s.host.begin runtime idleEvictionSeconds readings .executeBatch =
        (.proceeds (.running selected), { s.host with process := p' }) := by
      unfold WorkerHost.begin
      dsimp only
      rw [run]
      split
      · rename_i same
        cases same
      · rename_i same
        cases same
        exact absurd rfl nonempty
      · rename_i same
        cases same
        rfl
    rw [result] at waits ⊢
    rw [observed]
    refine Batched.own selected waits none queue cancelled (fun place placed => ?_) fun isOver => by cases isOver
    cases placed
    have empty : s.host.worker.activeRequests = .empty := congrArg Activity.requests idle
    refine ⟨rfl, Function.update_self .., (Function.update_self ..).trans idle, fun i member => Or.inl (running i member),
      fun _ => ⟨?_, fun modelId => ?_, fun id j found => ?_⟩, fun released => (by cases released), fun _ same => (by cases same),
      fun same => (by rcases same with same | same <;> cases same)⟩
    · have zero : s.host.worker.activeBatchCount = 0 := congrArg Activity.batches idle
      exact count.trans (congrArg (· + 1) zero)
    · have zero : s.host.worker.active modelId = 0 := congrFun (congrArg Activity.byModel idle) modelId
      change p'.worker.active modelId = share p'.objects.models selected modelId
      rw [models, counted modelId]
      change s.host.worker.active modelId + _ = _
      rw [zero, Int.zero_add]
    · rcases listed id j found with before | ⟨member, named⟩
      · change s.host.worker.activeRequests.get? id = some j at before
        rw [empty] at before
        cases before
      · exact ⟨member, (opened j).requestId.trans named⟩

theorem Batched.begin (batched : s.Batched log) (free : s.calls.get? call = none) {request : WorkerRequest}
    (alone : s.Alone (.start call request readings))
    (waits : (s.settle call (s.host.begin runtime idleEvictionSeconds readings request)).Waits) :
    (s.settle call (s.host.begin runtime idleEvictionSeconds readings request)).Batched
      (s.observe log (.start call request readings)) := by
  have absent : (s.calls.get? call).bind CallPlace.batch = none := by rw [free, Option.bind_none]
  cases handles : request.handlesRequests with
  | false =>
    obtain ⟨same, after⟩ := s.host.begin_workload runtime idleEvictionSeconds readings handles
    have quiet : s.observe log (.start call request readings) = log := by
      cases request <;> first | rfl | cases handles
    rw [quiet]
    exact batched.of_workload waits absent after same
  | true =>
    cases request with
    | enqueueRequest i =>
      obtain ⟨process, isOver⟩ := atOnce_process s.host (ManagedWorker.enqueueRequest i readings.now)
      have spec := fun selected => @enqueueRequest_onward selected i readings.now s.host.process
      have objects : (s.host.atOnce (ManagedWorker.enqueueRequest i readings.now)).2.objects =
          (ManagedWorker.enqueueRequest i readings.now s.host.process).2.objects := congrArg WorkerProcess.objects process
      refine batched.settle waits absent (Option.bind_eq_none_iff.mpr fun p placed => ?_) ?_ ?_ (fun selected _ => ?_) ?_
        fun _ _ _ _ => ⟨rfl, rfl, rfl⟩
      · rw [show (s.host.begin runtime idleEvictionSeconds readings (.enqueueRequest i)).1.place? = none from isOver] at placed
        cases placed
      · exact process ▸ batched.queue.enqueue i readings.now
      · exact (congrArg (·.worker.activity) process).trans (spec []).1
      · exact objects ▸ (spec selected).2
      · exact batched.still_cancelled (objects ▸ (spec []).2)
    | cancelRequest requestId => exact batched.cancelRequest free requestId waits
    | executeBatch => exact batched.executeBatch alone waits
    | shutdown =>
      have spec := fun selected => @failQueued_onward selected readings.closedAt s.host.worker.queue s.host.objects
      rcases run : failQueued readings.closedAt s.host.worker.queue s.host.objects with ⟨raised | done, queue, objects⟩ <;>
        rw [run] at spec
      · have result : s.host.begin runtime idleEvictionSeconds readings .shutdown = (.raises raised,
            { s.host with process := ⟨{ s.host.worker with draining := true, queue := queue }, objects⟩ }) := by
          unfold WorkerHost.begin
          dsimp only
          rw [run]
        rw [result] at waits ⊢
        exact batched.settle waits absent rfl (batched.queue.of_fewer (spec []).2.1 rfl fun i _ => (spec []).2.2 i) rfl
          (fun selected _ => (spec selected).1) (batched.still_cancelled (spec []).1) fun _ _ _ _ => ⟨rfl, rfl, rfl⟩
      · have result : s.host.begin runtime idleEvictionSeconds readings .shutdown =
            (.proceeds (.stopping s.host.worker.residentModels), { s.host with
              process := ⟨{ s.host.worker with draining := true, queue := queue, residentModels := [], health := .stopped }, objects⟩ }) := by
          unfold WorkerHost.begin
          dsimp only
          rw [run]
        rw [result] at waits ⊢
        exact batched.settle waits absent rfl (batched.queue.of_fewer (spec []).2.1 rfl fun i _ => (spec []).2.2 i) rfl
          (fun selected _ => (spec selected).1) (batched.still_cancelled (spec []).1) fun _ _ _ _ => ⟨rfl, rfl, rfl⟩
    | _ => cases handles

/-- The step of a call that is at a batch. -/
theorem Batched.advance (batched : s.Batched log) (found : s.calls.get? call = some old) (isBatch : old.batch = some selected)
    (waits : (s.settle call (s.host.advance runtime readings old)).Waits) :
    (s.settle call (s.host.advance runtime readings old)).Batched (s.observe log (.advance call readings)) := by
  have inBatch := batched.batch found isBatch
  have others : ∀ c p, s.calls.get? c = some p → p.batch.isSome = true → c = call := fun c p other isBatch' =>
    batched.alone other found isBatch' (by rw [isBatch, Option.isSome_some])
  -- the queue is not the batch's
  have queued : ∀ objects, Onward selected s.host.objects objects → (∀ i ∉ selected, objects i = s.host.objects i) →
      ∀ w : ManagedWorker, w.queue = s.host.worker.queue → w.maxBatchTokens = s.host.worker.maxBatchTokens →
        LocalQueue ⟨w, objects⟩ := by
    intro objects onward outside w queue budget
    refine batched.queue.of_fewer (queue ▸ List.Sublist.refl _) budget fun i member => Or.inl ?_
    change i ∈ w.queue at member
    rw [queue] at member
    by_cases inside : i ∈ selected
    · rcases inBatch.alive i inside with runs | isOver
      · rcases batched.queue.waiting i member with isOver | waiting
        · exact onward.ended i isOver
        · rw [show (s.host.process.objects i).status = .running from runs] at waiting
          cases waiting
      · exact onward.ended i isOver
    · exact outside i inside
  have unlogged : (∀ chosen, old ≠ .running chosen) → s.observe log (.advance call readings) = log := by
    intro other
    unfold observe
    dsimp only
    rw [found]
    split
    · rename_i same
      exact absurd (Option.some.inj same) (other _)
    · rfl
  cases old with
  | running chosen =>
    cases isBatch
    have observed : s.observe log (.advance call readings) = { log with
        generated := Function.update log.generated call ((checkResults (selected.head?.elim false fun i =>
          (s.host.objects i).stream) selected.length readings.generated).toOption.getD []) } := by
      unfold observe
      dsimp only
      rw [found]
    rcases checked : checkResults (selected.head?.elim false fun i => (s.host.objects i).stream) selected.length
      readings.generated with raised | results
    · have result : s.host.advance runtime readings (.running selected) = (.proceeds (.failing selected raised), s.host) := by
        unfold WorkerHost.advance
        dsimp only
        rw [checked]
      rw [result] at waits ⊢
      rw [observed]
      refine Batched.own selected waits others batched.queue batched.cancelled (fun place placed => ?_) fun isOver => by cases isOver
      cases placed
      exact ⟨rfl, inBatch.logged, inBatch.before, inBatch.alive, fun _ => inBatch.occupies rfl, fun released => (by cases released),
        fun _ same => (by cases same), fun same => (by rcases same with same | same <;> cases same)⟩
    · have result : s.host.advance runtime readings (.running selected) = (.proceeds (.retiring selected none), s.host) := by
        unfold WorkerHost.advance
        dsimp only
        rw [checked]
      rw [result] at waits ⊢
      rw [observed]
      refine Batched.own selected waits others batched.queue batched.cancelled (fun place placed => ?_) fun isOver => by cases isOver
      cases placed
      refine ⟨rfl, inBatch.logged, inBatch.before, inBatch.alive, fun _ => inBatch.occupies rfl, fun released => (by cases released),
        fun _ same => (by cases same), fun _ => ?_⟩
      rw [checked]
      change (Function.update log.generated call results call).length = selected.length
      rw [Function.update_self]
      exact checkResults_length checked
  | failing chosen raised =>
    cases isBatch
    obtain ⟨objects, run, onward, isOver, outside⟩ := closeAll_onward (fun _ => readings.now) (by decide : .failed ∈ RequestState.running.allowed) rfl inBatch.alive
    have result : s.host.advance runtime readings (.failing selected raised) =
        (.proceeds (.retiring selected (some raised)), { s.host with process := ⟨s.host.worker, objects⟩ }) := by
      unfold WorkerHost.advance
      dsimp only
      rw [run]
      rfl
    rw [result] at waits ⊢
    rw [unlogged fun _ same => by cases same]
    refine Batched.own selected waits others (queued objects onward outside _ rfl rfl) (batched.still_cancelled onward)
      (fun place placed => ?_) fun isOver => by cases isOver
    cases placed
    exact ⟨rfl, inBatch.logged, inBatch.before, onward.alive inBatch.alive, fun _ => (inBatch.occupies rfl).onward rfl onward,
      fun released => (by cases released), fun _ _ => isOver, fun same => (by rcases same with same | same <;> cases same)⟩
  | retiring chosen failure =>
    cases isBatch
    obtain ⟨objects, queue, -, -⟩ := retire_frame selected s.host.process
    have budget := retire_budget selected s.host.process
    have none := (inBatch.occupies rfl).retire
    have rest : LocalQueue (retire selected s.host.process) :=
      batched.queue.of_fewer (queue ▸ List.Sublist.refl _) budget fun i _ => Or.inl (congrFun objects i)
    have kept : ∀ i ∈ log.cancelled, ((retire selected s.host.process).objects i).status = .cancelled := by
      rw [objects]
      exact batched.cancelled
    have still : ∀ i ∈ selected, ((retire selected s.host.process).objects i).status = .running ∨
        ((retire selected s.host.process).objects i).terminal = true := by
      rw [objects]
      exact inBatch.alive
    rw [unlogged fun _ same => by cases same]
    refine Batched.own selected waits others rest kept (fun place placed => ?_) fun _ => none
    cases failure with
    | some raised => cases placed
    | none =>
      cases placed
      exact ⟨rfl, inBatch.logged, inBatch.before, still, fun occupies => (by cases occupies), fun _ => none,
        fun _ same => (by cases same), fun _ => inBatch.answered (Or.inl rfl)⟩
  | completing chosen =>
    cases isBatch
    obtain ⟨objects, run, onward, isOver, outside⟩ := closeAll_onward readings.closedAt (by decide : .completed ∈ RequestState.running.allowed) rfl inBatch.alive
    have result : s.host.advance runtime readings (.completing selected) =
        (.returns, { s.host with process := ⟨s.host.worker, objects⟩ }) := by
      unfold WorkerHost.advance WorkerHost.atOnce
      dsimp only
      rw [run]
      rfl
    rw [result] at waits ⊢
    rw [unlogged fun _ same => by cases same]
    exact Batched.own selected waits others (queued objects onward outside _ rfl rfl) (batched.still_cancelled onward)
      (fun _ placed => by cases placed) fun _ => inBatch.released rfl
  | _ => cases isBatch

theorem Batched.act (batched : s.Batched log) (alone : s.Alone action)
    (acts : s.act runtime idleEvictionSeconds action = some s') : s'.Batched (s.observe log action) := by
  have waits := batched.waits.act acts
  rcases act_cases acts with ⟨call, request, readings, rfl, free, rfl⟩ | ⟨call, readings, place, rfl, found, rfl⟩ |
    ⟨i, target, at_, objects, rfl, moved, rfl⟩
  · exact batched.begin free alone waits
  · cases isBatch : place.batch with
    | some selected => exact batched.advance found isBatch waits
    | none =>
      have joined : ∀ model entered, place = .waiting model entered → entered.accepting = true ∧
          model.modelId ∉ entered.residentModels ∧ model.modelId ∈ entered.loadingModels := by
        rintro model entered rfl
        exact batched.waits call model entered (by rw [role, found]; rfl)
      obtain ⟨same, after⟩ := s.host.advance_workload runtime readings isBatch joined
      have quiet : s.observe log (.advance call readings) = log := by
        unfold observe
        dsimp only
        rw [found]
        split
        · rename_i running
          cases running
          cases isBatch
        · rfl
      rw [quiet]
      exact batched.of_workload waits (by rw [found, Option.bind_some, isBatch]) after same
  · unfold Objects.transition at moved
    rcases (s.host.objects i).transition_cases target at_ with ⟨allowed, run⟩ | ⟨-, raised, run, -⟩ <;> rw [run] at moved <;>
      cases moved
    have ended : ∀ j, (s.host.objects.put i ((s.host.objects i).enter target at_)) j = s.host.objects j ∨
        j = i ∧ ((s.host.objects.put i ((s.host.objects i).enter target at_)) j).terminal = target.isTerminal ∧
          ((s.host.objects.put i ((s.host.objects i).enter target at_)) j).estimatedTokens = (s.host.objects j).estimatedTokens := by
      intro j
      rcases eq_or_ne j i with rfl | differ
      · rw [Objects.put_self]
        exact Or.inr ⟨rfl, rfl, rfl⟩
      · exact Or.inl (Objects.put_of_ne differ)
    refine batched.bystander waits (batched.queue.of_fewer (List.Sublist.refl _) rfl fun j member => ?_) (fun _ _ _ => Iff.rfl) rfl
      (fun {c p selected} found isBatch => .put_enter allowed fun member _ => ?_) ?_ fun _ _ _ _ => ⟨rfl, rfl, rfl⟩
    · rcases ended j with same | ⟨rfl, isOver, tokens⟩
      · exact Or.inl same
      · rcases alone with final | ⟨absent, -⟩
        · exact Or.inr ⟨isOver.trans final, tokens⟩
        · exact absurd member absent
    · rcases alone with final | ⟨-, outside⟩
      · exact final
      · exact absurd member (outside c p selected found isBatch)
    · exact @Batched.still_cancelled _ _ _ [] batched _ (.put_enter allowed fun member _ => by cases member)

/-- However `cancel_request` and other calls interleave with an `execute_batch`,
and whatever the runtime answers: a request that was cancelled stays cancelled;
when the call ends its requests are all over and the worker's activity is as
before; and it returns for each request that completed the result at the
position of its prompt, and none for a cancelled one. -/
theorem batch_ends (traced : Traced runtime idleEvictionSeconds observe (fun s log => s.Unoccupied ∧ log.cancelled = []) Alone s log) :
    (∀ i ∈ log.cancelled, (s.host.objects i).status = .cancelled) ∧
      (∀ call readings, s.Alone (.start call .executeBatch readings) →
        (∀ place, (s.host.begin runtime idleEvictionSeconds readings .executeBatch).1 ≠ .proceeds place) →
          (s.host.begin runtime idleEvictionSeconds readings .executeBatch).1 = .returns ∧
          (s.observe log (.start call .executeBatch readings)).selected call = [] ∧
          (s.host.begin runtime idleEvictionSeconds readings .executeBatch).2.worker.activity = s.host.worker.activity) ∧
      ∀ call place readings selected, s.calls.get? call = some place → place.batch = some selected →
        (∀ next, (s.host.advance runtime readings place).1 ≠ .proceeds next) →
          log.selected call = selected ∧
          (∀ i ∈ selected, ((s.host.advance runtime readings place).2.objects i).terminal = true) ∧
          (s.host.advance runtime readings place).2.worker.activity = log.before call ∧
          ((s.host.advance runtime readings place).1 = .returns →
            (log.generated call).length = selected.length ∧
            ∀ execution ∈ executions (s.host.advance runtime readings place).2.objects selected (log.generated call),
              ∃ (k : Nat) (i : ObjectId) (result : RuntimeResult), selected[k]? = some i ∧ (log.generated call)[k]? = some result ∧
                execution = ⟨(s.host.objects i).requestId, result⟩ ∧ i ∉ log.cancelled) := by
  have batched : s.Batched log := by
    induction traced with
    | start begun => exact .start begun.1 begun.2
    | next before alone acts ih => exact ih.act alone acts
  refine ⟨batched.cancelled, fun call readings alone isOver => ?_, fun call place readings selected found isBatch isOver => ?_⟩
  · obtain ⟨selected, p', run, -⟩ := beginBatch_selects batched.queue readings.now
    have activity := beginBatch_activity run
    unfold WorkerHost.begin at isOver ⊢
    unfold observe
    dsimp only at isOver ⊢
    rw [run] at isOver ⊢
    rcases activity with ⟨rfl, same⟩ | ⟨nonempty, -⟩
    · refine ⟨rfl, ?_, same⟩
      change Function.update log.selected call [] call = []
      rw [Function.update_self]
    · cases selected with
      | nil => exact absurd rfl nonempty
      | cons i rest => exact absurd rfl (isOver _)
  · have inBatch := batched.batch found isBatch
    refine ⟨inBatch.logged, ?_⟩
    cases place with
    | running chosen =>
      unfold WorkerHost.advance at isOver
      dsimp only at isOver
      split at isOver <;> exact absurd rfl (isOver _)
    | failing chosen raised =>
      unfold WorkerHost.advance at isOver
      dsimp only at isOver
      split at isOver <;> exact absurd rfl (isOver _)
    | retiring chosen failure =>
      cases isBatch
      cases failure with
      | none => exact absurd rfl (isOver _)
      | some raised =>
        have objects := (retire_frame selected s.host.process).1
        refine ⟨fun i member => ?_, ?_, fun returned => by cases returned⟩
        · change ((retire selected s.host.process).objects i).terminal = true
          rw [objects]
          exact inBatch.failed raised rfl i member
        · rw [inBatch.before]
          exact (inBatch.occupies rfl).retire
    | completing chosen =>
      cases isBatch
      obtain ⟨objects, run, onward, isOver, outside⟩ :=
        closeAll_onward readings.closedAt (by decide : .completed ∈ RequestState.running.allowed) rfl inBatch.alive
      have result : s.host.advance runtime readings (.completing selected) =
          (.returns, { s.host with process := ⟨s.host.worker, objects⟩ }) := by
        unfold WorkerHost.advance WorkerHost.atOnce
        dsimp only
        rw [run]
        rfl
      rw [result]
      refine ⟨isOver, (inBatch.released rfl).trans inBatch.before.symm, fun _ => ⟨inBatch.answered (Or.inr rfl), ?_⟩⟩
      intro execution member
      obtain ⟨⟨i, answer⟩, pair, found⟩ := List.mem_filterMap.mp member
      obtain ⟨k, inside, same⟩ := List.getElem_of_mem pair
      have paired : (selected.zip (log.generated call))[k]? = some (i, answer) := by
        rw [List.getElem?_eq_getElem inside, same]
      obtain ⟨here, there⟩ := List.getElem?_zip_eq_some.mp paired
      dsimp only at found
      split at found
      · rename_i completed
        cases found
        refine ⟨k, i, answer, here, there, ?_, fun cancelled => ?_⟩
        · exact congrArg (fun id => WorkerExecutionResult.mk id answer) (onward.ids i)
        · have status := batched.still_cancelled onward i cancelled
          change (objects i).status = .completed at completed
          rw [status] at completed
          cases completed
      · cases found
    | _ => cases isBatch

namespace Sample

/-- The runtime's answer for a batch of one. -/
def answering : WorkerReadings := { Sample.readings with generated := .ok [⟨"hi", 1, 1⟩] }

/-- A batch of one request, which is cancelled while the runtime generates. -/
def cancelledBatch : List WorkerAction :=
  loading ++ [.start 1 (.enqueueRequest 0) Sample.readings, .start 1 .executeBatch Sample.readings,
    .start 2 (.cancelRequest "request") Sample.readings, .advance 1 answering, .advance 1 Sample.readings]

def watched : WorkerSystem SimulatedGpuRuntime × BatchLog :=
  trace SimulatedGpuRuntime.runtime (fun _ => 0) observe system ⟨[], fun _ => .none, fun _ => [], fun _ => []⟩ cancelledBatch

theorem system_unoccupied : system.Unoccupied :=
  ⟨⟨List.nodup_nil, fun _ member => (by cases member), fun _ member => (by cases member)⟩, fun found => (by cases found), rfl,
    .start system_fresh⟩

end Sample

open Sample in
/-- The batch returns nothing for the request, whose result is there. -/
theorem batch_ends_sample : watched.2.generated 1 = [⟨"hi", 1, 1⟩] ∧
    ∀ execution ∈ executions (watched.1.host.advance SimulatedGpuRuntime.runtime Sample.readings (.completing [0])).2.objects [0]
      (watched.2.generated 1), ∃ (k : Nat) (i : ObjectId) (result : RuntimeResult), [0][k]? = some i ∧
        (watched.2.generated 1)[k]? = some result ∧ execution = ⟨(watched.1.host.objects i).requestId, result⟩ ∧ i ∉ [0] := by
  have traced : Traced SimulatedGpuRuntime.runtime (fun _ => 0) observe (fun s log => s.Unoccupied ∧ log.cancelled = []) Alone
      watched.1 watched.2 := by
    refine Traced.run (.start ⟨system_unoccupied, rfl⟩) ?_
    refine ⟨trivial, rfl, trivial, rfl, trivial, rfl, trivial, rfl, trivial, rfl, trivial, rfl, trivial, rfl, trivial, rfl, ?_⟩
    exact ⟨trivial, rfl, fun _ _ found => (by cases found), rfl, trivial, rfl, trivial, rfl, trivial, rfl, trivial⟩
  have found : watched.1.calls.get? 1 = some (.completing [0]) := by rfl
  have ended := (batch_ends traced).2.2 1 _ Sample.readings [0] found rfl fun _ same => by cases same
  exact ⟨rfl, (ended.2.2.2 rfl).2⟩

end WorkerSystem

end ServingPlatform
