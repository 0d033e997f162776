import ServingPlatform.Library.Tally
import ServingPlatform.WorkerLifecycle.Claims

namespace ServingPlatform

namespace CallPlace

/-- The model that the next step asks the runtime to unload. -/
def unloadsNext : CallPlace → Option String
  | .evicting _ _ (e :: _) => some e.1
  | .unloading modelId _ => some modelId
  | .stopping (modelId :: _) => some modelId
  | _ => none

/-- The models that the call is going to ask the runtime to unload; `shutdown` has not begun. -/
def unloads : CallPlace → List String
  | .evicting _ _ rest => rest.map Prod.fst
  | .unloading modelId _ => [modelId]
  | _ => []

/-- The requests of a batch, until the worker no longer counts them as active. -/
def executing : CallPlace → List ObjectId
  | .running selected | .failing selected _ | .retiring selected _ => selected
  | _ => []

theorem unloads_subset_owned {place : CallPlace} {modelId : String} (unloads : modelId ∈ place.unloads) :
    modelId ∈ place.owned := by
  cases place with
  | evicting load unloaded rest => exact List.mem_append_right _ unloads
  | unloading other later => exact List.mem_append_right _ unloads
  | _ => cases unloads

end CallPlace

namespace CallOutcome

def executing : CallOutcome → List ObjectId
  | .proceeds place => place.executing
  | _ => []

def unloads : CallOutcome → List String
  | .proceeds place => place.unloads
  | _ => []

theorem after_executing (failure : Option Raised) (later : Option (List String)) :
    (CallOutcome.after failure (later.map .sweeping)).executing = [] := by
  cases failure <;> cases later <;> rfl

theorem after_unloads (failure : Option Raised) (later : Option (List String)) :
    (CallOutcome.after failure (later.map .sweeping)).unloads = [] := by
  cases failure <;> cases later <;> rfl

end CallOutcome

namespace WorkerSystem

open CallPlace ManagedWorker

variable {ρ : Type} {runtime : ModelRuntime ρ} {idleEvictionSeconds : ModelDefinition → Seconds} {s s' : WorkerSystem ρ}
  {call : Nat} {h : WorkerHost ρ} {outcome : CallOutcome} {place old : CallPlace} {readings : WorkerReadings}
  {action : WorkerAction} {modelId : String}

/-- The model of each request of the process. -/
def models (s : WorkerSystem ρ) : ObjectId → String := s.host.objects.models

/-- No batch that is executing has a request for the model. -/
def NotExecuting (s : WorkerSystem ρ) (modelId : String) : Prop :=
  ∀ c place, s.calls.get? c = some place → ∀ i ∈ place.executing, s.models i ≠ modelId

/-- No request for the model is queued or executing. -/
def Idle (s : WorkerSystem ρ) (modelId : String) : Prop :=
  (∀ i ∈ s.host.worker.queue, s.models i ≠ modelId) ∧ s.NotExecuting modelId

/-- `unload_model` withdraws no model that a batch is using. -/
def Unused (s : WorkerSystem ρ) : WorkerAction → Prop
  | .start _ (.unloadModel modelId) _ => modelId ∈ s.host.worker.residentModels → s.NotExecuting modelId
  | .advance call _ => ∀ modelId rest, s.calls.get? call = some (.sweeping (modelId :: rest)) →
      modelId ∈ s.host.worker.residentModels → s.NotExecuting modelId
  | _ => True

/-- The worker counts at least the requests that are executing, and what it is about to unload is idle. -/
structure InUse (s : WorkerSystem ρ) : Prop where
  counted : ∀ modelId, s.calls.total (fun place => share s.models place.executing modelId) ≤ s.host.worker.active modelId
  idle : ∀ {c place}, s.calls.get? c = some place → ∀ modelId ∈ place.unloads, s.Idle modelId

/-- The requests that a call is executing. -/
def executingAt (s : WorkerSystem ρ) (call : Nat) : List ObjectId := ((s.calls.get? call).map executing).getD []

/-- What a section does with the requests. -/
structure Uses (s : WorkerSystem ρ) (call : Nat) (result : CallOutcome × WorkerHost ρ) : Prop where
  models : result.2.objects.models = s.models
  queue : ∀ i ∈ result.2.worker.queue, i ∈ s.host.worker.queue ∨
    s.models i ∈ s.host.worker.residentModels ∧ result.1.unloads = []
  executing : ∀ i ∈ result.1.executing, i ∈ s.host.worker.queue ∨ i ∈ s.executingAt call
  unloads : ∀ modelId ∈ result.1.unloads, s.Idle modelId
  active : ∀ modelId, s.host.worker.active modelId + share s.models result.1.executing modelId ≤
    result.2.worker.active modelId + share s.models (s.executingAt call) modelId

theorem InUse.start (fresh : s.Fresh) : s.InUse where
  counted modelId := by
    rw [fresh.calls, active, fresh.activeRequestsByModel]
    exact le_refl _
  idle found := by
    rw [fresh.calls] at found
    cases found

/-- A model that no call counts as active is executed by none. -/
theorem InUse.notExecuting (inUse : s.InUse) (zero : s.host.worker.active modelId = 0) : s.NotExecuting modelId := by
  intro c place found i member same
  have nonneg : ∀ place : CallPlace, (0 : Int) ≤ share s.models place.executing modelId := fun _ => Int.natCast_nonneg _
  have least := Dict.le_total nonneg found
  have counted := inUse.counted modelId
  have positive : 0 < share s.models place.executing modelId := by
    unfold share
    exact List.countP_pos_iff.mpr ⟨i, member, by simpa using same⟩
  omega

theorem total_settle (result : CallOutcome × WorkerHost ρ) (modelId : String) :
    (s.settle call result).calls.total (fun place => (share s.models place.executing modelId : Int)) =
      s.calls.total (fun place => (share s.models place.executing modelId : Int)) -
        share s.models (s.executingAt call) modelId + share s.models result.1.executing modelId := by
  have moved := s.settle_total call result fun place => (share s.models place.executing modelId : Int)
  have before : (s.calls.get? call).elim 0 (fun place => (share s.models place.executing modelId : Int)) =
      share s.models (s.executingAt call) modelId := by
    unfold executingAt
    cases s.calls.get? call <;> rfl
  have now : result.1.place?.elim 0 (fun place => (share s.models place.executing modelId : Int)) =
      share s.models result.1.executing modelId := by
    cases result.1 <;> rfl
  rw [moved, before, now]

theorem InUse.settle (inUse : s.InUse) (claims : s.Claims) {result : CallOutcome × WorkerHost ρ} (uses : Uses s call result) :
    (s.settle call result).InUse := by
  have host : (s.settle call result).host = result.2 := by
    obtain ⟨outcome, h⟩ := result
    cases outcome <;> rfl
  have same : (s.settle call result).models = s.models := by
    unfold models
    rw [host]
    exact uses.models
  have places : ∀ {c place}, (s.settle call result).calls.get? c = some place →
      s.calls.get? c = some place ∨ c = call ∧ result.1 = .proceeds place := by
    intro c place found
    obtain ⟨outcome, h⟩ := result
    cases outcome with
    | proceeds next =>
      change (s.calls.insert call next).get? c = some place at found
      rw [Dict.get?_insert] at found
      split at found
      · cases found
        exact Or.inr ⟨‹_›, rfl⟩
      · exact Or.inl found
    | returns =>
      change (s.calls.erase call).get? c = some place at found
      rw [Dict.get?_erase] at found
      split at found
      · cases found
      · exact Or.inl found
    | raises raised =>
      change (s.calls.erase call).get? c = some place at found
      rw [Dict.get?_erase] at found
      split at found
      · cases found
      · exact Or.inl found
  -- only a request for a resident model can be enqueued
  have stays : ∀ modelId, s.Idle modelId → (modelId ∉ s.host.worker.residentModels ∨ result.1.unloads ≠ []) →
      (s.settle call result).Idle modelId := by
    intro modelId idle absent
    unfold Idle NotExecuting
    rw [same, host]
    refine ⟨fun i member => ?_, fun c place found i member => ?_⟩
    · rcases uses.queue i member with before | ⟨resident, none⟩
      · exact idle.1 i before
      · rintro rfl
        rcases absent with absent | unloads
        · exact absent resident
        · exact unloads none
    · rcases places found with before | ⟨rfl, proceeds⟩
      · exact idle.2 c place before i member
      · rcases uses.executing i (by rw [proceeds]; exact member) with queued | executed
        · exact idle.1 i queued
        · unfold executingAt at executed
          cases known : s.calls.get? c with
          | none =>
            rw [known] at executed
            cases executed
          | some old =>
            rw [known] at executed
            exact idle.2 c old known i executed
  refine ⟨fun modelId => ?_, ?_⟩
  · have counted := inUse.counted modelId
    have active := uses.active modelId
    rw [same, total_settle, host]
    omega
  · intro c place found modelId unloads
    rcases places found with before | ⟨rfl, proceeds⟩
    · exact stays modelId (inUse.idle before modelId unloads)
        (Or.inl (claims.exclusive.free before modelId (unloads_subset_owned unloads)))
    · have own : modelId ∈ result.1.unloads := by
        rw [proceeds]
        exact unloads
      exact stays modelId (uses.unloads modelId own) (Or.inr (List.ne_nil_of_mem own))

section Sections

/-- A section that leaves the requests alone, and unloads no more than before. -/
theorem Uses.of_kept {result : CallOutcome × WorkerHost ρ} (same : result.2.requestState = s.host.requestState)
    (executes : result.1.executing = s.executingAt call) (unloads : ∀ modelId ∈ result.1.unloads, s.Idle modelId) :
    Uses s call result := by
  obtain ⟨queue, counts, objects⟩ : result.2.worker.queue = s.host.worker.queue ∧
      result.2.worker.activeRequestsByModel = s.host.worker.activeRequestsByModel ∧ result.2.objects = s.host.objects := by
    simpa [WorkerHost.requestState] using same
  refine ⟨?_, ?_, ?_, unloads, ?_⟩
  · rw [objects]
    rfl
  · rw [queue]
    exact fun i member => Or.inl member
  · rw [executes]
    exact fun i member => Or.inr member
  · intro modelId
    rw [executes, ManagedWorker.active, ManagedWorker.active, counts]

theorem executingAt_of_none (absent : s.calls.get? call = none) : s.executingAt call = [] := by
  unfold executingAt
  rw [absent]
  rfl

theorem executingAt_of_some (found : s.calls.get? call = some old) : s.executingAt call = old.executing := by
  unfold executingAt
  rw [found]
  rfl

/-- The locked part of a load withdraws models that are idle. -/
theorem Uses.goAhead (inUse : s.InUse) (claims : s.Claims) (quiet : s.executingAt call = []) {entered : ManagedWorker}
    {model : ModelDefinition} (joins : entered = s.host.worker ∨ entered.accepting = true ∧
      model.modelId ∉ entered.residentModels ∧ model.modelId ∈ entered.loadingModels) :
    Uses s call (s.host.goAhead runtime entered model readings) := by
  rcases s.host.goAhead_cases runtime readings joins with
    ⟨outcome, w, run, ends, -, same, -⟩ | ⟨evictions, attempt, w, capacity, run, -, -, planned, -, -, same, -⟩
  · rw [run]
    cases outcome with
    | proceeds place => exact absurd rfl (ends place)
    | returns => exact Uses.of_kept same quiet.symm fun _ member => by cases member
    | raises raised => exact Uses.of_kept same quiet.symm fun _ member => by cases member
  · rw [run]
    refine Uses.of_kept same quiet.symm fun modelId member => ?_
    obtain ⟨e, inside, rfl⟩ := List.mem_map.mp member
    have unused := ((planEvictions_spec planned claims.distinct).2 e inside).2
    unfold ManagedWorker.inUse at unused
    simp only [Bool.or_eq_false_iff, decide_eq_false_iff_not, not_not, List.any_eq_false, decide_eq_true_eq] at unused
    exact ⟨fun i queued => unused.2 i queued, inUse.notExecuting unused.1⟩

/-- The locked part of `unload_model` withdraws a model that is not queued. -/
theorem Uses.beginUnload (quiet : s.executingAt call = []) {later : Option (List String)}
    (unused : modelId ∈ s.host.worker.residentModels → s.NotExecuting modelId) :
    Uses s call (s.host.beginUnload modelId later) := by
  unfold WorkerHost.beginUnload
  split
  · exact Uses.of_kept rfl quiet.symm fun _ member => by cases member
  rename_i free
  split
  · refine Uses.of_kept rfl ((CallOutcome.after_executing none later).trans quiet.symm) fun _ member => ?_
    rw [CallOutcome.after_unloads] at member
    cases member
  rename_i resident
  refine Uses.of_kept rfl quiet.symm fun other member => ?_
  obtain rfl := List.mem_singleton.mp member
  refine ⟨fun i queued same => free ?_, unused (not_not.mp resident)⟩
  exact List.any_eq_true.mpr ⟨i, queued, decide_eq_true same⟩

/-- A call on the requests that is over after its section. -/
theorem Uses.atOnce {α : Type} {m : Attempt Raised WorkerProcess α} (quiet : s.executingAt call = [])
    (models : (m s.host.process).2.objects.models = s.models)
    (queue : ∀ i ∈ (m s.host.process).2.worker.queue, i ∈ s.host.worker.queue ∨ s.models i ∈ s.host.worker.residentModels)
    (active : (m s.host.process).2.worker.activeRequestsByModel = s.host.worker.activeRequestsByModel) :
    Uses s call (s.host.atOnce m) := by
  have sections : ∀ {outcome : CallOutcome} {process : WorkerProcess}, outcome.executing = [] → outcome.unloads = [] →
      (m s.host.process).2 = process → Uses s call (outcome, { s.host with process := process }) := by
    rintro outcome process executes unloads rfl
    refine ⟨models, ?_, ?_, ?_, ?_⟩
    · exact fun i member => (queue i member).imp_right fun resident => ⟨resident, unloads⟩
    · rw [executes]
      exact fun i member => by cases member
    · rw [unloads]
      exact fun modelId member => by cases member
    · intro modelId
      have same : (m s.host.process).2.worker.active modelId = s.host.worker.active modelId := by
        unfold ManagedWorker.active
        exact congrArg (fun counts => (counts.get? modelId).getD 0) active
      rw [executes, quiet]
      change _ ≤ (m s.host.process).2.worker.active modelId + _
      rw [same]
  unfold WorkerHost.atOnce
  rcases run : m s.host.process with ⟨raised | done, process⟩
  · exact sections rfl rfl (by rw [run])
  · exact sections rfl rfl (by rw [run])

/-- A batch executes what was queued, and counts it. -/
theorem Uses.executeBatch (quiet : s.executingAt call = []) (now : Seconds) {outcome : CallOutcome} {process : WorkerProcess}
    (after : (beginBatch now s.host.process).2 = process)
    (executes : outcome.executing = (beginBatch now s.host.process).1.toOption.getD []) (unloads : outcome.unloads = []) :
    Uses s call (outcome, { s.host with process := process }) := by
  subst after
  have within := (beginBatch_subperm now s.host.process).subset
  refine ⟨(beginBatch_modelState now s.host.process).2, ?_, ?_, ?_, ?_⟩
  · exact fun i member => Or.inl (within (List.mem_append_right _ member))
  · rw [executes]
    exact fun i member => Or.inl (within (List.mem_append_left _ member))
  · rw [unloads]
    exact fun modelId member => by cases member
  · intro modelId
    have counted := @beginBatch_active modelId now s.host.process
    rw [executes, quiet]
    exact counted.trans (by simp [share, WorkerHost.worker])

theorem Uses.begin (inUse : s.InUse) (claims : s.Claims) (free : s.calls.get? call = none) {request : WorkerRequest}
    (unused : Unused s (.start call request readings)) (serving : Serving (.start call request readings)) :
    Uses s call (s.host.begin runtime idleEvictionSeconds readings request) := by
  have quiet := executingAt_of_none free
  cases request with
  | loadModel model =>
    unfold WorkerHost.begin
    dsimp only
    split
    · exact Uses.of_kept rfl quiet.symm fun _ member => by cases member
    · exact Uses.goAhead inUse claims quiet (Or.inl rfl)
  | unloadModel modelId => exact Uses.beginUnload quiet unused
  | evictIdleModels =>
    unfold WorkerHost.begin
    dsimp only
    split <;> exact Uses.of_kept rfl quiet.symm fun _ member => by cases member
  | enqueueRequest i =>
    obtain ⟨-, active, queue, models⟩ := enqueueRequest_frame i readings.now s.host.process
    exact Uses.atOnce quiet models queue active
  | cancelRequest requestId =>
    obtain ⟨-, active, queue, models⟩ := cancelRequest_frame requestId readings.now s.host.process
    exact Uses.atOnce quiet models (fun i member => Or.inl (queue i member)) active
  | executeBatch =>
    unfold WorkerHost.begin
    dsimp only
    split
    · rename_i run
      exact Uses.executeBatch quiet readings.now (by rw [run]) (by rw [run]; rfl) rfl
    · rename_i run
      exact Uses.executeBatch quiet readings.now (by rw [run]) (by rw [run]; rfl) rfl
    · rename_i run
      exact Uses.executeBatch quiet readings.now (by rw [run]) (by rw [run]; rfl) rfl
  | register =>
    unfold WorkerHost.begin
    dsimp only
    split
    · exact Uses.of_kept rfl quiet.symm fun _ member => by cases member
    split <;> exact Uses.of_kept rfl quiet.symm fun _ member => by cases member
  | drain =>
    unfold WorkerHost.begin
    dsimp only
    split <;> exact Uses.of_kept rfl quiet.symm fun _ member => by cases member
  | shutdown => exact serving.elim

/-- The end of a batch's runtime call: the worker and the queue stay, and the batch keeps its requests or lets them go. -/
theorem Uses.closeAll (found : s.calls.get? call = some old) (target : RequestState) (at_ : ObjectId → Seconds)
    (selected : List ObjectId) {outcome : CallOutcome} {process : WorkerProcess}
    (after : (closeAll target at_ selected s.host.process).2 = process) (executes : outcome.executing = old.executing)
    (unloads : outcome.unloads = []) : Uses s call (outcome, { s.host with process := process }) := by
  subst after
  have same := closeAll_worker target at_ selected s.host.process
  have worker : (ManagedWorker.closeAll target at_ selected s.host.process).2.worker = s.host.worker := congrArg Prod.fst same
  refine ⟨congrArg Prod.snd same, ?_, ?_, ?_, ?_⟩
  · intro i member
    change i ∈ (ManagedWorker.closeAll target at_ selected s.host.process).2.worker.queue at member
    rw [worker] at member
    exact Or.inl member
  · rw [executes, executingAt_of_some found]
    exact fun i member => Or.inr member
  · rw [unloads]
    exact fun modelId member => by cases member
  · intro modelId
    rw [executes, executingAt_of_some found]
    change _ ≤ (ManagedWorker.closeAll target at_ selected s.host.process).2.worker.active modelId + _
    rw [worker]

/-- A batch that retires is no longer counted, nor executing. -/
theorem Uses.retire {selected : List ObjectId} {failure : Option Raised}
    (found : s.calls.get? call = some (.retiring selected failure)) :
    Uses s call (s.host.advance runtime readings (.retiring selected failure)) := by
  obtain ⟨objects, queue, -, counts⟩ := retire_frame selected s.host.process
  have idle : (s.host.advance runtime readings (.retiring selected failure)).1.executing = [] ∧
      (s.host.advance runtime readings (.retiring selected failure)).1.unloads = [] := by
    cases failure <;> exact ⟨rfl, rfl⟩
  refine ⟨congrArg Objects.models objects, ?_, ?_, ?_, ?_⟩
  · intro i member
    change i ∈ (ManagedWorker.retire selected s.host.process).worker.queue at member
    rw [queue] at member
    exact Or.inl member
  · rw [idle.1]
    exact fun i member => by cases member
  · rw [idle.2]
    exact fun modelId member => by cases member
  · intro modelId
    have counted := counts modelId
    rw [idle.1, executingAt_of_some found]
    change s.host.worker.active modelId + share s.models [] modelId ≤
      (ManagedWorker.retire selected s.host.process).worker.active modelId + share s.models selected modelId
    have none : share s.models [] modelId = 0 := rfl
    have same : share s.host.process.objects.models selected modelId = share s.models selected modelId := rfl
    have worker : s.host.process.worker.active modelId = s.host.worker.active modelId := rfl
    omega

theorem Uses.advance (inUse : s.InUse) (claims : s.Claims) (found : s.calls.get? call = some old)
    (unused : Unused s (.advance call readings)) : Uses s call (s.host.advance runtime readings old) := by
  have coherent := claims.coherent found
  have executes := executingAt_of_some found
  have idle := fun modelId => inUse.idle found modelId
  cases old with
  | waiting model entered =>
    unfold WorkerHost.advance
    dsimp only
    split
    · exact Uses.of_kept rfl executes.symm fun _ member => by cases member
    · exact Uses.goAhead inUse claims executes (Or.inr coherent)
  | evicting load unloaded rest =>
    cases rest with
    | nil => exact Uses.of_kept rfl executes.symm fun _ member => by cases member
    | cons e rest =>
      unfold WorkerHost.advance
      dsimp only
      split
      · exact Uses.of_kept rfl executes.symm fun _ member => by cases member
      · exact Uses.of_kept rfl executes.symm fun modelId member => idle modelId (List.mem_cons_of_mem _ member)
  | checking load =>
    unfold WorkerHost.advance
    dsimp only
    split <;> exact Uses.of_kept rfl executes.symm fun _ member => by cases member
  | adding load => exact Uses.of_kept rfl executes.symm fun _ member => by cases member
  | warming load =>
    unfold WorkerHost.advance
    dsimp only
    split <;> exact Uses.of_kept rfl executes.symm fun _ member => by cases member
  | publishing load => exact Uses.of_kept rfl executes.symm fun _ member => by cases member
  | recovering load unloaded raised => exact Uses.of_kept rfl executes.symm fun _ member => by cases member
  | restoring load unloaded rest raised =>
    cases rest with
    | nil => exact Uses.of_kept rfl executes.symm fun _ member => by cases member
    | cons e rest =>
      unfold WorkerHost.advance
      dsimp only
      split <;> exact Uses.of_kept rfl executes.symm fun _ member => by cases member
  | closing load failure =>
    cases failure <;> exact Uses.of_kept rfl executes.symm fun _ member => by cases member
  | unloading modelId later =>
    unfold WorkerHost.advance
    dsimp only
    split
    · exact Uses.of_kept rfl executes.symm fun _ member => by cases member
    · refine Uses.of_kept rfl ((CallOutcome.after_executing none later).trans executes.symm) fun _ member => ?_
      rw [CallOutcome.after_unloads] at member
      cases member
  | puttingBack modelId raised => exact Uses.of_kept rfl executes.symm fun _ member => by cases member
  | sorting eligible =>
    unfold WorkerHost.advance
    dsimp only
    split <;> exact Uses.of_kept rfl executes.symm fun _ member => by cases member
  | sweeping rest =>
    cases rest with
    | nil => exact Uses.of_kept rfl executes.symm fun _ member => by cases member
    | cons modelId rest => exact Uses.beginUnload executes (unused modelId rest found)
  | running selected =>
    unfold WorkerHost.advance
    dsimp only
    split <;> exact Uses.of_kept rfl executes.symm fun _ member => by cases member
  | failing selected raised =>
    unfold WorkerHost.advance
    dsimp only
    split
    · rename_i run
      exact Uses.closeAll found .failed (fun _ => readings.now) selected (by rw [run]) rfl rfl
    · rename_i run
      exact Uses.closeAll found .failed (fun _ => readings.now) selected (by rw [run]) rfl rfl
  | retiring selected failure => exact Uses.retire found
  | completing selected =>
    have same := closeAll_worker .completed readings.closedAt selected s.host.process
    have worker : (ManagedWorker.closeAll .completed readings.closedAt selected s.host.process).2.worker = s.host.worker :=
      congrArg Prod.fst same
    refine Uses.atOnce executes (congrArg Prod.snd same) ?_ (congrArg ManagedWorker.activeRequestsByModel worker)
    rw [worker]
    exact fun i member => Or.inl member
  | stopping rest => exact coherent.elim
  | unregistering raised => exact coherent.elim

end Sections

theorem InUse.act (inUse : s.InUse) (claims : s.Claims) (unused : Unused s action) (serving : Serving action)
    (acts : s.act runtime idleEvictionSeconds action = some s') : s'.InUse := by
  rcases act_cases acts with ⟨call, request, readings, rfl, free, rfl⟩ | ⟨call, readings, place, rfl, found, rfl⟩ |
    ⟨i, target, at_, objects, rfl, moved, rfl⟩
  · exact inUse.settle claims (Uses.begin inUse claims free unused serving)
  · exact inUse.settle claims (Uses.advance inUse claims found unused)
  · have same : objects.models = s.models := by
      have kept := Objects.transition_models i target at_ s.host.objects
      rw [moved] at kept
      exact kept
    have models : WorkerSystem.models { s with host := { s.host with process := ⟨s.host.worker, objects⟩ } } = s.models := same
    refine ⟨fun modelId => ?_, fun found modelId unloads => ?_⟩
    · rw [models]
      exact inUse.counted modelId
    · have idle := inUse.idle found modelId unloads
      unfold Idle NotExecuting at idle ⊢
      rw [models]
      exact idle

/-- While no load goes ahead for a model that is being removed, no handler puts
back a model in other hands, and `unload_model` withdraws no model that a batch
is using, the worker never asks its runtime to unload a model in use. -/
theorem unloaded_models_not_in_use
    (reached : Reach runtime idleEvictionSeconds Fresh
      (fun s action => Careful runtime s action ∧ Unused s action ∧ Serving action) s)
    (found : s.calls.get? call = some place) (next : place.unloadsNext = some modelId) :
    (∀ i ∈ s.host.worker.queue, (s.host.objects i).modelId ≠ modelId) ∧
      ∀ other batch, s.calls.get? other = some batch → ∀ i ∈ batch.executing, (s.host.objects i).modelId ≠ modelId := by
  have invariant : s.Claims ∧ s.InUse := by
    clear found next
    induction reached with
    | start fresh => exact ⟨.start fresh, .start fresh⟩
    | next before allowed acts ih =>
      exact ⟨ih.1.act allowed.1 allowed.2.2 acts, ih.2.act ih.1 allowed.2.1 allowed.2.2 acts⟩
  have coherent := invariant.1.coherent found
  have unloads : modelId ∈ place.unloads := by
    cases place with
    | evicting load unloaded rest =>
      cases rest with
      | nil => cases next
      | cons e rest =>
        cases next
        exact List.mem_cons_self
    | unloading other later =>
      cases next
      exact List.mem_singleton_self _
    | stopping rest => exact coherent.elim
    | _ => cases next
  exact invariant.2.idle found modelId unloads

namespace Sample

/-- The model is loaded, and then it is to be unloaded. -/
def unused : List WorkerAction := loading ++ [.start 1 (.unloadModel "model") Sample.readings]

/-- A batch runs, and its model is to be unloaded. -/
def overrun : List WorkerAction :=
  loading ++ [.start 1 (.enqueueRequest 0) Sample.readings, .start 1 .executeBatch Sample.readings,
    .start 2 (.unloadModel "model") Sample.readings]

theorem allowed_of_plain (moves : (s.calls.get? call).all plain = true) :
    Careful runtime s (.advance call readings) ∧ Unused s (.advance call readings) ∧ Serving (.advance call readings) := by
  refine ⟨careful_of_plain moves, fun modelId rest found => ?_, trivial⟩
  rw [found] at moves
  cases moves

theorem notExecuting_of_empty (empty : s.calls = .empty) : s.NotExecuting modelId := by
  intro c place found
  rw [empty] at found
  cases found

end Sample

open Sample in
theorem unloaded_models_not_in_use_sample :
    (unused.foldl (after SimulatedGpuRuntime.runtime fun _ => 0) system).calls.get? 1 = some (.unloading "model" none) ∧
    ∀ i ∈ (unused.foldl (after SimulatedGpuRuntime.runtime fun _ => 0) system).host.worker.queue,
      ((unused.foldl (after SimulatedGpuRuntime.runtime fun _ => 0) system).host.objects i).modelId ≠ "model" := by
  have reached : Reach SimulatedGpuRuntime.runtime (fun _ => 0) Fresh
      (fun s action => Careful SimulatedGpuRuntime.runtime s action ∧ Unused s action ∧ Serving action)
      (unused.foldl (after SimulatedGpuRuntime.runtime fun _ => 0) system) := by
    refine Reach.run (.start system_fresh) ?_
    refine ⟨⟨trivial, trivial, trivial⟩, rfl, ⟨fun _ _ _ => notRemoved_of_empty rfl, trivial, trivial⟩, rfl, ?_⟩
    refine ⟨allowed_of_plain rfl, rfl, allowed_of_plain rfl, rfl, allowed_of_plain rfl, rfl, ?_⟩
    refine ⟨allowed_of_plain rfl, rfl, allowed_of_plain rfl, rfl, allowed_of_plain rfl, rfl, ?_⟩
    exact ⟨⟨trivial, fun _ => notExecuting_of_empty rfl, trivial⟩, rfl, trivial⟩
  have found : (unused.foldl (after SimulatedGpuRuntime.runtime fun _ => 0) system).calls.get? 1 =
      some (.unloading "model" none) := by rfl
  exact ⟨found, (unloaded_models_not_in_use reached found rfl).1⟩

open Sample in
/-- `unload_model` withdraws the model of a batch that is running. -/
theorem running_batch_loses_model : ∃ s : WorkerSystem SimulatedGpuRuntime,
    Reach SimulatedGpuRuntime.runtime (fun _ => 0) Fresh (fun _ action => Serving action) s ∧
      s.calls.get? 2 = some (.unloading "model" none) ∧ s.calls.get? 1 = some (.running [0]) ∧
      (s.host.objects 0).modelId = "model" := by
  refine ⟨overrun.foldl (after SimulatedGpuRuntime.runtime fun _ => 0) system, ?_, by rfl, by rfl, by rfl⟩
  refine Reach.run (.start system_fresh) ?_
  exact ⟨trivial, rfl, trivial, rfl, trivial, rfl, trivial, rfl, trivial, rfl, trivial, rfl, trivial, rfl, trivial, rfl,
    trivial, rfl, trivial, rfl, trivial, rfl, trivial⟩

end WorkerSystem

end ServingPlatform
