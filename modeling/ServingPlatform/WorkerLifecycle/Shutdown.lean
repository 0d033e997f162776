import ServingPlatform.WorkerLifecycle.Claims

namespace ServingPlatform

namespace ManagedWorker

/-- Queued requests that may all fail are failed, and the queue is empty. -/
theorem failQueued_ok (at_ : ObjectId → Seconds) {queue : List ObjectId} {objects : Objects} (distinct : queue.Nodup)
    (failable : ∀ i ∈ queue, .failed ∈ (objects i).status.allowed) :
    ∃ objects', failQueued at_ queue objects = (.ok (), [], objects') ∧ (∀ i ∈ queue, (objects' i).terminal = true) ∧
      ∀ i, (objects i).terminal = true → (objects' i).terminal = true := by
  induction queue generalizing objects with
  | nil => exact ⟨objects, rfl, fun i member => (by cases member), fun i isOver => isOver⟩
  | cons first rest ih =>
    obtain ⟨fresh, distinct⟩ := List.nodup_cons.mp distinct
    have step : (objects first).transition .failed (at_ first) = .ok ((objects first).enter .failed (at_ first)) :=
      RequestRecord.transition_ok (failable first List.mem_cons_self)
    have kept : ∀ i, (objects i).terminal = true →
        ((objects.put first ((objects first).enter .failed (at_ first))) i).terminal = true := by
      intro i isOver
      rcases eq_or_ne i first with rfl | differ
      · rw [Objects.put_self]
        rfl
      · rw [Objects.put_of_ne differ]
        exact isOver
    have later : ∀ i ∈ rest, .failed ∈ ((objects.put first ((objects first).enter .failed (at_ first))) i).status.allowed := by
      intro i member
      have differ : i ≠ first := fun same => fresh (same ▸ member)
      rw [Objects.put_of_ne differ]
      exact failable i (List.mem_cons_of_mem _ member)
    obtain ⟨objects', run, failed, others⟩ := ih distinct later
    unfold failQueued
    rw [step]
    refine ⟨objects', run, fun i member => ?_, fun i isOver => others i (kept i isOver)⟩
    rcases List.mem_cons.mp member with rfl | member
    · refine others i ?_
      rw [Objects.put_self]
      rfl
    · exact failed i member

theorem closeAll_terminal (target : RequestState) (at_ : ObjectId → Seconds) (selected : List ObjectId) (p : WorkerProcess)
    {j : ObjectId} (isOver : (p.objects j).terminal = true) : ((closeAll target at_ selected p).2.objects j).terminal = true := by
  induction selected generalizing p with
  | nil => exact isOver
  | cons i rest ih =>
    unfold closeAll
    split
    · exact ih p isOver
    rename_i alive
    rcases (p.objects i).transition_cases target (at_ i) with ⟨-, run⟩ | ⟨-, raised, run, -⟩
    · rw [run]
      refine ih _ ?_
      have differ : j ≠ i := by
        rintro rfl
        exact alive isOver
      dsimp only
      rw [Objects.put_of_ne differ]
      exact isOver
    · rw [run]
      exact isOver

theorem retire_health (selected : List ObjectId) (p : WorkerProcess) :
    (retire selected p).worker.health = p.worker.health := by
  have general : ∀ w : ManagedWorker, (selected.foldl (fun w i =>
      let counted := w.countActive (p.objects i).modelId (-1)
      { counted with activeRequests := counted.activeRequests.erase (p.objects i).requestId }) w).health = w.health := by
    induction selected with
    | nil => exact fun w => rfl
    | cons i rest ih => exact fun w => ih _
  exact general _

/-- A transition of an active request, where nothing is queued. -/
theorem cancelRequest_empty (requestId : String) (now : Seconds) {p : WorkerProcess} (empty : p.worker.queue = []) :
    (cancelRequest requestId now p).2.worker = p.worker ∧
      ∀ j, (p.objects j).terminal = true → ((cancelRequest requestId now p).2.objects j).terminal = true := by
  unfold cancelRequest
  rw [empty]
  dsimp only [List.find?_nil]
  split
  · exact ⟨rfl, fun j isOver => isOver⟩
  rename_i i active
  split
  · exact ⟨rfl, fun j isOver => isOver⟩
  rename_i alive
  rcases (p.objects i).transition_cases .cancelled now with ⟨-, run⟩ | ⟨-, raised, run, -⟩ <;> rw [run]
  · refine ⟨rfl, fun j isOver => ?_⟩
    have differ : j ≠ i := by
      rintro rfl
      exact alive isOver
    dsimp only
    rw [Objects.put_of_ne differ]
    exact isOver
  · exact ⟨rfl, fun j isOver => isOver⟩

end ManagedWorker

namespace CallPlace

/-- The models that the call is going to ask the runtime to unload. -/
def dooms : CallPlace → List String
  | .evicting _ _ rest => rest.map Prod.fst
  | .unloading modelId _ => [modelId]
  | .stopping rest => rest
  | _ => []

end CallPlace

def CallOutcome.dooms : CallOutcome → List String
  | .proceeds place => place.dooms
  | _ => []

namespace WorkerSystem

open CallPlace

variable {idleEvictionSeconds : ModelDefinition → Seconds} {s s' s₀ : WorkerSystem SimulatedGpuRuntime} {call shutdown : Nat}
  {place old : CallPlace} {readings : WorkerReadings} {action : WorkerAction} {residents : List String} {queue : List ObjectId}

/-- Every queued request can be failed, once, and every loaded model is resident or about to be unloaded. -/
structure Ready (s : WorkerSystem SimulatedGpuRuntime) : Prop where
  distinct : s.host.worker.queue.Nodup
  failable : ∀ i ∈ s.host.worker.queue, .failed ∈ (s.host.objects i).status.allowed
  loaded : ∀ modelId ∈ s.host.runtime.loaded, modelId ∈ s.host.worker.residentModels ∨
    ∃ c place, s.calls.get? c = some place ∧ modelId ∈ place.dooms

/-- What may happen after the locked part of a shutdown: no load takes effect
and no unload fails; the worker is not registered again. -/
def Ending (shutdown : Nat) (s : WorkerSystem SimulatedGpuRuntime) : WorkerAction → Prop
  | .start _ .register _ => False
  | .start call _ _ => call ≠ shutdown
  | .advance call readings => ∀ place, s.calls.get? call = some place →
    match place with
    | .adding _ => False
    | .evicting _ _ (e :: _) => ∃ after, readings.call (s.host.runtime.unloadModel e.1) = .ok after
    | .unloading modelId _ | .stopping (modelId :: _) =>
        ∃ after, readings.call (s.host.runtime.unloadModel modelId) = .ok after
    | _ => True
  | .outside .. => True

/-- A load that waits has found its model being loaded. -/
def Joined (s : WorkerSystem SimulatedGpuRuntime) : Prop := ∀ c model entered,
  s.calls.get? c = some (.waiting model entered) → entered.accepting = true ∧ model.modelId ∉ entered.residentModels ∧
    model.modelId ∈ entered.loadingModels

/-- The state after the locked part of a shutdown. -/
structure Closing (shutdown : Nat) (residents : List String) (queue : List ObjectId) (s : WorkerSystem SimulatedGpuRuntime) :
    Prop where
  joined : s.Joined
  health : s.host.worker.health = .stopped
  empty : s.host.worker.queue = []
  isOver : ∀ i ∈ queue, (s.host.objects i).terminal = true
  loaded : ∀ modelId ∈ s.host.runtime.loaded, ∃ c place, s.calls.get? c = some place ∧ modelId ∈ place.dooms
  finishes : (∃ rest, rest <:+ residents ∧ s.calls.get? shutdown = some (.stopping rest)) ∨
    s.calls.get? shutdown = none ∧ s.host.registered = false

/-- What a section leaves behind of a stopped worker. -/
structure Winds (s : WorkerSystem SimulatedGpuRuntime) (call : Nat) (result : CallOutcome × WorkerHost SimulatedGpuRuntime) :
    Prop where
  joined : ∀ model entered, result.1 = .proceeds (.waiting model entered) → entered.accepting = true ∧
    model.modelId ∉ entered.residentModels ∧ model.modelId ∈ entered.loadingModels
  health : result.2.worker.health = s.host.worker.health
  empty : result.2.worker.queue = []
  isOver : ∀ i, (s.host.objects i).terminal = true → (result.2.objects i).terminal = true
  loaded : ∀ modelId ∈ result.2.runtime.loaded, modelId ∈ s.host.runtime.loaded
  dooms : ∀ old, s.calls.get? call = some old → ∀ modelId ∈ old.dooms, modelId ∈ result.2.runtime.loaded →
    modelId ∈ result.1.dooms
  registered : s.host.registered = false → result.2.registered = false

theorem Closing.settle (closing : s.Closing shutdown residents queue) {result : CallOutcome × WorkerHost SimulatedGpuRuntime}
    (winds : Winds s call result)
    (own : call = shutdown → (∃ rest, rest <:+ residents ∧ result.1 = .proceeds (.stopping rest)) ∨
      (∀ place, result.1 ≠ .proceeds place) ∧ result.2.registered = false) :
    (s.settle call result).Closing shutdown residents queue := by
  have host : (s.settle call result).host = result.2 := by
    obtain ⟨outcome, h⟩ := result
    cases outcome <;> rfl
  have here : (s.settle call result).calls.get? call = match result.1 with
      | .proceeds place => some place
      | _ => none := by
    obtain ⟨outcome, h⟩ := result
    cases outcome with
    | proceeds place => exact Dict.get?_insert_self
    | returns => exact Dict.get?_erase_self
    | raises raised => exact Dict.get?_erase_self
  have stay : ∀ {c}, c ≠ call → (s.settle call result).calls.get? c = s.calls.get? c := by
    intro c differ
    obtain ⟨outcome, h⟩ := result
    cases outcome with
    | proceeds next => exact Dict.get?_insert_of_ne differ
    | returns => exact Dict.get?_erase_of_ne differ
    | raises raised => exact Dict.get?_erase_of_ne differ
  refine ⟨?_, ?_, ?_, ?_, ?_, ?_⟩
  · intro c model entered found
    by_cases same : c = call
    · rw [same, here] at found
      split at found
      · cases found
        exact winds.joined model entered ‹_›
      · cases found
    · rw [stay same] at found
      exact closing.joined c model entered found
  · rw [host, winds.health]
    exact closing.health
  · rw [host]
    exact winds.empty
  · rw [host]
    exact fun i member => winds.isOver i (closing.isOver i member)
  · rw [host]
    intro modelId member
    obtain ⟨c, place, found, doomed⟩ := closing.loaded modelId (winds.loaded modelId member)
    by_cases same : c = call
    · subst same
      have doomed := winds.dooms place found modelId doomed member
      obtain ⟨outcome, h⟩ := result
      cases outcome with
      | proceeds next => exact ⟨c, next, here, doomed⟩
      | returns => cases doomed
      | raises raised => cases doomed
    · exact ⟨c, place, (stay same).trans found, doomed⟩
  · rw [host]
    by_cases same : shutdown = call
    · rw [same, here]
      rcases own same.symm with ⟨rest, suffix, proceeds⟩ | ⟨ends, gone⟩
      · rw [proceeds]
        exact Or.inl ⟨rest, suffix, rfl⟩
      · right
        obtain ⟨outcome, h⟩ := result
        cases outcome with
        | proceeds next => exact absurd rfl (ends next)
        | returns => exact ⟨rfl, gone⟩
        | raises raised => exact ⟨rfl, gone⟩
    · rw [stay same]
      exact closing.finishes.imp_right fun ended => ⟨ended.1, winds.registered ended.2⟩

section Sections

variable (closing : s.Closing shutdown residents queue)

include closing

/-- A section that leaves the requests and the runtime as they are. -/
theorem Winds.of_kept {result : CallOutcome × WorkerHost SimulatedGpuRuntime}
    (quiet : ∀ model entered, result.1 ≠ .proceeds (.waiting model entered))
    (health : result.2.worker.health = s.host.worker.health) (requests : result.2.worker.queue = s.host.worker.queue)
    (objects : result.2.objects = s.host.objects) (runtime : result.2.runtime = s.host.runtime)
    (dooms : ∀ old, s.calls.get? call = some old → ∀ modelId ∈ old.dooms, modelId ∈ result.1.dooms)
    (registered : s.host.registered = false → result.2.registered = false) : Winds s call result := by
  refine ⟨fun model entered proceeds => absurd proceeds (quiet model entered), health, ?_, ?_, ?_, ?_, registered⟩
  · rw [requests]
    exact closing.empty
  · rw [objects]
    exact fun i isOver => isOver
  · rw [runtime]
    exact fun modelId member => member
  · exact fun old found modelId doomed _ => dooms old found modelId doomed

/-- The same for a call that dooms nothing. -/
theorem Winds.of_calm {result : CallOutcome × WorkerHost SimulatedGpuRuntime}
    (quiet : ∀ model entered, result.1 ≠ .proceeds (.waiting model entered))
    (health : result.2.worker.health = s.host.worker.health) (requests : result.2.worker.queue = s.host.worker.queue)
    (objects : result.2.objects = s.host.objects) (runtime : result.2.runtime = s.host.runtime)
    (before : ∀ old, s.calls.get? call = some old → old.dooms = [])
    (registered : s.host.registered = false → result.2.registered = false) : Winds s call result := by
  refine Winds.of_kept closing quiet health requests objects runtime (fun old found modelId doomed => ?_) registered
  rw [before old found] at doomed
  cases doomed

theorem Winds.beginUnload (before : ∀ old, s.calls.get? call = some old → old.dooms = []) (modelId : String)
    (later : Option (List String)) : Winds s call (s.host.beginUnload modelId later) := by
  unfold WorkerHost.beginUnload
  split
  · exact Winds.of_calm closing (fun _ _ same => by cases same) rfl rfl rfl rfl before fun unlisted => unlisted
  split
  · refine Winds.of_calm closing (fun _ _ same => ?_) rfl rfl rfl rfl before fun unlisted => unlisted
    cases later <;> cases same
  · exact Winds.of_calm closing (fun _ _ same => by cases same) rfl rfl rfl rfl before fun unlisted => unlisted

theorem Winds.goAhead (before : ∀ old, s.calls.get? call = some old → old.dooms = []) {entered : ManagedWorker}
    {model : ModelDefinition} (joins : entered = s.host.worker ∨ entered.accepting = true ∧
      model.modelId ∉ entered.residentModels ∧ model.modelId ∈ entered.loadingModels) :
    Winds s call (s.host.goAhead SimulatedGpuRuntime.runtime entered model readings) := by
  rcases s.host.goAhead_cases SimulatedGpuRuntime.runtime readings joins with
    ⟨outcome, w, run, ends, -, same, health⟩ | ⟨evictions, attempt, w, capacity, run, -, -, -, -, -, same, health⟩
  · have requests : w.queue = s.host.worker.queue := congrArg Prod.fst same
    rw [run]
    exact Winds.of_calm closing (fun _ _ proceeds => absurd proceeds (ends _)) health requests rfl rfl before fun unlisted => unlisted
  · have requests : w.queue = s.host.worker.queue := congrArg Prod.fst same
    rw [run]
    exact Winds.of_calm closing (fun _ _ same => by cases same) health requests rfl rfl before fun unlisted => unlisted

omit closing in
/-- A section that leaves the runtime alone, and every request that is over as it is. -/
theorem Winds.of_process {outcome : CallOutcome} {process : WorkerProcess} (quiet : ∀ model entered, outcome ≠ .proceeds (.waiting model entered))
    (health : process.worker.health = s.host.worker.health) (requests : process.worker.queue = [])
    (isOver : ∀ i, (s.host.objects i).terminal = true → (process.objects i).terminal = true)
    (before : ∀ old, s.calls.get? call = some old → old.dooms = []) :
    Winds s call (outcome, { s.host with process := process }) := by
  refine ⟨fun model entered proceeds => absurd proceeds (quiet model entered), health, requests, isOver,
    fun modelId member => member, fun old found modelId doomed => ?_, fun unlisted => unlisted⟩
  rw [before old found] at doomed
  cases doomed

theorem Winds.begin (free : s.calls.get? call = none) {request : WorkerRequest}
    (ending : Ending shutdown s (.start call request readings)) :
    Winds s call (s.host.begin SimulatedGpuRuntime.runtime idleEvictionSeconds readings request) := by
  have before : ∀ old, s.calls.get? call = some old → old.dooms = [] := by
    intro old found
    rw [free] at found
    cases found
  have refuses : s.host.worker.accepting = false := by
    unfold ManagedWorker.accepting
    rw [closing.health]
    rfl
  cases request with
  | loadModel model =>
    unfold WorkerHost.begin
    dsimp only
    split
    · rename_i joins
      rw [refuses] at joins
      cases joins.1
    · exact Winds.goAhead closing before (Or.inl rfl)
  | unloadModel modelId => exact Winds.beginUnload closing before modelId none
  | evictIdleModels =>
    unfold WorkerHost.begin
    dsimp only
    split <;> exact Winds.of_calm closing (fun _ _ same => by cases same) rfl rfl rfl rfl before fun unlisted => unlisted
  | enqueueRequest i =>
    have run : ManagedWorker.enqueueRequest i readings.now s.host.process =
        (.error (runtimeError "worker is not accepting requests"), s.host.process) := if_pos refuses
    unfold WorkerHost.begin WorkerHost.atOnce
    dsimp only
    rw [run]
    exact Winds.of_calm closing (fun _ _ same => by cases same) rfl rfl rfl rfl before fun unlisted => unlisted
  | cancelRequest requestId =>
    obtain ⟨worker, isOver⟩ := ManagedWorker.cancelRequest_empty requestId readings.now closing.empty
    unfold WorkerHost.begin WorkerHost.atOnce
    dsimp only
    rcases run : ManagedWorker.cancelRequest requestId readings.now s.host.process with ⟨raised | done, process⟩ <;>
      rw [run] at worker isOver <;>
      exact Winds.of_process (fun _ _ same => by cases same) (congrArg ManagedWorker.health worker)
        ((congrArg ManagedWorker.queue worker).trans closing.empty) isOver before
  | executeBatch =>
    have empty : s.host.process.worker.queue = [] := closing.empty
    have run : ManagedWorker.beginBatch readings.now s.host.process =
        (.ok [], ⟨{ s.host.process.worker with queue := [] }, s.host.process.objects⟩) := by
      unfold ManagedWorker.beginBatch
      rw [empty]
      rfl
    unfold WorkerHost.begin
    dsimp only
    rw [run]
    exact Winds.of_process (fun _ _ same => by cases same) rfl rfl (fun i isOver => isOver) before
  | register => exact ending.elim
  | drain =>
    unfold WorkerHost.begin
    dsimp only
    rw [if_pos closing.health]
    exact Winds.of_calm closing (fun _ _ same => by cases same) rfl rfl rfl rfl before fun unlisted => unlisted
  | shutdown =>
    have run : ManagedWorker.failQueued readings.closedAt s.host.worker.queue s.host.objects =
        (.ok (), [], s.host.objects) := by
      rw [closing.empty]
      rfl
    unfold WorkerHost.begin
    dsimp only
    rw [run]
    exact Winds.of_process (fun _ _ same => by cases same) closing.health.symm rfl (fun i isOver => isOver) before

/-- A model that a call has doomed is unloaded. -/
theorem Winds.unload {modelId : String} {after : SimulatedGpuRuntime} {outcome : CallOutcome}
    (unloaded : s.host.runtime.unloadModel modelId = .ok after) (found : s.calls.get? call = some old)
    (quiet : ∀ model entered, outcome ≠ .proceeds (.waiting model entered))
    (dooms : ∀ other ∈ old.dooms, other ≠ modelId → other ∈ outcome.dooms) :
    Winds s call (outcome, { s.host with runtime := after }) := by
  have gone : ∀ other, other ∈ after.loaded ↔ other ∈ s.host.runtime.loaded ∧ other ≠ modelId := fun other =>
    SimulatedGpuRuntime.mem_of_unloadModel unloaded
  refine ⟨fun model entered proceeds => absurd proceeds (quiet model entered), rfl, closing.empty, fun i isOver => isOver,
    fun other member => ((gone other).mp member).1, fun old' held other doomed member => ?_, fun unlisted => unlisted⟩
  cases found.symm.trans held
  exact dooms other doomed ((gone other).mp member).2

theorem Winds.advance (found : s.calls.get? call = some old) (ending : Ending shutdown s (.advance call readings)) :
    Winds s call (s.host.advance SimulatedGpuRuntime.runtime readings old) := by
  have nothing : old.dooms = [] → ∀ old', s.calls.get? call = some old' → old'.dooms = [] := by
    intro none old' held
    cases found.symm.trans held
    exact none
  have settled : ∀ {answer : Except Raised SimulatedGpuRuntime} {value : SimulatedGpuRuntime},
      readings.call answer = .ok value → answer = .ok value := by
    intro answer value run
    unfold WorkerReadings.call at run
    split at run
    · cases run
    · exact run
  have allowed := ending old found
  cases old with
  | waiting model entered =>
    have joined := closing.joined call model entered found
    unfold WorkerHost.advance
    dsimp only
    split
    · refine ⟨fun model entered proceeds => ?_, rfl, closing.empty, fun i isOver => isOver, fun modelId member => member,
        fun old held modelId doomed => ?_, fun unlisted => unlisted⟩
      · cases proceeds
        exact joined
      · rw [nothing rfl old held] at doomed
        cases doomed
    · exact Winds.goAhead closing (nothing rfl) (Or.inr joined)
  | evicting load unloaded rest =>
    cases rest with
    | nil => exact Winds.of_calm closing (fun _ _ same => by cases same) rfl rfl rfl rfl (nothing rfl) fun unlisted => unlisted
    | cons e rest =>
      obtain ⟨after, run⟩ := allowed
      unfold WorkerHost.advance
      dsimp only [SimulatedGpuRuntime.runtime]
      rw [run]
      exact Winds.unload closing (settled run) found (fun _ _ same => by cases same) fun other doomed differ =>
        (List.mem_cons.mp doomed).resolve_left differ
  | checking load =>
    unfold WorkerHost.advance
    dsimp only
    split <;> exact Winds.of_calm closing (fun _ _ same => by cases same) rfl rfl rfl rfl (nothing rfl) fun unlisted => unlisted
  | adding load => exact allowed.elim
  | warming load =>
    unfold WorkerHost.advance
    dsimp only
    split <;> exact Winds.of_calm closing (fun _ _ same => by cases same) rfl rfl rfl rfl (nothing rfl) fun unlisted => unlisted
  | publishing load =>
    exact Winds.of_calm closing (fun _ _ same => by cases same) rfl rfl rfl rfl (nothing rfl) fun unlisted => unlisted
  | recovering load unloaded raised =>
    exact Winds.of_calm closing (fun _ _ same => by cases same) rfl rfl rfl rfl (nothing rfl) fun unlisted => unlisted
  | restoring load unloaded rest raised =>
    cases rest with
    | nil => exact Winds.of_calm closing (fun _ _ same => by cases same) rfl rfl rfl rfl (nothing rfl) fun unlisted => unlisted
    | cons e rest =>
      unfold WorkerHost.advance
      dsimp only
      split <;> exact Winds.of_calm closing (fun _ _ same => by cases same) rfl rfl rfl rfl (nothing rfl) fun unlisted => unlisted
  | closing load failure =>
    refine Winds.of_calm closing (fun _ _ same => ?_) rfl rfl rfl rfl (nothing rfl) fun unlisted => unlisted
    cases failure <;> cases same
  | unloading modelId later =>
    obtain ⟨after, run⟩ := allowed
    unfold WorkerHost.advance
    dsimp only [SimulatedGpuRuntime.runtime]
    rw [run]
    refine Winds.unload closing (settled run) found (fun _ _ same => ?_) fun other doomed differ => ?_
    · cases later <;> cases same
    · exact absurd (List.mem_singleton.mp doomed) differ
  | puttingBack modelId raised =>
    exact Winds.of_calm closing (fun _ _ same => by cases same) rfl rfl rfl rfl (nothing rfl) fun unlisted => unlisted
  | sorting eligible =>
    unfold WorkerHost.advance
    dsimp only
    split <;> exact Winds.of_calm closing (fun _ _ same => by cases same) rfl rfl rfl rfl (nothing rfl) fun unlisted => unlisted
  | sweeping rest =>
    cases rest with
    | nil => exact Winds.of_calm closing (fun _ _ same => by cases same) rfl rfl rfl rfl (nothing rfl) fun unlisted => unlisted
    | cons modelId rest => exact Winds.beginUnload closing (nothing rfl) modelId (some rest)
  | running selected =>
    unfold WorkerHost.advance
    dsimp only
    split <;> exact Winds.of_calm closing (fun _ _ same => by cases same) rfl rfl rfl rfl (nothing rfl) fun unlisted => unlisted
  | failing selected raised =>
    have worker := congrArg Prod.fst (ManagedWorker.closeAll_worker .failed (fun _ => readings.now) selected s.host.process)
    have isOver := fun j => @ManagedWorker.closeAll_terminal .failed (fun _ => readings.now) selected s.host.process j
    unfold WorkerHost.advance
    dsimp only at worker ⊢
    split <;> rename_i run <;> rw [run] at worker isOver <;>
      exact Winds.of_process (fun _ _ same => by cases same) (congrArg ManagedWorker.health worker)
        ((congrArg ManagedWorker.queue worker).trans closing.empty) isOver (nothing rfl)
  | retiring selected failure =>
    obtain ⟨objects, requests, -, -⟩ := ManagedWorker.retire_frame selected s.host.process
    refine Winds.of_process (fun _ _ same => ?_) ?_ (requests.trans closing.empty) ?_ (nothing rfl)
    · cases failure <;> cases same
    · exact ManagedWorker.retire_health selected s.host.process
    · rw [objects]
      exact fun i isOver => isOver
  | completing selected =>
    have worker := congrArg Prod.fst (ManagedWorker.closeAll_worker .completed readings.closedAt selected s.host.process)
    have isOver := fun j => @ManagedWorker.closeAll_terminal .completed readings.closedAt selected s.host.process j
    unfold WorkerHost.advance WorkerHost.atOnce
    dsimp only at worker ⊢
    split <;> rename_i run <;> rw [run] at worker isOver <;>
      exact Winds.of_process (fun _ _ same => by cases same) (congrArg ManagedWorker.health worker)
        ((congrArg ManagedWorker.queue worker).trans closing.empty) isOver (nothing rfl)
  | stopping rest =>
    cases rest with
    | nil => exact Winds.of_calm closing (fun _ _ same => by cases same) rfl rfl rfl rfl (nothing rfl) fun _ => rfl
    | cons modelId rest =>
      obtain ⟨after, run⟩ := allowed
      unfold WorkerHost.advance
      dsimp only [SimulatedGpuRuntime.runtime]
      rw [run]
      exact Winds.unload closing (settled run) found (fun _ _ same => by cases same) fun other doomed differ =>
        (List.mem_cons.mp doomed).resolve_left differ
  | unregistering raised =>
    exact Winds.of_calm closing (fun _ _ same => by cases same) rfl rfl rfl rfl (nothing rfl) fun _ => rfl

end Sections

section Waiting

variable {h : WorkerHost SimulatedGpuRuntime} {model : ModelDefinition} {entered : ManagedWorker}

theorem goAhead_not_waiting (w : ManagedWorker) (other : ModelDefinition) :
    (h.goAhead SimulatedGpuRuntime.runtime w other readings).1 ≠ .proceeds (.waiting model entered) := by
  unfold WorkerHost.goAhead
  split <;> exact fun same => by cases same

theorem beginUnload_not_waiting (modelId : String) (later : Option (List String)) :
    (h.beginUnload modelId later).1 ≠ .proceeds (.waiting model entered) := by
  unfold WorkerHost.beginUnload
  split
  · exact fun same => by cases same
  split
  · cases later <;> exact fun same => by cases same
  · exact fun same => by cases same

theorem atOnce_not_waiting {α : Type} (m : Attempt Raised WorkerProcess α) :
    (h.atOnce m).1 ≠ .proceeds (.waiting model entered) := by
  unfold WorkerHost.atOnce
  split <;> exact fun same => by cases same

/-- Only a load waits, and only if another load of its model is under way. -/
theorem begin_waiting {request : WorkerRequest}
    (waits : (h.begin SimulatedGpuRuntime.runtime idleEvictionSeconds readings request).1 = .proceeds (.waiting model entered)) :
    entered.accepting = true ∧ model.modelId ∉ entered.residentModels ∧ model.modelId ∈ entered.loadingModels := by
  cases request with
  | loadModel other =>
    unfold WorkerHost.begin at waits
    dsimp only at waits
    split at waits
    · rename_i joins
      cases waits
      exact joins
    · exact absurd waits (goAhead_not_waiting _ _)
  | unloadModel modelId => exact absurd waits (beginUnload_not_waiting _ _)
  | enqueueRequest i => exact absurd waits (atOnce_not_waiting _)
  | cancelRequest requestId => exact absurd waits (atOnce_not_waiting _)
  | evictIdleModels =>
    unfold WorkerHost.begin at waits
    dsimp only at waits
    split at waits <;> cases waits
  | executeBatch =>
    unfold WorkerHost.begin at waits
    dsimp only at waits
    split at waits <;> cases waits
  | register =>
    unfold WorkerHost.begin at waits
    dsimp only at waits
    split at waits
    · cases waits
    · split at waits <;> cases waits
  | drain =>
    unfold WorkerHost.begin at waits
    dsimp only at waits
    split at waits <;> cases waits
  | shutdown =>
    unfold WorkerHost.begin at waits
    dsimp only at waits
    split at waits <;> cases waits

theorem advance_waiting
    (waits : (h.advance SimulatedGpuRuntime.runtime readings old).1 = .proceeds (.waiting model entered)) :
    old = .waiting model entered := by
  cases old with
  | waiting other before =>
    unfold WorkerHost.advance at waits
    dsimp only at waits
    split at waits
    · cases waits
      rfl
    · exact absurd waits (goAhead_not_waiting _ _)
  | sweeping rest =>
    cases rest with
    | nil => cases waits
    | cons modelId rest => exact absurd waits (beginUnload_not_waiting _ _)
  | completing selected => exact absurd waits (atOnce_not_waiting _)
  | evicting load unloaded rest =>
    cases rest with
    | nil => cases waits
    | cons e rest =>
      unfold WorkerHost.advance at waits
      dsimp only at waits
      split at waits <;> cases waits
  | restoring load unloaded rest raised =>
    cases rest with
    | nil => cases waits
    | cons e rest =>
      unfold WorkerHost.advance at waits
      dsimp only at waits
      split at waits <;> cases waits
  | stopping rest =>
    cases rest with
    | nil => cases waits
    | cons modelId rest =>
      unfold WorkerHost.advance at waits
      dsimp only at waits
      split at waits <;> cases waits
  | closing load failure => cases failure <;> cases waits
  | retiring selected failure => cases failure <;> cases waits
  | unloading modelId later =>
    unfold WorkerHost.advance at waits
    dsimp only at waits
    split at waits
    · cases waits
    · cases later <;> cases waits
  | adding load => cases waits
  | publishing load => cases waits
  | recovering load unloaded raised => cases waits
  | puttingBack modelId raised => cases waits
  | unregistering raised => cases waits
  | _ =>
    unfold WorkerHost.advance at waits
    dsimp only at waits
    split at waits <;> cases waits

theorem Joined.act (joined : s.Joined) (acts : s.act SimulatedGpuRuntime.runtime idleEvictionSeconds action = some s') :
    s'.Joined := by
  have settles : ∀ (call : Nat) (result : CallOutcome × WorkerHost SimulatedGpuRuntime),
      (∀ model entered, result.1 = .proceeds (.waiting model entered) → entered.accepting = true ∧
        model.modelId ∉ entered.residentModels ∧ model.modelId ∈ entered.loadingModels) → (s.settle call result).Joined := by
    intro call result own c model entered found
    obtain ⟨outcome, h⟩ := result
    have erased : (s.calls.erase call).get? c = some (.waiting model entered) → s.calls.get? c = some (.waiting model entered) := by
      intro found
      rw [Dict.get?_erase] at found
      split at found
      · cases found
      · exact found
    cases outcome with
    | proceeds next =>
      change (s.calls.insert call next).get? c = some (.waiting model entered) at found
      rw [Dict.get?_insert] at found
      split at found
      · cases found
        exact own model entered rfl
      · exact joined c model entered found
    | returns => exact joined c model entered (erased found)
    | raises raised => exact joined c model entered (erased found)
  rcases act_cases acts with ⟨call, request, readings, rfl, free, rfl⟩ | ⟨call, readings, place, rfl, found, rfl⟩ |
    ⟨i, target, at_, objects, rfl, moved, rfl⟩
  · exact settles call _ fun model entered waits => begin_waiting waits
  · refine settles call _ fun model entered waits => ?_
    rw [advance_waiting waits] at found
    exact joined call model entered found
  · exact joined

theorem Joined.reach {Allowed : WorkerSystem SimulatedGpuRuntime → WorkerAction → Prop}
    (reached : Reach SimulatedGpuRuntime.runtime idleEvictionSeconds Fresh Allowed s) : s.Joined := by
  induction reached with
  | start fresh =>
    intro c model entered found
    rw [fresh.calls] at found
    cases found
  | next before allowed acts ih => exact ih.act acts

end Waiting

/-- The locked part of a shutdown, in a state that is ready for it. -/
theorem Closing.start (joined : s.Joined) (ready : s.Ready)
    (begins : s.act SimulatedGpuRuntime.runtime idleEvictionSeconds (.start shutdown .shutdown readings) = some s') :
    s'.Closing shutdown s.host.worker.residentModels s.host.worker.queue ∧
      s'.calls.get? shutdown = some (.stopping s.host.worker.residentModels) := by
  obtain ⟨objects, run, failed, -⟩ := ManagedWorker.failQueued_ok readings.closedAt ready.distinct ready.failable
  rcases act_cases begins with ⟨call, request, readings', same, free, rfl⟩ | ⟨call, readings', place, same, -⟩ |
    ⟨i, target, at_, objects, same, -⟩
  · cases same
    have begun : s.host.begin SimulatedGpuRuntime.runtime idleEvictionSeconds readings .shutdown =
        (.proceeds (.stopping s.host.worker.residentModels), { s.host with
          process := ⟨{ s.host.worker with draining := true, queue := [], residentModels := [], health := .stopped }, objects⟩ }) := by
      unfold WorkerHost.begin
      dsimp only
      rw [run]
    rw [begun]
    refine ⟨⟨?_, rfl, rfl, failed, ?_, ?_⟩, Dict.get?_insert_self⟩
    · intro c model entered found
      change (s.calls.insert shutdown (.stopping s.host.worker.residentModels)).get? c = some (.waiting model entered) at found
      rw [Dict.get?_insert] at found
      split at found
      · cases found
      · exact joined c model entered found
    · intro modelId member
      rcases ready.loaded modelId member with resident | ⟨c, place, found, doomed⟩
      · exact ⟨shutdown, _, Dict.get?_insert_self, resident⟩
      · refine ⟨c, place, (Dict.get?_insert_of_ne ?_).trans found, doomed⟩
        rintro rfl
        cases free.symm.trans found
    · exact Or.inl ⟨_, List.suffix_refl _, Dict.get?_insert_self⟩
  · cases same
  · cases same

theorem Closing.act (closing : s.Closing shutdown residents queue) (ending : Ending shutdown s action)
    (acts : s.act SimulatedGpuRuntime.runtime idleEvictionSeconds action = some s') :
    s'.Closing shutdown residents queue := by
  rcases act_cases acts with ⟨call, request, readings, rfl, free, rfl⟩ | ⟨call, readings, place, rfl, found, rfl⟩ |
    ⟨i, target, at_, objects, rfl, moved, rfl⟩
  · refine closing.settle (Winds.begin closing free ending) fun same => ?_
    cases request with
    | register => exact ending.elim
    | _ => exact absurd same ending
  · refine closing.settle (Winds.advance closing found ending) fun same => ?_
    subst same
    rcases closing.finishes with ⟨rest, suffix, stops⟩ | ⟨gone, -⟩
    · cases found.symm.trans stops
      cases rest with
      | nil => exact Or.inr ⟨fun place same => (by cases same), rfl⟩
      | cons modelId rest =>
        obtain ⟨after, run⟩ := ending _ found
        refine Or.inl ⟨rest, (List.suffix_cons modelId rest).trans suffix, ?_⟩
        unfold WorkerHost.advance
        dsimp only [SimulatedGpuRuntime.runtime]
        rw [run]
    · cases found.symm.trans gone
  · refine ⟨closing.joined, closing.health, closing.empty, fun j member => ?_, closing.loaded, closing.finishes⟩
    have before := closing.isOver j member
    unfold Objects.transition at moved
    rcases (s.host.objects i).transition_cases target at_ with ⟨allowed, run⟩ | ⟨-, raised, run, -⟩
    · rw [run] at moved
      cases moved
      have differ : j ≠ i := by
        rintro rfl
        exact RequestRecord.not_allowed_of_terminal before allowed
      change (s.host.objects.put i _ j).terminal = true
      rw [Objects.put_of_ne differ]
      exact before
    · rw [run] at moved
      cases moved

/-- Where a shutdown stands after one more step of its loop over `rest`; none once it has returned. -/
def nextStop : List String → Option CallPlace
  | [] => none
  | _ :: rest => some (.stopping rest)

/-- A shutdown that has begun can always make its next step, and returns after its last model. -/
theorem stopping_advances {rest : List String} (found : s.calls.get? shutdown = some (.stopping rest))
    (ending : Ending shutdown s (.advance shutdown readings)) :
    ∃ s', s.act SimulatedGpuRuntime.runtime idleEvictionSeconds (.advance shutdown readings) = some s' ∧
      s'.calls.get? shutdown = nextStop rest := by
  have acts : s.act SimulatedGpuRuntime.runtime idleEvictionSeconds (.advance shutdown readings) =
      some (s.settle shutdown
        (s.host.advance SimulatedGpuRuntime.runtime readings (.stopping rest))) := by
    simp only [act, found]
    rfl
  refine ⟨_, acts, ?_⟩
  cases rest with
  | nil => exact Dict.get?_erase_self
  | cons modelId rest =>
    obtain ⟨after, run⟩ := ending _ found
    unfold WorkerHost.advance
    dsimp only [SimulatedGpuRuntime.runtime]
    rw [run]
    exact Dict.get?_insert_self

/-- When every queued request can be failed and every loaded model is resident or
about to be unloaded, and no load takes effect and no unload fails afterwards, a
shutdown gets through to its return, and leaves nothing behind once all calls have returned. -/
theorem shutdown_leaves_nothing
    (reached : Reach SimulatedGpuRuntime.runtime idleEvictionSeconds Fresh (fun _ _ => True) s₀) (ready : s₀.Ready)
    (begins : s₀.act SimulatedGpuRuntime.runtime idleEvictionSeconds (.start shutdown .shutdown readings) = some s) :
    s.calls.get? shutdown = some (.stopping s₀.host.worker.residentModels) ∧
    ∀ s', Reach SimulatedGpuRuntime.runtime idleEvictionSeconds (· = s) (Ending shutdown) s' →
      (s'.calls.get? shutdown = none ∨ ∃ rest, rest <:+ s₀.host.worker.residentModels ∧
        s'.calls.get? shutdown = some (.stopping rest) ∧ ∀ readings, Ending shutdown s' (.advance shutdown readings) →
          ∃ s'', s'.act SimulatedGpuRuntime.runtime idleEvictionSeconds (.advance shutdown readings) = some s'' ∧
            s''.calls.get? shutdown = nextStop rest) ∧
      (s'.calls = .empty → s'.host.worker.health = .stopped ∧ s'.host.worker.queue = [] ∧
        (∀ i ∈ s₀.host.worker.queue, (s'.host.objects i).terminal = true) ∧ s'.host.registered = false ∧
        s'.host.runtime.loaded = []) := by
  obtain ⟨first, stops⟩ := Closing.start (Joined.reach reached) ready begins
  refine ⟨stops, fun s' later => ?_⟩
  have closing : s'.Closing shutdown s₀.host.worker.residentModels s₀.host.worker.queue := by
    induction later with
    | start same => exact same ▸ first
    | next before ending acts ih => exact ih.act ending acts
  refine ⟨?_, fun none => ⟨closing.health, closing.empty, closing.isOver, ?_, ?_⟩⟩
  · rcases closing.finishes with ⟨rest, suffix, found⟩ | ⟨gone, -⟩
    · exact Or.inr ⟨rest, suffix, found, fun readings ending => stopping_advances found ending⟩
    · exact Or.inl gone
  · rcases closing.finishes with ⟨rest, -, found⟩ | ⟨-, unlisted⟩
    · rw [none] at found
      cases found
    · exact unlisted
  · refine List.eq_nil_iff_forall_not_mem.mpr fun modelId member => ?_
    obtain ⟨c, place, found, -⟩ := closing.loaded modelId member
    rw [none] at found
    cases found

namespace Sample

/-- The model is loaded and a request for it is queued. -/
def queued : List WorkerAction := loading ++ [.start 1 (.enqueueRequest 0) Sample.readings]

/-- The queued request is cancelled by the code that made it. -/
def cancelled : List WorkerAction := queued ++ [.outside 0 .cancelled 0]

/-- The shutdown has begun. -/
def closingDown : WorkerSystem SimulatedGpuRuntime :=
  (queued.foldl (after SimulatedGpuRuntime.runtime fun _ => 0) system).after SimulatedGpuRuntime.runtime (fun _ => 0)
    (.start 2 .shutdown Sample.readings)

/-- The shutdown has returned. -/
def closedDown : WorkerSystem SimulatedGpuRuntime :=
  [.advance 2 Sample.readings, .advance 2 Sample.readings].foldl (after SimulatedGpuRuntime.runtime fun _ => 0) closingDown

theorem queued_reached : Reach SimulatedGpuRuntime.runtime (fun _ => 0) Fresh (fun _ _ => True)
    (queued.foldl (after SimulatedGpuRuntime.runtime fun _ => 0) system) := by
  refine Reach.run (.start system_fresh) ?_
  exact ⟨trivial, rfl, trivial, rfl, trivial, rfl, trivial, rfl, trivial, rfl, trivial, rfl, trivial, rfl, trivial, rfl,
    trivial, rfl, trivial⟩

theorem queued_ready : Ready (queued.foldl (after SimulatedGpuRuntime.runtime fun _ => 0) system) := by
  refine ⟨by decide, by decide, fun modelId member => Or.inl ?_⟩
  have same : (queued.foldl (after SimulatedGpuRuntime.runtime fun _ => 0) system).host.worker.residentModels =
      (queued.foldl (after SimulatedGpuRuntime.runtime fun _ => 0) system).host.runtime.loaded := by rfl
  exact same ▸ member

end Sample

open Sample in
theorem shutdown_leaves_nothing_sample :
    (closedDown.host.worker.health = .stopped ∧ closedDown.host.worker.queue = [] ∧
      (∀ i ∈ (queued.foldl (after SimulatedGpuRuntime.runtime fun _ => 0) system).host.worker.queue,
        (closedDown.host.objects i).terminal = true) ∧ closedDown.host.registered = false ∧
      closedDown.host.runtime.loaded = []) := by
  have begins : (queued.foldl (after SimulatedGpuRuntime.runtime fun _ => 0) system).act SimulatedGpuRuntime.runtime (fun _ => 0)
      (.start 2 .shutdown Sample.readings) = some closingDown := by rfl
  have later : Reach SimulatedGpuRuntime.runtime (fun _ => 0) (· = closingDown) (Ending 2) closedDown := by
    refine Reach.run (.start rfl) ⟨fun place found => ?_, rfl, fun place found => ?_, rfl, trivial⟩
    · cases found.symm.trans rfl
      exact ⟨_, rfl⟩
    · cases found.symm.trans rfl
      exact trivial
  exact ((shutdown_leaves_nothing queued_reached queued_ready begins).2 closedDown later).2 rfl

open Sample in
/-- A request that was cancelled in the queue makes the shutdown raise before the worker is stopped. -/
theorem cancelled_request_stops_shutdown : ∃ s : WorkerSystem SimulatedGpuRuntime,
    Reach SimulatedGpuRuntime.runtime (fun _ => 0) Fresh (fun _ _ => True) s ∧ s.calls = .empty ∧
      (∃ raised host, s.host.begin SimulatedGpuRuntime.runtime (fun _ => 0) Sample.readings .shutdown = (.raises raised, host) ∧
        host.worker.health ≠ .stopped ∧ host.registered = true ∧ host.runtime.loaded = ["model"]) := by
  refine ⟨cancelled.foldl (after SimulatedGpuRuntime.runtime fun _ => 0) system, ?_, by rfl, _, _, by rfl, by decide, by rfl, by rfl⟩
  refine Reach.run (.start system_fresh) ?_
  exact ⟨trivial, rfl, trivial, rfl, trivial, rfl, trivial, rfl, trivial, rfl, trivial, rfl, trivial, rfl, trivial, rfl,
    trivial, rfl, trivial, rfl, trivial⟩

end WorkerSystem

end ServingPlatform
