import ServingPlatform.WorkerLifecycle.Claims

namespace ServingPlatform

/-- What a worker's books say of its models. -/
structure ModelBooks where
  resident : List String
  loading : List String
  definitions : Dict String ModelDefinition
  reserved : Int

/-- What a call has to do with models, between its steps. -/
inductive CallRole
  | idle
  | waiting (model : ModelDefinition) (entered : ManagedWorker)
  | loading (load : ModelLoad)
  | withdrawn (modelId : String)

namespace ManagedWorker

def books (w : ManagedWorker) : ModelBooks := ⟨w.residentModels, w.loadingModels, w.modelDefinitions, w.reservedModelMemoryBytes⟩

end ManagedWorker

def CallPlace.role : CallPlace → CallRole
  | .waiting model entered => .waiting model entered
  | .evicting load .. | .checking load | .adding load | .warming load | .publishing load | .recovering load ..
  | .restoring load .. | .closing load _ => .loading load
  | .unloading modelId _ | .puttingBack modelId _ => .withdrawn modelId
  | _ => .idle

def CallOutcome.role : CallOutcome → CallRole
  | .proceeds place => place.role
  | _ => .idle

/-- What one step of a call may do to the books, and to the call's role. -/
inductive ModelMove (b : ModelBooks) : CallRole → CallRole → ModelBooks → Prop
  | stays {role} : ModelMove b role role b
  | waits {model entered} : entered.accepting = true → model.modelId ∉ entered.residentModels →
      model.modelId ∈ entered.loadingModels → ModelMove b .idle (.waiting model entered) b
  | gives_up {model entered} : ModelMove b (.waiting model entered) .idle b
  | loads {role load} : role = .idle ∨ (∃ entered, role = .waiting load.model entered) →
      load.model.modelId ∉ b.resident → load.model.modelId ∉ b.loading →
      ModelMove b role (.loading load) { b with
        resident := b.resident.filter fun modelId => load.evictions.all fun e => modelId ≠ e.1
        loading := b.loading.insert load.model.modelId
        reserved := b.reserved + load.model.estimatedMemoryBytes }
  | publishes {load} : ModelMove b (.loading load) (.loading load) { b with
      resident := b.resident.insert load.model.modelId
      definitions := b.definitions.insert load.model.modelId load.model }
  | restores {load} (e : String × ModelDefinition) : ModelMove b (.loading load) (.loading load) { b with
      resident := b.resident.insert e.1
      definitions := b.definitions.insert e.1 e.2 }
  | closes {load} : ModelMove b (.loading load) .idle { b with
      loading := b.loading.erase load.model.modelId
      reserved := b.reserved - load.model.estimatedMemoryBytes }
  | withdraws {modelId} : modelId ∈ b.resident →
      ModelMove b .idle (.withdrawn modelId) { b with resident := b.resident.filter (· ≠ modelId) }
  | unloads {modelId} : ModelMove b (.withdrawn modelId) .idle b
  | puts_back {modelId} : ModelMove b (.withdrawn modelId) .idle { b with resident := b.resident.insert modelId }
  | stops : ModelMove b .idle .idle { b with resident := [] }

namespace ManagedWorker

theorem start_books (now : Seconds) (i : ObjectId) : (start now i).Keeps fun p => p.worker.books := by
  intro p
  unfold start
  rcases (p.objects i).transition_cases .running now with ⟨-, run⟩ | ⟨-, raised, run, -⟩
  · rw [run]
    rfl
  · rw [run]

theorem startAll_books (now : Seconds) (selected : List ObjectId) : (startAll now selected).Keeps fun p => p.worker.books := by
  induction selected with
  | nil => exact Attempt.keeps_pure _
  | cons i rest ih => exact (start_books now i).bind fun _ => ih

theorem beginBatch_books (now : Seconds) : (beginBatch now).Keeps fun p => p.worker.books := by
  intro p
  unfold beginBatch
  rcases skipExpired now p.worker.queue p.objects with ⟨raised | done, queue, objects⟩
  · rfl
  cases queue with
  | nil => rfl
  | cons i rest =>
    dsimp only
    rcases p.worker.gather (objects i) now [i] (objects i).estimatedTokens rest objects with
      ⟨⟨raised, queue⟩ | ⟨selected, queue⟩, objects'⟩
    · rfl
    · have kept := startAll_books now selected ⟨{ p.worker with queue := queue }, objects'⟩
      dsimp only
      rcases run : startAll now selected ⟨{ p.worker with queue := queue }, objects'⟩ with ⟨raised | done, p'⟩
      · rw [Attempt.bind_error run]
        rw [run] at kept
        exact kept
      · rw [Attempt.bind_ok run]
        rw [run] at kept
        exact kept

theorem retire_books (selected : List ObjectId) (p : WorkerProcess) : (retire selected p).worker.books = p.worker.books := by
  have general : ∀ w : ManagedWorker, (selected.foldl (fun w i =>
      let counted := w.countActive (p.objects i).modelId (-1)
      { counted with activeRequests := counted.activeRequests.erase (p.objects i).requestId }) w).books = w.books := by
    induction selected with
    | nil => exact fun w => rfl
    | cons i rest ih => exact fun w => ih _
  exact general _

theorem cancelRequest_books (requestId : String) (now : Seconds) : (cancelRequest requestId now).Keeps fun p => p.worker.books := by
  intro p
  unfold cancelRequest
  split
  · rename_i i found
    dsimp only
    split <;> rfl
  split
  · rfl
  split
  · rfl
  split <;> rfl

theorem enqueueRequest_books (i : ObjectId) (now : Seconds) : (enqueueRequest i now).Keeps fun p => p.worker.books := by
  intro p
  unfold enqueueRequest
  dsimp only
  repeat' split
  all_goals rfl

end ManagedWorker

namespace WorkerHost

variable {ρ : Type} {runtime : ModelRuntime ρ} {idleEvictionSeconds : ModelDefinition → Seconds} {h : WorkerHost ρ}
  {entered : ManagedWorker} {model : ModelDefinition} {readings : WorkerReadings} {role : CallRole}

theorem goAhead_moves (runtime : ModelRuntime ρ) (readings : WorkerReadings) (joins : entered = h.worker ∨
      entered.accepting = true ∧ model.modelId ∉ entered.residentModels ∧ model.modelId ∈ entered.loadingModels)
    (quiet : entered.accepting = true → model.modelId ∉ h.worker.residentModels → model.modelId ∉ h.worker.loadingModels)
    (free : role = .idle ∨ role = .waiting model entered) :
    ModelMove h.worker.books role (h.goAhead runtime entered model readings).1.role
      (h.goAhead runtime entered model readings).2.worker.books := by
  have isOver : ModelMove h.worker.books role .idle h.worker.books := by
    rcases free with rfl | rfl
    · exact .stays
    · exact .gives_up
  unfold goAhead
  rcases ManagedWorker.beginLoad_cases h.objects (h.loadAnswers runtime readings) joins with ⟨raised, run⟩ | ⟨-, run⟩ |
    ⟨capacity, evictions, accepts, absent, -, -, run⟩
  · rw [run]
    exact isOver
  · rw [run]
    exact isOver
  · rw [run]
    refine @ModelMove.loads h.worker.books role ⟨model, evictions, _⟩ ?_ absent (quiet accepts absent)
    rcases free with rfl | rfl
    · exact Or.inl rfl
    · exact Or.inr ⟨entered, rfl⟩

theorem beginUnload_moves (h : WorkerHost ρ) (modelId : String) (later : Option (List String)) :
    ModelMove h.worker.books .idle (h.beginUnload modelId later).1.role (h.beginUnload modelId later).2.worker.books := by
  unfold beginUnload
  split
  · exact .stays
  split
  · cases later <;> exact .stays
  · rename_i resident
    exact .withdraws (not_not.mp resident)

theorem atOnce_moves {α : Type} {m : Attempt Raised WorkerProcess α} (kept : m.Keeps fun p => p.worker.books) :
    ModelMove h.worker.books .idle (h.atOnce m).1.role (h.atOnce m).2.worker.books := by
  have same := kept h.process
  unfold atOnce
  rcases run : m h.process with ⟨raised | done, process⟩ <;> rw [run] at same <;> dsimp only at same ⊢ <;>
    exact same ▸ .stays

theorem begin_moves (h : WorkerHost ρ) (readings : WorkerReadings) (request : WorkerRequest) :
    ModelMove h.worker.books .idle (h.begin runtime idleEvictionSeconds readings request).1.role
      (h.begin runtime idleEvictionSeconds readings request).2.worker.books := by
  cases request with
  | loadModel model =>
    unfold WorkerHost.begin
    dsimp only
    split
    · rename_i joins
      exact .waits joins.1 joins.2.1 joins.2.2
    · rename_i alone
      exact goAhead_moves runtime readings (Or.inl rfl) (fun accepts absent joined => alone ⟨accepts, absent, joined⟩) (Or.inl rfl)
  | unloadModel modelId => exact beginUnload_moves h modelId none
  | evictIdleModels =>
    unfold WorkerHost.begin
    dsimp only
    split <;> exact .stays
  | enqueueRequest i => exact atOnce_moves (ManagedWorker.enqueueRequest_books i readings.now)
  | cancelRequest requestId => exact atOnce_moves (ManagedWorker.cancelRequest_books requestId readings.now)
  | executeBatch =>
    have same := ManagedWorker.beginBatch_books readings.now h.process
    unfold WorkerHost.begin
    dsimp only
    split <;> rename_i run <;> rw [run] at same <;> dsimp only at same ⊢ <;> exact same ▸ .stays
  | register =>
    unfold WorkerHost.begin
    dsimp only
    split
    · exact .stays
    split <;> exact .stays
  | drain =>
    unfold WorkerHost.begin
    dsimp only
    split <;> exact .stays
  | shutdown =>
    unfold WorkerHost.begin
    dsimp only
    split
    · exact .stays
    · exact .stops

theorem advance_moves {place : CallPlace} (readings : WorkerReadings) (joined : ∀ model entered, place = .waiting model entered →
      entered.accepting = true ∧ model.modelId ∉ entered.residentModels ∧ model.modelId ∈ entered.loadingModels) :
    ModelMove h.worker.books place.role (h.advance runtime readings place).1.role
      (h.advance runtime readings place).2.worker.books := by
  cases place with
  | waiting model entered =>
    unfold WorkerHost.advance
    dsimp only
    split
    · exact .stays
    · rename_i quiet
      exact goAhead_moves runtime readings (Or.inr (joined model entered rfl)) (fun _ _ => quiet) (Or.inr rfl)
  | evicting load unloaded rest =>
    cases rest with
    | nil => exact .stays
    | cons e rest =>
      unfold WorkerHost.advance
      dsimp only
      split <;> exact .stays
  | checking load =>
    unfold WorkerHost.advance
    dsimp only
    split <;> exact .stays
  | adding load => exact .stays
  | warming load =>
    unfold WorkerHost.advance
    dsimp only
    split <;> exact .stays
  | publishing load => exact .publishes
  | recovering load unloaded raised => exact .stays
  | restoring load unloaded rest raised =>
    cases rest with
    | nil => exact .stays
    | cons e rest =>
      unfold WorkerHost.advance
      dsimp only
      split
      · exact .stays
      · exact .restores e
      · exact .stays
  | closing load failure => cases failure <;> exact .closes
  | unloading modelId later =>
    unfold WorkerHost.advance
    dsimp only
    split
    · exact .stays
    · cases later <;> exact .unloads
  | puttingBack modelId raised => exact .puts_back
  | sorting eligible =>
    unfold WorkerHost.advance
    dsimp only
    split <;> exact .stays
  | sweeping rest =>
    cases rest with
    | nil => exact .stays
    | cons modelId rest => exact beginUnload_moves h modelId (some rest)
  | running selected =>
    unfold WorkerHost.advance
    dsimp only
    split <;> exact .stays
  | failing selected raised =>
    have same := congrArg (fun state => state.1.books)
      (ManagedWorker.closeAll_worker .failed (fun _ => readings.now) selected h.process)
    unfold WorkerHost.advance
    dsimp only
    split <;> rename_i run <;> rw [run] at same <;> dsimp only at same ⊢ <;> exact same ▸ .stays
  | retiring selected failure =>
    have same := ManagedWorker.retire_books selected h.process
    unfold WorkerHost.advance
    cases failure <;> exact same ▸ .stays
  | completing selected =>
    exact atOnce_moves fun p => congrArg (fun state => state.1.books)
      (ManagedWorker.closeAll_worker .completed readings.closedAt selected p)
  | stopping rest =>
    cases rest with
    | nil => exact .stays
    | cons modelId rest =>
      unfold WorkerHost.advance
      dsimp only
      split <;> exact .stays
  | unregistering raised => exact .stays

end WorkerHost

namespace WorkerSystem

variable {ρ : Type} {runtime : ModelRuntime ρ} {idleEvictionSeconds : ModelDefinition → Seconds} {s s' : WorkerSystem ρ}
  {action : WorkerAction}

def books (s : WorkerSystem ρ) : ModelBooks := s.host.worker.books

def role (s : WorkerSystem ρ) (call : Nat) : CallRole := (s.calls.get? call).elim .idle CallPlace.role

/-- A load waits only because it found another one of its model under way. -/
def Waits (s : WorkerSystem ρ) : Prop := ∀ c model entered, s.role c = .waiting model entered →
  entered.accepting = true ∧ model.modelId ∉ entered.residentModels ∧ model.modelId ∈ entered.loadingModels

theorem settle_role (s : WorkerSystem ρ) (call : Nat) (result : CallOutcome × WorkerHost ρ) :
    (s.settle call result).role call = result.1.role ∧ ∀ c, c ≠ call → (s.settle call result).role c = s.role c := by
  unfold role
  rw [settle_get?, if_pos rfl]
  refine ⟨?_, fun c differ => by rw [settle_get?, if_neg differ]⟩
  cases result.1 <;> rfl

theorem settle_books (s : WorkerSystem ρ) (call : Nat) (result : CallOutcome × WorkerHost ρ) :
    (s.settle call result).books = result.2.worker.books := by
  rw [books, settle_host]

/-- One call moves; a sum over the roles changes by what that call adds to it. -/
theorem act_moves (waits : s.Waits) (acts : s.act runtime idleEvictionSeconds action = some s') :
    ∃ call, ModelMove s.books (s.role call) (s'.role call) s'.books ∧ (∀ c, c ≠ call → s'.role c = s.role c) ∧
      ∀ weight : CallRole → Int, weight .idle = 0 →
        (s'.calls.total fun place => weight place.role) =
          (s.calls.total fun place => weight place.role) - weight (s.role call) + weight (s'.role call) := by
  have totals : ∀ call (result : CallOutcome × WorkerHost ρ) (weight : CallRole → Int), weight .idle = 0 →
      ((s.settle call result).calls.total fun place => weight place.role) =
        (s.calls.total fun place => weight place.role) - weight (s.role call) + weight ((s.settle call result).role call) := by
    intro call result weight none
    have before : (s.calls.get? call).elim 0 (fun place => weight place.role) = weight (s.role call) := by
      unfold role
      cases s.calls.get? call with
      | none => exact none.symm
      | some old => rfl
    have now : result.1.place?.elim 0 (fun place => weight place.role) = weight result.1.role := by
      cases result.1 with
      | proceeds place => rfl
      | returns => exact none.symm
      | raises raised => exact none.symm
    rw [s.settle_total call result, before, now, (s.settle_role call result).1]
  rcases act_cases acts with ⟨call, request, readings, rfl, free, rfl⟩ | ⟨call, readings, place, rfl, found, rfl⟩ |
    ⟨i, target, at_, objects, rfl, -, rfl⟩
  · have idle : s.role call = .idle := by rw [role, free, Option.elim_none]
    refine ⟨call, ?_, (s.settle_role call _).2, totals call _⟩
    rw [idle, (s.settle_role call _).1, s.settle_books]
    exact s.host.begin_moves readings request
  · have here : s.role call = place.role := by rw [role, found, Option.elim_some]
    refine ⟨call, ?_, (s.settle_role call _).2, totals call _⟩
    rw [here, (s.settle_role call _).1, s.settle_books]
    refine s.host.advance_moves readings fun model entered same => waits call model entered ?_
    rw [here, same]
    rfl
  · exact ⟨0, .stays, fun _ _ => rfl, fun _ _ => (sub_add_cancel _ _).symm⟩

theorem Waits.act (waits : s.Waits) (acts : s.act runtime idleEvictionSeconds action = some s') : s'.Waits := by
  obtain ⟨call, move, others, -⟩ := act_moves waits acts
  intro c model entered waiting
  rcases eq_or_ne c call with rfl | differ
  · generalize s.books = b, s'.books = b', role_eq : s.role c = before at move
    rw [waiting] at move
    cases move with
    | stays => exact waits c model entered role_eq
    | waits accepts absent loading => exact ⟨accepts, absent, loading⟩
  · exact waits c model entered ((others c differ).symm.trans waiting)

theorem Waits.start (fresh : s.Fresh) : s.Waits := by
  intro c model entered waiting
  rw [role, fresh.calls] at waiting
  cases waiting

end WorkerSystem

end ServingPlatform
