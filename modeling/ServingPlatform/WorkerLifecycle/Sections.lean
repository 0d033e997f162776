import ServingPlatform.Library.Tally
import ServingPlatform.WorkerLifecycle.Calls

namespace ServingPlatform

/-- The models that the request objects are for. -/
def Objects.models (objects : Objects) : ObjectId → String := fun i => (objects i).modelId

theorem Objects.models_put {objects : Objects} {i : ObjectId} {r : RequestRecord} (same : r.modelId = (objects i).modelId) :
    (objects.put i r).models = objects.models := by
  funext j
  unfold Objects.models
  rcases eq_or_ne j i with rfl | differ
  · rw [Objects.put_self, same]
  · rw [Objects.put_of_ne differ]

theorem Objects.transition_models (i : ObjectId) (target : RequestState) (at_ : Seconds) :
    (Objects.transition i target at_).Keeps Objects.models := by
  intro objects
  unfold Objects.transition
  rcases (objects i).transition_cases target at_ with ⟨-, run⟩ | ⟨-, raised, run, -⟩
  · rw [run]
    exact Objects.models_put rfl
  · rw [run]

theorem RequestRecord.Skipped.modelId {now : Seconds} {r r' : RequestRecord} (skipped : r.Skipped now r') :
    r'.modelId = r.modelId := by
  cases skipped <;> rfl

theorem RequestRecord.Opened.modelId {now : Seconds} {r r' : RequestRecord} (opened : r.Opened now r') :
    r'.modelId = r.modelId := by
  cases opened with
  | skipped skipped => exact skipped.modelId
  | started allowed => rfl

namespace ManagedWorker

variable {now : Seconds} {selected : List ObjectId} {p p' : WorkerProcess} {modelId : String}

/-- How many requests for a model a worker counts as active. -/
def active (w : ManagedWorker) (modelId : String) : Int := (w.activeRequestsByModel.get? modelId).getD 0

/-- How many of a batch's requests are for a model. -/
def share (models : ObjectId → String) (selected : List ObjectId) (modelId : String) : Nat :=
  selected.countP fun i => models i = modelId

/-- What a worker knows of its models. -/
def modelState (w : ManagedWorker) : List String × List String := (w.residentModels, w.loadingModels)

theorem active_countActive (w : ManagedWorker) (counted : String) (change : Int) :
    (w.countActive counted change).active modelId = w.active modelId + if counted = modelId then change else 0 := by
  unfold countActive active
  rw [Dict.get?_insert]
  by_cases same : modelId = counted
  · subst same
    simp
  · simp [same, Ne.symm same]

theorem start_modelState (now : Seconds) (i : ObjectId) :
    (start now i).Keeps fun p => (p.worker.modelState, p.objects.models) := by
  intro p
  unfold start
  rcases (p.objects i).transition_cases .running now with ⟨-, run⟩ | ⟨-, raised, run, -⟩
  · rw [run]
    exact congrArg (p.worker.modelState, ·) (Objects.models_put rfl)
  · rw [run]

theorem startAll_modelState (now : Seconds) (selected : List ObjectId) :
    (startAll now selected).Keeps fun p => (p.worker.modelState, p.objects.models) := by
  induction selected with
  | nil => exact Attempt.keeps_pure _
  | cons i rest ih => exact (start_modelState now i).bind fun _ => ih

/-- Started requests are counted; where one cannot be started, those before it stay counted. -/
theorem startAll_active (now : Seconds) (selected : List ObjectId) (p : WorkerProcess) :
    p.worker.active modelId ≤ (startAll now selected p).2.worker.active modelId ∧
      ((startAll now selected p).1 = .ok () → (startAll now selected p).2.worker.active modelId =
        p.worker.active modelId + share p.objects.models selected modelId) := by
  induction selected generalizing p with
  | nil => exact ⟨le_refl _, fun _ => by simp [startAll, share]⟩
  | cons i rest ih =>
    unfold startAll
    have first : (start now i p).2.worker.active modelId = p.worker.active modelId ∧ (∃ raised, (start now i p).1 = .error raised) ∨
        (start now i p).2.worker.active modelId =
          p.worker.active modelId + (if p.objects.models i = modelId then 1 else 0) ∧ (start now i p).1 = .ok () := by
      unfold start
      rcases (p.objects i).transition_cases .running now with ⟨-, run⟩ | ⟨-, raised, run, -⟩
      · rw [run]
        exact Or.inr ⟨active_countActive _ _ _, rfl⟩
      · rw [run]
        exact Or.inl ⟨rfl, raised, rfl⟩
    have models := congrArg Prod.snd (start_modelState now i p)
    rcases begun : start now i p with ⟨result, p'⟩
    rw [begun] at first models
    rcases first with ⟨kept, raised, rfl⟩ | ⟨counted, rfl⟩
    · rw [Attempt.bind_error begun]
      exact ⟨kept.ge, fun ok => by cases ok⟩
    · rw [Attempt.bind_ok begun]
      obtain ⟨least, exact_⟩ := ih p'
      dsimp only at counted models
      refine ⟨?_, fun ok => ?_⟩
      · split at counted <;> omega
      · rw [exact_ ok, counted, models]
        unfold share
        rw [List.countP_cons]
        split <;> simp_all
        omega

theorem beginBatch_opened (now : Seconds) (p : WorkerProcess) (j : ObjectId) :
    (p.objects j).Opened now ((beginBatch now p).2.objects j) := by
  rcases beginBatch_cases now p with ⟨raised, p', run, opened⟩ | ⟨p', run, opened⟩ | ⟨selected, p', -, run, opened, -⟩ <;>
    rw [run] <;> exact opened j

/-- A batch changes neither the models of its worker nor those of the requests. -/
theorem beginBatch_modelState (now : Seconds) (p : WorkerProcess) :
    (beginBatch now p).2.worker.modelState = p.worker.modelState ∧ (beginBatch now p).2.objects.models = p.objects.models := by
  constructor
  · unfold beginBatch
    rcases skipExpired now p.worker.queue p.objects with ⟨raised | done, queue, objects⟩
    · rfl
    cases queue with
    | nil => rfl
    | cons i rest =>
      dsimp only
      rcases p.worker.gather (objects i) now [i] (objects i).estimatedTokens rest objects with
        ⟨⟨raised, queue⟩ | ⟨selected, queue⟩, objects'⟩
      · rfl
      · have kept := congrArg Prod.fst (startAll_modelState now selected ⟨{ p.worker with queue := queue }, objects'⟩)
        dsimp only
        rcases run : startAll now selected ⟨{ p.worker with queue := queue }, objects'⟩ with ⟨raised | done, p'⟩
        · rw [Attempt.bind_error run]
          rw [run] at kept
          exact kept
        · rw [Attempt.bind_ok run]
          rw [run] at kept
          exact kept
  · exact funext fun j => (beginBatch_opened now p j).modelId

/-- The requests of a batch are counted once it runs. -/
theorem beginBatch_active (now : Seconds) (p : WorkerProcess) :
    p.worker.active modelId + share p.objects.models ((beginBatch now p).1.toOption.getD []) modelId ≤
      (beginBatch now p).2.worker.active modelId := by
  have skipped := skipExpired_skipped now p.worker.queue p.objects
  unfold beginBatch
  rcases skip : skipExpired now p.worker.queue p.objects with ⟨raised | done, queue, objects⟩
  · simp [Except.toOption, share, active]
  rw [skip] at skipped
  cases queue with
  | nil => simp [Except.toOption, share, active]
  | cons i rest =>
    have gathered := p.worker.gather_skipped (objects i) now [i] (objects i).estimatedTokens rest objects
    dsimp only
    rcases gather : p.worker.gather (objects i) now [i] (objects i).estimatedTokens rest objects with
      ⟨⟨raised, queue⟩ | ⟨selected, queue⟩, objects'⟩
    · simp [Except.toOption, share, active]
    rw [gather] at gathered
    have same : objects'.models = p.objects.models := by
      funext j
      exact ((skipped j).trans (gathered j)).modelId
    obtain ⟨least, counted⟩ := @startAll_active modelId now selected ⟨{ p.worker with queue := queue }, objects'⟩
    dsimp only
    rcases run : startAll now selected ⟨{ p.worker with queue := queue }, objects'⟩ with ⟨raised | done, p'⟩
    · rw [run] at least
      have kept : p.worker.active modelId ≤ p'.worker.active modelId := least
      rw [Attempt.bind_error run]
      simpa [Except.toOption, share] using kept
    · rw [run] at counted
      rw [Attempt.bind_ok run, ← same]
      exact (counted rfl).ge

theorem closeAll_worker (target : RequestState) (at_ : ObjectId → Seconds) (selected : List ObjectId) :
    (closeAll target at_ selected).Keeps fun p => (p.worker, p.objects.models) := by
  induction selected with
  | nil => exact Attempt.keeps_pure _
  | cons i rest ih =>
    intro p
    unfold closeAll
    split
    · exact ih p
    rcases (p.objects i).transition_cases target (at_ i) with ⟨-, run⟩ | ⟨-, raised, run, -⟩
    · rw [run]
      refine (ih _).trans ?_
      exact congrArg (p.worker, ·) (Objects.models_put rfl)
    · rw [run]

/-- A batch that retires is no longer counted. -/
theorem retire_frame (selected : List ObjectId) (p : WorkerProcess) :
    (retire selected p).objects = p.objects ∧ (retire selected p).worker.queue = p.worker.queue ∧
      (retire selected p).worker.modelState = p.worker.modelState ∧
      ∀ modelId, (retire selected p).worker.active modelId =
        p.worker.active modelId - share p.objects.models selected modelId := by
  have general : ∀ (w : ManagedWorker),
      let w' := selected.foldl (fun w i =>
        let counted := w.countActive (p.objects i).modelId (-1)
        { counted with activeRequests := counted.activeRequests.erase (p.objects i).requestId }) w
      w'.queue = w.queue ∧ w'.modelState = w.modelState ∧
        ∀ modelId, w'.active modelId = w.active modelId - share p.objects.models selected modelId := by
    induction selected with
    | nil => exact fun w => ⟨rfl, rfl, fun modelId => by simp [share]⟩
    | cons i rest ih =>
      intro w
      obtain ⟨queue, state, counts⟩ := ih { w.countActive (p.objects i).modelId (-1) with
        activeRequests := (w.countActive (p.objects i).modelId (-1)).activeRequests.erase (p.objects i).requestId }
      refine ⟨queue, state, fun modelId => (counts modelId).trans ?_⟩
      have one : ({ w.countActive (p.objects i).modelId (-1) with
          activeRequests := (w.countActive (p.objects i).modelId (-1)).activeRequests.erase (p.objects i).requestId } :
            ManagedWorker).active modelId = w.active modelId + if (p.objects i).modelId = modelId then -1 else 0 :=
        active_countActive w (p.objects i).modelId (-1)
      rw [one]
      unfold share Objects.models
      rw [List.countP_cons]
      by_cases same : (p.objects i).modelId = modelId
      · simp [same]
        omega
      · simp [same]
  obtain ⟨queue, state, counts⟩ := general { p.worker with activeBatchCount := p.worker.activeBatchCount - 1 }
  exact ⟨rfl, queue, state, counts⟩

theorem cancelRequest_frame (requestId : String) (now : Seconds) (p : WorkerProcess) :
    (cancelRequest requestId now p).2.worker.modelState = p.worker.modelState ∧
      (cancelRequest requestId now p).2.worker.activeRequestsByModel = p.worker.activeRequestsByModel ∧
      (∀ i ∈ (cancelRequest requestId now p).2.worker.queue, i ∈ p.worker.queue) ∧
      (cancelRequest requestId now p).2.objects.models = p.objects.models := by
  unfold cancelRequest
  split
  · rename_i i found
    dsimp only
    rcases (p.objects i).transition_cases .cancelled now with ⟨-, run⟩ | ⟨-, raised, run, -⟩ <;> rw [run]
    · exact ⟨rfl, rfl, fun j member => List.mem_of_mem_erase member, Objects.models_put rfl⟩
    · exact ⟨rfl, rfl, fun j member => List.mem_of_mem_erase member, rfl⟩
  · split
    · exact ⟨rfl, rfl, fun _ member => member, rfl⟩
    rename_i i active
    split
    · exact ⟨rfl, rfl, fun _ member => member, rfl⟩
    rcases (p.objects i).transition_cases .cancelled now with ⟨-, run⟩ | ⟨-, raised, run, -⟩ <;> rw [run]
    · exact ⟨rfl, rfl, fun _ member => member, Objects.models_put rfl⟩
    · exact ⟨rfl, rfl, fun _ member => member, rfl⟩

/-- What enters the queue is for a resident model. -/
theorem enqueueRequest_frame (i : ObjectId) (now : Seconds) (p : WorkerProcess) :
    (enqueueRequest i now p).2.worker.modelState = p.worker.modelState ∧
      (enqueueRequest i now p).2.worker.activeRequestsByModel = p.worker.activeRequestsByModel ∧
      (∀ j ∈ (enqueueRequest i now p).2.worker.queue, j ∈ p.worker.queue ∨ p.objects.models j ∈ p.worker.residentModels) ∧
      (enqueueRequest i now p).2.objects.models = p.objects.models := by
  unfold enqueueRequest
  dsimp only
  split
  · exact ⟨rfl, rfl, fun _ member => Or.inl member, rfl⟩
  split
  · exact ⟨rfl, rfl, fun _ member => Or.inl member, rfl⟩
  rename_i resident
  split
  · exact ⟨rfl, rfl, fun _ member => Or.inl member, rfl⟩
  split
  · exact ⟨rfl, rfl, fun _ member => Or.inl member, rfl⟩
  split
  · exact ⟨rfl, rfl, fun _ member => Or.inl member, rfl⟩
  · refine ⟨rfl, rfl, fun j member => ?_, Objects.models_put rfl⟩
    rcases List.mem_append.mp member with before | new
    · exact Or.inl before
    · rw [List.mem_singleton.mp new]
      exact Or.inr (not_not.mp resident)

/-- Models are chosen for eviction in the order given, and only those that are not in use. -/
theorem chooseEvictions_spec {w : ManagedWorker} {objects : Objects} {required : Int} {models : List String} {usable left : Int}
    {chosen : List (String × ModelDefinition)} (chose : w.chooseEvictions objects required models usable = .ok (chosen, left)) :
    (chosen.map Prod.fst).Sublist models ∧ ∀ e ∈ chosen, w.inUse objects e.1 = false := by
  induction models generalizing usable chosen left with
  | nil =>
    cases chose
    exact ⟨.slnil, fun e member => by cases member⟩
  | cons modelId rest ih =>
    unfold chooseEvictions at chose
    split at chose
    · obtain ⟨ordered, unused⟩ := ih chose
      exact ⟨ordered.cons _, unused⟩
    rename_i free
    split at chose
    · cases chose
    rename_i definition known
    dsimp only at chose
    split at chose
    · cases chose
      refine ⟨List.cons_sublist_cons.mpr (List.nil_sublist _), fun e member => ?_⟩
      rw [List.mem_singleton.mp member]
      simpa using free
    · rcases later : w.chooseEvictions objects required rest (usable + definition.estimatedMemoryBytes) with
        raised | ⟨others, usable'⟩
      · rw [later] at chose
        cases chose
      · rw [later] at chose
        cases chose
        obtain ⟨ordered, unused⟩ := ih later
        refine ⟨List.cons_sublist_cons.mpr ordered, fun e member => ?_⟩
        rcases List.mem_cons.mp member with rfl | member
        · simpa using free
        · exact unused e member

theorem planEvictions_spec {w : ManagedWorker} {objects : Objects} {model : ModelDefinition} {capacity : RuntimeCapacity}
    {evictions : List (String × ModelDefinition)} (planned : w.planEvictions objects model capacity = .ok evictions)
    (distinct : w.residentModels.Nodup) :
    (evictions.map Prod.fst).Nodup ∧ ∀ e ∈ evictions, e.1 ∈ w.residentModels ∧ w.inUse objects e.1 = false := by
  unfold planEvictions at planned
  split at planned
  · cases planned
    exact ⟨List.nodup_nil, fun e member => by cases member⟩
  dsimp only at planned
  split at planned
  · cases planned
    exact ⟨List.nodup_nil, fun e member => by cases member⟩
  split at planned
  · cases planned
  rename_i chosen left chose
  split at planned
  · cases planned
  cases planned
  obtain ⟨ordered, unused⟩ := chooseEvictions_spec chose
  have perm : w.evictionOrder.Perm w.residentModels := List.perm_insertionSort _ _
  refine ⟨(perm.nodup_iff.mpr distinct).sublist ordered, fun e member => ⟨?_, unused e member⟩⟩
  exact perm.mem_iff.mp (ordered.subset (List.mem_map_of_mem member))

/-- The worker once a load goes ahead: what is to be evicted is withdrawn, and the memory is reserved. -/
def reserveLoad (w : ManagedWorker) (model : ModelDefinition) (evictions : List (String × ModelDefinition)) : ManagedWorker :=
  { w with
    residentModels := w.residentModels.filter fun modelId => evictions.all fun e => modelId ≠ e.1
    modelLastUsed := evictions.foldl (fun lastUsed e => lastUsed.erase e.1) w.modelLastUsed
    loadAttempts := w.loadAttempts.insert model.modelId ((w.loadAttempts.get? model.modelId).getD 0 + 1)
    loadingModels := w.loadingModels.insert model.modelId
    reservedModelMemoryBytes := w.reservedModelMemoryBytes + model.estimatedMemoryBytes }

section BeginLoad

variable {w entered : ManagedWorker} {model : ModelDefinition} {answers : LoadAnswers}
  {capacity : RuntimeCapacity}

/-- The worker that a load finds after its wait, if it had to wait. -/
theorem woken_eq (joins : entered = w ∨ entered.accepting = true ∧ model.modelId ∉ entered.residentModels ∧
    model.modelId ∈ entered.loadingModels) :
    (if decide (model.modelId ∈ entered.loadingModels) = true then w else entered) = w := by
  rcases joins with same | ⟨-, -, joined⟩
  · rw [same, ite_self]
  · rw [if_pos (decide_eq_true joined)]

/-- A load that is not refused, for a model that is not resident, does as its evictions are planned. -/
theorem beginLoad_planned (objects : Objects) (joins : entered = w ∨ entered.accepting = true ∧ model.modelId ∉ entered.residentModels ∧
      model.modelId ∈ entered.loadingModels) (accepts : entered.accepting = true) (absent : model.modelId ∉ w.residentModels)
    (fresh : ¬((decide (model.modelId ∈ entered.loadingModels)) = true ∧ (w.loadFailures.get? model.modelId).any
      (fun failure => failure.1 = (entered.loadAttempts.get? model.modelId).getD 0) = true))
    (answered : answers.capacity = .ok capacity) :
    entered.beginLoad w objects model answers = match w.planEvictions objects model capacity with
      | .error raised => (.error raised, w)
      | .ok evictions => (.ok (some (evictions, (w.loadAttempts.get? model.modelId).getD 0 + 1)), w.reserveLoad model evictions) := by
  have apart : model.modelId ∉ entered.residentModels := by
    rcases joins with rfl | ⟨-, apart, -⟩
    · exact absent
    · exact apart
  unfold beginLoad
  dsimp only
  rw [accepts, if_neg Bool.true_eq_false_eq_False, if_neg apart, woken_eq joins, if_neg absent, if_neg fresh, answered]
  rfl

/-- A load is refused, finds its model resident, or goes ahead with planned evictions. -/
theorem beginLoad_cases (objects : Objects) (answers : LoadAnswers) (joins : entered = w ∨ entered.accepting = true ∧
      model.modelId ∉ entered.residentModels ∧ model.modelId ∈ entered.loadingModels) :
    (∃ raised, entered.beginLoad w objects model answers = (.error raised, w)) ∨
      (model.modelId ∈ w.residentModels ∧ entered.beginLoad w objects model answers =
        (.ok none, { w with modelLastUsed := w.modelLastUsed.insert model.modelId answers.now })) ∨
      ∃ capacity evictions, entered.accepting = true ∧ model.modelId ∉ w.residentModels ∧ answers.capacity = .ok capacity ∧
        w.planEvictions objects model capacity = .ok evictions ∧ entered.beginLoad w objects model answers =
          (.ok (some (evictions, (w.loadAttempts.get? model.modelId).getD 0 + 1)), w.reserveLoad model evictions) := by
  by_cases refused : entered.accepting = false
  · refine Or.inl ⟨runtimeError "worker is not accepting model loads", ?_⟩
    rcases joins with rfl | ⟨accepts, -⟩
    · unfold beginLoad
      rw [if_pos refused]
    · rw [refused] at accepts
      cases accepts
  have accepts : entered.accepting = true := by simpa using refused
  by_cases held : model.modelId ∈ w.residentModels
  · refine Or.inr (Or.inl ⟨held, ?_⟩)
    unfold beginLoad
    dsimp only
    rw [if_neg refused, woken_eq joins, if_pos held]
    split
    · rename_i resident
      rcases joins with rfl | ⟨-, absent, -⟩
      · rfl
      · exact absurd resident absent
    · rfl
  have apart : model.modelId ∉ entered.residentModels := by
    rcases joins with rfl | ⟨-, apart, -⟩
    · exact held
    · exact apart
  by_cases failed : (decide (model.modelId ∈ entered.loadingModels)) = true ∧ (w.loadFailures.get? model.modelId).any
      (fun failure => failure.1 = (entered.loadAttempts.get? model.modelId).getD 0) = true
  · refine Or.inl ⟨runtimeError s!"coalesced model load failed: {model.modelId}", ?_⟩
    unfold beginLoad
    dsimp only
    rw [if_neg refused, if_neg apart, woken_eq joins, if_neg held, if_pos failed]
  rcases answered : answers.capacity with raised | capacity
  · refine Or.inl ⟨raised, ?_⟩
    unfold beginLoad
    dsimp only
    rw [if_neg refused, if_neg apart, woken_eq joins, if_neg held, if_neg failed, answered]
  · have run := beginLoad_planned objects joins accepts held failed answered
    rcases planned : w.planEvictions objects model capacity with raised | evictions
    · rw [planned] at run
      exact Or.inl ⟨raised, run⟩
    · rw [planned] at run
      exact Or.inr (Or.inr ⟨capacity, evictions, accepts, held, rfl, planned, run⟩)

end BeginLoad

end ManagedWorker

/-- The place of a call that goes on. -/
def CallOutcome.place? : CallOutcome → Option CallPlace
  | .proceeds place => some place
  | _ => none

namespace WorkerSystem

variable {ρ : Type}

theorem settle_host (s : WorkerSystem ρ) (call : Nat) (result : CallOutcome × WorkerHost ρ) :
    (s.settle call result).host = result.2 := by
  obtain ⟨outcome, h⟩ := result
  cases outcome <;> rfl

/-- Only the call that moves has another place. -/
theorem settle_get? (s : WorkerSystem ρ) (call : Nat) (result : CallOutcome × WorkerHost ρ) (c : Nat) :
    (s.settle call result).calls.get? c = if c = call then result.1.place? else s.calls.get? c := by
  obtain ⟨outcome, h⟩ := result
  cases outcome with
  | proceeds place => exact Dict.get?_insert
  | returns => exact Dict.get?_erase
  | raises raised => exact Dict.get?_erase

/-- A sum over the calls in flight changes by what the call that moves adds to it. -/
theorem settle_total (s : WorkerSystem ρ) (call : Nat) (result : CallOutcome × WorkerHost ρ) (weight : CallPlace → Int) :
    (s.settle call result).calls.total weight =
      s.calls.total weight - (s.calls.get? call).elim 0 weight + result.1.place?.elim 0 weight := by
  have ends : (s.calls.erase call).total weight = s.calls.total weight - (s.calls.get? call).elim 0 weight := by
    cases found : s.calls.get? call with
    | none => simp [Dict.erase_of_absent found]
    | some old =>
      have split := s.calls.total_erase weight found
      simp only [Option.elim_some]
      omega
  obtain ⟨outcome, h⟩ := result
  cases outcome with
  | returns => simpa [settle, CallOutcome.place?] using ends
  | raises raised => simpa [settle, CallOutcome.place?] using ends
  | proceeds place =>
    cases found : s.calls.get? call with
    | none =>
      have added := s.calls.total_insert_fresh (v := place) weight found
      simpa [settle, CallOutcome.place?] using added
    | some old => exact s.calls.total_replace weight place found

end WorkerSystem

end ServingPlatform
