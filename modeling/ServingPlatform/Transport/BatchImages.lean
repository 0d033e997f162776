import Mathlib.Data.List.Find
import ServingPlatform.Transport.Naming

namespace ServingPlatform.ManagedWorker

variable (f : Naming) {base objects : Objects} {now : Seconds} {i : ObjectId} {p : WorkerProcess}
  {queue selected : List ObjectId}

theorem start_image (inside : i < f.size) :
    start now (f.origin i) (image f base p) = ((start now i p).1, image f base (start now i p).2) := by
  unfold start image
  dsimp only
  rw [f.place_origin inside]
  rcases (p.objects i).transition_cases .running now with ⟨-, run⟩ | ⟨-, raised, run, -⟩
  · rw [run]
    dsimp only
    rw [f.place_put inside]
    unfold rename countActive
    dsimp only
    rw [Dict.map_insert]
  · rw [run]

theorem startAll_image (inside : ∀ j ∈ selected, j < f.size) :
    startAll now (selected.map f.origin) (image f base p) =
      ((startAll now selected p).1, image f base (startAll now selected p).2) := by
  induction selected generalizing p with
  | nil => rfl
  | cons j rest induct =>
    have later := fun {p} => @induct p fun k member => inside k (List.mem_cons_of_mem _ member)
    have first := @start_image f base now j p (inside j List.mem_cons_self)
    rw [List.map_cons]
    unfold startAll
    rcases run : start now j p with ⟨raised | ⟨⟩, p'⟩
    · rw [run] at first
      rw [Attempt.bind_error first, Attempt.bind_error run]
    · rw [run] at first
      rw [Attempt.bind_ok first, Attempt.bind_ok run]
      exact later

/-- The outcome of a computation, seen in the other process. -/
def seen {α : Type} (name : α → α) (base : Objects) (outcome : Except Raised α × WorkerProcess) :
    Except Raised α × WorkerProcess :=
  (outcome.1.map name, image f base outcome.2)

/-- The end of the locked part: the batch around a first request starts. -/
def launch (now : Seconds) (i : ObjectId) (selected : List ObjectId) : Attempt Raised WorkerProcess (List ObjectId) := do
  startAll now selected
  Attempt.update fun p => { p with
    worker := { p.worker with
      modelLastUsed := p.worker.modelLastUsed.insert (p.objects i).modelId now
      activeBatchCount := p.worker.activeBatchCount + 1 } }
  pure selected

theorem launch_image (here : i < f.size) (inside : ∀ j ∈ selected, j < f.size) :
    launch now (f.origin i) (selected.map f.origin) (image f base p) =
      seen f (List.map f.origin) base (launch now i selected p) := by
  have started := @startAll_image f base now p _ inside
  unfold launch
  rcases run : startAll now selected p with ⟨raised | ⟨⟩, p'⟩
  · rw [run] at started
    rw [Attempt.bind_error started, Attempt.bind_error run]
    rfl
  · rw [run] at started
    have named : (image f base p').objects (f.origin i) = p'.objects i := f.place_origin here
    rw [Attempt.bind_ok started, Attempt.bind_ok run]
    change (Except.ok (selected.map f.origin), (⟨{ (image f base p').worker with
      modelLastUsed := _, activeBatchCount := _ }, _⟩ : WorkerProcess)) = _
    rw [named]
    rfl

theorem beginBatch_image (inside : ∀ j ∈ p.worker.queue, j < f.size) :
    beginBatch now (image f base p) = seen f (List.map f.origin) base (beginBatch now p) := by
  have skipped := @skipExpired_image f base p.objects now _ inside
  have shorter := skipExpired_sublist now p.worker.queue p.objects
  have queues : (image f base p).worker.queue = p.worker.queue.map f.origin := rfl
  have placed : (image f base p).objects = f.place base p.objects := rfl
  unfold beginBatch
  rw [queues, placed, skipped]
  rcases skip : skipExpired now p.worker.queue p.objects with ⟨raised | done, queue, objects⟩
  · rfl
  cases done
  rw [skip] at shorter
  cases queue with
  | nil => rfl
  | cons i rest =>
    have within : ∀ j ∈ i :: rest, j < f.size := fun j member => inside j (shorter.subset member)
    have here := within i List.mem_cons_self
    have gathers := @gather_image f base objects now _ [i] p.worker (objects i)
      (objects i).estimatedTokens fun j member => within j (List.mem_cons_of_mem _ member)
    have fewer := p.worker.gather_subperm (objects i) now [i] (objects i).estimatedTokens rest objects
    simp only [List.map_cons]
    rw [f.place_origin here]
    have renamed : (image f base p).worker = p.worker.rename f := rfl
    rw [List.map_cons, List.map_nil] at gathers
    rw [renamed, gathers]
    rcases gather : p.worker.gather (objects i) now [i] (objects i).estimatedTokens rest objects with
      ⟨⟨raised, queue⟩ | ⟨selected, queue⟩, objects'⟩
    · rfl
    · rw [gather] at fewer
      exact launch_image (p := ⟨{ p.worker with queue := queue }, objects'⟩) f here fun j member =>
        within j (fewer.subset (List.mem_append_left _ member))

theorem closeAll_image {target : RequestState} (at_ : ObjectId → Seconds) (inside : ∀ j ∈ selected, j < f.size) :
    closeAll target at_ (selected.map f.origin) (image f base p) =
      seen f id base (closeAll target (at_ ∘ f.origin) selected p) := by
  induction selected generalizing p with
  | nil => rfl
  | cons j rest induct =>
    have here := inside j List.mem_cons_self
    have later := fun {p} => @induct p fun k member => inside k (List.mem_cons_of_mem _ member)
    have named : (image f base p).objects (f.origin j) = p.objects j := f.place_origin here
    rw [List.map_cons]
    unfold closeAll
    rw [named]
    split
    · exact later
    · rcases (p.objects j).transition_cases target (at_ (f.origin j)) with ⟨-, run⟩ | ⟨-, raised, run, -⟩
      · have put : (image f base p).objects.put (f.origin j) ((p.objects j).enter target (at_ (f.origin j))) =
            f.place base (p.objects.put j ((p.objects j).enter target (at_ (f.origin j)))) := f.place_put here
        rw [Function.comp_apply, run]
        dsimp only
        rw [put]
        exact later (p := ⟨p.worker, p.objects.put j ((p.objects j).enter target (at_ (f.origin j)))⟩)
      · rw [Function.comp_apply, run]
        rfl

theorem retire_image (inside : ∀ j ∈ selected, j < f.size) :
    retire (selected.map f.origin) (image f base p) = image f base (retire selected p) := by
  have step : ∀ (w : ManagedWorker), (selected.map f.origin).foldl (fun w i =>
      let counted := w.countActive (f.place base p.objects i).modelId (-1)
      { counted with activeRequests := counted.activeRequests.erase (f.place base p.objects i).requestId }) (w.rename f) =
      (selected.foldl (fun w i =>
        let counted := w.countActive (p.objects i).modelId (-1)
        { counted with activeRequests := counted.activeRequests.erase (p.objects i).requestId }) w).rename f := by
    induction selected with
    | nil => exact fun _ => rfl
    | cons j rest induct =>
      intro w
      have later := induct fun k member => inside k (List.mem_cons_of_mem _ member)
      rw [List.map_cons, List.foldl_cons, List.foldl_cons, ← later, f.place_origin (inside j List.mem_cons_self)]
      unfold rename countActive
      dsimp only
      rw [Dict.map_erase]
  unfold retire image
  exact congrArg (fun w => (⟨w, f.place base p.objects⟩ : WorkerProcess))
    (step { p.worker with activeBatchCount := p.worker.activeBatchCount - 1 })

theorem executions_image (results : List RuntimeResult) (inside : ∀ j ∈ selected, j < f.size) :
    executions (f.place base objects) (selected.map f.origin) results = executions objects selected results := by
  induction selected generalizing results with
  | nil => rfl
  | cons j rest induct =>
    have later := fun results => induct results fun k member => inside k (List.mem_cons_of_mem _ member)
    cases results with
    | nil => rfl
    | cons result results =>
      have rest_image := later results
      unfold executions at rest_image ⊢
      rw [List.map_cons, List.zip_cons_cons, List.zip_cons_cons, List.filterMap_cons, List.filterMap_cons, rest_image]
      dsimp only
      rw [f.place_origin (inside j List.mem_cons_self)]

theorem finishBatch_image (generated : Except Raised (List RuntimeResult)) (failedAt : Seconds)
    (completedAt : ObjectId → Seconds) (inside : ∀ j ∈ selected, j < f.size) :
    finishBatch (selected.map f.origin) generated failedAt completedAt (image f base p) =
      seen f id base (finishBatch selected generated failedAt (completedAt ∘ f.origin) p) := by
  have stream : ((selected.map f.origin).head?.elim false fun i => ((image f base p).objects i).stream) =
      selected.head?.elim false fun i => (p.objects i).stream := by
    cases selected with
    | nil => rfl
    | cons j rest =>
      exact congrArg RequestRecord.stream (f.place_origin (inside j List.mem_cons_self))
  unfold finishBatch
  dsimp only
  rw [stream, List.length_map]
  rcases checkResults (selected.head?.elim false fun i => (p.objects i).stream) selected.length generated with
    raised | results
  · have closes := @closeAll_image f base p _ .failed (fun _ => failedAt) inside
    dsimp only [Attempt.ensure]
    rcases run : closeAll .failed ((fun _ => failedAt) ∘ f.origin) selected p with ⟨error | done, p'⟩
    · rw [run] at closes
      change closeAll .failed (fun _ => failedAt) selected p = _ at run
      rw [Attempt.bind_error closes, Attempt.bind_error run]
      dsimp only
      rw [retire_image f inside]
      rfl
    · rw [run] at closes
      change closeAll .failed (fun _ => failedAt) selected p = _ at run
      rw [Attempt.bind_ok closes, Attempt.bind_ok run]
      dsimp only [Attempt.run_raise]
      rw [retire_image f inside]
      rfl
  · have closes := @closeAll_image f base (retire selected p) _ .completed completedAt inside
    dsimp only
    rw [retire_image f inside]
    rcases run : closeAll .completed (completedAt ∘ f.origin) selected (retire selected p) with ⟨error | done, p'⟩
    · rw [run] at closes
      rw [Attempt.bind_error closes, Attempt.bind_error run]
      rfl
    · rw [run] at closes
      rw [Attempt.bind_ok closes, Attempt.bind_ok run]
      have same : executions (image f base p').objects (selected.map f.origin) results =
          executions p'.objects selected results := executions_image f results inside
      dsimp only [Attempt.run_read]
      rw [same]
      rfl

/-- What a worker does with a batch does not depend on the process that it is in. -/
theorem executeBatch_image (inputs : BatchInputs) (inside : ∀ j ∈ p.worker.queue, j < f.size) :
    executeBatch inputs (image f base p) =
      seen f id base (executeBatch { inputs with completedAt := inputs.completedAt ∘ f.origin } p) := by
  have begins := @beginBatch_image f base inputs.now _ inside
  have fewer := beginBatch_subperm inputs.now p
  unfold executeBatch
  rcases run : beginBatch inputs.now p with ⟨raised | selected, p'⟩
  · rw [run] at begins
    rw [Attempt.bind_error begins, Attempt.bind_error run]
    rfl
  · rw [run] at begins fewer
    rw [Attempt.bind_ok begins, Attempt.bind_ok run]
    cases selected with
    | nil => rfl
    | cons i rest =>
      have within : ∀ j ∈ i :: rest, j < f.size := fun j member =>
        inside j (fewer.subset (List.mem_append_left _ member))
      rw [if_neg (List.cons_ne_nil i rest), if_neg (by simp)]
      exact finishBatch_image f inputs.generated inputs.failedAt inputs.completedAt within

theorem cancelRequest_image (requestId : String) (inside : ∀ j ∈ p.worker.queue, j < f.size)
    (active : ∀ j ∈ p.worker.activeRequests.values, j < f.size) :
    cancelRequest requestId now (image f base p) = seen f id base (cancelRequest requestId now p) := by
  have found : ((image f base p).worker.queue.find? fun i => ((image f base p).objects i).requestId = requestId) =
      (p.worker.queue.find? fun i => (p.objects i).requestId = requestId).map f.origin := by
    have queues : ∀ queue : List ObjectId, (∀ j ∈ queue, j < f.size) →
        ((queue.map f.origin).find? fun i => (f.place base p.objects i).requestId = requestId) =
          (queue.find? fun i => (p.objects i).requestId = requestId).map f.origin := by
      intro queue within
      rw [List.find?_map]
      refine congrArg (Option.map f.origin) (List.find?_congr fun j member => ?_)
      rw [Function.comp_apply, f.place_origin (within j member)]
    exact queues p.worker.queue inside
  unfold cancelRequest
  rw [found]
  rcases search : p.worker.queue.find? fun i => (p.objects i).requestId = requestId with - | j
  · have lookup : (image f base p).worker.activeRequests.get? requestId =
        (p.worker.activeRequests.get? requestId).map f.origin := Dict.get?_map f.origin
    dsimp only [Option.map_none]
    rw [lookup]
    rcases held : p.worker.activeRequests.get? requestId with - | j
    · rfl
    · have here := active j (Dict.mem_values_iff.mpr ⟨requestId, held⟩)
      have named : (image f base p).objects (f.origin j) = p.objects j := f.place_origin here
      dsimp only [Option.map_some]
      rw [named]
      split
      · rfl
      · rcases (p.objects j).transition_cases .cancelled now with ⟨-, run⟩ | ⟨-, raised, run, -⟩
        · rw [run]
          exact congrArg (fun objects => ((.ok true : Except Raised Bool), (⟨p.worker.rename f, objects⟩ : WorkerProcess)))
            (f.place_put here)
        · rw [run]
          rfl
  · have member := List.mem_of_find?_eq_some search
    have here := inside j member
    have named : (image f base p).objects (f.origin j) = p.objects j := f.place_origin here
    have erased : (image f base p).worker.queue.erase (f.origin j) = (p.worker.queue.erase j).map f.origin :=
      f.map_erase inside here
    dsimp only [Option.map_some]
    rw [named, erased]
    rcases (p.objects j).transition_cases .cancelled now with ⟨-, run⟩ | ⟨-, raised, run, -⟩
    · have put : (image f base p).objects.put (f.origin j) ((p.objects j).enter .cancelled now) =
          f.place base (p.objects.put j ((p.objects j).enter .cancelled now)) := f.place_put here
      rw [run]
      dsimp only
      rw [put]
      rfl
    · rw [run]
      rfl

end ServingPlatform.ManagedWorker
