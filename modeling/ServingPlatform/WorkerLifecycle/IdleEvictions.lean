import ServingPlatform.WorkerLifecycle.Evictions

namespace ServingPlatform

/-- The metric of evictions, and for each call of `evict_idle_models` the models
that it has counted and those that it has really unloaded. -/
structure EvictionLog where
  modelEvictions : Nat
  evicted : Nat → List String
  unloaded : Nat → List String

namespace CallPlace

/-- Whether a call is one of `evict_idle_models` at its place, short of a failed unload. -/
def sweeps : CallPlace → Bool
  | .sorting _ | .sweeping _ | .unloading _ (some _) => true
  | _ => false

section Log

variable {ρ : Type} (runtime : ModelRuntime ρ) (h : WorkerHost ρ) (readings : WorkerReadings)

/-- The models that the next step unloads for `evict_idle_models`. -/
def unloadsIdle : CallPlace → List String
  | .unloading modelId (some _) =>
    match readings.call (runtime.unloadModel h.runtime modelId) with
    | .ok _ => [modelId]
    | .error _ => []
  | _ => []

/-- The models that the next step adds to `evicted`: `unload_model` has returned. -/
def countsIdle : CallPlace → List String
  | .sweeping (modelId :: _) => if h.worker.queues h.objects modelId ∨ modelId ∈ h.worker.residentModels then [] else [modelId]
  | place => place.unloadsIdle runtime h readings

/-- By how much the next step raises the metric. -/
def meters (evicted : List String) : CallPlace → Nat
  | .publishing load => load.evictions.length
  | .sweeping [] => evicted.length
  | _ => 0

end Log

end CallPlace

namespace WorkerSystem

open CallPlace

variable {ρ : Type} {runtime : ModelRuntime ρ} {idleEvictionSeconds : ModelDefinition → Seconds} {s s' : WorkerSystem ρ}
  {action : WorkerAction} {call : Nat} {place : CallPlace} {readings : WorkerReadings} {log : EvictionLog}

/-- The log after an action; a call that starts has counted nothing. -/
def meter (runtime : ModelRuntime ρ) (s : WorkerSystem ρ) (log : EvictionLog) : WorkerAction → EvictionLog
  | .start call .. => { log with
      evicted := Function.update log.evicted call []
      unloaded := Function.update log.unloaded call [] }
  | .advance call readings =>
    match s.calls.get? call with
    | none => log
    | some place => {
        modelEvictions := log.modelEvictions + place.meters (log.evicted call)
        evicted := Function.update log.evicted call (log.evicted call ++ place.countsIdle runtime s.host readings)
        unloaded := Function.update log.unloaded call (log.unloaded call ++ place.unloadsIdle runtime s.host readings) }
  | .outside .. => log

/-- A new worker, for which no call has counted anything. -/
def Unmetered (s : WorkerSystem ρ) (log : EvictionLog) : Prop :=
  s.Fresh ∧ log.evicted = (fun _ => []) ∧ log.unloaded = fun _ => []

/-- The runtime unloads what `evict_idle_models` asks it to unload. -/
def Unloads (runtime : ModelRuntime ρ) (s : WorkerSystem ρ) : WorkerAction → Prop
  | .advance call readings => ∀ modelId rest, s.calls.get? call = some (.unloading modelId (some rest)) →
      ∃ after, readings.call (runtime.unloadModel s.host.runtime modelId) = .ok after
  | _ => True

/-- What was found idle is still so: the time at which it was last used is there
when the models are sorted, and it is resident and not queued when it is its turn. -/
def Undisturbed (s : WorkerSystem ρ) : WorkerAction → Prop
  | .advance call readings => ∀ place, s.calls.get? call = some place →
    match place with
    | .sorting eligible => ∀ modelId ∈ eligible, (readings.lastUsed modelId).isSome = true
    | .sweeping (modelId :: _) => s.host.worker.queues s.host.objects modelId = false ∧ modelId ∈ s.host.worker.residentModels
    | _ => True
  | _ => True

/-- How a step of `evict_idle_models` ends that raises nothing: the call goes on or returns. -/
def GoesOn (outcome : CallOutcome) : Prop := outcome = .returns ∨ ∃ place, outcome = .proceeds place ∧ place.sweeps = true

/-- The scan finds the definition of every resident model. -/
theorem Described.scans (described : s.Described) (readings : WorkerReadings) :
    GoesOn (s.host.begin runtime idleEvictionSeconds readings .evictIdleModels).1 := by
  unfold WorkerHost.begin ManagedWorker.idleModels
  dsimp only
  split
  · rename_i raised scan
    split at scan
    · rename_i modelId missing
      have unknown := List.find?_some missing
      have member := List.mem_of_find?_eq_some missing
      have known := described.resident modelId (List.mem_filter.mp member).1
      rw [Option.isNone_iff_eq_none] at unknown
      rw [books, ManagedWorker.books, unknown] at known
      cases known
    · cases scan
  · exact Or.inr ⟨_, rfl, rfl⟩

/-- A step of `evict_idle_models` raises nothing where nothing came between. -/
theorem sweep_goes_on (found : s.calls.get? call = some place) (sweeping : place.sweeps = true)
    (unloads : s.Unloads runtime (.advance call readings)) (undisturbed : s.Undisturbed (.advance call readings)) :
    GoesOn (s.host.advance runtime readings place).1 := by
  have quiet := undisturbed place found
  unfold WorkerHost.advance
  cases place with
  | sorting eligible =>
    have all : (eligible.find? fun modelId => (readings.lastUsed modelId).isNone) = none := by
      rw [List.find?_eq_none]
      intro modelId member
      rw [Bool.not_eq_true, Option.isNone_eq_false_iff]
      exact quiet modelId member
    dsimp only
    rw [all]
    exact Or.inr ⟨_, rfl, rfl⟩
  | sweeping rest =>
    cases rest with
    | nil => exact Or.inl rfl
    | cons modelId rest =>
      obtain ⟨free, resident⟩ := quiet
      dsimp only
      rw [WorkerHost.beginUnload, if_neg (by rw [free]; exact Bool.false_ne_true), if_neg (not_not.mpr resident)]
      exact Or.inr ⟨_, rfl, rfl⟩
  | unloading modelId later =>
    cases later with
    | none => cases sweeping
    | some rest =>
      obtain ⟨after, run⟩ := unloads modelId rest found
      dsimp only
      rw [run]
      exact Or.inr ⟨_, rfl, rfl⟩
  | _ => cases sweeping

/-- The sort raises exactly where a time is missing. -/
theorem sorting_raises_iff {h : WorkerHost ρ} {eligible : List String} :
    (∃ raised, (h.advance runtime readings (.sorting eligible)).1 = .raises raised) ↔
      ∃ modelId ∈ eligible, readings.lastUsed modelId = none := by
  unfold WorkerHost.advance
  dsimp only
  split
  · rename_i modelId missing
    exact ⟨fun _ => ⟨modelId, List.mem_of_find?_eq_some missing, by simpa using List.find?_some missing⟩, fun _ => ⟨_, rfl⟩⟩
  · rename_i all
    constructor
    · rintro ⟨raised, same⟩
      cases same
    · rintro ⟨modelId, member, missing⟩
      have there := List.find?_eq_none.mp all modelId member
      rw [missing] at there
      exact absurd rfl there

/-- A turn raises exactly where the model has a queued request. -/
theorem sweeping_raises_iff {h : WorkerHost ρ} {modelId : String} {rest : List String} :
    (∃ raised, (h.advance runtime readings (.sweeping (modelId :: rest))).1 = .raises raised) ↔
      h.worker.queues h.objects modelId = true := by
  unfold WorkerHost.advance WorkerHost.beginUnload
  dsimp only
  split
  · rename_i queued
    exact ⟨fun _ => queued, fun _ => ⟨_, rfl⟩⟩
  · rename_i free
    split
    · exact ⟨fun ⟨_, same⟩ => (by cases same), fun queued => absurd queued free⟩
    · exact ⟨fun ⟨_, same⟩ => (by cases same), fun queued => absurd queued free⟩

/-- Where nothing comes between, what is counted is what is unloaded. -/
theorem counts_eq_unloads (found : s.calls.get? call = some place) (undisturbed : s.Undisturbed (.advance call readings)) :
    place.countsIdle runtime s.host readings = place.unloadsIdle runtime s.host readings := by
  have quiet := undisturbed place found
  cases place with
  | sweeping rest =>
    cases rest with
    | nil => rfl
    | cons modelId rest => exact if_pos (Or.inr quiet.2)
  | _ => rfl

theorem meter_same (same : log.evicted = log.unloaded) (undisturbed : s.Undisturbed action) :
    (s.meter runtime log action).evicted = (s.meter runtime log action).unloaded := by
  unfold meter
  cases action with
  | start call request readings =>
    dsimp only
    rw [same]
  | advance call readings =>
    dsimp only
    split
    · exact same
    · rename_i place found
      dsimp only
      rw [counts_eq_unloads found undisturbed, same]
  | outside i target at_ => exact same

/-- In runs in which the runtime unloads what it is asked to, and what a scan
found idle stays undisturbed, `evict_idle_models` raises nothing, and the metric
grows by the number of models it has unloaded. -/
theorem undisturbed_eviction_counts
    (traced : Traced runtime idleEvictionSeconds (meter runtime) Unmetered
      (fun s action => s.Unloads runtime action ∧ s.Undisturbed action) s log) :
    (∀ readings, GoesOn (s.host.begin runtime idleEvictionSeconds readings .evictIdleModels).1) ∧
      ∀ call place readings, s.calls.get? call = some place → place.sweeps = true →
        s.Unloads runtime (.advance call readings) → s.Undisturbed (.advance call readings) →
          GoesOn (s.host.advance runtime readings place).1 ∧
          ((s.host.advance runtime readings place).1 = .returns →
            (s.meter runtime log (.advance call readings)).modelEvictions = log.modelEvictions + (log.unloaded call).length) := by
  have invariant : s.Described ∧ log.evicted = log.unloaded := by
    induction traced with
    | start unmetered => exact ⟨.start unmetered.1, unmetered.2.1.trans unmetered.2.2.symm⟩
    | next before allowed acts ih => exact ⟨ih.1.act acts, meter_same ih.2 allowed.2⟩
  obtain ⟨described, same⟩ := invariant
  refine ⟨fun readings => described.scans readings, fun call place readings found sweeping unloads undisturbed => ?_⟩
  have goesOn := sweep_goes_on found sweeping unloads undisturbed
  refine ⟨goesOn, fun returned => ?_⟩
  have last : place = .sweeping [] := by
    cases place with
    | sorting eligible =>
      unfold WorkerHost.advance at returned
      dsimp only at returned
      split at returned <;> cases returned
    | sweeping rest =>
      cases rest with
      | nil => rfl
      | cons modelId rest =>
        unfold WorkerHost.advance WorkerHost.beginUnload at returned
        dsimp only at returned
        split at returned
        · cases returned
        split at returned <;> cases returned
    | unloading modelId later =>
      cases later with
      | none => cases sweeping
      | some rest =>
        unfold WorkerHost.advance at returned
        dsimp only at returned
        split at returned <;> cases returned
    | _ => cases sweeping
  subst last
  unfold meter
  dsimp only
  rw [found]
  dsimp only [meters]
  rw [same]

namespace Sample

/-- The worker's one model is found idle, and is unloaded. -/
def evicted : List WorkerAction := loading ++ [.start 1 .evictIdleModels Sample.readings, .advance 1 Sample.readings,
  .advance 1 Sample.readings, .advance 1 Sample.readings]

/-- A request for the idle model enters the queue before it is the model's turn. -/
def queuedAgain : List WorkerAction := loading ++ [.start 1 .evictIdleModels Sample.readings, .advance 1 Sample.readings,
  .start 2 (.enqueueRequest 0) Sample.readings]

/-- The idle model is withdrawn before its time is read. -/
def withdrawn : List WorkerAction := loading ++ [.start 1 .evictIdleModels Sample.readings,
  .start 2 (.unloadModel "model") Sample.readings]

/-- The idle model is unloaded by another call before it is its turn. -/
def unloadedElsewhere : List WorkerAction := loading ++ [.start 1 .evictIdleModels Sample.readings, .advance 1 Sample.readings,
  .start 2 (.unloadModel "model") Sample.readings, .advance 2 Sample.readings, .advance 1 Sample.readings]

def measured (actions : List WorkerAction) : WorkerSystem SimulatedGpuRuntime × EvictionLog :=
  trace SimulatedGpuRuntime.runtime (fun _ => 0) (meter SimulatedGpuRuntime.runtime) system ⟨0, fun _ => [], fun _ => []⟩ actions

/-- A step that unloads nothing for `evict_idle_models`, and takes no turn of it. -/
def calm : CallPlace → Bool
  | .sorting _ | .sweeping _ | .unloading .. => false
  | _ => true

theorem undisturbed_of_calm {s : WorkerSystem SimulatedGpuRuntime} (moves : (s.calls.get? call).all calm = true) :
    s.Unloads SimulatedGpuRuntime.runtime (.advance call readings) ∧ s.Undisturbed (.advance call readings) := by
  refine ⟨fun modelId rest found => ?_, fun place found => ?_⟩
  · rw [found] at moves
    cases moves
  · rw [found] at moves
    cases place <;> first | exact trivial | cases moves

end Sample

open Sample in
theorem undisturbed_eviction_counts_sample :
    ((measured evicted).1.meter SimulatedGpuRuntime.runtime (measured evicted).2
      (.advance 1 Sample.readings)).modelEvictions = 0 + ["model"].length := by
  have metered : Traced SimulatedGpuRuntime.runtime (fun _ => 0) (meter SimulatedGpuRuntime.runtime) Unmetered
      (fun s action => s.Unloads SimulatedGpuRuntime.runtime action ∧ s.Undisturbed action)
      (measured evicted).1 (measured evicted).2 := by
    refine Traced.run (.start ⟨system_fresh, rfl, rfl⟩) ?_
    refine ⟨⟨trivial, trivial⟩, rfl, ⟨trivial, trivial⟩, rfl, undisturbed_of_calm rfl, rfl, undisturbed_of_calm rfl, rfl, ?_⟩
    refine ⟨undisturbed_of_calm rfl, rfl, undisturbed_of_calm rfl, rfl, undisturbed_of_calm rfl, rfl, ?_⟩
    refine ⟨undisturbed_of_calm rfl, rfl, ⟨trivial, trivial⟩, rfl, ?_⟩
    refine ⟨⟨fun _ _ found => (by cases found), fun _ found => ?_⟩, rfl, ?_⟩
    · cases found
      exact fun _ _ => rfl
    refine ⟨⟨fun _ _ found => (by cases found), fun _ found => ?_⟩, rfl, ?_⟩
    · cases found
      exact ⟨rfl, by decide⟩
    refine ⟨⟨fun _ _ found => ?_, fun _ found => ?_⟩, rfl, trivial⟩
    · cases found
      exact ⟨_, rfl⟩
    · cases found
      exact trivial
  have found : (measured evicted).1.calls.get? 1 = some (.sweeping []) := by rfl
  exact ((undisturbed_eviction_counts metered).2 1 _ Sample.readings found rfl (fun _ _ other => by rw [found] at other; cases other)
    (fun _ other => by rw [found] at other; cases other; trivial)).2 rfl

namespace Sample

theorem unloads_of_calm {s : WorkerSystem SimulatedGpuRuntime}
    (moves : ((s.calls.get? call).all fun place => match place with | .unloading _ (some _) => false | _ => true) = true) :
    s.Unloads SimulatedGpuRuntime.runtime (.advance call readings) := by
  intro modelId rest found
  rw [found] at moves
  cases moves

/-- The worker has loaded its model, and goes on with some actions. -/
theorem metered_loading {later : List WorkerAction}
    (permits : (measured loading).1.Permits SimulatedGpuRuntime.runtime (fun _ => 0)
      (fun s action => s.Unloads SimulatedGpuRuntime.runtime action) later) :
    Traced SimulatedGpuRuntime.runtime (fun _ => 0) (meter SimulatedGpuRuntime.runtime) Unmetered (fun s action => s.Unloads SimulatedGpuRuntime.runtime action)
      (measured (loading ++ later)).1 (measured (loading ++ later)).2 := by
  refine Traced.run (.start ⟨system_fresh, rfl, rfl⟩) ?_
  exact ⟨trivial, rfl, trivial, rfl, unloads_of_calm rfl, rfl, unloads_of_calm rfl, rfl, unloads_of_calm rfl, rfl,
    unloads_of_calm rfl, rfl, unloads_of_calm rfl, rfl, unloads_of_calm rfl, rfl, permits⟩

theorem queuedAgain_metered : Traced SimulatedGpuRuntime.runtime (fun _ => 0) (meter SimulatedGpuRuntime.runtime) Unmetered
    (fun s action => s.Unloads SimulatedGpuRuntime.runtime action) (measured queuedAgain).1 (measured queuedAgain).2 :=
  metered_loading ⟨trivial, rfl, unloads_of_calm rfl, rfl, trivial, rfl, trivial⟩

theorem withdrawn_metered : Traced SimulatedGpuRuntime.runtime (fun _ => 0) (meter SimulatedGpuRuntime.runtime) Unmetered
    (fun s action => s.Unloads SimulatedGpuRuntime.runtime action) (measured withdrawn).1 (measured withdrawn).2 :=
  metered_loading ⟨trivial, rfl, trivial, rfl, trivial⟩

theorem unloadedElsewhere_metered : Traced SimulatedGpuRuntime.runtime (fun _ => 0) (meter SimulatedGpuRuntime.runtime) Unmetered
    (fun s action => s.Unloads SimulatedGpuRuntime.runtime action) (measured unloadedElsewhere).1
    (measured unloadedElsewhere).2 :=
  metered_loading ⟨trivial, rfl, unloads_of_calm rfl, rfl, trivial, rfl, unloads_of_calm rfl, rfl, unloads_of_calm rfl, rfl, trivial⟩

end Sample

open Sample in
/-- Between the scan and a model's turn: a request enters its queue, and the turn
raises; it is withdrawn, and the sort raises; it is unloaded by another call, and
is counted all the same. -/
theorem disturbed_eviction_raises :
    (∃ s log, Traced SimulatedGpuRuntime.runtime (fun _ => 0) (meter SimulatedGpuRuntime.runtime) Unmetered (fun s action => s.Unloads SimulatedGpuRuntime.runtime action) s log ∧
      s.calls.get? 1 = some (.sweeping ["model"]) ∧
      (s.host.advance SimulatedGpuRuntime.runtime Sample.readings (.sweeping ["model"])).1 =
        .raises (runtimeError "cannot unload a model with queued requests")) ∧
    (∃ s log, Traced SimulatedGpuRuntime.runtime (fun _ => 0) (meter SimulatedGpuRuntime.runtime) Unmetered (fun s action => s.Unloads SimulatedGpuRuntime.runtime action) s log ∧
      s.calls.get? 1 = some (.sorting ["model"]) ∧
      (s.host.advance SimulatedGpuRuntime.runtime { Sample.readings with lastUsed := s.host.worker.modelLastUsed.get? }
        (.sorting ["model"])).1 = .raises (keyError "model")) ∧
    ∃ s log, Traced SimulatedGpuRuntime.runtime (fun _ => 0) (meter SimulatedGpuRuntime.runtime) Unmetered (fun s action => s.Unloads SimulatedGpuRuntime.runtime action) s log ∧
      s.calls.get? 1 = some (.sweeping []) ∧
      (s.host.advance SimulatedGpuRuntime.runtime Sample.readings (.sweeping [])).1 = .returns ∧
      log.unloaded 1 = [] ∧ log.modelEvictions = 0 ∧
      (s.meter SimulatedGpuRuntime.runtime log (.advance 1 Sample.readings)).modelEvictions = 1 := by
  refine ⟨⟨(measured queuedAgain).1, (measured queuedAgain).2, queuedAgain_metered, ?_, ?_⟩,
    ⟨(measured withdrawn).1, (measured withdrawn).2, withdrawn_metered, ?_, ?_⟩,
    ⟨(measured unloadedElsewhere).1, (measured unloadedElsewhere).2, unloadedElsewhere_metered, ?_, ?_, ?_, ?_, ?_⟩⟩
  all_goals rfl

end WorkerSystem

end ServingPlatform
