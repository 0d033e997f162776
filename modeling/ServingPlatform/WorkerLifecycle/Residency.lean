import ServingPlatform.WorkerLifecycle.Claims

namespace ServingPlatform

namespace CallPlace

/-- Whether the call loads, unloads or evicts models. -/
def managesModels : CallPlace → Bool
  | .waiting .. | .evicting .. | .checking .. | .adding .. | .warming .. | .publishing .. | .recovering .. | .restoring ..
  | .closing .. | .unloading .. | .puttingBack .. | .sorting .. | .sweeping .. => true
  | _ => false

/-- Whether the runtime has loaded the model that the call is loading. -/
def broughtIn : CallPlace → Bool
  | .warming .. | .publishing .. => true
  | _ => false

theorem owned_of_not_managesModels {place : CallPlace} (other : place.managesModels = false) : place.owned = [] := by
  cases place <;> first | rfl | cases other

end CallPlace

namespace CallOutcome

def owned : CallOutcome → List String
  | .proceeds place => place.owned
  | _ => []

theorem after_owned (failure : Option Raised) (later : Option (List String)) :
    (CallOutcome.after failure (later.map .sweeping)).owned = [] := by
  cases failure <;> cases later <;> rfl

end CallOutcome

namespace WorkerSystem

open CallPlace Exclusive

variable {idleEvictionSeconds : ModelDefinition → Seconds} {s s' : WorkerSystem SimulatedGpuRuntime} {call : Nat}
  {h : WorkerHost SimulatedGpuRuntime} {outcome : CallOutcome} {place old : CallPlace} {readings : WorkerReadings}
  {action : WorkerAction} {modelId : String}

def loaded (s : WorkerSystem SimulatedGpuRuntime) : List String := s.host.runtime.loaded

/-- A failed load gives nothing up that is loaded: no warm-up fails for a model
that is loaded, and the handler is not stopped by an error while a model that
was to be evicted is still loaded. -/
def Thorough (s : WorkerSystem SimulatedGpuRuntime) : WorkerAction → Prop
  | .advance call readings => ∀ place, s.calls.get? call = some place →
    match place with
    | .warming load => ∀ raised, readings.call (s.host.runtime.warmupModel load.model.modelId) = .error raised →
        load.model.modelId ∉ s.loaded
    | .restoring _ unloaded (e :: rest) _ => ∀ raised, readings.call (s.host.runtime.isModelLoaded e.1) = .error raised →
        ∀ other ∈ e :: rest, other.1 ∈ unloaded.map Prod.fst
    | _ => True
  | _ => True

/-- The loaded models are the resident ones and those in the hands of a call. -/
structure Mirrored (s : WorkerSystem SimulatedGpuRuntime) : Prop where
  resident : ∀ modelId ∈ s.host.worker.residentModels, modelId ∈ s.loaded
  known : ∀ modelId ∈ s.loaded, modelId ∈ s.host.worker.residentModels ∨
    ∃ c place, s.calls.get? c = some place ∧ modelId ∈ place.owned
  removing : ∀ {c place}, s.calls.get? c = some place → ∀ modelId ∈ place.removing, modelId ∈ s.loaded
  bringing : ∀ {c place}, s.calls.get? c = some place → ∀ modelId ∈ place.bringing,
    (modelId ∈ s.loaded ↔ place.broughtIn = true)
  givenUp : ∀ {c load raised}, s.calls.get? c = some (.closing load (some raised)) → load.model.modelId ∉ s.loaded

/-- What a section makes of the loaded models. -/
structure Tracks (s : WorkerSystem SimulatedGpuRuntime) (call : Nat) (result : CallOutcome × WorkerHost SimulatedGpuRuntime) :
    Prop where
  resident : ∀ modelId ∈ result.2.worker.residentModels, modelId ∈ result.2.runtime.loaded
  known : ∀ modelId ∈ result.2.runtime.loaded, modelId ∈ result.2.worker.residentModels ∨ modelId ∈ result.1.owned ∨
    ∃ c place, c ≠ call ∧ s.calls.get? c = some place ∧ modelId ∈ place.owned
  others : ∀ modelId, (modelId ∈ result.2.runtime.loaded ↔ modelId ∈ s.loaded) ∨
    ∃ old, s.calls.get? call = some old ∧ modelId ∈ old.owned
  place : ∀ {place}, result.1 = .proceeds place → (∀ modelId ∈ place.removing, modelId ∈ result.2.runtime.loaded) ∧
    (∀ modelId ∈ place.bringing, (modelId ∈ result.2.runtime.loaded ↔ place.broughtIn = true)) ∧
    ∀ load raised, place = .closing load (some raised) → load.model.modelId ∉ result.2.runtime.loaded

theorem Mirrored.start (fresh : s.Fresh) (none : s.loaded = []) : s.Mirrored where
  resident modelId member := by
    rw [fresh.residentModels] at member
    cases member
  known modelId member := by
    rw [none] at member
    cases member
  removing found := by
    rw [fresh.calls] at found
    cases found
  bringing found := by
    rw [fresh.calls] at found
    cases found
  givenUp found := by
    rw [fresh.calls] at found
    cases found

theorem Mirrored.settle (mirrored : s.Mirrored) (claims : s.Claims)
    {result : CallOutcome × WorkerHost SimulatedGpuRuntime} (tracks : Tracks s call result) :
    (s.settle call result).Mirrored := by
  have host : (s.settle call result).host = result.2 := by
    obtain ⟨outcome, h⟩ := result
    cases outcome <;> rfl
  have loaded : (s.settle call result).loaded = result.2.runtime.loaded := by
    unfold WorkerSystem.loaded
    rw [host]
  have places : ∀ {c place}, (s.settle call result).calls.get? c = some place →
      c ≠ call ∧ s.calls.get? c = some place ∨ c = call ∧ result.1 = .proceeds place := by
    intro c place found
    obtain ⟨outcome, h⟩ := result
    have erased : (s.calls.erase call).get? c = some place → c ≠ call ∧ s.calls.get? c = some place := by
      intro found
      rw [Dict.get?_erase] at found
      split at found
      · cases found
      · exact ⟨‹_›, found⟩
    cases outcome with
    | proceeds next =>
      change (s.calls.insert call next).get? c = some place at found
      rw [Dict.get?_insert] at found
      split at found
      · cases found
        exact Or.inr ⟨‹_›, rfl⟩
      · exact Or.inl ⟨‹_›, found⟩
    | returns => exact Or.inl (erased found)
    | raises raised => exact Or.inl (erased found)
  have stay : ∀ {c place}, s.calls.get? c = some place → c ≠ call →
      (s.settle call result).calls.get? c = some place := by
    intro c place found differ
    obtain ⟨outcome, h⟩ := result
    cases outcome with
    | proceeds next => exact (Dict.get?_insert_of_ne differ).trans found
    | returns => exact (Dict.get?_erase_of_ne differ).trans found
    | raises raised => exact (Dict.get?_erase_of_ne differ).trans found
  refine ⟨?_, ?_, ?_, ?_, ?_⟩
  · rw [loaded, host]
    exact tracks.resident
  · rw [loaded, host]
    intro modelId member
    rcases tracks.known modelId member with resident | own | ⟨c, place, differ, found, owns⟩
    · exact Or.inl resident
    · obtain ⟨outcome, h⟩ := result
      cases outcome with
      | proceeds place => exact Or.inr ⟨call, place, Dict.get?_insert_self, own⟩
      | returns => cases own
      | raises raised => cases own
    · exact Or.inr ⟨c, place, stay found differ, owns⟩
  · intro c place found modelId removes
    rw [loaded]
    rcases places found with ⟨differ, before⟩ | ⟨rfl, proceeds⟩
    · rcases tracks.others modelId with iff | ⟨old, held, owns⟩
      · exact iff.mpr (mirrored.removing before modelId removes)
      · exact absurd (List.mem_append_right _ removes) (claims.exclusive.apart held before (Ne.symm differ) modelId owns)
    · exact (tracks.place proceeds).1 modelId removes
  · intro c place found modelId brings
    rw [loaded]
    rcases places found with ⟨differ, before⟩ | ⟨rfl, proceeds⟩
    · rcases tracks.others modelId with iff | ⟨old, held, owns⟩
      · exact iff.trans (mirrored.bringing before modelId brings)
      · exact absurd (List.mem_append_left _ brings) (claims.exclusive.apart held before (Ne.symm differ) modelId owns)
    · exact (tracks.place proceeds).2.1 modelId brings
  · intro c load raised found
    rw [loaded]
    rcases places found with ⟨differ, before⟩ | ⟨rfl, proceeds⟩
    · rcases tracks.others load.model.modelId with iff | ⟨old, held, owns⟩
      · exact fun member => mirrored.givenUp before (iff.mp member)
      · rcases List.mem_append.mp owns with brings | removes
        · exact absurd (claims.single before held rfl (loads_of_bringing brings)) differ
        · exact absurd (mirrored.removing held _ removes) (mirrored.givenUp before)
    · exact (tracks.place proceeds).2.2 load raised rfl

section Sections

variable (mirrored : s.Mirrored)

include mirrored

/-- The models that others own are as before; those that were resident or in the hands of the call are accounted for. -/
theorem Tracks.of_loaded {result : CallOutcome × WorkerHost SimulatedGpuRuntime} (same : result.2.runtime.loaded = s.loaded)
    (resident : ∀ modelId ∈ result.2.worker.residentModels, modelId ∈ s.loaded)
    (kept : ∀ modelId ∈ s.host.worker.residentModels, modelId ∈ result.2.worker.residentModels ∨ modelId ∈ result.1.owned)
    (owned : ∀ old, s.calls.get? call = some old → ∀ modelId ∈ old.owned, modelId ∈ s.loaded →
      modelId ∈ result.2.worker.residentModels ∨ modelId ∈ result.1.owned)
    (place : ∀ {place}, result.1 = .proceeds place → (∀ modelId ∈ place.removing, modelId ∈ s.loaded) ∧
      (∀ modelId ∈ place.bringing, (modelId ∈ s.loaded ↔ place.broughtIn = true)) ∧
      ∀ load raised, place = .closing load (some raised) → load.model.modelId ∉ s.loaded) : Tracks s call result := by
  refine ⟨?_, ?_, ?_, ?_⟩
  · rw [same]
    exact resident
  · rw [same]
    intro modelId member
    rcases mirrored.known modelId member with before | ⟨c, place, found, owns⟩
    · exact (kept modelId before).imp_right Or.inl
    · by_cases here : c = call
      · subst here
        exact (owned place found modelId owns member).imp_right Or.inl
      · exact Or.inr (Or.inr ⟨c, place, here, found, owns⟩)
  · rw [same]
    exact fun modelId => Or.inl Iff.rfl
  · rw [same]
    exact place

/-- A section that leaves the models alone; the place that it leads to owns what the call owned. -/
theorem Tracks.of_kept {result : CallOutcome × WorkerHost SimulatedGpuRuntime} (same : result.2.runtime.loaded = s.loaded)
    (resident : result.2.worker.residentModels = s.host.worker.residentModels)
    (owned : ∀ old, s.calls.get? call = some old → ∀ modelId ∈ old.owned, modelId ∈ s.loaded → modelId ∈ result.1.owned)
    (place : ∀ {place}, result.1 = .proceeds place → (∀ modelId ∈ place.removing, modelId ∈ s.loaded) ∧
      (∀ modelId ∈ place.bringing, (modelId ∈ s.loaded ↔ place.broughtIn = true)) ∧
      ∀ load raised, place = .closing load (some raised) → load.model.modelId ∉ s.loaded) : Tracks s call result := by
  refine Tracks.of_loaded mirrored same ?_ ?_ ?_ place
  · rw [resident]
    exact mirrored.resident
  · rw [resident]
    exact fun modelId member => Or.inl member
  · exact fun old found modelId owns member => Or.inr (owned old found modelId owns member)

/-- A section of a call that owns nothing, before and after. -/
theorem Tracks.of_calm {result : CallOutcome × WorkerHost SimulatedGpuRuntime}
    (same : result.2.runtime.loaded = s.loaded)
    (resident : result.2.worker.residentModels = s.host.worker.residentModels)
    (before : ∀ old, s.calls.get? call = some old → old.owned = [])
    (place : ∀ {place}, result.1 = .proceeds place → place.owned = [] ∧ ∀ load raised, place ≠ .closing load (some raised)) :
    Tracks s call result := by
  refine Tracks.of_kept mirrored same resident (fun old found modelId owns => ?_) fun proceeds => ?_
  · rw [before old found] at owns
    cases owns
  · obtain ⟨none, quiet⟩ := place proceeds
    obtain ⟨brings, removes⟩ := List.append_eq_nil_iff.mp none
    rw [brings, removes]
    exact ⟨fun _ member => (by cases member), fun _ member => (by cases member), fun load raised here =>
      absurd here (quiet load raised)⟩

/-- A load that goes ahead is for a model that is not loaded. -/
theorem Tracks.goAhead (claims : s.Claims) (before : ∀ old, s.calls.get? call = some old → old.owned = [])
    {entered : ManagedWorker} {model : ModelDefinition} (joins : entered = s.host.worker ∨ entered.accepting = true ∧
      model.modelId ∉ entered.residentModels ∧ model.modelId ∈ entered.loadingModels)
    (unclaimed : entered.accepting = true → model.modelId ∉ s.host.worker.residentModels →
      model.modelId ∉ s.host.worker.loadingModels ∧ s.NotRemoved model.modelId) :
    Tracks s call (s.host.goAhead SimulatedGpuRuntime.runtime entered model readings) := by
  rcases s.host.goAhead_cases SimulatedGpuRuntime.runtime readings joins with
    ⟨outcome, w, run, ends, same, -⟩ | ⟨evictions, attempt, w, capacity, run, accepts, absent, planned, resident, -, -⟩
  · rw [run]
    exact Tracks.of_calm mirrored rfl (congrArg Prod.fst same) before fun proceeds => absurd proceeds (ends _)
  obtain ⟨quiet, apart⟩ := unclaimed accepts absent
  obtain ⟨-, chosen⟩ := ManagedWorker.planEvictions_spec planned claims.distinct
  have unloaded : model.modelId ∉ s.loaded := by
    intro member
    rcases mirrored.known _ member with held | ⟨c, place, found, owns⟩
    · exact absent held
    · rcases List.mem_append.mp owns with brings | removes
      · exact quiet (claims.loading found (loads_of_bringing brings))
      · exact apart c place found removes
  rw [run]
  refine Tracks.of_loaded mirrored rfl ?_ ?_ ?_ ?_
  · intro modelId member
    change modelId ∈ w.residentModels at member
    rw [resident] at member
    exact mirrored.resident modelId (List.mem_filter.mp member).1
  · intro modelId member
    by_cases evicted : modelId ∈ evictions.map Prod.fst
    · exact Or.inr (List.mem_cons_of_mem _ evicted)
    · left
      change modelId ∈ w.residentModels
      rw [resident]
      refine List.mem_filter.mpr ⟨member, ?_⟩
      simp only [List.all_eq_true, decide_eq_true_eq]
      rintro e inside rfl
      exact evicted (List.mem_map_of_mem inside)
  · intro old found modelId owns
    rw [before old found] at owns
    cases owns
  · rintro _ ⟨⟩
    refine ⟨fun modelId member => ?_, fun modelId member => ?_, fun load raised same => by cases same⟩
    · obtain ⟨e, inside, rfl⟩ := List.mem_map.mp member
      exact mirrored.resident e.1 (chosen e inside).1
    · obtain rfl := List.mem_singleton.mp member
      exact ⟨fun member => absurd member unloaded, fun brought => by cases brought⟩

theorem Tracks.beginUnload (before : ∀ old, s.calls.get? call = some old → old.owned = []) (modelId : String)
    (later : Option (List String)) : Tracks s call (s.host.beginUnload modelId later) := by
  unfold WorkerHost.beginUnload
  split
  · exact Tracks.of_calm mirrored rfl rfl before fun same => by cases same
  split
  · refine Tracks.of_calm mirrored rfl rfl before fun same => ?_
    cases later with
    | none => cases same
    | some rest =>
      cases same
      exact ⟨rfl, fun load raised same => by cases same⟩
  rename_i resident
  rw [not_not] at resident
  refine Tracks.of_loaded mirrored rfl ?_ ?_ ?_ ?_
  · exact fun other member => mirrored.resident other (List.mem_filter.mp member).1
  · intro other member
    by_cases same : other = modelId
    · exact Or.inr (List.mem_singleton.mpr same)
    · exact Or.inl (List.mem_filter.mpr ⟨member, decide_eq_true same⟩)
  · intro old found other owns
    rw [before old found] at owns
    cases owns
  · rintro _ ⟨⟩
    refine ⟨fun other member => ?_, fun other member => (by cases member), fun load raised same => by cases same⟩
    obtain rfl := List.mem_singleton.mp member
    exact mirrored.resident other resident

/-- A section that has nothing to do with models. -/
theorem Tracks.atOnce {α : Type} {m : Attempt Raised WorkerProcess α}
    (before : ∀ old, s.calls.get? call = some old → old.owned = [])
    (same : (m s.host.process).2.worker.modelState = s.host.worker.modelState) : Tracks s call (s.host.atOnce m) := by
  have resident : (m s.host.process).2.worker.residentModels = s.host.worker.residentModels := congrArg Prod.fst same
  unfold WorkerHost.atOnce
  rcases run : m s.host.process with ⟨raised | done, process⟩ <;> rw [run] at resident <;>
    exact Tracks.of_calm mirrored rfl resident before fun proceeds => by cases proceeds

theorem Tracks.begin (claims : s.Claims) (free : s.calls.get? call = none) {request : WorkerRequest}
    (careful : Careful SimulatedGpuRuntime.runtime s (.start call request readings))
    (serving : Serving (.start call request readings)) :
    Tracks s call (s.host.begin SimulatedGpuRuntime.runtime idleEvictionSeconds readings request) := by
  have before : ∀ old, s.calls.get? call = some old → old.owned = [] := by
    intro old found
    rw [free] at found
    cases found
  cases request with
  | loadModel model =>
    unfold WorkerHost.begin
    dsimp only
    split
    · exact Tracks.of_calm mirrored rfl rfl before fun same => by
        cases same
        exact ⟨rfl, fun load raised same => by cases same⟩
    · rename_i alone
      refine Tracks.goAhead mirrored claims before (Or.inl rfl) fun accepts absent => ?_
      have quiet : model.modelId ∉ s.host.worker.loadingModels := fun joined => alone ⟨accepts, absent, joined⟩
      exact ⟨quiet, careful accepts absent quiet⟩
  | unloadModel modelId => exact Tracks.beginUnload mirrored before modelId none
  | evictIdleModels =>
    unfold WorkerHost.begin
    dsimp only
    split
    · exact Tracks.of_calm mirrored rfl rfl before fun same => by cases same
    · exact Tracks.of_calm mirrored rfl rfl before fun same => by
        cases same
        exact ⟨rfl, fun load raised same => by cases same⟩
  | enqueueRequest i => exact Tracks.atOnce mirrored before (ManagedWorker.enqueueRequest_frame i _ _).1
  | cancelRequest requestId => exact Tracks.atOnce mirrored before (ManagedWorker.cancelRequest_frame requestId _ _).1
  | executeBatch =>
    have same := congrArg Prod.fst (ManagedWorker.beginBatch_modelState readings.now s.host.process).1
    unfold WorkerHost.begin
    dsimp only
    split
    · rename_i run
      rw [run] at same
      exact Tracks.of_calm mirrored rfl same before fun proceeds => by cases proceeds
    · rename_i run
      rw [run] at same
      exact Tracks.of_calm mirrored rfl same before fun proceeds => by cases proceeds
    · rename_i run
      rw [run] at same
      exact Tracks.of_calm mirrored rfl same before fun proceeds => by
        cases proceeds
        exact ⟨rfl, fun load raised same => by cases same⟩
  | register =>
    unfold WorkerHost.begin
    dsimp only
    split
    · exact Tracks.of_calm mirrored rfl rfl before fun same => by cases same
    split <;> exact Tracks.of_calm mirrored rfl rfl before fun same => by cases same
  | drain =>
    unfold WorkerHost.begin
    dsimp only
    split <;> exact Tracks.of_calm mirrored rfl rfl before fun same => by cases same
  | shutdown => exact serving.elim

/-- A model that a call has withdrawn is unloaded; the call keeps the rest of what it owns. -/
theorem Tracks.unload (claims : s.Claims) (found : s.calls.get? call = some old) (removes : modelId ∈ old.removing)
    {after : SimulatedGpuRuntime} (unloaded : s.host.runtime.unloadModel modelId = .ok after)
    (owned : ∀ other ∈ old.owned, other ≠ modelId → other ∈ outcome.owned)
    (place : ∀ {place}, outcome = .proceeds place → (∀ other ∈ place.removing, other ∈ old.removing ∧ other ≠ modelId) ∧
      (∀ other ∈ place.bringing, other ∈ old.bringing ∧ place.broughtIn = old.broughtIn) ∧
      ∀ load raised, place ≠ .closing load (some raised)) : Tracks s call (outcome, { s.host with runtime := after }) := by
  have gone : ∀ other, other ∈ after.loaded ↔ other ∈ s.loaded ∧ other ≠ modelId := fun other =>
    SimulatedGpuRuntime.mem_of_unloadModel unloaded
  have mine : modelId ∈ old.owned := List.mem_append_right _ removes
  refine ⟨?_, ?_, ?_, ?_⟩
  · intro other member
    refine (gone other).mpr ⟨mirrored.resident other member, ?_⟩
    rintro rfl
    exact claims.exclusive.free found other mine member
  · intro other member
    obtain ⟨held, differ⟩ := (gone other).mp member
    rcases mirrored.known other held with resident | ⟨c, place, known, owns⟩
    · exact Or.inl resident
    · by_cases here : c = call
      · subst here
        cases found.symm.trans known
        exact Or.inr (Or.inl (owned other owns differ))
      · exact Or.inr (Or.inr ⟨c, place, here, known, owns⟩)
  · intro other
    by_cases same : other = modelId
    · exact Or.inr ⟨old, found, same ▸ mine⟩
    · exact Or.inl ((gone other).trans (and_iff_left same))
  · intro next proceeds
    obtain ⟨removing, bringing, quiet⟩ := place proceeds
    refine ⟨?_, ?_, fun load raised same => absurd same (quiet load raised)⟩
    · intro other member
      obtain ⟨before, differ⟩ := removing other member
      exact (gone other).mpr ⟨mirrored.removing found other before, differ⟩
    · intro other member
      obtain ⟨before, same⟩ := bringing other member
      have differ : other ≠ modelId := by
        rintro rfl
        exact (List.nodup_append.mp (claims.exclusive.nodup found)).2.2 other before other removes rfl
      rw [same, ← mirrored.bringing found other before]
      exact (gone other).trans (and_iff_left differ)

/-- The handler of a failed load, for one of the models that were to be evicted. -/
theorem Tracks.restore {load : ModelLoad} {unloaded rest : List (String × ModelDefinition)}
    {e : String × ModelDefinition} {raised : Raised}
    (found : s.calls.get? call = some (.restoring load unloaded (e :: rest) raised))
    (thorough : ∀ raised, readings.call (s.host.runtime.isModelLoaded e.1) = .error raised →
      ∀ other ∈ e :: rest, other.1 ∈ unloaded.map Prod.fst) :
    Tracks s call (s.host.advance SimulatedGpuRuntime.runtime readings (.restoring load unloaded (e :: rest) raised)) := by
  have absent : load.model.modelId ∉ s.loaded := fun member => by
    have brought := (mirrored.bringing found _ (List.mem_singleton_self _)).mp member
    cases brought
  have answered : ∀ {answer}, readings.call (s.host.runtime.isModelLoaded e.1) = .ok answer →
      (answer = true ↔ e.1 ∈ s.loaded) := by
    intro answer run
    unfold WorkerReadings.call at run
    split at run
    · cases run
    · exact SimulatedGpuRuntime.isModelLoaded_iff run
  have next : (∀ modelId ∈ (CallPlace.restoring load unloaded rest raised).removing, modelId ∈ s.loaded) ∧
      (∀ modelId ∈ (CallPlace.restoring load unloaded rest raised).bringing,
        (modelId ∈ s.loaded ↔ (CallPlace.restoring load unloaded rest raised).broughtIn = true)) ∧
      ∀ other failure, CallPlace.restoring load unloaded rest raised = .closing other (some failure) →
        other.model.modelId ∉ s.loaded := by
    refine ⟨fun modelId member => ?_, fun modelId member => ?_, fun other failure same => by cases same⟩
    · refine mirrored.removing found modelId ?_
      obtain ⟨inside, kept⟩ := List.mem_filter.mp member
      exact List.mem_filter.mpr ⟨List.mem_cons_of_mem _ inside, kept⟩
    · exact mirrored.bringing found modelId member
  -- of what the call owns only the model in question is no longer its own
  have rests : ∀ modelId ∈ (CallPlace.restoring load unloaded (e :: rest) raised).owned,
      modelId = e.1 ∨ modelId ∈ (CallPlace.restoring load unloaded rest raised).owned := by
    intro modelId owns
    rcases List.mem_append.mp owns with brings | removes
    · exact Or.inr (List.mem_append_left _ brings)
    · obtain ⟨inside, kept⟩ := List.mem_filter.mp removes
      rcases List.mem_cons.mp inside with same | later
      · exact Or.inl same
      · exact Or.inr (List.mem_append_right _ (List.mem_filter.mpr ⟨later, kept⟩))
  unfold WorkerHost.advance
  dsimp only [SimulatedGpuRuntime.runtime]
  split
  · rename_i other failed
    refine Tracks.of_kept mirrored rfl rfl (fun old held modelId owns member => ?_) fun proceeds => ?_
    · cases found.symm.trans held
      rcases List.mem_append.mp owns with brings | removes
      · obtain rfl := List.mem_singleton.mp brings
        exact absurd member absent
      · obtain ⟨inside, kept⟩ := List.mem_filter.mp removes
        obtain ⟨e', listed, rfl⟩ := List.mem_map.mp inside
        have gone := thorough other failed e' listed
        simp [gone] at kept
    · cases proceeds
      refine ⟨fun _ member => (by cases member), fun _ member => (by cases member), ?_⟩
      rintro _ _ ⟨⟩
      exact absent
  · rename_i run
    have loaded : e.1 ∈ s.loaded := (answered run).mp rfl
    refine Tracks.of_loaded mirrored rfl ?_ ?_ ?_ fun proceeds => ?_
    · intro modelId member
      rcases List.mem_insert_iff.mp member with rfl | before
      · exact loaded
      · exact mirrored.resident modelId before
    · exact fun modelId member => Or.inl (List.mem_insert_of_mem member)
    · intro old held modelId owns _
      cases found.symm.trans held
      rcases rests modelId owns with rfl | later
      · exact Or.inl List.mem_insert_self
      · exact Or.inr later
    · cases proceeds
      exact next
  · rename_i run
    refine Tracks.of_kept mirrored rfl rfl (fun old held modelId owns member => ?_) fun proceeds => ?_
    · cases found.symm.trans held
      rcases rests modelId owns with rfl | later
      · have loaded := (answered run).mpr member
        cases loaded
      · exact later
    · cases proceeds
      exact next

/-- A call that is loading a model goes on and owns what it owned. -/
theorem Tracks.of_same (found : s.calls.get? call = some old) (place : CallPlace) (owned : place.owned = old.owned)
    (bringing : place.bringing = old.bringing) (removing : place.removing = old.removing)
    (brought : place.broughtIn = old.broughtIn) (quiet : ∀ load raised, place ≠ .closing load (some raised))
    {h : WorkerHost SimulatedGpuRuntime} (same : h.runtime = s.host.runtime)
    (resident : h.worker.residentModels = s.host.worker.residentModels) : Tracks s call (.proceeds place, h) := by
  refine Tracks.of_kept mirrored (congrArg SimulatedGpuRuntime.loaded same) resident (fun old' held modelId owns _ => ?_)
    fun proceeds => ?_
  · cases found.symm.trans held
    change modelId ∈ place.owned
    rw [owned]
    exact owns
  · cases proceeds
    rw [bringing, removing, brought]
    exact ⟨mirrored.removing found, mirrored.bringing found, fun load raised here => absurd here (quiet load raised)⟩

/-- A load that its runtime refuses, so that its model is not loaded. -/
theorem Tracks.refused (found : s.calls.get? call = some old) {load : ModelLoad}
    {unloaded : List (String × ModelDefinition)} {raised : Raised} (brings : old.bringing = [load.model.modelId])
    (removes : (CallPlace.recovering load unloaded raised).removing = old.removing)
    (absent : load.model.modelId ∉ s.loaded) : Tracks s call (.proceeds (.recovering load unloaded raised), s.host) := by
  refine Tracks.of_kept mirrored rfl rfl (fun old' held modelId owns _ => ?_) fun proceeds => ?_
  · cases found.symm.trans held
    unfold owned at owns
    rw [brings, ← removes] at owns
    exact owns
  · cases proceeds
    rw [removes]
    refine ⟨mirrored.removing found, fun modelId member => ?_, fun load raised same => by cases same⟩
    obtain rfl := List.mem_singleton.mp member
    exact ⟨fun member => absurd member absent, fun brought => by cases brought⟩

theorem Tracks.advance (claims : s.Claims) (found : s.calls.get? call = some old)
    (careful : Careful SimulatedGpuRuntime.runtime s (.advance call readings)) (thorough : Thorough s (.advance call readings)) :
    Tracks s call (s.host.advance SimulatedGpuRuntime.runtime readings old) := by
  have coherent := claims.coherent found
  have removed := mirrored.removing found
  have brought := mirrored.bringing found
  have nothing : old.owned = [] → ∀ old', s.calls.get? call = some old' → old'.owned = [] := by
    intro none old' held
    cases found.symm.trans held
    exact none
  have gone : ∀ load : ModelLoad, (load.evictions.map Prod.fst).filter (· ∉ load.evictions.map Prod.fst) = [] :=
    fun load => List.filter_eq_nil_iff.mpr fun x member => by simpa using member
  have settled : ∀ {α : Type} {answer : Except Raised α} {value : α}, readings.call answer = .ok value → answer = .ok value := by
    intro α answer value run
    unfold WorkerReadings.call at run
    split at run
    · cases run
    · exact run
  cases old with
  | waiting model entered =>
    unfold WorkerHost.advance
    dsimp only
    split
    · exact Tracks.of_same mirrored found (.waiting model entered) rfl rfl rfl rfl (fun load raised same => by cases same) rfl rfl
    · rename_i quiet
      exact Tracks.goAhead mirrored claims (nothing rfl) (Or.inr coherent) fun _ absent =>
        ⟨quiet, careful _ found absent quiet⟩
  | evicting load unloaded rest =>
    obtain ⟨split, distinct⟩ := coherent
    have absent : load.model.modelId ∉ s.loaded := fun member => by
      cases (brought _ (List.mem_singleton_self _)).mp member
    cases rest with
    | nil => exact Tracks.of_same mirrored found (.checking load) rfl rfl rfl rfl (fun load raised same => by cases same) rfl rfl
    | cons e rest =>
      have models : ((unloaded ++ e :: rest).map Prod.fst).Nodup := by
        rw [← split]
        exact (List.nodup_cons.mp distinct).2
      have own : ∀ raised, (CallPlace.recovering load unloaded raised).removing = e.1 :: rest.map Prod.fst := by
        intro raised
        have rests := filter_unloaded models
        rw [← split] at rests
        exact rests
      unfold WorkerHost.advance
      dsimp only [SimulatedGpuRuntime.runtime]
      split
      · exact Tracks.refused mirrored found rfl (own _) absent
      · rename_i after run
        have unloads := settled run
        have once : e.1 ∉ rest.map Prod.fst := by
          rw [List.map_append, List.map_cons] at models
          exact (List.nodup_cons.mp (List.nodup_append.mp models).2.1).1
        refine Tracks.unload mirrored claims found List.mem_cons_self unloads (fun other owns differ => ?_) fun proceeds => ?_
        · rcases List.mem_append.mp owns with brings | removes
          · exact List.mem_append_left _ brings
          · exact List.mem_append_right _ ((List.mem_cons.mp removes).resolve_left differ)
        · cases proceeds
          refine ⟨fun other member => ⟨List.mem_cons_of_mem _ member, ?_⟩, fun other member => ⟨member, rfl⟩,
            fun load raised same => by cases same⟩
          rintro rfl
          exact once member
  | checking load =>
    have absent : load.model.modelId ∉ s.loaded := fun member => by
      cases (brought _ (List.mem_singleton_self _)).mp member
    unfold WorkerHost.advance
    dsimp only [SimulatedGpuRuntime.runtime]
    split
    · exact Tracks.refused mirrored found rfl (gone load) absent
    · exact Tracks.of_same mirrored found (.adding load) rfl rfl rfl rfl (fun load raised same => by cases same) rfl rfl
    · rename_i run
      exact absurd ((SimulatedGpuRuntime.checkLoad_loaded (settled run)).mpr rfl) absent
  | adding load =>
    have mem : ∀ other, other ∈ (s.host.runtime.addLoaded load.model.modelId).loaded ↔
        other = load.model.modelId ∨ other ∈ s.loaded := fun _ => SimulatedGpuRuntime.mem_addLoaded
    refine ⟨fun other member => (mem other).mpr (Or.inr (mirrored.resident other member)), ?_, ?_, ?_⟩
    · intro other member
      rcases (mem other).mp member with rfl | before
      · exact Or.inr (Or.inl (List.mem_singleton_self _))
      · rcases mirrored.known other before with resident | ⟨c, place, known, owns⟩
        · exact Or.inl resident
        · by_cases here : c = call
          · subst here
            cases found.symm.trans known
            exact Or.inr (Or.inl owns)
          · exact Or.inr (Or.inr ⟨c, place, here, known, owns⟩)
    · intro other
      by_cases same : other = load.model.modelId
      · exact Or.inr ⟨_, found, List.mem_append_left _ (List.mem_singleton.mpr same)⟩
      · exact Or.inl ((mem other).trans (or_iff_right same))
    · rintro _ ⟨⟩
      refine ⟨fun _ member => (by cases member), fun other member => ?_, fun load raised same => by cases same⟩
      exact ⟨fun _ => rfl, fun _ => (mem other).mpr (Or.inl (List.mem_singleton.mp member))⟩
  | warming load =>
    have loaded : load.model.modelId ∈ s.loaded := (brought _ (List.mem_singleton_self _)).mpr rfl
    unfold WorkerHost.advance
    dsimp only [SimulatedGpuRuntime.runtime]
    split
    · rename_i raised failed
      exact absurd loaded (thorough _ found raised failed)
    · exact Tracks.of_same mirrored found (.publishing load) rfl rfl rfl rfl (fun load raised same => by cases same) rfl rfl
  | publishing load =>
    have loaded : load.model.modelId ∈ s.loaded := (brought _ (List.mem_singleton_self _)).mpr rfl
    refine Tracks.of_loaded mirrored rfl ?_ ?_ ?_ fun proceeds => ?_
    · intro other member
      rcases List.mem_insert_iff.mp member with rfl | before
      · exact loaded
      · exact mirrored.resident other before
    · exact fun other member => Or.inl (List.mem_insert_of_mem member)
    · intro old held other owns _
      cases found.symm.trans held
      obtain rfl := List.mem_singleton.mp owns
      exact Or.inl List.mem_insert_self
    · cases proceeds
      exact ⟨fun _ member => (by cases member), fun _ member => (by cases member), fun load raised same => by cases same⟩
  | recovering load unloaded raised =>
    exact Tracks.of_same mirrored found (.restoring load unloaded load.evictions raised) rfl rfl rfl rfl (fun load raised same => by cases same) rfl rfl
  | restoring load unloaded rest raised =>
    cases rest with
    | nil =>
      have absent : load.model.modelId ∉ s.loaded := fun member => by
        cases (brought _ (List.mem_singleton_self _)).mp member
      refine Tracks.of_kept mirrored rfl rfl (fun old held other owns member => ?_) fun proceeds => ?_
      · cases found.symm.trans held
        obtain rfl := List.mem_singleton.mp owns
        exact absurd member absent
      · cases proceeds
        refine ⟨fun _ member => (by cases member), fun _ member => (by cases member), ?_⟩
        rintro _ _ ⟨⟩
        exact absent
    | cons e rest => exact Tracks.restore mirrored found (thorough _ found)
  | closing load failure =>
    refine Tracks.of_calm mirrored rfl rfl (nothing rfl) fun proceeds => ?_
    cases failure <;> cases proceeds
  | unloading modelId later =>
    unfold WorkerHost.advance
    dsimp only [SimulatedGpuRuntime.runtime]
    split
    · exact Tracks.of_same mirrored found (.puttingBack modelId _) rfl rfl rfl rfl (fun load raised same => by cases same) rfl rfl
    · rename_i after run
      have unloads := settled run
      refine Tracks.unload mirrored claims found (List.mem_singleton_self _) unloads (fun other owns differ => ?_) fun proceeds => ?_
      · exact absurd (List.mem_singleton.mp owns) differ
      · cases later with
        | none => cases proceeds
        | some rest =>
          cases proceeds
          exact ⟨fun _ member => (by cases member), fun _ member => (by cases member), fun load raised same => by cases same⟩
  | puttingBack modelId raised =>
    refine Tracks.of_loaded mirrored rfl ?_ ?_ ?_ fun proceeds => by cases proceeds
    · intro other member
      rcases List.mem_insert_iff.mp member with rfl | before
      · exact removed _ (List.mem_singleton_self _)
      · exact mirrored.resident other before
    · exact fun other member => Or.inl (List.mem_insert_of_mem member)
    · intro old held other owns _
      cases found.symm.trans held
      obtain rfl := List.mem_singleton.mp owns
      exact Or.inl List.mem_insert_self
  | sorting eligible =>
    unfold WorkerHost.advance
    dsimp only
    split
    · exact Tracks.of_calm mirrored rfl rfl (nothing rfl) fun proceeds => by cases proceeds
    · exact Tracks.of_same mirrored found (.sweeping _) rfl rfl rfl rfl (fun load raised same => by cases same) rfl rfl
  | sweeping rest =>
    cases rest with
    | nil => exact Tracks.of_calm mirrored rfl rfl (nothing rfl) fun proceeds => by cases proceeds
    | cons modelId rest => exact Tracks.beginUnload mirrored (nothing rfl) modelId (some rest)
  | running selected =>
    unfold WorkerHost.advance
    dsimp only
    split
    · exact Tracks.of_same mirrored found (.failing selected _) rfl rfl rfl rfl (fun load raised same => by cases same) rfl rfl
    · exact Tracks.of_same mirrored found (.retiring selected none) rfl rfl rfl rfl (fun load raised same => by cases same) rfl rfl
  | failing selected raised =>
    have same := congrArg (fun state => state.1.residentModels)
      (ManagedWorker.closeAll_worker .failed (fun _ => readings.now) selected s.host.process)
    unfold WorkerHost.advance
    dsimp only
    split <;> rename_i run <;> rw [run] at same <;>
      exact Tracks.of_same mirrored found (.retiring selected _) rfl rfl rfl rfl (fun load raised same => by cases same) rfl same
  | retiring selected failure =>
    have same := congrArg Prod.fst (ManagedWorker.retire_frame selected s.host.process).2.2.1
    refine Tracks.of_calm mirrored rfl same (nothing rfl) fun proceeds => ?_
    cases failure with
    | none =>
      cases proceeds
      exact ⟨rfl, fun load raised same => by cases same⟩
    | some raised => cases proceeds
  | completing selected =>
    exact Tracks.atOnce mirrored (nothing rfl) (congrArg (fun state => state.1.modelState)
      (ManagedWorker.closeAll_worker .completed readings.closedAt selected s.host.process))
  | stopping rest => exact coherent.elim
  | unregistering raised => exact coherent.elim

end Sections

theorem Mirrored.act (mirrored : s.Mirrored) (claims : s.Claims) (careful : Careful SimulatedGpuRuntime.runtime s action)
    (thorough : Thorough s action) (serving : Serving action)
    (acts : s.act SimulatedGpuRuntime.runtime idleEvictionSeconds action = some s') : s'.Mirrored := by
  rcases act_cases acts with ⟨call, request, readings, rfl, free, rfl⟩ | ⟨call, readings, place, rfl, found, rfl⟩ |
    ⟨i, target, at_, objects, rfl, moved, rfl⟩
  · exact mirrored.settle claims (Tracks.begin mirrored claims free careful serving)
  · exact mirrored.settle claims (Tracks.advance mirrored claims found careful thorough)
  · exact ⟨mirrored.resident, mirrored.known, mirrored.removing, mirrored.bringing, mirrored.givenUp⟩

/-- A new worker on an empty simulated GPU. -/
def New (s : WorkerSystem SimulatedGpuRuntime) : Prop := s.Fresh ∧ s.loaded = []

/-- While loads keep away from models in other hands and a failed load gives up
no loaded model, the resident models are the loaded ones whenever no call is
loading, unloading or evicting, and a load that raises leaves its model unloaded. -/
theorem residency_matches_runtime
    (reached : Reach SimulatedGpuRuntime.runtime idleEvictionSeconds New
      (fun s action => Careful SimulatedGpuRuntime.runtime s action ∧ Thorough s action ∧ Serving action) s) :
    ((∀ c place, s.calls.get? c = some place → place.managesModels = false) →
      ∀ modelId, modelId ∈ s.host.worker.residentModels ↔ modelId ∈ s.host.runtime.loaded) ∧
    ∀ c load raised, s.calls.get? c = some (.closing load (some raised)) → load.model.modelId ∉ s.host.runtime.loaded := by
  have invariant : s.Claims ∧ s.Mirrored := by
    induction reached with
    | start new => exact ⟨.start new.1, .start new.1 new.2⟩
    | next before allowed acts ih =>
      exact ⟨ih.1.act allowed.1 allowed.2.2 acts, ih.2.act ih.1 allowed.1 allowed.2.1 allowed.2.2 acts⟩
  refine ⟨fun quiet modelId => ⟨invariant.2.resident modelId, fun member => ?_⟩, fun c load raised => invariant.2.givenUp⟩
  rcases invariant.2.known modelId member with resident | ⟨c, place, found, owns⟩
  · exact resident
  · rw [owned_of_not_managesModels (quiet c place found)] at owns
    cases owns

namespace Sample

/-- The model is loaded, and its warm-up fails. -/
def failing : List WorkerAction :=
  [.start 0 .register Sample.readings, .start 0 (.loadModel model) Sample.readings, .advance 0 Sample.readings,
    .advance 0 Sample.readings, .advance 0 Sample.readings, .advance 0 faulty, .advance 0 Sample.readings,
    .advance 0 Sample.readings, .advance 0 Sample.readings]

theorem thorough_of_plain (moves : (s.calls.get? call).all (fun place => plain place && !place.broughtIn) = true) :
    Thorough s (.advance call readings) := by
  intro place found
  rw [found] at moves
  cases place <;> first | exact trivial | cases moves

theorem thorough_of_warm {load : ModelLoad} (found : s.calls.get? call = some (.warming load))
    (warm : readings.call (s.host.runtime.warmupModel load.model.modelId) = .ok ()) : Thorough s (.advance call readings) := by
  intro place held
  cases found.symm.trans held
  intro raised failed
  cases warm.symm.trans failed

end Sample

open Sample in
theorem residency_matches_runtime_sample :
    "model" ∈ (loading.foldl (after SimulatedGpuRuntime.runtime fun _ => 0) system).host.worker.residentModels ↔
      "model" ∈ (loading.foldl (after SimulatedGpuRuntime.runtime fun _ => 0) system).host.runtime.loaded := by
  have reached : Reach SimulatedGpuRuntime.runtime (fun _ => 0) New
      (fun s action => Careful SimulatedGpuRuntime.runtime s action ∧ Thorough s action ∧ Serving action)
      (loading.foldl (after SimulatedGpuRuntime.runtime fun _ => 0) system) := by
    refine Reach.run (.start ⟨system_fresh, rfl⟩) ?_
    refine ⟨⟨trivial, trivial, trivial⟩, rfl, ⟨fun _ _ _ => notRemoved_of_empty rfl, trivial, trivial⟩, rfl, ?_⟩
    refine ⟨⟨careful_of_plain rfl, thorough_of_plain rfl, trivial⟩, rfl, ⟨careful_of_plain rfl, thorough_of_plain rfl, trivial⟩,
      rfl, ⟨careful_of_plain rfl, thorough_of_plain rfl, trivial⟩, rfl, ?_⟩
    refine ⟨⟨careful_of_plain rfl, thorough_of_warm rfl rfl, trivial⟩, rfl, ?_⟩
    refine ⟨⟨careful_of_plain rfl, fun place found => ?_, trivial⟩, rfl,
      ⟨careful_of_plain rfl, thorough_of_plain rfl, trivial⟩, rfl, trivial⟩
    cases found.symm.trans rfl
    exact trivial
  refine (residency_matches_runtime reached).1 (fun c place found => ?_) "model"
  have empty : (loading.foldl (after SimulatedGpuRuntime.runtime fun _ => 0) system).calls = .empty := by rfl
  rw [empty] at found
  cases found

open Sample in
/-- A load whose warm-up fails leaves its model loaded, and not resident. -/
theorem failed_warmup_leaves_model_loaded : ∃ s : WorkerSystem SimulatedGpuRuntime,
    Reach SimulatedGpuRuntime.runtime (fun _ => 0) New (fun _ action => Serving action) s ∧ s.calls = .empty ∧
      "model" ∈ s.host.runtime.loaded ∧ "model" ∉ s.host.worker.residentModels := by
  refine ⟨failing.foldl (after SimulatedGpuRuntime.runtime fun _ => 0) system, ?_, by rfl, by decide, by decide⟩
  refine Reach.run (.start ⟨system_fresh, rfl⟩) ?_
  exact ⟨trivial, rfl, trivial, rfl, trivial, rfl, trivial, rfl, trivial, rfl, trivial, rfl, trivial, rfl, trivial, rfl,
    trivial, rfl, trivial⟩

end WorkerSystem

end ServingPlatform
