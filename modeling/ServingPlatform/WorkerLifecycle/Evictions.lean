import Mathlib.Data.String.Basic
import ServingPlatform.Library.ShortestPrefix
import ServingPlatform.WorkerLifecycle.ModelMoves

namespace ServingPlatform

namespace ManagedWorker

variable {w : ManagedWorker} {objects : Objects} {model : ModelDefinition} {capacity : RuntimeCapacity} {available : Int}

/-- When a model was last used; a model that never was comes first. -/
def usedAt (w : ManagedWorker) (modelId : String) : Seconds := (w.modelLastUsed.get? modelId).getD 0

/-- The memory that evicting a model sets free. -/
def size (e : String × ModelDefinition) : Int := e.2.estimatedMemoryBytes

/-- The resident models that have no queued and no active request, in the order
of the times at which they were last used and of their ids. -/
structure LeastRecentFirst (w : ManagedWorker) (objects : Objects) (order : List (String × ModelDefinition)) : Prop where
  models : (order.map Prod.fst).Perm (w.residentModels.filter fun modelId => !w.inUse objects modelId)
  ordered : order.Pairwise fun a b => w.usedAt a.1 < w.usedAt b.1 ∨ w.usedAt a.1 = w.usedAt b.1 ∧ a.1 ≤ b.1
  defined : ∀ e ∈ order, w.modelDefinitions.get? e.1 = some e.2

/-- Those of some models that are not in use, with their definitions. -/
def evictable (w : ManagedWorker) (objects : Objects) (models : List String) : List (String × ModelDefinition) :=
  models.filterMap fun modelId =>
    if w.inUse objects modelId then none else (w.modelDefinitions.get? modelId).map fun definition => (modelId, definition)

theorem evictable_models {models : List String} (known : ∀ modelId ∈ models, (w.modelDefinitions.get? modelId).isSome = true) :
    (w.evictable objects models).map Prod.fst = models.filter fun modelId => !w.inUse objects modelId := by
  induction models with
  | nil => rfl
  | cons modelId rest ih =>
    obtain ⟨definition, found⟩ := Option.isSome_iff_exists.mp (known modelId List.mem_cons_self)
    have tail := ih fun other member => known other (List.mem_cons_of_mem _ member)
    unfold evictable at tail ⊢
    cases busy : w.inUse objects modelId with
    | true => simp [busy, tail]
    | false => simp [busy, found, tail]

theorem mem_evictable {models : List String} {e : String × ModelDefinition} (member : e ∈ w.evictable objects models) :
    e.1 ∈ models ∧ w.modelDefinitions.get? e.1 = some e.2 := by
  obtain ⟨modelId, inside, found⟩ := List.mem_filterMap.mp member
  split at found
  · cases found
  · obtain ⟨definition, defined, rfl⟩ := Option.map_eq_some_iff.mp found
    exact ⟨inside, defined⟩

theorem evictionOrder_sorted (w : ManagedWorker) :
    w.evictionOrder.Pairwise fun a b => w.usedAt a < w.usedAt b ∨ w.usedAt a = w.usedAt b ∧ a ≤ b := by
  have : Std.Total fun a b : String => w.usedAt a < w.usedAt b ∨ w.usedAt a = w.usedAt b ∧ a ≤ b := by
    refine ⟨fun a b => ?_⟩
    rcases lt_trichotomy (w.usedAt a) (w.usedAt b) with before | same | after
    · exact Or.inl (Or.inl before)
    · exact (le_total a b).imp (fun least => Or.inr ⟨same, least⟩) fun least => Or.inr ⟨same.symm, least⟩
    · exact Or.inr (Or.inl after)
  have : IsTrans String fun a b => w.usedAt a < w.usedAt b ∨ w.usedAt a = w.usedAt b ∧ a ≤ b := by
    refine ⟨fun a b c first second => ?_⟩
    rcases first with before | ⟨same, least⟩ <;> rcases second with before' | ⟨same', least'⟩
    · exact Or.inl (before.trans before')
    · exact Or.inl (same' ▸ before)
    · exact Or.inl (same ▸ before')
    · exact Or.inr ⟨same.trans same', least.trans least'⟩
  exact List.pairwise_insertionSort _ _

/-- The models to choose from, where every resident model has a definition. -/
theorem leastRecentFirst (known : ∀ modelId ∈ w.residentModels, (w.modelDefinitions.get? modelId).isSome = true) :
    w.LeastRecentFirst objects (w.evictable objects w.evictionOrder) := by
  have perm : w.evictionOrder.Perm w.residentModels := List.perm_insertionSort _ _
  refine ⟨?_, ?_, fun e member => (mem_evictable member).2⟩
  · rw [evictable_models fun modelId member => known modelId (perm.mem_iff.mp member)]
    exact perm.filter _
  · refine w.evictionOrder_sorted.filterMap _ fun a b before e first e' second => ?_
    split at first
    · cases first
    split at second
    · cases second
    obtain ⟨_, -, rfl⟩ := Option.map_eq_some_iff.mp first
    obtain ⟨_, -, rfl⟩ := Option.map_eq_some_iff.mp second
    exact before

/-- Models are chosen in turn until the memory suffices; where it never does, all of them have been chosen. -/
theorem chooseEvictions_shortest (w : ManagedWorker) (objects : Objects) {required usable : Int} {models : List String}
    (known : ∀ modelId ∈ models, (w.modelDefinitions.get? modelId).isSome = true) (missing : usable < required) :
    ∃ chosen, w.chooseEvictions objects required models usable = .ok (chosen, usable + (chosen.map size).sum) ∧
      (ShortestPrefix size usable required (w.evictable objects models) chosen ∨
        chosen = w.evictable objects models ∧ usable + (chosen.map size).sum < required) := by
  induction models generalizing usable with
  | nil => exact ⟨[], by simp [chooseEvictions], Or.inr ⟨rfl, by simpa using missing⟩⟩
  | cons modelId rest ih =>
    obtain ⟨definition, found⟩ := Option.isSome_iff_exists.mp (known modelId List.mem_cons_self)
    have later := fun other member => known other (List.mem_cons_of_mem modelId member)
    unfold chooseEvictions
    cases busy : w.inUse objects modelId with
    | true =>
      have same : w.evictable objects (modelId :: rest) = w.evictable objects rest := by simp [evictable, busy]
      rw [same, if_pos rfl]
      exact ih later missing
    | false =>
      have same : w.evictable objects (modelId :: rest) = (modelId, definition) :: w.evictable objects rest := by
        simp [evictable, busy, found]
      rw [same, if_neg Bool.false_ne_true, found]
      dsimp only
      by_cases enough : required ≤ usable + definition.estimatedMemoryBytes
      · rw [if_pos enough]
        refine ⟨[(modelId, definition)], by simp [size], Or.inl (.cons missing (.nil enough))⟩
      · rw [if_neg enough]
        obtain ⟨chosen, run, choice⟩ := ih later (not_le.mp enough)
        have total : usable + definition.estimatedMemoryBytes + (chosen.map size).sum =
            usable + (((modelId, definition) :: chosen).map size).sum := by
          rw [List.map_cons, List.sum_cons, ← add_assoc]
          rfl
        refine ⟨(modelId, definition) :: chosen, ?_, ?_⟩
        · rw [run, ← total]
          rfl
        · rcases choice with shortest | ⟨rfl, short⟩
          · exact Or.inl (shortest.cons missing)
          · exact Or.inr ⟨rfl, total ▸ short⟩

/-- The memory a load may use without evicting anything. -/
def usableMemory (w : ManagedWorker) (available : Int) : Int :=
  available - w.reservedModelMemoryBytes - w.memorySafetyReserveBytes

theorem planEvictions_known (objects : Objects) (model : ModelDefinition) (reported : capacity.availableMemoryBytes = some available)
    (known : ∀ modelId ∈ w.residentModels, (w.modelDefinitions.get? modelId).isSome = true) :
    (model.estimatedMemoryBytes ≤ w.usableMemory available → w.planEvictions objects model capacity = .ok []) ∧
      (model.estimatedMemoryBytes ≤ w.usableMemory available + ((w.evictable objects w.evictionOrder).map size).sum →
        ∃ evictions, w.planEvictions objects model capacity = .ok evictions ∧ ShortestPrefix size (w.usableMemory available)
          model.estimatedMemoryBytes (w.evictable objects w.evictionOrder) evictions) ∧
      (w.usableMemory available + ((w.evictable objects w.evictionOrder).map size).sum < model.estimatedMemoryBytes →
        w.planEvictions objects model capacity = .error ⟨.memoryError, s!"insufficient worker memory for {model.modelId}"⟩) := by
  have perm : w.evictionOrder.Perm w.residentModels := List.perm_insertionSort _ _
  have enough : model.estimatedMemoryBytes ≤ w.usableMemory available → w.planEvictions objects model capacity = .ok [] := by
    intro enough
    unfold planEvictions
    rw [reported]
    exact if_pos enough
  refine ⟨enough, fun reached => ?_, fun short => ?_⟩
  · rcases le_or_gt (model.estimatedMemoryBytes : Int) (w.usableMemory available) with fits | missing
    · exact ⟨[], enough fits, .nil fits⟩
    obtain ⟨chosen, run, choice⟩ := chooseEvictions_shortest w objects
      (fun modelId member => known modelId (perm.mem_iff.mp member)) missing
    have shortest : ShortestPrefix size (w.usableMemory available) model.estimatedMemoryBytes
        (w.evictable objects w.evictionOrder) chosen := by
      rcases choice with shortest | ⟨rfl, short⟩
      · exact shortest
      · omega
    refine ⟨chosen, ?_, shortest⟩
    unfold planEvictions
    rw [reported]
    dsimp only
    unfold usableMemory at missing run shortest
    rw [if_neg (not_le.mpr missing), run]
    exact if_neg (not_lt.mpr shortest.reaches)
  · have nonneg : ∀ e, 0 ≤ size e := fun e => Int.natCast_nonneg _
    have missing : w.usableMemory available < model.estimatedMemoryBytes := by
      have total : 0 ≤ ((w.evictable objects w.evictionOrder).map size).sum := by
        refine List.sum_nonneg fun x member => ?_
        obtain ⟨e, -, rfl⟩ := List.mem_map.mp member
        exact nonneg e
      omega
    obtain ⟨chosen, run, choice⟩ := chooseEvictions_shortest w objects
      (fun modelId member => known modelId (perm.mem_iff.mp member)) missing
    have all : w.usableMemory available + (chosen.map size).sum < model.estimatedMemoryBytes := by
      rcases choice with shortest | ⟨rfl, -⟩
      · have reached := shortest.reached_by_all nonneg
        omega
      · exact short
    unfold planEvictions
    rw [reported]
    dsimp only
    unfold usableMemory at missing run all
    rw [if_neg (not_le.mpr missing), run]
    exact if_pos all

end ManagedWorker

namespace WorkerSystem

open ManagedWorker

variable {ρ : Type} {runtime : ModelRuntime ρ} {idleEvictionSeconds : ModelDefinition → Seconds} {s s' : WorkerSystem ρ}
  {action : WorkerAction} {model : ModelDefinition} {readings : WorkerReadings} {result : CallOutcome × WorkerHost ρ}
  {capacity : RuntimeCapacity} {available : Int}

/-- Every model that is resident, or was withdrawn and may be put back, has a definition. -/
structure Described (s : WorkerSystem ρ) : Prop where
  waits : s.Waits
  resident : ∀ modelId ∈ s.books.resident, (s.books.definitions.get? modelId).isSome = true
  withdrawn : ∀ c modelId, s.role c = .withdrawn modelId → (s.books.definitions.get? modelId).isSome = true

theorem Described.start (fresh : s.Fresh) : s.Described := by
  refine ⟨.start fresh, fun modelId member => ?_, fun c modelId withdrawn => ?_⟩
  · change modelId ∈ s.host.worker.residentModels at member
    rw [fresh.residentModels] at member
    cases member
  · rw [role, fresh.calls] at withdrawn
    cases withdrawn

theorem isSome_insert {definitions : Dict String ModelDefinition} {modelId other : String} {definition : ModelDefinition}
    (known : modelId = other ∨ (definitions.get? modelId).isSome = true) :
    ((definitions.insert other definition).get? modelId).isSome = true := by
  rw [Dict.get?_insert]
  split
  · rfl
  · rename_i differ
    exact known.resolve_left differ

theorem Described.act (described : s.Described) (acts : s.act runtime idleEvictionSeconds action = some s') : s'.Described := by
  obtain ⟨call, move, others, -⟩ := act_moves described.waits acts
  have resident := described.resident
  have here := described.withdrawn call
  have there : ∀ c modelId, c ≠ call → s'.role c = .withdrawn modelId → (s.books.definitions.get? modelId).isSome = true :=
    fun c modelId differ withdrawn => described.withdrawn c modelId ((others c differ).symm.trans withdrawn)
  -- no definition is ever dropped
  have kept : (∀ modelId ∈ s'.books.resident, (s'.books.definitions.get? modelId).isSome = true) ∧
      (∀ modelId, s'.role call = .withdrawn modelId → (s'.books.definitions.get? modelId).isSome = true) ∧
      ∀ modelId, (s.books.definitions.get? modelId).isSome = true → (s'.books.definitions.get? modelId).isSome = true := by
    clear others there
    generalize s.books = b, s'.books = b', s.role call = before, s'.role call = now at *
    cases move with
    | stays => exact ⟨resident, here, fun _ known => known⟩
    | waits => exact ⟨resident, fun _ same => (by cases same), fun _ known => known⟩
    | gives_up => exact ⟨resident, fun _ same => (by cases same), fun _ known => known⟩
    | loads => exact ⟨fun modelId member => resident modelId (List.mem_filter.mp member).1, fun _ same => (by cases same),
        fun _ known => known⟩
    | publishes =>
      refine ⟨fun modelId member => isSome_insert ?_, fun _ same => (by cases same), fun _ known => isSome_insert (Or.inr known)⟩
      exact (List.mem_insert_iff.mp member).imp_right (resident modelId)
    | restores e =>
      refine ⟨fun modelId member => isSome_insert ?_, fun _ same => (by cases same), fun _ known => isSome_insert (Or.inr known)⟩
      exact (List.mem_insert_iff.mp member).imp_right (resident modelId)
    | closes => exact ⟨resident, fun _ same => (by cases same), fun _ known => known⟩
    | withdraws member =>
      refine ⟨fun modelId member => resident modelId (List.mem_filter.mp member).1, fun modelId same => ?_, fun _ known => known⟩
      cases same
      exact resident _ member
    | unloads => exact ⟨resident, fun _ same => (by cases same), fun _ known => known⟩
    | puts_back =>
      refine ⟨fun modelId member => ?_, fun _ same => (by cases same), fun _ known => known⟩
      rcases List.mem_insert_iff.mp member with rfl | before
      · exact here _ rfl
      · exact resident modelId before
    | stops => exact ⟨fun _ member => (by cases member), fun _ same => (by cases same), fun _ known => known⟩
  refine ⟨described.waits.act acts, kept.1, fun c modelId withdrawn => ?_⟩
  rcases eq_or_ne c call with rfl | differ
  · exact kept.2.1 modelId withdrawn
  · exact kept.2.2 modelId (there c modelId differ withdrawn)

theorem Described.reach {Allowed : WorkerSystem ρ → WorkerAction → Prop}
    (reached : Reach runtime idleEvictionSeconds Described Allowed s) : s.Described := by
  induction reached with
  | start described => exact described
  | next before allowed acts ih => exact ih.act acts

/-- The step of a load that decides what to evict: it need not wait, or has
waited for a load that did not fail. -/
inductive Decides (runtime : ModelRuntime ρ) (idleEvictionSeconds : ModelDefinition → Seconds) (s : WorkerSystem ρ)
    (model : ModelDefinition) (readings : WorkerReadings) : CallOutcome × WorkerHost ρ → Prop
  | first : s.host.worker.accepting = true → model.modelId ∉ s.host.worker.loadingModels →
      Decides runtime idleEvictionSeconds s model readings
        (s.host.begin runtime idleEvictionSeconds readings (.loadModel model))
  | woken {call entered} : s.calls.get? call = some (.waiting model entered) →
      model.modelId ∉ s.host.worker.loadingModels →
      ((s.host.worker.loadFailures.get? model.modelId).any fun failure =>
        failure.1 = (entered.loadAttempts.get? model.modelId).getD 0) = false →
      Decides runtime idleEvictionSeconds s model readings (s.host.advance runtime readings (.waiting model entered))

/-- A load goes ahead: the models to evict are withdrawn, and are to be unloaded one after the other. -/
def goesAhead (s : WorkerSystem ρ) (model : ModelDefinition) (evictions : List (String × ModelDefinition)) :
    CallOutcome × WorkerHost ρ :=
  let attempt := (s.host.worker.loadAttempts.get? model.modelId).getD 0 + 1
  (.proceeds (.evicting ⟨model, evictions, attempt⟩ [] evictions), s.host.setWorker (s.host.worker.reserveLoad model evictions))

theorem Decides.planned (decides : s.Decides runtime idleEvictionSeconds model readings result) (waits : s.Waits)
    (absent : model.modelId ∉ s.host.worker.residentModels)
    (answered : readings.call (runtime.capacity s.host.runtime) = .ok capacity) :
    result = match s.host.worker.planEvictions s.host.objects model capacity with
      | .error raised => (.raises raised, s.host)
      | .ok evictions => s.goesAhead model evictions := by
  have ahead : ∀ entered : ManagedWorker, entered = s.host.worker ∨ entered.accepting = true ∧
        model.modelId ∉ entered.residentModels ∧ model.modelId ∈ entered.loadingModels → entered.accepting = true →
      ¬((decide (model.modelId ∈ entered.loadingModels)) = true ∧ (s.host.worker.loadFailures.get? model.modelId).any
        (fun failure => failure.1 = (entered.loadAttempts.get? model.modelId).getD 0) = true) →
      s.host.goAhead runtime entered model readings = match s.host.worker.planEvictions s.host.objects model capacity with
        | .error raised => (.raises raised, s.host)
        | .ok evictions => s.goesAhead model evictions := by
    intro entered joins accepts fresh
    have run := @beginLoad_planned _ _ _ (s.host.loadAnswers runtime readings) _ s.host.objects joins accepts absent fresh answered
    unfold WorkerHost.goAhead
    rw [run]
    cases s.host.worker.planEvictions s.host.objects model capacity <;> rfl
  cases decides with
  | first accepts quiet =>
    unfold WorkerHost.begin
    dsimp only
    rw [if_neg fun joins => quiet joins.2.2]
    exact ahead _ (Or.inl rfl) accepts fun joined => quiet (of_decide_eq_true joined.1)
  | @woken call entered found quiet lasting =>
    have joins := waits call model entered (by rw [role, found]; rfl)
    unfold WorkerHost.advance
    dsimp only
    rw [if_neg quiet]
    refine ahead entered (Or.inr joins) joins.1 fun failed => ?_
    rw [failed.2] at lasting
    cases lasting

/-- From any worker whose resident models have definitions, whatever has
happened since: a load evicts nothing that it need not evict, takes the least
recently used models that are not in use, and changes nothing where even all of
them would not do. -/
theorem load_evicts_shortest_prefix (reached : Reach runtime idleEvictionSeconds Described (fun _ _ => True) s)
    (decides : s.Decides runtime idleEvictionSeconds model readings result)
    (absent : model.modelId ∉ s.host.worker.residentModels)
    (answered : readings.call (runtime.capacity s.host.runtime) = .ok capacity)
    (reported : capacity.availableMemoryBytes = some available) :
    ∃ order, s.host.worker.LeastRecentFirst s.host.objects order ∧
      (model.estimatedMemoryBytes ≤ s.host.worker.usableMemory available → result = s.goesAhead model []) ∧
      (model.estimatedMemoryBytes ≤ s.host.worker.usableMemory available + (order.map size).sum →
        ∃ evictions, result = s.goesAhead model evictions ∧
          ShortestPrefix size (s.host.worker.usableMemory available) model.estimatedMemoryBytes order evictions) ∧
      (s.host.worker.usableMemory available + (order.map size).sum < model.estimatedMemoryBytes →
        result = (.raises ⟨.memoryError, s!"insufficient worker memory for {model.modelId}"⟩, s.host)) := by
  have described := Described.reach reached
  have planned := decides.planned described.waits absent answered
  obtain ⟨enough, some, none⟩ := planEvictions_known s.host.objects model reported described.resident
  refine ⟨_, leastRecentFirst described.resident, fun fits => ?_, fun reachable => ?_, fun short => ?_⟩
  · rw [planned, enough fits]
  · obtain ⟨evictions, run, shortest⟩ := some reachable
    refine ⟨evictions, ?_, shortest⟩
    rw [planned, run]
  · rw [planned, none short]

namespace Sample

/-- A model that fits only once the other one is gone. -/
def second : ModelDefinition := ⟨"second", "main", 950, 1024, 2048⟩

end Sample

open Sample in
theorem load_evicts_shortest_prefix_sample : ∃ order evictions,
    (loading.foldl (after SimulatedGpuRuntime.runtime fun _ => 0) system).host.worker.LeastRecentFirst (fun _ => WorkerSystem.Sample.request) order ∧
      (loading.foldl (after SimulatedGpuRuntime.runtime fun _ => 0) system).host.begin SimulatedGpuRuntime.runtime (fun _ => 0)
        Sample.readings (.loadModel second) =
          (loading.foldl (after SimulatedGpuRuntime.runtime fun _ => 0) system).goesAhead second evictions ∧
      ShortestPrefix size 900 950 order evictions := by
  have reached : Reach SimulatedGpuRuntime.runtime (fun _ => 0) Described (fun _ _ => True)
      (loading.foldl (after SimulatedGpuRuntime.runtime fun _ => 0) system) :=
    Reach.run (.start (.start system_fresh)) ⟨trivial, rfl, trivial, rfl, trivial, rfl, trivial, rfl, trivial, rfl, trivial, rfl,
      trivial, rfl, trivial, rfl, trivial⟩
  have decides : Decides SimulatedGpuRuntime.runtime (fun _ => 0)
      (loading.foldl (after SimulatedGpuRuntime.runtime fun _ => 0) system) second Sample.readings _ := .first rfl (by decide)
  obtain ⟨order, inOrder, -, evicts, -⟩ := load_evicts_shortest_prefix reached decides (by decide) rfl rfl
  have only : order.map Prod.fst = ["model"] := List.perm_singleton.mp inOrder.models
  obtain ⟨e, rfl, named⟩ := List.map_eq_singleton_iff.mp only
  have defined := inOrder.defined e List.mem_cons_self
  rw [named] at defined
  have definition : e.2 = model := (Option.some.inj defined).symm
  obtain ⟨evictions, ahead, shortest⟩ := evicts (by
    change (950 : Int) ≤ 900 + ([e].map size).sum
    simp [size, definition, model])
  exact ⟨[e], evictions, inOrder, ahead, shortest⟩

end WorkerSystem

end ServingPlatform
