import ServingPlatform.WorkerLifecycle.ModelMoves

namespace ServingPlatform

/-- What the call of a load has brought to an end. -/
inductive LoadStage
  | loaded
  | warmed
  | published
  deriving DecidableEq, Repr

def CallRole.load? : CallRole → Option ModelLoad
  | .loading load => some load
  | _ => none

def CallRole.reserves (role : CallRole) : Int := role.load?.elim 0 fun load => load.model.estimatedMemoryBytes

namespace CallPlace

/-- The model that a call of `load_model` is for. -/
def loadsFor : CallPlace → Option ModelDefinition
  | .waiting model _ => some model
  | .evicting load .. | .checking load | .adding load | .warming load | .publishing load | .recovering load ..
  | .restoring load .. | .closing load _ => some load.model
  | _ => none

/-- The stages that lie behind a load at its place; nothing is said of a load that failed. -/
def behind : CallPlace → Option (List LoadStage)
  | .waiting .. | .evicting .. | .checking _ | .adding _ => some []
  | .warming _ => some [.loaded]
  | .publishing _ => some [.loaded, .warmed]
  | .closing _ none => some [.loaded, .warmed, .published]
  | _ => none

/-- The stage that the next step brings to an end. -/
def ends {ρ : Type} (runtime : ModelRuntime ρ) (h : WorkerHost ρ) (readings : WorkerReadings) : CallPlace → List LoadStage
  | .checking load =>
    match readings.call (runtime.checkLoad h.runtime load.model) with
    | .ok false => [.loaded]
    | _ => []
  | .adding _ => [.loaded]
  | .warming load =>
    match readings.call (runtime.warmupModel h.runtime load.model.modelId) with
    | .ok () => [.warmed]
    | .error _ => []
  | .publishing _ => [.published]
  | _ => []

end CallPlace

namespace WorkerSystem

variable {ρ : Type} {runtime : ModelRuntime ρ} {idleEvictionSeconds : ModelDefinition → Seconds} {s s' : WorkerSystem ρ}
  {action : WorkerAction} {call : Nat} {place : CallPlace} {readings : WorkerReadings} {done : Nat → List LoadStage}
  {model : ModelDefinition}

/-- The loads that are under way. -/
def flights (s : WorkerSystem ρ) : List ModelLoad := s.calls.values.filterMap fun place => place.role.load?

/-- The stages that every call has brought to an end since it started, after an action. -/
def record (runtime : ModelRuntime ρ) (s : WorkerSystem ρ) (done : Nat → List LoadStage) : WorkerAction → Nat → List LoadStage
  | .start call .. => Function.update done call []
  | .advance call readings => Function.update done call
      (done call ++ (s.calls.get? call).elim [] fun place => place.ends runtime s.host readings)
  | .outside .. => done

/-- A worker as its constructor leaves it, with no memory reserved. -/
def Unreserved (s : WorkerSystem ρ) : Prop := s.Fresh ∧ s.host.worker.reservedModelMemoryBytes = 0

/-- The models listed as being loaded are those of the loads under way, one load
for each, and the memory reserved is what these loads need. -/
structure Flying (s : WorkerSystem ρ) : Prop where
  waits : s.Waits
  distinct : s.books.loading.Nodup
  listed : ∀ {c load}, s.role c = .loading load → load.model.modelId ∈ s.books.loading
  flown : ∀ modelId ∈ s.books.loading, ∃ c load, s.role c = .loading load ∧ load.model.modelId = modelId
  single : ∀ {c d load load'}, s.role c = .loading load → s.role d = .loading load' →
    load.model.modelId = load'.model.modelId → c = d
  reserved : s.books.reserved = s.calls.total fun place => place.role.reserves

theorem Flying.start (fresh : s.Unreserved) : s.Flying := by
  have idle : ∀ c, s.role c = .idle := fun c => by rw [role, fresh.1.calls]; rfl
  have none : s.books.loading = [] := fresh.1.loadingModels
  refine ⟨.start fresh.1, ?_, fun loads => ?_, fun modelId member => ?_, fun loads => ?_, ?_⟩
  · rw [none]
    exact List.nodup_nil
  · rw [idle] at loads
    cases loads
  · rw [none] at member
    cases member
  · rw [idle] at loads
    cases loads
  · rw [fresh.1.calls]
    exact fresh.2

/-- A step by which no load begins or ends. -/
theorem Flying.of_same (flying : s.Flying) (waits : s'.Waits) (loading : s'.books.loading = s.books.loading)
    (roles : ∀ c, (s'.role c).load? = (s.role c).load?) (reserved : s'.books.reserved = s.books.reserved)
    (total : (s'.calls.total fun place => place.role.reserves) = s.calls.total fun place => place.role.reserves) : s'.Flying := by
  have loads_iff : ∀ {c load}, s'.role c = .loading load ↔ s.role c = .loading load := by
    intro c load
    have same := roles c
    cases now : s'.role c <;> cases before : s.role c <;> rw [now, before] at same <;> simp_all [CallRole.load?]
  refine ⟨waits, ?_, fun loads => ?_, fun modelId member => ?_, fun first second => ?_, ?_⟩
  · rw [loading]
    exact flying.distinct
  · rw [loading]
    exact flying.listed (loads_iff.mp loads)
  · rw [loading] at member
    obtain ⟨c, load, loads, same⟩ := flying.flown modelId member
    exact ⟨c, load, loads_iff.mpr loads, same⟩
  · exact flying.single (loads_iff.mp first) (loads_iff.mp second)
  · rw [reserved, total]
    exact flying.reserved

theorem Flying.act (flying : s.Flying) (acts : s.act runtime idleEvictionSeconds action = some s') : s'.Flying := by
  obtain ⟨call, move, others, totals⟩ := act_moves flying.waits acts
  have waits := flying.waits.act acts
  have total := totals CallRole.reserves rfl
  have same_of : (s'.role call).load? = (s.role call).load? → ∀ c, (s'.role c).load? = (s.role c).load? := by
    intro here c
    rcases eq_or_ne c call with rfl | differ
    · exact here
    · rw [others c differ]
  have kept : s'.books.loading = s.books.loading → s'.books.reserved = s.books.reserved →
      (s'.role call).load? = (s.role call).load? → s'.Flying := by
    intro loading reserved here
    have weigh : (s'.role call).reserves = (s.role call).reserves := by rw [CallRole.reserves, CallRole.reserves, here]
    exact flying.of_same waits loading (same_of here) reserved (by omega)
  generalize books_eq : s.books = b, books_eq' : s'.books = b', role_eq : s.role call = before, role_eq' : s'.role call = now at move
  cases move with
  | @loads _ load free absent quiet =>
    have before_none : before.load? = none := by
      rcases free with rfl | ⟨entered, rfl⟩ <;> rfl
    have zero : before.reserves = 0 := by rw [CallRole.reserves, before_none, Option.elim_none]
    have loading' : s'.books.loading = s.books.loading.insert load.model.modelId := by rw [books_eq', books_eq]
    have apart : ∀ {c other}, c ≠ call → s'.role c = .loading other → s.role c = .loading other :=
      fun differ loads => (others _ differ).symm.trans loads
    have new : ∀ {c other}, c = call → s'.role c = .loading other → other = load := by
      rintro c other rfl loads
      rw [role_eq'] at loads
      cases loads
      rfl
    have fresh : load.model.modelId ∉ s.books.loading := by rwa [books_eq]
    refine ⟨waits, ?_, fun {c other} loads => ?_, fun modelId member => ?_, fun {c d first second} here there same => ?_, ?_⟩
    · rw [loading']
      exact flying.distinct.insert
    · rw [loading', List.mem_insert_iff]
      rcases eq_or_ne c call with here | differ
      · rw [new here loads]
        exact Or.inl rfl
      · exact Or.inr (flying.listed (apart differ loads))
    · rw [loading', List.mem_insert_iff] at member
      rcases member with rfl | member
      · exact ⟨call, load, role_eq', rfl⟩
      · obtain ⟨c, other, loads, named⟩ := flying.flown modelId member
        have differ : c ≠ call := by
          rintro rfl
          rw [role_eq] at loads
          rw [loads] at before_none
          cases before_none
        exact ⟨c, other, (others c differ).trans loads, named⟩
    · rcases eq_or_ne c call with first_new | differ <;> rcases eq_or_ne d call with second_new | differ'
      · exact first_new.trans second_new.symm
      · rw [new first_new here] at same
        exact absurd (same ▸ flying.listed (apart differ' there)) fresh
      · rw [new second_new there] at same
        exact absurd (same ▸ flying.listed (apart differ here)) fresh
      · exact flying.single (apart differ here) (apart differ' there) same
    · have added : s'.books.reserved = s.books.reserved + load.model.estimatedMemoryBytes := by rw [books_eq', books_eq]
      have weight : (s'.role call).reserves = load.model.estimatedMemoryBytes := by rw [role_eq']; rfl
      rw [role_eq] at total
      have reserved := flying.reserved
      omega
  | @closes load =>
    have loading' : s'.books.loading = s.books.loading.erase load.model.modelId := by rw [books_eq', books_eq]
    have apart : ∀ {c other}, s'.role c = .loading other → c ≠ call ∧ s.role c = .loading other := by
      intro c other loads
      rcases eq_or_ne c call with rfl | differ
      · rw [role_eq'] at loads
        cases loads
      · exact ⟨differ, (others c differ).symm.trans loads⟩
    refine ⟨waits, ?_, fun {c other} loads => ?_, fun modelId member => ?_, fun {c d first second} here there same => ?_, ?_⟩
    · rw [loading']
      exact flying.distinct.erase _
    · obtain ⟨differ, loads⟩ := apart loads
      rw [loading']
      exact (List.mem_erase_of_ne fun same => differ (flying.single loads role_eq same)).mpr (flying.listed loads)
    · rw [loading', flying.distinct.mem_erase_iff] at member
      obtain ⟨c, other, loads, named⟩ := flying.flown modelId member.2
      have differ : c ≠ call := by
        rintro rfl
        rw [role_eq] at loads
        cases loads
        exact member.1 named.symm
      exact ⟨c, other, (others c differ).trans loads, named⟩
    · exact flying.single (apart here).2 (apart there).2 same
    · have released : s'.books.reserved = s.books.reserved - load.model.estimatedMemoryBytes := by rw [books_eq', books_eq]
      have weight : (s.role call).reserves = load.model.estimatedMemoryBytes := by rw [role_eq]; rfl
      have none : (s'.role call).reserves = 0 := by rw [role_eq']; rfl
      have reserved := flying.reserved
      omega
  | _ =>
    exact kept (by rw [books_eq, books_eq']) (by rw [books_eq, books_eq']) (by simp only [role_eq, role_eq', CallRole.load?])

theorem mem_flights {load : ModelLoad} : load ∈ s.flights ↔ ∃ c, s.role c = .loading load := by
  have loads_iff : ∀ role : CallRole, role.load? = some load ↔ role = .loading load := by
    intro role
    cases role <;> simp [CallRole.load?]
  simp only [flights, List.mem_filterMap, Dict.mem_values_iff, loads_iff]
  constructor
  · rintro ⟨place, ⟨c, found⟩, loads⟩
    exact ⟨c, by rw [role, found]; exact loads⟩
  · rintro ⟨c, loads⟩
    cases found : s.calls.get? c with
    | none =>
      rw [role, found] at loads
      cases loads
    | some place =>
      rw [role, found] at loads
      exact ⟨place, ⟨c, found⟩, loads⟩

theorem Flying.flights_nodup (flying : s.Flying) : (s.flights.map fun load => load.model.modelId).Nodup := by
  have keys : s.calls.entries.Pairwise fun a b => a.1 ≠ b.1 := List.pairwise_map.mp s.calls.nodup
  have at_key : ∀ {e : Nat × CallPlace} {load : ModelLoad}, e ∈ s.calls.entries → e.2.role.load? = some load →
      s.role e.1 = .loading load := by
    intro e load member loads
    rw [role, Dict.get?_eq_some_iff.mpr member]
    change e.2.role = .loading load
    cases same : e.2.role <;> simp_all [CallRole.load?]
  rw [List.Nodup, List.pairwise_map, flights, List.pairwise_filterMap, Dict.values, List.pairwise_map]
  refine keys.imp_of_mem fun first second differ load loads load' loads' same => ?_
  exact differ (flying.single (at_key first loads) (at_key second loads') same)

theorem Flying.flights_loading (flying : s.Flying) :
    (s.flights.map fun load => load.model.modelId).Perm s.host.worker.loadingModels := by
  refine (List.perm_ext_iff_of_nodup flying.flights_nodup flying.distinct).mpr fun modelId => ?_
  rw [List.mem_map]
  constructor
  · rintro ⟨load, member, rfl⟩
    obtain ⟨c, loads⟩ := mem_flights.mp member
    exact flying.listed loads
  · intro member
    obtain ⟨c, load, loads, named⟩ := flying.flown modelId member
    exact ⟨load, mem_flights.mpr ⟨c, loads⟩, named⟩

theorem Flying.flights_reserved (flying : s.Flying) :
    s.host.worker.reservedModelMemoryBytes = (s.flights.map fun load => (load.model.estimatedMemoryBytes : Int)).sum := by
  have general : ∀ places : List CallPlace, (places.map fun place => place.role.reserves).sum =
      ((places.filterMap fun place => place.role.load?).map fun load => (load.model.estimatedMemoryBytes : Int)).sum := by
    intro places
    induction places with
    | nil => rfl
    | cons place rest ih =>
      rw [List.map_cons, List.sum_cons, ih, List.filterMap_cons, CallRole.reserves]
      cases place.role.load? with
      | none => simp
      | some load => simp
  exact flying.reserved.trans (general _)

/-- Every load has brought to an end what its place says. -/
def Staged (s : WorkerSystem ρ) (done : Nat → List LoadStage) : Prop :=
  ∀ c place stages, s.calls.get? c = some place → place.behind = some stages → done c = stages

theorem goAhead_behind {h : WorkerHost ρ} {entered : ManagedWorker} {stages : List LoadStage}
    (proceeds : (h.goAhead runtime entered model readings).1 = .proceeds place) (behind : place.behind = some stages) :
    stages = [] := by
  unfold WorkerHost.goAhead at proceeds
  split at proceeds
  · cases proceeds
  · cases proceeds
  · cases proceeds
    exact (Option.some.inj behind).symm

theorem beginUnload_behind {h : WorkerHost ρ} {modelId : String} {later : Option (List String)}
    (proceeds : (h.beginUnload modelId later).1 = .proceeds place) : place.behind = none := by
  unfold WorkerHost.beginUnload at proceeds
  split at proceeds
  · cases proceeds
  split at proceeds
  · cases later <;> cases proceeds
    rfl
  · cases proceeds
    rfl

theorem atOnce_returns {α : Type} {h : WorkerHost ρ} {m : Attempt Raised WorkerProcess α} :
    (h.atOnce m).1 ≠ .proceeds place := by
  unfold WorkerHost.atOnce
  split <;> exact fun same => by cases same

/-- A load begins with nothing done. -/
theorem begin_behind {h : WorkerHost ρ} {request : WorkerRequest} {stages : List LoadStage}
    (proceeds : (h.begin runtime idleEvictionSeconds readings request).1 = .proceeds place)
    (behind : place.behind = some stages) : stages = [] := by
  unfold WorkerHost.begin at proceeds
  cases request with
  | loadModel model =>
    dsimp only at proceeds
    split at proceeds
    · cases proceeds
      exact (Option.some.inj behind).symm
    · exact goAhead_behind proceeds behind
  | unloadModel modelId =>
    rw [beginUnload_behind proceeds] at behind
    cases behind
  | evictIdleModels =>
    dsimp only at proceeds
    split at proceeds <;> cases proceeds
    cases behind
  | enqueueRequest i => exact absurd proceeds atOnce_returns
  | cancelRequest requestId => exact absurd proceeds atOnce_returns
  | executeBatch =>
    dsimp only at proceeds
    split at proceeds <;> cases proceeds
    cases behind
  | register =>
    dsimp only at proceeds
    split at proceeds
    · cases proceeds
    split at proceeds <;> cases proceeds
  | drain =>
    dsimp only at proceeds
    split at proceeds <;> cases proceeds
  | shutdown =>
    dsimp only at proceeds
    split at proceeds <;> cases proceeds
    cases behind

/-- A load goes on with what it has just brought to an end added. -/
theorem advance_behind {h : WorkerHost ρ} {old : CallPlace} {stages : List LoadStage}
    (proceeds : (h.advance runtime readings old).1 = .proceeds place) (behind : place.behind = some stages) :
    ∃ before, old.behind = some before ∧ stages = before ++ old.ends runtime h readings := by
  unfold WorkerHost.advance at proceeds
  cases old with
  | waiting model entered =>
    dsimp only at proceeds
    refine ⟨[], rfl, ?_⟩
    split at proceeds
    · cases proceeds
      exact (Option.some.inj behind).symm
    · exact goAhead_behind proceeds behind
  | evicting load unloaded rest =>
    refine ⟨[], rfl, ?_⟩
    cases rest with
    | nil =>
      cases proceeds
      exact (Option.some.inj behind).symm
    | cons e rest =>
      dsimp only at proceeds
      split at proceeds <;> cases proceeds
      · cases behind
      · exact (Option.some.inj behind).symm
  | checking load =>
    refine ⟨[], rfl, ?_⟩
    unfold CallPlace.ends
    dsimp only at proceeds ⊢
    split at proceeds <;> rename_i checked <;> cases proceeds <;> rw [checked]
    · cases behind
    · exact (Option.some.inj behind).symm
    · exact (Option.some.inj behind).symm
  | adding load =>
    cases proceeds
    exact ⟨[], rfl, (Option.some.inj behind).symm⟩
  | warming load =>
    refine ⟨[.loaded], rfl, ?_⟩
    unfold CallPlace.ends
    dsimp only at proceeds ⊢
    split at proceeds <;> rename_i warmed <;> cases proceeds <;> rw [warmed]
    · cases behind
    · exact (Option.some.inj behind).symm
  | publishing load =>
    cases proceeds
    exact ⟨[.loaded, .warmed], rfl, (Option.some.inj behind).symm⟩
  | recovering load unloaded raised =>
    cases proceeds
    cases behind
  | restoring load unloaded rest raised =>
    cases rest with
    | nil =>
      cases proceeds
      cases behind
    | cons e rest =>
      dsimp only at proceeds
      split at proceeds <;> cases proceeds <;> cases behind
  | closing load failure =>
    cases failure <;> cases proceeds
  | unloading modelId later =>
    dsimp only at proceeds
    split at proceeds
    · cases proceeds
      cases behind
    · cases later <;> cases proceeds
      cases behind
  | puttingBack modelId raised => cases proceeds
  | sorting eligible =>
    dsimp only at proceeds
    split at proceeds <;> cases proceeds
    cases behind
  | sweeping rest =>
    cases rest with
    | nil => cases proceeds
    | cons modelId rest =>
      rw [beginUnload_behind proceeds] at behind
      cases behind
  | running selected =>
    dsimp only at proceeds
    split at proceeds <;> cases proceeds <;> cases behind
  | failing selected raised =>
    dsimp only at proceeds
    split at proceeds <;> cases proceeds <;> cases behind
  | retiring selected failure =>
    cases failure <;> cases proceeds
    cases behind
  | completing selected => exact absurd proceeds atOnce_returns
  | stopping rest =>
    cases rest with
    | nil => cases proceeds
    | cons modelId rest =>
      dsimp only at proceeds
      split at proceeds <;> cases proceeds <;> cases behind
  | unregistering raised => cases proceeds

theorem Staged.settle {result : CallOutcome × WorkerHost ρ} {now : List LoadStage} (staged : s.Staged done)
    (next : ∀ place stages, result.1 = .proceeds place → place.behind = some stages → now = stages) :
    (s.settle call result).Staged (Function.update done call now) := by
  intro c place stages found behind
  rw [settle_get?] at found
  split at found
  · rename_i here
    rw [here, Function.update_self]
    refine next place stages ?_ behind
    cases outcome : result.1 <;> rw [outcome] at found <;> cases found
    rfl
  · rename_i differ
    rw [Function.update_of_ne differ]
    exact staged c place stages found behind

theorem Staged.act (staged : s.Staged done) (acts : s.act runtime idleEvictionSeconds action = some s') :
    s'.Staged (s.record runtime done action) := by
  rcases act_cases acts with ⟨call, request, readings, rfl, -, rfl⟩ | ⟨call, readings, place, rfl, found, rfl⟩ |
    ⟨i, target, at_, objects, rfl, -, rfl⟩
  · exact staged.settle fun _ _ proceeds behind => (begin_behind proceeds behind).symm
  · refine staged.settle fun next stages proceeds behind => ?_
    obtain ⟨before, had, rfl⟩ := advance_behind proceeds behind
    rw [staged call place before found had, found]
    rfl
  · exact staged

/-- A load returns only from its wait, or once it is closed. -/
theorem advance_not_returns {h : WorkerHost ρ} (same : place.loadsFor = some model)
    (other : (match place with | .waiting .. | .closing .. => true | _ => false) = false) :
    (h.advance runtime readings place).1 ≠ .returns := by
  intro returned
  unfold WorkerHost.advance at returned
  cases place with
  | evicting load unloaded rest =>
    cases rest with
    | nil => cases returned
    | cons e rest =>
      dsimp only at returned
      split at returned <;> cases returned
  | checking load =>
    dsimp only at returned
    split at returned <;> cases returned
  | warming load =>
    dsimp only at returned
    split at returned <;> cases returned
  | restoring load unloaded rest raised =>
    cases rest with
    | nil => cases returned
    | cons e rest =>
      dsimp only at returned
      split at returned <;> cases returned
  | adding load => cases returned
  | publishing load => cases returned
  | recovering load unloaded raised => cases returned
  | waiting other entered => cases other
  | closing load failure => cases other
  | _ => cases same

/-- However calls interleave and whatever the runtime raises: no model is loaded
twice at a time, the memory reserved is what the loads under way need, and
`load_model` returns only once its model was seen resident or its own load is done. -/
theorem loads_single_flight (traced : Traced runtime idleEvictionSeconds (record runtime)
      (fun s done => s.Unreserved ∧ ∀ c, done c = []) (fun _ _ => True) s done) :
    (s.flights.map fun load => load.model.modelId).Nodup ∧
      (s.flights.map fun load => load.model.modelId).Perm s.host.worker.loadingModels ∧
      s.host.worker.reservedModelMemoryBytes = (s.flights.map fun load => (load.model.estimatedMemoryBytes : Int)).sum ∧
      (∀ model readings, (s.host.begin runtime idleEvictionSeconds readings (.loadModel model)).1 = .returns →
        model.modelId ∈ s.host.worker.residentModels) ∧
      ∀ call place model readings, s.calls.get? call = some place → place.loadsFor = some model →
        (s.host.advance runtime readings place).1 = .returns →
          place.locks = true ∧ model.modelId ∈ s.host.worker.residentModels ∨ done call = [.loaded, .warmed, .published] := by
  have invariant : s.Flying ∧ s.Staged done := by
    induction traced with
    | start fresh =>
      refine ⟨.start fresh.1, fun c place stages found => ?_⟩
      rw [fresh.1.1.calls] at found
      cases found
    | next before allowed acts ih => exact ⟨ih.1.act acts, ih.2.act acts⟩
  obtain ⟨flying, staged⟩ := invariant
  have observed : ∀ model entered readings, (entered = s.host.worker ∨ entered.accepting = true ∧
      model.modelId ∉ entered.residentModels ∧ model.modelId ∈ entered.loadingModels) →
      (s.host.goAhead runtime entered model readings).1 = .returns → model.modelId ∈ s.host.worker.residentModels := by
    intro model entered readings joins returned
    unfold WorkerHost.goAhead at returned
    rcases ManagedWorker.beginLoad_cases s.host.objects (s.host.loadAnswers runtime readings) joins with ⟨raised, run⟩ |
      ⟨resident, -⟩ | ⟨_, _, -, -, -, -, run⟩
    · rw [run] at returned
      cases returned
    · exact resident
    · rw [run] at returned
      cases returned
  refine ⟨flying.flights_nodup, flying.flights_loading, flying.flights_reserved, fun model readings returned => ?_,
    fun call place model readings found same returned => ?_⟩
  · unfold WorkerHost.begin at returned
    dsimp only at returned
    split at returned
    · cases returned
    · exact observed model _ readings (Or.inl rfl) returned
  · cases place with
    | waiting other entered =>
      cases same
      refine Or.inl ⟨rfl, ?_⟩
      unfold WorkerHost.advance at returned
      dsimp only at returned
      split at returned
      · cases returned
      · exact observed model entered readings (Or.inr (flying.waits call model entered (by rw [role, found]; rfl))) returned
    | closing load failure =>
      cases failure with
      | none => exact Or.inr (staged call _ _ found rfl)
      | some raised => cases returned
    | _ => exact absurd returned (advance_not_returns same rfl)

namespace Sample

def recorded : WorkerSystem SimulatedGpuRuntime × (Nat → List LoadStage) :=
  trace SimulatedGpuRuntime.runtime (fun _ => 0) (record SimulatedGpuRuntime.runtime) system (fun _ => []) (loading.take 7)

end Sample

open Sample in
/-- A load that has published its model, and returns next. -/
theorem loads_single_flight_sample :
    recorded.1.host.worker.reservedModelMemoryBytes =
      (recorded.1.flights.map fun load => (load.model.estimatedMemoryBytes : Int)).sum ∧
    ("model" ∈ recorded.1.host.worker.residentModels ∨ recorded.2 0 = [.loaded, .warmed, .published]) := by
  have traced : Traced SimulatedGpuRuntime.runtime (fun _ => 0) (record SimulatedGpuRuntime.runtime)
      (fun s done => s.Unreserved ∧ ∀ c, done c = []) (fun _ _ => True) recorded.1 recorded.2 :=
    Traced.run (.start ⟨⟨system_fresh, rfl⟩, fun _ => rfl⟩)
      ⟨trivial, rfl, trivial, rfl, trivial, rfl, trivial, rfl, trivial, rfl, trivial, rfl, trivial, rfl, trivial⟩
  obtain ⟨-, -, reserved, -, returns⟩ := loads_single_flight traced
  have found : recorded.1.calls.get? 0 = some (.closing ⟨model, [], 1⟩ none) := by rfl
  exact ⟨reserved, (returns 0 _ model Sample.readings found rfl rfl).imp_left And.right⟩

end WorkerSystem

end ServingPlatform
