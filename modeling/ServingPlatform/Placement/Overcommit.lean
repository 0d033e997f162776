import Mathlib.Algebra.Order.BigOperators.Group.Finset
import ServingPlatform.Admission.Counters
import ServingPlatform.Placement.Policies

namespace ServingPlatform

/-- The registered snapshots, each under its own id and with the checks of `__post_init__`. -/
structure RegisteredWorkers where
  registry : WorkerRegistry
  keyed : ∀ workerId worker, registry.workers.get? workerId = some worker → worker.workerId = workerId
  checked : ∀ workerId worker, registry.workers.get? workerId = some worker → worker.checked = .ok worker

inductive PlacementCall
  | selectAndReserve (r : RequestRecord) (choice : PlacementChoice) (p : PlacementPolicy)
  | release (requestId : String)

/-- The available memory of a checked snapshot is not negative. -/
theorem WorkerState.available_nonneg {worker : WorkerState} {available : Int} (checked : worker.checked = .ok worker)
    (known : worker.availableMemoryBytes = some available) : 0 ≤ available := by
  by_contra negative
  cases total : worker.totalMemoryBytes with
  | none => simp [WorkerState.checked, total, known] at checked
  | some bytes => simp [WorkerState.checked, total, known, negative] at checked

/-- Whether two reservations are for the same model on the same worker. -/
def PlacementReservation.sharesWith (a b : PlacementReservation) : Prop := a.workerId = b.workerId ∧ a.modelId = b.modelId

instance (a b : PlacementReservation) : Decidable (a.sharesWith b) := inferInstanceAs (Decidable (_ ∧ _))

namespace PlacementReservations

/-- `release`, which takes the reservation out. -/
def release (reservations : PlacementReservations) (requestId : String) : Bool × PlacementReservations :=
  (reservations.contains requestId, reservations.erase requestId)

def perform (workers : RegisteredWorkers) (models : ModelRegistry) (reservations : PlacementReservations) :
    PlacementCall → PlacementReservations
  | .selectAndReserve r choice p =>
    (reservations.selectAndReserve workers.registry (some models.definitions) r (choice.select p)).2
  | .release requestId => (reservations.release requestId).2

/-- The models that a worker would have to load for its live reservations. -/
def coldModels (reservations : PlacementReservations) (worker : WorkerState) : Finset String :=
  ((reservations.values.filter fun r => r.workerId = worker.workerId).map PlacementReservation.modelId).toFinset.filter
    fun modelId => modelId ∉ worker.residentModels

def estimate (models : ModelRegistry) (modelId : String) : Int :=
  (models.definitions.get? modelId).elim 0 fun model => model.estimatedMemoryBytes

/-- The memory that these models take together. -/
def coldMemory (models : ModelRegistry) (reservations : PlacementReservations) (worker : WorkerState) : Int :=
  ∑ modelId ∈ reservations.coldModels worker, estimate models modelId

/-- A release takes back no memory that another reservation still needs. -/
def KeepsCharges (reservations : PlacementReservations) : PlacementCall → Prop
  | .selectAndReserve .. => True
  | .release requestId => ∀ r, reservations.get? requestId = some r → r.memoryBytes ≠ 0 →
      ∀ otherId other, reservations.get? otherId = some other → other.sharesWith r → otherId = requestId

/-- The states of the reservation book. Every call shares the model registry
and keeps at least `reserve` bytes free. -/
inductive Reach (workers : RegisteredWorkers) (models : ModelRegistry) (reserve : Nat)
    (Allowed : PlacementReservations → PlacementCall → Prop) : PlacementReservations → Prop
  | start : Reach workers models reserve Allowed .empty
  | select {reservations r choice p} : Reach workers models reserve Allowed reservations →
      Allowed reservations (.selectAndReserve r choice p) → p.models = models → reserve ≤ p.memorySafetyReserveBytes →
      Reach workers models reserve Allowed (reservations.perform workers models (.selectAndReserve r choice p))
  | release {reservations requestId} : Reach workers models reserve Allowed reservations →
      Allowed reservations (.release requestId) →
      Reach workers models reserve Allowed (reservations.perform workers models (.release requestId))

section Books

variable {workers : RegisteredWorkers} {models : ModelRegistry} {reserve : Nat} {reservations : PlacementReservations}

/-- What the reservations are charged for on a worker. -/
def chargedOn (workerId : String) (r : PlacementReservation) : Int := if r.workerId = workerId then r.memoryBytes else 0

/-- Each cold model of a worker is paid for by exactly one reservation. -/
structure Booked (workers : RegisteredWorkers) (models : ModelRegistry) (reserve : Nat)
    (reservations : PlacementReservations) : Prop where
  single : ∀ {i j a b}, reservations.get? i = some a → reservations.get? j = some b →
    a.memoryBytes ≠ 0 → b.memoryBytes ≠ 0 → a.sharesWith b → i = j
  amount : ∀ {i a}, reservations.get? i = some a → a.memoryBytes ≠ 0 →
    (a.memoryBytes : Int) = estimate models a.modelId ∧
      ∀ worker, workers.registry.workers.get? a.workerId = some worker → a.modelId ∉ worker.residentModels
  paid : ∀ {i a worker}, reservations.get? i = some a → workers.registry.workers.get? a.workerId = some worker →
    a.modelId ∉ worker.residentModels →
      ∃ j payer, reservations.get? j = some payer ∧ payer.sharesWith a ∧ payer.memoryBytes ≠ 0
  charged : ∀ {workerId worker}, workers.registry.workers.get? workerId = some worker →
    reservations.total (chargedOn workerId) = coldMemory models reservations worker
  within : ∀ {workerId worker available}, workers.registry.workers.get? workerId = some worker →
    worker.availableMemoryBytes = some available → 0 < coldMemory models reservations worker →
    coldMemory models reservations worker + reserve ≤ available

theorem mem_coldModels {worker : WorkerState} {modelId : String} : modelId ∈ reservations.coldModels worker ↔
    (∃ i r, reservations.get? i = some r ∧ r.workerId = worker.workerId ∧ r.modelId = modelId) ∧
      modelId ∉ worker.residentModels := by
  unfold coldModels
  simp only [Finset.mem_filter, List.mem_toFinset, List.mem_map, List.mem_filter, decide_eq_true_eq, and_assoc]
  refine and_congr_left fun _ => ⟨?_, ?_⟩
  · rintro ⟨r, member, here, named⟩
    obtain ⟨i, found⟩ := Dict.mem_values_iff.mp member
    exact ⟨i, r, found, here, named⟩
  · rintro ⟨i, r, found, here, named⟩
    exact ⟨r, Dict.mem_values_iff.mpr ⟨i, found⟩, here, named⟩

theorem chargedOn_nonneg (workerId : String) (r : PlacementReservation) : 0 ≤ chargedOn workerId r := by
  unfold chargedOn
  split
  · exact Int.natCast_nonneg _
  · exact le_refl _

theorem estimate_nonneg (modelId : String) : 0 ≤ estimate models modelId := by
  unfold estimate
  cases models.definitions.get? modelId with
  | none => exact le_refl _
  | some model => exact Int.natCast_nonneg _

theorem coldMemory_nonneg (worker : WorkerState) : 0 ≤ coldMemory models reservations worker :=
  Finset.sum_nonneg fun modelId _ => estimate_nonneg modelId

theorem coldMemory_congr {reservations' : PlacementReservations} {worker : WorkerState}
    (same : ∀ modelId, modelId ∈ reservations'.coldModels worker ↔ modelId ∈ reservations.coldModels worker) :
    coldMemory models reservations' worker = coldMemory models reservations worker := by
  have sets : reservations'.coldModels worker = reservations.coldModels worker := Finset.ext same
  unfold coldMemory
  rw [sets]

/-- One more cold model adds its estimate. -/
theorem coldMemory_add {reservations' : PlacementReservations} {worker : WorkerState} {modelId : String}
    (fresh : modelId ∉ reservations.coldModels worker)
    (added : ∀ other, other ∈ reservations'.coldModels worker ↔ other = modelId ∨ other ∈ reservations.coldModels worker) :
    coldMemory models reservations' worker = estimate models modelId + coldMemory models reservations worker := by
  have sets : reservations'.coldModels worker = insert modelId (reservations.coldModels worker) :=
    Finset.ext fun other => by rw [added, Finset.mem_insert]
  unfold coldMemory
  rw [sets, Finset.sum_insert fresh]

/-- No two charges of the book are for the same model on the same worker. -/
theorem Booked.pairwise (booked : Booked workers models reserve reservations) :
    reservations.values.Pairwise fun a b => a.memoryBytes ≠ 0 → b.memoryBytes ≠ 0 → ¬a.sharesWith b := by
  unfold Dict.values
  rw [List.pairwise_map]
  refine (List.pairwise_map.mp reservations.nodup).imp_of_mem fun {a b} first second differ chargedA chargedB shared => ?_
  exact differ (booked.single (Dict.get?_eq_some_iff.mpr first) (Dict.get?_eq_some_iff.mpr second) chargedA chargedB shared)

end Books

section Effective

variable {workerId : String}

/-- Charging one reservation against the entry of a worker. -/
theorem charge_get? (reservation : PlacementReservation) (workers : Dict String WorkerState)
    (keys : List (String × String)) : (charge reservation workers keys).1.get? workerId =
      (workers.get? workerId).map fun worker =>
        if reservation.workerId = workerId then { worker with
          queueDepth := worker.queueDepth + 1
          availableMemoryBytes :=
            if reservation.memoryBytes ≠ 0 ∧ (workerId, reservation.modelId) ∉ keys then
              worker.availableMemoryBytes.map fun available => max 0 (available - reservation.memoryBytes)
            else worker.availableMemoryBytes }
        else worker := by
  unfold charge
  by_cases same : reservation.workerId = workerId
  · subst same
    cases found : workers.get? reservation.workerId with
    | none => exact found
    | some worker =>
      simp only [if_true, Option.map_some]
      split <;> rw [Dict.get?_insert_self]
  · simp only [if_neg same, Option.map_id']
    cases other : workers.get? reservation.workerId with
    | none => rfl
    | some _ =>
      dsimp only
      split <;> rw [Dict.get?_insert_of_ne (Ne.symm same)]

/-- Only a charge is remembered. -/
theorem charge_keys {reservation : PlacementReservation} {workers : Dict String WorkerState}
    {keys : List (String × String)} {key : String × String} (member : key ∈ (charge reservation workers keys).2) :
    key ∈ keys ∨ reservation.memoryBytes ≠ 0 ∧ key = (reservation.workerId, reservation.modelId) := by
  unfold charge at member
  split at member
  · exact Or.inl member
  dsimp only at member
  split at member
  · rename_i charged
    rcases List.mem_cons.mp member with rfl | member
    · exact Or.inr ⟨charged.1, rfl⟩
    · exact Or.inl member
  · exact Or.inl member

/-- A worker as it will be once the reservations have reached it. -/
def charged (reservations : List PlacementReservation) (workerId : String) (worker : WorkerState) : WorkerState :=
  { worker with
    queueDepth := worker.queueDepth + reservations.countP fun r => r.workerId = workerId
    availableMemoryBytes := worker.availableMemoryBytes.map fun available =>
      max 0 (available - (reservations.map (chargedOn workerId)).sum) }

/-- Charging reservation after reservation is charging their sum, where no two charges are for one key. -/
theorem foldl_charge_get? {reservations : List PlacementReservation} {workers : Dict String WorkerState}
    {keys : List (String × String)}
    (single : reservations.Pairwise fun a b => a.memoryBytes ≠ 0 → b.memoryBytes ≠ 0 → ¬a.sharesWith b)
    (fresh : ∀ r ∈ reservations, r.memoryBytes ≠ 0 → (r.workerId, r.modelId) ∉ keys)
    (nonneg : ∀ worker available, workers.get? workerId = some worker →
      worker.availableMemoryBytes = some available → 0 ≤ available) :
    (reservations.foldl (fun (workers, models) reservation => charge reservation workers models) (workers, keys)).1.get?
      workerId = (workers.get? workerId).map (charged reservations workerId) := by
  induction reservations generalizing workers keys with
  | nil =>
    cases found : workers.get? workerId with
    | none => exact found
    | some worker =>
      have same : charged [] workerId worker = worker := by
        have available : (worker.availableMemoryBytes.map fun available => max 0 (available - 0)) =
            worker.availableMemoryBytes := by
          cases known : worker.availableMemoryBytes with
          | none => rfl
          | some available =>
            have := nonneg worker available found known
            simp only [Option.map_some, Option.some.injEq]
            omega
        unfold charged
        simp only [List.countP_nil, Nat.add_zero, List.map_nil, List.sum_nil, available]
      rw [List.foldl_nil, Option.map_some, same]
      exact found
  | cons r rest ih =>
    obtain ⟨apart, single⟩ := List.pairwise_cons.mp single
    have step := @charge_get? workerId r workers keys
    have later : ∀ other ∈ rest, other.memoryBytes ≠ 0 → (other.workerId, other.modelId) ∉ (charge r workers keys).2 := by
      intro other member charges inside
      rcases charge_keys inside with before | ⟨paid, same⟩
      · exact fresh other (List.mem_cons_of_mem _ member) charges before
      · exact apart other member paid charges ⟨(congrArg Prod.fst same).symm, (congrArg Prod.snd same).symm⟩
    have room : ∀ worker available, (charge r workers keys).1.get? workerId = some worker →
        worker.availableMemoryBytes = some available → 0 ≤ available := by
      intro worker available found known
      rw [step] at found
      obtain ⟨before, held, rfl⟩ := Option.map_eq_some_iff.mp found
      split at known
      · dsimp only at known
        split at known
        · obtain ⟨a, -, rfl⟩ := Option.map_eq_some_iff.mp known
          exact le_max_left _ _
        · exact nonneg before available held known
      · exact nonneg before available held known
    rw [List.foldl_cons, ih single later room, step, Option.map_map]
    refine Option.map_congr fun worker held => ?_
    unfold charged
    simp only [Function.comp_apply, List.countP_cons, List.map_cons, List.sum_cons]
    by_cases here : r.workerId = workerId
    · have memory : (r.memoryBytes ≠ 0 ∧ (workerId, r.modelId) ∉ keys) ↔ r.memoryBytes ≠ 0 :=
        and_iff_left_of_imp fun charges => here ▸ fresh r List.mem_cons_self charges
      have rests : 0 ≤ (rest.map (chargedOn workerId)).sum := List.sum_nonneg fun x member => by
        obtain ⟨other, -, rfl⟩ := List.mem_map.mp member
        exact chargedOn_nonneg workerId other
      have value : chargedOn workerId r = r.memoryBytes := if_pos here
      simp only [here, if_true, decide_true, memory, value, WorkerState.mk.injEq, true_and, and_true]
      refine ⟨?_, by omega⟩
      cases known : worker.availableMemoryBytes with
      | none => split <;> rfl
      | some available =>
        split
        · simp only [Option.map_some, Option.some.injEq]
          omega
        · simp only [Option.map_some, Option.some.injEq]
          omega
    · have value : chargedOn workerId r = 0 := if_neg here
      simp [here, value]

end Effective

section Steps

variable {workers : RegisteredWorkers} {models : ModelRegistry} {reserve : Nat} {reservations : PlacementReservations}

/-- What a policy is shown of a worker. -/
theorem mem_effectiveWorkers (booked : Booked workers models reserve reservations) {worker : WorkerState}
    (member : worker ∈ reservations.effectiveWorkers workers.registry) :
    ∃ registered, workers.registry.workers.get? worker.workerId = some registered ∧
      worker = charged reservations.values worker.workerId registered := by
  unfold effectiveWorkers at member
  obtain ⟨workerId, -, found⟩ := List.mem_filterMap.mp member
  rw [foldl_charge_get? booked.pairwise (fun _ _ _ => List.not_mem_nil)
    fun _ _ found known => WorkerState.available_nonneg (workers.checked _ _ found) known] at found
  obtain ⟨registered, held, rfl⟩ := Option.map_eq_some_iff.mp found
  have named : (charged reservations.values workerId registered).workerId = workerId :=
    workers.keyed workerId registered held
  rw [named]
  exact ⟨registered, held, rfl⟩

/-- What `select_and_reserve` charges for a request on a worker. -/
def chargeFor (models : ModelRegistry) (reservations : PlacementReservations) (worker : WorkerState) (modelId : String) : Nat :=
  if modelId ∈ worker.residentModels ∨
      reservations.values.any (fun other => other.workerId = worker.workerId && other.modelId = modelId) then 0
  else (models.definitions.get? modelId).elim 0 ModelDefinition.estimatedMemoryBytes

theorem perform_select_cases (workers : RegisteredWorkers) (models : ModelRegistry) (reservations : PlacementReservations)
    (r : RequestRecord) (choice : PlacementChoice) (p : PlacementPolicy) :
    reservations.perform workers models (.selectAndReserve r choice p) = reservations ∨ ∃ decision worker,
      reservations.get? r.requestId = none ∧
      choice.select p r (reservations.effectiveWorkers workers.registry) = .ok decision ∧
      workers.registry.workers.get? decision.selectedWorkerId = some worker ∧
      reservations.perform workers models (.selectAndReserve r choice p) = reservations.insert r.requestId
        ⟨r.requestId, worker.workerId, r.modelId, chargeFor models reservations worker r.modelId⟩ := by
  unfold perform selectAndReserve
  dsimp only
  split
  · exact Or.inl rfl
  rename_i fresh
  split
  · exact Or.inl rfl
  rename_i decision selected
  split
  · exact Or.inl rfl
  rename_i worker found
  exact Or.inr ⟨decision, worker, Dict.contains_eq_false_iff.mp (by simpa using fresh), selected, found, rfl⟩

/-- A reservation that needs a model to be loaded that nobody has charged yet. -/
theorem Booked.reserve_cold (booked : Booked workers models reserve reservations) {r : RequestRecord}
    {choice : PlacementChoice} {p : PlacementPolicy} {decision : RoutingDecision} {worker : WorkerState}
    (shared : p.models = models) (covered : reserve ≤ p.memorySafetyReserveBytes)
    (selected : choice.select p r (reservations.effectiveWorkers workers.registry) = .ok decision)
    (found : workers.registry.workers.get? decision.selectedWorkerId = some worker)
    (cold : r.modelId ∉ worker.residentModels) :
    ∃ model, models.definitions.get? r.modelId = some model ∧ 0 < model.estimatedMemoryBytes ∧
      ∀ available, worker.availableMemoryBytes = some available →
        estimate models r.modelId + coldMemory models reservations worker + reserve ≤ available := by
  subst shared
  obtain ⟨model, seen, known, member, named, accepted⟩ := PlacementPolicy.select_eligible selected
  obtain ⟨registered, held, same⟩ := mem_effectiveWorkers booked member
  rw [named] at held same
  cases found.symm.trans held
  have models := p.models.keyed _ _ known
  have positive := (p.models.positive _ _ known).1
  have unloaded : model.modelId ∉ seen.residentModels := by
    rw [same, models]
    exact cold
  refine ⟨model, known, positive, fun available registered => ?_⟩
  obtain ⟨room, left, fits⟩ := PlacementPolicy.room_of_accepted accepted unloaded
  have sum : (reservations.values.map (chargedOn decision.selectedWorkerId)).sum =
      coldMemory p.models reservations worker := booked.charged found
  rw [same] at left
  simp only [PlacementReservations.charged, registered, Option.map_some, Option.some.injEq, sum] at left
  have amount : estimate p.models r.modelId = model.estimatedMemoryBytes := by simp [estimate, known]
  omega

/-- The cold models with one more reservation. -/
theorem mem_coldModels_insert {requestId : String} {v : PlacementReservation} {worker : WorkerState} {modelId : String}
    (fresh : reservations.get? requestId = none) :
    modelId ∈ coldModels (reservations.insert requestId v) worker ↔
      (v.workerId = worker.workerId ∧ v.modelId = modelId ∧ modelId ∉ worker.residentModels) ∨
        modelId ∈ reservations.coldModels worker := by
  rw [mem_coldModels, mem_coldModels]
  constructor
  · rintro ⟨⟨i, r, found, here, named⟩, cold⟩
    rw [Dict.get?_insert] at found
    split at found
    · cases found
      exact Or.inl ⟨here, named, cold⟩
    · exact Or.inr ⟨⟨i, r, found, here, named⟩, cold⟩
  · rintro (⟨here, named, cold⟩ | ⟨⟨i, r, found, here, named⟩, cold⟩)
    · exact ⟨⟨requestId, v, Dict.get?_insert_self, here, named⟩, cold⟩
    · have differ : i ≠ requestId := by
        rintro rfl
        cases fresh.symm.trans found
      exact ⟨⟨i, r, (Dict.get?_insert_of_ne differ).trans found, here, named⟩, cold⟩

theorem get?_insert_fresh {requestId : String} {v : PlacementReservation} {i : String} {a : PlacementReservation}
    (fresh : reservations.get? requestId = none) (held : reservations.get? i = some a) :
    Dict.get? (reservations.insert requestId v) i = some a := by
  have differ : i ≠ requestId := by
    rintro rfl
    cases fresh.symm.trans held
  rw [Dict.get?_insert_of_ne differ, held]

theorem Booked.start : Booked workers models reserve .empty where
  single found := by cases found
  amount found := by cases found
  paid found := by cases found
  charged _ := rfl
  within _ _ positive := by cases positive

/-- A reservation that is not charged: its model is resident or has been charged already. -/
theorem Booked.insert_free (booked : Booked workers models reserve reservations) {requestId : String}
    {v : PlacementReservation} (fresh : reservations.get? requestId = none) (free : v.memoryBytes = 0)
    (covered : ∀ worker, workers.registry.workers.get? v.workerId = some worker → v.modelId ∉ worker.residentModels →
      ∃ j payer, reservations.get? j = some payer ∧ payer.sharesWith v ∧ payer.memoryBytes ≠ 0) :
    Booked workers models reserve (reservations.insert requestId v) := by
  have older : ∀ {i a}, Dict.get? (reservations.insert requestId v) i = some a → a.memoryBytes ≠ 0 →
      reservations.get? i = some a := by
    intro i a found charges
    rw [Dict.get?_insert] at found
    split at found
    · cases found
      exact absurd free charges
    · exact found
  have memory : ∀ {workerId worker}, workers.registry.workers.get? workerId = some worker →
      coldMemory models (reservations.insert requestId v) worker = coldMemory models reservations worker := by
    intro workerId worker known
    refine coldMemory_congr fun modelId => ?_
    rw [mem_coldModels_insert fresh]
    refine or_iff_right_of_imp ?_
    rintro ⟨here, rfl, cold⟩
    have keyed := workers.keyed workerId worker known
    rw [← here] at keyed
    obtain ⟨j, payer, held, ⟨sameWorker, sameModel⟩, -⟩ := covered worker (keyed ▸ known) cold
    exact mem_coldModels.mpr ⟨⟨j, payer, held, sameWorker.trans here, sameModel⟩, cold⟩
  refine ⟨?_, ?_, ?_, ?_, ?_⟩
  · exact fun first second chargedA chargedB => booked.single (older first chargedA) (older second chargedB) chargedA chargedB
  · exact fun found charges => booked.amount (older found charges) charges
  · intro i a worker found known cold
    rw [Dict.get?_insert] at found
    split at found
    · cases found
      obtain ⟨j, payer, held, shared, charges⟩ := covered worker known cold
      exact ⟨j, payer, get?_insert_fresh fresh held, shared, charges⟩
    · obtain ⟨j, payer, held, shared, charges⟩ := booked.paid found known cold
      exact ⟨j, payer, get?_insert_fresh fresh held, shared, charges⟩
  · intro workerId worker known
    have zero : chargedOn workerId v = 0 := by simp [chargedOn, free]
    rw [Dict.total_insert_fresh _ fresh, zero, add_zero, memory known]
    exact booked.charged known
  · intro workerId worker available known registered
    rw [memory known]
    exact booked.within known registered

/-- A reservation that is charged for the model that it makes a worker load. -/
theorem Booked.insert_charged (booked : Booked workers models reserve reservations) {requestId : String}
    {v : PlacementReservation} {worker : WorkerState} (fresh : reservations.get? requestId = none)
    (known : workers.registry.workers.get? v.workerId = some worker) (cold : v.modelId ∉ worker.residentModels)
    (charges : v.memoryBytes ≠ 0) (amount : (v.memoryBytes : Int) = estimate models v.modelId)
    (alone : ∀ i a, reservations.get? i = some a → ¬a.sharesWith v)
    (room : ∀ available, worker.availableMemoryBytes = some available →
      estimate models v.modelId + coldMemory models reservations worker + reserve ≤ available) :
    Booked workers models reserve (reservations.insert requestId v) := by
  have keyed := workers.keyed v.workerId worker known
  have added : coldMemory models (reservations.insert requestId v) worker =
      estimate models v.modelId + coldMemory models reservations worker := by
    refine coldMemory_add (fun inside => ?_) fun modelId => ?_
    · obtain ⟨⟨i, a, held, here, named⟩, -⟩ := mem_coldModels.mp inside
      exact alone i a held ⟨here.trans keyed, named⟩
    · rw [mem_coldModels_insert fresh]
      constructor
      · rintro (⟨-, rfl, -⟩ | before)
        · exact Or.inl rfl
        · exact Or.inr before
      · rintro (rfl | before)
        · exact Or.inl ⟨keyed.symm, rfl, cold⟩
        · exact Or.inr before
  have others : ∀ {workerId other}, workers.registry.workers.get? workerId = some other → workerId ≠ v.workerId →
      coldMemory models (reservations.insert requestId v) other = coldMemory models reservations other := by
    intro workerId other found differ
    refine coldMemory_congr fun modelId => ?_
    rw [mem_coldModels_insert fresh]
    refine or_iff_right_of_imp ?_
    rintro ⟨here, -, -⟩
    exact absurd (here.trans (workers.keyed workerId other found)).symm differ
  refine ⟨?_, ?_, ?_, ?_, ?_⟩
  · intro i j a b first second chargedA chargedB shared
    rw [Dict.get?_insert] at first second
    split at first <;> split at second
    · rename_i here there
      exact here.trans there.symm
    · cases first
      exact absurd ⟨shared.1.symm, shared.2.symm⟩ (alone j b second)
    · cases second
      exact absurd shared (alone i a first)
    · exact booked.single first second chargedA chargedB shared
  · intro i a found chargedA
    rw [Dict.get?_insert] at found
    split at found
    · cases found
      exact ⟨amount, fun other same => by cases known.symm.trans same; exact cold⟩
    · exact booked.amount found chargedA
  · intro i a other found registered unloaded
    rw [Dict.get?_insert] at found
    split at found
    · cases found
      exact ⟨requestId, v, Dict.get?_insert_self, ⟨rfl, rfl⟩, charges⟩
    · obtain ⟨j, payer, held, shared, paid⟩ := booked.paid found registered unloaded
      exact ⟨j, payer, get?_insert_fresh fresh held, shared, paid⟩
  · intro workerId other found
    rw [Dict.total_insert_fresh _ fresh, booked.charged found]
    by_cases same : workerId = v.workerId
    · subst same
      cases known.symm.trans found
      have value : chargedOn v.workerId v = v.memoryBytes := if_pos rfl
      rw [added, value, amount]
      omega
    · have value : chargedOn workerId v = 0 := if_neg (Ne.symm same)
      rw [others found same, value, add_zero]
  · intro workerId other available found registered positive
    by_cases same : workerId = v.workerId
    · subst same
      cases known.symm.trans found
      rw [added]
      exact room available registered
    · rw [others found same] at positive ⊢
      exact booked.within found registered positive

theorem Booked.select (booked : Booked workers models reserve reservations) (r : RequestRecord)
    (choice : PlacementChoice) {p : PlacementPolicy} (shared : p.models = models)
    (covered : reserve ≤ p.memorySafetyReserveBytes) :
    Booked workers models reserve (reservations.perform workers models (.selectAndReserve r choice p)) := by
  rcases perform_select_cases workers models reservations r choice p with same | ⟨decision, worker, fresh, selected, found, same⟩
  · rw [same]
    exact booked
  rw [same]
  have keyed := workers.keyed _ worker found
  have known : workers.registry.workers.get? worker.workerId = some worker := keyed ▸ found
  by_cases cold : r.modelId ∉ worker.residentModels
  · by_cases present : ∃ i a, reservations.get? i = some a ∧ a.workerId = worker.workerId ∧ a.modelId = r.modelId
    · obtain ⟨i, a, held, here, named⟩ := present
      have free : chargeFor models reservations worker r.modelId = 0 := by
        refine if_pos (Or.inr (List.any_eq_true.mpr ⟨a, Dict.mem_values_iff.mpr ⟨i, held⟩, ?_⟩))
        simp [here, named]
      refine booked.insert_free fresh free fun other registered unloaded => ?_
      have placed : workers.registry.workers.get? a.workerId = some other := here ▸ registered
      obtain ⟨j, payer, paid, ⟨sameWorker, sameModel⟩, charges⟩ := booked.paid held placed (named ▸ unloaded)
      exact ⟨j, payer, paid, ⟨sameWorker.trans here, sameModel.trans named⟩, charges⟩
    · obtain ⟨model, defined, positive, room⟩ := booked.reserve_cold shared covered selected found cold
      have amount : chargeFor models reservations worker r.modelId = model.estimatedMemoryBytes := by
        unfold chargeFor
        rw [if_neg, defined]
        · rfl
        rintro (resident | listed)
        · exact cold resident
        · obtain ⟨a, member, same⟩ := List.any_eq_true.mp listed
          obtain ⟨i, held⟩ := Dict.mem_values_iff.mp member
          simp only [Bool.and_eq_true, decide_eq_true_eq] at same
          exact present ⟨i, a, held, same.1, same.2⟩
      refine booked.insert_charged fresh known cold ?_ ?_ ?_ room
      · dsimp only
        omega
      · dsimp only
        rw [amount, estimate, defined]
        rfl
      · exact fun i a held same => present ⟨i, a, held, same.1, same.2⟩
  · refine booked.insert_free fresh (if_pos (Or.inl (not_not.mp cold))) fun other registered unloaded => ?_
    cases known.symm.trans registered
    exact absurd unloaded cold

theorem get?_of_erase {requestId i : String} {a : PlacementReservation}
    (found : Dict.get? (reservations.erase requestId) i = some a) : i ≠ requestId ∧ reservations.get? i = some a := by
  rw [Dict.get?_erase] at found
  split at found
  · cases found
  · rename_i differ
    exact ⟨differ, found⟩

/-- A reservation that is not charged is taken out. -/
theorem Booked.erase_free (booked : Booked workers models reserve reservations) {requestId : String}
    {r : PlacementReservation} (held : reservations.get? requestId = some r) (free : r.memoryBytes = 0) :
    Booked workers models reserve (reservations.erase requestId) := by
  have kept : ∀ {j payer}, reservations.get? j = some payer → payer.memoryBytes ≠ 0 →
      Dict.get? (reservations.erase requestId) j = some payer := by
    intro j payer found charges
    rw [Dict.get?_erase_of_ne, found]
    rintro rfl
    cases held.symm.trans found
    exact charges free
  have memory : ∀ {workerId worker}, workers.registry.workers.get? workerId = some worker →
      coldMemory models (reservations.erase requestId) worker = coldMemory models reservations worker := by
    intro workerId worker known
    refine coldMemory_congr fun modelId => ?_
    rw [mem_coldModels, mem_coldModels]
    refine and_congr_left fun cold => ⟨?_, ?_⟩
    · rintro ⟨i, a, found, here, named⟩
      exact ⟨i, a, (get?_of_erase found).2, here, named⟩
    · rintro ⟨i, a, found, here, named⟩
      have keyed := workers.keyed workerId worker known
      have placed : workers.registry.workers.get? a.workerId = some worker := here.trans keyed ▸ known
      obtain ⟨j, payer, paid, ⟨sameWorker, sameModel⟩, charges⟩ := booked.paid found placed (named ▸ cold)
      exact ⟨j, payer, kept paid charges, sameWorker.trans here, sameModel.trans named⟩
  refine ⟨?_, ?_, ?_, ?_, ?_⟩
  · exact fun first second chargedA chargedB =>
      booked.single (get?_of_erase first).2 (get?_of_erase second).2 chargedA chargedB
  · exact fun found charges => booked.amount (get?_of_erase found).2 charges
  · intro i a worker found known cold
    obtain ⟨j, payer, paid, shared, charges⟩ := booked.paid (get?_of_erase found).2 known cold
    exact ⟨j, payer, kept paid charges, shared, charges⟩
  · intro workerId worker known
    have split := reservations.total_erase (chargedOn workerId) held
    have zero : chargedOn workerId r = 0 := by simp [chargedOn, free]
    rw [memory known, ← booked.charged known]
    omega
  · intro workerId worker available known registered
    rw [memory known]
    exact booked.within known registered

/-- A reservation that is charged is taken out, and no other reservation needs its model. -/
theorem Booked.erase_charged (booked : Booked workers models reserve reservations) {requestId : String}
    {r : PlacementReservation} (held : reservations.get? requestId = some r) (charges : r.memoryBytes ≠ 0)
    (last : ∀ i other, reservations.get? i = some other → other.sharesWith r → i = requestId) :
    Booked workers models reserve (reservations.erase requestId) := by
  obtain ⟨amount, cold⟩ := booked.amount held charges
  have freed : ∀ {worker}, workers.registry.workers.get? r.workerId = some worker →
      coldMemory models reservations worker =
        estimate models r.modelId + coldMemory models (reservations.erase requestId) worker := by
    intro worker known
    have keyed := workers.keyed r.workerId worker known
    refine coldMemory_add (fun inside => ?_) fun modelId => ?_
    · obtain ⟨⟨i, a, found, here, named⟩, -⟩ := mem_coldModels.mp inside
      obtain ⟨differ, found⟩ := get?_of_erase found
      exact differ (last i a found ⟨here.trans keyed, named⟩)
    · rw [mem_coldModels, mem_coldModels]
      constructor
      · rintro ⟨⟨i, a, found, here, rfl⟩, unloaded⟩
        by_cases same : i = requestId
        · subst same
          cases held.symm.trans found
          exact Or.inl rfl
        · exact Or.inr ⟨⟨i, a, by rw [Dict.get?_erase_of_ne same, found], here, rfl⟩, unloaded⟩
      · rintro (rfl | ⟨⟨i, a, found, here, named⟩, unloaded⟩)
        · exact ⟨⟨requestId, r, held, keyed.symm, rfl⟩, cold worker known⟩
        · exact ⟨⟨i, a, (get?_of_erase found).2, here, named⟩, unloaded⟩
  have others : ∀ {workerId worker}, workers.registry.workers.get? workerId = some worker → r.workerId ≠ workerId →
      coldMemory models (reservations.erase requestId) worker = coldMemory models reservations worker := by
    intro workerId worker known differ
    refine coldMemory_congr fun modelId => ?_
    rw [mem_coldModels, mem_coldModels]
    refine and_congr_left fun _ => ⟨?_, ?_⟩
    · rintro ⟨i, a, found, here, named⟩
      exact ⟨i, a, (get?_of_erase found).2, here, named⟩
    · rintro ⟨i, a, found, here, named⟩
      refine ⟨i, a, ?_, here, named⟩
      rw [Dict.get?_erase_of_ne, found]
      rintro rfl
      cases held.symm.trans found
      exact differ (here.trans (workers.keyed workerId worker known))
  refine ⟨?_, ?_, ?_, ?_, ?_⟩
  · exact fun first second chargedA chargedB =>
      booked.single (get?_of_erase first).2 (get?_of_erase second).2 chargedA chargedB
  · exact fun found paid => booked.amount (get?_of_erase found).2 paid
  · intro i a worker found known unloaded
    obtain ⟨differ, before⟩ := get?_of_erase found
    obtain ⟨j, payer, paid, shared, full⟩ := booked.paid before known unloaded
    refine ⟨j, payer, ?_, shared, full⟩
    rw [Dict.get?_erase_of_ne, paid]
    rintro rfl
    cases held.symm.trans paid
    exact differ (last i a before ⟨shared.1.symm, shared.2.symm⟩)
  · intro workerId worker known
    have split := reservations.total_erase (chargedOn workerId) held
    have total := booked.charged known
    by_cases same : r.workerId = workerId
    · subst same
      have value : chargedOn r.workerId r = r.memoryBytes := if_pos rfl
      have memory := freed known
      omega
    · have value : chargedOn workerId r = 0 := if_neg same
      rw [others known same]
      omega
  · intro workerId worker available known registered positive
    by_cases same : r.workerId = workerId
    · subst same
      have memory := freed known
      have room := booked.within known registered
      omega
    · rw [others known same] at positive ⊢
      exact booked.within known registered positive

theorem Booked.release (booked : Booked workers models reserve reservations) {requestId : String}
    (keeps : reservations.KeepsCharges (.release requestId)) :
    Booked workers models reserve (reservations.perform workers models (.release requestId)) := by
  show Booked workers models reserve (reservations.erase requestId)
  cases held : reservations.get? requestId with
  | none =>
    rw [Dict.erase_of_absent held]
    exact booked
  | some r =>
    by_cases charges : r.memoryBytes = 0
    · exact booked.erase_free held charges
    · exact booked.erase_charged held charges (keeps r held charges)

/-- The book stays in order when no release takes back a charge that is still needed. -/
theorem Reach.booked (reached : Reach workers models reserve KeepsCharges reservations) :
    Booked workers models reserve reservations := by
  induction reached with
  | start => exact Booked.start
  | select before allowed shared covered ih => exact ih.select _ _ shared covered
  | release before allowed ih => exact ih.release allowed

end Steps

/-- As long as no release takes back a charge that another reservation still
needs, the models that a worker has to load for its reservations fit into its
available memory, and leave the reserve free. -/
theorem reserved_memory_within {workers : RegisteredWorkers} {models : ModelRegistry} {reserve : Nat}
    {reservations : PlacementReservations} (reached : Reach workers models reserve KeepsCharges reservations)
    {workerId : String} {worker : WorkerState} {available : Int}
    (known : workers.registry.workers.get? workerId = some worker)
    (registered : worker.availableMemoryBytes = some available) :
    coldMemory models reservations worker +
      (if 0 < coldMemory models reservations worker then (reserve : Int) else 0) ≤ available := by
  have nonneg := WorkerState.available_nonneg (workers.checked workerId worker known) registered
  have least : 0 ≤ coldMemory models reservations worker := coldMemory_nonneg worker
  split
  · rename_i positive
    exact reached.booked.within known registered positive
  · omega

namespace Sample

/-- Two models, and a worker with room for one of them. -/
def models : ModelRegistry where
  definitions := ⟨[("first", ⟨"first", "main", 200, 100, 200⟩), ("second", ⟨"second", "main", 400, 100, 200⟩)], by decide⟩
  profiles _ := ⟨.simulated, 30⟩
  keyed modelId model found := by
    have member := Dict.get?_eq_some_iff.mp found
    simp only [List.mem_cons, List.not_mem_nil, or_false, Prod.mk.injEq] at member
    rcases member with ⟨rfl, rfl⟩ | ⟨rfl, rfl⟩ <;> rfl
  positive modelId model found := by
    have member := Dict.get?_eq_some_iff.mp found
    simp only [List.mem_cons, List.not_mem_nil, or_false, Prod.mk.injEq] at member
    rcases member with ⟨rfl, rfl⟩ | ⟨rfl, rfl⟩ <;> decide

def worker : WorkerState := { TenantAdmissionController.Sample.worker with
  totalMemoryBytes := some 500
  availableMemoryBytes := some 500 }

def workers : RegisteredWorkers where
  registry := ⟨30, 10, ⟨[("worker", worker)], by decide⟩, by decide⟩
  keyed workerId held found := by
    have member := Dict.get?_eq_some_iff.mp found
    simp only [List.mem_cons, List.not_mem_nil, or_false, Prod.mk.injEq] at member
    obtain ⟨rfl, rfl⟩ := member
    rfl
  checked workerId held found := by
    have member := Dict.get?_eq_some_iff.mp found
    simp only [List.mem_cons, List.not_mem_nil, or_false, Prod.mk.injEq] at member
    obtain ⟨rfl, rfl⟩ := member
    rfl

def policy : PlacementPolicy := ⟨models, fun _ => ⟨.simulatedGpu, 0⟩, 50, id⟩

def request (requestId modelId : String) (identified : requestId ≠ "" ∧ "tenant" ≠ "" ∧ modelId ≠ "") : RequestRecord :=
  { TenantAdmissionController.Sample.request with
    requestId := requestId
    modelId := modelId
    identified := identified }

/-- A request for each model, and one that shares the first model. -/
def first : PlacementCall := .selectAndReserve (request "first-1" "first" (by decide)) .modelResidencyAware policy

def sharing : PlacementCall := .selectAndReserve (request "first-2" "first" (by decide)) .modelResidencyAware policy

def second : PlacementCall := .selectAndReserve (request "second-1" "second" (by decide)) .modelResidencyAware policy

/-- The reservations after two requests for the first model, a release of the one that was charged, and a request
for the second model. -/
def overcommitted : PlacementReservations :=
  (((perform workers models .empty first).perform workers models sharing).perform workers models
    (.release "first-1")).perform workers models second

end Sample

open Sample in
theorem reserved_memory_within_sample :
    coldMemory models ((perform workers models .empty first).perform workers models sharing) worker +
      (if 0 < coldMemory models ((perform workers models .empty first).perform workers models sharing) worker then
        ((50 : Nat) : Int) else 0) ≤ 500 := by
  have reached : Reach workers models 50 KeepsCharges
      ((perform workers models .empty first).perform workers models sharing) :=
    .select (.select .start trivial rfl le_rfl) trivial rfl le_rfl
  have known : workers.registry.workers.get? "worker" = some worker := rfl
  exact reserved_memory_within reached known rfl

open Sample in
/-- The charge goes with the reservation that was released, although another still needs the model. -/
theorem released_charge_overcommits : Reach workers models 50 (fun _ _ => True) overcommitted ∧
    workers.registry.workers.get? "worker" = some worker ∧ worker.availableMemoryBytes = some 500 ∧
    coldMemory models overcommitted worker = 600 := by
  refine ⟨?_, rfl, rfl, by decide⟩
  exact .select (.release (.select (.select .start trivial rfl le_rfl) trivial rfl le_rfl) trivial) trivial rfl le_rfl

end PlacementReservations

end ServingPlatform
