import Mathlib
import ServingPlatform.FairQueue.Fairness
import ServingPlatform.FairQueue.PopUntil

namespace ServingPlatform

def WeightedFairRequestQueue.depth (q : WeightedFairRequestQueue) : Nat := (q.queues.values.map List.length).sum

def zeroDivisionError : Raised := ⟨.other "ZeroDivisionError" false, "float division by zero"⟩

/-- `min`: the first element that no later one comes before. -/
def firstLeast {α : Type} (before : α → α → Bool) (best : α) : List α → α
  | [] => best
  | a :: rest => if before a best then firstLeast before a rest else firstLeast before best rest

theorem firstLeast_mem {α : Type} (before : α → α → Bool) (best : α) (rest : List α) :
    firstLeast before best rest ∈ best :: rest := by
  induction rest generalizing best with
  | nil => exact List.mem_singleton_self best
  | cons a rest ih =>
    unfold firstLeast
    split
    · exact List.mem_cons_of_mem _ (ih a)
    · rcases List.mem_cons.mp (ih best) with same | member
      · rw [same]
        exact List.mem_cons_self
      · exact List.mem_cons_of_mem _ (List.mem_cons_of_mem _ member)

/-- A worker of the simulation, with the models that it has loaded. -/
structure SimulatedWorker where
  workerId : String
  tokensPerSecond : Rat
  maxResidentModels : Int
  residentModels : List String
  availableAt : Rat
  lastUsed : Dict String Nat

namespace SimulatedWorker

/-- When a worker would be done with a request. -/
def finish (loadSeconds : Dict String Rat) (r : RequestRecord) (worker : SimulatedWorker) : Except Raised Rat :=
  match if r.modelId ∈ worker.residentModels then some 0 else loadSeconds.get? r.modelId with
  | none => .error (keyError s!"'{r.modelId}'")
  | some load =>
    if worker.tokensPerSecond = 0 then .error zeroDivisionError
    else .ok (max worker.availableAt r.createdAt + load + r.estimatedTokens / worker.tokensPerSecond)

def choices (loadSeconds : Dict String Rat) (r : RequestRecord) :
    List SimulatedWorker → Except Raised (List (Rat × SimulatedWorker))
  | [] => .ok []
  | worker :: rest =>
    match worker.finish loadSeconds r with
    | .error raised => .error raised
    | .ok at_ =>
      match choices loadSeconds r rest with
      | .error raised => .error raised
      | .ok others => .ok ((at_, worker) :: others)

/-- `min(choices)`: the earliest finish, then the smallest worker id. -/
def earliest (best : Rat × SimulatedWorker) (rest : List (Rat × SimulatedWorker)) : Rat × SimulatedWorker :=
  firstLeast (fun choice best => choice.1 < best.1 ∨ choice.1 = best.1 ∧ choice.2.workerId < best.2.workerId) best rest

/-- `last_used.get(model, -1)`. -/
def usedAt (worker : SimulatedWorker) (model : String) : Int := (worker.lastUsed.get? model).elim (-1) Int.ofNat

/-- `min(resident_models, key=...)`: the first of the models that were not used for longest. -/
def victim (worker : SimulatedWorker) (best : String) (rest : List String) : String :=
  firstLeast (fun model best => worker.usedAt model < worker.usedAt best) best rest

/-- The models after one more of them has been loaded. -/
def load (worker : SimulatedWorker) (model : String) : Except Raised (List String) :=
  if worker.residentModels.length < worker.maxResidentModels then .ok (worker.residentModels ++ [model])
  else
    match worker.residentModels with
    | [] => .error (valueError "min() iterable argument is empty")
    | first :: rest => .ok (worker.residentModels.erase (worker.victim first rest) ++ [model])

/-- The worker once a request has been scheduled on it. -/
def serve (worker : SimulatedWorker) (model : String) (tick : Nat) (at_ : Rat) : Except Raised SimulatedWorker :=
  let used := { worker with lastUsed := worker.lastUsed.insert model tick, availableAt := at_ }
  if model ∈ worker.residentModels then .ok used
  else (worker.load model).map fun models => { used with residentModels := models }

end SimulatedWorker

/-- What `simulate` reads of its document. Two workers of one id would be compared as objects. -/
structure Workload where
  tenants : List TenantLimits
  fairQueueQuantumTokens : Int
  priorityAgingSeconds : Rat
  loadSeconds : Dict String Rat
  workers : List SimulatedWorker
  requests : List ObjectId
  objects : Objects
  distinct : (workers.map SimulatedWorker.workerId).Nodup

/-- The variables of the loop of `simulate`; each served request is kept with its finish. -/
structure Simulation where
  queue : WeightedFairRequestQueue
  workers : List SimulatedWorker
  tick : Nat
  cacheHits : Nat
  cacheMisses : Nat
  deadlineMisses : Nat
  totalOutputTokens : Nat
  completed : Dict String Nat
  scheduled : Dict String Nat
  served : List (ObjectId × Rat)

namespace Simulation

def late (objects : Objects) (service : ObjectId × Rat) : Bool :=
  match (objects service.1).deadline with
  | .finite at_ => at_ < service.2
  | .infinite => false

/-- `counts[tenant] += 1`; the tenants of queued requests are configured. -/
def countFor (counts : Dict String Nat) (tenant : String) : Dict String Nat :=
  counts.insert tenant ((counts.get? tenant).getD 0 + 1)

def hits (r : RequestRecord) (worker : SimulatedWorker) : Bool := r.modelId ∈ worker.residentModels

/-- The loop's body for a popped request, once its worker has been found. -/
def record (s : Simulation) (objects : Objects) (i : ObjectId) (at_ : Rat) (worker used : SimulatedWorker) :
    Simulation :=
  let r := objects i
  { s with
    workers := s.workers.map fun other => if other.workerId = worker.workerId then used else other
    tick := s.tick + 1
    cacheHits := if hits r worker then s.cacheHits + 1 else s.cacheHits
    cacheMisses := if hits r worker then s.cacheMisses else s.cacheMisses + 1
    deadlineMisses := if late objects (i, at_) then s.deadlineMisses + 1 else s.deadlineMisses
    totalOutputTokens := if late objects (i, at_) then s.totalOutputTokens else s.totalOutputTokens + r.maxNewTokens
    completed := if late objects (i, at_) then s.completed else countFor s.completed r.tenantId
    scheduled := countFor s.scheduled r.tenantId
    served := s.served ++ [(i, at_)] }

def schedule (s : Simulation) (loadSeconds : Dict String Rat) (objects : Objects) (i : ObjectId) :
    Except Raised Simulation :=
  match SimulatedWorker.choices loadSeconds (objects i) s.workers with
  | .error raised => .error raised
  | .ok [] => .error (valueError "min() iterable argument is empty")
  | .ok (first :: rest) =>
    let (at_, worker) := SimulatedWorker.earliest first rest
    match worker.serve (objects i).modelId (s.tick + 1) at_ with
    | .error raised => .error raised
    | .ok used => .ok (s.record objects i at_ worker used)

/-- `while queue.depth()`, for a number of turns; the clock of the queue stands still. -/
def drain (loadSeconds : Dict String Rat) (objects : Objects) : Nat → Simulation → Option (Except Raised Simulation)
  | turns, s =>
    if s.queue.depth = 0 then some (.ok s)
    else
      match turns with
      | 0 => none
      | turns + 1 =>
        match s.queue.pop objects fun _ => 0 with
        | (.error raised, _) => some (.error raised)
        | (.ok none, queue) => drain loadSeconds objects turns { s with queue }
        | (.ok (some i), queue) =>
          match { s with queue }.schedule loadSeconds objects i with
          | .error raised => some (.error raised)
          | .ok s => drain loadSeconds objects turns s

end Simulation

namespace Workload

variable (w : Workload)

def enqueueAll (q : WeightedFairRequestQueue) (objects : Objects) :
    List ObjectId → Except Raised (WeightedFairRequestQueue × Objects)
  | [] => .ok (q, objects)
  | i :: rest =>
    match q.enqueue objects i 0 with
    | (.error raised, _) => .error raised
    | (.ok (), q, objects) => enqueueAll q objects rest

def begin (queue : WeightedFairRequestQueue) : Simulation where
  queue
  workers := w.workers
  tick := 0
  cacheHits := 0
  cacheMisses := 0
  deadlineMisses := 0
  totalOutputTokens := 0
  completed := TenantLimits.table (fun _ => 0) w.tenants
  scheduled := TenantLimits.table (fun _ => 0) w.tenants
  served := []

/-- `simulate`, for a number of turns of its loop. -/
def simulate (turns : Nat) : Option (Except Raised Simulation) :=
  match WeightedFairRequestQueue.init w.tenants w.fairQueueQuantumTokens w.priorityAgingSeconds with
  | .error raised => some (.error raised)
  | .ok queue =>
    match enqueueAll queue w.objects w.requests with
    | .error raised => some (.error raised)
    | .ok (queue, objects) => Simulation.drain w.loadSeconds objects turns (w.begin queue)

end Workload

namespace WeightedFairRequestQueue

variable {q q' : WeightedFairRequestQueue} {objects : Objects} {tenant : String} {rest : List String}

theorem depth_eq_zero : q.depth = 0 ↔ ∀ tenant, q.queueOf tenant = [] := by
  unfold depth
  rw [List.sum_eq_zero_iff, List.forall_mem_map]
  constructor
  · intro empty tenant
    unfold queueOf
    cases found : q.queues.get? tenant with
    | none => rfl
    | some queue => exact List.length_eq_zero_iff.mp (empty queue (Dict.mem_values_iff.mpr ⟨tenant, found⟩))
  · intro empty queue member
    obtain ⟨tenant, found⟩ := Dict.mem_values_iff.mp member
    have none := empty tenant
    unfold queueOf at none
    rw [found] at none
    exact List.length_eq_zero_iff.mpr none

/-- Every waiting request could be served. -/
def Lively (q : WeightedFairRequestQueue) (objects : Objects) : Prop :=
  ∀ tenant, ∀ i ∈ q.queueOf tenant, (objects i).terminal = false

/-- A tenant's queue once a request has been taken out of its own. -/
def without (q : WeightedFairRequestQueue) (objects : Objects) (popped : Option ObjectId) (tenant : String) :
    List ObjectId :=
  popped.elim (q.queueOf tenant) fun i =>
    if tenant = (objects i).tenantId then (q.queueOf tenant).erase i else q.queueOf tenant

/-- What a pop does where every waiting request could be served. -/
structure Popped (objects : Objects) (q : WeightedFairRequestQueue) (popped : Option ObjectId)
    (q' : WeightedFairRequestQueue) : Prop where
  sound : q'.Sound objects
  queues : ∀ tenant, q'.queueOf tenant = q.without objects popped tenant
  quantum : ∀ tenant, q'.quantumOf tenant = q.quantumOf tenant
  member : ∀ i, popped = some i → i ∈ q.queueOf (objects i).tenantId

theorem Popped.lively {popped : Option ObjectId} (pop : Popped objects q popped q') (lively : q.Lively objects) :
    q'.Lively objects := by
  intro tenant i member
  rw [pop.queues] at member
  cases popped with
  | none => exact lively tenant i member
  | some j =>
    simp only [without, Option.elim_some] at member
    split at member
    · exact lively tenant i (List.mem_of_mem_erase member)
    · exact lively tenant i member

theorem live_of_lively (lively : q.Lively objects) (tenant : String) : q.live objects tenant = q.queueOf tenant :=
  List.filter_eq_self.mpr fun i member => by rw [lively tenant i member]; rfl

theorem Visited.pops {result : Option ObjectId} (visited : q.Visited objects tenant rest result q')
    (sound : q.Sound objects) (front : q.active = tenant :: rest) (lively : q.Lively objects) :
    Popped objects q result q' := by
  have live := live_of_lively lively tenant
  refine ⟨visited.sound sound front, fun other => ?_, visited.quantum, fun i taken => ?_⟩
  · cases visited with
    | dropped empty =>
      simp only [queueOf, queueOf_insert, without, Option.elim_none]
      split
      · subst other
        exact live
      · rfl
    | served chosen affordable =>
      obtain ⟨own, -⟩ := sound.own tenant _ (live ▸ chosen)
      simp only [queueOf, queueOf_insert, without, Option.elim_some, own]
      split
      · subst other
        rw [live]
        rfl
      · rfl
    | passed chosen short =>
      simp only [queueOf, queueOf_insert, without, Option.elim_none]
      split
      · subst other
        exact live
      · rfl
  · subst taken
    cases visited with
    | served chosen affordable =>
      rw [live] at chosen
      rw [(sound.own tenant i chosen).1]
      exact chosen

theorem popLoop_pops (sound : q.Sound objects) (lively : q.Lively objects) (clock : Nat → Seconds) (visits : Nat) :
    ∃ result q', popLoop objects clock visits q = (.ok result, q') ∧ Popped objects q result q' := by
  have stays : Popped objects q none q :=
    ⟨sound, fun _ => rfl, fun _ => rfl, fun i absent => by cases absent⟩
  induction visits generalizing q with
  | zero => exact ⟨none, q, rfl, stays⟩
  | succ visits ih =>
    cases front : q.active with
    | nil =>
      simp only [popLoop, front]
      exact ⟨none, q, rfl, stays⟩
    | cons tenant rest =>
      obtain ⟨result, middle, run, visited⟩ := visit_cases sound (clock visits) tenant rest
      have pop := visited.pops sound front lively
      simp only [popLoop, front, run]
      cases result with
      | some i => exact ⟨some i, middle, rfl, pop⟩
      | none =>
        have same : ∀ tenant, middle.queueOf tenant = q.queueOf tenant := pop.queues
        obtain ⟨result, q', run, later⟩ := ih pop.sound (pop.lively lively)
          ⟨pop.sound, fun _ => rfl, fun _ => rfl, fun i absent => by cases absent⟩
        refine ⟨result, q', run, later.sound, fun tenant => ?_, fun tenant => ?_, fun i taken => ?_⟩
        · rw [later.queues, without, without, same]
        · rw [later.quantum, pop.quantum]
        · rw [← same]
          exact later.member i taken

theorem pop_pops (sound : q.Sound objects) (lively : q.Lively objects) (clock : Nat → Seconds) :
    ∃ result q', q.pop objects clock = (.ok result, q') ∧ Popped objects q result q' :=
  popLoop_pops sound lively clock q.active.length

end WeightedFairRequestQueue

namespace SimulatedWorker

variable {loadSeconds : Dict String Rat} {r : RequestRecord} {worker used : SimulatedWorker} {at_ : Rat} {tick : Nat}

theorem choices_ok (loadSeconds : Dict String Rat) (r : RequestRecord) (workers : List SimulatedWorker)
    (finishes : ∀ worker ∈ workers, ∃ at_, worker.finish loadSeconds r = .ok at_) :
    ∃ choices, SimulatedWorker.choices loadSeconds r workers = .ok choices ∧
      List.Forall₂ (fun worker choice => choice.2 = worker ∧ worker.finish loadSeconds r = .ok choice.1)
        workers choices := by
  induction workers with
  | nil => exact ⟨[], rfl, .nil⟩
  | cons worker rest ih =>
    obtain ⟨at_, found⟩ := finishes worker List.mem_cons_self
    obtain ⟨others, run, agree⟩ := ih fun other member => finishes other (List.mem_cons_of_mem _ member)
    refine ⟨(at_, worker) :: others, ?_, .cons ⟨rfl, found⟩ agree⟩
    rw [SimulatedWorker.choices, found, run]

/-- What `simulate` relies on for a worker. -/
structure Ready (worker : SimulatedWorker) : Prop where
  speed : 0 < worker.tokensPerSecond
  room : worker.residentModels ≠ [] ∨ 0 < worker.maxResidentModels

theorem finish_ok (ready : worker.Ready) (known : ∃ load, loadSeconds.get? r.modelId = some load ∧ 0 ≤ load) :
    ∃ at_, worker.finish loadSeconds r = .ok at_ ∧ worker.availableAt ≤ at_ ∧ (r.createdAt : Rat) ≤ at_ := by
  obtain ⟨load, found, positive⟩ := known
  have some : ∃ load, (if r.modelId ∈ worker.residentModels then Option.some 0 else loadSeconds.get? r.modelId) =
      Option.some load ∧ 0 ≤ load := by
    by_cases resident : r.modelId ∈ worker.residentModels
    · exact ⟨0, if_pos resident, le_refl _⟩
    · exact ⟨load, (if_neg resident).trans found, positive⟩
  obtain ⟨load, found, positive⟩ := some
  have work : 0 ≤ (r.estimatedTokens : Rat) / worker.tokensPerSecond :=
    div_nonneg (Nat.cast_nonneg _) ready.speed.le
  have least : max worker.availableAt r.createdAt ≤
      max worker.availableAt r.createdAt + load + r.estimatedTokens / worker.tokensPerSecond := by
    rw [add_assoc]
    exact le_add_of_nonneg_right (add_nonneg positive work)
  refine ⟨_, ?_, le_trans (le_max_left _ _) least, le_trans (le_max_right _ _) least⟩
  unfold finish
  rw [found]
  exact if_neg (ne_of_gt ready.speed)

theorem load_ok (ready : worker.Ready) (model : String) : ∃ models, worker.load model = .ok models ∧ models ≠ [] ∧
    (models.length : Int) ≤ max worker.maxResidentModels worker.residentModels.length := by
  unfold load
  by_cases room : (worker.residentModels.length : Int) < worker.maxResidentModels
  · refine ⟨worker.residentModels ++ [model], if_pos room, List.append_ne_nil_of_right_ne_nil _ (List.cons_ne_nil _ _), ?_⟩
    rw [List.length_append, List.length_singleton]
    omega
  · rw [if_neg room]
    cases models : worker.residentModels with
    | nil =>
      rw [models] at room
      rcases ready.room with some | positive
      · exact absurd models some
      · exact absurd positive room
    | cons first rest =>
      refine ⟨_, rfl, List.append_ne_nil_of_right_ne_nil _ (List.cons_ne_nil _ _), ?_⟩
      have member : worker.victim first rest ∈ first :: rest := firstLeast_mem _ first rest
      have fewer := List.length_erase_of_mem member
      rw [List.length_append, fewer]
      simp only [List.length_cons, List.length_nil]
      omega

/-- How a worker of the workload may look later. -/
structure Onward (start worker : SimulatedWorker) : Prop where
  workerId : worker.workerId = start.workerId
  speed : worker.tokensPerSecond = start.tokensPerSecond
  limit : worker.maxResidentModels = start.maxResidentModels
  resident : (worker.residentModels.length : Int) ≤ max start.maxResidentModels start.residentModels.length
  available : start.availableAt ≤ worker.availableAt
  room : worker.residentModels ≠ [] ∨ 0 < worker.maxResidentModels

theorem serve_ok (ready : worker.Ready) (model : String) (tick : Nat) (later : worker.availableAt ≤ at_) :
    ∃ used, worker.serve model tick at_ = .ok used ∧ used.availableAt = at_ ∧ worker.Onward used := by
  unfold serve
  by_cases resident : model ∈ worker.residentModels
  · exact ⟨_, if_pos resident, rfl, rfl, rfl, rfl, le_max_right _ _, later, ready.room⟩
  · obtain ⟨models, loaded, some, bound⟩ := load_ok ready model
    let used : SimulatedWorker := { worker with
      lastUsed := worker.lastUsed.insert model tick
      availableAt := at_
      residentModels := models }
    refine ⟨used, ?_, rfl, rfl, rfl, rfl, bound, later, Or.inl some⟩
    dsimp only
    rw [if_neg resident, loaded]
    rfl

theorem Onward.trans {start worker used : SimulatedWorker} (first : start.Onward worker)
    (second : worker.Onward used) : start.Onward used where
  workerId := second.workerId.trans first.workerId
  speed := second.speed.trans first.speed
  limit := second.limit.trans first.limit
  resident := by
    have before := first.resident
    have after := second.resident
    rw [first.limit] at after
    omega
  available := le_trans first.available second.available
  room := second.room

theorem Onward.ready {start : SimulatedWorker} (onward : start.Onward worker) (ready : start.Ready) : worker.Ready :=
  ⟨by rw [onward.speed]; exact ready.speed, onward.room⟩

theorem Onward.refl (ready : worker.Ready) : worker.Onward worker :=
  ⟨rfl, rfl, rfl, le_max_right _ _, le_refl _, ready.room⟩

end SimulatedWorker

section Related

variable {α β : Type} {R : α → β → Prop} {as : List α} {bs : List β}

theorem exists_related_of_mem (related : List.Forall₂ R as bs) {b : β} (member : b ∈ bs) : ∃ a ∈ as, R a b := by
  induction related with
  | nil => cases member
  | cons first _ ih =>
    rcases List.mem_cons.mp member with rfl | later
    · exact ⟨_, List.mem_cons_self, first⟩
    · obtain ⟨a, listed, holds⟩ := ih later
      exact ⟨a, List.mem_cons_of_mem _ listed, holds⟩

theorem related_map (related : List.Forall₂ R as bs) {f : β → β} (step : ∀ a, ∀ b ∈ bs, R a b → R a (f b)) :
    List.Forall₂ R as (bs.map f) := by
  induction related with
  | nil => exact .nil
  | cons first _ ih =>
    exact .cons (step _ _ List.mem_cons_self first) (ih fun a b member => step a b (List.mem_cons_of_mem _ member))

end Related

end ServingPlatform
