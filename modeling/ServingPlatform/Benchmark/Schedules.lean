import Mathlib
import ServingPlatform.Benchmark.Evaluation

namespace ServingPlatform

namespace Workload

/-- A workload that `simulate` can run: what its queue, its registry of models and its workers need. -/
structure Ready (w : Workload) : Prop where
  quantum : 0 < w.fairQueueQuantumTokens
  aging : 0 < w.priorityAgingSeconds
  distinct : (w.requests.map fun i => (w.objects i).requestId).Nodup
  admitted : ∀ i ∈ w.requests, (w.objects i).status = .admitted
  configured : ∀ i ∈ w.requests, (TenantLimits.table id w.tenants).contains (w.objects i).tenantId = true
  known : ∀ i ∈ w.requests, ∃ load, w.loadSeconds.get? (w.objects i).modelId = some load ∧ 0 ≤ load
  workers : ∀ worker ∈ w.workers, worker.Ready
  some : w.workers ≠ []

/-- The requests once some of them have entered the queue. -/
def entered (w : Workload) (done : List ObjectId) : Objects := fun i =>
  if i ∈ done then (w.objects i).enter .queued 0 else w.objects i

/-- Whether a service is one of a tenant's. -/
def of (w : Workload) (tenant : String) (service : ObjectId × Rat) : Bool := (w.objects service.1).tenantId = tenant

def late (w : Workload) (service : ObjectId × Rat) : Bool := Simulation.late w.objects service

/-- What holds between two turns of the loop. -/
structure Books (w : Workload) (s : Simulation) : Prop where
  sound : s.queue.Sound (w.entered w.requests)
  lively : s.queue.Lively (w.entered w.requests)
  quantum : ∀ i ∈ w.requests, 0 < s.queue.quantumOf (w.objects i).tenantId
  counted : ∀ i, (s.served.map Prod.fst).count i + (s.queue.queueOf (w.objects i).tenantId).count i = w.requests.count i
  hits : s.cacheHits + s.cacheMisses = s.served.length
  misses : s.deadlineMisses = s.served.countP w.late
  scheduled : ∀ tenant, (s.scheduled.get? tenant).getD 0 = s.served.countP (w.of tenant)
  completed : ∀ tenant, (s.completed.get? tenant).getD 0 = s.served.countP fun service =>
    w.of tenant service && !w.late service
  workers : List.Forall₂ SimulatedWorker.Onward w.workers s.workers
  finishes : ∀ service ∈ s.served, ((w.objects service.1).createdAt : Rat) ≤ service.2 ∧
    ∃ worker ∈ s.workers, service.2 ≤ worker.availableAt

variable {w : Workload} {s : Simulation} {i : ObjectId} {q : WeightedFairRequestQueue} {tenant : String}

theorem entered_eq (w : Workload) (done : List ObjectId) (i : ObjectId) :
    w.entered done i = w.objects i ∨ w.entered done i = (w.objects i).enter .queued 0 := by
  unfold entered
  by_cases member : i ∈ done
  · exact Or.inr (if_pos member)
  · exact Or.inl (if_neg member)

@[simp] theorem entered_tenantId (done : List ObjectId) : (w.entered done i).tenantId = (w.objects i).tenantId := by
  rcases w.entered_eq done i with same | same
  · rw [same]
  · rw [same]
    rfl

@[simp] theorem entered_modelId (done : List ObjectId) : (w.entered done i).modelId = (w.objects i).modelId := by
  rcases w.entered_eq done i with same | same
  · rw [same]
  · rw [same]
    rfl

@[simp] theorem entered_createdAt (done : List ObjectId) : (w.entered done i).createdAt = (w.objects i).createdAt := by
  rcases w.entered_eq done i with same | same
  · rw [same]
  · rw [same]
    rfl

@[simp] theorem entered_late (done : List ObjectId) (service : ObjectId × Rat) :
    Simulation.late (w.entered done) service = w.late service := by
  have same : (w.entered done service.1).deadline = (w.objects service.1).deadline := by
    rcases w.entered_eq done service.1 with same | same
    · rw [same]
    · rw [same]
      rfl
  unfold late Simulation.late
  rw [same]

theorem Books.ready (books : Books w s) (ready : w.Ready) : ∀ worker ∈ s.workers, worker.Ready := by
  intro worker member
  obtain ⟨start, listed, onward⟩ := exists_related_of_mem books.workers member
  exact onward.ready (ready.workers start listed)

theorem Books.identified (books : Books w s) {a b : SimulatedWorker} (first : a ∈ s.workers) (second : b ∈ s.workers)
    (same : a.workerId = b.workerId) : a = b := by
  have ids : s.workers.map SimulatedWorker.workerId = w.workers.map SimulatedWorker.workerId := by
    have related := books.workers
    generalize w.workers = starts at related
    generalize s.workers = workers at related
    induction related with
    | nil => rfl
    | cons onward _ ih => rw [List.map_cons, List.map_cons, onward.workerId, ih]
  have distinct := w.distinct
  rw [← ids] at distinct
  exact List.inj_on_of_nodup_map distinct first second same

theorem countFor_get? (counts : Dict String Nat) (tenant other : String) :
    ((Simulation.countFor counts tenant).get? other).getD 0 =
      (counts.get? other).getD 0 + if tenant = other then 1 else 0 := by
  unfold Simulation.countFor
  rw [Dict.get?_insert]
  by_cases same : other = tenant
  · rw [if_pos same, if_pos same.symm, same]
    rfl
  · rw [if_neg same, if_neg (Ne.symm same), Nat.add_zero]

/-- The books of a request that a worker serves. -/
theorem Books.record (books : Books w s)
    (pop : WeightedFairRequestQueue.Popped (w.entered w.requests) s.queue (some i) q) {worker used : SimulatedWorker}
    {at_ : Rat} (member : worker ∈ s.workers) (onward : worker.Onward used) (done : used.availableAt = at_)
    (created : ((w.objects i).createdAt : Rat) ≤ at_) :
    Books w ({ s with queue := q }.record (w.entered w.requests) i at_ worker used) := by
  have waits := pop.member i rfl
  rw [entered_tenantId] at waits
  have moved : ∀ other ∈ s.workers, other.Onward (if other.workerId = worker.workerId then used else other) ∨
      (if other.workerId = worker.workerId then used else other) = other := by
    intro other listed
    by_cases same : other.workerId = worker.workerId
    · rw [if_pos same, books.identified listed member same]
      exact Or.inl onward
    · rw [if_neg same]
      exact Or.inr rfl
  refine ⟨pop.sound, pop.lively books.lively, fun j listed => ?_, fun j => ?_, ?_, ?_, fun tenant => ?_, fun tenant => ?_,
    ?_, fun service => ?_⟩
  · show 0 < q.quantumOf _
    rw [pop.quantum]
    exact books.quantum j listed
  · have counted := books.counted j
    show ((s.served ++ [(i, at_)]).map Prod.fst).count j + (q.queueOf _).count j = _
    rw [pop.queues, List.map_append, List.count_append]
    simp only [WeightedFairRequestQueue.without, Option.elim_some, entered_tenantId, List.map_cons, List.map_nil]
    by_cases same : j = i
    · subst same
      have queued := List.count_pos_iff.mpr waits
      rw [if_pos rfl, List.count_erase_self, List.count_singleton_self]
      omega
    · have apart : List.count j [i] = 0 := List.count_eq_zero.mpr fun inside => same (List.mem_singleton.mp inside)
      rw [apart]
      split
      · rw [List.count_erase_of_ne same]
        exact counted
      · exact counted
  · have hits := books.hits
    unfold Simulation.record
    dsimp only
    rw [List.length_append, List.length_singleton]
    by_cases hit : Simulation.hits (w.entered w.requests i) worker = true
    · rw [if_pos hit, if_pos hit]
      omega
    · rw [if_neg hit, if_neg hit]
      omega
  · have misses := books.misses
    unfold Simulation.record
    dsimp only
    rw [List.countP_append, List.countP_singleton, entered_late]
    by_cases late : w.late (i, at_) = true
    · rw [if_pos late, if_pos late, misses]
    · rw [if_neg late, if_neg late, misses]
      rfl
  · show ((Simulation.countFor s.scheduled _).get? tenant).getD 0 = (s.served ++ [(i, at_)]).countP (w.of tenant)
    rw [countFor_get?, books.scheduled, List.countP_append, List.countP_singleton, entered_tenantId]
    simp only [of, decide_eq_true_eq]
  · show ((if _ then s.completed else Simulation.countFor s.completed _ : Dict String Nat).get? tenant).getD 0 =
      (s.served ++ [(i, at_)]).countP _
    rw [List.countP_append, List.countP_singleton, ← books.completed, entered_late]
    by_cases late : w.late (i, at_) = true
    · rw [if_pos late, late]
      simp
    · rw [if_neg late, countFor_get?, entered_tenantId]
      simp [of, late]
  · refine related_map books.workers fun start other listed before => ?_
    rcases moved other listed with further | same
    · exact before.trans further
    · rw [same]
      exact before
  · intro inside
    rcases List.mem_append.mp inside with old | new
    · obtain ⟨before, other, listed, available⟩ := books.finishes service old
      refine ⟨before, _, List.mem_map_of_mem listed, ?_⟩
      rcases moved other listed with further | same
      · exact le_trans available further.available
      · rw [same]
        exact available
    · cases List.mem_singleton.mp new
      refine ⟨created, used, List.mem_map.mpr ⟨worker, member, if_pos rfl⟩, ?_⟩
      rw [done]

/-- A popped request finds a worker, and the books stay right. -/
theorem Books.schedule (books : Books w s) (ready : w.Ready)
    (pop : WeightedFairRequestQueue.Popped (w.entered w.requests) s.queue (some i) q) :
    ∃ s', { s with queue := q }.schedule w.loadSeconds (w.entered w.requests) i = .ok s' ∧ Books w s' ∧
      s'.served.length = s.served.length + 1 := by
  have waits := pop.member i rfl
  rw [entered_tenantId] at waits
  have listed : i ∈ w.requests := by
    have counted := books.counted i
    have queued := List.count_pos_iff.mpr waits
    exact List.count_pos_iff.mp (by omega)
  have known := ready.known i listed
  rw [← entered_modelId w.requests] at known
  have finishes : ∀ worker ∈ s.workers, ∃ at_, worker.finish w.loadSeconds (w.entered w.requests i) = .ok at_ := by
    intro worker member
    obtain ⟨at_, found, -⟩ := SimulatedWorker.finish_ok (books.ready ready worker member) known
    exact ⟨at_, found⟩
  obtain ⟨choices, run, agree⟩ := SimulatedWorker.choices_ok w.loadSeconds (w.entered w.requests i) s.workers finishes
  cases choices with
  | nil =>
    have none := List.forall₂_nil_right_iff.mp agree
    have related := books.workers
    rw [none] at related
    exact absurd (List.forall₂_nil_right_iff.mp related) ready.some
  | cons first rest =>
    have taken : SimulatedWorker.earliest first rest ∈ first :: rest := firstLeast_mem _ first rest
    cases best : SimulatedWorker.earliest first rest with
    | mk at_ worker =>
      rw [best] at taken
      obtain ⟨_, member, rfl, found⟩ := exists_related_of_mem agree taken
      obtain ⟨other, same, later, created⟩ := SimulatedWorker.finish_ok (books.ready ready _ member) known
      cases found.symm.trans same
      rw [entered_createdAt] at created
      obtain ⟨used, served, done, onward⟩ :=
        SimulatedWorker.serve_ok (books.ready ready _ member) (w.entered w.requests i).modelId (s.tick + 1) later
      refine ⟨_, ?_, books.record pop member onward done created, ?_⟩
      · unfold Simulation.schedule
        dsimp only
        rw [run]
        dsimp only
        rw [best]
        dsimp only
        rw [served]
      · show (s.served ++ [_]).length = _
        rw [List.length_append, List.length_singleton]

/-- A popped request cannot leave an empty queue. -/
theorem depth_ne_zero {objects : Objects} {q' : WeightedFairRequestQueue}
    (pop : WeightedFairRequestQueue.Popped objects q (some i) q') : q.depth ≠ 0 := by
  intro empty
  have waits := pop.member i rfl
  rw [WeightedFairRequestQueue.depth_eq_zero.mp empty] at waits
  cases waits

theorem drain_of_empty {loadSeconds : Dict String Rat} {objects : Objects} (empty : s.queue.depth = 0) (turns : Nat) :
    Simulation.drain loadSeconds objects turns s = some (.ok s) := by
  cases turns with
  | zero => rw [Simulation.drain, if_pos empty]
  | succ turns => rw [Simulation.drain, if_pos empty]

/-- Turns that pop nothing only add credit; the loop goes on with the popped request. -/
theorem drain_popUntil {objects : Objects} {turns : Nat} {q' : WeightedFairRequestQueue}
    (sound : s.queue.Sound objects) (lively : s.queue.Lively objects)
    (polled : WeightedFairRequestQueue.popUntil objects (fun _ _ => 0) turns s.queue = (.ok (some i), q')) :
    WeightedFairRequestQueue.Popped objects s.queue (some i) q' ∧ ∃ spare, ∀ s',
      { s with queue := q' }.schedule w.loadSeconds objects i = .ok s' → ∀ more,
        Simulation.drain w.loadSeconds objects (turns + more) s = Simulation.drain w.loadSeconds objects (spare + more) s' := by
  induction turns generalizing s with
  | zero => cases polled
  | succ turns ih =>
    obtain ⟨result, middle, run, pop⟩ := WeightedFairRequestQueue.pop_pops sound lively fun _ => 0
    unfold WeightedFairRequestQueue.popUntil at polled
    rw [run] at polled
    cases result with
    | some j =>
      cases polled
      refine ⟨pop, turns, fun s' scheduled more => ?_⟩
      rw [Nat.add_right_comm, Simulation.drain, if_neg (depth_ne_zero pop)]
      simp only [run, scheduled]
    | none =>
      have same : ∀ tenant, middle.queueOf tenant = s.queue.queueOf tenant := pop.queues
      obtain ⟨later, spare, goes⟩ := @ih { s with queue := middle } pop.sound (pop.lively lively) polled
      have whole : WeightedFairRequestQueue.Popped objects s.queue (some i) q' := by
        refine ⟨later.sound, fun tenant => ?_, fun tenant => ?_, fun j taken => ?_⟩
        · rw [later.queues, WeightedFairRequestQueue.without, WeightedFairRequestQueue.without, same]
        · rw [later.quantum, pop.quantum]
        · rw [← same]
          exact later.member j taken
      refine ⟨whole, spare, fun s' scheduled more => ?_⟩
      rw [Nat.add_right_comm, Simulation.drain, if_neg (depth_ne_zero whole)]
      simp only [run]
      exact goes s' scheduled more

theorem Books.length_le (books : Books w s) : s.served.length ≤ w.requests.length := by
  have fewer : (s.served.map Prod.fst).Subperm w.requests := by
    rw [List.subperm_ext_iff]
    intro i _
    rw [← books.counted i]
    exact Nat.le_add_right _ _
  have counted := fewer.length_le
  rw [List.length_map] at counted
  exact counted

/-- The loop ends with an empty queue. -/
theorem Books.drain (books : Books w s) (ready : w.Ready) : ∃ turns s',
    (∀ more, Simulation.drain w.loadSeconds (w.entered w.requests) (turns + more) s = some (.ok s')) ∧ Books w s' ∧
      s'.queue.depth = 0 := by
  induction left : w.requests.length - s.served.length using Nat.strong_induction_on generalizing s with
  | _ n ih =>
    by_cases empty : s.queue.depth = 0
    · exact ⟨0, s, fun more => drain_of_empty empty _, books, empty⟩
    · obtain ⟨tenant, some⟩ : ∃ tenant, s.queue.queueOf tenant ≠ [] := by
        by_contra none
        push Not at none
        exact empty (WeightedFairRequestQueue.depth_eq_zero.mpr none)
      obtain ⟨j, waits⟩ := List.exists_mem_of_ne_nil _ some
      have own := (books.sound.own tenant j waits).1
      rw [entered_tenantId] at own
      have listed : j ∈ w.requests := by
        have counted := books.counted j
        have queued := List.count_pos_iff.mpr (own.symm ▸ waits)
        exact List.count_pos_iff.mp (by omega)
      have quantum := books.quantum j listed
      rw [own] at quantum
      obtain ⟨i, q, polled⟩ := WeightedFairRequestQueue.popUntil_turnsFor (fun _ _ => 0) quantum books.sound
        ⟨j, waits, books.lively tenant j waits⟩
      obtain ⟨pop, spare, goes⟩ := drain_popUntil (w := w) books.sound books.lively polled
      obtain ⟨s₁, scheduled, books₁, more⟩ := books.schedule ready pop
      have bound := books₁.length_le
      obtain ⟨turns, s', ends, books', done⟩ := ih (w.requests.length - s₁.served.length) (by omega) books₁ rfl
      refine ⟨s.queue.turnsFor (w.entered w.requests) tenant + turns, s', fun extra => ?_, books', done⟩
      rw [Nat.add_assoc, goes s₁ scheduled, Nat.add_left_comm]
      exact ends (spare + extra)

/-- The queue once some of the requests have entered it. -/
structure Enqueued (w : Workload) (done : List ObjectId) (q : WeightedFairRequestQueue) : Prop where
  sound : q.Sound (w.entered done)
  queues : ∀ tenant, q.queueOf tenant = done.filter fun i => (w.objects i).tenantId = tenant
  tenants : q.tenants = TenantLimits.table id w.tenants
  configured : ∀ tenant, (TenantLimits.table id w.tenants).contains tenant = true → q.queues.contains tenant = true

theorem put_entered (w : Workload) (done : List ObjectId) (i : ObjectId) :
    (w.entered done).put i ((w.objects i).enter .queued 0) = w.entered (done ++ [i]) := by
  funext j
  unfold Objects.put entered
  by_cases same : j = i
  · subst same
    rw [if_pos rfl, if_pos (List.mem_append_right _ (List.mem_singleton_self j))]
  · rw [if_neg same]
    have member : j ∈ done ++ [i] ↔ j ∈ done := by simp [same]
    rw [if_congr member rfl rfl]

/-- A request enters the queue of its tenant. -/
theorem Enqueued.enqueue {done later : List ObjectId} (enqueued : Enqueued w done q) (ready : w.Ready)
    (split : w.requests = done ++ i :: later) : ∃ q',
      q.enqueue (w.entered done) i 0 = (.ok (), q', w.entered (done ++ [i])) ∧ Enqueued w (done ++ [i]) q' := by
  have listed : i ∈ w.requests := by
    rw [split]
    exact List.mem_append_right _ List.mem_cons_self
  have distinct := ready.distinct
  rw [split, List.map_append, List.map_cons] at distinct
  have others : ∀ j ∈ done, (w.objects j).requestId ≠ (w.objects i).requestId := fun j member =>
    (List.nodup_append.mp distinct).2.2 _ (List.mem_map_of_mem member) _ List.mem_cons_self
  have fresh : w.entered done i = w.objects i := if_neg fun member => others i member rfl
  have named : ∀ j, (w.entered done j).requestId = (w.objects j).requestId := by
    intro j
    rcases w.entered_eq done j with same | same
    · rw [same]
    · rw [same]
      rfl
  obtain ⟨queue, found⟩ := Option.isSome_iff_exists.mp (enqueued.configured _ (ready.configured i listed))
  have queued : queue = done.filter fun j => (w.objects j).tenantId = (w.objects i).tenantId := by
    rw [← enqueued.queues, WeightedFairRequestQueue.queueOf, found]
    rfl
  have absent : ¬(queue.any fun j => (w.entered done j).requestId = (w.entered done i).requestId) = true := by
    intro twice
    obtain ⟨j, member, same⟩ := List.any_eq_true.mp twice
    rw [queued] at member
    rw [named, fresh] at same
    exact others j (List.mem_of_mem_filter member) (of_decide_eq_true same)
  have run : q.enqueue (w.entered done) i 0 = (.ok (), q.join (w.entered done) i queue, w.entered (done ++ [i])) := by
    have admitted : (w.entered done i).status = .admitted := by
      rw [fresh]
      exact ready.admitted i listed
    have tenant : q.queues.get? (w.entered done i).tenantId = some queue := by
      rw [entered_tenantId]
      exact found
    unfold WeightedFairRequestQueue.enqueue
    rw [tenant]
    dsimp only
    rw [if_neg fun wrong => wrong.1 admitted, if_neg absent, if_pos admitted, ← put_entered, fresh]
  have sound := enqueued.sound.enqueue i 0
  rw [run] at sound
  refine ⟨_, run, sound, fun tenant => ?_, enqueued.tenants, fun tenant known => ?_⟩
  · show ((q.queues.insert _ _).get? tenant).getD [] = _
    rw [WeightedFairRequestQueue.queueOf_insert, entered_tenantId, List.filter_append, queued]
    by_cases same : tenant = (w.objects i).tenantId
    · subst same
      rw [if_pos rfl]
      simp
    · rw [if_neg same, ← enqueued.queues]
      have other : ¬(w.objects i).tenantId = tenant := Ne.symm same
      simp [other, WeightedFairRequestQueue.queueOf]
  · show (q.queues.insert _ _).contains tenant = true
    have before := enqueued.configured tenant known
    unfold Dict.contains at before ⊢
    rw [Dict.get?_insert]
    split
    · rfl
    · exact before

theorem Enqueued.enqueueAll {later done : List ObjectId} (enqueued : Enqueued w done q) (ready : w.Ready)
    (split : w.requests = done ++ later) : ∃ q',
      Workload.enqueueAll q (w.entered done) later = .ok (q', w.entered w.requests) ∧ Enqueued w w.requests q' := by
  induction later generalizing done q with
  | nil =>
    rw [List.append_nil] at split
    rw [← split] at enqueued ⊢
    exact ⟨q, rfl, enqueued⟩
  | cons i later ih =>
    obtain ⟨q₁, run, enqueued₁⟩ := enqueued.enqueue ready split
    obtain ⟨q', rest, all⟩ := ih enqueued₁ (by rw [split, List.append_assoc, List.singleton_append])
    refine ⟨q', ?_, all⟩
    rw [Workload.enqueueAll, run]
    exact rest

theorem quantumOf_pos (known : q.tenants.contains tenant = true) : 0 < q.quantumOf tenant := by
  obtain ⟨limits, found⟩ := Option.isSome_iff_exists.mp known
  unfold WeightedFairRequestQueue.quantumOf WeightedFairRequestQueue.weightOf
  rw [found]
  exact Nat.mul_pos q.quantumPositive limits.positive.2.2.2

theorem books_begin (enqueued : Enqueued w w.requests q) (ready : w.Ready) : Books w (w.begin q) := by
  have counts : ∀ tenant, ((TenantLimits.table (fun _ => 0) w.tenants).get? tenant).getD 0 = 0 := by
    intro tenant
    cases found : (TenantLimits.table (fun _ => 0) w.tenants).get? tenant with
    | none => rfl
    | some count =>
      obtain ⟨-, -, zero⟩ := TenantLimits.get?_table w.tenants found
      exact zero.symm
  refine ⟨enqueued.sound, fun tenant i waits => ?_, fun i listed => ?_, fun i => ?_, rfl, rfl, counts, counts, ?_,
    fun service member => by cases member⟩
  · have member : i ∈ w.requests := List.mem_of_mem_filter (enqueued.queues tenant ▸ waits)
    unfold entered
    rw [if_pos member]
    rfl
  · have known := ready.configured i listed
    rw [← enqueued.tenants] at known
    exact quantumOf_pos known
  · show List.count i [] + (q.queueOf _).count i = _
    rw [List.count_nil, Nat.zero_add, enqueued.queues, List.count_filter]
    exact decide_eq_true rfl
  · exact List.forall₂_same.mpr fun worker member => .refl (ready.workers worker member)

namespace Sample

theorem identified : "tenant" ≠ "" := by decide

theorem positive : 0 < 10000 ∧ 0 < 10000 ∧ 0 < 10000000 ∧ 0 < 1 := by decide

theorem named : "request" ≠ "" ∧ "tenant" ≠ "" ∧ "model" ≠ "" := by decide

theorem generous : 0 < 100 := by decide

theorem temperate : (0 : Rat) ≤ 0 := le_refl _

theorem prompted : isBlank "hi" = false := by decide

theorem stamped : (Dict.empty.insert RequestState.admitted (0 : Seconds)).contains .admitted = true := by decide

def limits : TenantLimits := ⟨"tenant", 10000, 10000, 10000000, 1, identified, positive⟩

def request : RequestRecord where
  requestId := "request"
  tenantId := "tenant"
  modelId := "model"
  prompt := "hi"
  promptTokens := 100
  maxNewTokens := 100
  priority := 0
  deadline := .finite 3
  stream := false
  temperature := 0
  createdAt := 0
  status := .admitted
  assignedWorkerId := none
  attemptCount := 0
  retryReasons := []
  payloadAvailable := true
  transitionTimestamps := Dict.empty.insert .admitted 0
  identified := named
  prompted := prompted
  positive := generous
  temperate := temperate
  stamped := stamped

def worker : SimulatedWorker := ⟨"worker", 100, 1, [], 0, .empty⟩

theorem distinct : ([worker].map SimulatedWorker.workerId).Nodup := List.nodup_singleton "worker"

/-- One request, for which a worker has to load its model. -/
def cold : Workload where
  tenants := [limits]
  fairQueueQuantumTokens := 128
  priorityAgingSeconds := 1
  loadSeconds := Dict.empty.insert "model" 2
  workers := [worker]
  requests := [0]
  objects := fun _ => request
  distinct := distinct

theorem ready : cold.Ready where
  quantum := by decide
  aging := by decide
  distinct := List.nodup_singleton "request"
  admitted := fun _ _ => rfl
  configured := fun _ _ => rfl
  known := fun _ _ => ⟨2, rfl, by decide⟩
  workers := by
    intro other member
    cases List.mem_singleton.mp member
    exact ⟨by decide +kernel, Or.inr Int.one_pos⟩
  some := List.cons_ne_nil _ _

end Sample

end Workload

end ServingPlatform
