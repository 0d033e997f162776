import ServingPlatform.FairQueue.PiledCredit
import ServingPlatform.FairQueue.PopUntil

namespace ServingPlatform

/-- A queue and its requests, with every request that was ever queued. -/
structure CreditState where
  queue : WeightedFairRequestQueue
  objects : Objects
  queued : List ObjectId

/-- The calls of the queue; between them its requests may change. -/
inductive CreditAction
  | enqueue (i : ObjectId) (now : Seconds)
  | cancel (requestId : String) (now : Seconds)
  | pop (clock : Nat → Seconds)
  | change (objects : Objects)

namespace WeightedFairRequestQueue

/-- The condition holds at the beginning of every visit of a pop. -/
def EachVisit (P : WeightedFairRequestQueue → Seconds → String → Prop) (objects : Objects) (clock : Nat → Seconds) :
    Nat → WeightedFairRequestQueue → Prop
  | 0, _ => True
  | visitsRemaining + 1, q =>
    match q.active with
    | [] => True
    | tenant :: rest => P q (clock visitsRemaining) tenant ∧
      match q.visit objects (clock visitsRemaining) tenant rest with
      | (.ok none, q') => EachVisit P objects clock visitsRemaining q'
      | _ => True

variable {q q' : WeightedFairRequestQueue} {objects : Objects} {tenant : String} {rest : List String} {now : Seconds}

/-- A visit serves the request that is next for its tenant. -/
theorem visit_next {i : ObjectId} (run : q.visit objects now tenant rest = (.ok (some i), q')) :
    q.nextForTenant objects now (q.live objects tenant) = .ok i := by
  unfold visit at run
  dsimp only at run
  split at run
  · cases run
  split at run
  · cases run
  · rename_i j next
    split at run
    · cases run
      exact next
    · cases run

/-- What every visit keeps that begins as `P` wants it, a pop keeps. -/
theorem popLoop_each {P : WeightedFairRequestQueue → Seconds → String → Prop} {I : WeightedFairRequestQueue → Prop}
    (step : ∀ {q q' : WeightedFairRequestQueue} {now tenant rest result}, q.Sound objects → q.active = tenant :: rest →
      P q now tenant → q.visit objects now tenant rest = (.ok result, q') → q.Visited objects tenant rest result q' → I q → I q')
    (sound : q.Sound objects) (holds : I q) (clock : Nat → Seconds) (visits : Nat)
    (each : EachVisit P objects clock visits q) : I (popLoop objects clock visits q).2 := by
  induction visits generalizing q with
  | zero => exact holds
  | succ visits ih =>
    cases front : q.active with
    | nil =>
      simp only [popLoop, front]
      exact holds
    | cons tenant rest =>
      obtain ⟨result, middle, run, visited⟩ := visit_cases sound (clock visits) tenant rest
      simp only [EachVisit, front, run] at each
      have kept := step sound front each.1 run visited holds
      simp only [popLoop, front, run]
      cases result with
      | some i => exact kept
      | none => exact ih (visited.sound sound front) kept each.2

end WeightedFairRequestQueue

namespace CreditState

variable {s s' : CreditState} {tenant : String} {i : ObjectId}

def perform (s : CreditState) : CreditAction → CreditState
  | .enqueue i now => {
      queue := (s.queue.enqueue s.objects i now).2.1
      objects := (s.queue.enqueue s.objects i now).2.2
      queued := match (s.queue.enqueue s.objects i now).1 with
        | .ok () => i :: s.queued
        | .error _ => s.queued }
  | .cancel requestId now => { s with
      queue := (s.queue.cancel s.objects requestId now).2.1
      objects := (s.queue.cancel s.objects requestId now).2.2 }
  | .pop clock => { s with queue := (s.queue.pop s.objects clock).2 }
  | .change objects => { s with objects }

/-- Requests keep their tenants and their costs. -/
def Possible (s : CreditState) : CreditAction → Prop
  | .change objects => ∀ i, (s.objects i).Evolves (objects i)
  | _ => True

/-- The largest cost among the requests ever queued for a tenant. -/
def largest (s : CreditState) (tenant : String) : Nat :=
  ((s.queued.filter fun i => (s.objects i).tenantId = tenant).map fun i => (s.objects i).estimatedTokens).foldr max 0

/-- The request that a visit would serve uses up the credit that its tenant had
saved, but for what the largest request costs; the last request uses up all credit. -/
def Spends (s : CreditState) (q : WeightedFairRequestQueue) (now : Seconds) (tenant : String) : Prop :=
  ∀ i, q.nextForTenant s.objects now (q.live s.objects tenant) = .ok i →
    (s.objects i).estimatedTokens ≤ q.deficitOf tenant + q.quantumOf tenant →
    q.deficitOf tenant < (s.objects i).estimatedTokens + s.largest tenant ∧
      ((q.live s.objects tenant).erase i = [] → (s.objects i).estimatedTokens = q.deficitOf tenant + q.quantumOf tenant)

/-- No call lets credit pile up: what a pop serves spends it, and a tenant whose
queue was emptied by cancellation has no credit when its next request comes before its next visit. -/
def Thrifty (s : CreditState) : CreditAction → Prop
  | .enqueue i _ => s.queue.queueOf (s.objects i).tenantId = [] → (s.objects i).tenantId ∈ s.queue.active →
      s.queue.deficitOf (s.objects i).tenantId = 0
  | .pop clock => s.queue.EachVisit s.Spends s.objects clock s.queue.active.length
  | _ => True

/-- The states of the runs all of whose calls are thrifty. -/
inductive Run (first : CreditState) : CreditState → Prop
  | start : Run first first
  | step {s : CreditState} (before : Run first s) (action : CreditAction) (possible : s.Possible action)
      (thrifty : s.Thrifty action) : Run first (s.perform action)

/-- The states of all runs. -/
inductive Reach (first : CreditState) : CreditState → Prop
  | start : Reach first first
  | step {s : CreditState} (before : Reach first s) (action : CreditAction) (possible : s.Possible action) :
      Reach first (s.perform action)

/-- No tenant has more credit than the bound, or any while it is not in the ring. -/
structure Bounded (s : CreditState) : Prop where
  sound : s.queue.Sound s.objects
  queued : ∀ tenant, ∀ i ∈ s.queue.queueOf tenant, i ∈ s.queued
  bound : ∀ tenant, s.queue.tenants.contains tenant = true →
    s.queue.deficitOf tenant < s.queue.quantumOf tenant + s.largest tenant
  idle : ∀ tenant, tenant ∉ s.queue.active → s.queue.deficitOf tenant = 0

open WeightedFairRequestQueue

theorem le_largest (member : i ∈ s.queued) (own : (s.objects i).tenantId = tenant) :
    (s.objects i).estimatedTokens ≤ s.largest tenant := by
  unfold largest
  generalize s.queued = queued at member
  induction queued with
  | nil => cases member
  | cons j rest ih =>
    rw [List.filter_cons]
    rcases List.mem_cons.mp member with rfl | later
    · rw [if_pos (decide_eq_true own)]
      exact Nat.le_max_left _ _
    · have bounded := ih later
      split
      · exact Nat.le_trans bounded (Nat.le_max_right _ _)
      · exact bounded

/-- More requests and requests that only change their states do not lower the largest cost. -/
theorem largest_le (more : ∀ i ∈ s.queued, i ∈ s'.queued) (evolves : ∀ i, (s.objects i).Evolves (s'.objects i)) (tenant : String) :
    s.largest tenant ≤ s'.largest tenant := by
  have each : ∀ i ∈ s.queued, (s.objects i).tenantId = tenant → (s.objects i).estimatedTokens ≤ s'.largest tenant := by
    intro i member own
    rw [← (evolves i).estimatedTokens]
    exact le_largest (more i member) ((evolves i).tenantId.trans own)
  unfold largest at each ⊢
  clear more
  generalize s.queued = queued at each
  induction queued with
  | nil => exact Nat.zero_le _
  | cons j rest ih =>
    have later := ih fun i member => each i (List.mem_cons_of_mem _ member)
    rw [List.filter_cons]
    split
    · rename_i own
      exact Nat.max_le.mpr ⟨each j List.mem_cons_self (of_decide_eq_true own), later⟩
    · exact later

theorem quantumOf_pos {q : WeightedFairRequestQueue} (known : q.tenants.contains tenant = true) : 0 < q.quantumOf tenant :=
  Nat.mul_pos q.quantumPositive (weightOf_pos known)

/-- A visit that spends its credit keeps the bound. -/
theorem Bounded.visit {q q' : WeightedFairRequestQueue} {now : Seconds} {rest : List String} {result : Option ObjectId}
    (bounded : Bounded { s with queue := q }) (front : q.active = tenant :: rest) (spends : s.Spends q now tenant)
    (run : q.visit s.objects now tenant rest = (.ok result, q')) (visited : q.Visited s.objects tenant rest result q') :
    Bounded { s with queue := q' } := by
  have sound := bounded.sound
  have member : ∀ other, other ∉ rest → other ≠ tenant → other ∉ q.active := by
    intro other absent differ
    rw [front]
    exact fun inside => (List.mem_cons.mp inside).elim differ absent
  refine ⟨visited.sound sound front, fun x j inside => bounded.queued x j (visited.queue_subset x j inside), ?_, ?_⟩
  · intro x known
    have before := bounded.bound x
    dsimp only at known ⊢ before
    rw [visited.quantum x]
    cases visited with
    | dropped empty =>
      simp only [deficitOf, deficitOf_insert] at before ⊢
      have positive := quantumOf_pos known
      split
      · exact Nat.lt_of_lt_of_le positive (Nat.le_add_right _ _)
      · exact before known
    | @served i chosen affordable =>
      have spent := (spends i (visit_next run) affordable).1
      simp only [deficitOf, deficitOf_insert] at before spent affordable ⊢
      split
      · rename_i same
        subst same
        change _ < q.quantumOf x + s.largest x
        omega
      · exact before known
    | @passed i chosen short =>
      have inside := List.mem_of_mem_filter chosen
      have most := le_largest (s := s) (bounded.queued tenant i inside) (sound.own tenant i inside).1
      simp only [deficitOf, deficitOf_insert] at before short ⊢
      split
      · rename_i same
        subst same
        change _ < q.quantumOf x + s.largest x
        have positive := quantumOf_pos known
        change 0 < q.quantumOf x at positive
        omega
      · exact before known
  · intro x outside
    have before := bounded.idle x
    dsimp only at outside before ⊢
    cases visited with
    | dropped empty =>
      simp only [deficitOf, deficitOf_insert] at before ⊢
      split
      · rfl
      · exact before (member x outside ‹_›)
    | @served i chosen affordable =>
      have spent := (spends i (visit_next run) affordable).2
      simp only [deficitOf, deficitOf_insert] at before spent ⊢
      split
      · rename_i same
        have emptied : (q.live s.objects tenant).erase i = [] := by
          by_contra others
          rw [if_neg others, same] at outside
          exact outside (List.mem_append_right _ (List.mem_singleton_self _))
        have all := spent emptied
        omega
      · rename_i differ
        refine before (member x (fun inside => outside ?_) differ)
        split
        · exact inside
        · exact List.mem_append_left _ inside
    | passed chosen short =>
      simp only [deficitOf, deficitOf_insert] at before ⊢
      split
      · rename_i same
        rw [same] at outside
        exact absurd (List.mem_append_right _ (List.mem_singleton_self _)) outside
      · rename_i differ
        exact before (member x (fun inside => outside (List.mem_append_left _ inside)) differ)

/-- Calls that neither charge nor drop a tenant keep the bound. -/
theorem Bounded.kept (bounded : s.Bounded) (sound : s'.queue.Sound s'.objects) (evolves : ∀ i, (s.objects i).Evolves (s'.objects i))
    (more : ∀ i ∈ s.queued, i ∈ s'.queued) (queued : ∀ tenant, ∀ i ∈ s'.queue.queueOf tenant, i ∈ s'.queued)
    (tenants : s'.queue.tenants = s.queue.tenants) (quantum : s'.queue.baseQuantumTokens = s.queue.baseQuantumTokens)
    (deficits : s'.queue.deficits = s.queue.deficits) (active : ∀ tenant ∈ s.queue.active, tenant ∈ s'.queue.active) :
    s'.Bounded where
  sound := sound
  queued := queued
  bound := by
    intro tenant known
    rw [tenants] at known
    have before := bounded.bound tenant known
    have grows := largest_le more evolves tenant
    have credit : s'.queue.deficitOf tenant = s.queue.deficitOf tenant := by rw [deficitOf, deficits, deficitOf]
    have granted : s'.queue.quantumOf tenant = s.queue.quantumOf tenant := by
      rw [quantumOf, weightOf, tenants, quantum, quantumOf, weightOf]
    omega
  idle := by
    intro tenant outside
    have credit : s'.queue.deficitOf tenant = s.queue.deficitOf tenant := by rw [deficitOf, deficits, deficitOf]
    rw [credit]
    exact bounded.idle tenant fun inside => outside (active tenant inside)

theorem Bounded.enqueue (bounded : s.Bounded) (i : ObjectId) (now : Seconds) : (s.perform (.enqueue i now)).Bounded := by
  have sound := bounded.sound.enqueue i now
  have evolves := s.queue.enqueue_evolves s.objects i now
  rcases s.queue.enqueue_cases s.objects i now with ⟨raised, run, -⟩ | ⟨queue, found, -, joined⟩
  · have same : s.perform (.enqueue i now) = s := by
      simp only [perform, run]
    rw [same]
    exact bounded
  have entered : (s.queue.enqueue s.objects i now).1 = .ok () ∧
      (s.queue.enqueue s.objects i now).2.1 = s.queue.join s.objects i queue := by
    rcases joined with ⟨-, run⟩ | ⟨-, run⟩ <;> exact ⟨by rw [run], by rw [run]⟩
  have queued : (s.perform (.enqueue i now)).queued = i :: s.queued := by
    simp only [perform, entered.1]
  have queue' : (s.perform (.enqueue i now)).queue = s.queue.join s.objects i queue := entered.2
  have current : s.queue.queueOf (s.objects i).tenantId = queue := by
    rw [queueOf, found]
    rfl
  refine bounded.kept sound evolves ?_ ?_ (by rw [queue']; rfl) (by rw [queue']; rfl) (by rw [queue']; rfl) ?_
  · intro j member
    rw [queued]
    exact List.mem_cons_of_mem _ member
  · intro tenant j member
    rw [queued]
    rw [queue', queueOf, join, queueOf_insert] at member
    split at member
    · rcases List.mem_append.mp member with old | new
      · exact List.mem_cons_of_mem _ (bounded.queued _ j (current ▸ old))
      · rw [List.mem_singleton.mp new]
        exact List.mem_cons_self
    · exact List.mem_cons_of_mem _ (bounded.queued tenant j member)
  · intro tenant member
    rw [queue', join]
    dsimp only
    split
    · exact member
    · exact List.mem_append_left _ member

theorem Bounded.cancel (bounded : s.Bounded) (requestId : String) (now : Seconds) :
    (s.perform (.cancel requestId now)).Bounded := by
  have sound := bounded.sound.cancel requestId now
  have evolves := s.queue.cancel_evolves s.objects requestId now
  rcases s.queue.cancel_cases s.objects requestId now with run | ⟨tenant, queue, i, found, -, -, after, -⟩
  · have same : s.perform (.cancel requestId now) = s := by
      simp only [perform, run]
    rw [same]
    exact bounded
  have queue' : (s.perform (.cancel requestId now)).queue =
      { s.queue with queues := s.queue.queues.insert tenant (queue.erase i) } := after
  have current : s.queue.queueOf tenant = queue := by
    rw [queueOf, found]
    rfl
  refine bounded.kept sound evolves (fun _ member => member) ?_ (by rw [queue']) (by rw [queue']) (by rw [queue'])
    (by rw [queue']; exact fun _ member => member)
  intro other j member
  rw [queue', queueOf, queueOf_insert] at member
  split at member
  · exact bounded.queued tenant j (current ▸ List.mem_of_mem_erase member)
  · exact bounded.queued other j member

theorem Bounded.pop {clock : Nat → Seconds} (bounded : s.Bounded) (thrifty : s.Thrifty (.pop clock)) :
    (s.perform (.pop clock)).Bounded :=
  popLoop_each (I := fun q => Bounded { s with queue := q })
    (fun _ front spends run visited before => before.visit front spends run visited) bounded.sound bounded clock _ thrifty

theorem Bounded.perform {action : CreditAction} (bounded : s.Bounded) (possible : s.Possible action) (thrifty : s.Thrifty action) :
    (s.perform action).Bounded := by
  cases action with
  | enqueue i now => exact bounded.enqueue i now
  | cancel requestId now => exact bounded.cancel requestId now
  | pop clock => exact bounded.pop thrifty
  | change objects =>
    exact bounded.kept (bounded.sound.evolves possible) possible (fun _ member => member) bounded.queued rfl rfl rfl
      fun _ member => member

theorem Run.bounded {first : CreditState} (run : Run first s) (bounded : first.Bounded) : s.Bounded := by
  induction run with
  | start => exact bounded
  | step before action possible thrifty ih => exact ih.perform possible thrifty

theorem bounded_of_init {tenants : List TenantLimits} {quantum : Int} {aging : Rat} {q : WeightedFairRequestQueue}
    (built : init tenants quantum aging = .ok q) (objects : Objects) : Bounded ⟨q, objects, []⟩ where
  sound := init_sound built objects
  queued := by
    intro tenant i member
    dsimp only at member
    rw [init_queueOf built] at member
    cases member
  bound := by
    intro tenant known
    dsimp only
    rw [init_deficitOf built]
    exact Nat.lt_of_lt_of_le (quantumOf_pos known) (Nat.le_add_right _ _)
  idle := fun tenant _ => init_deficitOf built tenant

/-- Two tenants with a visit's credit of 128 tokens each. -/
def twoTenants : CreditState := ⟨PiledCredit.queue [] [] 0 [], PiledCredit.objects 0, []⟩

/-- One tenant sent a request that costs a whole quantum, and it was served. -/
def wholeQuantum : CreditState := (twoTenants.perform (.enqueue 1 0)).perform (.pop fun _ => 0)

/-- Three requests of one token each are queued, and two of them or all three served. -/
def smallRequests : CreditState :=
  ((twoTenants.perform (.enqueue 0 0)).perform (.enqueue 2 0)).perform (.enqueue 4 0)

def twoServed : CreditState := (smallRequests.perform (.pop fun _ => 0)).perform (.pop fun _ => 0)

def allServed : CreditState := twoServed.perform (.pop fun _ => 0)

end CreditState

end ServingPlatform
