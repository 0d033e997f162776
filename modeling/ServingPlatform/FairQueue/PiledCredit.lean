import Mathlib.Algebra.Order.Archimedean.Basic
import ServingPlatform.FairQueue.Fairness

namespace ServingPlatform.WeightedFairRequestQueue

open FairState

namespace PiledCredit

def limits (tenantId : String) (identified : tenantId ≠ "") : TenantLimits where
  tenantId := tenantId
  maxConcurrentRequests := 1
  maxQueuedRequests := 1
  tokenQuota := 1
  schedulingWeight := 1
  identified := identified
  positive := by decide

def tenants : List TenantLimits := [limits "cheap" (by decide), limits "dear" (by decide)]

theorem temperate : (0 : Rat) ≤ 0 := le_refl _

/-- Requests alternate between the tenants; one tenant's cost one token, the other's a whole quantum. -/
def request (j : ObjectId) : RequestRecord where
  requestId := String.ofList (List.replicate (j + 1) 'r')
  tenantId := if j % 2 = 0 then "cheap" else "dear"
  modelId := "model"
  prompt := "p"
  promptTokens := if j % 2 = 0 then 0 else 127
  maxNewTokens := 1
  priority := 0
  deadline := .infinite
  stream := false
  temperature := 0
  createdAt := 0
  status := .admitted
  assignedWorkerId := none
  attemptCount := 0
  retryReasons := []
  payloadAvailable := true
  transitionTimestamps := ⟨[(.admitted, 0)], by decide⟩
  identified := ⟨by simp, by split <;> decide, by decide⟩
  prompted := by decide
  positive := Nat.one_pos
  temperate := temperate
  stamped := by decide

/-- The requests before `m` are queued. -/
def objects (m : Nat) : Objects := fun j => if j < m then (request j).enter .queued 0 else request j

def queue (cheap dear : List ObjectId) (credit : Nat) (active : List String) : WeightedFairRequestQueue where
  tenants := TenantLimits.table id tenants
  baseQuantumTokens := 128
  priorityAgingSeconds := 1
  queues := ⟨[("cheap", cheap), ("dear", dear)], by simp⟩
  deficits := ⟨[("cheap", credit), ("dear", 0)], by simp⟩
  active := active
  quantumPositive := Nat.succ_pos 127
  agingPositive := one_pos

theorem built : init tenants 128 1 = .ok (queue [] [] 0 []) := by
  unfold init
  rw [dif_pos (by decide)]
  rfl

theorem request_cheap (i : ObjectId) : (request i).estimatedTokens ≤ 128 := by
  unfold RequestRecord.estimatedTokens request
  dsimp only
  split <;> omega

theorem objects_put (m : Nat) : (objects m).put m ((objects m m).enter .queued 0) = objects (m + 1) := by
  funext j
  unfold Objects.put objects
  rcases Nat.lt_trichotomy j m with before | rfl | after
  · rw [if_neg (Nat.ne_of_lt before), if_pos before, if_pos (Nat.lt_succ_of_lt before)]
  · rw [if_pos rfl, if_neg (Nat.lt_irrefl _), if_pos (Nat.lt_succ_self _)]
  · rw [if_neg (Nat.ne_of_gt after), if_neg (Nat.lt_asymm after), if_neg (Nat.not_lt.mpr after)]

theorem objects_tenantId (m j : Nat) : (objects m j).tenantId = if j % 2 = 0 then "cheap" else "dear" := by
  unfold objects
  split <;> rfl

theorem objects_requestId_ne (m : Nat) {j k : Nat} (differ : j ≠ k) :
    (objects m j).requestId ≠ (objects m k).requestId := by
  have ids : ∀ j, (objects m j).requestId = String.ofList (List.replicate (j + 1) 'r') := by
    intro j
    unfold objects
    split <;> rfl
  rw [ids, ids]
  intro same
  have length := congrArg List.length (String.ofList_injective same)
  simp only [List.length_replicate] at length
  omega

theorem objects_cost (m j : Nat) : (objects m j).estimatedTokens = if j % 2 = 0 then 1 else 128 := by
  have cost : (objects m j).estimatedTokens = (request j).estimatedTokens := by
    unfold objects
    split <;> rfl
  rw [cost]
  unfold RequestRecord.estimatedTokens request
  dsimp only
  split <;> rfl

theorem objects_live {m j : Nat} (queued : j < m) : (objects m j).terminal = false := by
  unfold objects
  rw [if_pos queued]
  rfl

theorem urgency_eq (q : WeightedFairRequestQueue) {m j : Nat} (queued : j < m) :
    q.urgency (objects m j) 0 = .ok (0, 0) := by
  unfold urgency objects
  rw [if_pos queued]
  simp [RequestRecord.enter, request]

/-- The oldest of the waiting requests is next. -/
theorem next_eq (q : WeightedFairRequestQueue) {m : Nat} (first : ObjectId) (rest : List ObjectId)
    (queued : ∀ j ∈ first :: rest, j < m) : q.nextForTenant (objects m) 0 (first :: rest) = .ok first := by
  have scan : ∀ rest : List ObjectId, (∀ j ∈ rest, j < m) →
      q.mostUrgent (objects m) 0 first (0, 0) rest = .ok first := by
    intro rest
    induction rest with
    | nil => exact fun _ => rfl
    | cons j rest ih =>
      intro queued
      unfold mostUrgent
      rw [urgency_eq q (queued j (List.mem_cons_self ..))]
      simp only [lt_irrefl, and_false, or_false, if_false]
      exact ih fun k member => queued k (List.mem_cons_of_mem _ member)
  simp only [nextForTenant, urgency_eq q (queued first (List.mem_cons_self ..))]
  exact scan rest fun j member => queued j (List.mem_cons_of_mem _ member)

theorem live_eq {m : Nat} {waiting : List ObjectId} (queued : ∀ j ∈ waiting, j < m) :
    (waiting.filter fun i => !(objects m i).terminal) = waiting :=
  List.filter_eq_self.mpr fun j member => by rw [objects_live (queued j member)]; rfl

/-- The next request joins the older ones of its tenant. -/
theorem enqueue_next (q : WeightedFairRequestQueue) {m : Nat} {tenant : String} {waiting : List ObjectId}
    (own : (objects m m).tenantId = tenant) (found : q.queues.get? tenant = some waiting)
    (older : ∀ k ∈ waiting, k < m) : q.enqueue (objects m) m 0 =
      (.ok (), { q with
        queues := q.queues.insert tenant (waiting ++ [m])
        active := if tenant ∈ q.active then q.active else q.active ++ [tenant] }, objects (m + 1)) := by
  have status : (objects m m).status = .admitted := by
    unfold objects
    rw [if_neg (Nat.lt_irrefl _)]
    rfl
  have fresh : (waiting.any fun j => (objects m j).requestId = (objects m m).requestId) = false := by
    simp only [List.any_eq_false, decide_eq_true_eq]
    exact fun j member => objects_requestId_ne m (Nat.ne_of_lt (older j member))
  unfold enqueue join
  rw [own, found]
  simp only [status, fresh, objects_put, ne_eq, not_true_eq_false, false_and, if_false, if_true, Bool.false_eq_true]

/-- The tenant at the front has its older request served and goes to the back. -/
theorem pop_front (q : WeightedFairRequestQueue) {tenant : String} {rest : List String} {k k' m : Nat}
    (front : q.active = tenant :: rest) (waiting : q.queueOf tenant = [k, k']) (queued : k < m ∧ k' < m)
    (affordable : (objects m k).estimatedTokens ≤ q.deficitOf tenant + q.quantumOf tenant) :
    q.pop (objects m) (fun _ => 0) = (.ok (some k), { q with
      active := rest ++ [tenant]
      queues := q.queues.insert tenant [k']
      deficits := q.deficits.insert tenant
        (q.deficitOf tenant + q.quantumOf tenant - (objects m k).estimatedTokens) }) := by
  have older : ∀ j ∈ [k, k'], j < m := by simp [queued]
  have next := next_eq q k [k'] older
  have live := live_eq older
  have left : [k, k'].erase k = [k'] := List.erase_cons_head ..
  unfold pop
  rw [front]
  simp only [List.length_cons, popLoop, front, visit, live, waiting, next, left, affordable, if_true,
    reduceCtorEq, if_false]

/-- The credit of a whole quantum is granted for a request of one token. -/
theorem pop_cheap {k k' l m : Nat} (even : k % 2 = 0) (queued : k < m ∧ k' < m) (credit : Nat) :
    (queue [k, k'] [l] credit ["cheap", "dear"]).pop (objects m) (fun _ => 0) =
      (.ok (some k), queue [k'] [l] (credit + 127) ["dear", "cheap"]) := by
  have cost : (objects m k).estimatedTokens = 1 := by rw [objects_cost, if_pos even]
  have deficit : (queue [k, k'] [l] credit ["cheap", "dear"]).deficitOf "cheap" = credit := rfl
  have quantum : (queue [k, k'] [l] credit ["cheap", "dear"]).quantumOf "cheap" = 128 := rfl
  rw [pop_front _ rfl rfl queued (by rw [cost, deficit, quantum]; omega), cost, deficit, quantum]
  rfl

theorem pop_dear {k l l' m : Nat} (odd : l % 2 = 1) (queued : l < m ∧ l' < m) (credit : Nat) :
    (queue [k] [l, l'] credit ["dear", "cheap"]).pop (objects m) (fun _ => 0) =
      (.ok (some l), queue [k] [l'] credit ["cheap", "dear"]) := by
  have cost : (objects m l).estimatedTokens = 128 := by rw [objects_cost, if_neg (by omega)]
  have deficit : (queue [k] [l, l'] credit ["dear", "cheap"]).deficitOf "dear" = 0 := rfl
  have quantum : (queue [k] [l, l'] credit ["dear", "cheap"]).quantumOf "dear" = 128 := rfl
  rw [pop_front _ rfl rfl queued (by rw [cost, deficit, quantum]), cost, deficit, quantum]
  rfl

/-- After `n` rounds each tenant has one request waiting. -/
def round (n : Nat) : FairState := ⟨queue [2 * n] [2 * n + 1] (127 * n) ["cheap", "dear"], objects (2 * n + 2)⟩

theorem reach_round : FairState.Reach ⟨queue [] [] 0 [], objects 0⟩ (round 0) := by
  have first := FairState.Step.enqueue (s := ⟨queue [] [] 0 [], objects 0⟩) 0 0
  rw [enqueue_next (queue [] [] 0 []) (m := 0) rfl rfl (by simp)] at first
  have second := FairState.Step.enqueue (s := ⟨queue [0] [] 0 ["cheap"], objects 1⟩) 1 0
  rw [enqueue_next (queue [0] [] 0 ["cheap"]) (m := 1) rfl rfl (by simp)] at second
  exact .step (.step .start first) second

theorem backlogged_queue (cheap dear : List ObjectId) (credit m : Nat) (active : List String) :
    (∃ k ∈ cheap, k < m) → (∃ l ∈ dear, l < m) →
      (queue cheap dear credit active).Backlogged (objects m) "cheap" ∧
        (queue cheap dear credit active).Backlogged (objects m) "dear" := by
  rintro ⟨k, waitsCheap, queuedCheap⟩ ⟨l, waitsDear, queuedDear⟩
  exact ⟨⟨k, waitsCheap, objects_live queuedCheap⟩, l, waitsDear, objects_live queuedDear⟩

theorem serviceOf_objects (m m' : Nat) (tenant : String) (popped : List ObjectId) :
    serviceOf (objects m) tenant popped = serviceOf (objects m') tenant popped := by
  unfold serviceOf tokensFor
  simp only [objects_tenantId, objects_cost]

/-- In each round the first tenant is served one token and saves 127, and
the other one is served 128. -/
theorem interval_rounds (n : Nat) : ∃ popped, (round 0).Interval "cheap" "dear" popped (round n) ∧
    serviceOf (round n).objects "cheap" popped = n ∧ serviceOf (round n).objects "dear" popped = 128 * n := by
  induction n with
  | zero =>
    have waits := backlogged_queue [0] [1] 0 2 ["cheap", "dear"]
      ⟨0, by simp⟩ ⟨1, by simp⟩
    exact ⟨[], .start waits.1 waits.2, rfl, rfl⟩
  | succ n ih =>
    obtain ⟨popped, interval, cheapTokens, dearTokens⟩ := ih
    have step1 := FairState.Step.enqueue (s := round n) (2 * n + 2) 0
    simp only [round] at step1
    rw [enqueue_next _ (m := 2 * n + 2) (by rw [objects_tenantId, if_pos (by omega)]) rfl (by simp)] at step1
    have popped2 := @pop_cheap (2 * n) (2 * n + 2) (2 * n + 1) (2 * n + 3) (by omega) (by omega) (127 * n)
    have step2 := FairState.Step.pop (s := ⟨_, objects (2 * n + 3)⟩) popped2
    have step3 := FairState.Step.enqueue
      (s := ⟨queue [2 * n + 2] [2 * n + 1] (127 * n + 127) ["dear", "cheap"], objects (2 * n + 3)⟩) (2 * n + 3) 0
    rw [enqueue_next _ (m := 2 * n + 3) (by rw [objects_tenantId, if_neg (by omega)]) rfl (by simp)] at step3
    have popped4 := @pop_dear (2 * n + 2) (2 * n + 1) (2 * n + 3) (2 * n + 4) (by omega) (by omega) (127 * n + 127)
    have step4 := FairState.Step.pop (s := ⟨_, objects (2 * n + 4)⟩) popped4
    have waits1 := backlogged_queue [2 * n, 2 * n + 2] [2 * n + 1] (127 * n) (2 * n + 3) ["cheap", "dear"] ⟨2 * n, by simp⟩ ⟨2 * n + 1, by simp⟩
    have waits2 := backlogged_queue [2 * n + 2] [2 * n + 1] (127 * n + 127) (2 * n + 3) ["dear", "cheap"] ⟨2 * n + 2, by simp⟩ ⟨2 * n + 1, by simp⟩
    have waits3 := backlogged_queue [2 * n + 2] [2 * n + 1, 2 * n + 3] (127 * n + 127) (2 * n + 4) ["dear", "cheap"] ⟨2 * n + 2, by simp⟩ ⟨2 * n + 1, by simp⟩
    have waits4 := backlogged_queue [2 * n + 2] [2 * n + 3] (127 * n + 127) (2 * n + 4) ["cheap", "dear"] ⟨2 * n + 2, by simp⟩ ⟨2 * n + 3, by simp⟩
    have later := (((interval.step step1 waits1.1 waits1.2).step step2 waits2.1 waits2.2).step step3 waits3.1
      waits3.2).step step4 waits4.1 waits4.2
    have before : ∀ tenant, serviceOf (round (n + 1)).objects tenant popped = serviceOf (round n).objects tenant popped :=
      fun tenant => serviceOf_objects _ _ tenant popped
    refine ⟨_, later, ?_, ?_⟩
    · simp only [serviceOf_append, serviceOf_toList, before, cheapTokens]
      simp [serviceOf, tokensFor, objects_tenantId, objects_cost, round, Nat.add_mod]
    · simp only [serviceOf_append, serviceOf_toList, before, dearTokens]
      simp [serviceOf, tokensFor, objects_tenantId, objects_cost, round, Nat.add_mod]
      omega

/-- The first `n` rounds. -/
theorem stretch_rounds (n : Nat) : ∃ t : Stretch (queue [] [] 0 []) 128, |t.gap| = 127 * n := by
  obtain ⟨popped, interval, cheapTokens, dearTokens⟩ := interval_rounds n
  refine ⟨⟨objects 0, request_cheap, round 0, reach_round, "cheap", "dear", popped, round n, interval⟩, ?_⟩
  have weight : ∀ tenant, tenant = "cheap" ∨ tenant = "dear" → (queue [] [] 0 []).weightOf tenant = 1 := by
    rintro tenant (rfl | rfl) <;> rfl
  unfold Stretch.gap Stretch.share
  rw [cheapTokens, dearTokens, weight _ (Or.inl rfl), weight _ (Or.inr rfl)]
  have difference : ((n : Nat) : Rat) / (1 : Nat) - ((128 * n : Nat) : Rat) / (1 : Nat) = -(127 * n) := by
    push_cast
    ring
  rw [difference, abs_neg, abs_of_nonneg (by positivity)]

end PiledCredit

end ServingPlatform.WeightedFairRequestQueue
