import Mathlib.Algebra.Order.Floor.Div
import ServingPlatform.FairQueue.Fairness
import ServingPlatform.FairQueue.PiledCredit
import ServingPlatform.FairQueue.PopUntil

namespace ServingPlatform.WeightedFairRequestQueue

variable {q q' : WeightedFairRequestQueue} {objects : Objects} {x tenant : String} {cost turns : Nat}

def smallestWeight (q : WeightedFairRequestQueue) : Nat :=
  ((q.tenants.values.map TenantLimits.schedulingWeight).min?).getD 0

/-- The most tokens that a waiting request is estimated at. -/
def largestCost (q : WeightedFairRequestQueue) (objects : Objects) : Nat :=
  ((q.queues.values.flatten.map fun i => (objects i).estimatedTokens).max?).getD 0

/-- The pops in a row that return nothing stay below this while a request could be served. -/
def pollBound (q : WeightedFairRequestQueue) (objects : Objects) : Nat :=
  q.largestCost objects ⌈/⌉ (q.baseQuantumTokens * q.smallestWeight)

theorem smallestWeight_le (known : q.tenants.contains tenant = true) :
    0 < q.smallestWeight ∧ q.smallestWeight ≤ q.weightOf tenant := by
  obtain ⟨limits, found⟩ := Option.isSome_iff_exists.mp known
  have listed : limits ∈ q.tenants.values := Dict.mem_values_iff.mpr ⟨tenant, found⟩
  have weight : q.weightOf tenant = limits.schedulingWeight := by
    unfold weightOf
    rw [found]
    rfl
  have member : limits.schedulingWeight ∈ q.tenants.values.map TenantLimits.schedulingWeight :=
    List.mem_map_of_mem listed
  obtain ⟨least, smallest⟩ : ∃ least, (q.tenants.values.map TenantLimits.schedulingWeight).min? = some least :=
    Option.isSome_iff_exists.mp (List.isSome_min?_of_mem member)
  obtain ⟨inside, below⟩ := List.min?_eq_some_iff.mp smallest
  obtain ⟨other, -, rfl⟩ := List.mem_map.mp inside
  unfold smallestWeight
  rw [smallest, Option.getD_some, weight]
  exact ⟨other.positive.2.2.2, below _ member⟩

theorem cost_le_largestCost {i : ObjectId} (waits : i ∈ q.queueOf tenant) :
    (objects i).estimatedTokens ≤ q.largestCost objects := by
  obtain ⟨queue, entry, member⟩ := queueOf_entry waits
  have listed : (objects i).estimatedTokens ∈ q.queues.values.flatten.map fun i => (objects i).estimatedTokens :=
    List.mem_map_of_mem (List.mem_flatten.mpr
      ⟨queue, Dict.mem_values_iff.mpr ⟨tenant, Dict.get?_eq_some_iff.mpr entry⟩, member⟩)
  obtain ⟨most, largest⟩ : ∃ most, (q.queues.values.flatten.map fun i => (objects i).estimatedTokens).max? = some most :=
    Option.isSome_iff_exists.mp (List.isSome_max?_of_mem listed)
  unfold largestCost
  rw [largest, Option.getD_some]
  exact (List.max?_eq_some_iff.mp largest).2 _ listed

/-- While it returns nothing, every pop pays a backlogged tenant one visit, and leaves it short of its dearest request. -/
theorem popUntil_none (clocks : Nat → Nat → Seconds) (sound : q.Sound objects) (backlogged : q.Backlogged objects x)
    (dearest : ∀ j ∈ q.queueOf x, (objects j).estimatedTokens ≤ cost)
    (run : popUntil objects clocks turns q = (.ok none, q')) :
    turns = 0 ∨ q.deficitOf x + turns * q.quantumOf x ≤ q'.deficitOf x ∧ q'.deficitOf x < cost := by
  induction turns generalizing q with
  | zero => exact Or.inl rfl
  | succ turns induct =>
    unfold popUntil at run
    rcases pop_cases sound (clocks turns) backlogged dearest with ⟨i, middle, popped⟩ | ⟨middle, popped, passed⟩
    · rw [popped] at run
      cases run
    · rw [popped] at run
      have credit := passed.credit
      refine Or.inr ?_
      rcases induct passed.sound passed.backlogged (fun j member => dearest j (passed.subset j member)) run with
        rfl | ⟨gains, short⟩
      · cases run
        exact ⟨by omega, passed.short⟩
      · rw [passed.quantum] at gains
        refine ⟨?_, short⟩
        rw [Nat.add_mul]
        omega

theorem popUntil_answers (turns : Nat) (clocks : Nat → Nat → Seconds) (sound : q.Sound objects) (backlogged : q.Backlogged objects x)
    (dearest : ∀ j ∈ q.queueOf x, (objects j).estimatedTokens ≤ cost) :
    ∃ result q', popUntil objects clocks turns q = (.ok result, q') := by
  induction turns generalizing q with
  | zero => exact ⟨none, q, rfl⟩
  | succ turns induct =>
    unfold popUntil
    rcases pop_cases sound (clocks turns) backlogged dearest with ⟨i, middle, popped⟩ | ⟨middle, popped, passed⟩
    · rw [popped]
      exact ⟨some i, middle, rfl⟩
    · rw [popped]
      exact induct passed.sound passed.backlogged fun j member => dearest j (passed.subset j member)

/-- In every state that a queue can come to, polling it while a request could
be served returns one, after fewer pops that return nothing than the largest
cost has of the smallest quantum; whatever the clock reads. -/
theorem polling_ends {tenants : List TenantLimits} {quantum : Int} {aging : Rat} {q : WeightedFairRequestQueue}
    {requests : Objects} {s : FairState} {tenant : String} (built : init tenants quantum aging = .ok q)
    (reach : FairState.Reach ⟨q, requests⟩ s) (backlogged : s.queue.Backlogged s.objects tenant)
    (clocks : Nat → Nat → Seconds) :
    (∃ i q', popUntil s.objects clocks (s.queue.pollBound s.objects) s.queue = (.ok (some i), q')) ∧
    ∀ turns q', popUntil s.objects clocks turns s.queue = (.ok none, q') → turns < s.queue.pollBound s.objects := by
  have created := init_sound built requests
  have sound := reach.sound created
  have configured := reach.configured created (init_configured built)
  obtain ⟨positive, smallest⟩ := smallestWeight_le (configured tenant (Or.inl (backlogged.active sound)))
  have dearest : ∀ j ∈ s.queue.queueOf tenant, (s.objects j).estimatedTokens ≤ s.queue.largestCost s.objects :=
    fun j member => cost_le_largestCost member
  have quantum : s.queue.baseQuantumTokens * s.queue.smallestWeight ≤ s.queue.quantumOf tenant :=
    Nat.mul_le_mul_left _ smallest
  have divides : 0 < s.queue.baseQuantumTokens * s.queue.smallestWeight :=
    Nat.mul_pos s.queue.quantumPositive positive
  have bound : ∀ turns, s.queue.pollBound s.objects ≤ turns ↔
      s.queue.largestCost s.objects ≤ s.queue.baseQuantumTokens * s.queue.smallestWeight * turns := by
    intro turns
    exact ceilDiv_le_iff_le_mul divides
  have few : ∀ turns q', popUntil s.objects clocks turns s.queue = (.ok none, q') →
      turns < s.queue.pollBound s.objects := by
    intro turns q' run
    by_contra enough
    have reached := (bound turns).mp (not_lt.mp enough)
    rcases popUntil_none clocks sound backlogged dearest run with rfl | ⟨gains, short⟩
    · obtain ⟨i, member, -⟩ := backlogged
      have costs := dearest i member
      have some : 0 < (s.objects i).estimatedTokens := Nat.add_pos_right _ (s.objects i).positive
      omega
    · have credited : s.queue.baseQuantumTokens * s.queue.smallestWeight * turns ≤ turns * s.queue.quantumOf tenant := by
        rw [Nat.mul_comm turns]
        exact Nat.mul_le_mul_right _ quantum
      omega
  refine ⟨?_, few⟩
  obtain ⟨result, q', run⟩ := popUntil_answers (s.queue.pollBound s.objects) clocks sound backlogged dearest
  cases result with
  | none => exact absurd (few _ _ run) (Nat.lt_irrefl _)
  | some i => exact ⟨i, q', run⟩

theorem polling_ends_round : ∃ i q', popUntil (PiledCredit.round 0).objects (fun _ _ => 0)
    ((PiledCredit.round 0).queue.pollBound (PiledCredit.round 0).objects) (PiledCredit.round 0).queue =
      (.ok (some i), q') := by
  have backlogged : (PiledCredit.round 0).queue.Backlogged (PiledCredit.round 0).objects "cheap" :=
    (PiledCredit.backlogged_queue _ _ _ _ _ ⟨0, by decide, by decide⟩ ⟨1, by decide, by decide⟩).1
  exact (polling_ends PiledCredit.built PiledCredit.reach_round backlogged fun _ _ => 0).1

end ServingPlatform.WeightedFairRequestQueue
