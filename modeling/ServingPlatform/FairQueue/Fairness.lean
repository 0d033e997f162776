import Mathlib.Algebra.Order.Field.Basic
import Mathlib.Algebra.Order.Field.Rat
import Mathlib.Algebra.Order.Ring.Abs
import Mathlib.Tactic.Linarith
import Mathlib.Tactic.Ring
import ServingPlatform.FairQueue.Stretches

namespace ServingPlatform

open WeightedFairRequestQueue

/-- A stretch of a run of a queue, from its creation, in which no request costs more than `cost`. -/
structure Stretch (q : WeightedFairRequestQueue) (cost : Nat) where
  requests : Objects
  cheap : ∀ i, (requests i).estimatedTokens ≤ cost
  first : FairState
  reached : FairState.Reach ⟨q, requests⟩ first
  a : String
  b : String
  popped : List ObjectId
  last : FairState
  interval : first.Interval a b popped last

namespace Stretch

variable {q : WeightedFairRequestQueue} {cost : Nat} (t : Stretch q cost)

/-- A tenant's service by weight. -/
def share (tenant : String) : Rat := FairState.serviceOf t.last.objects tenant t.popped / q.weightOf tenant

/-- What a tenant's unspent credit grew by, by weight. -/
def saved (tenant : String) : Rat :=
  ((t.last.queue.deficitOf tenant : Rat) - t.first.queue.deficitOf tenant) / q.weightOf tenant

/-- The difference in service that the claim of fairness bounds. -/
def gap : Rat := t.share t.a - t.share t.b

def drift : Rat := t.saved t.a - t.saved t.b

end Stretch

namespace TenantLimits

theorem get?_table {α : Type} {value : TenantLimits → α} (tenants : List TenantLimits) {tenant : String} {v : α}
    (found : (table value tenants).get? tenant = some v) : ∃ limits ∈ tenants, value limits = v := by
  have fold : ∀ (l : List TenantLimits) (d : Dict String α),
      (l.foldl (fun d tenant => d.insert tenant.tenantId (value tenant)) d).get? tenant = some v →
      d.get? tenant = some v ∨ ∃ limits ∈ l, value limits = v := by
    intro l
    induction l with
    | nil => exact fun d found => Or.inl found
    | cons limits rest ih =>
      intro d found
      rcases ih _ found with held | ⟨other, member, same⟩
      · rw [Dict.get?_insert] at held
        split at held
        · exact Or.inr ⟨limits, List.mem_cons_self .., Option.some.inj held⟩
        · exact Or.inl held
      · exact Or.inr ⟨other, List.mem_cons_of_mem _ member, same⟩
  exact (fold tenants .empty found).resolve_left (by simp)

theorem contains_table {α β : Type} {f : TenantLimits → α} {g : TenantLimits → β} (tenants : List TenantLimits)
    (tenant : String) : (table f tenants).contains tenant = (table g tenants).contains tenant := by
  have fold : ∀ (l : List TenantLimits) (d : Dict String α) (e : Dict String β),
      d.contains tenant = e.contains tenant →
      (l.foldl (fun d tenant => d.insert tenant.tenantId (f tenant)) d).contains tenant =
        (l.foldl (fun d tenant => d.insert tenant.tenantId (g tenant)) e).contains tenant := by
    intro l
    induction l with
    | nil => exact fun d e same => same
    | cons limits rest ih =>
      intro d e same
      refine ih _ _ ?_
      simp only [Dict.contains, Dict.get?_insert] at same ⊢
      split
      · rfl
      · exact same
  exact fold tenants .empty .empty rfl

end TenantLimits

namespace WeightedFairRequestQueue

variable {tenants : List TenantLimits} {quantum : Int} {aging : Rat} {q : WeightedFairRequestQueue}

theorem init_cases (built : init tenants quantum aging = .ok q) :
    (0 < quantum ∧ (q.baseQuantumTokens : Int) = quantum) ∧ q.tenants = TenantLimits.table id tenants ∧
      q.queues = TenantLimits.table (fun _ => []) tenants ∧ q.deficits = TenantLimits.table (fun _ => 0) tenants ∧
      q.active = [] := by
  unfold init at built
  split at built
  · rename_i positive
    cases built
    exact ⟨⟨positive.1, Int.toNat_of_nonneg positive.1.le⟩, rfl, rfl, rfl, rfl⟩
  · cases built

theorem init_queueOf (built : init tenants quantum aging = .ok q) (tenant : String) : q.queueOf tenant = [] := by
  obtain ⟨-, -, queues, -, -⟩ := init_cases built
  unfold queueOf
  rw [queues]
  cases found : (TenantLimits.table (fun _ => ([] : List ObjectId)) tenants).get? tenant with
  | none => rfl
  | some queue =>
    obtain ⟨-, -, same⟩ := TenantLimits.get?_table tenants found
    exact same.symm

theorem init_sound (built : init tenants quantum aging = .ok q) (objects : Objects) : q.Sound objects := by
  obtain ⟨-, -, -, -, active⟩ := init_cases built
  refine ⟨active ▸ List.nodup_nil, fun tenant waits => absurd (init_queueOf built tenant) waits, fun tenant i member => ?_⟩
  rw [init_queueOf built] at member
  cases member

theorem init_configured (built : init tenants quantum aging = .ok q) : FairState.Configured q := by
  obtain ⟨-, limits, queues, -, active⟩ := init_cases built
  intro tenant takesPart
  rcases takesPart with waits | known
  · rw [active] at waits
    cases waits
  · rw [limits, TenantLimits.contains_table (g := fun _ => ([] : List ObjectId)), ← queues]
    exact known

theorem init_deficitOf (built : init tenants quantum aging = .ok q) (tenant : String) : q.deficitOf tenant = 0 := by
  obtain ⟨-, -, -, deficits, -⟩ := init_cases built
  unfold deficitOf
  rw [deficits]
  cases found : (TenantLimits.table (fun _ => 0) tenants).get? tenant with
  | none => rfl
  | some deficit =>
    obtain ⟨-, -, same⟩ := TenantLimits.get?_table tenants found
    exact same.symm

theorem weightOf_pos {tenant : String} (known : q.tenants.contains tenant = true) : 0 < q.weightOf tenant := by
  obtain ⟨limits, found⟩ := Option.isSome_iff_exists.mp known
  unfold weightOf
  rw [found]
  exact limits.positive.2.2.2

end WeightedFairRequestQueue

namespace Stretch

section

variable {tenants : List TenantLimits} {quantum : Int} {aging : Rat} {q : WeightedFairRequestQueue} {cost : Nat}

theorem weights (built : init tenants quantum aging = .ok q) (t : Stretch q cost) :
    0 < q.weightOf t.a ∧ 0 < q.weightOf t.b := by
  have created := init_sound built t.requests
  have sound := t.reached.sound created
  have configured := t.reached.configured created (init_configured built)
  have same := (t.reached.parameters created).1
  have waits := t.interval.ends.1
  exact ⟨weightOf_pos (same ▸ configured t.a (Or.inl (waits.1.active sound))),
    weightOf_pos (same ▸ configured t.b (Or.inl (waits.2.active sound)))⟩

/-- Service and saved credit together differ by at most one quantum between the tenants. -/
theorem gap_add_drift (built : init tenants quantum aging = .ok q) (t : Stretch q cost) :
    |t.gap + t.drift| ≤ quantum := by
  have positive := (init_cases built).1
  have nonneg : (0 : Rat) ≤ quantum := by exact_mod_cast positive.1.le
  by_cases same : t.a = t.b
  · unfold gap drift
    rw [same, sub_self, sub_self, add_zero, abs_zero]
    exact nonneg
  have created := init_sound built t.requests
  have sound := t.reached.sound created
  obtain ⟨va, vb, booksA, booksB, turns⟩ := t.interval.books sound same
  have weights := t.weights built
  rw [t.reached.quantumOf created, quantumOf] at booksA booksB
  have paid : ∀ {tenant : String} {v : Nat}, 0 < q.weightOf tenant →
      t.last.queue.deficitOf tenant + FairState.serviceOf t.last.objects tenant t.popped =
        t.first.queue.deficitOf tenant + q.baseQuantumTokens * q.weightOf tenant * v →
      t.share tenant + t.saved tenant = quantum * v := by
    intro tenant v positiveWeight books
    have weight : (0 : Rat) < q.weightOf tenant := by exact_mod_cast positiveWeight
    have base : (q.baseQuantumTokens : Rat) = quantum := by exact_mod_cast positive.2
    have balance : (t.last.queue.deficitOf tenant : Rat) + FairState.serviceOf t.last.objects tenant t.popped =
        t.first.queue.deficitOf tenant + quantum * q.weightOf tenant * v := by
      rw [← base]
      exact_mod_cast books
    unfold share saved
    rw [← add_div, div_eq_iff weight.ne']
    linarith
  have sum : t.gap + t.drift = quantum * ((va : Rat) - vb) := by
    have first := paid weights.1 booksA
    have second := paid weights.2 booksB
    unfold gap drift
    linarith
  have near : |(va : Rat) - vb| ≤ 1 := by
    have before := turn_le_one (a := t.a) (b := t.b) t.first.queue.active
    have after := turn_le_one (a := t.a) (b := t.b) t.last.queue.active
    have low : vb ≤ va + 1 := by omega
    have high : va ≤ vb + 1 := by omega
    rw [abs_le]
    constructor
    · have : (vb : Rat) ≤ va + 1 := by exact_mod_cast low
      linarith
    · have : (va : Rat) ≤ vb + 1 := by exact_mod_cast high
      linarith
  rw [sum, abs_mul, abs_of_nonneg nonneg]
  exact mul_le_of_le_one_right nonneg near

/-- Where every request costs at least its tenant's quantum, no more than `cost` is ever saved. -/
theorem drift_le (built : init tenants quantum aging = .ok q) (t : Stretch q cost)
    (dear : ∀ i, q.quantumOf (t.requests i).tenantId ≤ (t.requests i).estimatedTokens) : |t.drift| ≤ 2 * cost := by
  have created := init_sound built t.requests
  have kept : ∀ {s : FairState}, FairState.Reach ⟨q, t.requests⟩ s → ∀ tenant, s.queue.deficitOf tenant ≤ cost := by
    intro s reach
    induction reach with
    | start => exact fun tenant => (init_deficitOf built tenant).trans_le (Nat.zero_le _)
    | step before step ih =>
      refine step.credit_le (before.sound created) (fun i => ?_) (fun i => ?_) ih
      · rw [(before.evolves i).estimatedTokens]
        exact t.cheap i
      · rw [before.quantumOf created, (before.evolves i).tenantId, (before.evolves i).estimatedTokens]
        exact dear i
  have reachLast : FairState.Reach ⟨q, t.requests⟩ t.last :=
    t.interval.reach.induct (P := FairState.Reach ⟨q, t.requests⟩) (fun step before => .step before step) t.reached
  have single : ∀ tenant, 0 < q.weightOf tenant → |t.saved tenant| ≤ cost := by
    intro tenant positive
    have weight : (1 : Rat) ≤ q.weightOf tenant := by exact_mod_cast positive
    have first : (t.first.queue.deficitOf tenant : Rat) ≤ cost := by exact_mod_cast kept t.reached tenant
    have last : (t.last.queue.deficitOf tenant : Rat) ≤ cost := by exact_mod_cast kept reachLast tenant
    have difference : |(t.last.queue.deficitOf tenant : Rat) - t.first.queue.deficitOf tenant| ≤ cost := by
      have := Nat.cast_nonneg (α := Rat) (t.first.queue.deficitOf tenant)
      have := Nat.cast_nonneg (α := Rat) (t.last.queue.deficitOf tenant)
      rw [abs_le]
      constructor <;> linarith
    unfold saved
    rw [abs_div, abs_of_pos (lt_of_lt_of_le one_pos weight)]
    exact (div_le_self (abs_nonneg _) weight).trans difference
  calc |t.drift| ≤ |t.saved t.a| + |t.saved t.b| := abs_sub _ _
    _ ≤ cost + cost := add_le_add (single _ (t.weights built).1) (single _ (t.weights built).2)
    _ = 2 * cost := (two_mul _).symm

end

end Stretch

end ServingPlatform
