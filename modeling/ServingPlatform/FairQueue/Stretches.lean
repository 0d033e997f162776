import Mathlib.Algebra.BigOperators.Group.List.Basic
import ServingPlatform.FairQueue.Membership

namespace ServingPlatform

open WeightedFairRequestQueue

/-- The fair queue together with the request objects of its process. -/
structure FairState where
  queue : WeightedFairRequestQueue
  objects : Objects

/-- The operations of the queue, with the requests they hand out, and the
changes other components make to the shared requests. -/
inductive FairState.Step (s : FairState) : List ObjectId → FairState → Prop
  | enqueue (i : ObjectId) (now : Seconds) :
      Step s [] ⟨(s.queue.enqueue s.objects i now).2.1, (s.queue.enqueue s.objects i now).2.2⟩
  | cancel (requestId : String) (now : Seconds) :
      Step s [] ⟨(s.queue.cancel s.objects requestId now).2.1, (s.queue.cancel s.objects requestId now).2.2⟩
  | pop {clock : Nat → Seconds} {result : Option ObjectId} {queue : WeightedFairRequestQueue}
      (run : s.queue.pop s.objects clock = (.ok result, queue)) : Step s result.toList ⟨queue, s.objects⟩
  | popRaised {clock : Nat → Seconds} {raised : Raised} {queue : WeightedFairRequestQueue}
      (run : s.queue.pop s.objects clock = (.error raised, queue)) : Step s [] ⟨queue, s.objects⟩
  | changed {objects : Objects} (evolves : ∀ i, (s.objects i).Evolves (objects i)) : Step s [] ⟨s.queue, objects⟩

/-- The states a queue and its requests can come to. -/
inductive FairState.Reach (first : FairState) : FairState → Prop
  | start : Reach first first
  | step {s s' : FairState} {popped : List ObjectId} (before : Reach first s) (step : s.Step popped s') : Reach first s'

/-- A stretch of a run throughout which two tenants stay backlogged, with all that is popped in it. -/
inductive FairState.Interval (a b : String) (s : FairState) : List ObjectId → FairState → Prop
  | start (waitsA : s.queue.Backlogged s.objects a) (waitsB : s.queue.Backlogged s.objects b) : Interval a b s [] s
  | step {popped more : List ObjectId} {s' s'' : FairState} (before : Interval a b s popped s')
      (step : s'.Step more s'') (waitsA : s''.queue.Backlogged s''.objects a)
      (waitsB : s''.queue.Backlogged s''.objects b) : Interval a b s (popped ++ more) s''

namespace FairState

variable {s s' : FairState} {a b : String} {popped : List ObjectId}

/-- The tokens of a tenant's requests among the popped ones. -/
def serviceOf (objects : Objects) (tenant : String) (popped : List ObjectId) : Nat :=
  (popped.map fun i => tokensFor objects tenant (some i)).sum

theorem serviceOf_append (objects : Objects) (tenant : String) (popped more : List ObjectId) :
    serviceOf objects tenant (popped ++ more) = serviceOf objects tenant popped + serviceOf objects tenant more := by
  simp only [serviceOf, List.map_append, List.sum_append]

theorem serviceOf_toList (objects : Objects) (tenant : String) (result : Option ObjectId) :
    serviceOf objects tenant result.toList = tokensFor objects tenant result := by
  cases result with
  | none => rfl
  | some i => exact Nat.add_zero _

theorem Step.evolves (step : s.Step popped s') (i : ObjectId) : (s.objects i).Evolves (s'.objects i) := by
  cases step with
  | enqueue i' now => exact s.queue.enqueue_evolves s.objects i' now i
  | cancel requestId now => exact s.queue.cancel_evolves s.objects requestId now i
  | pop run => exact .refl _
  | popRaised run => exact .refl _
  | changed evolves => exact evolves i

theorem Step.serviceOf (step : s.Step popped s') (tenant : String) (served : List ObjectId) :
    serviceOf s'.objects tenant served = FairState.serviceOf s.objects tenant served := by
  unfold FairState.serviceOf
  congr 1
  refine List.map_congr_left fun i _ => ?_
  simp only [tokensFor, (step.evolves i).tenantId, (step.evolves i).estimatedTokens]

theorem Step.sound (step : s.Step popped s') (sound : s.queue.Sound s.objects) : s'.queue.Sound s'.objects := by
  cases step with
  | enqueue i now => exact sound.enqueue i now
  | cancel requestId now => exact sound.cancel requestId now
  | @pop clock result queue run =>
    obtain ⟨_, q', run', after, -⟩ := popLoop_induct (P := fun _ => True) (fun _ _ _ _ => trivial) sound trivial
      clock s.queue.active.length
    cases run.symm.trans run'
    exact after
  | @popRaised clock raised queue run =>
    obtain ⟨_, q', run', -⟩ := popLoop_induct (P := fun _ => True) (fun _ _ _ _ => trivial) sound trivial
      clock s.queue.active.length
    cases run.symm.trans run'
  | changed evolves => exact sound.evolves evolves

/-- What the visits of a pop keep, and what does not depend on queues and turns, every step keeps. -/
theorem Step.keeps {P : WeightedFairRequestQueue → Prop} (step : s.Step popped s') (sound : s.queue.Sound s.objects)
    (others : ∀ q q' : WeightedFairRequestQueue, q'.tenants = q.tenants → q'.baseQuantumTokens = q.baseQuantumTokens →
      q'.deficits = q.deficits → (∀ tenant, q'.queues.contains tenant = q.queues.contains tenant) →
      (∀ tenant ∈ q'.active, tenant ∈ q.active ∨ q.queues.contains tenant = true) → P q → P q')
    (visits : ∀ {q q' : WeightedFairRequestQueue} {tenant rest result}, q.Sound s.objects →
      q.active = tenant :: rest → q.Visited s.objects tenant rest result q' → P q → P q')
    (holds : P s.queue) : P s'.queue := by
  have replaced : ∀ {tenant : String} {old : List ObjectId} (queue : List ObjectId),
      s.queue.queues.get? tenant = some old →
      ∀ other, (s.queue.queues.insert tenant queue).contains other = s.queue.queues.contains other := by
    intro tenant old queue found other
    simp only [Dict.contains, Dict.get?_insert]
    split
    · rename_i same
      rw [same, found]
      rfl
    · rfl
  have joined : ∀ i queue, s.queue.queues.get? (s.objects i).tenantId = some queue →
      P (s.queue.join s.objects i queue) := by
    intro i queue found
    refine others s.queue (s.queue.join s.objects i queue) rfl rfl rfl (replaced (queue ++ [i]) found) ?_ holds
    intro tenant member
    unfold join at member
    dsimp only at member
    split at member
    · exact Or.inl member
    · rcases List.mem_append.mp member with old | new
      · exact Or.inl old
      · rw [List.mem_singleton.mp new, Dict.contains, found]
        exact Or.inr rfl
  cases step with
  | enqueue i now =>
    rcases s.queue.enqueue_cases s.objects i now with ⟨raised, run, -⟩ | ⟨queue, found, -, ⟨-, run⟩ | ⟨-, run⟩⟩
    · rw [run]
      exact holds
    · rw [run]
      exact joined i queue found
    · rw [run]
      exact joined i queue found
  | cancel requestId now =>
    rcases s.queue.cancel_cases s.objects requestId now with run | ⟨tenant, queue, i, found, -, -, after, -⟩
    · rw [run]
      exact holds
    · rw [after]
      exact others s.queue _ rfl rfl rfl (replaced (queue.erase i) found) (fun _ member => Or.inl member) holds
  | @pop clock result queue run =>
    obtain ⟨_, q', run', -, after⟩ := popLoop_induct visits sound holds clock s.queue.active.length
    cases run.symm.trans run'
    exact after
  | @popRaised clock raised queue run =>
    obtain ⟨_, q', run', -⟩ := popLoop_induct visits sound holds clock s.queue.active.length
    cases run.symm.trans run'
  | changed evolves => exact holds

/-- Tenants that take part are configured ones. -/
def Configured (q : WeightedFairRequestQueue) : Prop :=
  ∀ tenant, tenant ∈ q.active ∨ q.queues.contains tenant = true → q.tenants.contains tenant = true

theorem Step.configured (step : s.Step popped s') (sound : s.queue.Sound s.objects) (configured : Configured s.queue) :
    Configured s'.queue := by
  refine step.keeps sound (P := Configured) ?_ ?_ configured
  · intro q q' tenants _ _ queues active configured tenant takesPart
    rw [tenants]
    rcases takesPart with waits | known
    · exact configured tenant (active tenant waits)
    · exact configured tenant (Or.inr (queues tenant ▸ known))
  · intro q q' tenant rest result _ front visited configured
    have first : q.tenants.contains tenant = true := configured tenant (Or.inl (front ▸ List.mem_cons_self ..))
    have later : ∀ other ∈ rest, q.tenants.contains other = true := fun other member =>
      configured other (Or.inl (front ▸ List.mem_cons_of_mem _ member))
    have rotated : ∀ other ∈ rest ++ [tenant], q.tenants.contains other = true := fun other member =>
      (List.mem_append.mp member).elim (later other) fun last => List.mem_singleton.mp last ▸ first
    have known : ∀ queue other, (q.queues.insert tenant queue).contains other = true →
        q.tenants.contains other = true := by
      intro queue other held
      simp only [Dict.contains, Dict.get?_insert] at held
      split at held
      · rename_i same
        exact same ▸ first
      · exact configured other (Or.inr held)
    cases visited with
    | dropped empty => exact fun other takesPart => takesPart.elim (later other) (known _ other)
    | served member affordable =>
      refine fun other takesPart => takesPart.elim (fun waits => ?_) (known _ other)
      dsimp only at waits
      split at waits
      · exact later other waits
      · exact rotated other waits
    | passed member short => exact fun other takesPart => takesPart.elim (rotated other) (known _ other)

/-- A step does not change tenants, their weights or the quantum. -/
theorem Step.parameters (step : s.Step popped s') (sound : s.queue.Sound s.objects) :
    s'.queue.tenants = s.queue.tenants ∧ s'.queue.baseQuantumTokens = s.queue.baseQuantumTokens := by
  refine step.keeps sound
    (P := fun q => q.tenants = s.queue.tenants ∧ q.baseQuantumTokens = s.queue.baseQuantumTokens) ?_ ?_ ⟨rfl, rfl⟩
  · intro q q' tenants quantum _ _ _ kept
    exact ⟨tenants.trans kept.1, quantum.trans kept.2⟩
  · intro q q' tenant rest result _ _ visited kept
    cases visited <;> exact kept

/-- Where every request costs at least its tenant's quantum, credit never
exceeds the largest cost. -/
theorem Step.credit_le (step : s.Step popped s') (sound : s.queue.Sound s.objects) {cost : Nat}
    (cheap : ∀ i, (s.objects i).estimatedTokens ≤ cost)
    (dear : ∀ i, s.queue.quantumOf (s.objects i).tenantId ≤ (s.objects i).estimatedTokens)
    (bounded : ∀ tenant, s.queue.deficitOf tenant ≤ cost) : ∀ tenant, s'.queue.deficitOf tenant ≤ cost := by
  have kept := step.keeps sound (P := fun q => (∀ tenant, q.deficitOf tenant ≤ cost) ∧
    ∀ i, q.quantumOf (s.objects i).tenantId ≤ (s.objects i).estimatedTokens) ?_ ?_ ⟨bounded, dear⟩
  · exact kept.1
  · intro q q' tenants quantum deficits _ _ holds
    unfold deficitOf quantumOf weightOf at *
    rw [tenants, quantum, deficits]
    exact holds
  · intro q q' tenant rest result sound _ visited holds
    refine ⟨fun other => ?_, fun i => visited.quantum _ ▸ holds.2 i⟩
    cases visited with
    | dropped empty =>
      simp only [deficitOf, deficitOf_insert]
      split
      · exact Nat.zero_le _
      · exact holds.1 other
    | @served i member affordable =>
      have own := (sound.own tenant i (List.mem_of_mem_filter member)).1
      have quantum := own ▸ holds.2 i
      have credit := holds.1 tenant
      simp only [deficitOf, deficitOf_insert]
      split
      · simp only [deficitOf] at credit
        omega
      · exact holds.1 other
    | @passed i member short =>
      have most := cheap i
      simp only [deficitOf, deficitOf_insert]
      split
      · simp only [deficitOf] at short
        omega
      · exact holds.1 other

end FairState

end ServingPlatform

namespace ServingPlatform

open WeightedFairRequestQueue

namespace FairState

variable {s s' s'' : FairState} {a b : String} {popped more : List ObjectId}

/-- A step of a stretch: both tenants' books balance, and both take turns. -/
theorem Step.books (step : s.Step popped s') (sound : s.queue.Sound s.objects) (differ : a ≠ b)
    (waitsA : s.queue.Backlogged s.objects a) (waitsB : s.queue.Backlogged s.objects b)
    (stillA : s'.queue.Backlogged s'.objects a) (stillB : s'.queue.Backlogged s'.objects b) : ∃ va vb,
      s'.queue.deficitOf a + FairState.serviceOf s'.objects a popped =
        s.queue.deficitOf a + s.queue.quantumOf a * va ∧
      s'.queue.deficitOf b + FairState.serviceOf s'.objects b popped =
        s.queue.deficitOf b + s.queue.quantumOf b * vb ∧
      turn a b s'.queue.active + va = turn a b s.queue.active + vb := by
  have joined : ∀ i queue, turn a b (s.queue.join s.objects i queue).active = turn a b s.queue.active := by
    intro i queue
    unfold join
    dsimp only
    split
    · rfl
    · exact turn_append _ (Or.inl (waitsA.active sound))
  cases step with
  | enqueue i now =>
    refine ⟨0, 0, ?_⟩
    rcases s.queue.enqueue_cases s.objects i now with ⟨raised, run, -⟩ | ⟨queue, -, -, ⟨-, run⟩ | ⟨-, run⟩⟩
    · rw [run]
      exact ⟨rfl, rfl, rfl⟩
    · rw [run]
      exact ⟨rfl, rfl, joined i queue⟩
    · rw [run]
      exact ⟨rfl, rfl, joined i queue⟩
  | cancel requestId now =>
    refine ⟨0, 0, ?_⟩
    rcases s.queue.cancel_cases s.objects requestId now with run | ⟨tenant, queue, i, -, -, -, after, -⟩
    · rw [run]
      exact ⟨rfl, rfl, rfl⟩
    · rw [after]
      exact ⟨rfl, rfl, rfl⟩
  | @pop clock result queue run =>
    obtain ⟨_, q', run', -, -, books⟩ :=
      popLoop_books sound differ waitsA waitsB clock s.queue.active.length
    cases run.symm.trans run'
    simp only [serviceOf_toList]
    exact books stillA stillB
  | @popRaised clock raised queue run =>
    obtain ⟨_, q', run', -⟩ := popLoop_books sound differ waitsA waitsB clock s.queue.active.length
    cases run.symm.trans run'
  | changed evolves => exact ⟨0, 0, rfl, rfl, rfl⟩

theorem Interval.ends (interval : s.Interval a b popped s') :
    (s.queue.Backlogged s.objects a ∧ s.queue.Backlogged s.objects b) ∧
      s'.queue.Backlogged s'.objects a ∧ s'.queue.Backlogged s'.objects b := by
  induction interval with
  | start waitsA waitsB => exact ⟨⟨waitsA, waitsB⟩, waitsA, waitsB⟩
  | step before step waitsA waitsB ih => exact ⟨ih.1, waitsA, waitsB⟩

theorem Interval.reach (interval : s.Interval a b popped s') : s.Reach s' := by
  induction interval with
  | start waitsA waitsB => exact .start
  | step before step waitsA waitsB ih => exact .step ih step

/-- What every step keeps holds in every state reached. -/
theorem Reach.induct {P : FairState → Prop} (step : ∀ {s s' popped}, s.Step popped s' → P s → P s')
    (reach : s.Reach s') (holds : P s) : P s' := by
  induction reach with
  | start => exact holds
  | step before taken ih => exact step taken ih

theorem Reach.sound (reach : s.Reach s') (sound : s.queue.Sound s.objects) : s'.queue.Sound s'.objects :=
  reach.induct (P := fun s => s.queue.Sound s.objects) (fun step sound => step.sound sound) sound

theorem Reach.parameters (reach : s.Reach s') (sound : s.queue.Sound s.objects) :
    s'.queue.tenants = s.queue.tenants ∧ s'.queue.baseQuantumTokens = s.queue.baseQuantumTokens := by
  refine (reach.induct (P := fun t => t.queue.Sound t.objects ∧ t.queue.tenants = s.queue.tenants ∧
    t.queue.baseQuantumTokens = s.queue.baseQuantumTokens) (fun step kept => ?_) ⟨sound, rfl, rfl⟩).2
  obtain ⟨sound, tenants, quantum⟩ := kept
  have same := step.parameters sound
  exact ⟨step.sound sound, same.1.trans tenants, same.2.trans quantum⟩

theorem Reach.quantumOf (reach : s.Reach s') (sound : s.queue.Sound s.objects) (tenant : String) :
    s'.queue.quantumOf tenant = s.queue.quantumOf tenant := by
  unfold WeightedFairRequestQueue.quantumOf weightOf
  rw [(reach.parameters sound).1, (reach.parameters sound).2]

theorem Reach.evolves (reach : s.Reach s') (i : ObjectId) : (s.objects i).Evolves (s'.objects i) := by
  induction reach with
  | start => exact .refl _
  | step before step ih => exact ih.trans (step.evolves i)

theorem Reach.configured (reach : s.Reach s') (sound : s.queue.Sound s.objects) (configured : Configured s.queue) :
    Configured s'.queue := by
  refine (reach.induct (P := fun t => t.queue.Sound t.objects ∧ Configured t.queue) (fun step kept => ?_)
    ⟨sound, configured⟩).2
  exact ⟨step.sound kept.1, step.configured kept.1 kept.2⟩

/-- The books of a stretch. -/
theorem Interval.books (interval : s.Interval a b popped s') (sound : s.queue.Sound s.objects) (differ : a ≠ b) :
    ∃ va vb,
      s'.queue.deficitOf a + serviceOf s'.objects a popped = s.queue.deficitOf a + s.queue.quantumOf a * va ∧
      s'.queue.deficitOf b + serviceOf s'.objects b popped = s.queue.deficitOf b + s.queue.quantumOf b * vb ∧
      turn a b s'.queue.active + va = turn a b s.queue.active + vb := by
  induction interval with
  | start waitsA waitsB => exact ⟨0, 0, rfl, rfl, rfl⟩
  | @step popped more s' s'' before step waitsA waitsB ih =>
    obtain ⟨va, vb, booksA, booksB, turns⟩ := ih
    have middle := before.reach.sound sound
    have waits := before.ends.2
    obtain ⟨va', vb', booksA', booksB', turns'⟩ := step.books middle differ waits.1 waits.2 waitsA waitsB
    rw [before.reach.quantumOf sound] at booksA' booksB'
    refine ⟨va + va', vb + vb', ?_, ?_, ?_⟩
    · rw [serviceOf_append, step.serviceOf, Nat.mul_add]
      omega
    · rw [serviceOf_append, step.serviceOf, Nat.mul_add]
      omega
    · omega

end FairState

end ServingPlatform
