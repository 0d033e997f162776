import Mathlib.Algebra.Order.BigOperators.Group.List
import Mathlib.Algebra.Order.Group.Nat
import ServingPlatform.FairQueue.Membership

namespace ServingPlatform.WeightedFairRequestQueue

variable {q q' : WeightedFairRequestQueue} {objects : Objects} {i : ObjectId} {tenant x : String} {rest : List String}
  {cost visits turns : Nat}

/-- `while selected is None: selected = self.fair_queue.pop()`, for a number of turns. -/
def popUntil (objects : Objects) (clocks : Nat → Nat → Seconds) :
    Nat → WeightedFairRequestQueue → Except Raised (Option ObjectId) × WeightedFairRequestQueue
  | 0, q => (.ok none, q)
  | turns + 1, q =>
    match q.pop objects (clocks turns) with
    | (.ok none, q') => popUntil objects clocks turns q'
    | (result, q') => (result, q')

/-- Turns enough to pop a request while a tenant is backlogged. -/
def turnsFor (q : WeightedFairRequestQueue) (objects : Objects) (tenant : String) : Nat :=
  ((q.queueOf tenant).map fun i => (objects i).estimatedTokens).sum + 1

/-- A popped request was waiting and was not over. -/
theorem Visited.popped (visited : q.Visited objects tenant rest (some i) q') :
    i ∈ q.queueOf tenant ∧ (objects i).terminal = false := by
  cases visited with
  | served member affordable =>
    obtain ⟨inside, alive⟩ := List.mem_filter.mp member
    exact ⟨inside, by simpa using alive⟩

theorem Visited.queue_subset {result : Option ObjectId} (visited : q.Visited objects tenant rest result q')
    (x : String) : ∀ j ∈ q'.queueOf x, j ∈ q.queueOf x := by
  intro j member
  cases visited with
  | dropped empty =>
    simp only [queueOf, queueOf_insert] at member
    split at member
    · rename_i same
      exact same ▸ List.mem_of_mem_filter member
    · exact member
  | served chosen affordable =>
    simp only [queueOf, queueOf_insert] at member
    split at member
    · rename_i same
      exact same ▸ List.mem_of_mem_filter (List.mem_of_mem_erase member)
    · exact member
  | passed chosen short =>
    simp only [queueOf, queueOf_insert] at member
    split at member
    · rename_i same
      exact same ▸ List.mem_of_mem_filter member
    · exact member

theorem popLoop_popped (sound : q.Sound objects) (clock : Nat → Seconds)
    (run : popLoop objects clock visits q = (.ok (some i), q')) :
    (∃ tenant, i ∈ q.queueOf tenant) ∧ (objects i).terminal = false := by
  induction visits generalizing q with
  | zero => cases run
  | succ visits induct =>
    cases front : q.active with
    | nil =>
      simp only [popLoop, front] at run
      cases run
    | cons tenant rest =>
      obtain ⟨result, middle, first, visited⟩ := visit_cases sound (clock visits) tenant rest
      simp only [popLoop, front, first] at run
      cases result with
      | some j =>
        cases run
        exact ⟨⟨tenant, visited.popped.1⟩, visited.popped.2⟩
      | none =>
        obtain ⟨⟨other, member⟩, alive⟩ := induct (visited.sound sound front) run
        exact ⟨⟨other, visited.queue_subset other i member⟩, alive⟩

/-- A backlogged tenant that a pop passes by has gained a visit's credit, and is
still short of its dearest request. -/
structure Passed (objects : Objects) (x : String) (cost : Nat) (q q' : WeightedFairRequestQueue) : Prop where
  sound : q'.Sound objects
  backlogged : q'.Backlogged objects x
  quantum : q'.quantumOf x = q.quantumOf x
  subset : ∀ j ∈ q'.queueOf x, j ∈ q.queueOf x
  credit : q.deficitOf x + q.quantumOf x ≤ q'.deficitOf x
  short : q'.deficitOf x < cost

theorem Visited.credit_of_none (visited : q.Visited objects tenant rest none q') (sound : q.Sound objects)
    (backlogged : q.Backlogged objects x) :
    q'.deficitOf x = q.deficitOf x + if tenant = x then q.quantumOf x else 0 := by
  have credit := visited.credit sound backlogged
  rw [tokensFor, Nat.add_zero] at credit
  exact credit

theorem Visited.short (visited : q.Visited objects tenant rest none q') (backlogged : q.Backlogged objects tenant)
    (dearest : ∀ j ∈ q.queueOf tenant, (objects j).estimatedTokens ≤ cost) : q'.deficitOf tenant < cost := by
  cases visited with
  | dropped empty => exact absurd empty (live_ne_nil.mpr backlogged)
  | passed member short =>
    have most := dearest _ (List.mem_of_mem_filter member)
    simp only [deficitOf, deficitOf_insert, if_true] at short ⊢
    omega

/-- A pop that returns nothing has visited all its tenants. -/
theorem popLoop_none (sound : q.Sound objects) (clock : Nat → Seconds) (backlogged : q.Backlogged objects x)
    (dearest : ∀ j ∈ q.queueOf x, (objects j).estimatedTokens ≤ cost) {early later : List String}
    (active : q.active = early ++ later) (run : popLoop objects clock early.length q = (.ok none, q')) :
    (x ∈ early ∨ q.deficitOf x < cost → q'.deficitOf x < cost) ∧
      q.deficitOf x + (if x ∈ early then q.quantumOf x else 0) ≤ q'.deficitOf x ∧ q'.Sound objects ∧
      q'.Backlogged objects x ∧ q'.quantumOf x = q.quantumOf x ∧ ∀ j ∈ q'.queueOf x, j ∈ q.queueOf x := by
  induction early generalizing q later with
  | nil =>
    cases run
    exact ⟨fun cond => cond.resolve_left List.not_mem_nil, by simp, sound, backlogged, rfl, fun _ member => member⟩
  | cons tenant early induct =>
    have front : q.active = tenant :: (early ++ later) := active
    have distinct : tenant ∉ early := by
      have nodup := front ▸ sound.distinct
      exact fun member => (List.nodup_cons.mp nodup).1 (List.mem_append_left _ member)
    obtain ⟨result, middle, first, visited⟩ := visit_cases sound (clock early.length) tenant (early ++ later)
    simp only [List.length_cons, popLoop, front, first] at run
    cases result with
    | some j => cases run
    | none =>
      have still := visited.backlogged backlogged
      have fewer := visited.queue_subset x
      have credit := visited.credit_of_none sound backlogged
      obtain ⟨tail, next⟩ : ∃ tail, middle.active = early ++ tail := by
        cases visited with
        | dropped empty => exact ⟨later, rfl⟩
        | passed member short => exact ⟨later ++ [tenant], List.append_assoc _ _ _⟩
      obtain ⟨short, gains, sound', still', quantum, subset⟩ :=
        induct (visited.sound sound front) still (fun j member => dearest j (fewer j member)) next run
      refine ⟨fun cond => short ?_, ?_, sound', still', quantum.trans (visited.quantum x),
        fun j member => fewer j (subset j member)⟩
      · rcases cond with member | before
        · rcases List.mem_cons.mp member with rfl | member
          · exact Or.inr (visited.short backlogged dearest)
          · exact Or.inl member
        · by_cases same : tenant = x
          · subst same
            exact Or.inr (visited.short backlogged dearest)
          · rw [if_neg same, Nat.add_zero] at credit
            exact Or.inr (credit ▸ before)
      · rw [credit, visited.quantum x] at gains
        by_cases same : tenant = x
        · subst same
          rw [if_pos rfl, if_neg distinct] at gains
          rw [if_pos List.mem_cons_self]
          exact gains
        · rw [if_neg same] at gains
          simp only [List.mem_cons, Ne.symm same, false_or]
          exact gains

theorem pop_cases (sound : q.Sound objects) (clock : Nat → Seconds) (backlogged : q.Backlogged objects x)
    (dearest : ∀ j ∈ q.queueOf x, (objects j).estimatedTokens ≤ cost) :
    (∃ i q', q.pop objects clock = (.ok (some i), q')) ∨
      ∃ q', q.pop objects clock = (.ok none, q') ∧ Passed objects x cost q q' := by
  obtain ⟨result, q', run, -⟩ := popLoop_induct (P := fun _ => True) (fun _ _ _ _ => trivial) sound trivial
    clock q.active.length
  cases result with
  | some i => exact Or.inl ⟨i, q', run⟩
  | none =>
    have member : x ∈ q.active := backlogged.active sound
    obtain ⟨short, gains, sound', still, quantum, subset⟩ :=
      popLoop_none sound clock backlogged dearest (List.append_nil _).symm run
    rw [if_pos member] at gains
    exact Or.inr ⟨q', run, sound', still, quantum, subset, gains, short (Or.inl member)⟩

/-- The loop ends: each turn that pops nothing leaves a backlogged tenant with
more credit, and less than its dearest request costs. -/
theorem popUntil_some (clocks : Nat → Nat → Seconds) (positive : 0 < q.quantumOf x) (sound : q.Sound objects)
    (backlogged : q.Backlogged objects x) (dearest : ∀ j ∈ q.queueOf x, (objects j).estimatedTokens ≤ cost)
    (enough : cost ≤ turns + q.deficitOf x) (turn : 0 < turns) :
    ∃ i q', popUntil objects clocks turns q = (.ok (some i), q') := by
  induction turns generalizing q with
  | zero => omega
  | succ turns induct =>
    unfold popUntil
    rcases pop_cases sound (clocks turns) backlogged dearest with ⟨i, q', run⟩ | ⟨q', run, passed⟩
    · rw [run]
      exact ⟨i, q', rfl⟩
    · rw [run]
      have credit := passed.credit
      have short := passed.short
      exact induct (by rw [passed.quantum]; exact positive) passed.sound passed.backlogged
        (fun j member => dearest j (passed.subset j member)) (by omega) (by omega)

theorem popUntil_turnsFor (clocks : Nat → Nat → Seconds) (positive : 0 < q.quantumOf x) (sound : q.Sound objects)
    (backlogged : q.Backlogged objects x) :
    ∃ i q', popUntil objects clocks (q.turnsFor objects x) q = (.ok (some i), q') := by
  refine popUntil_some clocks positive sound backlogged (fun j member => ?_) (Nat.le_add_right _ _) (Nat.succ_pos _)
  exact Nat.le_succ_of_le (List.single_le_sum (fun _ _ => Nat.zero_le _) _
    (List.mem_map_of_mem (f := fun i => (objects i).estimatedTokens) member))

end ServingPlatform.WeightedFairRequestQueue

namespace ServingPlatform.WeightedFairRequestQueue

variable {q q' q'' : WeightedFairRequestQueue} {objects : Objects} {now : Seconds} {i : ObjectId} {tenant x : String}
  {rest : List String} {visits : Nat}

/-- The tenants a pop takes from the front of the ring, in turn. -/
def visitedTenants (objects : Objects) (clock : Nat → Seconds) : Nat → WeightedFairRequestQueue → List String
  | 0, _ => []
  | visitsRemaining + 1, q =>
    match q.active with
    | [] => []
    | tenant :: rest =>
      match q.visit objects (clock visitsRemaining) tenant rest with
      | (.ok none, q') => tenant :: visitedTenants objects clock visitsRemaining q'
      | _ => [tenant]

/-- What a visit makes of a deficit that may, as the source's integers, be negative. -/
def signedVisit (q : WeightedFairRequestQueue) (objects : Objects) (now : Seconds) (tenant : String) (deficit : Int) : Int :=
  if q.live objects tenant = [] then 0
  else
    let credit := deficit + q.quantumOf tenant
    match q.nextForTenant objects now (q.live objects tenant) with
    | .error _ => credit
    | .ok i => if (objects i).estimatedTokens ≤ credit then credit - (objects i).estimatedTokens else credit

/-- The integer deficits after a pop. -/
def signedDeficits (objects : Objects) (clock : Nat → Seconds) :
    Nat → WeightedFairRequestQueue → (String → Int) → String → Int
  | 0, _, deficits => deficits
  | visitsRemaining + 1, q, deficits =>
    match q.active with
    | [] => deficits
    | tenant :: rest =>
      let charged := fun other =>
        if other = tenant then q.signedVisit objects (clock visitsRemaining) tenant (deficits tenant) else deficits other
      match q.visit objects (clock visitsRemaining) tenant rest with
      | (.ok none, q') => signedDeficits objects clock visitsRemaining q' charged
      | _ => charged

/-- No visit charges a tenant more than its credit, so the deficits of the model are the integer ones. -/
theorem visit_deficitOf (q : WeightedFairRequestQueue) (objects : Objects) (now : Seconds) (tenant : String)
    (rest : List String) (other : String) :
    ((q.visit objects now tenant rest).2.deficitOf other : Int) =
      if other = tenant then q.signedVisit objects now tenant (q.deficitOf tenant) else q.deficitOf other := by
  unfold visit signedVisit
  dsimp only
  change (((if q.live objects tenant = [] then _ else _ : Except Raised (Option ObjectId) × WeightedFairRequestQueue).2.deficitOf
    other : Nat) : Int) = _
  by_cases empty : q.live objects tenant = []
  · rw [if_pos empty, if_pos empty]
    simp only [deficitOf, deficitOf_insert]
    split <;> rfl
  rw [if_neg empty, if_neg empty]
  change ((match q.nextForTenant objects now (q.live objects tenant) with
    | .error raised => _
    | .ok i => _ : Except Raised (Option ObjectId) × WeightedFairRequestQueue).2.deficitOf other : Int) = _
  cases q.nextForTenant objects now (q.live objects tenant) with
  | error raised =>
    simp only [deficitOf, deficitOf_insert]
    split <;> simp
  | ok i =>
    dsimp only
    by_cases affordable : (objects i).estimatedTokens ≤ q.deficitOf tenant + q.quantumOf tenant
    · have signed : ((objects i).estimatedTokens : Int) ≤ q.deficitOf tenant + q.quantumOf tenant := by omega
      rw [if_pos affordable, if_pos signed]
      simp only [deficitOf, deficitOf_insert] at affordable ⊢
      split <;> omega
    · have signed : ¬ ((objects i).estimatedTokens : Int) ≤ q.deficitOf tenant + q.quantumOf tenant := by omega
      rw [if_neg affordable, if_neg signed]
      simp only [deficitOf, deficitOf_insert]
      split <;> omega

theorem popLoop_deficitOf (objects : Objects) (clock : Nat → Seconds) (visits : Nat) (q : WeightedFairRequestQueue)
    (other : String) :
    ((popLoop objects clock visits q).2.deficitOf other : Int) =
      signedDeficits objects clock visits q (fun tenant => q.deficitOf tenant) other := by
  induction visits generalizing q with
  | zero => rfl
  | succ visits induct =>
    cases front : q.active with
    | nil => simp only [popLoop, signedDeficits, front]
    | cons tenant rest =>
      have charged : (fun other => ((q.visit objects (clock visits) tenant rest).2.deficitOf other : Int)) =
          fun other => if other = tenant then q.signedVisit objects (clock visits) tenant (q.deficitOf tenant)
            else (q.deficitOf other : Int) :=
        funext (q.visit_deficitOf objects (clock visits) tenant rest)
      simp only [popLoop, signedDeficits, front]
      rw [← charged]
      rcases turn : q.visit objects (clock visits) tenant rest with ⟨_ | _ | i, q'⟩
      · rfl
      · exact induct q'
      · rfl

/-- A tenant that an operation leaves alone: its limits, its requests, its credit and its turn. -/
structure Untouched (q q' : WeightedFairRequestQueue) (tenant : String) : Prop where
  limits : q'.tenants.get? tenant = q.tenants.get? tenant
  queue : q'.queues.get? tenant = q.queues.get? tenant
  deficit : q'.deficits.get? tenant = q.deficits.get? tenant
  turn : q'.active.count tenant = q.active.count tenant

theorem Untouched.trans (first : q.Untouched q' x) (second : q'.Untouched q'' x) : q.Untouched q'' x where
  limits := second.limits.trans first.limits
  queue := second.queue.trans first.queue
  deficit := second.deficit.trans first.deficit
  turn := second.turn.trans first.turn

theorem Visited.untouched {result : Option ObjectId} (visited : q.Visited objects tenant rest result q')
    (front : q.active = tenant :: rest) (other : x ≠ tenant) : q.Untouched q' x := by
  have stays : rest.count x = q.active.count x := by rw [front, List.count_cons_of_ne other.symm]
  have rotates : (rest ++ [tenant]).count x = q.active.count x := by
    rw [List.count_append, stays, List.count_singleton, if_neg (by simpa using other.symm), Nat.add_zero]
  cases visited with
  | dropped empty => exact ⟨rfl, Dict.get?_insert_of_ne other, Dict.get?_insert_of_ne other, stays⟩
  | served member affordable =>
    refine ⟨rfl, Dict.get?_insert_of_ne other, Dict.get?_insert_of_ne other, ?_⟩
    dsimp only
    split
    · exact stays
    · exact rotates
  | passed member short => exact ⟨rfl, Dict.get?_insert_of_ne other, Dict.get?_insert_of_ne other, rotates⟩

/-- A pop changes nothing of a tenant it does not visit. -/
theorem popLoop_untouched (sound : q.Sound objects) (clock : Nat → Seconds)
    (unvisited : x ∉ visitedTenants objects clock visits q) : q.Untouched (popLoop objects clock visits q).2 x := by
  induction visits generalizing q with
  | zero => exact ⟨rfl, rfl, rfl, rfl⟩
  | succ visits induct =>
    cases front : q.active with
    | nil =>
      simp only [popLoop, front]
      exact ⟨rfl, rfl, rfl, rfl⟩
    | cons tenant rest =>
      obtain ⟨result, middle, turn, visited⟩ := visit_cases sound (clock visits) tenant rest
      simp only [visitedTenants, front, turn] at unvisited
      simp only [popLoop, front, turn]
      cases result with
      | some i => exact visited.untouched front (by simpa using unvisited)
      | none =>
        rw [List.mem_cons, not_or] at unvisited
        exact (visited.untouched front unvisited.1).trans (induct (visited.sound sound front) unvisited.2)

theorem Visited.order {result : Option ObjectId} (visited : q.Visited objects tenant rest result q')
    (front : q.active = tenant :: rest) {keep : String → Bool} (moved : keep tenant = false) :
    q'.active.filter keep = q.active.filter keep := by
  have stays : rest.filter keep = q.active.filter keep := by
    rw [front, List.filter_cons_of_neg (by simp [moved])]
  have rotates : (rest ++ [tenant]).filter keep = q.active.filter keep := by
    rw [List.filter_append, stays, List.filter_cons_of_neg (by simp [moved]), List.filter_nil, List.append_nil]
  cases visited with
  | dropped empty => exact stays
  | served member affordable =>
    dsimp only
    split
    · exact stays
    · exact rotates
  | passed member short => exact rotates

/-- The tenants a pop does not visit keep their order in the ring. -/
theorem popLoop_order (sound : q.Sound objects) (clock : Nat → Seconds) {keep : String → Bool}
    (moved : ∀ tenant ∈ visitedTenants objects clock visits q, keep tenant = false) :
    (popLoop objects clock visits q).2.active.filter keep = q.active.filter keep := by
  induction visits generalizing q with
  | zero => rfl
  | succ visits induct =>
    cases front : q.active with
    | nil => simp only [popLoop, front]
    | cons tenant rest =>
      obtain ⟨result, middle, turn, visited⟩ := visit_cases sound (clock visits) tenant rest
      simp only [visitedTenants, front, turn] at moved
      simp only [popLoop, front, turn]
      cases result with
      | some i =>
        have first := moved tenant (List.mem_singleton_self _)
        exact (visited.order front first).trans (by rw [front])
      | none =>
        have first := moved tenant (List.mem_cons_self ..)
        have later := induct (visited.sound sound front) fun other member => moved other (List.mem_cons_of_mem _ member)
        exact later.trans ((visited.order front first).trans (by rw [front]))

end ServingPlatform.WeightedFairRequestQueue
