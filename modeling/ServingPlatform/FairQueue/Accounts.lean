import ServingPlatform.FairQueue.Queue

namespace ServingPlatform.WeightedFairRequestQueue

variable {q q' : WeightedFairRequestQueue} {objects objects' : Objects} {now : Seconds}

/-- Every tenant with waiting requests takes part in the round robin, once. -/
structure Sound (q : WeightedFairRequestQueue) (objects : Objects) : Prop where
  distinct : q.active.Nodup
  waiting : ∀ tenant, q.queueOf tenant ≠ [] → tenant ∈ q.active
  own : ∀ tenant, ∀ i ∈ q.queueOf tenant, (objects i).tenantId = tenant ∧ (objects i).reached .queued = true

/-- A tenant has a request that could be served. -/
def Backlogged (q : WeightedFairRequestQueue) (objects : Objects) (tenant : String) : Prop :=
  ∃ i ∈ q.queueOf tenant, (objects i).terminal = false

theorem Backlogged.active (backlogged : q.Backlogged objects a) (sound : q.Sound objects) : a ∈ q.active := by
  obtain ⟨i, member, -⟩ := backlogged
  exact sound.waiting a (List.ne_nil_of_mem member)

section Lookup

variable {tenant other : String}

theorem queueOf_insert {queues : Dict String (List ObjectId)} {queue : List ObjectId} :
    ((queues.insert tenant queue).get? other).getD [] = if other = tenant then queue else (queues.get? other).getD [] := by
  rw [Dict.get?_insert]
  split <;> rfl

theorem queueOf_entry {i : ObjectId} (waits : i ∈ q.queueOf tenant) :
    ∃ queue, (tenant, queue) ∈ q.queues.entries ∧ i ∈ queue := by
  unfold queueOf at waits
  cases found : q.queues.get? tenant with
  | none =>
    rw [found] at waits
    cases waits
  | some queue =>
    rw [found] at waits
    exact ⟨queue, Dict.get?_eq_some_iff.mp found, waits⟩

theorem deficitOf_insert {deficits : Dict String Nat} {deficit : Nat} :
    ((deficits.insert tenant deficit).get? other).getD 0 = if other = tenant then deficit else (deficits.get? other).getD 0 := by
  rw [Dict.get?_insert]
  split <;> rfl

end Lookup

theorem urgency_ok {r : RequestRecord} (reached : r.reached .queued = true) : ∃ key, q.urgency r now = .ok key := by
  obtain ⟨queuedAt, found⟩ := Option.isSome_iff_exists.mp reached
  unfold urgency
  rw [found]
  exact ⟨_, rfl⟩

theorem mostUrgent_ok {queue : List ObjectId} (reached : ∀ i ∈ queue, (objects i).reached .queued = true)
    (best : ObjectId) (key : Rat × Int) :
    ∃ i, q.mostUrgent objects now best key queue = .ok i ∧ (i = best ∨ i ∈ queue) := by
  induction queue generalizing best key with
  | nil => exact ⟨best, rfl, Or.inl rfl⟩
  | cons j rest ih =>
    obtain ⟨other, found⟩ := q.urgency_ok (reached j (List.mem_cons_self ..))
    have later : ∀ i ∈ rest, (objects i).reached .queued = true := fun i member =>
      reached i (List.mem_cons_of_mem _ member)
    unfold mostUrgent
    rw [found]
    dsimp only
    split
    · obtain ⟨i, run, origin⟩ := ih later j other
      refine ⟨i, run, Or.inr ?_⟩
      rcases origin with rfl | member
      · exact List.mem_cons_self ..
      · exact List.mem_cons_of_mem _ member
    · obtain ⟨i, run, origin⟩ := ih later best key
      exact ⟨i, run, origin.imp id (List.mem_cons_of_mem _)⟩

/-- The request chosen for a tenant is one of its requests. -/
theorem nextForTenant_ok {queue : List ObjectId} (reached : ∀ i ∈ queue, (objects i).reached .queued = true)
    (some : queue ≠ []) : ∃ i ∈ queue, q.nextForTenant objects now queue = .ok i := by
  cases queue with
  | nil => exact absurd rfl some
  | cons j rest =>
    obtain ⟨key, found⟩ := @urgency_ok q now _ (reached j (List.mem_cons_self ..))
    obtain ⟨i, run, origin⟩ := q.mostUrgent_ok
      (fun i member => reached i (List.mem_cons_of_mem _ member)) j key
    refine ⟨i, ?_, ?_⟩
    · rcases origin with rfl | member
      · exact List.mem_cons_self ..
      · exact List.mem_cons_of_mem _ member
    · simp only [nextForTenant, found]
      exact run

/-- The requests of a tenant that a visit looks at. -/
def live (q : WeightedFairRequestQueue) (objects : Objects) (tenant : String) : List ObjectId :=
  (q.queueOf tenant).filter fun i => !(objects i).terminal

theorem live_ne_nil {tenant : String} : q.live objects tenant ≠ [] ↔ q.Backlogged objects tenant := by
  simp only [live, ne_eq, List.filter_eq_nil_iff, Backlogged, not_forall]
  constructor
  · rintro ⟨i, member, alive⟩
    exact ⟨i, member, by simpa using alive⟩
  · rintro ⟨i, member, alive⟩
    exact ⟨i, member, by simpa using alive⟩

/-- What a visit may do: drop an empty tenant, serve one request of the tenant, or pass it. -/
inductive Visited (q : WeightedFairRequestQueue) (objects : Objects) (tenant : String) (rest : List String) :
    Option ObjectId → WeightedFairRequestQueue → Prop
  | dropped (empty : q.live objects tenant = []) : Visited q objects tenant rest none
      { q with
        active := rest
        queues := q.queues.insert tenant (q.live objects tenant)
        deficits := q.deficits.insert tenant 0 }
  | served {i : ObjectId} (member : i ∈ q.live objects tenant)
      (affordable : (objects i).estimatedTokens ≤ q.deficitOf tenant + q.quantumOf tenant) :
      Visited q objects tenant rest (some i)
        { q with
          active := if (q.live objects tenant).erase i = [] then rest else rest ++ [tenant]
          queues := q.queues.insert tenant ((q.live objects tenant).erase i)
          deficits := q.deficits.insert tenant
            (q.deficitOf tenant + q.quantumOf tenant - (objects i).estimatedTokens) }
  | passed {i : ObjectId} (member : i ∈ q.live objects tenant)
      (short : q.deficitOf tenant + q.quantumOf tenant < (objects i).estimatedTokens) : Visited q objects tenant rest none
      { q with
        active := rest ++ [tenant]
        queues := q.queues.insert tenant (q.live objects tenant)
        deficits := q.deficits.insert tenant (q.deficitOf tenant + q.quantumOf tenant) }

theorem visit_cases (sound : q.Sound objects) (now : Seconds) (tenant : String) (rest : List String) :
    ∃ result q', q.visit objects now tenant rest = (.ok result, q') ∧ q.Visited objects tenant rest result q' := by
  unfold visit
  dsimp only
  change ∃ result q', (if q.live objects tenant = [] then _ else _) = _ ∧ _
  by_cases empty : q.live objects tenant = []
  · rw [if_pos empty]
    exact ⟨none, _, rfl, .dropped empty⟩
  rw [if_neg empty]
  have reached : ∀ i ∈ q.live objects tenant, (objects i).reached .queued = true := fun i member =>
    (sound.own tenant i (List.mem_of_mem_filter member)).2
  obtain ⟨i, member, next⟩ := q.nextForTenant_ok reached empty
  rw [show q.nextForTenant objects now (List.filter _ _) = .ok i from next]
  dsimp only
  by_cases affordable : (objects i).estimatedTokens ≤ q.deficitOf tenant + q.quantumOf tenant
  · rw [if_pos affordable]
    exact ⟨some i, _, rfl, .served member affordable⟩
  · rw [if_neg affordable]
    exact ⟨none, _, rfl, .passed member (Nat.lt_of_not_le affordable)⟩

end ServingPlatform.WeightedFairRequestQueue

namespace ServingPlatform.WeightedFairRequestQueue

variable {q q' : WeightedFairRequestQueue} {objects objects' : Objects} {now : Seconds} {a b tenant : String}
  {rest : List String} {result : Option ObjectId}

/-- Whether `a` comes before `b`, as a number. -/
def turn (a b : String) : List String → Nat
  | [] => 0
  | t :: rest => if t = a then 1 else if t = b then 0 else turn a b rest

theorem turn_le_one (l : List String) : turn a b l ≤ 1 := by
  induction l with
  | nil => exact Nat.zero_le _
  | cons t rest ih =>
    unfold turn
    split
    · exact Nat.le_refl _
    · split
      · exact Nat.zero_le _
      · exact ih

theorem turn_append {l : List String} (tail : List String) (member : a ∈ l ∨ b ∈ l) :
    turn a b (l ++ tail) = turn a b l := by
  induction l with
  | nil => simp at member
  | cons t rest ih =>
    unfold turn
    by_cases isA : t = a
    · simp only [isA, if_true, List.cons_append]
    by_cases isB : t = b
    · simp only [isB, List.cons_append, if_true]
    · simp only [isA, isB, if_false, List.cons_append]
      refine ih ?_
      rcases member with atA | atB
      · exact Or.inl ((List.mem_cons.mp atA).resolve_left fun same => isA same.symm)
      · exact Or.inr ((List.mem_cons.mp atB).resolve_left fun same => isB same.symm)

/-- In a rotation the tenant at the front goes behind the others. -/
theorem turn_rotate (differ : a ≠ b) (distinct : (tenant :: rest).Nodup) (atA : a ∈ tenant :: rest)
    (atB : b ∈ tenant :: rest) : turn a b (rest ++ [tenant]) + (if tenant = a then 1 else 0) =
      turn a b (tenant :: rest) + (if tenant = b then 1 else 0) := by
  have fresh := (List.nodup_cons.mp distinct).1
  have inRest : ∀ x, x ∈ tenant :: rest → tenant ≠ x → x ∈ rest := fun x member other =>
    (List.mem_cons.mp member).resolve_left fun same => other same.symm
  have none : ∀ {l : List String}, a ∉ l → turn a b l = 0 := by
    intro l absent
    induction l with
    | nil => rfl
    | cons t l ih =>
      have differ : t ≠ a := fun same => absent (same ▸ List.mem_cons_self ..)
      unfold turn
      rw [if_neg differ, ih fun member => absent (List.mem_cons_of_mem _ member)]
      split <;> rfl
  by_cases isA : tenant = a
  · subst isA
    have later := inRest b atB differ
    rw [turn_append _ (Or.inr later), none fresh, if_pos rfl, if_neg differ]
    simp [turn]
  by_cases isB : tenant = b
  · subst isB
    have later := inRest a atA isA
    have first : ∀ {l : List String}, a ∈ l → tenant ∉ l → turn a tenant l = 1 := by
      intro l member absent
      induction l with
      | nil => cases member
      | cons t l ih =>
        unfold turn
        by_cases same : t = a
        · exact if_pos same
        · have later : t ≠ tenant := fun same => absent (same ▸ List.mem_cons_self ..)
          rw [if_neg same, if_neg later]
          exact ih ((List.mem_cons.mp member).resolve_left fun eq => same eq.symm)
            fun member => absent (List.mem_cons_of_mem _ member)
    rw [turn_append _ (Or.inl later), first later fresh, if_neg isA, if_pos rfl]
    simp [turn, isA]
  · rw [turn_append _ (Or.inl (inRest a atA isA)), if_neg isA, if_neg isB]
    simp [turn, isA, isB]

/-- The tokens a result brings for a tenant. -/
def tokensFor (objects : Objects) (x : String) : Option ObjectId → Nat
  | none => 0
  | some i => if (objects i).tenantId = x then (objects i).estimatedTokens else 0

theorem Visited.sound (visited : q.Visited objects tenant rest result q') (sound : q.Sound objects)
    (front : q.active = tenant :: rest) : q'.Sound objects := by
  have distinct := front ▸ sound.distinct
  have rotated : (rest ++ [tenant]).Nodup := (List.perm_append_singleton tenant rest).nodup_iff.mpr distinct
  have others : ∀ other, other ≠ tenant → q.queueOf other ≠ [] → other ∈ rest := fun other differ waits =>
    (List.mem_cons.mp (front ▸ sound.waiting other waits)).resolve_left differ
  have live : ∀ i ∈ q.live objects tenant, (objects i).tenantId = tenant ∧ (objects i).reached .queued = true :=
    fun i member => sound.own tenant i (List.mem_of_mem_filter member)
  cases visited with
  | dropped empty =>
    refine ⟨(List.nodup_cons.mp distinct).2, fun other waits => ?_, fun other i member => ?_⟩
    · simp only [queueOf, queueOf_insert] at waits
      split at waits
      · exact absurd empty waits
      · exact others other ‹_› waits
    · simp only [queueOf, queueOf_insert] at member
      split at member
      · rename_i same
        exact same ▸ live i member
      · exact sound.own other i member
  | served chosen affordable =>
    refine ⟨?_, fun other waits => ?_, fun other i member => ?_⟩
    · dsimp only
      split
      · exact (List.nodup_cons.mp distinct).2
      · exact rotated
    · simp only [queueOf, queueOf_insert] at waits
      dsimp only
      split at waits
      · rename_i same
        rw [if_neg waits, same]
        exact List.mem_append_right _ (List.mem_singleton_self _)
      · rename_i differ
        have member := others other differ waits
        split
        · exact member
        · exact List.mem_append_left _ member
    · simp only [queueOf, queueOf_insert] at member
      split at member
      · rename_i same
        exact same ▸ live i (List.mem_of_mem_erase member)
      · exact sound.own other i member
  | passed member short =>
    refine ⟨rotated, fun other waits => ?_, fun other i member => ?_⟩
    · simp only [queueOf, queueOf_insert] at waits
      split at waits
      · rename_i same
        exact same ▸ List.mem_append_right _ (List.mem_singleton_self _)
      · exact List.mem_append_left _ (others other ‹_› waits)
    · simp only [queueOf, queueOf_insert] at member
      split at member
      · rename_i same
        exact same ▸ live i member
      · exact sound.own other i member

/-- What is spent and what is left of a tenant's credit after a visit. -/
theorem Visited.credit (visited : q.Visited objects tenant rest result q') (sound : q.Sound objects)
    {x : String} (backlogged : q.Backlogged objects x) :
    q'.deficitOf x + tokensFor objects x result = q.deficitOf x + if tenant = x then q.quantumOf x else 0 := by
  cases visited with
  | dropped empty =>
    have differ : x ≠ tenant := fun same => live_ne_nil.mpr (same ▸ backlogged) empty
    simp only [deficitOf, deficitOf_insert, tokensFor, if_neg differ, if_neg differ.symm]
  | @served i member affordable =>
    have own := (sound.own tenant i (List.mem_of_mem_filter member)).1
    simp only [deficitOf, deficitOf_insert, tokensFor, own]
    by_cases same : x = tenant
    · subst same
      simp only [if_true]
      exact Nat.sub_add_cancel affordable
    · simp only [if_neg same, if_neg (Ne.symm same)]
  | passed member short =>
    simp only [deficitOf, deficitOf_insert, tokensFor]
    by_cases same : x = tenant
    · subst same
      simp only [if_true, Nat.add_zero]
    · simp only [if_neg same, if_neg (Ne.symm same)]

theorem Visited.backlogged (visited : q.Visited objects tenant rest none q') {x : String}
    (backlogged : q.Backlogged objects x) : q'.Backlogged objects x := by
  have kept : x ≠ tenant → q'.queueOf x = q.queueOf x := by
    intro differ
    cases visited <;> simp only [queueOf, queueOf_insert, if_neg differ]
  rcases eq_or_ne x tenant with rfl | differ
  · obtain ⟨i, member, alive⟩ := backlogged
    have isLive : i ∈ q.live objects x := List.mem_filter.mpr ⟨member, by simp [alive]⟩
    refine ⟨i, ?_, alive⟩
    cases visited <;> simpa only [queueOf, queueOf_insert, if_true] using isLive
  · rw [Backlogged, kept differ]
    exact backlogged

theorem Visited.quantum (visited : q.Visited objects tenant rest result q') (x : String) :
    q'.quantumOf x = q.quantumOf x := by
  cases visited <;> rfl

/-- Two tenants that stay backlogged keep taking turns. -/
theorem Visited.turns (visited : q.Visited objects tenant rest result q') (sound : q.Sound objects)
    (front : q.active = tenant :: rest) (differ : a ≠ b) (waitsA : q.Backlogged objects a)
    (waitsB : q.Backlogged objects b) (stillA : q'.Backlogged objects a) (stillB : q'.Backlogged objects b) :
    turn a b q'.active + (if tenant = a then 1 else 0) = turn a b q.active + (if tenant = b then 1 else 0) := by
  have atA := front ▸ waitsA.active sound
  have atB := front ▸ waitsB.active sound
  have after := visited.sound sound front
  have rotate := turn_rotate differ (front ▸ sound.distinct) atA atB
  have dropping : ∀ {l : List String}, q'.active = rest → turn a b q'.active + (if tenant = a then 1 else 0) =
      turn a b q.active + (if tenant = b then 1 else 0) := by
    intro l active
    have fresh := (List.nodup_cons.mp (front ▸ sound.distinct)).1
    have notA : tenant ≠ a := fun same => fresh (same ▸ active ▸ stillA.active after)
    have notB : tenant ≠ b := fun same => fresh (same ▸ active ▸ stillB.active after)
    rw [active, front, if_neg notA, if_neg notB]
    simp [turn, notA, notB]
  rw [front]
  cases visited with
  | dropped empty => exact front ▸ dropping (l := rest) rfl
  | @served i member affordable =>
    by_cases empty : (q.live objects tenant).erase i = []
    · exact front ▸ dropping (l := rest) (if_pos empty)
    · dsimp only
      rw [if_neg empty]
      exact rotate
  | passed member short => exact rotate

/-- What every visit keeps, a pop keeps. -/
theorem popLoop_induct {P : WeightedFairRequestQueue → Prop}
    (step : ∀ {q q' : WeightedFairRequestQueue} {tenant rest result}, q.Sound objects → q.active = tenant :: rest →
      q.Visited objects tenant rest result q' → P q → P q')
    (sound : q.Sound objects) (holds : P q) (clock : Nat → Seconds) (visits : Nat) :
    ∃ result q', popLoop objects clock visits q = (.ok result, q') ∧ q'.Sound objects ∧ P q' := by
  induction visits generalizing q with
  | zero => exact ⟨none, q, rfl, sound, holds⟩
  | succ visits ih =>
    cases front : q.active with
    | nil =>
      simp only [popLoop, front]
      exact ⟨none, q, rfl, sound, holds⟩
    | cons tenant rest =>
      obtain ⟨result, middle, run, visited⟩ := visit_cases sound (clock visits) tenant rest
      have after := visited.sound sound front
      have kept := step sound front visited holds
      simp only [popLoop, front, run]
      cases result with
      | some i => exact ⟨some i, middle, rfl, after, kept⟩
      | none => exact ih after kept

/-- The books of a pop: `va` and `vb` visits were paid to the two tenants. -/
theorem popLoop_books (sound : q.Sound objects) (differ : a ≠ b) (waitsA : q.Backlogged objects a)
    (waitsB : q.Backlogged objects b) (clock : Nat → Seconds) (visits : Nat) :
    ∃ result q', popLoop objects clock visits q = (.ok result, q') ∧ q'.Sound objects ∧
      (∀ x, q'.quantumOf x = q.quantumOf x) ∧
      (q'.Backlogged objects a → q'.Backlogged objects b → ∃ va vb,
        q'.deficitOf a + tokensFor objects a result = q.deficitOf a + q.quantumOf a * va ∧
        q'.deficitOf b + tokensFor objects b result = q.deficitOf b + q.quantumOf b * vb ∧
        turn a b q'.active + va = turn a b q.active + vb) := by
  induction visits generalizing q with
  | zero => exact ⟨none, q, rfl, sound, fun _ => rfl, fun _ _ => ⟨0, 0, rfl, rfl, rfl⟩⟩
  | succ visits ih =>
    cases front : q.active with
    | nil =>
      have member := waitsA.active sound
      rw [front] at member
      cases member
    | cons tenant rest =>
      obtain ⟨result, middle, run, visited⟩ := visit_cases sound (clock visits) tenant rest
      have after := visited.sound sound front
      have creditA := visited.credit sound waitsA
      have creditB := visited.credit sound waitsB
      simp only [popLoop, front, run]
      cases result with
      | some i =>
        refine ⟨some i, middle, rfl, after, visited.quantum, fun stillA stillB =>
          ⟨if tenant = a then 1 else 0, if tenant = b then 1 else 0, ?_, ?_, ?_⟩⟩
        · rw [creditA]
          split <;> simp
        · rw [creditB]
          split <;> simp
        · exact front ▸ visited.turns sound front differ waitsA waitsB stillA stillB
      | none =>
        have keptA := visited.backlogged waitsA
        have keptB := visited.backlogged waitsB
        obtain ⟨result, q', run, sound', quanta, books⟩ := ih after keptA keptB
        refine ⟨result, q', run, sound', fun x => (quanta x).trans (visited.quantum x), fun stillA stillB => ?_⟩
        obtain ⟨va, vb, booksA, booksB, turns⟩ := books stillA stillB
        have once := visited.turns sound front differ waitsA waitsB keptA keptB
        rw [visited.quantum] at booksA booksB
        refine ⟨va + if tenant = a then 1 else 0, vb + if tenant = b then 1 else 0, ?_, ?_, ?_⟩
        · have paid : middle.deficitOf a = q.deficitOf a + if tenant = a then q.quantumOf a else 0 := creditA
          rw [booksA, paid, Nat.mul_add, mul_ite, Nat.mul_one, Nat.mul_zero]
          omega
        · have paid : middle.deficitOf b = q.deficitOf b + if tenant = b then q.quantumOf b else 0 := creditB
          rw [booksB, paid, Nat.mul_add, mul_ite, Nat.mul_one, Nat.mul_zero]
          omega
        · rw [front] at once
          omega

end ServingPlatform.WeightedFairRequestQueue
