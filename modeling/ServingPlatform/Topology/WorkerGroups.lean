import Mathlib.Data.List.Sort
import Mathlib.Data.Prod.Lex
import ServingPlatform.Placement.Selection
import ServingPlatform.Topology.PathCosts

namespace ServingPlatform

structure WorkerGroupDecision where
  workerIds : List String
  policy : String
  topologyCost : Rat
  loadCost : Rat
  candidatesConsidered : Nat
  rejectedWorkers : Dict String String

/-- The policy, with the check of its constructor. `summed` is the builtin sum over floats. -/
structure TopologyAwareWorkerGroupPolicy extends PlacementPolicy where
  topology : TopologyGraph
  loadWeight : Rat
  summed : List Rat → Rat
  nonneg : 0 ≤ loadWeight

/-- Why `select_group` raises. -/
inductive GroupRefusal
  | misused (raised : Raised)
  | unplaced (refusal : Refusal)

/-- An entry of `ranked`: its total, its ids, its topology cost and its load cost. -/
abbrev RankedGroup := Rat ×ₗ List String ×ₗ Rat ×ₗ Rat

/-- `combinations(…, size)`. -/
def groups {α : Type} : Nat → List α → List (List α)
  | 0, _ => [[]]
  | _ + 1, [] => []
  | size + 1, a :: rest => (groups size rest).map (a :: ·) ++ groups (size + 1) rest

namespace TopologyAwareWorkerGroupPolicy

variable (p : TopologyAwareWorkerGroupPolicy)

/-- `tuple(sorted(…))` of the ids of a group. -/
def workerIds (group : List WorkerState) : List String := (group.map WorkerState.workerId).insertionSort (· ≤ ·)

def loadCost (group : List WorkerState) : Rat :=
  p.summed (group.map fun worker => p.rounded (worker.queueDepth + p.concurrencyUtilization worker))

def ranked (group : List WorkerState) (topologyCost : Rat) : RankedGroup :=
  toLex (p.rounded (topologyCost + p.rounded (p.loadWeight * p.loadCost group)),
    toLex (workerIds group, toLex (topologyCost, p.loadCost group)))

/-- The loop of `select_group`, which skips the groups that are not connected. -/
def rank (fuel : Nat) : List (List WorkerState) → List RankedGroup → Except Raised (Option (List RankedGroup))
  | [], entries => .ok (some entries)
  | group :: rest, entries =>
    match p.topology.groupCost fuel (workerIds group) with
    | .error raised => .error raised
    | .ok none => .ok none
    | .ok (some topologyCost) =>
      if topologyCost = ⊤ then rank fuel rest entries
      else rank fuel rest (entries ++ [p.ranked group (topologyCost.untopD 0)])

/-- The workers that pass `_filter` but are no endpoints of the topology are rejected as well. -/
def selectGroup (fuel : Nat) (r : RequestRecord) (workers : List WorkerState) (groupSize : Int) :
    Except GroupRefusal (Option WorkerGroupDecision) :=
  if groupSize ≤ 0 then .error (.misused (valueError "worker group size must be positive"))
  else
    match p.sift r workers with
    | .error refusal => .error (.unplaced refusal)
    | .ok (_, eligible, rejected) =>
      let known : WorkerState → Bool := fun worker => p.topology.endpoints.contains worker.workerId
      let rejected := eligible.foldl (fun rejected worker =>
        if known worker then rejected else rejected.insert worker.workerId "topology_missing") rejected
      let eligible := eligible.filter known
      if eligible.length < groupSize then .error (.unplaced (.noneEligible rejected))
      else
        match p.rank fuel (groups groupSize.toNat eligible) [] with
        | .error raised => .error (.misused raised)
        | .ok none => .ok none
        | .ok (some entries) =>
          match entries.min? with
          | none => .error (.unplaced (.noneEligible rejected))
          | some best => .ok (some {
              workerIds := (ofLex (ofLex best).2).1
              policy := "topology_aware_worker_group"
              topologyCost := (ofLex (ofLex (ofLex best).2).2).1
              loadCost := (ofLex (ofLex (ofLex best).2).2).2
              candidatesConsidered := entries.length
              rejectedWorkers := rejected })

/-- Why a worker is in no group. -/
def rejectionReason (r : RequestRecord) (model : ModelDefinition) (worker : WorkerState) : Option String :=
  match p.rejection r model worker with
  | some reason => some reason
  | none => if p.topology.endpoints.contains worker.workerId then none else some "topology_missing"

/-- The costs of the paths between all pairs of a group. -/
noncomputable def spread (group : List WorkerState) : WithTop Rat :=
  ((TopologyGraph.combinations (group.map WorkerState.workerId)).map fun pair => p.topology.distance pair.1 pair.2).sum

/-- A group that the request can be placed on: workers in the order of their ids that paths connect. -/
structure Team (r : RequestRecord) (model : ModelDefinition) (workers : List WorkerState) (size : Nat)
    (group : List WorkerState) : Prop where
  listed : ∀ worker ∈ group, worker ∈ workers
  suits : ∀ worker ∈ group, p.Suits r model worker ∧ p.topology.endpoints.contains worker.workerId = true
  ordered : (group.map WorkerState.workerId).Pairwise (· < ·)
  filled : group.length = size
  connected : ∀ a ∈ group, ∀ b ∈ group, ∃ cost, p.topology.Path a.workerId b.workerId cost

/-- What the groups are compared by. -/
noncomputable def standing (group : List WorkerState) : RankedGroup := p.ranked group ((p.spread group).untopD 0)

/-- A decision takes the least of all groups, and says of every other worker why it is in none. -/
structure Seats (r : RequestRecord) (model : ModelDefinition) (workers : List WorkerState) (size : Nat)
    (d : WorkerGroupDecision) : Prop where
  least : ∃ group, p.Team r model workers size group ∧ d.workerIds = group.map WorkerState.workerId ∧
    (d.topologyCost : WithTop Rat) = p.spread group ∧ d.loadCost = p.loadCost group ∧
    ∀ other, p.Team r model workers size other → p.standing group ≤ p.standing other
  considered : ∃ all : List (List WorkerState), all.Nodup ∧ (∀ group, group ∈ all ↔ p.Team r model workers size group) ∧
    d.candidatesConsidered = all.length
  rejected : ∀ worker ∈ workers, d.rejectedWorkers.get? worker.workerId = p.rejectionReason r model worker

end TopologyAwareWorkerGroupPolicy

section Groups

variable {α : Type} {l group : List α} {size : Nat}

theorem mem_groups : group ∈ groups size l ↔ group.Sublist l ∧ group.length = size := by
  induction l generalizing size group with
  | nil =>
    cases size with
    | zero => simp [groups]
    | succ size =>
      rw [groups]
      refine ⟨fun member => absurd member List.not_mem_nil, fun ⟨inside, length⟩ => ?_⟩
      rw [List.sublist_nil.mp inside] at length
      cases length
  | cons a rest ih =>
    cases size with
    | zero =>
      rw [groups, List.mem_singleton, List.length_eq_zero_iff]
      exact ⟨fun none => ⟨none ▸ List.nil_sublist _, none⟩, And.right⟩
    | succ size =>
      rw [groups, List.mem_append, List.mem_map, ih]
      constructor
      · rintro (⟨others, member, rfl⟩ | ⟨inside, length⟩)
        · obtain ⟨inside, length⟩ := ih.mp member
          exact ⟨inside.cons_cons a, by rw [List.length_cons, length]⟩
        · exact ⟨inside.cons a, length⟩
      · rintro ⟨inside, length⟩
        rcases List.sublist_cons_iff.mp inside with later | ⟨others, rfl, later⟩
        · exact Or.inr ⟨later, length⟩
        · exact Or.inl ⟨others, ih.mpr ⟨later, Nat.succ.inj length⟩, rfl⟩

theorem nodup_groups (distinct : l.Nodup) : (groups size l).Nodup := by
  induction l generalizing size with
  | nil =>
    cases size with
    | zero => exact List.nodup_singleton _
    | succ size => exact .nil
  | cons a rest ih =>
    obtain ⟨fresh, distinct⟩ := List.nodup_cons.mp distinct
    cases size with
    | zero => exact List.nodup_singleton _
    | succ size =>
      rw [groups]
      refine List.Nodup.append ((ih distinct).map fun _ _ same => (List.cons.inj same).2) (ih distinct) ?_
      intro group first second
      obtain ⟨others, -, rfl⟩ := List.mem_map.mp first
      exact fresh ((mem_groups.mp second).1.subset List.mem_cons_self)

end Groups

namespace TopologyGraph

variable {α : Type} {l : List α} {a b : α}

theorem mem_of_mem_combinations (member : (a, b) ∈ combinations l) : a ∈ l ∧ b ∈ l := by
  induction l with
  | nil => exact absurd member List.not_mem_nil
  | cons first rest ih =>
    rcases List.mem_append.mp member with here | later
    · obtain ⟨second, inside, same⟩ := List.mem_map.mp here
      obtain ⟨rfl, rfl⟩ := Prod.mk.inj same
      exact ⟨List.mem_cons_self, List.mem_cons_of_mem _ inside⟩
    · exact ⟨List.mem_cons_of_mem _ (ih later).1, List.mem_cons_of_mem _ (ih later).2⟩

theorem mem_combinations_of_ne (first : a ∈ l) (second : b ∈ l) (differ : a ≠ b) :
    (a, b) ∈ combinations l ∨ (b, a) ∈ combinations l := by
  induction l with
  | nil => exact absurd first List.not_mem_nil
  | cons c rest ih =>
    simp only [combinations, List.mem_append]
    rcases List.mem_cons.mp first with rfl | later
    · have other : b ∈ rest := (List.mem_cons.mp second).resolve_left (Ne.symm differ)
      exact Or.inl (Or.inl (List.mem_map_of_mem other))
    · rcases List.mem_cons.mp second with rfl | later'
      · exact Or.inr (Or.inl (List.mem_map_of_mem later))
      · exact (ih later later').imp Or.inr Or.inr

theorem sum_eq_top_iff {costs : List (WithTop Rat)} : costs.sum = ⊤ ↔ ⊤ ∈ costs := by
  induction costs with
  | nil => simp
  | cons cost rest ih => rw [List.sum_cons, WithTop.add_eq_top, ih, List.mem_cons, eq_comm]

theorem coe_untopD {cost : WithTop Rat} (finite : cost ≠ ⊤) : ((cost.untopD 0 : Rat) : WithTop Rat) = cost := by
  cases cost with
  | top => exact absurd rfl finite
  | coe cost => rfl

theorem distance_eq_top_iff {g : TopologyGraph} {a b : String} (adjoins : Adjoins g.endpoints g.links g.adjacency)
    (known : g.endpoints.contains a = true ∧ g.endpoints.contains b = true) :
    g.distance a b = ⊤ ↔ ¬∃ cost, g.Path a b cost := by
  obtain ⟨cost, -, short⟩ := pathCost_shortest adjoins known (le_refl g.steps)
  rw [distance, short.eq_shortestCost]
  exact short.eq_top_iff

theorem groupCost_eq {g : TopologyGraph} {fuel : Nat} {ids : List String}
    (adjoins : Adjoins g.endpoints g.links g.adjacency) (enough : g.steps ≤ fuel) (distinct : ids.Nodup)
    (known : ∀ id ∈ ids, g.endpoints.contains id = true) :
    g.groupCost fuel ids = .ok (some ((combinations ids).map fun pair => g.distance pair.1 pair.2).sum) := by
  unfold groupCost
  rw [if_neg (not_not.mpr distinct), sumCosts_eq adjoins enough, if_pos, zero_add]
  exact (forall_combinations ids).mpr (Or.inr known)

end TopologyGraph

namespace TopologyAwareWorkerGroupPolicy

open TopologyGraph

section Selecting

variable {p : TopologyAwareWorkerGroupPolicy} {r : RequestRecord} {model : ModelDefinition} {size fuel : Nat}
  {workers workers' group : List WorkerState}

theorem workerIds_of_ordered (ordered : (group.map WorkerState.workerId).Pairwise (· < ·)) :
    workerIds group = group.map WorkerState.workerId :=
  List.Pairwise.insertionSort_eq (ordered.imp le_of_lt)

/-- The cost of a group is finite where paths connect it. -/
theorem spread_ne_top_iff (adjoins : Adjoins p.topology.endpoints p.topology.links p.topology.adjacency)
    (known : ∀ worker ∈ group, p.topology.endpoints.contains worker.workerId = true) :
    p.spread group ≠ ⊤ ↔ ∀ a ∈ group, ∀ b ∈ group, ∃ cost, p.topology.Path a.workerId b.workerId cost := by
  have listed : ∀ id ∈ group.map WorkerState.workerId, p.topology.endpoints.contains id = true :=
    List.forall_mem_map.mpr known
  unfold spread
  rw [ne_eq, sum_eq_top_iff, List.mem_map]
  constructor
  · intro finite a first b second
    by_cases same : a.workerId = b.workerId
    · exact ⟨0, same ▸ .nil⟩
    have met : p.topology.distance a.workerId b.workerId ≠ ⊤ := by
      intro apart
      rcases mem_combinations_of_ne (List.mem_map_of_mem first) (List.mem_map_of_mem second) same with pair | pair
      · exact finite ⟨_, pair, apart⟩
      · exact finite ⟨_, pair, (distance_comm _ _).trans apart⟩
    exact not_not.mp (mt (distance_eq_top_iff adjoins ⟨known a first, known b second⟩).mpr met)
  · rintro connected ⟨⟨a, b⟩, pair, apart⟩
    obtain ⟨first, second⟩ := mem_of_mem_combinations pair
    refine (distance_eq_top_iff adjoins ⟨listed a first, listed b second⟩).mp apart ?_
    obtain ⟨x, inside, rfl⟩ := List.mem_map.mp first
    obtain ⟨y, inside', rfl⟩ := List.mem_map.mp second
    exact connected x inside y inside'

/-- The loop ranks the groups that are connected. -/
theorem rank_eq (adjoins : Adjoins p.topology.endpoints p.topology.links p.topology.adjacency)
    (enough : p.topology.steps ≤ fuel) {candidates : List (List WorkerState)}
    (ordered : ∀ group ∈ candidates, (group.map WorkerState.workerId).Pairwise (· < ·))
    (known : ∀ group ∈ candidates, ∀ worker ∈ group, p.topology.endpoints.contains worker.workerId = true)
    (entries : List RankedGroup) : p.rank fuel candidates entries =
      .ok (some (entries ++ (candidates.filter fun group => p.spread group ≠ ⊤).map p.standing)) := by
  induction candidates generalizing entries with
  | nil => exact congrArg (Except.ok ∘ some) (List.append_nil _).symm
  | cons group rest ih =>
    have sorted := ordered group List.mem_cons_self
    have others := ih (fun g member => ordered g (List.mem_cons_of_mem _ member))
      fun g member => known g (List.mem_cons_of_mem _ member)
    have cost : p.topology.groupCost fuel (workerIds group) = .ok (some (p.spread group)) := by
      rw [workerIds_of_ordered sorted]
      exact groupCost_eq adjoins enough (sorted.imp ne_of_lt) (List.forall_mem_map.mpr (known group List.mem_cons_self))
    rw [rank, cost]
    simp only
    by_cases apart : p.spread group = ⊤
    · rw [if_pos apart, others, List.filter_cons_of_neg (by simpa using apart)]
    · rw [if_neg apart, others, List.filter_cons_of_pos (by simpa using apart), List.map_cons,
        List.append_assoc, List.singleton_append]
      rfl

/-- The workers that `select_group` makes groups of. -/
def eligible (p : TopologyAwareWorkerGroupPolicy) (r : RequestRecord) (model : ModelDefinition)
    (workers : List WorkerState) : List WorkerState :=
  ((byId workers).filter fun worker => (p.rejection r model worker).isNone).filter fun worker =>
    p.topology.endpoints.contains worker.workerId

/-- The reasons that it gives for the others. -/
def rejectedWorkers (p : TopologyAwareWorkerGroupPolicy) (r : RequestRecord) (model : ModelDefinition)
    (workers : List WorkerState) : Dict String String :=
  ((byId workers).filter fun worker => (p.rejection r model worker).isNone).foldl (fun rejected worker =>
    if p.topology.endpoints.contains worker.workerId then rejected
    else rejected.insert worker.workerId "topology_missing") (reasons (p.rejection r model) (byId workers))

theorem mem_eligible {worker : WorkerState} : worker ∈ p.eligible r model workers ↔
    worker ∈ workers ∧ p.Suits r model worker ∧ p.topology.endpoints.contains worker.workerId = true := by
  simp [eligible, mem_byId, rejection_eq_none_iff, and_comm]

theorem ordered_eligible (distinct : (workers.map WorkerState.workerId).Nodup) :
    ((p.eligible r model workers).map WorkerState.workerId).Pairwise (· < ·) := by
  have sorted : ((byId workers).map WorkerState.workerId).Pairwise (· ≤ ·) :=
    List.pairwise_map.mpr (List.pairwise_insertionSort _ workers)
  have strict : ((byId workers).map WorkerState.workerId).Pairwise (· < ·) :=
    (sorted.and (RoutingChoice.distinct_byId distinct)).imp fun both => lt_of_le_of_ne both.1 both.2
  exact strict.sublist ((List.filter_sublist.trans List.filter_sublist).map _)

/-- The groups are those that the loop goes through and finds connected. -/
theorem team_iff (adjoins : Adjoins p.topology.endpoints p.topology.links p.topology.adjacency)
    (distinct : (workers.map WorkerState.workerId).Nodup) : p.Team r model workers size group ↔
      group ∈ groups size (p.eligible r model workers) ∧ p.spread group ≠ ⊤ := by
  have sorted : (p.eligible r model workers).Pairwise fun a b => a.workerId < b.workerId :=
    List.pairwise_map.mp (ordered_eligible distinct)
  rw [mem_groups]
  constructor
  · intro team
    have strict : group.Pairwise fun a b => a.workerId < b.workerId := List.pairwise_map.mp team.ordered
    have within : group ⊆ p.eligible r model workers := fun worker member =>
      mem_eligible.mpr ⟨team.listed worker member, team.suits worker member⟩
    have apart : group.Nodup := strict.imp fun less same => absurd (same ▸ less) (lt_irrefl _)
    have asymmetric : Std.Antisymm fun a b : WorkerState => a.workerId < b.workerId :=
      ⟨fun _ _ less more => absurd more less.asymm⟩
    exact ⟨⟨List.sublist_of_subperm_of_pairwise (apart.subperm within) strict sorted, team.filled⟩,
      (spread_ne_top_iff adjoins fun worker member => (team.suits worker member).2).mpr team.connected⟩
  · rintro ⟨⟨inside, length⟩, finite⟩
    have each : ∀ worker ∈ group, worker ∈ workers ∧ p.Suits r model worker ∧
        p.topology.endpoints.contains worker.workerId = true := fun worker member =>
      mem_eligible.mp (inside.subset member)
    exact ⟨fun worker member => (each worker member).1, fun worker member => (each worker member).2,
      List.pairwise_map.mpr (sorted.sublist inside), length,
      (spread_ne_top_iff adjoins fun worker member => (each worker member).2.2).mp finite⟩

theorem get?_rejectedWorkers (distinct : (workers.map WorkerState.workerId).Nodup) {worker : WorkerState}
    (member : worker ∈ workers) :
    (p.rejectedWorkers r model workers).get? worker.workerId = p.rejectionReason r model worker := by
  have apart := RoutingChoice.distinct_byId distinct
  have inside : worker ∈ byId workers := mem_byId.mpr member
  have noted : reasons (p.rejection r model) (byId workers) = (byId workers).foldl (fun rejected worker =>
      (p.rejection r model worker).elim rejected (rejected.insert worker.workerId)) .empty := by
    unfold reasons
    congr 1
    funext rejected worker
    cases p.rejection r model worker <;> rfl
  have missing : (fun (rejected : Dict String String) (worker : WorkerState) =>
      if p.topology.endpoints.contains worker.workerId then rejected
      else rejected.insert worker.workerId "topology_missing") = fun rejected worker =>
        (if p.topology.endpoints.contains worker.workerId then none else some "topology_missing" : Option String).elim
          rejected (rejected.insert worker.workerId) := by
    funext rejected worker
    cases p.topology.endpoints.contains worker.workerId <;> rfl
  have first : (reasons (p.rejection r model) (byId workers)).get? worker.workerId = p.rejection r model worker := by
    rw [noted, Dict.get?_foldl_notes _ apart inside, Dict.get?_empty, Option.or_none]
  rw [rejectedWorkers, missing, rejectionReason]
  cases refused : p.rejection r model worker with
  | none =>
    have kept : worker ∈ (byId workers).filter fun worker => (p.rejection r model worker).isNone :=
      List.mem_filter.mpr ⟨inside, by rw [refused]; rfl⟩
    rw [Dict.get?_foldl_notes _ (apart.sublist (List.filter_sublist.map _)) kept, first, refused, Option.or_none]
  | some reason =>
    rw [Dict.get?_foldl_notes_of_absent, first, refused]
    intro listed
    obtain ⟨other, kept, same⟩ := List.mem_map.mp listed
    obtain ⟨inside', passed⟩ := List.mem_filter.mp kept
    rw [List.inj_on_of_nodup_map apart inside' inside same, refused] at passed
    cases passed

/-- The decision for the least of the groups that `ranked` lists. -/
def decided (p : TopologyAwareWorkerGroupPolicy) (r : RequestRecord) (model : ModelDefinition)
    (workers : List WorkerState) (entries : List RankedGroup) : Except GroupRefusal (Option WorkerGroupDecision) :=
  match entries.min? with
  | none => .error (.unplaced (.noneEligible (p.rejectedWorkers r model workers)))
  | some best => .ok (some {
      workerIds := (ofLex (ofLex best).2).1
      policy := "topology_aware_worker_group"
      topologyCost := (ofLex (ofLex (ofLex best).2).2).1
      loadCost := (ofLex (ofLex (ofLex best).2).2).2
      candidatesConsidered := entries.length
      rejectedWorkers := p.rejectedWorkers r model workers })

theorem selectGroup_eq (adjoins : Adjoins p.topology.endpoints p.topology.links p.topology.adjacency)
    (enough : p.topology.steps ≤ fuel) (found : p.models.definitions.get? r.modelId = some model)
    (distinct : (workers.map WorkerState.workerId).Nodup) (positive : 0 < size) : p.selectGroup fuel r workers size =
      p.decided r model workers
        (((groups size (p.eligible r model workers)).filter fun group => p.spread group ≠ ⊤).map p.standing) := by
  have ordered : ∀ group ∈ groups size (p.eligible r model workers),
      (group.map WorkerState.workerId).Pairwise (· < ·) := fun group member =>
    (ordered_eligible distinct).sublist ((mem_groups.mp member).1.map _)
  have known : ∀ group ∈ groups size (p.eligible r model workers), ∀ worker ∈ group,
      p.topology.endpoints.contains worker.workerId = true := fun group member worker inside =>
    (mem_eligible.mp ((mem_groups.mp member).1.subset inside)).2.2
  have ranked := rank_eq adjoins enough ordered known []
  rw [List.nil_append] at ranked
  rw [selectGroup, if_neg (by omega), PlacementPolicy.sift_registered workers found]
  simp only
  split
  · rename_i short
    have none : groups size (p.eligible r model workers) = [] := by
      refine List.eq_nil_iff_forall_not_mem.mpr fun group member => ?_
      obtain ⟨inside, length⟩ := mem_groups.mp member
      have fits := inside.length_le
      rw [eligible] at fits
      omega
    rw [none]
    rfl
  · rw [eligible] at ranked
    rw [Int.toNat_natCast, ranked]
    rfl

theorem mem_teams (adjoins : Adjoins p.topology.endpoints p.topology.links p.topology.adjacency)
    (distinct : (workers.map WorkerState.workerId).Nodup) :
    group ∈ (groups size (p.eligible r model workers)).filter (fun group => p.spread group ≠ ⊤) ↔
      p.Team r model workers size group := by
  rw [team_iff adjoins distinct, List.mem_filter, decide_eq_true_iff]

theorem selectGroup_seats (adjoins : Adjoins p.topology.endpoints p.topology.links p.topology.adjacency)
    (enough : p.topology.steps ≤ fuel) (found : p.models.definitions.get? r.modelId = some model)
    (distinct : (workers.map WorkerState.workerId).Nodup) (positive : 0 < size)
    (team : p.Team r model workers size group) :
    ∃ d, p.selectGroup fuel r workers size = .ok (some d) ∧ p.Seats r model workers size d := by
  have selected := selectGroup_eq adjoins enough found distinct positive
  obtain ⟨best, least⟩ := Option.isSome_iff_exists.mp (List.isSome_min?_of_mem
    (List.mem_map_of_mem (f := p.standing) ((mem_teams adjoins distinct).mpr team)))
  obtain ⟨member, below⟩ := List.min?_eq_some_iff.mp least
  obtain ⟨chosen, inside, rfl⟩ := List.mem_map.mp member
  have seated := (mem_teams adjoins distinct).mp inside
  refine ⟨_, by rw [selected, decided, least], ?_, ⟨_, ?_, fun _ => mem_teams adjoins distinct, List.length_map _⟩,
    fun worker listed => get?_rejectedWorkers distinct listed⟩
  · refine ⟨chosen, seated, workerIds_of_ordered seated.ordered, ?_, rfl, fun other team' => ?_⟩
    · exact coe_untopD ((team_iff adjoins distinct).mp seated).2
    · exact below _ (List.mem_map_of_mem ((mem_teams adjoins distinct).mpr team'))
  · exact (nodup_groups (List.Nodup.of_map _ ((ordered_eligible distinct).imp ne_of_lt))).filter _

theorem selectGroup_refused (adjoins : Adjoins p.topology.endpoints p.topology.links p.topology.adjacency)
    (enough : p.topology.steps ≤ fuel) (found : p.models.definitions.get? r.modelId = some model)
    (distinct : (workers.map WorkerState.workerId).Nodup) (positive : 0 < size)
    (nobody : ¬∃ group, p.Team r model workers size group) : p.selectGroup fuel r workers size =
      .error (.unplaced (.noneEligible (p.rejectedWorkers r model workers))) := by
  have nothing : (groups size (p.eligible r model workers)).filter (fun group => p.spread group ≠ ⊤) = [] :=
    List.eq_nil_iff_forall_not_mem.mpr fun group member => nobody ⟨group, (mem_teams adjoins distinct).mp member⟩
  rw [selectGroup_eq adjoins enough found distinct positive, nothing]
  rfl

/-- With its model registered, a request is given the least of the groups that
eligible workers form, and is refused exactly where there is none; the order in
which the workers are listed does not matter. -/
theorem selects_least_group {endpoints : List TopologyEndpoint} {links : List TopologyLink}
    (built : TopologyGraph.init endpoints links = .ok p.topology) (enough : p.topology.steps ≤ fuel)
    (found : p.models.definitions.get? r.modelId = some model) (distinct : (workers.map WorkerState.workerId).Nodup)
    (positive : 0 < size) :
    ((∃ group, p.Team r model workers size group) →
      ∃ d, p.selectGroup fuel r workers size = .ok (some d) ∧ p.Seats r model workers size d) ∧
    ((¬∃ group, p.Team r model workers size group) →
      ∃ rejected, p.selectGroup fuel r workers size = .error (.unplaced (.noneEligible rejected)) ∧
        ∀ worker ∈ workers, rejected.get? worker.workerId = p.rejectionReason r model worker) ∧
    ∀ workers', workers.Perm workers' → p.selectGroup fuel r workers' size = p.selectGroup fuel r workers size := by
  have adjoins := (init_adjoins built).1 ▸ (init_adjoins built).2
  refine ⟨fun ⟨group, team⟩ => selectGroup_seats adjoins enough found distinct positive team, fun nobody => ?_,
    fun workers' same => ?_⟩
  · exact ⟨_, selectGroup_refused adjoins enough found distinct positive nobody,
      fun worker listed => get?_rejectedWorkers distinct listed⟩
  · have apart : (workers'.map WorkerState.workerId).Nodup := (same.map _).nodup_iff.mp distinct
    have sorted := byId_eq same distinct
    rw [selectGroup_eq adjoins enough found distinct positive, selectGroup_eq adjoins enough found apart positive]
    simp only [decided, eligible, rejectedWorkers, sorted]

end Selecting

namespace Sample

open TenantAdmissionController.Sample

def models : ModelRegistry where
  definitions := ⟨[("model", model)], by decide⟩
  profiles _ := ⟨.simulated, 30⟩
  keyed modelId found known := by
    have member := Dict.get?_eq_some_iff.mp known
    simp only [List.mem_singleton, Prod.mk.injEq] at member
    obtain ⟨rfl, rfl⟩ := member
    rfl
  positive modelId found known := by
    have member := Dict.get?_eq_some_iff.mp known
    simp only [List.mem_singleton, Prod.mk.injEq] at member
    obtain ⟨rfl, rfl⟩ := member
    decide

def policy (topology : TopologyGraph) : TopologyAwareWorkerGroupPolicy :=
  ⟨⟨models, fun _ => ⟨.simulatedGpu, 0⟩, 50, id⟩, topology, 1, List.sum, zero_le_one⟩

def device (workerId : String) : WorkerState := { worker with workerId := workerId }

theorem device_suits (topology : TopologyGraph) (workerId : String) :
    (policy topology).Suits request model (device workerId) :=
  ⟨⟨rfl, rfl, Nat.zero_lt_one⟩, rfl, by decide, Or.inr ⟨900, rfl, show (100 : Int) ≤ 900 - 50 by decide⟩⟩

end Sample

open Sample TopologyGraph.Sample TenantAdmissionController.Sample in
theorem selects_least_group_pair : ∃ g, TopologyGraph.init devices connections = .ok g ∧
    ∃ d, (policy g).selectGroup g.steps request [device "b", device "a"] 2 = .ok (some d) ∧
      (policy g).Seats request model [device "b", device "a"] 2 d := by
  obtain ⟨g, built⟩ : ∃ g, TopologyGraph.init devices connections = .ok g := ⟨_, rfl⟩
  have known : g.endpoints = .ofValues TopologyEndpoint.workerId id devices := by
    cases built
    rfl
  have joined : Linked g.links "a" "b" 1 := by
    rw [(init_adjoins built).1]
    exact ⟨_, List.mem_cons_self, Or.inl ⟨rfl, rfl⟩, rfl⟩
  have team : (policy g).Team request model [device "b", device "a"] 2 [device "a", device "b"] := by
    refine ⟨by decide, fun worker member => ?_, by decide, rfl, fun first member second member' => ?_⟩
    · rcases List.mem_pair.mp member with rfl | rfl
      · exact ⟨device_suits g "a", by rw [show (policy g).topology = g from rfl, known]; rfl⟩
      · exact ⟨device_suits g "b", by rw [show (policy g).topology = g from rfl, known]; rfl⟩
    · rcases List.mem_pair.mp member with rfl | rfl <;> rcases List.mem_pair.mp member' with rfl | rfl
      · exact ⟨0, .nil⟩
      · exact ⟨1, .single joined⟩
      · exact ⟨1, .single joined.swap⟩
      · exact ⟨0, .nil⟩
  exact ⟨g, built, (selects_least_group (p := policy g) built le_rfl rfl (by decide) (by decide)).1 ⟨_, team⟩⟩

end TopologyAwareWorkerGroupPolicy

end ServingPlatform
