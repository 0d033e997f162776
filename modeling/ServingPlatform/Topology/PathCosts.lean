import Mathlib.Algebra.BigOperators.Group.Finset.Basic
import Mathlib.Algebra.Order.BigOperators.Group.Finset
import ServingPlatform.Topology.Graph

namespace ServingPlatform.TopologyGraph

/-- The state of the loop of `path_cost`, with the nodes that it is done with. -/
structure Searching (g : TopologyGraph) (source target : String) (distances : Dict String Rat)
    (queue : List HeapEntry) (settled : Finset String) : Prop where
  labelled : Labelled (Linked g.links) source distances.get? (· ∈ settled) fun c b => toLex (c, b) ∈ queue
  sorted : queue.Pairwise (· ≤ ·)
  unsettled : target ∉ settled
  inside : ∀ {b d}, distances.get? b = some d → g.endpoints.contains b = true

/-- The neighbours that are still to be tried. -/
def degree (g : TopologyGraph) (a : String) : Nat := ((g.adjacency.get? a).getD []).length

def outstanding (g : TopologyGraph) (settled : Finset String) : Nat :=
  ∑ a ∈ g.adjacency.keys.toFinset \ settled, g.degree a

/-- How often the loop may have to be entered. -/
def steps (g : TopologyGraph) : Nat := g.outstanding ∅ + 2

section Heap

variable {queue : List HeapEntry} {entry other : HeapEntry} {a b : String} {c d : Rat}

theorem mem_heappush : other ∈ heappush queue entry ↔ other = entry ∨ other ∈ queue := List.mem_orderedInsert _

theorem heappush_sorted (sorted : queue.Pairwise (· ≤ ·)) : (heappush queue entry).Pairwise (· ≤ ·) :=
  sorted.orderedInsert _ _

theorem length_heappush : (heappush queue entry).length = queue.length + 1 := List.orderedInsert_length _ _ _

theorem cost_le_of_le (before : (toLex (c, a) : HeapEntry) ≤ toLex (d, b)) : c ≤ d := by
  rcases Prod.Lex.toLex_le_toLex.mp before with less | ⟨same, -⟩
  · exact less.le
  · exact same.le

end Heap

section Trying

variable {g : TopologyGraph} {cost : Rat} {distances : Dict String Rat} {queue : List HeapEntry}
  {entries tried : List (String × Rat)}

theorem relax_sorted (entry : String × Rat) (sorted : queue.Pairwise (· ≤ ·)) :
    (relax cost (distances, queue) entry).2.Pairwise (· ≤ ·) := by
  unfold relax
  simp only
  split
  · exact heappush_sorted sorted
  · split
    · exact heappush_sorted sorted
    · exact sorted

/-- Each neighbour puts at most one entry on the heap. -/
theorem relax_length (entry : String × Rat) : (relax cost (distances, queue) entry).2.length ≤ queue.length + 1 := by
  unfold relax
  simp only
  split
  · exact length_heappush.le
  · split
    · exact length_heappush.le
    · exact Nat.le_succ _

theorem relax_keys (entry : String × Rat) {b : String} {d : Rat}
    (found : (relax cost (distances, queue) entry).1.get? b = some d) :
    b = entry.1 ∨ ∃ d, distances.get? b = some d := by
  have improved : (distances.insert entry.1 (cost + entry.2)).get? b = some d →
      b = entry.1 ∨ ∃ d, distances.get? b = some d := by
    intro found
    rw [Dict.get?_insert] at found
    split_ifs at found with here
    · exact Or.inl here
    · exact Or.inr ⟨d, found⟩
  unfold relax at found
  simp only at found
  split at found
  · exact improved found
  · split at found
    · exact improved found
    · exact Or.inr ⟨d, found⟩

theorem relax_relaxed {edge : String → Rat → Prop} {distances₀ : String → Option Rat} {pending₀ : Rat → String → Prop}
    (relaxed : Relaxed edge cost distances₀ distances.get? pending₀ fun c b => toLex (c, b) ∈ queue)
    (entry : String × Rat) :
    Relaxed (fun b w => edge b w ∨ b = entry.1 ∧ w = entry.2) cost distances₀
      (relax cost (distances, queue) entry).1.get? pending₀
      fun c b => toLex (c, b) ∈ (relax cost (distances, queue) entry).2 := by
  have improved : (∀ {d}, distances.get? entry.1 = some d → cost + entry.2 ≤ d) →
      Relaxed (fun b w => edge b w ∨ b = entry.1 ∧ w = entry.2) cost distances₀
        (distances.insert entry.1 (cost + entry.2)).get? pending₀
        fun c b => toLex (c, b) ∈ heappush queue (toLex (cost + entry.2, entry.1)) := by
    intro lower
    refine relaxed.improve lower (fun b' => Dict.get?_insert) fun {c b'} => ?_
    rw [mem_heappush, or_comm]
    exact or_congr_right ⟨fun same => Prod.mk.inj (toLex_inj.mp same), fun ⟨same, here⟩ => by rw [same, here]⟩
  unfold relax
  simp only
  split
  · rename_i unknown
    exact improved fun found => by rw [unknown] at found; cases found
  · rename_i known found
    split
    · rename_i less
      exact improved fun {d} same => (Option.some.inj (found.symm.trans same)) ▸ less.le
    · rename_i notLess
      exact relaxed.keep found (not_lt.mp notLess)

/-- What the loop over the neighbours leaves. -/
theorem relaxAll (cost : Rat) (distances : Dict String Rat) (entries : List (String × Rat))
    (sorted : queue.Pairwise (· ≤ ·)) :
    Relaxed (fun b w => (b, w) ∈ entries) cost distances.get?
        (entries.foldl (relax cost) (distances, queue)).1.get? (fun c b => toLex (c, b) ∈ queue)
        (fun c b => toLex (c, b) ∈ (entries.foldl (relax cost) (distances, queue)).2) ∧
      (entries.foldl (relax cost) (distances, queue)).2.Pairwise (· ≤ ·) ∧
      (entries.foldl (relax cost) (distances, queue)).2.length ≤ queue.length + entries.length := by
  have general : ∀ (rest tried : List (String × Rat)) (distances' : Dict String Rat) (queue' : List HeapEntry),
      Relaxed (fun b w => (b, w) ∈ tried) cost distances.get? distances'.get? (fun c b => toLex (c, b) ∈ queue)
        (fun c b => toLex (c, b) ∈ queue') → queue'.Pairwise (· ≤ ·) →
      Relaxed (fun b w => (b, w) ∈ tried ++ rest) cost distances.get?
          (rest.foldl (relax cost) (distances', queue')).1.get? (fun c b => toLex (c, b) ∈ queue)
          (fun c b => toLex (c, b) ∈ (rest.foldl (relax cost) (distances', queue')).2) ∧
        (rest.foldl (relax cost) (distances', queue')).2.Pairwise (· ≤ ·) ∧
        (rest.foldl (relax cost) (distances', queue')).2.length ≤ queue'.length + rest.length := by
    intro rest
    induction rest with
    | nil =>
      intro tried distances' queue' relaxed sorted
      rw [List.append_nil]
      exact ⟨relaxed, sorted, le_refl _⟩
    | cons entry rest ih =>
      intro tried distances' queue' relaxed sorted
      have one := relax_relaxed relaxed entry
      have edges : (fun b w => (b, w) ∈ tried ∨ b = entry.1 ∧ w = entry.2) = fun b w => (b, w) ∈ tried ++ [entry] := by
        funext b w
        simp [Prod.ext_iff]
      rw [edges] at one
      obtain ⟨all, ordered, length⟩ := ih (tried ++ [entry]) _ _ one (relax_sorted entry sorted)
      rw [List.append_assoc, List.singleton_append] at all
      have longer : (relax cost (distances', queue') entry).2.length ≤ queue'.length + 1 := relax_length entry
      simp only [Prod.mk.eta] at length
      exact ⟨all, ordered, by rw [List.foldl_cons, List.length_cons]; omega⟩
  exact general entries [] distances queue (.refl fun b w member => absurd member List.not_mem_nil) sorted

/-- Neighbours that are as near already change nothing. -/
theorem relaxAll_unchanged (near : ∀ b w, (b, w) ∈ entries → ∃ d, distances.get? b = some d ∧ d ≤ cost + w) :
    entries.foldl (relax cost) (distances, queue) = (distances, queue) := by
  induction entries with
  | nil => rfl
  | cons entry rest ih =>
    obtain ⟨d, found, atMost⟩ := near entry.1 entry.2 List.mem_cons_self
    have same : relax cost (distances, queue) entry = (distances, queue) := by
      unfold relax
      simp only [found]
      exact if_neg (not_lt_of_ge atMost)
    rw [List.foldl_cons, same]
    exact ih fun b w member => near b w (List.mem_cons_of_mem _ member)

end Trying

section Looping

variable {g : TopologyGraph} {source target : String} {distances : Dict String Rat} {queue : List HeapEntry}
  {settled : Finset String} {entry : HeapEntry}

theorem outstanding_insert {a : String} (listed : a ∈ g.adjacency.keys) (fresh : a ∉ settled) :
    g.outstanding settled = g.degree a + g.outstanding (insert a settled) := by
  have member : a ∈ g.adjacency.keys.toFinset \ settled :=
    Finset.mem_sdiff.mpr ⟨List.mem_toFinset.mpr listed, fresh⟩
  unfold outstanding
  rw [Finset.sdiff_insert, Finset.add_sum_erase _ _ member]

/-- Everything on the heap comes after the entry that is popped. -/
theorem Searching.least (searching : g.Searching source target distances (entry :: queue) settled) {c : Rat} {b : String}
    (pending : (toLex (c, b) : HeapEntry) ∈ entry :: queue) : (ofLex entry).1 ≤ c := by
  rcases List.mem_cons.mp pending with same | later
  · rw [← same]
    exact le_refl _
  · exact cost_le_of_le ((List.pairwise_cons.mp searching.sorted).1 _ later)

theorem others_pending {c : Rat} {b : String} (pending : (toLex (c, b) : HeapEntry) ∈ entry :: queue)
    (other : (c, b) ≠ ((ofLex entry).1, (ofLex entry).2)) : (toLex (c, b) : HeapEntry) ∈ queue := by
  rcases List.mem_cons.mp pending with same | later
  · exact absurd (congrArg ofLex same) other
  · exact later

/-- An entry that is out of date is skipped. -/
theorem Searching.skip (searching : g.Searching source target distances (entry :: queue) settled)
    (stale : distances.get? (ofLex entry).2 ≠ some (ofLex entry).1) :
    g.Searching source target distances queue settled where
  labelled := searching.labelled.drop stale (fun waits => List.mem_cons_of_mem _ waits) others_pending
  sorted := (List.pairwise_cons.mp searching.sorted).2
  unsettled := searching.unsettled
  inside := searching.inside

/-- The node of an entry that is up to date is settled when its neighbours have been tried. -/
theorem Searching.settle {neighbors : List (String × Rat)}
    (searching : g.Searching source target distances (entry :: queue) settled)
    (adjoins : Adjoins g.endpoints g.links g.adjacency) (current : distances.get? (ofLex entry).2 = some (ofLex entry).1)
    (other : (ofLex entry).2 ≠ target) (found : g.adjacency.get? (ofLex entry).2 = some neighbors) :
    g.Searching source target (neighbors.foldl (relax (ofLex entry).1) (distances, queue)).1
      (neighbors.foldl (relax (ofLex entry).1) (distances, queue)).2 (insert (ofLex entry).2 settled) := by
  have sorted := (List.pairwise_cons.mp searching.sorted).2
  obtain ⟨relaxed, ordered, -⟩ := relaxAll (ofLex entry).1 distances neighbors sorted
  have edges : (fun b w => (b, w) ∈ neighbors) = Linked g.links (ofLex entry).2 := by
    funext b w
    exact propext (adjoins.joined found b w)
  rw [edges] at relaxed
  refine ⟨?_, ordered, ?_, ?_⟩
  · have settles := searching.labelled.settle Linked.positive current List.mem_cons_self searching.least
      (fun waits => List.mem_cons_of_mem _ waits) others_pending relaxed
    simpa only [Finset.mem_insert] using settles
  · rw [Finset.mem_insert]
    exact fun done => done.elim (fun same => other same.symm) searching.unsettled
  · intro b d known
    rcases relaxed.origin known with old | ⟨w, ⟨link, member, joins, -⟩, -⟩
    · exact searching.inside old
    · rcases joins with ⟨-, same⟩ | ⟨same, -⟩
      · exact same ▸ (adjoins.inside link member).2
      · exact same ▸ (adjoins.inside link member).1

/-- The loop ends with the cost of a cheapest path. -/
theorem search_shortest (adjoins : Adjoins g.endpoints g.links g.adjacency) {fuel : Nat}
    (searching : g.Searching source target distances queue settled)
    (enough : g.outstanding settled + queue.length < fuel) :
    ∃ cost, g.search target fuel distances queue = .ok (some cost) ∧ ShortestCost (Linked g.links) source target cost := by
  induction fuel generalizing distances queue settled with
  | zero => omega
  | succ fuel ih =>
    cases queue with
    | nil =>
      exact ⟨⊤, rfl, searching.labelled.unreachable Linked.positive (fun _ _ => List.not_mem_nil) searching.unsettled⟩
    | cons entry queue =>
      rw [List.length_cons] at enough
      by_cases arrived : (ofLex entry).2 = target
      · refine ⟨(ofLex entry).1, by simp only [search, arrived, if_true], ?_⟩
        subst arrived
        exact searching.labelled.shortest Linked.positive List.mem_cons_self searching.least searching.unsettled
      obtain ⟨known, found, -⟩ := searching.labelled.queued (b := (ofLex entry).2) (c := (ofLex entry).1)
        List.mem_cons_self
      by_cases stale : (ofLex entry).1 ≠ known
      · have continues : g.search target (fuel + 1) distances (entry :: queue) = g.search target fuel distances queue := by
          simp only [search, arrived, if_false, found, if_pos stale]
        rw [continues]
        exact ih (searching.skip fun same => stale (Option.some.inj (same.symm.trans found))) (by omega)
      obtain rfl := not_not.mp stale
      obtain ⟨neighbors, listed⟩ := (adjoins.listed _).mpr (searching.inside found)
      have next := searching.settle adjoins found arrived listed
      have continues : g.search target (fuel + 1) distances (entry :: queue) = g.search target fuel
          (neighbors.foldl (relax (ofLex entry).1) (distances, queue)).1
          (neighbors.foldl (relax (ofLex entry).1) (distances, queue)).2 := by
        simp only [search, arrived, if_false, found, ne_eq, not_true_eq_false, listed]
      rw [continues]
      refine ih next ?_
      by_cases done : (ofLex entry).2 ∈ settled
      · have unchanged : neighbors.foldl (relax (ofLex entry).1) (distances, queue) = (distances, queue) :=
          relaxAll_unchanged fun b w member =>
            searching.labelled.relaxed done found ((adjoins.joined listed b w).mp member)
        rw [unchanged, Finset.insert_eq_of_mem done]
        show g.outstanding settled + queue.length < fuel
        omega
      · have length := (relaxAll (ofLex entry).1 distances neighbors (List.pairwise_cons.mp searching.sorted).2).2.2
        have parts := outstanding_insert (Dict.mem_keys_iff.mpr ⟨neighbors, listed⟩) done
        have count : g.degree (ofLex entry).2 = neighbors.length := by rw [degree, listed, Option.getD_some]
        omega

end Looping

/-- The cost of a cheapest path between two endpoints. -/
noncomputable def distance (g : TopologyGraph) (a b : String) : WithTop Rat := shortestCost (Linked g.links) a b

section Costs

variable {g : TopologyGraph} {source target a b : String} {fuel : Nat}

theorem Searching.start (g : TopologyGraph) (known : g.endpoints.contains source = true) :
    g.Searching source target (Dict.empty.insert source 0) [toLex (0, source)] ∅ := by
  have first : ∀ {c : Rat} {b : String}, (toLex (c, b) : HeapEntry) ∈ [toLex (0, source)] ↔ c = 0 ∧ b = source := by
    intro c b
    rw [List.mem_singleton, toLex_inj, Prod.mk.injEq]
  have found : ∀ b, ((Dict.empty : Dict String Rat).insert source 0).get? b = if b = source then some 0 else none :=
    fun b => Dict.get?_insert
  refine ⟨?_, List.pairwise_singleton _ _, Finset.notMem_empty _, fun {b d} listed => ?_⟩
  · simpa only [Finset.notMem_empty] using Labelled.begin_ found first
  · rw [found] at listed
    split_ifs at listed with here
    exact here ▸ known

/-- `path_cost` between two endpoints. -/
theorem pathCost_shortest (adjoins : Adjoins g.endpoints g.links g.adjacency)
    (known : g.endpoints.contains source = true ∧ g.endpoints.contains target = true) (enough : g.steps ≤ fuel) :
    ∃ cost, g.pathCost fuel source target = .ok (some cost) ∧ ShortestCost (Linked g.links) source target cost := by
  unfold pathCost
  rw [if_neg (by simp [known])]
  by_cases same : source = target
  · subst same
    exact ⟨(0 : Rat), if_pos rfl, ShortestCost.self Linked.positive⟩
  · rw [if_neg same]
    refine search_shortest adjoins (.start g known.1) ?_
    rw [List.length_singleton]
    unfold steps at enough
    omega

theorem pathCost_unknown (unknown : ¬(g.endpoints.contains source = true ∧ g.endpoints.contains target = true)) :
    g.pathCost fuel source target = .error (keyError "unknown topology endpoint") := by
  unfold pathCost
  rw [if_pos (by simpa [imp_iff_not_or] using unknown)]

theorem pathCost_distance (adjoins : Adjoins g.endpoints g.links g.adjacency)
    (known : g.endpoints.contains source = true ∧ g.endpoints.contains target = true) (enough : g.steps ≤ fuel) :
    g.pathCost fuel source target = .ok (some (g.distance source target)) := by
  obtain ⟨cost, answered, short⟩ := pathCost_shortest adjoins known enough
  rw [answered, distance, short.eq_shortestCost]

theorem distance_comm (a b : String) : g.distance a b = g.distance b a := shortestCost_comm (@Linked.swap g.links) a b

/-- The sum over some pairs fails exactly where one of them is unknown. -/
theorem sumCosts_eq (adjoins : Adjoins g.endpoints g.links g.adjacency) (enough : g.steps ≤ fuel)
    (pairs : List (String × String)) (total : WithTop Rat) : g.sumCosts fuel pairs total =
      if ∀ pair ∈ pairs, g.endpoints.contains pair.1 = true ∧ g.endpoints.contains pair.2 = true then
        .ok (some (total + (pairs.map fun pair => g.distance pair.1 pair.2).sum))
      else .error (keyError "unknown topology endpoint") := by
  induction pairs generalizing total with
  | nil => simp [sumCosts]
  | cons pair rest ih =>
    by_cases known : g.endpoints.contains pair.1 = true ∧ g.endpoints.contains pair.2 = true
    · rw [sumCosts, pathCost_distance adjoins known enough]
      simp only [ih, List.forall_mem_cons, known, true_and, List.map_cons, List.sum_cons, add_assoc]
    · rw [sumCosts, pathCost_unknown known]
      simp only [List.forall_mem_cons, known, false_and, if_false]

end Costs

section Groups

variable {α β : Type} [AddCommMonoid β] {f : α → α → β} {l l' : List α}

/-- The sum over all pairs of a list does not depend on its order. -/
theorem sum_combinations_perm (symmetric : ∀ a b, f a b = f b a) (same : l.Perm l') :
    ((combinations l).map fun pair => f pair.1 pair.2).sum = ((combinations l').map fun pair => f pair.1 pair.2).sum := by
  induction same with
  | nil => rfl
  | cons a same ih =>
    simp only [combinations, List.map_append, List.sum_append, List.map_map, ih]
    exact congrArg (· + _) (same.map _).sum_eq
  | swap a b l =>
    simp only [combinations, List.map_append, List.sum_append, List.map_cons, List.sum_cons, symmetric a b]
    simp only [add_assoc, add_left_comm]
  | trans _ _ ih ih' => exact ih.trans ih'

theorem forall_combinations {P : α → Prop} (l : List α) :
    (∀ pair ∈ combinations l, P pair.1 ∧ P pair.2) ↔ l.length ≤ 1 ∨ ∀ a ∈ l, P a := by
  induction l with
  | nil => simp [combinations]
  | cons a rest ih =>
    cases rest with
    | nil => simp [combinations]
    | cons b rest =>
      rw [combinations]
      simp only [List.forall_mem_append, List.forall_mem_map, ih]
      simp only [List.forall_mem_cons, List.length_cons]
      constructor
      · rintro ⟨⟨⟨first, second⟩, others⟩, -⟩
        exact Or.inr ⟨first, second, fun c member => (others c member).2⟩
      · rintro (short | ⟨first, second, others⟩)
        · omega
        · exact ⟨⟨⟨first, second⟩, fun c member => ⟨first, others c member⟩⟩, Or.inr ⟨second, others⟩⟩

end Groups

/-- `path_cost` ends, with the cost of a cheapest path; it is a metric that is
infinite between endpoints that no path connects. A group costs the same
in whatever order it is listed. -/
theorem path_cost_shortest {endpoints : List TopologyEndpoint} {links : List TopologyLink} {g : TopologyGraph}
    (built : init endpoints links = .ok g) :
    (∀ a b fuel, g.endpoints.contains a = true → g.endpoints.contains b = true → g.steps ≤ fuel →
      g.pathCost fuel a b = .ok (some (g.distance a b))) ∧
    (∀ a b, g.endpoints.contains a = true → g.endpoints.contains b = true →
      (∀ cost : Rat, g.distance a b = cost → IsLeast {c | g.Path a b c} cost) ∧
      (g.distance a b = ⊤ ↔ ¬∃ c, g.Path a b c) ∧ g.distance a a = 0 ∧ g.distance a b = g.distance b a ∧
      ∀ c, g.endpoints.contains c = true → g.distance a c ≤ g.distance a b + g.distance b c) ∧
    ∀ workerIds workerIds' fuel, g.steps ≤ fuel → workerIds.Perm workerIds' →
      g.groupCost fuel workerIds = g.groupCost fuel workerIds' ∧ g.groupCost fuel workerIds ≠ .ok none := by
  obtain ⟨rfl, adjoins⟩ := init_adjoins built
  have short : ∀ a b, g.endpoints.contains a = true → g.endpoints.contains b = true →
      ShortestCost (Linked g.links) a b (g.distance a b) := by
    intro a b knownA knownB
    obtain ⟨cost, -, short⟩ := pathCost_shortest adjoins ⟨knownA, knownB⟩ (le_refl g.steps)
    rw [distance, short.eq_shortestCost]
    exact short
  refine ⟨fun a b fuel knownA knownB enough => pathCost_distance adjoins ⟨knownA, knownB⟩ enough, ?_, ?_⟩
  · intro a b knownA knownB
    have direct := short a b knownA knownB
    refine ⟨fun cost same => ?_, direct.eq_top_iff, ?_, distance_comm a b, fun c knownC => ?_⟩
    · rw [same] at direct
      exact direct.isLeast
    · have self : ShortestCost (Linked g.links) a a (0 : Rat) := ShortestCost.self Linked.positive
      exact self.eq_shortestCost
    · exact (short a c knownA knownC).triangle direct (short b c knownB knownC)
  · intro workerIds workerIds' fuel enough same
    unfold groupCost
    rw [sumCosts_eq adjoins enough, sumCosts_eq adjoins enough, sum_combinations_perm distance_comm same]
    have covered := forall_combinations (P := fun a => g.endpoints.contains a = true) workerIds
    have covered' := forall_combinations (P := fun a => g.endpoints.contains a = true) workerIds'
    simp only [covered, covered', same.nodup_iff, same.length_eq, same.mem_iff]
    refine ⟨trivial, ?_⟩
    split_ifs <;> simp

namespace Sample

/-- Two devices on one root, and one behind the network. -/
def devices : List TopologyEndpoint := [⟨"a"⟩, ⟨"b"⟩, ⟨"c"⟩]

theorem direct : (0 : Rat) < 1 := by decide

def connections : List TopologyLink :=
  [⟨"a", "b", 1, by decide, direct⟩, ⟨"b", "c", 4, by decide, by decide⟩, ⟨"a", "c", 12, by decide, by decide⟩]

end Sample

open Sample in
theorem path_cost_shortest_sample : ∃ g, init devices connections = .ok g ∧
    g.groupCost g.steps ["a", "b", "c"] = g.groupCost g.steps ["c", "a", "b"] := by
  obtain ⟨g, built⟩ : ∃ g, init devices connections = .ok g := ⟨_, rfl⟩
  exact ⟨g, built, ((path_cost_shortest built).2.2 _ _ _ (le_refl _) (by decide)).1⟩

end ServingPlatform.TopologyGraph
