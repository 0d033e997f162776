import Mathlib.Data.Nat.Choose.Basic
import ServingPlatform.Topology.WorkerGroups

namespace ServingPlatform

inductive TopologyLinkType
  | cudaPeer
  | pcieRoot
  | host
  | fabric
  | network
  deriving DecidableEq, Repr

/-- `DEFAULT_LINK_COST`. -/
def TopologyLinkType.defaultCost : TopologyLinkType → Rat
  | .cudaPeer => 1
  | .pcieRoot => 4
  | .host => 12
  | .fabric => 25
  | .network => 100

/-- The fields of a worker's snapshot that only discovery reads. -/
structure WorkerLocation where
  nodeId : Option String
  gpuIndex : Option Int
  pcieRootId : Option String
  fabricId : Option String

/-- The checks of `__post_init__`. -/
def TopologyLink.create (source target : String) (cost : Rat) : Except Raised TopologyLink :=
  if malformed : source = target ∨ cost ≤ 0 then
    .error (valueError "topology links require distinct endpoints and positive cost")
  else .ok ⟨source, target, cost, fun same => malformed (Or.inl same), not_le.mp fun low => malformed (Or.inr low)⟩

namespace TopologyDiscovery

def sameNode (source target : WorkerLocation) : Bool := source.nodeId.isSome && source.nodeId = target.nodeId

/-- What discovery knows of the workers; it may be able to ask for the peer access of two devices. -/
structure Inventory where
  locations : String → WorkerLocation
  cudaPeerAccess : Option (Int → Int → Bool)

variable (inventory : Inventory)

def Inventory.peer (source target : WorkerLocation) : Bool :=
  sameNode source target &&
    match inventory.cudaPeerAccess, source.gpuIndex, target.gpuIndex with
    | some access, some first, some second => access first second
    | _, _, _ => false

def Inventory.linkType (source target : String) : TopologyLinkType :=
  let from_ := inventory.locations source
  let to_ := inventory.locations target
  if inventory.peer from_ to_ then .cudaPeer
  else if sameNode from_ to_ && from_.pcieRootId.isSome && from_.pcieRootId = to_.pcieRootId then .pcieRoot
  else if sameNode from_ to_ then .host
  else if from_.fabricId.isSome && from_.fabricId = to_.fabricId then .fabric
  else .network

/-- The inner loop: the links of an endpoint to those after it. -/
def linksFrom (source : TopologyEndpoint) : List TopologyEndpoint → Except Raised (List TopologyLink)
  | [] => .ok []
  | target :: rest =>
    match TopologyLink.create source.workerId target.workerId
        (inventory.linkType source.workerId target.workerId).defaultCost with
    | .error raised => .error raised
    | .ok link =>
      match linksFrom source rest with
      | .error raised => .error raised
      | .ok links => .ok (link :: links)

/-- The loop over the endpoints. -/
def discoverLinks : List TopologyEndpoint → Except Raised (List TopologyLink)
  | [] => .ok []
  | source :: rest =>
    match linksFrom inventory source rest with
    | .error raised => .error raised
    | .ok links =>
      match discoverLinks rest with
      | .error raised => .error raised
      | .ok others => .ok (links ++ others)

def endpointsOf (workers : List WorkerState) : List TopologyEndpoint :=
  (byId workers).map fun worker => ⟨worker.workerId⟩

def discoverTopology (workers : List WorkerState) : Except Raised TopologyGraph :=
  match discoverLinks inventory (endpointsOf workers) with
  | .error raised => .error raised
  | .ok links => TopologyGraph.init (endpointsOf workers) links

section Linking

variable {source target : TopologyEndpoint} {endpoints rest : List TopologyEndpoint}
  {links : List TopologyLink}

/-- The link that discovery makes from one endpoint to another. -/
structure Inventory.Makes (inventory : Inventory) (source target : TopologyEndpoint) (link : TopologyLink) : Prop where
  source_ : link.sourceWorkerId = source.workerId
  target_ : link.targetWorkerId = target.workerId
  cost : link.cost = (inventory.linkType source.workerId target.workerId).defaultCost

theorem defaultCost_pos (type : TopologyLinkType) : 0 < type.defaultCost := by
  cases type <;> norm_num [TopologyLinkType.defaultCost]

theorem create_ok (other : source.workerId ≠ target.workerId) : ∃ link,
    TopologyLink.create source.workerId target.workerId
      (inventory.linkType source.workerId target.workerId).defaultCost = .ok link ∧
    inventory.Makes source target link := by
  have fine : ¬(source.workerId = target.workerId ∨
      (inventory.linkType source.workerId target.workerId).defaultCost ≤ 0) :=
    not_or.mpr ⟨other, not_le.mpr (defaultCost_pos _)⟩
  exact ⟨_, dif_neg fine, rfl, rfl, rfl⟩

theorem create_error {cost : Rat} (same : source.workerId = target.workerId) :
    TopologyLink.create source.workerId target.workerId cost =
      .error (valueError "topology links require distinct endpoints and positive cost") :=
  dif_pos (Or.inl same)

theorem linksFrom_ok (others : ∀ target ∈ rest, source.workerId ≠ target.workerId) :
    ∃ links, linksFrom inventory source rest = .ok links ∧ rest.Forall₂ (inventory.Makes source) links := by
  induction rest with
  | nil => exact ⟨[], rfl, .nil⟩
  | cons target rest ih =>
    obtain ⟨link, created, made⟩ := create_ok inventory (others target List.mem_cons_self)
    obtain ⟨links, listed, all⟩ := ih fun other member => others other (List.mem_cons_of_mem _ member)
    exact ⟨link :: links, by rw [linksFrom, created, listed], .cons made all⟩

theorem linksFrom_error (repeated : source.workerId ∈ rest.map TopologyEndpoint.workerId) :
    linksFrom inventory source rest =
      .error (valueError "topology links require distinct endpoints and positive cost") := by
  induction rest with
  | nil => exact absurd repeated List.not_mem_nil
  | cons target rest ih =>
    by_cases same : source.workerId = target.workerId
    · rw [linksFrom, create_error same]
    · obtain ⟨link, created, -⟩ := create_ok inventory same
      rw [linksFrom, created, ih ((List.mem_cons.mp repeated).resolve_left same)]

/-- Distinct endpoints are linked in pairs. -/
theorem discoverLinks_ok (distinct : (endpoints.map TopologyEndpoint.workerId).Nodup) :
    ∃ links, discoverLinks inventory endpoints = .ok links ∧
      (TopologyGraph.combinations endpoints).Forall₂ (fun pair link => inventory.Makes pair.1 pair.2 link) links := by
  induction endpoints with
  | nil => exact ⟨[], rfl, .nil⟩
  | cons source rest ih =>
    obtain ⟨fresh, distinct⟩ := List.nodup_cons.mp distinct
    have others : ∀ target ∈ rest, source.workerId ≠ target.workerId := fun target member same =>
      fresh (same ▸ List.mem_map_of_mem member)
    obtain ⟨here, first, made⟩ := linksFrom_ok inventory others
    obtain ⟨there, second, rest_made⟩ := ih distinct
    have paired : (rest.map fun target => (source, target)).Forall₂
        (fun pair link => inventory.Makes pair.1 pair.2 link) here := List.forall₂_map_left_iff.mpr made
    exact ⟨here ++ there, by rw [discoverLinks, first, second], List.rel_append paired rest_made⟩

theorem discoverLinks_error (repeated : ¬(endpoints.map TopologyEndpoint.workerId).Nodup) :
    discoverLinks inventory endpoints =
      .error (valueError "topology links require distinct endpoints and positive cost") := by
  induction endpoints with
  | nil => exact absurd List.nodup_nil repeated
  | cons source rest ih =>
    by_cases here : source.workerId ∈ rest.map TopologyEndpoint.workerId
    · rw [discoverLinks, linksFrom_error inventory here]
    · have others : ∀ target ∈ rest, source.workerId ≠ target.workerId := fun target member same =>
        here (same ▸ List.mem_map_of_mem member)
      obtain ⟨links, first, -⟩ := linksFrom_ok inventory others
      rw [discoverLinks, first, ih fun distinct => repeated (List.nodup_cons.mpr ⟨here, distinct⟩)]

/-- The pairs of distinct endpoints are told apart by their ids. -/
theorem nodup_keys (distinct : (endpoints.map TopologyEndpoint.workerId).Nodup) :
    ((TopologyGraph.combinations endpoints).map fun pair =>
      ({pair.1.workerId, pair.2.workerId} : Finset String)).Nodup := by
  induction endpoints with
  | nil => exact .nil
  | cons source rest ih =>
    obtain ⟨fresh, distinct⟩ := List.nodup_cons.mp distinct
    rw [TopologyGraph.combinations, List.map_append, List.map_map]
    refine List.Nodup.append ?_ (ih distinct) ?_
    · refine List.Nodup.map_on ?_ (List.Nodup.of_map _ distinct)
      intro a first b second same
      have inside : a.workerId ∈ ({source.workerId, b.workerId} : Finset String) := by
        rw [← show ({source.workerId, a.workerId} : Finset String) = {source.workerId, b.workerId} from same]
        exact Finset.mem_insert_of_mem (Finset.mem_singleton_self _)
      rcases Finset.mem_insert.mp inside with again | equal
      · exact absurd (again ▸ List.mem_map_of_mem first) fresh
      · exact List.inj_on_of_nodup_map distinct first second (Finset.mem_singleton.mp equal)
    · intro key here there
      obtain ⟨target, -, rfl⟩ := List.mem_map.mp here
      obtain ⟨⟨a, b⟩, pair, same⟩ := List.mem_map.mp there
      obtain ⟨first, second⟩ := TopologyGraph.mem_of_mem_combinations pair
      have inside : source.workerId ∈ ({a.workerId, b.workerId} : Finset String) := by
        rw [show ({a.workerId, b.workerId} : Finset String) = {source.workerId, target.workerId} from same]
        exact Finset.mem_insert_self _ _
      rcases Finset.mem_insert.mp inside with again | again
      · exact fresh (again ▸ List.mem_map_of_mem first)
      · exact fresh (Finset.mem_singleton.mp again ▸ List.mem_map_of_mem second)

theorem keys_of_made {pairs : List (TopologyEndpoint × TopologyEndpoint)}
    (made : pairs.Forall₂ (fun pair link => inventory.Makes pair.1 pair.2 link) links) :
    (links.map fun link => ({link.sourceWorkerId, link.targetWorkerId} : Finset String)) =
      pairs.map fun pair => {pair.1.workerId, pair.2.workerId} := by
  induction made with
  | nil => rfl
  | cons made _ ih => rw [List.map_cons, List.map_cons, ih, made.source_, made.target_]

theorem mem_made {pairs : List (TopologyEndpoint × TopologyEndpoint)}
    (made : pairs.Forall₂ (fun pair link => inventory.Makes pair.1 pair.2 link) links) :
    (∀ link ∈ links, ∃ pair ∈ pairs, inventory.Makes pair.1 pair.2 link) ∧
      ∀ pair ∈ pairs, ∃ link ∈ links, inventory.Makes pair.1 pair.2 link := by
  induction made with
  | nil => exact ⟨fun _ member => absurd member List.not_mem_nil, fun _ member => absurd member List.not_mem_nil⟩
  | cons made _ ih =>
    refine ⟨List.forall_mem_cons.mpr ⟨⟨_, List.mem_cons_self, made⟩, fun link member => ?_⟩,
      List.forall_mem_cons.mpr ⟨⟨_, List.mem_cons_self, made⟩, fun pair member => ?_⟩⟩
    · obtain ⟨pair, inside, same⟩ := ih.1 link member
      exact ⟨pair, List.mem_cons_of_mem _ inside, same⟩
    · obtain ⟨link, inside, same⟩ := ih.2 pair member
      exact ⟨link, List.mem_cons_of_mem _ inside, same⟩

end Linking

end TopologyDiscovery

namespace TopologyGraph

variable {endpoints : Dict String TopologyEndpoint} {links : List TopologyLink}

/-- The links are added where each is between known endpoints and the first of its pair. -/
theorem addLinks_ok (known : ∀ link ∈ links, endpoints.contains link.sourceWorkerId = true ∧
      endpoints.contains link.targetWorkerId = true)
    (distinct : (links.map fun link => ({link.sourceWorkerId, link.targetWorkerId} : Finset String)).Nodup)
    {seen : List (Finset String)} (fresh : ∀ link ∈ links, {link.sourceWorkerId, link.targetWorkerId} ∉ seen)
    (adjacency : Dict String (List (String × Rat))) : ∃ built, addLinks endpoints links seen adjacency = .ok built := by
  induction links generalizing seen adjacency with
  | nil => exact ⟨adjacency, rfl⟩
  | cons link rest ih =>
    obtain ⟨apart, distinct⟩ := List.nodup_cons.mp distinct
    obtain ⟨first, second⟩ := known link List.mem_cons_self
    rw [addLinks, if_neg (by rw [first, second]; simp), if_neg (fresh link List.mem_cons_self)]
    refine ih (fun other member => known other (List.mem_cons_of_mem _ member)) distinct ?_ _
    intro other member again
    rcases List.mem_cons.mp again with same | before
    · exact apart (List.mem_map.mpr ⟨other, member, same⟩)
    · exact fresh other (List.mem_cons_of_mem _ member) before

end TopologyGraph

namespace TopologyDiscovery

section Nodes

variable {a b c : WorkerLocation}

theorem sameNode_iff : sameNode a b = true ↔ ∃ node, a.nodeId = some node ∧ b.nodeId = some node := by
  unfold sameNode
  cases a.nodeId <;> simp [eq_comm]

theorem sameNode_symm (same : sameNode a b = true) : sameNode b a = true := by
  obtain ⟨node, first, second⟩ := sameNode_iff.mp same
  exact sameNode_iff.mpr ⟨node, second, first⟩

theorem sameNode_trans (first : sameNode a b = true) (second : sameNode b c = true) : sameNode a c = true := by
  obtain ⟨node, here, between⟩ := sameNode_iff.mp first
  obtain ⟨node', between', there⟩ := sameNode_iff.mp second
  obtain rfl := Option.some.inj (between.symm.trans between')
  exact sameNode_iff.mpr ⟨node, here, there⟩

end Nodes

section Types

variable (inventory : Inventory) {a b : String}

theorem Inventory.linkType_within (same : sameNode (inventory.locations a) (inventory.locations b) = true) :
    inventory.linkType a b = .cudaPeer ∨ inventory.linkType a b = .pcieRoot ∨ inventory.linkType a b = .host := by
  unfold linkType
  simp only [same, Bool.true_and]
  split_ifs
  · exact Or.inl rfl
  · exact Or.inr (Or.inl rfl)
  · exact Or.inr (Or.inr rfl)

theorem Inventory.linkType_between (apart : sameNode (inventory.locations a) (inventory.locations b) = false) :
    inventory.linkType a b = .fabric ∨ inventory.linkType a b = .network := by
  unfold linkType peer
  simp only [apart, Bool.false_and, Bool.false_eq_true, if_false]
  split_ifs
  · exact Or.inl rfl
  · exact Or.inr rfl

/-- The costs of the links are whole; those within a node are all below those between nodes. -/
theorem Inventory.linkType_cost (a b : String) : ∃ n : Nat,
    (inventory.linkType a b).defaultCost = n ∧ 1 ≤ n ∧ n ≤ 100 ∧
    (sameNode (inventory.locations a) (inventory.locations b) = true → n ≤ 12) ∧
    (sameNode (inventory.locations a) (inventory.locations b) = false → 25 ≤ n) := by
  cases same : sameNode (inventory.locations a) (inventory.locations b) with
  | true =>
    rcases inventory.linkType_within same with type | type | type <;> rw [type]
    · exact ⟨1, by norm_num [TopologyLinkType.defaultCost], by simp⟩
    · exact ⟨4, by norm_num [TopologyLinkType.defaultCost], by simp⟩
    · exact ⟨12, by norm_num [TopologyLinkType.defaultCost], by simp⟩
  | false =>
    rcases inventory.linkType_between same with type | type <;> rw [type]
    · exact ⟨25, by norm_num [TopologyLinkType.defaultCost], by simp⟩
    · exact ⟨100, by norm_num [TopologyLinkType.defaultCost], by simp⟩

end Types

/-- A graph that discovery has built for some workers. -/
structure Discovered (inventory : Inventory) (workerIds : List String) (g : TopologyGraph) : Prop where
  adjoins : TopologyGraph.Adjoins g.endpoints g.links g.adjacency
  known : ∀ id, g.endpoints.contains id = true ↔ id ∈ workerIds
  joined : ∀ {a b}, a ∈ workerIds → b ∈ workerIds → a ≠ b → ∃ n : Nat, TopologyGraph.Linked g.links a b n ∧ n ≤ 100 ∧
    (sameNode (inventory.locations a) (inventory.locations b) = true → n ≤ 12)
  priced : ∀ {a b w}, TopologyGraph.Linked g.links a b w → ∃ n : Nat, w = n ∧ 1 ≤ n ∧
    (sameNode (inventory.locations a) (inventory.locations b) = false → 25 ≤ n)

theorem sameNode_comm (a b : WorkerLocation) : sameNode a b = sameNode b a :=
  Bool.eq_iff_iff.mpr ⟨sameNode_symm, sameNode_symm⟩

theorem ids_endpointsOf (workers : List WorkerState) : ((endpointsOf workers).map TopologyEndpoint.workerId).Perm
    (workers.map WorkerState.workerId) := by
  unfold endpointsOf
  rw [List.map_map]
  exact (byId_perm workers).map _

theorem discovers (inventory : Inventory) {workers : List WorkerState}
    (distinct : (workers.map WorkerState.workerId).Nodup) : ∃ g, discoverTopology inventory workers = .ok g ∧
      TopologyGraph.init (endpointsOf workers) g.links = .ok g ∧
      Discovered inventory (workers.map WorkerState.workerId) g := by
  have ids := ids_endpointsOf workers
  have apart := ids.nodup_iff.mpr distinct
  obtain ⟨links, listed, made⟩ := discoverLinks_ok inventory apart
  have keys : (Dict.ofValues TopologyEndpoint.workerId id (endpointsOf workers)).keys =
      (endpointsOf workers).map TopologyEndpoint.workerId := Dict.keys_ofValues apart
  have known : ∀ id_, (Dict.ofValues TopologyEndpoint.workerId id (endpointsOf workers)).contains id_ = true ↔
      id_ ∈ workers.map WorkerState.workerId := by
    intro id_
    rw [Dict.contains_iff, keys]
    exact ids.mem_iff
  have named : ∀ endpoint ∈ endpointsOf workers, endpoint.workerId ∈ workers.map WorkerState.workerId :=
    fun endpoint member => ids.mem_iff.mp (List.mem_map_of_mem member)
  have inside : ∀ link ∈ links, (Dict.ofValues TopologyEndpoint.workerId id (endpointsOf workers)).contains
      link.sourceWorkerId = true ∧ (Dict.ofValues TopologyEndpoint.workerId id (endpointsOf workers)).contains
      link.targetWorkerId = true := by
    intro link member
    obtain ⟨pair, listed, made⟩ := (mem_made inventory made).1 link member
    obtain ⟨first, second⟩ := TopologyGraph.mem_of_mem_combinations (a := pair.1) (b := pair.2) listed
    exact ⟨(known _).mpr (made.source_ ▸ named _ first), (known _).mpr (made.target_ ▸ named _ second)⟩
  have fresh : ∀ link ∈ links, {link.sourceWorkerId, link.targetWorkerId} ∉ ([] : List (Finset String)) :=
    fun _ _ => List.not_mem_nil
  obtain ⟨adjacency, added⟩ := TopologyGraph.addLinks_ok inside (keys_of_made inventory made ▸ nodup_keys apart) fresh
    ((Dict.ofValues TopologyEndpoint.workerId id (endpointsOf workers)).map fun _ => [])
  have full : (Dict.ofValues TopologyEndpoint.workerId id (endpointsOf workers)).size = (endpointsOf workers).length := by
    have lengths := congrArg List.length keys
    rwa [Dict.keys, List.length_map, List.length_map] at lengths
  have built : TopologyGraph.init (endpointsOf workers) links = .ok
      ⟨Dict.ofValues TopologyEndpoint.workerId id (endpointsOf workers), adjacency, links⟩ := by
    rw [TopologyGraph.init, if_neg (not_not.mpr full), added]
  refine ⟨_, by rw [discoverTopology, listed]; exact built, built, ?_⟩
  refine ⟨(TopologyGraph.init_adjoins built).2, known, fun {a b} first second differ => ?_, fun {a b w} linked => ?_⟩
  · obtain ⟨x, there, rfl⟩ := List.mem_map.mp (ids.mem_iff.mpr first)
    obtain ⟨y, there', rfl⟩ := List.mem_map.mp (ids.mem_iff.mpr second)
    rcases TopologyGraph.mem_combinations_of_ne there there' (fun same => differ (congrArg _ same)) with pair | pair
    · obtain ⟨link, member, source, target, cost⟩ := (mem_made inventory made).2 _ pair
      obtain ⟨n, priced, -, atMost, within, -⟩ := inventory.linkType_cost x.workerId y.workerId
      exact ⟨n, ⟨link, member, Or.inl ⟨source, target⟩, cost.trans priced⟩, atMost, within⟩
    · obtain ⟨link, member, source, target, cost⟩ := (mem_made inventory made).2 _ pair
      obtain ⟨n, priced, -, atMost, within, -⟩ := inventory.linkType_cost y.workerId x.workerId
      rw [sameNode_comm] at within
      exact ⟨n, ⟨link, member, Or.inr ⟨source, target⟩, cost.trans priced⟩, atMost, within⟩
  · obtain ⟨link, member, joins, rfl⟩ := linked
    obtain ⟨pair, -, source, target, cost⟩ := (mem_made inventory made).1 link member
    obtain ⟨n, priced, positive, -, -, between⟩ := inventory.linkType_cost pair.1.workerId pair.2.workerId
    refine ⟨n, cost.trans priced, positive, ?_⟩
    rw [← source, ← target] at between
    rcases joins with ⟨rfl, rfl⟩ | ⟨rfl, rfl⟩
    · exact between
    · rwa [sameNode_comm] at between

section Distances

variable {inventory : Inventory} {ids : List String} {g : TopologyGraph} {a b : String}

/-- A path leaves a node only over a link between nodes. -/
theorem Discovered.walk (discovered : Discovered inventory ids g) {cost : Rat} (walk : g.Path a b cost) :
    ∃ n : Nat, cost = n ∧ (a = b ∨ 1 ≤ n) ∧
      (a = b ∨ sameNode (inventory.locations a) (inventory.locations b) = true ∨ 25 ≤ n) := by
  induction walk with
  | nil => exact ⟨0, rfl, Or.inl rfl, Or.inl rfl⟩
  | @snoc b c cost w before step ih =>
    obtain ⟨n, whole, -, crossed⟩ := ih
    obtain ⟨m, priced, positive, between⟩ := discovered.priced step
    refine ⟨n + m, by rw [whole, priced, Nat.cast_add], Or.inr (by omega), Or.inr ?_⟩
    cases same : sameNode (inventory.locations b) (inventory.locations c) with
    | false => exact Or.inr (Nat.le_trans (between same) (Nat.le_add_left m n))
    | true =>
      rcases crossed with rfl | near | far
      · exact Or.inl same
      · exact Or.inl (sameNode_trans near same)
      · exact Or.inr (Nat.le_trans far (Nat.le_add_right n m))

/-- Workers on one node are nearer to each other than workers on two nodes. -/
theorem Discovered.distance (discovered : Discovered inventory ids g) (first : a ∈ ids) (second : b ∈ ids)
    (differ : a ≠ b) : ∃ n : Nat, g.distance a b = ((n : Rat) : WithTop Rat) ∧ 1 ≤ n ∧ n ≤ 100 ∧
      (sameNode (inventory.locations a) (inventory.locations b) = true → n ≤ 12) ∧
      (sameNode (inventory.locations a) (inventory.locations b) = false → 25 ≤ n) := by
  obtain ⟨cost, -, short⟩ := TopologyGraph.pathCost_shortest discovered.adjoins
    ⟨(discovered.known a).mpr first, (discovered.known b).mpr second⟩ (le_refl g.steps)
  obtain ⟨m, direct, atMost, within⟩ := discovered.joined first second differ
  have below : cost ≤ ((m : Rat) : WithTop Rat) := short.least m (.single direct)
  rw [TopologyGraph.distance, short.eq_shortestCost]
  cases cost with
  | top => exact absurd below (not_le_of_gt (WithTop.coe_lt_top _))
  | coe cost =>
    obtain ⟨n, rfl, positive, crossed⟩ := discovered.walk (short.attained cost rfl)
    have bound : n ≤ m := Nat.cast_le.mp (WithTop.coe_le_coe.mp below)
    refine ⟨n, rfl, positive.resolve_left differ, bound.trans atMost, fun same => bound.trans (within same), ?_⟩
    intro apart
    rcases crossed with same | same | far
    · exact absurd same differ
    · rw [apart] at same
      cases same
    · exact far

end Distances

/-- Discovery links all of the workers, whose ids must differ: on one node at
most at 12, between nodes at least at 25. The order in which they are listed
does not matter. -/
theorem discovers_nodes_apart (inventory : Inventory) (workers : List WorkerState) :
    ((workers.map WorkerState.workerId).Nodup → ∃ g, discoverTopology inventory workers = .ok g ∧
      (∀ id, g.endpoints.contains id = true ↔ id ∈ workers.map WorkerState.workerId) ∧
      ∀ a ∈ workers.map WorkerState.workerId, ∀ b ∈ workers.map WorkerState.workerId, a ≠ b →
        ∀ fuel, g.steps ≤ fuel → ∃ n : Nat, g.pathCost fuel a b = .ok (some ((n : Rat) : WithTop Rat)) ∧
          (sameNode (inventory.locations a) (inventory.locations b) = true → 1 ≤ n ∧ n ≤ 12) ∧
          (sameNode (inventory.locations a) (inventory.locations b) = false → 25 ≤ n ∧ n ≤ 100)) ∧
    (¬(workers.map WorkerState.workerId).Nodup → discoverTopology inventory workers =
      .error (valueError "topology links require distinct endpoints and positive cost")) ∧
    ∀ workers', workers.Perm workers' → discoverTopology inventory workers' = discoverTopology inventory workers := by
  have refused : ∀ {workers : List WorkerState}, ¬(workers.map WorkerState.workerId).Nodup →
      discoverTopology inventory workers =
        .error (valueError "topology links require distinct endpoints and positive cost") := by
    intro workers repeated
    rw [discoverTopology, discoverLinks_error inventory fun distinct => repeated ((ids_endpointsOf workers).nodup_iff.mp distinct)]
  refine ⟨fun distinct => ?_, refused, fun workers' same => ?_⟩
  · obtain ⟨g, built, -, discovered⟩ := discovers inventory distinct
    refine ⟨g, built, discovered.known, fun a first b second differ fuel enough => ?_⟩
    obtain ⟨n, away, positive, atMost, within, between⟩ := discovered.distance first second differ
    refine ⟨n, ?_, fun same => ⟨positive, within same⟩, fun apart => ⟨between apart, atMost⟩⟩
    rw [← away]
    exact TopologyGraph.pathCost_distance discovered.adjoins
      ⟨(discovered.known a).mpr first, (discovered.known b).mpr second⟩ enough
  · by_cases distinct : (workers.map WorkerState.workerId).Nodup
    · rw [discoverTopology, discoverTopology, endpointsOf, endpointsOf, byId_eq same distinct]
    · rw [refused distinct, refused fun distinct' => distinct ((same.map _).nodup_iff.mpr distinct')]

end TopologyDiscovery

namespace TopologyGraph

variable {α : Type} {l : List α}

theorem length_combinations (l : List α) : (combinations l).length = l.length.choose 2 := by
  induction l with
  | nil => rfl
  | cons a rest ih =>
    rw [combinations, List.length_append, List.length_map, ih, List.length_cons, Nat.choose_succ_succ', Nat.choose_one_right]

theorem rel_of_mem_combinations {R : α → α → Prop} (ordered : l.Pairwise R) {pair : α × α}
    (member : pair ∈ combinations l) : R pair.1 pair.2 := by
  induction ordered with
  | nil => exact absurd member List.not_mem_nil
  | cons first _ ih =>
    rcases List.mem_append.mp member with here | later
    · obtain ⟨b, inside, rfl⟩ := List.mem_map.mp here
      exact first b inside
    · exact ih later

/-- What falls into several classes has a pair across classes for every element but one. -/
theorem length_le_crossings (same : α → α → Bool) (symm : ∀ {a b}, same a b = true → same b a = true)
    (trans_ : ∀ {a b c}, same a b = true → same b c = true → same a c = true)
    (split : ∃ pair ∈ combinations l, same pair.1 pair.2 = false) :
    l.length ≤ (combinations l).countP (fun pair => !same pair.1 pair.2) + 1 := by
  induction l with
  | nil =>
    obtain ⟨pair, member, -⟩ := split
    exact absurd member List.not_mem_nil
  | cons a rest ih =>
    rw [combinations, List.countP_append, List.countP_map, List.length_cons]
    by_cases later : ∃ pair ∈ combinations rest, same pair.1 pair.2 = false
    · have others := ih later
      obtain ⟨⟨x, y⟩, member, crosses⟩ := later
      obtain ⟨first, second⟩ := mem_of_mem_combinations member
      have one : 0 < rest.countP ((fun pair : α × α => !same pair.1 pair.2) ∘ fun b => (a, b)) := by
        refine List.countP_pos_iff.mpr ?_
        by_contra none
        have joined : ∀ b ∈ rest, same a b = true := fun b inside => by
          simpa using fun apart => none ⟨b, inside, apart⟩
        rw [show same x y = true from trans_ (symm (joined x first)) (joined y second)] at crosses
        cases crosses
      omega
    · obtain ⟨pair, member, crosses⟩ := split
      rcases List.mem_append.mp member with here | there
      · obtain ⟨b, inside, rfl⟩ := List.mem_map.mp here
        have all : rest.countP ((fun pair : α × α => !same pair.1 pair.2) ∘ fun b => (a, b)) = rest.length := by
          refine List.countP_eq_length.mpr fun c inside' => ?_
          by_contra near
          have joined : same a c = true := by simpa using near
          refine absurd crosses (ne_of_eq_of_ne ?_ Bool.false_ne_true.symm)
          by_cases equal : c = b
          · exact equal ▸ joined
          have within : ∀ pair ∈ combinations rest, same pair.1 pair.2 = true := fun pair listed =>
            Bool.eq_true_of_not_eq_false fun apart => later ⟨pair, listed, apart⟩
          rcases mem_combinations_of_ne inside' inside equal with listed | listed
          · exact trans_ joined (within _ listed)
          · exact trans_ joined (symm (within _ listed))
        omega
      · exact absurd ⟨pair, there, crosses⟩ later

end TopologyGraph

namespace TopologyAwareWorkerGroupPolicy

open TopologyDiscovery TopologyGraph

section Discovered

variable {inventory : Inventory} {p : TopologyAwareWorkerGroupPolicy} {r : RequestRecord} {model : ModelDefinition}
  {size fuel : Nat} {workers known group : List WorkerState} {ids : List String}

/-- The workers of a group that are told apart by their ids are on one node. -/
def OnOneNode (inventory : Inventory) (group : List WorkerState) : Prop :=
  ∀ a ∈ group, ∀ b ∈ group, a.workerId ≠ b.workerId →
    sameNode (inventory.locations a.workerId) (inventory.locations b.workerId) = true

/-- The pairs whose workers are on different nodes. -/
def crossings (inventory : Inventory) (pairs : List (String × String)) : Nat :=
  pairs.countP fun pair => !sameNode (inventory.locations pair.1) (inventory.locations pair.2)

/-- The costs of some pairs, by how many of them are across nodes. -/
theorem sum_distances (discovered : Discovered inventory ids p.topology) {pairs : List (String × String)}
    (inside : ∀ pair ∈ pairs, pair.1 ∈ ids ∧ pair.2 ∈ ids ∧ pair.1 ≠ pair.2) : ∃ n : Nat,
      (pairs.map fun pair => p.topology.distance pair.1 pair.2).sum = ((n : Rat) : WithTop Rat) ∧
      n ≤ 100 * pairs.length ∧ pairs.length + 24 * crossings inventory pairs ≤ n ∧
      n ≤ 12 * pairs.length + 88 * crossings inventory pairs := by
  induction pairs with
  | nil => exact ⟨0, by simp, by simp [crossings]⟩
  | cons pair rest ih =>
    obtain ⟨first, second, differ⟩ := inside pair List.mem_cons_self
    obtain ⟨n, away, positive, atMost, within, between⟩ := discovered.distance first second differ
    obtain ⟨m, total, bounded, least, most⟩ := ih fun other member => inside other (List.mem_cons_of_mem _ member)
    refine ⟨n + m, by rw [List.map_cons, List.sum_cons, away, total, Nat.cast_add, WithTop.coe_add], ?_⟩
    rw [List.length_cons]
    have split : crossings inventory (pair :: rest) = crossings inventory rest +
        if sameNode (inventory.locations pair.1) (inventory.locations pair.2) = false then 1 else 0 := by
      simp [crossings, List.countP_cons]
    rw [split]
    cases same : sameNode (inventory.locations pair.1) (inventory.locations pair.2) with
    | true =>
      have near := within same
      refine ⟨by omega, ?_, ?_⟩
      · simp only [Bool.true_eq_false, if_false]
        omega
      · simp only [Bool.true_eq_false, if_false]
        omega
    | false =>
      have far := between same
      refine ⟨by omega, ?_, ?_⟩
      · simp only [if_true]
        omega
      · simp only [if_true]
        omega

/-- What a group costs, by how many of its pairs are across nodes. -/
theorem spread_discovered (discovered : Discovered inventory (known.map WorkerState.workerId) p.topology)
    (team : p.Team r model workers size group) : ∃ n : Nat, p.spread group = ((n : Rat) : WithTop Rat) ∧
      n ≤ 100 * size.choose 2 ∧
      size.choose 2 + 24 * crossings inventory (combinations (group.map WorkerState.workerId)) ≤ n ∧
      n ≤ 12 * size.choose 2 + 88 * crossings inventory (combinations (group.map WorkerState.workerId)) := by
  have listed : ∀ id ∈ group.map WorkerState.workerId, id ∈ known.map WorkerState.workerId :=
    List.forall_mem_map.mpr fun worker member => (discovered.known _).mp (team.suits worker member).2
  have pairs : ∀ pair ∈ combinations (group.map WorkerState.workerId), pair.1 ∈ known.map WorkerState.workerId ∧
      pair.2 ∈ known.map WorkerState.workerId ∧ pair.1 ≠ pair.2 := by
    intro pair member
    obtain ⟨first, second⟩ := mem_of_mem_combinations (a := pair.1) (b := pair.2) member
    exact ⟨listed _ first, listed _ second, ne_of_lt (rel_of_mem_combinations team.ordered member)⟩
  have length : (combinations (group.map WorkerState.workerId)).length = size.choose 2 := by
    rw [length_combinations, List.length_map, team.filled]
  rw [← length]
  exact sum_distances discovered pairs

theorem onOneNode_iff (ordered : (group.map WorkerState.workerId).Pairwise (· < ·)) : OnOneNode inventory group ↔
    crossings inventory (combinations (group.map WorkerState.workerId)) = 0 := by
  unfold crossings
  rw [List.countP_eq_zero]
  constructor
  · intro near pair member
    obtain ⟨first, second⟩ := mem_of_mem_combinations (a := pair.1) (b := pair.2) member
    obtain ⟨a, inside, here⟩ := List.mem_map.mp first
    obtain ⟨b, inside', there⟩ := List.mem_map.mp second
    have differ := ne_of_lt (rel_of_mem_combinations ordered member)
    rw [← here, ← there] at differ ⊢
    simp [near a inside b inside' differ]
  · intro none a inside b inside' differ
    have near : ∀ pair ∈ combinations (group.map WorkerState.workerId),
        sameNode (inventory.locations pair.1) (inventory.locations pair.2) = true := fun pair member => by
      simpa using none pair member
    rcases mem_combinations_of_ne (List.mem_map_of_mem inside) (List.mem_map_of_mem inside') differ with pair | pair
    · exact near _ pair
    · exact sameNode_symm (near _ pair)

/-- Up to four workers cost less on one node than on several. -/
theorem spread_lt_of_split (discovered : Discovered inventory (known.map WorkerState.workerId) p.topology)
    {split : List WorkerState} (team : p.Team r model workers size group) (near : OnOneNode inventory group)
    (team' : p.Team r model workers size split) (apart : ¬OnOneNode inventory split) (few : size ≤ 4) :
    ∃ n m : Nat, p.spread group = ((n : Rat) : WithTop Rat) ∧ p.spread split = ((m : Rat) : WithTop Rat) ∧
      n < m ∧ m ≤ 600 := by
  obtain ⟨n, cheap, -, -, most⟩ := spread_discovered discovered team
  obtain ⟨m, dear, bounded, least, -⟩ := spread_discovered discovered team'
  rw [(onOneNode_iff team.ordered).mp near] at most
  rw [onOneNode_iff team'.ordered] at apart
  have crosses : size ≤ crossings inventory (combinations (split.map WorkerState.workerId)) + 1 := by
    have length : (split.map WorkerState.workerId).length = size := by rw [List.length_map, team'.filled]
    rw [← length]
    obtain ⟨pair, member, far⟩ := List.countP_pos_iff.mp (Nat.pos_of_ne_zero apart)
    refine length_le_crossings (fun a b => sameNode (inventory.locations a) (inventory.locations b)) sameNode_symm
      sameNode_trans ⟨pair, member, ?_⟩
    simpa using far
  have pairs : ∀ k ≤ 4, k.choose 2 = 0 ∧ k ≤ 1 ∨ k.choose 2 = 1 ∧ k = 2 ∨ k.choose 2 = 3 ∧ k = 3 ∨
      k.choose 2 = 6 ∧ k = 4 := by decide
  have counted := pairs size few
  exact ⟨n, m, cheap, dear, by omega, by omega⟩

/-- On a discovered topology any eligible workers form a group. -/
theorem team_of_eligible (discovered : Discovered inventory (known.map WorkerState.workerId) p.topology)
    (distinct : (workers.map WorkerState.workerId).Nodup) (apart : group.Nodup) (filled : group.length = size)
    (eligible : ∀ worker ∈ group, worker ∈ workers ∧ p.Suits r model worker ∧
      worker.workerId ∈ known.map WorkerState.workerId) : ∃ team, p.Team r model workers size team := by
  have inside : group ⊆ p.eligible r model workers := fun worker member =>
    mem_eligible.mpr ⟨(eligible worker member).1, (eligible worker member).2.1,
      (discovered.known _).mpr (eligible worker member).2.2⟩
  have enough := (apart.subperm inside).length_le
  refine ⟨(p.eligible r model workers).take size, (team_iff discovered.adjoins distinct).mpr ⟨mem_groups.mpr
    ⟨List.take_sublist _ _, List.length_take_of_le (filled ▸ enough)⟩, ?_⟩⟩
  have each : ∀ worker ∈ (p.eligible r model workers).take size,
      p.topology.endpoints.contains worker.workerId = true := fun worker member =>
    (mem_eligible.mp (List.mem_of_mem_take member)).2.2
  refine (spread_ne_top_iff discovered.adjoins each).mpr fun a first b second => ?_
  by_cases same : a.workerId = b.workerId
  · exact ⟨0, same ▸ .nil⟩
  · obtain ⟨n, linked, -⟩ := discovered.joined ((discovered.known _).mp (each a first))
      ((discovered.known _).mp (each b second)) same
    exact ⟨n, .single linked⟩

theorem discovered_of_discoverTopology {g : TopologyGraph} (found : discoverTopology inventory known = .ok g) :
    Discovered inventory (known.map WorkerState.workerId) g := by
  by_cases distinct : (known.map WorkerState.workerId).Nodup
  · obtain ⟨g', built, -, discovered⟩ := discovers inventory distinct
    rw [built] at found
    exact Except.ok.inj found ▸ discovered
  · rw [discoverTopology, discoverLinks_error inventory fun apart =>
      distinct ((ids_endpointsOf known).nodup_iff.mp apart)] at found
    cases found

/-- On a discovered topology a request is refused only for want of eligible
workers. Without load in the score, up to four workers are taken from one node
wherever a node has them; `rounded` keeps whole numbers that a float can hold. -/
theorem discovered_groups_stay_on_node (found : discoverTopology inventory known = .ok p.topology)
    (enough : p.topology.steps ≤ fuel) (registered : p.models.definitions.get? r.modelId = some model)
    (distinct : (workers.map WorkerState.workerId).Nodup) (positive : 0 < size) :
    ((∃ rejected, p.selectGroup fuel r workers size = .error (.unplaced (.noneEligible rejected))) ↔
      ¬∃ group : List WorkerState, group.Nodup ∧ group.length = size ∧ ∀ worker ∈ group, worker ∈ workers ∧
        p.Suits r model worker ∧ worker.workerId ∈ known.map WorkerState.workerId) ∧
    (p.loadWeight = 0 → (∀ n : Nat, n ≤ 2 ^ 53 → p.rounded n = n) → size ≤ 4 →
      (∃ group, p.Team r model workers size group ∧ OnOneNode inventory group) →
      ∃ d group, p.selectGroup fuel r workers size = .ok (some d) ∧ p.Team r model workers size group ∧
        d.workerIds = group.map WorkerState.workerId ∧ OnOneNode inventory group) := by
  have discovered := discovered_of_discoverTopology found
  refine ⟨⟨?_, fun nobody => ?_⟩, fun weightless exact_ few ⟨group, team, near⟩ => ?_⟩
  · rintro ⟨rejected, refused⟩ ⟨group, apart, filled, eligible⟩
    obtain ⟨team, formed⟩ := team_of_eligible discovered distinct apart filled eligible
    obtain ⟨d, decided, -⟩ := selectGroup_seats discovered.adjoins enough registered distinct positive formed
    rw [decided] at refused
    cases refused
  · refine ⟨_, selectGroup_refused discovered.adjoins enough registered distinct positive fun ⟨team, formed⟩ => ?_⟩
    have apart : team.Nodup := List.Nodup.of_map _ (formed.ordered.imp ne_of_lt)
    exact nobody ⟨team, apart, formed.filled, fun worker member => ⟨formed.listed worker member,
      (formed.suits worker member).1, (discovered.known _).mp (formed.suits worker member).2⟩⟩
  · obtain ⟨d, decided, ⟨chosen, seated, named, -, -, least⟩, -⟩ :=
      selectGroup_seats discovered.adjoins enough registered distinct positive team
    refine ⟨d, chosen, decided, seated, named, ?_⟩
    by_contra split
    obtain ⟨n, m, cheap, dear, less, small⟩ := spread_lt_of_split discovered team near seated split few
    have totals : ∀ {g : List WorkerState} {k : Nat}, p.spread g = ((k : Rat) : WithTop Rat) → k ≤ 600 →
        (ofLex (p.standing g)).1 = k := by
      intro g k cost bounded
      show p.rounded ((p.spread g).untopD 0 + p.rounded (p.loadWeight * p.loadCost g)) = k
      have zero : p.rounded 0 = 0 := by simpa using exact_ 0 (Nat.zero_le _)
      rw [cost, weightless, zero_mul, zero, add_zero]
      exact exact_ k (by omega)
    have before : (ofLex (p.standing chosen)).1 ≤ (ofLex (p.standing group)).1 := by
      rcases Prod.Lex.toLex_le_toLex.mp (least group team) with sooner | ⟨same, -⟩
      · exact sooner.le
      · exact same.le
    rw [totals dear small, totals cheap (by omega)] at before
    exact absurd (Nat.cast_le.mp before) (Nat.not_le.mpr less)

end Discovered

namespace Sample

open TenantAdmissionController.Sample

/-- All workers are on one node. -/
def inventory : Inventory := ⟨fun _ => ⟨some "node", none, none, none⟩, none⟩

def pair : List WorkerState := [device "b", device "a"]

theorem unweighted : (0 : Rat) ≤ 0 := le_refl _

def weightless (topology : TopologyGraph) : TopologyAwareWorkerGroupPolicy :=
  { policy topology with
    loadWeight := 0
    nonneg := unweighted }

theorem weightless_suits (topology : TopologyGraph) (workerId : String) :
    (weightless topology).Suits request model (device workerId) :=
  ⟨⟨rfl, rfl, Nat.zero_lt_one⟩, rfl, by decide, Or.inr ⟨900, rfl, show (100 : Int) ≤ 900 - 50 by decide⟩⟩

end Sample

open Sample TenantAdmissionController.Sample in
theorem discovered_groups_stay_on_node_pair : ∃ g, discoverTopology inventory pair = .ok g ∧
    ∃ d group, (weightless g).selectGroup g.steps request pair (2 : Nat) = .ok (some d) ∧
      (weightless g).Team request model pair 2 group ∧ d.workerIds = group.map WorkerState.workerId ∧
      OnOneNode inventory group := by
  obtain ⟨g, found, -, discovered⟩ := discovers inventory (show (pair.map WorkerState.workerId).Nodup by decide)
  have together : ∀ group, OnOneNode inventory group := fun _ _ _ _ _ _ => rfl
  have eligible : ∀ worker ∈ pair, worker ∈ pair ∧ (weightless g).Suits request model worker ∧
      worker.workerId ∈ pair.map WorkerState.workerId := by
    intro worker member
    refine ⟨member, ?_, List.mem_map_of_mem member⟩
    rcases List.mem_pair.mp member with rfl | rfl
    · exact weightless_suits g "b"
    · exact weightless_suits g "a"
  obtain ⟨team, formed⟩ := team_of_eligible (p := weightless g) discovered (by decide) (by decide)
    (rfl : pair.length = 2) eligible
  exact ⟨g, found, (discovered_groups_stay_on_node (p := weightless g) found (le_refl _) rfl (by decide) (by decide)).2
    rfl (fun _ _ => rfl) (by decide) ⟨team, formed, together team⟩⟩

end TopologyAwareWorkerGroupPolicy

end ServingPlatform
