import Mathlib.Algebra.Order.Monoid.WithTop
import Mathlib.Algebra.Order.Ring.Rat
import Mathlib.Data.Finset.Insert
import Mathlib.Data.List.Sort
import Mathlib.Data.Prod.Lex
import Mathlib.Data.String.Basic
import ServingPlatform.Errors
import ServingPlatform.Library.Dict
import ServingPlatform.Library.ShortestPaths

namespace ServingPlatform

structure TopologyEndpoint where
  workerId : String
  deriving DecidableEq, Repr

/-- A link, with the checks of `__post_init__`. -/
structure TopologyLink where
  sourceWorkerId : String
  targetWorkerId : String
  cost : Rat
  distinct : sourceWorkerId ≠ targetWorkerId
  positive : 0 < cost

/-- A link leads from each of its ends to the other. -/
def TopologyLink.Joins (link : TopologyLink) (a b : String) : Prop :=
  link.sourceWorkerId = a ∧ link.targetWorkerId = b ∨ link.sourceWorkerId = b ∧ link.targetWorkerId = a

structure TopologyGraph where
  endpoints : Dict String TopologyEndpoint
  adjacency : Dict String (List (String × Rat))
  links : List TopologyLink

/-- An entry of the heap; tuples compare by the cost, then by the id. -/
abbrev HeapEntry := Rat ×ₗ String

/-- The heap, in the order in which its entries are popped. -/
def heappush (queue : List HeapEntry) (entry : HeapEntry) : List HeapEntry := queue.orderedInsert (· ≤ ·) entry

namespace TopologyGraph

/-- `append` to the neighbours of an endpoint; every endpoint has a list. -/
def connect (adjacency : Dict String (List (String × Rat))) (workerId : String) (entry : String × Rat) :
    Dict String (List (String × Rat)) :=
  adjacency.insert workerId ((adjacency.get? workerId).getD [] ++ [entry])

/-- The loop of `__init__` over the links. -/
def addLinks (endpoints : Dict String TopologyEndpoint) :
    List TopologyLink → List (Finset String) → Dict String (List (String × Rat)) →
      Except Raised (Dict String (List (String × Rat)))
  | [], _, adjacency => .ok adjacency
  | link :: rest, seen, adjacency =>
    let key : Finset String := {link.sourceWorkerId, link.targetWorkerId}
    if endpoints.contains link.sourceWorkerId = false ∨ endpoints.contains link.targetWorkerId = false then
      .error (valueError "topology link references an unknown endpoint")
    else if key ∈ seen then .error (valueError "topology links must be unique per endpoint pair")
    else addLinks endpoints rest (key :: seen)
      (connect (connect adjacency link.sourceWorkerId (link.targetWorkerId, link.cost))
        link.targetWorkerId (link.sourceWorkerId, link.cost))

def init (endpoints : List TopologyEndpoint) (links : List TopologyLink) : Except Raised TopologyGraph :=
  let byId := Dict.ofValues TopologyEndpoint.workerId id endpoints
  if byId.size ≠ endpoints.length then .error (valueError "topology endpoint identifiers must be unique")
  else
    match addLinks byId links [] (byId.map fun _ => []) with
    | .error raised => .error raised
    | .ok adjacency => .ok ⟨byId, adjacency, links⟩

/-- One neighbour of the node that was popped at `cost`. -/
def relax (cost : Rat) (state : Dict String Rat × List HeapEntry) (entry : String × Rat) :
    Dict String Rat × List HeapEntry :=
  let candidate := cost + entry.2
  let improved := (state.1.insert entry.1 candidate, heappush state.2 (toLex (candidate, entry.1)))
  match state.1.get? entry.1 with
  | none => improved
  | some known => if candidate < known then improved else state

variable (g : TopologyGraph)

/-- The loop of `path_cost`; without fuel there is no answer yet. -/
def search (target : String) : Nat → Dict String Rat → List HeapEntry → Except Raised (Option (WithTop Rat))
  | 0, _, _ => .ok none
  | _ + 1, _, [] => .ok (some ⊤)
  | fuel + 1, distances, entry :: queue =>
    let (cost, current) := ofLex entry
    if current = target then .ok (some cost)
    else
      match distances.get? current with
      | none => .error (keyError current)
      | some known =>
        if cost ≠ known then search target fuel distances queue
        else
          match g.adjacency.get? current with
          | none => .error (keyError current)
          | some neighbors =>
            let (distances, queue) := neighbors.foldl (relax cost) (distances, queue)
            search target fuel distances queue

def pathCost (fuel : Nat) (source target : String) : Except Raised (Option (WithTop Rat)) :=
  if g.endpoints.contains source = false ∨ g.endpoints.contains target = false then
    .error (keyError "unknown topology endpoint")
  else if source = target then .ok (some 0)
  else g.search target fuel (Dict.empty.insert source 0) [toLex (0, source)]

/-- `combinations(…, 2)`. -/
def combinations {α : Type} : List α → List (α × α)
  | [] => []
  | a :: rest => rest.map (fun b => (a, b)) ++ combinations rest

/-- The sum of the path costs of some pairs. -/
def sumCosts (fuel : Nat) : List (String × String) → WithTop Rat → Except Raised (Option (WithTop Rat))
  | [], total => .ok (some total)
  | (first, second) :: rest, total =>
    match g.pathCost fuel first second with
    | .error raised => .error raised
    | .ok none => .ok none
    | .ok (some cost) => sumCosts fuel rest (total + cost)

def groupCost (fuel : Nat) (workerIds : List String) : Except Raised (Option (WithTop Rat)) :=
  if ¬workerIds.Nodup then .error (valueError "topology group members must be unique")
  else g.sumCosts fuel (combinations workerIds) 0

/-- Some link of the graph joins two endpoints at a cost. -/
def Linked (links : List TopologyLink) (a b : String) (cost : Rat) : Prop :=
  ∃ link ∈ links, link.Joins a b ∧ link.cost = cost

/-- The paths of the graph along its links, with the sums of their costs. -/
def Path (a b : String) (cost : Rat) : Prop := Walk (Linked g.links) a b cost

theorem Linked.swap {links : List TopologyLink} {a b : String} {cost : Rat} (linked : Linked links a b cost) :
    Linked links b a cost := by
  obtain ⟨link, member, joins, priced⟩ := linked
  exact ⟨link, member, joins.symm, priced⟩

theorem Linked.positive {links : List TopologyLink} {a b : String} {cost : Rat} (linked : Linked links a b cost) :
    0 < cost := by
  obtain ⟨link, -, -, rfl⟩ := linked
  exact link.positive

/-- The neighbours of each endpoint are those that the links join it to. -/
structure Adjoins (endpoints : Dict String TopologyEndpoint) (links : List TopologyLink)
    (adjacency : Dict String (List (String × Rat))) : Prop where
  listed : ∀ a, (∃ entries, adjacency.get? a = some entries) ↔ endpoints.contains a = true
  joined : ∀ {a entries}, adjacency.get? a = some entries → ∀ b w, (b, w) ∈ entries ↔ Linked links a b w
  inside : ∀ link ∈ links, endpoints.contains link.sourceWorkerId = true ∧ endpoints.contains link.targetWorkerId = true

section Building

variable {endpoints : Dict String TopologyEndpoint} {links rest : List TopologyLink}
  {adjacency adjacency' : Dict String (List (String × Rat))} {link : TopologyLink} {a b : String} {w : Rat}

theorem get?_connect (workerId : String) (entry : String × Rat) : (connect adjacency workerId entry).get? a =
    if a = workerId then some ((adjacency.get? workerId).getD [] ++ [entry]) else adjacency.get? a :=
  Dict.get?_insert

theorem linked_concat : Linked (links ++ [link]) a b w ↔ Linked links a b w ∨ link.Joins a b ∧ link.cost = w := by
  simp only [Linked, List.mem_append, List.mem_singleton, or_and_right, exists_or, exists_eq_left]

theorem Adjoins.append (adjoins : Adjoins endpoints links adjacency)
    (known : endpoints.contains link.sourceWorkerId = true ∧ endpoints.contains link.targetWorkerId = true) :
    Adjoins endpoints (links ++ [link])
      (connect (connect adjacency link.sourceWorkerId (link.targetWorkerId, link.cost))
        link.targetWorkerId (link.sourceWorkerId, link.cost)) := by
  have apart := link.distinct
  have lists : ∀ {x}, endpoints.contains x = true → adjacency.get? x = some ((adjacency.get? x).getD []) := by
    intro x known
    obtain ⟨entries, found⟩ := (adjoins.listed x).mpr known
    rw [found, Option.getD_some]
  refine ⟨fun a => ?_, fun {a entries} found b w => ?_, fun other member => ?_⟩
  · rw [get?_connect, get?_connect, get?_connect, if_neg (Ne.symm apart)]
    split_ifs with atTarget atSource
    · exact ⟨fun _ => atTarget ▸ known.2, fun _ => ⟨_, rfl⟩⟩
    · exact ⟨fun _ => atSource ▸ known.1, fun _ => ⟨_, rfl⟩⟩
    · exact adjoins.listed a
  · rw [get?_connect, get?_connect, get?_connect, if_neg (Ne.symm apart)] at found
    rw [linked_concat]
    split_ifs at found with atTarget atSource
    · obtain rfl := Option.some.inj found
      subst atTarget
      rw [List.mem_append, adjoins.joined (lists known.2)]
      simp [TopologyLink.Joins, apart, eq_comm]
    · obtain rfl := Option.some.inj found
      subst atSource
      rw [List.mem_append, adjoins.joined (lists known.1)]
      simp [TopologyLink.Joins, Ne.symm apart, eq_comm]
    · rw [adjoins.joined found]
      simp [TopologyLink.Joins, Ne.symm atTarget, Ne.symm atSource]
  · rcases List.mem_append.mp member with old | new
    · exact adjoins.inside other old
    · rw [List.mem_singleton.mp new]
      exact known

theorem addLinks_adjoins {seen : List (Finset String)} (adjoins : Adjoins endpoints links adjacency)
    (added : addLinks endpoints rest seen adjacency = .ok adjacency') : Adjoins endpoints (links ++ rest) adjacency' := by
  induction rest generalizing links seen adjacency with
  | nil =>
    cases added
    rwa [List.append_nil]
  | cons link rest ih =>
    simp only [addLinks] at added
    split_ifs at added with unknown repeated
    have known : endpoints.contains link.sourceWorkerId = true ∧ endpoints.contains link.targetWorkerId = true := by
      simpa using unknown
    have built := ih (adjoins.append known) added
    rwa [List.append_assoc, List.singleton_append] at built

theorem init_adjoins {endpoints : List TopologyEndpoint} {g : TopologyGraph} (built : init endpoints links = .ok g) :
    g.links = links ∧ Adjoins g.endpoints links g.adjacency := by
  unfold init at built
  simp only at built
  split_ifs at built with repeated
  split at built
  · cases built
  rename_i adjacency added
  cases built
  have bare : Adjoins (.ofValues TopologyEndpoint.workerId id endpoints) []
      ((Dict.ofValues TopologyEndpoint.workerId id endpoints).map fun _ => []) := by
    refine ⟨fun a => ?_, fun {a entries} found b w => ?_, nofun⟩
    · rw [Dict.get?_map, Dict.contains]
      cases (Dict.ofValues TopologyEndpoint.workerId id endpoints).get? a <;> simp
    · rw [Dict.get?_map] at found
      obtain ⟨endpoint, -, rfl⟩ := Option.map_eq_some_iff.mp found
      simp [Linked]
  exact ⟨rfl, addLinks_adjoins bare added⟩

end Building

end TopologyGraph

end ServingPlatform
