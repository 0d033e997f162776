import ServingPlatform.ControlPlane.BatchQueues
import ServingPlatform.Transport.WorkerApp

namespace ServingPlatform

/-- Two processes have copies of the same requests: which object of one process,
up to a size, stands for which object of the other. -/
structure Naming where
  size : Nat
  origin : ObjectId → ObjectId
  injective : ∀ j < size, ∀ k < size, origin j = origin k → j = k

namespace Naming

variable (f : Naming) {base objects : Objects} {i j : ObjectId} {r : RequestRecord}

/-- The objects of the other process: the named ones as they are here, the rest as before. -/
def place (base objects : Objects) : Objects := fun i =>
  match (List.range f.size).find? fun j => f.origin j = i with
  | some j => objects j
  | none => base i

theorem place_origin (inside : j < f.size) : f.place base objects (f.origin j) = objects j := by
  have found : (List.range f.size).find? (fun k => f.origin k = f.origin j) = some j := by
    have some : ((List.range f.size).find? fun k => f.origin k = f.origin j).isSome = true :=
      List.find?_isSome.mpr ⟨j, List.mem_range.mpr inside, by simp⟩
    obtain ⟨k, found⟩ := Option.isSome_iff_exists.mp some
    have same : f.origin k = f.origin j := by simpa using List.find?_some found
    have member := List.mem_range.mp (List.mem_of_find?_eq_some found)
    rw [found, f.injective k member j inside same]
  unfold place
  rw [found]

theorem place_of_forall_ne (outside : ∀ j < f.size, f.origin j ≠ i) : f.place base objects i = base i := by
  have missing : (List.range f.size).find? (fun k => f.origin k = i) = none := by
    rw [List.find?_eq_none]
    intro k member
    simpa using outside k (List.mem_range.mp member)
  unfold place
  rw [missing]

/-- Every object is named or not. -/
theorem cases_origin (i : ObjectId) : (∃ j < f.size, f.origin j = i) ∨ ∀ j < f.size, f.origin j ≠ i := by
  by_cases named : ∃ j < f.size, f.origin j = i
  · exact Or.inl named
  · exact Or.inr fun j inside same => named ⟨j, inside, same⟩

theorem place_put (inside : j < f.size) :
    (f.place base objects).put (f.origin j) r = f.place base (objects.put j r) := by
  funext i
  rcases f.cases_origin i with ⟨k, named, rfl⟩ | outside
  · rw [f.place_origin named]
    rcases eq_or_ne k j with rfl | differ
    · rw [Objects.put_self, Objects.put_self]
    · rw [Objects.put_of_ne differ, Objects.put_of_ne fun same => differ (f.injective k named j inside same),
        f.place_origin named]
  · rw [Objects.put_of_ne (Ne.symm (outside j inside)), f.place_of_forall_ne outside, f.place_of_forall_ne outside]

theorem map_erase {queue : List ObjectId} (inside : ∀ k ∈ queue, k < f.size) (here : j < f.size) :
    (queue.map f.origin).erase (f.origin j) = (queue.erase j).map f.origin := by
  induction queue with
  | nil => rfl
  | cons k rest induct =>
    have later := induct fun other member => inside other (List.mem_cons_of_mem _ member)
    rw [List.map_cons, List.erase_cons, List.erase_cons]
    by_cases same : k = j
    · simp [same]
    · have differ : f.origin k ≠ f.origin j := fun equal =>
        same (f.injective k (inside k List.mem_cons_self) j here equal)
      simp [same, differ, later]

end Naming

namespace ManagedWorker

variable (f : Naming) {base objects : Objects} {now : Seconds} {i : ObjectId} {p : WorkerProcess}
  {queue selected : List ObjectId}

/-- The worker with the other process's names for its requests. -/
def rename (w : ManagedWorker) : ManagedWorker :=
  { w with queue := w.queue.map f.origin, activeRequests := w.activeRequests.map f.origin }

/-- A worker with its requests, seen in the other process. -/
def image (base : Objects) (p : WorkerProcess) : WorkerProcess := ⟨p.worker.rename f, f.place base p.objects⟩

theorem skipExpired_image (inside : ∀ j ∈ queue, j < f.size) :
    skipExpired now (queue.map f.origin) (f.place base objects) =
      ((skipExpired now queue objects).1, (skipExpired now queue objects).2.1.map f.origin,
        f.place base (skipExpired now queue objects).2.2) := by
  induction queue generalizing objects with
  | nil => rfl
  | cons j rest induct =>
    have here := inside j List.mem_cons_self
    have later := fun {objects} => @induct objects fun k member => inside k (List.mem_cons_of_mem _ member)
    rw [List.map_cons]
    unfold skipExpired
    rw [f.place_origin here]
    split
    · exact later
    split
    · rcases (objects j).transition_cases .timedOut now with ⟨-, run⟩ | ⟨-, raised, run, -⟩
      · rw [run]
        dsimp only
        rw [f.place_put here]
        exact later
      · rw [run]
    · rfl

/-- What a gathering of the other process's requests results in. -/
def gathered (base : Objects) :
    Except (Raised × List ObjectId) (List ObjectId × List ObjectId) × Objects →
      Except (Raised × List ObjectId) (List ObjectId × List ObjectId) × Objects
  | (.ok (selected, queue), objects) => (.ok (selected.map f.origin, queue.map f.origin), f.place base objects)
  | (.error (raised, queue), objects) => (.error (raised, queue.map f.origin), f.place base objects)

theorem gather_image (w : ManagedWorker) (first : RequestRecord) (tokens : Nat) (inside : ∀ j ∈ queue, j < f.size) :
    (w.rename f).gather first now (selected.map f.origin) tokens (queue.map f.origin) (f.place base objects) =
      gathered f base (w.gather first now selected tokens queue objects) := by
  induction queue generalizing selected tokens objects with
  | nil => rfl
  | cons j rest induct =>
    have here := inside j List.mem_cons_self
    have later := fun selected objects tokens =>
      @induct objects selected tokens fun k member => inside k (List.mem_cons_of_mem _ member)
    have sizes : (w.rename f).maxBatchSize = w.maxBatchSize ∧ (w.rename f).maxBatchTokens = w.maxBatchTokens := ⟨rfl, rfl⟩
    rw [List.map_cons]
    unfold gather
    rw [f.place_origin here, List.length_map, sizes.1, sizes.2]
    split
    · rfl
    split
    · exact later _ _ tokens
    split
    · rcases (objects j).transition_cases .timedOut now with ⟨-, run⟩ | ⟨-, raised, run, -⟩
      · rw [run]
        dsimp only
        rw [f.place_put here]
        exact later _ _ tokens
      · rw [run]
        rfl
    split
    · have joined := later (selected ++ [j]) objects (tokens + (objects j).estimatedTokens)
      rw [List.map_append] at joined
      exact joined
    · rw [later _ _ tokens]
      rcases run : w.gather first now selected tokens rest objects with ⟨⟨raised, queue⟩ | ⟨chosen, queue⟩, objects'⟩
      · rfl
      · rfl

end ManagedWorker

end ServingPlatform
