import ServingPlatform.ControlPlane.BatchPlans
import ServingPlatform.ControlPlane.DispatchSteps
import ServingPlatform.Transport.BatchImages
import ServingPlatform.Transport.Naming

namespace ServingPlatform.ManagedWorker

variable (f : Naming) {w : ManagedWorker} {base objects : Objects} {model : ModelDefinition} {answers : LoadAnswers}

theorem inUse_rename (inside : ∀ j ∈ w.queue, j < f.size) (modelId : String) :
    (w.rename f).inUse (f.place base objects) modelId = w.inUse objects modelId := by
  have queues : ∀ queue : List ObjectId, (∀ j ∈ queue, j < f.size) →
      ((queue.map f.origin).any fun i => (f.place base objects i).modelId = modelId) =
        queue.any fun i => (objects i).modelId = modelId := by
    intro queue within
    induction queue with
    | nil => rfl
    | cons j rest induct =>
      rw [List.map_cons, List.any_cons, List.any_cons, f.place_origin (within j List.mem_cons_self),
        induct fun k member => within k (List.mem_cons_of_mem _ member)]
  unfold inUse
  exact congrArg (_ || ·) (queues w.queue inside)

theorem chooseEvictions_rename (inside : ∀ j ∈ w.queue, j < f.size) (required : Int) (models : List String)
    (usable : Int) :
    (w.rename f).chooseEvictions (f.place base objects) required models usable =
      w.chooseEvictions objects required models usable := by
  induction models generalizing usable with
  | nil => rfl
  | cons modelId rest induct =>
    have definitions : (w.rename f).modelDefinitions = w.modelDefinitions := rfl
    unfold chooseEvictions
    rw [inUse_rename f inside, definitions, induct]
    split
    · rfl
    split
    · rfl
    · dsimp only
      rw [induct]

theorem planEvictions_rename (inside : ∀ j ∈ w.queue, j < f.size) (capacity : RuntimeCapacity) :
    (w.rename f).planEvictions (f.place base objects) model capacity = w.planEvictions objects model capacity := by
  have order : (w.rename f).evictionOrder = w.evictionOrder := rfl
  unfold planEvictions
  rw [order]
  simp only [chooseEvictions_rename f inside]
  rfl

theorem beginLoad_rename (inside : ∀ j ∈ w.queue, j < f.size) :
    (w.rename f).beginLoad (w.rename f) (f.place base objects) model answers =
      ((w.beginLoad w objects model answers).1, (w.beginLoad w objects model answers).2.rename f) := by
  have plans := @planEvictions_rename f _ base objects model inside
  unfold beginLoad
  simp only [ite_self]
  by_cases accepting : w.accepting = false
  · rw [if_pos accepting, if_pos (show (w.rename f).accepting = false from accepting)]
  rw [if_neg accepting, if_neg (show ¬(w.rename f).accepting = false from accepting)]
  by_cases resident : model.modelId ∈ w.residentModels
  · rw [if_pos resident, if_pos (show model.modelId ∈ (w.rename f).residentModels from resident)]
    rfl
  rw [if_neg resident, if_neg (show model.modelId ∉ (w.rename f).residentModels from resident), if_neg resident,
    if_neg (show model.modelId ∉ (w.rename f).residentModels from resident)]
  have failures : (w.rename f).loadFailures = w.loadFailures ∧ (w.rename f).loadingModels = w.loadingModels ∧
      (w.rename f).loadAttempts = w.loadAttempts := ⟨rfl, rfl, rfl⟩
  rw [failures.1, failures.2.1, failures.2.2]
  split
  · rfl
  rcases answers.capacity with raised | capacity
  · rfl
  dsimp only
  rw [plans]
  rcases w.planEvictions objects model capacity with raised | evictions
  · rfl
  · rfl

theorem loadModel_rename (inside : ∀ j ∈ w.queue, j < f.size) :
    (w.rename f).loadModel (w.rename f) id (f.place base objects) model answers =
      ((w.loadModel w id objects model answers).1, (w.loadModel w id objects model answers).2.rename f) := by
  have ends : ∀ (w : ManagedWorker) evictions attempt,
      (w.rename f).endLoad model evictions attempt answers = (w.endLoad model evictions attempt answers).rename f := by
    intro w evictions attempt
    have restores : ∀ (survivors : List (String × ModelDefinition)) (w : ManagedWorker),
        survivors.foldl (restore answers.now) (w.rename f) = (survivors.foldl (restore answers.now) w).rename f := by
      intro survivors
      induction survivors with
      | nil => exact fun _ => rfl
      | cons e rest induct => exact fun w => induct (restore answers.now w e)
    unfold endLoad
    rcases runLoad evictions answers with - | raised
    · rfl
    · have restored := restores (evictions.filter fun e => answers.isModelLoaded e.1)
        { w with loadFailures := w.loadFailures.insert model.modelId (attempt, raised) }
      exact congrArg (fun settled : ManagedWorker => { settled with
        loadingModels := settled.loadingModels.erase model.modelId
        reservedModelMemoryBytes := settled.reservedModelMemoryBytes - model.estimatedMemoryBytes }) restored
  have begins := @beginLoad_rename f _ base objects model answers inside
  unfold loadModel
  rw [begins]
  rcases w.beginLoad w objects model answers with ⟨raised | - | ⟨evictions, attempt⟩, w'⟩
  · rfl
  · rfl
  · simp only [id_eq, ends]
    rcases runLoad evictions answers with - | raised
    · rfl
    · rfl

end ServingPlatform.ManagedWorker

namespace ServingPlatform

/-- A worker behind its HTTP app and its client, beside a worker that holds the
client's requests itself. Which request each record of the app was made from is
written down. -/
structure Twin where
  link : Link
  direct : WorkerProcess
  origin : ObjectId → ObjectId

/-- The operations of a worker, with the clocks they read and the answers of its runtime. -/
inductive Operation
  | load (model : ModelDefinition) (answers : LoadAnswers)
  | enqueue (i : ObjectId) (now : Seconds)
  | cancel (requestId : String) (now : Seconds)
  | execute (inputs : ManagedWorker.BatchInputs)

namespace Operation

/-- Applied to the worker that holds the requests. -/
def onProcess : Operation → WorkerProcess → WorkerProcess
  | load model answers, p => { p with worker := (p.worker.loadModel p.worker id p.objects model answers).2 }
  | enqueue i now, p => (ManagedWorker.enqueueRequest i now p).2
  | cancel requestId now, p => (ManagedWorker.cancelRequest requestId now p).2
  | execute inputs, p => (ManagedWorker.executeBatch inputs p).2

/-- Applied through the client; nothing is lost, and the clocks show the same for a record as for its origin. -/
def onLink (origin : ObjectId → ObjectId) : Operation → Link → Link
  | load model answers, l => (l.loadModel .answered model answers).2
  | enqueue i now, l => (Link.enqueueRequest .answered i now l).2
  | cancel requestId now, l => (Link.cancelRequest .answered requestId now l).2
  | execute inputs, l => (Link.executeBatch .answered { inputs with completedAt := inputs.completedAt ∘ origin } l).2

/-- A record that the app has made of a request is written down. -/
def origins (before after : Link) (origin : ObjectId → ObjectId) : Operation → ObjectId → ObjectId
  | enqueue i _ =>
    if after.app.created = before.app.created then origin else Function.update origin before.app.created i
  | _ => origin

end Operation

namespace Twin

def apply (t : Twin) (op : Operation) : Twin :=
  let link := op.onLink t.origin t.link
  ⟨link, op.onProcess t.direct, op.origins t.link link t.origin⟩

theorem apply_eq {t : Twin} {op : Operation} {l : Link} {p : WorkerProcess} (linked : op.onLink t.origin t.link = l)
    (run : op.onProcess t.direct = p) : t.apply op = ⟨l, p, op.origins t.link l t.origin⟩ := by
  subst linked run
  rfl

/-- A worker that holds no requests yet, twice. What the app's process has at
unused numbers does not matter. -/
def start (worker : ManagedWorker) (objects unused : Objects) (workerId : String)
    (catalog : Dict String ModelDefinition) : Twin where
  link :=
    { client := ⟨workerId, .empty⟩
      objects := objects
      app := ⟨{ worker with queue := [], activeRequests := .empty }, unused, 0, .empty, catalog⟩ }
  direct := ⟨{ worker with queue := [], activeRequests := .empty }, objects⟩
  origin := id

/-- Every request of the client's process is in the state that the worker in the same process gives it. -/
def Agrees (t : Twin) : Prop :=
  ∀ i, (t.link.objects i).status = (t.direct.objects i).status ∧
    ∀ state, (t.link.objects i).reached state = (t.direct.objects i).reached state

/-- The app knows a model that is to be loaded as it is, and a request is not
handed over while the worker has another of its id. -/
def Fits (t : Twin) : Operation → Prop
  | .load model _ => t.link.app.catalog.get? model.modelId = some model
  | .enqueue i _ => ∀ j ∈ t.direct.worker.queue, (t.direct.objects j).requestId ≠ (t.link.objects i).requestId
  | _ => True

/-- The client is told all that an operation does to its requests: what is
cancelled can be named in a path, and a batch completes all that it takes out of the queue. -/
def Told (t : Twin) : Operation → Prop
  | .cancel requestId _ =>
    '/' ∉ requestId.toList ∨ ∀ j ∈ t.direct.worker.queue, (t.direct.objects j).requestId ≠ requestId
  | .execute inputs => ManagedWorker.Completes inputs t.direct
  | _ => True

/-- Both sides hold the same requests, each under its own name, and what the
client has is what the app has. -/
structure Together (f : Naming) (t : Twin) : Prop where
  size : f.size = t.link.app.created
  origin : f.origin = t.origin
  worker : t.direct.worker = t.link.app.worker.rename f
  objects : t.direct.objects = t.link.objects
  mirrored : ∀ j < f.size, t.link.objects (f.origin j) = t.link.app.objects j
  queued : ∀ j ∈ t.link.app.worker.queue, j < f.size ∧ (t.link.app.objects j).status = .queued
  distinct : t.link.app.worker.queue.Nodup
  idle : t.link.app.worker.activeRequests = .empty
  handed : ∀ j < f.size, (t.link.app.objects j).status ≠ .assigned
  client : t.link.client.requests = t.link.app.requests.map f.origin
  kept : ∀ requestId j, t.link.app.requests.get? requestId = some j → j < f.size
  registered : ∀ j ∈ t.link.app.worker.queue,
    t.link.app.requests.get? (t.link.app.objects j).requestId = some j

variable {f : Naming} {t : Twin}

theorem start_together (worker : ManagedWorker) (objects unused : Objects) (workerId : String)
    (catalog : Dict String ModelDefinition) :
    Together ⟨0, id, fun _ _ _ _ same => same⟩ (start worker objects unused workerId catalog) where
  size := rfl
  origin := rfl
  worker := rfl
  objects := rfl
  mirrored := fun _ inside => absurd inside (Nat.not_lt_zero _)
  queued := fun _ member => absurd member List.not_mem_nil
  distinct := .nil
  idle := rfl
  handed := fun _ inside => absurd inside (Nat.not_lt_zero _)
  client := rfl
  kept := fun _ _ found => by cases found
  registered := fun _ member => absurd member List.not_mem_nil

namespace Together

theorem placed (together : Together f t) : f.place t.link.objects t.link.app.objects = t.link.objects := by
  funext i
  rcases f.cases_origin i with ⟨j, inside, rfl⟩ | outside
  · rw [f.place_origin inside, together.mirrored j inside]
  · rw [f.place_of_forall_ne outside]

/-- The worker in the client's process is the image of the app's. -/
theorem image (together : Together f t) :
    t.direct = ManagedWorker.image f t.link.objects t.link.app.process := by
  have objects : t.direct.objects = f.place t.link.objects t.link.app.objects := by
    rw [together.placed, together.objects]
  have worker := together.worker
  rcases shown : t.direct with ⟨w, o⟩
  rw [shown] at objects worker
  dsimp only at objects worker
  rw [worker, objects]
  rfl

theorem agrees (together : Together f t) : t.Agrees := by
  intro i
  rw [together.objects]
  exact ⟨rfl, fun _ => rfl⟩

theorem inside (together : Together f t) : ∀ j ∈ t.link.app.worker.queue, j < f.size :=
  fun j member => (together.queued j member).1

/-- A request is queued in one process when its origin is in the other. -/
theorem forall_queue_iff (together : Together f t) (requestId : String) :
    (∀ j ∈ t.direct.worker.queue, (t.direct.objects j).requestId ≠ requestId) ↔
      ∀ j ∈ t.link.app.worker.queue, (t.link.app.objects j).requestId ≠ requestId := by
  have queue : t.direct.worker.queue = t.link.app.worker.queue.map f.origin := by
    rw [together.worker]
    rfl
  rw [queue, together.objects, List.forall_mem_map]
  refine forall₂_congr fun j member => ?_
  rw [together.mirrored j (together.inside j member)]

/-- A load changes neither the queue nor what runs. -/
theorem load (together : Together f t) {model : ModelDefinition} (answers : LoadAnswers)
    (fits : t.Fits (.load model answers)) : Together f (t.apply (.load model answers)) := by
  obtain ⟨w', loaded⟩ : ∃ w', (t.link.app.worker.loadModel t.link.app.worker id t.link.app.objects model answers).2 = w' :=
    ⟨_, rfl⟩
  have link : (Operation.load model answers).onLink t.origin t.link =
      { t.link with app := { t.link.app with worker := w' } } := by
    unfold Operation.onLink Link.loadModel Link.request WorkerApp.loadModel
    dsimp only
    have registered : t.link.app.catalog.get? model.modelId = some model := fits
    rw [registered]
    dsimp only
    rw [if_neg (not_not.mpr rfl), loaded]
    rcases (t.link.app.worker.loadModel t.link.app.worker id t.link.app.objects model answers).1 with raised | done <;> rfl
  have held : w'.holdings = t.link.app.worker.holdings := by
    rw [← loaded]
    exact ManagedWorker.loadModel_holdings (P := fun held => held = t.link.app.worker.holdings) rfl rfl fun _ => id
  obtain ⟨queue, active⟩ := Prod.mk.inj held
  have direct : (Operation.load model answers).onProcess t.direct = ⟨w'.rename f, t.direct.objects⟩ := by
    have loads := @ManagedWorker.loadModel_rename f _ t.link.objects t.link.app.objects model answers together.inside
    rw [together.placed] at loads
    unfold Operation.onProcess
    dsimp only
    rw [together.worker, together.objects, loads, loaded]
  rw [apply_eq link direct]
  exact ⟨together.size, together.origin, rfl, together.objects, together.mirrored, by rw [queue]; exact together.queued,
    by rw [queue]; exact together.distinct, by rw [active]; exact together.idle, together.handed, together.client,
    together.kept, by rw [queue]; exact together.registered⟩

end Together

end Twin

end ServingPlatform
