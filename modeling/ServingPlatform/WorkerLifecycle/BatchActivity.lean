import ServingPlatform.ControlPlane.BatchSelection
import ServingPlatform.WorkerLifecycle.LocalBatches

namespace ServingPlatform

/-- What a worker counts of its running batches, and the requests it lists as active. -/
structure Activity where
  batches : Int
  byModel : String → Int
  requests : Dict String ObjectId

def Activity.none : Activity := ⟨0, fun _ => 0, .empty⟩

/-- Requests go on: none that is over changes again, and those that a batch runs go on running or end. -/
structure Objects.Onward (selected : List ObjectId) (objects objects' : Objects) : Prop where
  ids : ∀ j, (objects' j).requestId = (objects j).requestId
  models : objects'.models = objects.models
  ended : ∀ j, (objects j).terminal = true → objects' j = objects j
  running : ∀ j ∈ selected, (objects j).status = .running → (objects' j).status = .running ∨ (objects' j).terminal = true

namespace Objects.Onward

variable {selected : List ObjectId} {objects objects' objects'' : Objects} {i : ObjectId} {target : RequestState} {at_ : Seconds}

theorem refl : Onward selected objects objects := ⟨fun _ => rfl, rfl, fun _ _ => rfl, fun _ _ runs => Or.inl runs⟩

theorem trans (first : Onward selected objects objects') (second : Onward selected objects' objects'') :
    Onward selected objects objects'' := by
  refine ⟨fun j => (second.ids j).trans (first.ids j), second.models.trans first.models, fun j isOver => ?_, fun j member runs => ?_⟩
  · have same := first.ended j isOver
    rw [second.ended j (same.symm ▸ isOver), same]
  · rcases first.running j member runs with still | isOver
    · exact second.running j member still
    · exact Or.inr (second.ended j isOver ▸ isOver)

/-- One request takes a transition that it may take. -/
theorem put_enter (allowed : target ∈ (objects i).status.allowed)
    (quiet : i ∈ selected → (objects i).status = .running → target.isTerminal = true) :
    Onward selected objects (objects.put i ((objects i).enter target at_)) := by
  refine ⟨fun j => ?_, Objects.models_put rfl, fun j isOver => ?_, fun j member runs => ?_⟩
  · rcases eq_or_ne j i with rfl | differ
    · rw [Objects.put_self, RequestRecord.enter_requestId]
    · rw [Objects.put_of_ne differ]
  · refine Objects.put_of_ne ?_
    rintro rfl
    rw [RequestState.allowed_of_terminal isOver] at allowed
    cases allowed
  · rcases eq_or_ne j i with rfl | differ
    · rw [Objects.put_self]
      exact Or.inr (quiet member runs)
    · rw [Objects.put_of_ne differ]
      exact Or.inl runs

/-- What holds of the requests of a batch: each runs, or is over. -/
theorem alive (onward : Onward selected objects objects')
    (alive : ∀ i ∈ selected, (objects i).status = .running ∨ (objects i).terminal = true) :
    ∀ i ∈ selected, (objects' i).status = .running ∨ (objects' i).terminal = true := by
  intro i member
  rcases alive i member with runs | isOver
  · exact onward.running i member runs
  · exact Or.inr (onward.ended i isOver ▸ isOver)

end Objects.Onward

namespace ManagedWorker

open Objects

variable {p p' : WorkerProcess} {selected : List ObjectId} {now : Seconds}

def activity (w : ManagedWorker) : Activity := ⟨w.activeBatchCount, w.active, w.activeRequests⟩

theorem enqueueRequest_onward (i : ObjectId) (now : Seconds) (p : WorkerProcess) :
    (enqueueRequest i now p).2.worker.activity = p.worker.activity ∧
      Onward selected p.objects (enqueueRequest i now p).2.objects := by
  unfold enqueueRequest
  dsimp only
  split
  · exact ⟨rfl, .refl⟩
  split
  · exact ⟨rfl, .refl⟩
  split
  · exact ⟨rfl, .refl⟩
  split
  · exact ⟨rfl, .refl⟩
  split
  · exact ⟨rfl, .refl⟩
  rename_i assigned
  have status := not_not.mp assigned
  refine ⟨rfl, .put_enter ?_ fun _ runs => ?_⟩
  · rw [status]
    decide
  · rw [status] at runs
    cases runs

/-- `cancel_request` marks what it finds in the queue, or else among the active requests. -/
def cancelTarget (requestId : String) (p : WorkerProcess) : Option ObjectId :=
  (p.worker.queue.find? fun i => (p.objects i).requestId = requestId).or (p.worker.activeRequests.get? requestId)

theorem cancelRequest_onward (requestId : String) (now : Seconds) (p : WorkerProcess) :
    (cancelRequest requestId now p).2.worker.activity = p.worker.activity ∧
      Onward selected p.objects (cancelRequest requestId now p).2.objects ∧
      ((cancelRequest requestId now p).1 = .ok true →
        ∃ i, cancelTarget requestId p = some i ∧ ((cancelRequest requestId now p).2.objects i).status = .cancelled) := by
  have marked : ∀ i, ((p.objects.put i ((p.objects i).enter .cancelled now)) i).status = .cancelled := by
    intro i
    rw [Objects.put_self, RequestRecord.enter_status]
  unfold cancelRequest cancelTarget
  split
  · rename_i i found
    rw [found]
    dsimp only
    rcases (p.objects i).transition_cases .cancelled now with ⟨allowed, run⟩ | ⟨-, raised, run, -⟩ <;> rw [run]
    · exact ⟨rfl, .put_enter allowed fun _ _ => rfl, fun _ => ⟨i, rfl, marked i⟩⟩
    · exact ⟨rfl, .refl, fun same => by cases same⟩
  · rename_i absent
    rw [absent]
    split
    · exact ⟨rfl, .refl, fun same => by cases same⟩
    rename_i i active
    rw [active]
    split
    · exact ⟨rfl, .refl, fun same => by cases same⟩
    rcases (p.objects i).transition_cases .cancelled now with ⟨allowed, run⟩ | ⟨-, raised, run, -⟩ <;> rw [run]
    · exact ⟨rfl, .put_enter allowed fun _ _ => rfl, fun _ => ⟨i, rfl, marked i⟩⟩
    · exact ⟨rfl, .refl, fun same => by cases same⟩

theorem failQueued_onward (at_ : ObjectId → Seconds) (queue : List ObjectId) (objects : Objects) :
    Onward selected objects (failQueued at_ queue objects).2.2 ∧ (failQueued at_ queue objects).2.1.Sublist queue ∧
      ∀ j, (failQueued at_ queue objects).2.2 j = objects j ∨ ((failQueued at_ queue objects).2.2 j).terminal = true ∧
        ((failQueued at_ queue objects).2.2 j).estimatedTokens = (objects j).estimatedTokens := by
  induction queue generalizing objects with
  | nil => exact ⟨.refl, .slnil, fun _ => Or.inl rfl⟩
  | cons i rest ih =>
    unfold failQueued
    rcases (objects i).transition_cases .failed (at_ i) with ⟨allowed, run⟩ | ⟨-, raised, run, -⟩ <;> rw [run]
    · obtain ⟨onward, fewer, kept⟩ := ih (objects.put i ((objects i).enter .failed (at_ i)))
      refine ⟨.trans (.put_enter allowed fun _ _ => rfl) onward, fewer.cons _, fun j => ?_⟩
      rcases eq_or_ne j i with rfl | differ
      · have same := onward.ended j (by rw [Objects.put_self]; rfl)
        rw [Objects.put_self] at same
        dsimp only
        rw [same]
        exact Or.inr ⟨rfl, rfl⟩
      · have before := kept j
        rw [Objects.put_of_ne differ] at before
        exact before
    · exact ⟨.refl, List.sublist_cons_self _ _, fun _ => Or.inl rfl⟩

/-- The requests of a batch are closed: each that runs may be, and all are over then. -/
theorem closeAll_onward {target : RequestState} (at_ : ObjectId → Seconds) (ends : target ∈ RequestState.running.allowed)
    (final : target.isTerminal = true)
    (alive : ∀ i ∈ selected, (p.objects i).status = .running ∨ (p.objects i).terminal = true) :
    ∃ objects, closeAll target at_ selected p = (.ok (), ⟨p.worker, objects⟩) ∧ Onward selected p.objects objects ∧
      (∀ i ∈ selected, (objects i).terminal = true) ∧ ∀ i ∉ selected, objects i = p.objects i := by
  have ready : ∀ i ∈ selected, (p.objects i).terminal = false → target ∈ (p.objects i).status.allowed := by
    intro i member waits
    rcases alive i member with runs | isOver
    · rwa [runs]
    · rw [isOver] at waits
      cases waits
  refine ⟨_, closeAll_ok at_ selected p final ready, ⟨fun j => closed_requestId j, ?_, fun j isOver => ?_, fun j member runs => ?_⟩,
    fun i member => ?_, fun i outside => if_neg fun both => outside both.1⟩
  · funext j
    unfold Objects.models closed
    split <;> rfl
  · refine if_neg fun both => ?_
    rw [isOver] at both
    cases both.2
  · have waits : (p.objects j).terminal = false := by
      rw [RequestRecord.terminal, runs]
      rfl
    refine Or.inr ?_
    rw [closed, if_pos ⟨member, waits⟩]
    exact final
  · unfold closed
    split
    · exact final
    · rename_i kept
      exact Bool.not_eq_false _ ▸ fun waits => kept ⟨member, waits⟩

theorem start_requests {i : ObjectId} (run : start now i p = (.ok (), p')) :
    p'.worker.activeBatchCount = p.worker.activeBatchCount ∧
      p'.worker.activeRequests = p.worker.activeRequests.insert (p.objects i).requestId i ∧
      ∀ j, (p'.objects j).requestId = (p.objects j).requestId := by
  have ids : ∀ j, (p.objects.put i ((p.objects i).enter .running now) j).requestId = (p.objects j).requestId := by
    intro j
    rcases eq_or_ne j i with rfl | differ
    · rw [Objects.put_self, RequestRecord.enter_requestId]
    · rw [Objects.put_of_ne differ]
  unfold start at run
  rcases (p.objects i).transition_cases .running now with ⟨allowed, moved⟩ | ⟨-, raised, moved, -⟩ <;> rw [moved] at run <;>
    cases run
  exact ⟨rfl, rfl, ids⟩

/-- The requests that a worker lists as active once a batch is started. -/
theorem startAll_requests (run : startAll now selected p = (.ok (), p')) :
    p'.worker.activeBatchCount = p.worker.activeBatchCount ∧
      ∀ id j, p'.worker.activeRequests.get? id = some j →
        p.worker.activeRequests.get? id = some j ∨ j ∈ selected ∧ (p.objects j).requestId = id := by
  induction selected generalizing p with
  | nil =>
    cases run
    exact ⟨rfl, fun _ _ found => Or.inl found⟩
  | cons i rest ih =>
    unfold startAll at run
    rcases first : start now i p with ⟨raised | done, q⟩
    · rw [Attempt.bind_error first] at run
      cases run
    rw [Attempt.bind_ok first] at run
    obtain ⟨count, listed, ids⟩ := start_requests first
    obtain ⟨counts, lists⟩ := ih run
    refine ⟨counts.trans count, fun id j found => ?_⟩
    rcases lists id j found with before | ⟨member, named⟩
    · rw [listed, Dict.get?_insert] at before
      split at before
      · rename_i here
        cases before
        exact Or.inr ⟨List.mem_cons_self, here.symm⟩
      · exact Or.inl before
    · exact Or.inr ⟨List.mem_cons_of_mem _ member, (ids j).symm.trans named⟩

theorem gather_extends {w : ManagedWorker} {first : RequestRecord} {tokens : Nat} {queue chosen left : List ObjectId}
    {objects objects' : Objects} (gathered : w.gather first now selected tokens queue objects = (.ok (chosen, left), objects')) :
    selected <+: chosen := by
  induction queue generalizing selected tokens objects chosen left with
  | nil =>
    cases gathered
    exact List.prefix_rfl
  | cons i rest ih =>
    unfold gather at gathered
    split at gathered
    · cases gathered
      exact List.prefix_rfl
    split at gathered
    · exact ih gathered
    split at gathered
    · split at gathered
      · exact ih gathered
      · cases gathered
    split at gathered
    · exact (List.prefix_append _ _).trans (ih gathered)
    · split at gathered <;> cases gathered
      rename_i later
      exact ih later

/-- A batch is counted with its requests, unless there is none. -/
theorem beginBatch_activity (run : beginBatch now p = (.ok selected, p')) :
    selected = [] ∧ p'.worker.activity = p.worker.activity ∨
      selected ≠ [] ∧ p'.worker.activeBatchCount = p.worker.activeBatchCount + 1 ∧
        (∀ modelId, p'.worker.active modelId = p.worker.active modelId + share p.objects.models selected modelId) ∧
        ∀ id j, p'.worker.activeRequests.get? id = some j →
          p.worker.activeRequests.get? id = some j ∨ j ∈ selected ∧ (p.objects j).requestId = id := by
  have skipped := skipExpired_skipped now p.worker.queue p.objects
  unfold beginBatch at run
  rcases skip : skipExpired now p.worker.queue p.objects with ⟨raised | done, queue, objects⟩
  · rw [skip] at run
    cases run
  rw [skip] at run skipped
  cases queue with
  | nil =>
    cases run
    exact Or.inl ⟨rfl, rfl⟩
  | cons i rest =>
    have gathered := p.worker.gather_skipped (objects i) now [i] (objects i).estimatedTokens rest objects
    dsimp only at run
    rcases gather : p.worker.gather (objects i) now [i] (objects i).estimatedTokens rest objects with
      ⟨⟨raised, queue⟩ | ⟨chosen, queue⟩, objects'⟩
    · rw [gather] at run
      cases run
    rw [gather] at run gathered
    dsimp only at run
    have same : ∀ j, (objects' j).requestId = (p.objects j).requestId ∧ (objects' j).modelId = (p.objects j).modelId := by
      intro j
      have moved := (skipped j).trans (gathered j)
      exact ⟨(RequestRecord.Opened.skipped moved).requestId, moved.modelId⟩
    have models : objects'.models = p.objects.models := funext fun j => (same j).2
    rcases started : startAll now chosen ⟨{ p.worker with queue := queue }, objects'⟩ with ⟨raised | done, q⟩
    · rw [Attempt.bind_error started] at run
      cases run
    rw [Attempt.bind_ok started] at run
    obtain ⟨count, lists⟩ := startAll_requests started
    have counted := fun modelId => (@startAll_active modelId now chosen ⟨{ p.worker with queue := queue }, objects'⟩).2
    rw [started] at counted
    cases run
    refine Or.inr ⟨?_, ?_, fun modelId => ?_, fun id j found => ?_⟩
    · rintro rfl
      cases (gather_extends gather).length_le
    · exact congrArg (· + 1) count
    · rw [← models]
      exact counted modelId rfl
    · rcases lists id j found with before | ⟨member, named⟩
      · exact Or.inl before
      · exact Or.inr ⟨member, (same j).1.symm.trans named⟩

/-- The requests of a batch that retires are no longer listed. -/
theorem retire_requests (selected : List ObjectId) (p : WorkerProcess) :
    (retire selected p).worker.activeBatchCount = p.worker.activeBatchCount - 1 ∧
      ∀ id j, (retire selected p).worker.activeRequests.get? id = some j →
        p.worker.activeRequests.get? id = some j ∧ ∀ i ∈ selected, (p.objects i).requestId ≠ id := by
  have general : ∀ w : ManagedWorker,
      let w' := selected.foldl (fun w i =>
        let counted := w.countActive (p.objects i).modelId (-1)
        { counted with activeRequests := counted.activeRequests.erase (p.objects i).requestId }) w
      w'.activeBatchCount = w.activeBatchCount ∧ ∀ id j, w'.activeRequests.get? id = some j →
        w.activeRequests.get? id = some j ∧ ∀ i ∈ selected, (p.objects i).requestId ≠ id := by
    induction selected with
    | nil => exact fun w => ⟨rfl, fun id j found => ⟨found, fun i member => by cases member⟩⟩
    | cons i rest ih =>
      intro w
      obtain ⟨count, lists⟩ := ih { w.countActive (p.objects i).modelId (-1) with
        activeRequests := (w.countActive (p.objects i).modelId (-1)).activeRequests.erase (p.objects i).requestId }
      refine ⟨count, fun id j found => ?_⟩
      obtain ⟨before, others⟩ := lists id j found
      rw [Dict.get?_erase] at before
      split at before
      · cases before
      · rename_i differ
        refine ⟨before, fun other member => ?_⟩
        rcases List.mem_cons.mp member with rfl | member
        · exact Ne.symm differ
        · exact others other member
  exact general _

end ManagedWorker

end ServingPlatform
