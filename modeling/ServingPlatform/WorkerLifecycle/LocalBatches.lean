import Mathlib.Logic.Relation
import ServingPlatform.ControlPlane.BatchSelection
import ServingPlatform.ControlPlane.Reservations
import ServingPlatform.WorkerLifecycle.Sections

namespace ServingPlatform.ManagedWorker

variable {p p' : WorkerProcess} {selected : List ObjectId} {now : Seconds}

theorem finishBatch_queue (selected : List ObjectId) (generated : Except Raised (List RuntimeResult)) (failedAt : Seconds)
    (completedAt : ObjectId → Seconds) (p : WorkerProcess) :
    (finishBatch selected generated failedAt completedAt p).2.worker.queue = p.worker.queue := by
  have closes : ∀ target at_, (closeAll target at_ selected).Keeps fun p => p.worker.queue := fun target at_ p =>
    congrArg (fun reading => reading.1.queue) (closeAll_worker target at_ selected p)
  have retires : ∀ p, (retire selected p).worker.queue = p.worker.queue := fun p => (retire_frame selected p).2.1
  unfold finishBatch
  dsimp only
  split
  · rename_i raised _
    exact ((closes .failed fun _ => failedAt).bind fun _ => Attempt.keeps_raise raised).ensure retires p
  · exact (((closes .completed completedAt).bind fun _ => Attempt.keeps_read _) (retire selected p)).trans (retires p)

/-- A batch that was opened ends without a change of the queue or of another request. -/
theorem executeBatch_frame {inputs : BatchInputs} (run : beginBatch inputs.now p = (.ok selected, p'))
    (running : ∀ i ∈ selected, (p'.objects i).status = .running) :
    (executeBatch inputs p).2.worker.queue = p'.worker.queue ∧
      ∀ i ∉ selected, (executeBatch inputs p).2.objects i = p'.objects i := by
  unfold executeBatch
  rw [Attempt.bind_ok run]
  by_cases none : selected = []
  · rw [if_pos none]
    exact ⟨rfl, fun _ _ => rfl⟩
  rw [if_neg none]
  refine ⟨finishBatch_queue selected inputs.generated inputs.failedAt inputs.completedAt p', fun i outside => ?_⟩
  have closed_outside : ∀ target at_, closed target at_ selected p'.objects i = p'.objects i := fun target at_ =>
    if_neg fun both => outside both.1
  rcases @finishBatch_cases selected inputs.generated inputs.failedAt inputs.completedAt p' running with
    ⟨-, raised, final, run, after⟩ | ⟨results, final, -, -, run, after⟩
  · rw [run]
    exact (congrFun after i).trans (closed_outside _ _)
  · rw [run]
    exact (congrFun after i).trans (closed_outside _ _)

/-- `execute_batch` on any local queue: what it runs, and what it leaves. -/
theorem executeBatch_selects (queued : LocalQueue p) (inputs : BatchInputs) :
    ∃ selected p', beginBatch inputs.now p = (.ok selected, p') ∧ Selects inputs.now p selected p' ∧
      (executeBatch inputs p).2.worker.queue = p'.worker.queue ∧
      ∀ i ∉ selected, (executeBatch inputs p).2.objects i = p'.objects i := by
  obtain ⟨selected, p', run, selects, -, running⟩ := beginBatch_selects queued inputs.now
  obtain ⟨queue, others⟩ := executeBatch_frame run running
  exact ⟨selected, p', run, selects, queue, others⟩

namespace Sample

def request : RequestRecord := Plane.Rejected.request.enter .queued 0

/-- An expired request, two that can run together, and one between them that cannot join. -/
def objects : Objects
  | 0 => { request with deadline := .finite 0 }
  | 2 => { request with maxNewTokens := 3, positive := Nat.succ_pos 2 }
  | _ => request

def process : WorkerProcess := ⟨{ Plane.Rejected.worker with queue := [0, 1, 2, 3] }, objects⟩

theorem queued : LocalQueue process := by
  refine ⟨by decide, ?_, ?_⟩ <;> intro i member <;> simp only [process, List.mem_cons, List.not_mem_nil, or_false] at member <;>
    rcases member with rfl | rfl | rfl | rfl <;> first | exact Or.inr rfl | decide

end Sample

open Sample in
theorem executeBatch_selects_sample :
    ∃ p', beginBatch 1 process = (.ok [1, 3], p') ∧ Selects 1 process [1, 3] p' := by
  obtain ⟨selected, p', run, selects, -⟩ := executeBatch_selects queued ⟨1, .ok [], 1, fun _ => 1⟩
  have known : (beginBatch 1 process).1 = .ok [1, 3] := rfl
  rw [run] at known
  cases known
  exact ⟨p', run, selects⟩

section Reachability

/-- A local queue keeps its form where requests leave it or are only touched by a last transition. -/
theorem LocalQueue.of_fewer (queued : LocalQueue p) (fewer : p'.worker.queue.Sublist p.worker.queue)
    (budget : p'.worker.maxBatchTokens = p.worker.maxBatchTokens)
    (kept : ∀ i ∈ p'.worker.queue, p'.objects i = p.objects i ∨
      (p'.objects i).terminal = true ∧ (p'.objects i).estimatedTokens = (p.objects i).estimatedTokens) :
    LocalQueue p' := by
  refine ⟨queued.distinct.sublist fewer, fun i member => ?_, fun i member => ?_⟩
  · rcases kept i member with same | ⟨ended, -⟩
    · rw [same]
      exact queued.waiting i (fewer.subset member)
    · exact Or.inl ended
  · have fits := queued.fitting i (fewer.subset member)
    rcases kept i member with same | ⟨-, tokens⟩
    · rwa [same, budget]
    · rwa [tokens, budget]

theorem LocalQueue.enqueue (queued : LocalQueue p) (i : ObjectId) (at_ : Seconds) : LocalQueue (enqueueRequest i at_ p).2 := by
  unfold enqueueRequest
  dsimp only
  split
  · exact queued
  split
  · exact queued
  split
  · exact queued
  split
  · exact queued
  split
  · exact queued
  rename_i small assigned
  have status := not_not.mp assigned
  have absent : i ∉ p.worker.queue := by
    intro member
    rcases queued.waiting i member with ended | waits
    · rw [RequestRecord.terminal, status] at ended
      cases ended
    · rw [status] at waits
      cases waits
  have others : ∀ {j : ObjectId} {r : RequestRecord}, j ∈ p.worker.queue → p.objects.put i r j = p.objects j :=
    fun member => Objects.put_of_ne fun same => absent (same ▸ member)
  refine ⟨List.nodup_append.mpr ⟨queued.distinct, List.nodup_singleton i, ?_⟩, ?_, ?_⟩
  · rintro j member k new rfl
    exact absent (List.mem_singleton.mp new ▸ member)
  · intro j member
    dsimp only at member ⊢
    rcases List.mem_append.mp member with old | new
    · rw [others old]
      exact queued.waiting j old
    · rw [List.mem_singleton.mp new, Objects.put_self]
      exact Or.inr rfl
  · intro j member
    dsimp only at member ⊢
    rcases List.mem_append.mp member with old | new
    · rw [others old]
      exact queued.fitting j old
    · rw [List.mem_singleton.mp new, Objects.put_self]
      exact not_lt.mp small

theorem LocalQueue.cancel (queued : LocalQueue p) (requestId : String) (at_ : Seconds) :
    LocalQueue (cancelRequest requestId at_ p).2 := by
  have marked : ∀ (i j : ObjectId), (p.objects.put i ((p.objects i).enter .cancelled at_)) j = p.objects j ∨
      ((p.objects.put i ((p.objects i).enter .cancelled at_)) j).terminal = true ∧
        ((p.objects.put i ((p.objects i).enter .cancelled at_)) j).estimatedTokens = (p.objects j).estimatedTokens := by
    intro i j
    rcases eq_or_ne j i with rfl | differ
    · rw [Objects.put_self]
      exact Or.inr ⟨rfl, rfl⟩
    · exact Or.inl (Objects.put_of_ne differ)
  unfold cancelRequest
  split
  · rename_i i found
    dsimp only
    rcases (p.objects i).transition_cases .cancelled at_ with ⟨-, run⟩ | ⟨-, raised, run, -⟩
    · rw [run]
      exact queued.of_fewer List.erase_sublist rfl fun j _ => marked i j
    · rw [run]
      exact queued.of_fewer List.erase_sublist rfl fun j _ => Or.inl rfl
  · split
    · exact queued
    rename_i i found
    split
    · exact queued
    rcases (p.objects i).transition_cases .cancelled at_ with ⟨-, run⟩ | ⟨-, raised, run, -⟩
    · rw [run]
      exact queued.of_fewer (List.Sublist.refl _) rfl fun j _ => marked i j
    · rw [run]
      exact queued

theorem beginBatch_budget (now : Seconds) (p : WorkerProcess) :
    (beginBatch now p).2.worker.maxBatchTokens = p.worker.maxBatchTokens := by
  have starts : ∀ selected, (startAll now selected).Keeps fun p => p.worker.maxBatchTokens := by
    intro selected
    induction selected with
    | nil => exact Attempt.keeps_pure _
    | cons i rest induct =>
      refine .bind (fun p => ?_) fun _ => induct
      unfold start
      split <;> rfl
  unfold beginBatch
  split
  · rfl
  · rfl
  split
  · rfl
  · rename_i selected queue objects _
    exact ((starts selected).bind fun _ => .bind (fun _ => rfl) fun _ => Attempt.keeps_pure _) _

theorem retire_budget (selected : List ObjectId) (p : WorkerProcess) :
    (retire selected p).worker.maxBatchTokens = p.worker.maxBatchTokens := by
  have general : ∀ w : ManagedWorker, (selected.foldl (fun w i =>
      let counted := w.countActive (p.objects i).modelId (-1)
      { counted with activeRequests := counted.activeRequests.erase (p.objects i).requestId }) w).maxBatchTokens =
        w.maxBatchTokens := by
    induction selected with
    | nil => exact fun _ => rfl
    | cons i rest induct => exact fun w => induct _
  exact general _

theorem finishBatch_budget (selected : List ObjectId) (generated : Except Raised (List RuntimeResult))
    (failedAt : Seconds) (completedAt : ObjectId → Seconds) (p : WorkerProcess) :
    (finishBatch selected generated failedAt completedAt p).2.worker.maxBatchTokens = p.worker.maxBatchTokens := by
  have closes : ∀ target at_, (closeAll target at_ selected).Keeps fun p => p.worker.maxBatchTokens := fun target at_ p =>
    congrArg (fun reading => reading.1.maxBatchTokens) (closeAll_worker target at_ selected p)
  unfold finishBatch
  dsimp only
  split
  · rename_i raised _
    exact ((closes .failed fun _ => failedAt).bind fun _ => Attempt.keeps_raise raised).ensure
      (retire_budget selected) p
  · exact (((closes .completed completedAt).bind fun _ => Attempt.keeps_read _) (retire selected p)).trans
      (retire_budget selected p)

/-- What a selection leaves in the queue. -/
theorem LocalQueue.select (queued : LocalQueue p) (selects : Selects now p selected p')
    (budget : p'.worker.maxBatchTokens = p.worker.maxBatchTokens) : LocalQueue p' := by
  refine queued.of_fewer selects.remaining budget fun i member => ?_
  have held := selects.remaining.subset member
  have unselected := ((selects.stays i held).mp member).1
  rw [selects.records i, if_neg unselected, if_pos held]
  unfold scanned
  split
  · exact Or.inr ⟨rfl, rfl⟩
  · exact Or.inl rfl

theorem LocalQueue.execute (queued : LocalQueue p) (inputs : BatchInputs) : LocalQueue (executeBatch inputs p).2 := by
  obtain ⟨selected, p', run, selects, queue, others⟩ := executeBatch_selects queued inputs
  have begun := beginBatch_budget inputs.now p
  rw [run] at begun
  have budget : (executeBatch inputs p).2.worker.maxBatchTokens = p.worker.maxBatchTokens := by
    unfold executeBatch
    rw [Attempt.bind_ok run]
    split
    · exact begun
    · exact (finishBatch_budget _ _ _ _ p').trans begun
  refine (queued.select selects begun).of_fewer (by rw [queue]) (budget.trans begun.symm) fun i member => ?_
  rw [queue] at member
  exact Or.inl (others i ((selects.stays i (selects.remaining.subset member)).mp member).1)

/-- What may happen to a worker's queue: its own calls, and the end of a request by others. -/
inductive QueueStep : WorkerProcess → WorkerProcess → Prop
  | enqueue (p : WorkerProcess) (i : ObjectId) (at_ : Seconds) : QueueStep p (enqueueRequest i at_ p).2
  | cancel (p : WorkerProcess) (requestId : String) (at_ : Seconds) : QueueStep p (cancelRequest requestId at_ p).2
  | execute (p : WorkerProcess) (inputs : BatchInputs) : QueueStep p (executeBatch inputs p).2
  | outside (p : WorkerProcess) (objects : Objects)
      (ended : ∀ i ∈ p.worker.queue, objects i = p.objects i ∨
        (objects i).terminal = true ∧ (objects i).estimatedTokens = (p.objects i).estimatedTokens) :
      QueueStep p { p with objects := objects }

theorem LocalQueue.step (queued : LocalQueue p) (step : QueueStep p p') : LocalQueue p' := by
  cases step with
  | enqueue i at_ => exact queued.enqueue i at_
  | cancel requestId at_ => exact queued.cancel requestId at_
  | execute inputs => exact queued.execute inputs
  | outside objects ended => exact queued.of_fewer (List.Sublist.refl _) rfl ended

/-- Every queue that a worker can come to is a local queue in the sense of the selection. -/
theorem LocalQueue.reached (empty : p.worker.queue = []) (reach : Relation.ReflTransGen QueueStep p p') :
    LocalQueue p' := by
  induction reach with
  | refl =>
    have none : ∀ i, i ∉ p.worker.queue := fun i => by rw [empty]; exact List.not_mem_nil
    exact ⟨by rw [empty]; exact List.nodup_nil, fun i member => absurd member (none i),
      fun i member => absurd member (none i)⟩
  | tail _ step induct => exact induct.step step

end Reachability

end ServingPlatform.ManagedWorker
