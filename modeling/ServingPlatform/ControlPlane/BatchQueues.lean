import Mathlib.Data.List.Perm.Subperm
import ServingPlatform.ControlPlane.BatchSteps

namespace ServingPlatform.ManagedWorker

variable {now : Seconds} {objects : Objects} {queue selected : List ObjectId} {p p' : WorkerProcess}

/-- Looking at the front of a queue only takes requests out. -/
theorem skipExpired_sublist (now : Seconds) (queue : List ObjectId) (objects : Objects) :
    (skipExpired now queue objects).2.1.Sublist queue := by
  induction queue generalizing objects with
  | nil => exact .slnil
  | cons i rest induct =>
    unfold skipExpired
    split
    · exact (induct objects).cons i
    split
    · rcases (objects i).transition_cases .timedOut now with ⟨-, run⟩ | ⟨-, raised, run, -⟩
      · rw [run]
        exact (induct _).cons i
      · rw [run]
        exact List.sublist_cons_self i rest
    · exact List.Sublist.refl _

theorem nodup_of_subperm (fewer : selected.Subperm queue) (distinct : queue.Nodup) : selected.Nodup := by
  obtain ⟨chosen, perm, sublist⟩ := fewer
  exact perm.nodup_iff.mp (distinct.sublist sublist)

/-- The requests that a gathering leaves: those it selects, and its queue. -/
def kept : Except (Raised × List ObjectId) (List ObjectId × List ObjectId) → List ObjectId
  | .ok (selected, queue) => selected ++ queue
  | .error (_, queue) => queue

/-- A gathering moves requests from the queue into the batch, or drops them. -/
theorem gather_subperm (w : ManagedWorker) (first : RequestRecord) (now : Seconds) (selected : List ObjectId)
    (tokens : Nat) (queue : List ObjectId) (objects : Objects) :
    (kept (w.gather first now selected tokens queue objects).1).Subperm (selected ++ queue) := by
  have drops : ∀ {chosen : List ObjectId} (selected rest : List ObjectId) (i : ObjectId),
      chosen.Subperm (selected ++ rest) → chosen.Subperm (selected ++ i :: rest) := fun selected rest i before =>
    before.trans ((List.sublist_cons_self i rest).append_left selected).subperm
  induction queue generalizing selected tokens objects with
  | nil => exact List.Subperm.refl _
  | cons i rest induct =>
    unfold gather
    split
    · exact List.Subperm.refl _
    split
    · exact drops _ _ _ (induct selected tokens objects)
    split
    · rcases (objects i).transition_cases .timedOut now with ⟨-, run⟩ | ⟨-, raised, run, -⟩
      · rw [run]
        exact drops _ _ _ (induct selected tokens _)
      · rw [run]
        exact ((List.sublist_cons_self i rest).trans (List.sublist_append_right selected _)).subperm
    split
    · have joined := induct (selected ++ [i]) (tokens + (objects i).estimatedTokens) objects
      rwa [List.append_assoc, List.singleton_append] at joined
    · have later := induct selected tokens objects
      split
      · rename_i chosen queue objects' run
        rw [run] at later
        have moved : (chosen ++ i :: queue).Perm (i :: (chosen ++ queue)) := List.perm_middle
        have placed : (selected ++ i :: rest).Perm (i :: (selected ++ rest)) := List.perm_middle
        exact (moved.subperm.trans ((List.subperm_cons i).mpr later)).trans placed.symm.subperm
      · rename_i raised objects' run
        rw [run] at later
        exact drops _ _ _ later

theorem startAll_queue (now : Seconds) (selected : List ObjectId) :
    (startAll now selected).Keeps fun p => p.worker.queue := by
  induction selected with
  | nil => exact Attempt.keeps_pure _
  | cons i rest induct =>
    refine .bind (fun p => ?_) fun _ => induct
    unfold start
    split <;> rfl

/-- A batch and what then remains queued was queued before. -/
theorem beginBatch_subperm (now : Seconds) (p : WorkerProcess) :
    (((beginBatch now p).1.toOption.getD []) ++ (beginBatch now p).2.worker.queue).Subperm p.worker.queue := by
  have shorter := skipExpired_sublist now p.worker.queue p.objects
  unfold beginBatch
  rcases skip : skipExpired now p.worker.queue p.objects with ⟨raised | done, queue, objects⟩
  · rw [skip] at shorter
    exact shorter.subperm
  cases done
  rw [skip] at shorter
  cases queue with
  | nil => exact List.nil_subperm
  | cons i rest =>
    have fewer := p.worker.gather_subperm (objects i) now [i] (objects i).estimatedTokens rest objects
    dsimp only
    rcases gather : p.worker.gather (objects i) now [i] (objects i).estimatedTokens rest objects with
      ⟨⟨raised, queue⟩ | ⟨selected, queue⟩, objects'⟩
    · rw [gather] at fewer
      exact fewer.trans shorter.subperm
    · rw [gather] at fewer
      have queues := startAll_queue now selected ⟨{ p.worker with queue := queue }, objects'⟩
      dsimp only
      rcases run : startAll now selected ⟨{ p.worker with queue := queue }, objects'⟩ with ⟨raised | done, p'⟩
      · have queued : p'.worker.queue = queue := by
          rw [run] at queues
          exact queues
        rw [Attempt.bind_error run]
        change p'.worker.queue.Subperm _
        rw [queued]
        exact ((List.sublist_append_right selected queue).subperm.trans fewer).trans shorter.subperm
      · have queued : p'.worker.queue = queue := by
          rw [run] at queues
          exact queues
        rw [Attempt.bind_ok run]
        change (selected ++ p'.worker.queue).Subperm _
        rw [queued]
        exact fewer.trans shorter.subperm

end ServingPlatform.ManagedWorker
