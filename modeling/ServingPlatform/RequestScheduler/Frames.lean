import ServingPlatform.RequestScheduler.Loop

namespace ServingPlatform

namespace Scheduling

variable {settings : SchedulerSettings} {s : Scheduling} {r q : RequestRef}

@[simp] theorem status_set {item : InferenceRequest} :
    (s.set r item).status q = if q = r then item.status else s.status q := by
  unfold status set Function.update
  dsimp only
  split
  · rename_i same
    subst same
    rfl
  · rfl

/-- A request whose status is written back keeps it, as all others do. -/
theorem status_set_same {item : InferenceRequest} (same : item.status = s.status r) :
    (s.set r item).status q = s.status q := by
  rw [status_set]
  split
  · rename_i here
    rw [here, same]
  · rfl

@[simp] theorem status_finish {status : RequestStatus} {errorMessage : String} :
    (s.finish r status errorMessage).status q = if q = r then status else s.status q := by
  unfold finish
  split <;> exact status_set

@[simp] theorem status_record : (s.record r).status q = s.status q := by
  have kept : (s.set r { s.requests r with metricsRecorded := true }).status q = s.status q := status_set_same rfl
  exact kept

@[simp] theorem status_finishTimeout : (s.finishTimeout r).status q = if q = r then .timeout else s.status q := by
  unfold finishTimeout
  rw [status_record, status_finish]

@[simp] theorem status_measure {f : Metrics → Metrics} : (s.measure f).status q = s.status q := rfl

@[simp] theorem status_monotonic : s.monotonic.2.status q = s.status q := rfl

@[simp] theorem status_timedOut {timeout : Seconds} : (s.timedOut r timeout).2.status q = s.status q := rfl

theorem status_turnAway (item : Option RequestRef) :
    (s.turnAway item).status q = if some q = item then .rejected else s.status q := by
  cases item with
  | none => rfl
  | some r =>
    unfold turnAway
    rw [status_measure, status_finish]
    simp

/-- `queue.task_done()` takes one off the count, or raises. -/
theorem taskDone_cases (s : Scheduling) :
    (s.queue.unfinished = 0 ∧ ∃ e, s.taskDone = (.error e, s)) ∨
      ∃ n, s.queue.unfinished = n + 1 ∧ s.taskDone = (.ok (), { s with queue := { s.queue with unfinished := n } }) := by
  unfold taskDone AsyncQueue.taskDone
  cases s.queue.unfinished with
  | zero => exact Or.inl ⟨rfl, _, rfl⟩
  | succ n => exact Or.inr ⟨n, rfl, rfl⟩

/-- `queue.put_nowait(item)` appends, or raises. -/
theorem putNowait_cases (s : Scheduling) (item : Option RequestRef) :
    (s.queue.full = true ∧ s.putNowait item = (.error queueFull, s)) ∨
      (s.queue.full = false ∧ s.putNowait item = (.ok (),
        { s with queue := { s.queue with items := s.queue.items ++ [item], unfinished := s.queue.unfinished + 1 } })) := by
  unfold putNowait AsyncQueue.putNowait
  cases s.queue.full with
  | true => exact Or.inl ⟨rfl, rfl⟩
  | false => exact Or.inr ⟨rfl, rfl⟩

theorem queue_finish {status : RequestStatus} {errorMessage : String} :
    (s.finish r status errorMessage).queue = s.queue := by
  unfold finish
  split <;> rfl

theorem accepting_finish {status : RequestStatus} {errorMessage : String} :
    (s.finish r status errorMessage).accepting = s.accepting := by
  unfold finish
  split <;> rfl

theorem queue_turnAway (item : Option RequestRef) : (s.turnAway item).queue = s.queue := by
  cases item with
  | none => rfl
  | some r => exact queue_finish

theorem submit_cases (s : Scheduling) (r : RequestRef) :
    ((s.accepting = false ∨ s.queue.full = true) ∧
      ∃ e t message, s.submit r = (.error e, t.finish r .rejected message) ∧
        (t = s.createFuture r ∨ t = (s.createFuture r).markQueued r)) ∨
      (s.accepting = true ∧ s.queue.full = false ∧ ∃ size, s.submit r = (.ok (),
        { (s.createFuture r).markQueued r with
          queue := { s.queue with items := s.queue.items ++ [some r], unfinished := s.queue.unfinished + 1 }
          maxObservedSize := size })) := by
  unfold submit AsyncQueue.putNowait
  dsimp only
  cases closed : s.accepting with
  | false =>
    rw [if_pos (show (s.createFuture r).accepting = false from closed)]
    exact Or.inl ⟨Or.inl rfl, _, _, _, rfl, Or.inl rfl⟩
  | true =>
    rw [if_neg (show ¬(s.createFuture r).accepting = false from by simp [createFuture, set, closed])]
    cases full : s.queue.full with
    | true =>
      rw [if_pos (show ((s.createFuture r).markQueued r).queue.full = true from full)]
      exact Or.inl ⟨Or.inr rfl, _, _, _, rfl, Or.inr rfl⟩
    | false =>
      rw [if_neg (show ¬((s.createFuture r).markQueued r).queue.full = true from by
        rw [show ((s.createFuture r).markQueued r).queue.full = false from full]; decide)]
      exact Or.inr ⟨rfl, rfl, _, rfl⟩

@[simp] theorem requests_taskDone : s.taskDone.2.requests = s.requests := by
  unfold taskDone
  split <;> rfl

@[simp] theorem requests_itemDone {fromQueue : Bool} : (s.itemDone fromQueue).2.requests = s.requests := by
  unfold itemDone
  split
  · exact requests_taskDone
  · rfl

@[simp] theorem requests_putNowait {item : Option RequestRef} : (s.putNowait item).2.requests = s.requests := by
  unfold putNowait
  split <;> rfl

theorem requests_get? {item : Option RequestRef} {s' : Scheduling} (taken : s.get? = some (item, s')) :
    s'.requests = s.requests := by
  unfold get? at taken
  split at taken
  · cases taken
  · cases taken
    rfl

@[simp] theorem requests_releaseItems (n : Nat) : (s.releaseItems n).2.requests = s.requests := by
  induction n generalizing s with
  | zero => rfl
  | succ n ih =>
    have kept := s.requests_taskDone
    unfold releaseItems
    split
    · rename_i done
      rw [done] at kept
      exact kept
    · rename_i done
      rw [done] at kept
      exact ih.trans kept

@[simp] theorem requests_leave {n : Nat} {fromQueue : Bool} {result : Except Raised Unit} :
    (s.leave n fromQueue result).2.requests = s.requests :=
  requests_itemDone.trans (s.requests_releaseItems n)

theorem status_congr {s' : Scheduling} (same : s'.requests = s.requests) : s'.status q = s.status q := by
  rw [status, same, status]

@[simp] theorem status_setCollection {collected : Int} {l : List RequestRef} :
    (s.setCollection collected l).status q = s.status q := by
  induction l generalizing s with
  | nil => rfl
  | cons r rest ih => exact ih.trans (status_set_same rfl)

@[simp] theorem status_setBatchSize {size : Nat} {l : List RequestRef} :
    (s.setBatchSize size l).status q = s.status q := by
  induction l generalizing s with
  | nil => rfl
  | cons r rest ih => exact ih.trans (status_set_same rfl)

@[simp] theorem status_endCollection {fromQueue : Option Bool} {c : Collecting} :
    (s.endCollection fromQueue c).2.status q = s.status q := by
  unfold endCollection
  cases fromQueue <;> exact status_setCollection

@[simp] theorem status_fail {message : String} : (s.fail r message).status q = if q = r then .failed else s.status q :=
  status_set

@[simp] theorem status_recordAndFinish : (s.recordAndFinish r).status q = s.status q := by
  unfold recordAndFinish
  rw [status_finish, status_record, status_record]
  split
  · rename_i same
    rw [same]
  · rfl

@[simp] theorem status_createFuture : (s.createFuture r).status q = s.status q := status_set_same rfl

@[simp] theorem status_markQueued : (s.markQueued r).status q = if q = r then .queued else s.status q := status_set

@[simp] theorem accepting_createFuture : (s.createFuture r).accepting = s.accepting := rfl

@[simp] theorem queue_createFuture : (s.createFuture r).queue = s.queue := rfl

@[simp] theorem queue_markQueued : (s.markQueued r).queue = s.queue := rfl

theorem timedOut_congr {s' : Scheduling} {timeout : Seconds} (clock : s'.clock = s.clock)
    (deadline : (s'.requests r).deadlineAt = (s.requests r).deadlineAt)
    (queued : (s'.requests r).queuedAt = (s.requests r).queuedAt) :
    (s'.timedOut r timeout).1 = (s.timedOut r timeout).1 := by
  unfold timedOut InferenceRequest.timedOut monotonic
  dsimp only
  rw [clock, deadline, queued]

/-- The status that a request with a result gets. -/
def outcome (settings : SchedulerSettings) (s : Scheduling) (r : RequestRef) : RequestStatus :=
  if s.status r = .cancelled then .cancelled
  else if (s.timedOut r settings.requestTimeout).1 then .timeout else .completed

@[simp] theorem status_deliver {result : GenerationResult} {completed : Seconds} :
    (s.deliver settings r result completed).status q = if q = r then s.outcome settings r else s.status q := by
  unfold deliver outcome
  have kept : ∀ completedAt, (s.set r ({ s.requests r with completedAt }.withResult result)).status q = s.status q :=
    fun _ => status_set_same rfl
  have expired : ∀ completedAt,
      ((s.set r ({ s.requests r with completedAt }.withResult result)).timedOut r settings.requestTimeout).1 =
        (s.timedOut r settings.requestTimeout).1 := by
    intro completedAt
    refine timedOut_congr rfl ?_ ?_ <;> (unfold set; dsimp only; rw [Function.update_self]; rfl)
  dsimp only
  rw [expired]
  split <;> rw [status_set]
  · rw [kept]
  · rw [status_timedOut, kept]

@[simp] theorem status_consider {c : Collecting} {fromQueue : Bool} :
    (s.consider settings c r fromQueue).2.status q =
      if q = r ∧ (s.timedOut r settings.requestTimeout).1 = true then .timeout else s.status q := by
  unfold consider
  dsimp only
  split
  · rename_i expired
    rw [status_congr requests_itemDone, status_finishTimeout, status_timedOut]
    simp [expired]
  rename_i early
  have same : (if q = r ∧ (s.timedOut r settings.requestTimeout).1 = true then RequestStatus.timeout else s.status q) =
      s.status q := if_neg fun both => early both.2
  rw [same]
  split
  · rw [status_congr requests_itemDone, status_record, status_timedOut]
  split
  · rfl
  split
  · have kept : ((s.timedOut r settings.requestTimeout).2.putNowait (some r)).2.requests = s.requests := requests_putNowait
    split
    · rename_i put
      rw [put] at kept
      exact status_congr kept
    · rename_i put
      rw [put] at kept
      exact (status_congr requests_itemDone).trans (status_congr kept)
  · exact status_congr requests_itemDone

end Scheduling

end ServingPlatform
