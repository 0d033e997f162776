import ServingPlatform.RequestScheduler.Frames

namespace ServingPlatform

namespace Scheduling

/-- At most one request is changed. -/
structure Touches (r : RequestRef) (s s' : Scheduling) : Prop where
  others : ∀ q, q ≠ r → s'.requests q = s.requests q
  queue : s'.queue = s.queue
  accepting : s'.accepting = s.accepting

/-- A submitter has a future, and it is resolved once the request is over. -/
def Tracked (s : Scheduling) (r : RequestRef) : Prop :=
  (s.requests r).future ≠ .missing ∧ ((s.requests r).terminal = true → (s.requests r).future = .resolved)

/-- What is over stays over, and the queue is left alone. -/
structure Calm (s s' : Scheduling) : Prop where
  tracked : ∀ r, s.Tracked r → s'.Tracked r
  isOver : ∀ r, (s.requests r).terminal = true → (s'.requests r).terminal = true
  queue : s'.queue = s.queue
  accepting : s'.accepting = s.accepting

/-- One request ends, and its submitter is told. -/
structure Ends (r : RequestRef) (s s' : Scheduling) : Prop extends Touches r s s' where
  future : (s'.requests r).future = (s.requests r).future.resolve
  terminal : (s'.requests r).terminal = true

variable {settings : SchedulerSettings} {s s' s'' : Scheduling} {r q : RequestRef}

namespace Touches

theorem refl : Touches r s s := ⟨fun _ _ => rfl, rfl, rfl⟩

theorem trans (first : Touches r s s') (second : Touches r s' s'') : Touches r s s'' :=
  ⟨fun q other => (second.others q other).trans (first.others q other), second.queue.trans first.queue,
    second.accepting.trans first.accepting⟩

theorem set {item : InferenceRequest} : Touches r s (s.set r item) :=
  ⟨fun _ other => Function.update_of_ne other _ _, rfl, rfl⟩

theorem monotonic : Touches r s s.monotonic.2 := ⟨fun _ _ => rfl, rfl, rfl⟩

theorem measure {f : Metrics → Metrics} : Touches r s (s.measure f) := ⟨fun _ _ => rfl, rfl, rfl⟩

theorem finish {status : RequestStatus} {errorMessage : String} : Touches r s (s.finish r status errorMessage) := by
  unfold Scheduling.finish
  split
  · exact monotonic.trans set
  · exact set

theorem cancel {reason : String} : Touches r s (s.cancel r reason) := by
  unfold Scheduling.cancel
  split
  · exact refl
  · exact finish

theorem record : Touches r s (s.record r) := ⟨fun _ other => Function.update_of_ne other _ _, rfl, rfl⟩

theorem fail {message : String} : Touches r s (s.fail r message) := monotonic.trans set

theorem deliver {result : GenerationResult} {completed : Seconds} :
    Touches r s (s.deliver settings r result completed) := by
  unfold Scheduling.deliver
  dsimp only
  split
  · exact set.trans set
  · exact (set.trans monotonic).trans set

theorem recordAndFinish : Touches r s (s.recordAndFinish r) := record.trans finish

end Touches

@[simp] theorem requests_set_self {item : InferenceRequest} : (s.set r item).requests r = item :=
  Function.update_self _ _ _

theorem future_finish {status : RequestStatus} {errorMessage : String} :
    ((s.finish r status errorMessage).requests r).future = (s.requests r).future.resolve := by
  unfold finish
  split <;> (rw [requests_set_self]; rfl)

theorem future_record : ((s.record r).requests r).future = (s.requests r).future := by
  have same : (s.record r).requests r = { s.requests r with metricsRecorded := true } := Function.update_self _ _ _
  rw [same]

theorem future_fail {message : String} : ((s.fail r message).requests r).future = (s.requests r).future := by
  unfold fail
  dsimp only
  rw [requests_set_self]
  rfl

theorem future_deliver {result : GenerationResult} {completed : Seconds} :
    ((s.deliver settings r result completed).requests r).future = (s.requests r).future := by
  unfold deliver
  dsimp only
  split
  · rw [requests_set_self, requests_set_self]
    rfl
  · have read : ∀ t : Scheduling, (t.timedOut r settings.requestTimeout).2.requests = t.requests := fun _ => rfl
    rw [requests_set_self, read, requests_set_self]
    rfl

theorem future_recordAndFinish : ((s.recordAndFinish r).requests r).future = (s.requests r).future.resolve := by
  unfold recordAndFinish
  rw [future_finish, future_record]

theorem terminal_of_status {status : RequestStatus} (terminal : status.isTerminal = true) (same : s.status r = status) :
    (s.requests r).terminal = true := by
  rw [← same] at terminal
  exact terminal

theorem outcome_isTerminal : (s.outcome settings r).isTerminal = true := by
  unfold outcome
  split
  · rfl
  · split <;> rfl

namespace Ends

theorem finish {status : RequestStatus} {errorMessage : String} (terminal : status.isTerminal = true) :
    Ends r s (s.finish r status errorMessage) :=
  ⟨.finish, future_finish, terminal_of_status terminal (by rw [status_finish, if_pos rfl])⟩

/-- The metrics may be told of the end. -/
theorem record (ends : Ends r s s') : Ends r s (s'.record r) :=
  ⟨ends.toTouches.trans .record, future_record.trans ends.future, by
    have same : (s'.record r).status r = s'.status r := status_record
    exact terminal_of_status ends.terminal same⟩

theorem measure {f : Metrics → Metrics} (ends : Ends r s s') : Ends r s (s'.measure f) :=
  ⟨ends.toTouches.trans .measure, ends.future, ends.terminal⟩

/-- A reading of the clock comes before the end. -/
theorem monotonic (ends : Ends r s.monotonic.2 s') : Ends r s s' :=
  ⟨Touches.monotonic.trans ends.toTouches, ends.future, ends.terminal⟩

theorem finishTimeout : Ends r s (s.finishTimeout r) := (Ends.finish rfl).record

theorem recordAndFinish (touches : Touches r s s') (future : (s'.requests r).future = (s.requests r).future)
    (terminal : (s'.requests r).terminal = true) : Ends r s (s'.recordAndFinish r) :=
  ⟨touches.trans .recordAndFinish, by rw [future_recordAndFinish, future], terminal_of_status terminal (by
    rw [status_recordAndFinish, status])⟩

theorem deliver {result : GenerationResult} {completed : Seconds} :
    Ends r s ((s.deliver settings r result completed).recordAndFinish r) :=
  .recordAndFinish .deliver future_deliver (terminal_of_status outcome_isTerminal (by rw [status_deliver, if_pos rfl]))

theorem deliverMeasured {result : GenerationResult} {completed : Seconds} {f : Metrics → Metrics} :
    Ends r s (((s.deliver settings r result completed).measure f).recordAndFinish r) :=
  .recordAndFinish (Touches.deliver.trans .measure) future_deliver
    (terminal_of_status (s := s.deliver settings r result completed) outcome_isTerminal
      (by rw [status_deliver, if_pos rfl]))

theorem failMeasured {message : String} {f : Metrics → Metrics} :
    Ends r s (((s.fail r message).measure f).recordAndFinish r) :=
  have failed : (s.fail r message).status r = .failed := by rw [status_fail, if_pos rfl]
  .recordAndFinish (Touches.fail.trans .measure) future_fail (terminal_of_status (s := s.fail r message) rfl failed)

theorem fail {message : String} : Ends r s ((s.fail r message).recordAndFinish r) := failMeasured (f := id)

theorem tracked (ends : Ends r s s') (known : (s.requests r).future ≠ .missing) : s'.Tracked r := by
  have resolved : (s'.requests r).future = .resolved := by
    rw [ends.future]
    cases future : (s.requests r).future with
    | missing => exact absurd future known
    | pending => rfl
    | resolved => rfl
  exact ⟨by simp [resolved], fun _ => resolved⟩

theorem calm (ends : Ends r s s') : Calm s s' where
  tracked q tracked := by
    by_cases same : q = r
    · subst same
      exact ends.tracked tracked.1
    · unfold Tracked
      rw [ends.others q same]
      exact tracked
  isOver q isOver := by
    by_cases same : q = r
    · subst same
      exact ends.terminal
    · rw [ends.others q same]
      exact isOver
  queue := ends.queue
  accepting := ends.accepting

end Ends

namespace Calm

theorem refl : Calm s s := ⟨fun _ tracked => tracked, fun _ isOver => isOver, rfl, rfl⟩

theorem trans (first : Calm s s') (second : Calm s' s'') : Calm s s'' :=
  ⟨fun r tracked => second.tracked r (first.tracked r tracked), fun r isOver => second.isOver r (first.isOver r isOver),
    second.queue.trans first.queue, second.accepting.trans first.accepting⟩

theorem monotonic : Calm s s.monotonic.2 := ⟨fun _ tracked => tracked, fun _ isOver => isOver, rfl, rfl⟩

theorem measure {f : Metrics → Metrics} : Calm s (s.measure f) := ⟨fun _ tracked => tracked, fun _ isOver => isOver, rfl, rfl⟩

/-- A request's other fields may change. -/
theorem set {item : InferenceRequest} (future : item.future = (s.requests r).future)
    (status : item.status = (s.requests r).status) : Calm s (s.set r item) where
  tracked q tracked := by
    by_cases same : q = r
    · subst same
      unfold Tracked InferenceRequest.terminal
      rw [requests_set_self, future, status]
      exact tracked
    · unfold Tracked
      rw [Touches.set.others q same]
      exact tracked
  isOver q isOver := by
    by_cases same : q = r
    · subst same
      unfold InferenceRequest.terminal
      rw [requests_set_self, status]
      exact isOver
    · rw [Touches.set.others q same]
      exact isOver
  queue := rfl
  accepting := rfl

theorem record : Calm s (s.record r) := by
  have set : Calm s (s.set r { s.requests r with metricsRecorded := true }) := .set rfl rfl
  exact ⟨set.tracked, set.isOver, rfl, rfl⟩

theorem setCollection {collected : Int} {l : List RequestRef} : Calm s (s.setCollection collected l) := by
  induction l generalizing s with
  | nil => exact .refl
  | cons r rest ih =>
    have first : Calm s (s.set r { s.requests r with batchCollectionMs := collected }) := .set rfl rfl
    exact first.trans ih

theorem setBatchSize {size : Nat} {l : List RequestRef} : Calm s (s.setBatchSize size l) := by
  induction l generalizing s with
  | nil => exact .refl
  | cons r rest ih =>
    have first : Calm s (s.set r { s.requests r with batchSize := size }) := .set rfl rfl
    exact first.trans ih

theorem cancel {reason : String} : Calm s (s.cancel r reason) := by
  unfold Scheduling.cancel
  split
  · exact .refl
  · exact (Ends.finish rfl).calm

theorem turnAway {item : Option RequestRef} : Calm s (s.turnAway item) := by
  cases item with
  | none => exact .refl
  | some r =>
    have first : Calm s (s.finish r .rejected "server is shutting down") := (Ends.finish rfl).calm
    exact ⟨first.tracked, first.isOver, first.queue, first.accepting⟩

end Calm

end Scheduling

end ServingPlatform
