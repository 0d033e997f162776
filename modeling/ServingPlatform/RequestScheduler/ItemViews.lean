import ServingPlatform.RequestScheduler.Endings

namespace ServingPlatform

/-- What decides a request's place in a batch; nothing changes it. -/
structure RequestShape where
  maxNewTokens : Int
  temperature : Rat
  estimatedTokens : Int

/-- How far a request has come. -/
structure RequestView where
  status : RequestStatus
  startedAt : Seconds
  future : ResultFuture

namespace InferenceRequest

def shape (item : InferenceRequest) : RequestShape := ⟨item.maxNewTokens, item.temperature, item.estimatedTokens⟩

def view (item : InferenceRequest) : RequestView := ⟨item.status, item.startedAt, item.future⟩

end InferenceRequest

namespace RequestView

/-- The request is over, and whoever waits for it is told. -/
def ended (v : RequestView) (status : RequestStatus) : RequestView := ⟨status, v.startedAt, v.future.resolve⟩

end RequestView

namespace Scheduling

def shape (s : Scheduling) (r : RequestRef) : RequestShape := (s.requests r).shape

def view (s : Scheduling) (r : RequestRef) : RequestView := (s.requests r).view

variable {settings : SchedulerSettings} {s : Scheduling} {r q : RequestRef}

theorem view_set {item : InferenceRequest} : (s.set r item).view q = if q = r then item.view else s.view q := by
  by_cases same : q = r
  · rw [if_pos same, same, view, requests_set_self]
  · rw [if_neg same, view, Touches.set.others q same, view]

theorem shape_set {item : InferenceRequest} : (s.set r item).shape q = if q = r then item.shape else s.shape q := by
  by_cases same : q = r
  · rw [if_pos same, same, shape, requests_set_self]
  · rw [if_neg same, shape, Touches.set.others q same, shape]

theorem view_set_same {item : InferenceRequest} (same : item.view = s.view r) : (s.set r item).view q = s.view q := by
  rw [view_set]
  split
  · rename_i here
    rw [here, same]
  · rfl

theorem shape_set_same {item : InferenceRequest} (same : item.shape = s.shape r) : (s.set r item).shape q = s.shape q := by
  rw [shape_set]
  split
  · rename_i here
    rw [here, same]
  · rfl

theorem view_congr {s' : Scheduling} (same : s'.requests = s.requests) : s'.view q = s.view q := by
  rw [view, same, view]

theorem shape_congr {s' : Scheduling} (same : s'.requests = s.requests) : s'.shape q = s.shape q := by
  rw [shape, same, shape]

@[simp] theorem view_finish {status : RequestStatus} {errorMessage : String} :
    (s.finish r status errorMessage).view q = if q = r then (s.view r).ended status else s.view q := by
  unfold finish
  split <;> exact view_set

@[simp] theorem shape_finish {status : RequestStatus} {errorMessage : String} :
    (s.finish r status errorMessage).shape q = s.shape q := by
  unfold finish
  split
  · have kept : (s.monotonic.2.set r ((s.requests r).finish status errorMessage s.monotonic.1)).shape q =
      s.monotonic.2.shape q := shape_set_same rfl
    exact kept
  · exact shape_set_same rfl

@[simp] theorem view_record : (s.record r).view q = s.view q := by
  have kept : (s.set r { s.requests r with metricsRecorded := true }).view q = s.view q := view_set_same rfl
  exact kept

@[simp] theorem shape_record : (s.record r).shape q = s.shape q := by
  have kept : (s.set r { s.requests r with metricsRecorded := true }).shape q = s.shape q := shape_set_same rfl
  exact kept

@[simp] theorem view_measure {f : Metrics → Metrics} : (s.measure f).view q = s.view q := rfl

@[simp] theorem shape_measure {f : Metrics → Metrics} : (s.measure f).shape q = s.shape q := rfl

@[simp] theorem view_monotonic : s.monotonic.2.view q = s.view q := rfl

@[simp] theorem shape_monotonic : s.monotonic.2.shape q = s.shape q := rfl

@[simp] theorem view_timedOut {timeout : Seconds} : (s.timedOut r timeout).2.view q = s.view q := rfl

@[simp] theorem shape_timedOut {timeout : Seconds} : (s.timedOut r timeout).2.shape q = s.shape q := rfl

@[simp] theorem view_finishTimeout :
    (s.finishTimeout r).view q = if q = r then (s.view r).ended .timeout else s.view q := by
  unfold finishTimeout
  rw [view_record, view_finish]

@[simp] theorem shape_finishTimeout : (s.finishTimeout r).shape q = s.shape q := by
  unfold finishTimeout
  rw [shape_record, shape_finish]

@[simp] theorem view_setCollection {collected : Int} {l : List RequestRef} :
    (s.setCollection collected l).view q = s.view q := by
  induction l generalizing s with
  | nil => rfl
  | cons r rest ih => exact ih.trans (view_set_same rfl)

@[simp] theorem shape_setCollection {collected : Int} {l : List RequestRef} :
    (s.setCollection collected l).shape q = s.shape q := by
  induction l generalizing s with
  | nil => rfl
  | cons r rest ih => exact ih.trans (shape_set_same rfl)

@[simp] theorem view_setBatchSize {size : Nat} {l : List RequestRef} : (s.setBatchSize size l).view q = s.view q := by
  induction l generalizing s with
  | nil => rfl
  | cons r rest ih => exact ih.trans (view_set_same rfl)

@[simp] theorem shape_setBatchSize {size : Nat} {l : List RequestRef} : (s.setBatchSize size l).shape q = s.shape q := by
  induction l generalizing s with
  | nil => rfl
  | cons r rest ih => exact ih.trans (shape_set_same rfl)

@[simp] theorem view_endCollection {fromQueue : Option Bool} {c : Collecting} :
    (s.endCollection fromQueue c).2.view q = s.view q := by
  unfold endCollection
  cases fromQueue <;> exact view_setCollection

@[simp] theorem shape_endCollection {fromQueue : Option Bool} {c : Collecting} :
    (s.endCollection fromQueue c).2.shape q = s.shape q := by
  unfold endCollection
  cases fromQueue <;> exact shape_setCollection

theorem view_recordAndFinish :
    (s.recordAndFinish r).view q = if q = r then (s.view r).ended (s.status r) else s.view q := by
  unfold recordAndFinish
  rw [view_finish, view_record, view_record, status_record]

@[simp] theorem shape_recordAndFinish : (s.recordAndFinish r).shape q = s.shape q := by
  unfold recordAndFinish
  rw [shape_finish, shape_record]

@[simp] theorem shape_fail {message : String} : (s.fail r message).shape q = s.shape q := by
  have kept : (s.monotonic.2.set r { s.requests r with
      status := .failed, errorMessage := message, completedAt := s.monotonic.1 }).shape q = s.monotonic.2.shape q :=
    shape_set_same rfl
  exact kept

theorem view_fail {message : String} {f : Metrics → Metrics} :
    (((s.fail r message).measure f).recordAndFinish r).view q = if q = r then (s.view r).ended .failed else s.view q := by
  have failed : ∀ p, ((s.fail r message).measure f).view p =
      if p = r then ⟨.failed, (s.view r).startedAt, (s.view r).future⟩ else s.view p := fun p => view_set
  have status : ((s.fail r message).measure f).status r = .failed := by rw [status_measure, status_fail, if_pos rfl]
  rw [view_recordAndFinish, failed r, failed q, status, if_pos rfl]
  split <;> rfl

/-- A result changes neither when the request started nor who waits for it. -/
theorem view_deliver_status {result : GenerationResult} {completed : Seconds} :
    (s.deliver settings r result completed).view q = if q = r then
      ⟨(s.deliver settings r result completed).status r, (s.view r).startedAt, (s.view r).future⟩ else s.view q := by
  have rewritten : ∀ {t : Scheduling} {status : RequestStatus}, (∀ p, t.view p = s.view p) →
      (t.set r { t.requests r with status }).view q = if q = r then
        ⟨(t.set r { t.requests r with status }).status r, (s.view r).startedAt, (s.view r).future⟩ else s.view q := by
    intro t status same
    rw [view_set, status_set, if_pos rfl, same q, ← same r]
    rfl
  have answered : ∀ completedAt p,
      (s.set r ({ s.requests r with completedAt }.withResult result)).view p = s.view p := fun _ p => view_set_same rfl
  unfold deliver
  dsimp only
  split
  · exact rewritten (answered _)
  · exact rewritten fun p => answered _ p

@[simp] theorem shape_deliver {result : GenerationResult} {completed : Seconds} :
    (s.deliver settings r result completed).shape q = s.shape q := by
  have rewritten : ∀ {t : Scheduling} {status : RequestStatus}, (∀ p, t.shape p = s.shape p) →
      (t.set r { t.requests r with status }).shape q = s.shape q := by
    intro t status same
    rw [← same q]
    exact shape_set_same rfl
  have answered : ∀ completedAt p,
      (s.set r ({ s.requests r with completedAt }.withResult result)).shape p = s.shape p := fun _ p => shape_set_same rfl
  unfold deliver
  dsimp only
  split
  · exact rewritten (answered _)
  · exact rewritten fun p => answered _ p

theorem view_deliver {result : GenerationResult} {completed : Seconds} {f : Metrics → Metrics} :
    (((s.deliver settings r result completed).measure f).recordAndFinish r).view q =
      if q = r then (s.view r).ended (s.outcome settings r) else s.view q := by
  have delivered : ∀ p, ((s.deliver settings r result completed).measure f).view p =
      if p = r then ⟨s.outcome settings r, (s.view r).startedAt, (s.view r).future⟩ else s.view p := by
    intro p
    rw [view_measure, view_deliver_status, status_deliver, if_pos rfl]
  have status : ((s.deliver settings r result completed).measure f).status r = s.outcome settings r := by
    rw [status_measure, status_deliver, if_pos rfl]
  rw [view_recordAndFinish, delivered r, delivered q, status, if_pos rfl]
  split <;> rfl

end Scheduling

end ServingPlatform
