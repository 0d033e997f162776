import ServingPlatform.RequestScheduler.Writes
import ServingPlatform.RequestScheduler.Endings

namespace ServingPlatform

open Scheduling

/-- How many requests the counters have counted. -/
def Metrics.total (m : Metrics) : Nat :=
  m.completedRequests + m.failedRequests + m.timeoutRequests + m.cancelledRequests + m.rejectedRequests

namespace Scheduling

/-- The request has been recorded before. -/
def isRecorded (s : Scheduling) (r : RequestRef) : Bool := (s.requests r).metricsRecorded

/-- The requests that the counters count, of one that is passed to
`metrics.record` and some that are rejected. -/
def counted (s : Scheduling) (recorded : Option RequestRef) (rejected : List RequestRef) : List RequestRef :=
  (recorded.filter fun r => !s.isRecorded r).toList ++ rejected

/-- The request, if it is passed to `metrics.record` instead of being run: it
has timed out, or it was cancelled. -/
def overdue (settings : SchedulerSettings) (s : Scheduling) (r : RequestRef) : Option RequestRef :=
  if (s.timedOut r settings.requestTimeout).1 = true ∨ s.status r = .cancelled then some r else none

end Scheduling

namespace Place

/-- The request that the task's next step passes to `metrics.record`. -/
def recorded (settings : SchedulerSettings) (s : Scheduling) : Place → Resumption → Option RequestRef
  | .scanning _ c, _ =>
    if c.requests.length < settings.maxBatchSize ∧ c.toScan ≠ 0 then
      match c.deferred with
      | some (candidate :: _) => s.overdue settings candidate
      | _ => none
    else none
  | .waiting _ _, .proceed =>
    match s.queue.items with
    | some candidate :: _ => s.overdue settings candidate
    | _ => none
  | .selecting _ _ _ (r :: _) _, _ | .starting _ r, _ => s.overdue settings r
  | .finishing _ _ _ _ (r :: _) (_ :: _), _ | .generatingOne _ r, .result _ => some r
  | .failing _ _ _ (r :: _), _ | .abandoning _ _ (r :: _), _ | .generatingOne _ r, .raises _ => some r
  | _, _ => none

/-- The request that it rejects. -/
def turnedAway (s : Scheduling) : Place → Option RequestRef
  | .loopHead (first :: _) => if s.accepting = false then some first else none
  | _ => none

/-- The model calls that the task is in. -/
def executing : Place → Int
  | .generatingBatch .. | .finishing .. | .failing .. | .abandoning .. | .generatingOne .. => 1
  | _ => 0

end Place

/-- What a part of the program tells the metrics: the request that it passes to
`record`, those that it rejects, and how many more model calls begin than end. -/
structure Tally (recorded : Option RequestRef) (rejected : List RequestRef) (calls : Int) (s s' : Scheduling) : Prop where
  flags : ∀ q, s'.isRecorded q = true ↔ s.isRecorded q = true ∨ recorded = some q
  total : s'.metrics.total = s.metrics.total + (s.counted recorded rejected).length
  calls : s'.metrics.activeModelExecutions = s.metrics.activeModelExecutions + calls

namespace Tally

variable {settings : SchedulerSettings} {s s' s'' : Scheduling} {r : RequestRef} {recorded recorded' : Option RequestRef}
  {rejected rejected' : List RequestRef} {calls calls' : Int}

/-- A part that tells the metrics nothing. -/
theorem quiet (flags : ∀ q, s'.isRecorded q = s.isRecorded q) (metrics : s'.metrics = s.metrics) : Tally none [] 0 s s' where
  flags q := by simp [flags]
  total := by simp [metrics, counted]
  calls := by simp [metrics]

theorem of_same (requests : s'.requests = s.requests) (metrics : s'.metrics = s.metrics) : Tally none [] 0 s s' :=
  quiet (fun q => by rw [isRecorded, requests, isRecorded]) metrics

theorem refl : Tally none [] 0 s s := of_same rfl rfl

/-- What is rejected first, and what is told then. -/
theorem trans (first : Tally none rejected calls s s') (second : Tally recorded rejected' calls' s' s'') :
    Tally recorded (rejected ++ rejected') (calls + calls') s s'' where
  flags q := by
    rw [second.flags, first.flags]
    simp
  total := by
    have same : recorded.filter (fun r => !s'.isRecorded r) = recorded.filter fun r => !s.isRecorded r := by
      refine congrArg (recorded.filter ·) (funext fun q => ?_)
      have kept := first.flags q
      simp only [reduceCtorEq, or_false] at kept
      rw [Bool.eq_iff_iff.mpr kept]
    have before := first.total
    have after := second.total
    unfold counted at before after ⊢
    rw [same] at after
    simp only [Option.filter_none, Option.toList_none, List.nil_append, List.length_append] at before after ⊢
    omega
  calls := by
    rw [second.calls, first.calls]
    omega

/-- A part that tells the metrics nothing goes before. -/
theorem after (first : Tally none [] 0 s s') (second : Tally recorded rejected calls s' s'') :
    Tally recorded rejected calls s s'' := by
  have both := first.trans second
  rw [Int.zero_add] at both
  exact both

/-- After a request is recorded, calls may end and nothing more is counted. -/
theorem andThen (first : Tally recorded rejected calls s s') (second : Tally none [] calls' s' s'') :
    Tally recorded rejected (calls + calls') s s'' where
  flags q := by
    rw [second.flags, first.flags]
    simp
  total := by
    have after := second.total
    simp only [counted, Option.filter_none, Option.toList_none, List.append_nil, List.length_nil, Nat.add_zero] at after
    rw [after]
    exact first.total
  calls := by
    rw [second.calls, first.calls]
    omega

theorem before (first : Tally recorded rejected calls s s') (second : Tally none [] 0 s' s'') :
    Tally recorded rejected calls s s'' := by
  have both := first.andThen second
  rw [Int.add_zero] at both
  exact both

section Parts

theorem monotonic : Tally none [] 0 s s.monotonic.2 := of_same rfl rfl

theorem set {item : InferenceRequest} (flag : item.metricsRecorded = (s.requests r).metricsRecorded) :
    Tally none [] 0 s (s.set r item) := by
  refine quiet (fun q => ?_) rfl
  unfold isRecorded
  by_cases same : q = r
  · rw [same, requests_set_self, flag]
  · rw [Touches.set.others q same]

theorem finish {status : RequestStatus} {errorMessage : String} : Tally none [] 0 s (s.finish r status errorMessage) := by
  unfold Scheduling.finish
  split
  · exact monotonic.after (.set rfl)
  · exact .set rfl

/-- `metrics.record` counts a request that is over, unless it has counted it before. -/
theorem record (terminal : (s.status r).isTerminal = true) (accepts : s.status r ≠ .rejected) :
    Tally (some r) [] 0 s (s.record r) where
  flags q := by
    unfold Scheduling.record isRecorded
    dsimp only
    by_cases same : q = r
    · rw [same, requests_set_self]
      simp
    · rw [Touches.set.others q same]
      simp [Ne.symm same]
  total := by
    have here : (s.record r).metrics = s.metrics.record (s.requests r) := rfl
    rw [here]
    unfold Metrics.record counted isRecorded
    unfold Scheduling.status at terminal accepts
    cases before : (s.requests r).metricsRecorded with
    | true => simp [before, Option.filter]
    | false =>
      generalize (s.requests r).status = status at terminal accepts
      cases status <;> simp_all [Metrics.total, Option.filter, RequestStatus.isTerminal] <;> omega
  calls := by
    have here : (s.record r).metrics = s.metrics.record (s.requests r) := rfl
    rw [here]
    unfold Metrics.record
    split <;> simp

theorem reject {reason : String} : Tally none [r] 0 s (s.measure (·.rejected reason)) where
  flags q := by
    have same : (s.measure (·.rejected reason)).isRecorded q = s.isRecorded q := rfl
    simp [same]
  total := by simp [Scheduling.measure, Metrics.rejected, Metrics.total, counted]; omega
  calls := by simp [Scheduling.measure, Metrics.rejected]

/-- The metrics change, but not what they have counted. -/
theorem measure {f : Metrics → Metrics} (total : (f s.metrics).total = s.metrics.total)
    (active : (f s.metrics).activeModelExecutions = s.metrics.activeModelExecutions + calls) :
    Tally none [] calls s (s.measure f) where
  flags q := by
    have same : (s.measure f).isRecorded q = s.isRecorded q := rfl
    simp [same]
  total := total
  calls := active

theorem modelExecutionStarted : Tally none [] 1 s (s.measure (·.modelExecutionStarted)) := measure rfl rfl

theorem modelExecutionFinished : Tally none [] (-1) s (s.measure (·.modelExecutionFinished)) := measure rfl rfl

theorem recordModelInvocation : Tally none [] 0 s (s.measure (·.recordModelInvocation)) := measure rfl (Int.add_zero _).symm

theorem taskDone : Tally none [] 0 s s.taskDone.2 := by
  rcases s.taskDone_cases with ⟨-, e, run⟩ | ⟨n, -, run⟩
  · rw [run]
    exact refl
  · rw [run]
    exact of_same rfl rfl

theorem itemDone {fromQueue : Bool} : Tally none [] 0 s (s.itemDone fromQueue).2 := by
  unfold Scheduling.itemDone
  split
  · exact taskDone
  · exact refl

theorem putNowait {item : Option RequestRef} : Tally none [] 0 s (s.putNowait item).2 := by
  rcases s.putNowait_cases item with ⟨-, run⟩ | ⟨-, run⟩
  · rw [run]
    exact refl
  · rw [run]
    exact of_same rfl rfl

theorem releaseItems {n : Nat} : Tally none [] 0 s (s.releaseItems n).2 := by
  induction n generalizing s with
  | zero => exact refl
  | succ n ih =>
    have done : Tally none [] 0 s s.taskDone.2 := taskDone
    unfold Scheduling.releaseItems
    split
    · rename_i run
      rw [run] at done
      exact done
    · rename_i run
      rw [run] at done
      exact done.after ih

theorem leave {n : Nat} {fromQueue : Bool} {result : Except Raised Unit} : Tally none [] 0 s (s.leave n fromQueue result).2 :=
  releaseItems.after itemDone

theorem setCollection {collected : Int} {l : List RequestRef} : Tally none [] 0 s (s.setCollection collected l) := by
  induction l generalizing s with
  | nil => exact refl
  | cons r rest ih =>
    refine Tally.after (Tally.set ?_) ih
    rfl

theorem setBatchSize {size : Nat} {l : List RequestRef} : Tally none [] 0 s (s.setBatchSize size l) := by
  induction l generalizing s with
  | nil => exact refl
  | cons r rest ih =>
    refine Tally.after (Tally.set ?_) ih
    rfl

theorem endCollection {fromQueue : Option Bool} {c : Collecting} : Tally none [] 0 s (s.endCollection fromQueue c).2 := by
  unfold Scheduling.endCollection
  cases fromQueue with
  | none => exact monotonic.after setCollection
  | some b => exact (monotonic.after setCollection).after monotonic

theorem finishTimeout : Tally (some r) [] 0 s (s.finishTimeout r) := by
  have timeout : (s.finish r .timeout "").status r = .timeout := by rw [status_finish, if_pos rfl]
  exact finish.after (.record (by rw [timeout]; rfl) (by rw [timeout]; simp))

theorem deliver {result : GenerationResult} {completed : Seconds} :
    Tally none [] 0 s (s.deliver settings r result completed) := by
  have restated : ∀ {t : Scheduling} {status : RequestStatus}, Tally none [] 0 t (t.set r { t.requests r with status }) :=
    Tally.set rfl
  have answered : ∀ completedAt, Tally none [] 0 s (s.set r ({ s.requests r with completedAt }.withResult result)) :=
    fun _ => Tally.set rfl
  unfold Scheduling.deliver
  dsimp only
  split
  · exact (answered _).after restated
  · exact (answered _).after (monotonic.after restated)

theorem fail {message : String} : Tally none [] 0 s (s.fail r message) := by
  refine Tally.after monotonic (Tally.set ?_)
  rfl

theorem recordAndFinish (terminal : (s.status r).isTerminal = true) (accepts : s.status r ≠ .rejected) :
    Tally (some r) [] 0 s (s.recordAndFinish r) := (Tally.record terminal accepts).before finish

/-- The request's result, or its failure, is recorded. -/
theorem delivered {result : GenerationResult} {completed : Seconds} {f : Metrics → Metrics}
    (measured : ∀ t : Scheduling, Tally none [] calls t (t.measure f)) :
    Tally (some r) [] calls s (((s.deliver settings r result completed).measure f).recordAndFinish r) := by
  have status : ((s.deliver settings r result completed).measure f).status r = s.outcome settings r := by
    rw [status_measure, status_deliver, if_pos rfl]
  have told := (deliver.after (measured (s.deliver settings r result completed))).trans
    (.recordAndFinish (r := r) (by rw [status]; exact outcome_isTerminal) (by
      rw [status]
      unfold outcome
      split
      · simp
      · split <;> simp))
  rw [Int.add_zero] at told
  exact told

theorem failed {message : String} {f : Metrics → Metrics} (measured : ∀ t : Scheduling, Tally none [] calls t (t.measure f)) :
    Tally (some r) [] calls s (((s.fail r message).measure f).recordAndFinish r) := by
  have status : ((s.fail r message).measure f).status r = .failed := by rw [status_measure, status_fail, if_pos rfl]
  have told := (fail.after (measured (s.fail r message))).trans
    (.recordAndFinish (r := r) (by rw [status]; rfl) (by rw [status]; simp))
  rw [Int.add_zero] at told
  exact told

theorem finishFailed {message : String} : Tally (some r) [] 0 s ((s.finish r .failed message).record r) := by
  have failed : (s.finish r .failed message).status r = .failed := by rw [status_finish, if_pos rfl]
  exact finish.after (.record (by rw [failed]; rfl) (by rw [failed]; simp))

/-- A request is recorded when it is looked at, if it is overdue. -/
theorem consider {c : Collecting} {fromQueue : Bool} :
    Tally (s.overdue settings r) [] 0 s (s.consider settings c r fromQueue).2 := by
  unfold Scheduling.consider Scheduling.overdue
  dsimp only
  by_cases expired : (s.timedOut r settings.requestTimeout).1 = true
  · rw [if_pos expired, if_pos (Or.inl expired)]
    exact monotonic.after (finishTimeout.before itemDone)
  rw [if_neg expired]
  by_cases cancelled : s.status r = .cancelled
  · rw [if_pos (show (s.timedOut r settings.requestTimeout).2.status r = .cancelled from cancelled), if_pos (Or.inr cancelled)]
    exact monotonic.after ((Tally.record (by rw [status_monotonic, cancelled]; rfl)
      (by rw [status_monotonic, cancelled]; simp)).before itemDone)
  rw [if_neg (show ¬(s.timedOut r settings.requestTimeout).2.status r = .cancelled from cancelled),
    if_neg (not_or.mpr ⟨expired, cancelled⟩)]
  split
  · exact monotonic
  split
  · have put : Tally none [] 0 s.monotonic.2 (s.monotonic.2.putNowait (some r)).2 := putNowait
    split
    · rename_i run
      rw [show (s.timedOut r settings.requestTimeout).2 = s.monotonic.2 from rfl] at run
      rw [run] at put
      exact monotonic.after put
    · rename_i run
      rw [show (s.timedOut r settings.requestTimeout).2 = s.monotonic.2 from rfl] at run
      rw [run] at put
      exact monotonic.after (put.after itemDone)
  · exact monotonic.after itemDone

end Parts

section Advance

variable {place' : Place} {resumption : Resumption}

theorem loopHead {deferred : List RequestRef}
    (step : (Place.loopHead deferred).advance settings s resumption = some (place', s')) :
    Tally none ((Place.loopHead deferred).turnedAway s).toList place'.executing s s' := by
  cases resumption <;> cases deferred <;> try cases step
  · exact refl
  rename_i first deferred
  simp only [Place.advance] at step
  dsimp only [Place.turnedAway]
  by_cases closed : s.accepting = false
  · rw [if_pos closed] at step ⊢
    cases step
    exact finish.after reject
  · rw [if_neg closed] at step ⊢
    split at step <;> cases step
    · exact monotonic
    · exact refl

theorem gettingFirst (step : Place.gettingFirst.advance settings s resumption = some (place', s')) :
    Tally none [] place'.executing s s' := by
  cases resumption <;> try cases step
  simp only [Place.advance, Scheduling.get?] at step
  cases queued : s.queue.items with
  | nil =>
    rw [queued] at step
    cases step
  | cons item rest =>
    have taken : Tally none [] 0 s { s with queue := { s.queue with items := rest } } := of_same rfl rfl
    rw [queued] at step
    cases item with
    | none =>
      cases step
      exact taken.after taskDone
    | some first =>
      dsimp only at step
      split at step <;> cases step
      · exact taken.after monotonic
      · exact taken

theorem scanning {fromQueue : Option Bool} {c : Collecting}
    (step : (Place.scanning fromQueue c).advance settings s resumption = some (place', s')) :
    Tally ((Place.scanning fromQueue c).recorded settings s resumption) [] place'.executing s s' := by
  cases resumption <;> try cases step
  simp only [Place.advance] at step
  dsimp only [Place.recorded]
  by_cases more : c.requests.length < settings.maxBatchSize ∧ c.toScan ≠ 0
  · rw [if_pos more] at step ⊢
    cases held : c.deferred with
    | none =>
      rw [held] at step
      cases step
      exact refl
    | some deferred =>
      rw [held] at step
      cases deferred with
      | nil =>
        cases step
        exact refl
      | cons candidate rest =>
        have told : Tally (s.overdue settings candidate) [] 0 s
          (s.consider settings { c with deferred := some rest, toScan := c.toScan - 1 } candidate false).2 := consider
        dsimp only at step
        split at step <;> (rename_i run; rw [run] at told; cases step; exact told)
  · rw [if_neg more] at step ⊢
    cases step
    exact refl

/-- A collection that ends calls no model yet. -/
theorem executing_endCollection {fromQueue : Option Bool} {c : Collecting} : (s.endCollection fromQueue c).1.executing = 0 := by
  cases fromQueue <;> rfl

theorem gathering {fromQueue : Option Bool} {c : Collecting}
    (step : (Place.gathering fromQueue c).advance settings s resumption = some (place', s')) :
    Tally none [] place'.executing s s' := by
  have ends : ∀ t : Scheduling, some (t.endCollection fromQueue c) = some (place', s') → Tally none [] 0 s t →
      Tally none [] place'.executing s s' := by
    intro t ends told
    obtain rfl := congrArg Prod.fst (Option.some.inj ends)
    obtain rfl := congrArg Prod.snd (Option.some.inj ends)
    rw [executing_endCollection]
    exact told.after endCollection
  cases resumption <;> try cases step
  simp only [Place.advance] at step
  split at step
  · split at step
    · exact ends _ step monotonic
    · cases step
      exact monotonic
  · exact ends _ step refl

theorem waiting {fromQueue : Option Bool} {c : Collecting}
    (step : (Place.waiting fromQueue c).advance settings s resumption = some (place', s')) :
    Tally ((Place.waiting fromQueue c).recorded settings s resumption) [] place'.executing s s' := by
  have ends : ∀ {t : Scheduling} {c : Collecting} {recorded : Option RequestRef},
      some (t.endCollection fromQueue c) = some (place', s') → Tally recorded [] 0 s t →
      Tally recorded [] place'.executing s s' := by
    intro t c recorded ends told
    obtain rfl := congrArg Prod.fst (Option.some.inj ends)
    obtain rfl := congrArg Prod.snd (Option.some.inj ends)
    rw [executing_endCollection]
    exact told.before endCollection
  cases resumption <;> try cases step
  · simp only [Place.advance, Scheduling.get?] at step
    dsimp only [Place.recorded]
    cases queued : s.queue.items with
    | nil =>
      rw [queued] at step
      cases step
    | cons item rest =>
      have taken : Tally none [] 0 s { s with queue := { s.queue with items := rest } } := of_same rfl rfl
      rw [queued] at step
      cases item with
      | none =>
        have done : Tally none [] 0 s { s with queue := { s.queue with items := rest } }.taskDone.2 := taken.after taskDone
        dsimp only at step
        split at step
        · rename_i run
          rw [run] at done
          cases step
          exact done
        rename_i t run
        rw [run] at done
        have put : Tally none [] 0 s (t.putNowait none).2 := done.after putNowait
        split at step <;> (rename_i run; rw [run] at put)
        · cases step
          exact put
        · exact ends step put
      | some candidate =>
        have considered : Tally ({ s with queue := { s.queue with items := rest } }.overdue settings candidate) [] 0
            { s with queue := { s.queue with items := rest } }
            ({ s with queue := { s.queue with items := rest } }.consider settings c candidate true).2 := consider
        have told : Tally (s.overdue settings candidate) [] 0 s
            ({ s with queue := { s.queue with items := rest } }.consider settings c candidate true).2 := taken.after considered
        dsimp only at step
        split at step <;> (rename_i run; rw [run] at told)
        · cases step
          exact told
        · cases step
          exact told
        · exact ends step told
  · exact ends step refl

theorem selecting {caller : Caller} {queuedItems : Nat} {now : Seconds} {rest active : List RequestRef}
    (step : (Place.selecting caller queuedItems now rest active).advance settings s resumption = some (place', s')) :
    Tally ((Place.selecting caller queuedItems now rest active).recorded settings s resumption) [] place'.executing s s' := by
  obtain rfl : resumption = .proceed := by
    cases resumption <;> first | rfl | (cases rest <;> cases active <;> cases step)
  cases rest with
  | nil =>
    cases active with
    | nil =>
      cases step
      exact refl
    | cons first active =>
      cases step
      exact (setBatchSize.after recordModelInvocation).after modelExecutionStarted
  | cons r rest =>
    simp only [Place.advance] at step
    dsimp only [Place.recorded, Scheduling.overdue]
    by_cases cancelled : s.status r = .cancelled
    · rw [if_pos cancelled] at step
      rw [if_pos (Or.inr cancelled)]
      cases step
      exact record (by rw [cancelled]; rfl) (by rw [cancelled]; simp)
    rw [if_neg cancelled] at step
    split at step <;> (rename_i expired; cases step)
    · rw [if_pos (Or.inl expired)]
      exact monotonic.after finishTimeout
    · rw [if_neg (not_or.mpr ⟨expired, cancelled⟩)]
      refine Tally.after monotonic (Tally.set ?_)
      rfl

theorem starting {caller : Caller} (step : (Place.starting caller r).advance settings s resumption = some (place', s')) :
    Tally ((Place.starting caller r).recorded settings s resumption) [] place'.executing s s' := by
  cases resumption <;> try cases step
  simp only [Place.advance] at step
  dsimp only [Place.recorded, Scheduling.overdue]
  by_cases cancelled : s.status r = .cancelled
  · rw [if_pos cancelled] at step
    rw [if_pos (Or.inr cancelled)]
    cases step
    exact record (by rw [cancelled]; rfl) (by rw [cancelled]; simp)
  rw [if_neg cancelled] at step
  split at step <;> (rename_i expired; cases step)
  · rw [if_pos (Or.inl expired)]
    exact monotonic.after finishTimeout
  · rw [if_neg (not_or.mpr ⟨expired, cancelled⟩)]
    have begun := fun t => (recordModelInvocation (s := t)).after modelExecutionStarted
    refine Tally.after (monotonic.after (Tally.after monotonic (Tally.set ?_))) (begun _)
    rfl

theorem generatingOne {caller : Caller}
    (step : (Place.generatingOne caller r).advance settings s resumption = some (place', s')) :
    Tally (some r) [] (-1) s s' ∧ place'.executing = 0 ∧
      (Place.generatingOne caller r).recorded settings s resumption = some r := by
  cases resumption with
  | result result =>
    simp only [Place.advance] at step
    split at step <;> cases step
    · exact ⟨monotonic.after (delivered fun t => modelExecutionFinished), rfl, rfl⟩
    · exact ⟨delivered fun t => modelExecutionFinished, rfl, rfl⟩
  | raises message =>
    cases step
    exact ⟨failed fun t => modelExecutionFinished, rfl, rfl⟩
  | proceed => cases step
  | timeout => cases step
  | results results => cases step

/-- What a task's step tells the metrics. -/
theorem advance {place : Place} (step : place.advance settings s resumption = some (place', s')) :
    Tally (place.recorded settings s resumption) (place.turnedAway s).toList (place'.executing - place.executing) s s' := by
  -- Most places are in no call.
  have outside : place.executing = 0 → ∀ {recorded rejected}, Tally recorded rejected place'.executing s s' →
      Tally recorded rejected (place'.executing - place.executing) s s' := by
    intro none_ recorded rejected told
    rw [none_, Int.sub_zero]
    exact told
  have nothing : Tally none [] 0 s s := refl
  cases place with
  | loopHead deferred => exact outside rfl (loopHead step)
  | gettingFirst => exact outside rfl (gettingFirst step)
  | scanning fromQueue c => exact outside rfl (scanning step)
  | gathering fromQueue c => exact outside rfl (gathering step)
  | waiting fromQueue c => exact outside rfl (waiting step)
  | selecting caller queuedItems now rest active => exact outside rfl (selecting step)
  | generatingBatch caller queuedItems active =>
    cases resumption <;> cases step
    · exact monotonic
    · exact nothing
  | finishing caller queuedItems completed active rest results =>
    cases resumption <;> cases rest <;> cases results <;> cases step
    · exact modelExecutionFinished
    · exact nothing
    · exact nothing
    · exact delivered (f := id) fun t => refl
  | failing caller queuedItems message rest =>
    cases resumption <;> cases rest <;> cases step
    · exact modelExecutionFinished
    · exact failed (f := id) fun t => refl
  | abandoning caller queuedItems rest =>
    cases resumption <;> cases rest <;> cases step
    · exact modelExecutionFinished
    · exact finishFailed
  | starting caller request => exact outside rfl (starting step)
  | generatingOne caller request =>
    obtain ⟨told, out, same⟩ := generatingOne step
    rw [out, same]
    exact told
  | returning caller queuedItems result =>
    cases resumption <;> cases caller <;> try cases step
    · exact nothing
    rename_i fromQueue deferred
    have left : Tally none [] 0 s (s.leave queuedItems fromQueue result).2 := leave
    simp only [Place.advance] at step
    split at step <;> (rename_i run; rw [run] at left; cases step; exact left)
  | ended result => cases step

end Advance

section Clients

theorem createFuture : Tally none [] 0 s (s.createFuture r) := Tally.set rfl

theorem markQueued : Tally none [] 0 s (s.markQueued r) := by
  refine Tally.after monotonic (Tally.set ?_)
  rfl

theorem submit : Tally none [] 0 s (s.submit r).2 := by
  rcases s.submit_cases r with ⟨-, e, t, message, run, rfl | rfl⟩ | ⟨-, -, size, run⟩
  · rw [run]
    exact createFuture.after finish
  · rw [run]
    exact (createFuture.after markQueued).after finish
  · rw [run]
    exact (createFuture.after markQueued).before (of_same rfl rfl)

theorem cancel {reason : String} : Tally none [] 0 s (s.cancel r reason) := by
  unfold Scheduling.cancel
  split
  · exact refl
  · exact finish

theorem turnAway (item : Option RequestRef) : Tally none item.toList 0 s (s.turnAway item) := by
  cases item with
  | none => exact refl
  | some r => exact finish.after reject

/-- `close` counts what it takes out of the queue. -/
theorem drain {items : List (Option RequestRef)} {n : Nat} :
    Tally none ((items.take (s.queue.unfinished + 1)).filterMap id) 0 s (s.drain n items).2 := by
  induction items generalizing s n with
  | nil => exact refl
  | cons item rest ih =>
    have taken : Tally none [] 0 s { s with queue := { s.queue with items := rest } } := of_same rfl rfl
    have away : Tally none item.toList 0 s ({ s with queue := { s.queue with items := rest } }.turnAway item) :=
      taken.after (turnAway item)
    have count : ({ s with queue := { s.queue with items := rest } }.turnAway item).queue.unfinished = s.queue.unfinished := by
      rw [queue_turnAway]
    have split_ : ((item :: rest).take (s.queue.unfinished + 1)).filterMap id =
        item.toList ++ (rest.take s.queue.unfinished).filterMap id := by
      cases item <;> rfl
    rw [split_]
    unfold Scheduling.drain
    generalize ({ s with queue := { s.queue with items := rest } } : Scheduling).turnAway item = t at away count ⊢
    rcases t.taskDone_cases with ⟨spent, e, done⟩ | ⟨m, left, done⟩
    · rw [done, ← count, spent, List.take_zero, List.filterMap_nil, List.append_nil]
      exact away
    · rw [done, ← count, left]
      exact away.trans ((of_same rfl rfl : Tally none [] 0 t { t with queue := { t.queue with unfinished := m } }).after ih)

theorem close : Tally none (if s.accepting = true then s.drained.filterMap id else []) 0 s s.close.2 := by
  unfold Scheduling.close
  cases accepting : s.accepting with
  | false => exact refl
  | true =>
    rw [if_pos rfl, if_neg (by simp)]
    have shut : Tally none [] 0 s { s with accepting := false } := of_same rfl rfl
    have rejects : Tally none (s.drained.filterMap id) 0 { s with accepting := false }
        ({ s with accepting := false }.drain 0 s.queue.items).2 := @drain { s with accepting := false } s.queue.items 0
    have drained := shut.after rejects
    split
    · rename_i run
      rw [run] at drained
      exact drained
    · rename_i t run
      rw [run] at drained
      have put : Tally none (s.drained.filterMap id) 0 s (t.putNowait none).2 := drained.before putNowait
      split <;> (rename_i run; rw [run] at put; exact put)

end Clients

end Tally

namespace SchedulerSystem

variable {settings : SchedulerSettings} {s s' : SchedulerSystem} {action : SchedulerAction}

/-- The requests that an action counts. -/
def counts (settings : SchedulerSettings) (s : SchedulerSystem) : SchedulerAction → List RequestRef
  | .close => s.shared.counted none (if s.shared.accepting = true then s.shared.drained.filterMap id else [])
  | .resume task resumption =>
    match s.tasks[task]? with
    | some place => s.shared.counted (place.recorded settings s.shared resumption) (place.turnedAway s.shared).toList
    | none => []
  | .interrupt task =>
    match s.tasks[task]? with
    | some (.generatingOne _ r) => s.shared.counted (some r) []
    | _ => []
  | .submit _ | .cancel .. | .call _ => []

/-- Each counted request is one in the sum of the counters, in whatever system. -/
theorem step_total (step : s.step settings action = some s') :
    s'.shared.metrics.total = s.shared.metrics.total + (s.counts settings action).length := by
  cases action with
  | submit r =>
    have told : Tally none [] 0 s.shared (s.shared.submit r).2 := .submit
    simp only [SchedulerSystem.step] at step
    split at step
    · split at step <;> (rename_i run; rw [run] at told; cases step; exact told.total)
    · cases step
  | cancel r reason =>
    have told : Tally none [] 0 s.shared (s.shared.cancel r reason) := .cancel
    simp only [SchedulerSystem.step] at step
    split at step <;> cases step
    exact told.total
  | close =>
    have told := Tally.close (s := s.shared)
    simp only [SchedulerSystem.step] at step
    split at step <;> cases step
    exact told.total
  | call call =>
    simp only [SchedulerSystem.step] at step
    split at step <;> cases step
    cases call <;> rfl
  | resume task resumption =>
    simp only [SchedulerSystem.step] at step
    split at step
    · cases found : s.tasks[task]? with
      | none =>
        rw [found] at step
        cases step
      | some place =>
        rw [found] at step
        obtain ⟨⟨place', shared⟩, run, rfl⟩ := Option.map_eq_some_iff.mp step
        simp only [counts, found]
        exact (Tally.advance run).total
    · cases step
  | interrupt task =>
    simp only [SchedulerSystem.step] at step
    split at step
    · cases found : s.tasks[task]? with
      | none =>
        rw [found] at step
        cases step
      | some place =>
        rw [found] at step
        obtain ⟨⟨place', shared⟩, run, rfl⟩ := Option.map_eq_some_iff.mp step
        simp only [counts, found]
        cases place <;> cases run
        · rfl
        · rfl
        · rfl
        rename_i caller r
        have told : Tally (some r) [] 0 s.shared ((s.shared.finish r .failed "shutdown grace period expired").record r) :=
          .finishFailed
        exact (told.andThen .modelExecutionFinished).total
    · cases step

end SchedulerSystem

end ServingPlatform
