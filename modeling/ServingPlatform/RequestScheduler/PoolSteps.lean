import ServingPlatform.RequestScheduler.Handles
import ServingPlatform.RequestScheduler.Pools

namespace ServingPlatform

open Scheduling

/-- The exception with which the task is on its way out. -/
def Place.raised : Place → Option Raised
  | .returning _ _ (.error e) | .ended (.error e) => some e
  | .abandoning .. => some taskCancelled
  | _ => none

theorem Place.cut_iff {place : Place} : place.Cut ↔ ∃ e, place.raised = some e := by
  cases place with
  | abandoning caller queuedItems rest => exact iff_of_true trivial ⟨_, rfl⟩
  | returning caller queuedItems result => cases result <;> simp [Place.Cut, Place.raised]
  | ended result => cases result <;> simp [Place.Cut, Place.raised]
  | _ => simp [Place.Cut, Place.raised]

section Raises

variable {settings : SchedulerSettings} {s s' : Scheduling} {place place' : Place} {resumption : Resumption} {e : Raised}
  {fromQueue : Bool} {c : Collecting} {r : RequestRef}

theorem taskDone_raises (run : s.taskDone = (.error e, s')) : e.kind ≠ .cancelledError := by
  unfold Scheduling.taskDone AsyncQueue.taskDone at run
  split at run
  · cases run
  · rename_i raised failed
    cases run
    split at failed
    · cases failed
      simp [valueError]
    · cases failed

theorem itemDone_raises (run : s.itemDone fromQueue = (.error e, s')) : e.kind ≠ .cancelledError := by
  unfold itemDone at run
  split at run
  · exact taskDone_raises run
  · cases run

theorem putNowait_raises {item : Option RequestRef} (run : s.putNowait item = (.error e, s')) : e.kind ≠ .cancelledError := by
  rcases s.putNowait_cases item with ⟨-, put⟩ | ⟨-, put⟩
  · rw [put] at run
    cases run
    simp [queueFull]
  · rw [put] at run
    cases run

theorem consider_raises (run : s.consider settings c r fromQueue = (.error e, s')) : e.kind ≠ .cancelledError := by
  have done : ∀ {t : Scheduling} {goes : Bool × Collecting}, ((t.itemDone fromQueue).1.map fun _ => goes) = .error e →
      e.kind ≠ .cancelledError := by
    intro t goes failed
    cases result : (t.itemDone fromQueue).1 with
    | error raised =>
      rw [result] at failed
      cases failed
      exact itemDone_raises (Prod.ext result rfl)
    | ok _ =>
      rw [result] at failed
      cases failed
  unfold consider at run
  dsimp only at run
  split at run
  · exact done (congrArg Prod.fst run)
  split at run
  · exact done (congrArg Prod.fst run)
  split at run
  · cases run
  split at run
  · split at run
    · rename_i put
      cases run
      exact putNowait_raises put
    · exact done (congrArg Prod.fst run)
  · exact done (congrArg Prod.fst run)

theorem releaseItems_raises {n : Nat} (run : s.releaseItems n = (.error e, s')) : e.kind ≠ .cancelledError := by
  induction n generalizing s with
  | zero => cases run
  | succ n ih =>
    unfold releaseItems at run
    split at run
    · rename_i done
      cases run
      exact taskDone_raises done
    · exact ih run

theorem leave_raises {n : Nat} {result : Except Raised Unit} (run : s.leave n fromQueue result = (.error e, s')) :
    e.kind ≠ .cancelledError ∨ result = .error e := by
  unfold Scheduling.leave at run
  dsimp only at run
  have failed := congrArg Prod.fst run
  dsimp only at failed
  split at failed
  · rename_i raised outer
    cases failed
    exact Or.inl (itemDone_raises (Prod.ext outer rfl))
  · rename_i raised _ inner
    cases failed
    exact Or.inl (releaseItems_raises (Prod.ext inner rfl))
  · exact Or.inr failed

/-- A cancellation comes from outside: a step of the task raises none. -/
theorem advance_raised (step : place.advance settings s resumption = some (place', s')) (raises : place'.raised = some e) :
    e.kind ≠ .cancelledError ∨ place.raised = some e := by
  cases place with
  | loopHead deferred =>
    cases resumption <;> cases deferred <;> try cases step
    · cases raises
    · simp only [Place.advance] at step
      split at step
      · cases step
        cases raises
      · split at step <;> cases step <;> cases raises
  | gettingFirst =>
    cases resumption <;> try cases step
    simp only [Place.advance] at step
    split at step
    · cases step
    · rename_i t next
      rcases done : t.taskDone with ⟨raised | u, t'⟩
      · rw [done] at step
        cases step
        cases raises
        exact Or.inl (taskDone_raises done)
      · rw [done] at step
        cases step
        cases raises
    · split at step <;> cases step <;> cases raises
  | scanning fromQueue c =>
    cases resumption <;> try cases step
    simp only [Place.advance] at step
    split at step
    · split at step
      · split at step
        · rename_i considered
          cases step
          cases raises
          exact Or.inl (consider_raises considered)
        · cases step
          cases raises
        · cases step
          cases raises
      · cases step
        cases raises
        exact Or.inl (by simp [indexError])
    · cases step
      cases raises
  | gathering fromQueue c =>
    cases resumption <;> try cases step
    simp only [Place.advance] at step
    have ends : ∀ t : Scheduling, (t.endCollection fromQueue c).1.raised = none := by
      intro t
      cases fromQueue <;> rfl
    split at step
    · split at step
      · obtain rfl := congrArg Prod.fst (Option.some.inj step)
        rw [ends] at raises
        cases raises
      · cases step
        cases raises
    · obtain rfl := congrArg Prod.fst (Option.some.inj step)
      rw [ends] at raises
      cases raises
  | waiting fromQueue c =>
    have ends : ∀ (t : Scheduling) (c : Collecting), (t.endCollection fromQueue c).1.raised = none := by
      intro t c
      cases fromQueue <;> rfl
    cases resumption with
    | timeout =>
      simp only [Place.advance] at step
      obtain rfl := congrArg Prod.fst (Option.some.inj step)
      rw [ends] at raises
      cases raises
    | results results => cases step
    | result result => cases step
    | raises message => cases step
    | proceed =>
      simp only [Place.advance] at step
      split at step
      · cases step
      · split at step
        · rename_i done
          cases step
          cases raises
          exact Or.inl (taskDone_raises done)
        · split at step
          · rename_i put
            cases step
            cases raises
            exact Or.inl (putNowait_raises put)
          · obtain rfl := congrArg Prod.fst (Option.some.inj step)
            rw [ends] at raises
            cases raises
      · split at step
        · rename_i considered
          cases step
          cases raises
          exact Or.inl (consider_raises considered)
        · cases step
          cases raises
        · obtain rfl := congrArg Prod.fst (Option.some.inj step)
          rw [ends] at raises
          cases raises
  | selecting caller queuedItems now rest active =>
    cases resumption <;> cases rest <;> try (cases active <;> cases step)
    · cases raises
    · cases raises
    · simp only [Place.advance] at step
      split at step
      · cases step
        cases raises
      · split at step <;> cases step <;> cases raises
  | generatingBatch caller queuedItems active => cases resumption <;> cases step <;> cases raises
  | finishing caller queuedItems completed active rest results =>
    cases resumption <;> cases rest <;> cases results <;> cases step <;> cases raises
  | failing caller queuedItems message rest => cases resumption <;> cases rest <;> cases step <;> cases raises
  | abandoning caller queuedItems rest =>
    cases resumption <;> cases rest <;> cases step <;> exact Or.inr raises
  | starting caller request =>
    cases resumption <;> try cases step
    simp only [Place.advance] at step
    split at step
    · cases step
      cases raises
    · split at step <;> cases step <;> cases raises
  | generatingOne caller request => cases resumption <;> cases step <;> cases raises
  | returning caller queuedItems result =>
    cases resumption <;> cases caller <;> try cases step
    · cases result with
      | ok _ => cases raises
      | error raised => exact Or.inr raises
    · simp only [Place.advance] at step
      split at step
      · cases step
        cases raises
      · rename_i left
        cases step
        cases raises
        rcases leave_raises left with other | rfl
        · exact Or.inl other
        · exact Or.inr rfl
  | ended result => cases step

end Raises

namespace Pooled

variable {settings : SchedulerSettings} {s s' : Scheduling} {accepted fresh : List RequestRef} {place place' : Place}
  {resumption : Resumption} {r : RequestRef}

section Calls

theorem starting {caller : Caller} (p : Pooled s fresh (.starting caller r))
    (step : (Place.starting caller r).advance settings s resumption = some (place', s')) : Pooled s' fresh place' := by
  have uncut : ¬(Place.starting caller r).Cut := id
  have owes : (Place.returning caller 0 (.ok ())).owes = (Place.starting caller r).owes := Nat.zero_add _
  cases resumption <;> try cases step
  have drop : ∀ {t}, Drops r s t → Pooled t fresh (.returning caller 0 (.ok ())) := fun drops =>
    p.dropped drops.others drops.queue (.refl _) rfl (fun _ => ⟨uncut, owes⟩) (by simp)
      fun member => drops.sane (p.sane r member)
  simp only [Place.advance] at step
  split at step
  · cases step
    exact drop .record
  split at step <;> cases step
  · have drops : Drops r s.monotonic.2 (s.monotonic.2.finishTimeout r) := .finishTimeout
    exact drop ⟨drops.others, drops.queue, drops.shape, drops.sane⟩
  · rename_i alive _
    have changed : ∀ q, ((((s.timedOut r settings.requestTimeout).2.monotonic.2.set r
        { (s.timedOut r settings.requestTimeout).2.monotonic.2.requests r with
          status := .running, startedAt := (s.timedOut r settings.requestTimeout).2.monotonic.1, batchSize := 1
          batchCollectionMs := 0 }).measure (·.recordModelInvocation)).measure (·.modelExecutionStarted)).view q =
        if q = r then ⟨.running, (s.timedOut r settings.requestTimeout).2.monotonic.1, (s.view r).future⟩ else s.view q :=
      fun q => view_set
    have distinct : (r :: caller.deferred).Nodup := p.nodup_pending
    refine p.touched (r := r) (view_of_ne changed) rfl ⟨?_, fun q inside => List.mem_cons_of_mem _ inside,
      fun _ => ⟨uncut, rfl⟩, by simp⟩ (List.mem_append_left _ List.mem_cons_self) (List.nodup_cons.mp distinct).1 fun member => ?_
    · exact (List.perm_append_singleton r caller.deferred).subperm.trans (List.sublist_append_left _ _).subperm
    · have waited := p.fresh_of_pending (r := r) List.mem_cons_self member
      have queued : (s.view r).status = .queued := waited.2.resolve_right alive
      rw [changed, if_pos rfl]
      refine ⟨fun told => ?_, fun impossible => by cases impossible⟩
      have isOver := (p.sane r member).1 told
      rw [queued] at isOver
      cases isOver

theorem generatingBatch {caller : Caller} {queuedItems : Nat} {active : List RequestRef}
    (p : Pooled s fresh (.generatingBatch caller queuedItems active))
    (step : (Place.generatingBatch caller queuedItems active).advance settings s resumption = some (place', s')) :
    Pooled s' fresh place' := by
  have uncut : ¬(Place.generatingBatch caller queuedItems active).Cut := id
  cases resumption <;> try cases step
  · exact p.moved (fun q => rfl) rfl (.of_perm (.refl _) rfl (fun _ => ⟨uncut, rfl⟩) (by simp))
  · exact p.moved (fun q => rfl) rfl (.of_perm (.refl _) rfl (fun _ => ⟨uncut, rfl⟩) (by simp))

/-- A started request ends; it may go on being in the task's hands. -/
theorem ends (p : Pooled s fresh place) {status : RequestStatus}
    (changed : ∀ q, s'.view q = if q = r then (s.view r).ended status else s.view q) (terminal : status.isTerminal = true)
    (accepts : status ≠ .rejected) (queue : s'.queue = s.queue) (started : r ∈ place.started)
    (pending : place'.pending = place.pending) (fewer : place'.started.Sublist place.started)
    (owes : ¬place'.Cut → ¬place.Cut ∧ place'.owes = place.owes) (going : place' ≠ .ended (.ok ())) : Pooled s' fresh place' := by
  refine p.touched (r := r) (view_of_ne changed) queue ⟨?_, fun q inside => pending ▸ inside, owes, going⟩
    (List.mem_append_right _ started) ?_ fun _ => ?_
  · rw [pending]
    exact (fewer.append_left _).subperm
  · rw [pending]
    exact fun inside => p.not_waits_of_started started (Or.inr inside)
  · rw [changed, if_pos rfl]
    exact RequestView.sane_ended terminal fun same => absurd same accepts

theorem outcome_accepts {r : RequestRef} : s.outcome settings r ≠ .rejected := by
  unfold outcome
  split
  · simp
  · split <;> simp

theorem finishing {caller : Caller} {queuedItems : Nat} {completed : Seconds} {active rest : List RequestRef}
    {results : List GenerationResult} (a : Accounted s accepted (.finishing caller queuedItems completed active rest results))
    (p : Pooled s fresh (.finishing caller queuedItems completed active rest results))
    (step : (Place.finishing caller queuedItems completed active rest results).advance settings s resumption =
      some (place', s')) : Pooled s' fresh place' := by
  have uncut : ¬(Place.finishing caller queuedItems completed active rest results).Cut := id
  cases resumption <;> cases rest <;> cases results <;> try cases step
  · refine p.moved (fun q => rfl) rfl ⟨?_, fun q inside => inside, fun _ => ⟨uncut, rfl⟩, by simp⟩
    exact ((List.nil_sublist active).append_left _).subperm
  · exact p.moved (fun q => rfl) rfl (.of_perm (.refl _) rfl (fun _ => ⟨uncut, rfl⟩) (by simp))
  · exact p.moved (fun q => rfl) rfl (.of_perm (.refl _) rfl (fun _ => ⟨uncut, rfl⟩) (by simp))
  · rename_i r rest result results
    have ends : Ends r s ((s.deliver settings r result completed).recordAndFinish r) := .deliver
    exact p.ends (fun q => view_deliver (f := id)) outcome_isTerminal outcome_accepts ends.queue
      (a.sound.2 r List.mem_cons_self) rfl (.refl _) (fun _ => ⟨uncut, rfl⟩) (by simp)

theorem failing {caller : Caller} {queuedItems : Nat} {message : String} {rest : List RequestRef}
    (p : Pooled s fresh (.failing caller queuedItems message rest))
    (step : (Place.failing caller queuedItems message rest).advance settings s resumption = some (place', s')) :
    Pooled s' fresh place' := by
  have uncut : ¬(Place.failing caller queuedItems message rest).Cut := id
  cases resumption <;> cases rest <;> try cases step
  · exact p.moved (fun q => rfl) rfl (.of_perm (.refl _) rfl (fun _ => ⟨uncut, rfl⟩) (by simp))
  · rename_i r rest
    have ends : Ends r s ((s.fail r message).recordAndFinish r) := .fail
    exact p.ends (fun q => view_fail (f := id)) rfl (by simp) ends.queue List.mem_cons_self rfl
      (List.sublist_cons_self _ _) (fun _ => ⟨uncut, rfl⟩) (by simp)

theorem abandoning {caller : Caller} {queuedItems : Nat} {rest : List RequestRef}
    (p : Pooled s fresh (.abandoning caller queuedItems rest))
    (step : (Place.abandoning caller queuedItems rest).advance settings s resumption = some (place', s')) :
    Pooled s' fresh place' := by
  cases resumption <;> cases rest <;> try cases step
  · exact p.moved (fun q => rfl) rfl ⟨.refl _, fun q inside => inside, fun uncut => absurd trivial uncut, by simp⟩
  · rename_i r rest
    have ends : Ends r s ((s.finish r .failed "shutdown grace period expired").record r) := (Ends.finish rfl).record
    have changed : ∀ q, ((s.finish r .failed "shutdown grace period expired").record r).view q =
        if q = r then (s.view r).ended .failed else s.view q := by
      intro q
      rw [view_record, view_finish]
    exact p.ends changed rfl (by simp) ends.queue List.mem_cons_self rfl (List.sublist_cons_self _ _)
      (fun uncut => absurd trivial uncut) (by simp)

theorem generatingOne {caller : Caller} (p : Pooled s fresh (.generatingOne caller r))
    (step : (Place.generatingOne caller r).advance settings s resumption = some (place', s')) : Pooled s' fresh place' := by
  have uncut : ¬(Place.generatingOne caller r).Cut := id
  have owes : (Place.returning caller 0 (.ok ())).owes = (Place.generatingOne caller r).owes := Nat.zero_add _
  have done : ∀ {t t' : Scheduling} {status : RequestStatus}, Pooled t fresh (.generatingOne caller r) →
      (∀ q, t'.view q = if q = r then (t.view r).ended status else t.view q) → status.isTerminal = true →
      status ≠ .rejected → t'.queue = t.queue → Pooled t' fresh (.returning caller 0 (.ok ())) := by
    intro t t' status p changed terminal accepts queue
    exact p.ends changed terminal accepts queue (List.mem_singleton_self _) rfl (List.nil_sublist _) (fun _ => ⟨uncut, owes⟩)
      (by simp)
  have read : Pooled s.monotonic.2 fresh (.generatingOne caller r) :=
    p.moved (fun q => rfl) rfl (.of_perm (.refl _) rfl (fun _ => ⟨uncut, rfl⟩) (by simp))
  cases resumption with
  | result result =>
    have finished : ∀ {t completed}, Pooled t fresh (.generatingOne caller r) →
        Pooled (((t.deliver settings r result completed).measure (·.modelExecutionFinished)).recordAndFinish r) fresh
          (.returning caller 0 (.ok ())) := by
      intro t completed p
      have ends : Ends r t (((t.deliver settings r result completed).measure (·.modelExecutionFinished)).recordAndFinish r) :=
        .deliverMeasured
      exact done p (fun q => view_deliver) outcome_isTerminal outcome_accepts ends.queue
    simp only [Place.advance] at step
    split at step
    · cases step
      exact finished read
    · cases step
      exact finished p
  | raises message =>
    cases step
    have ends : Ends r s (((s.fail r message).measure (·.modelExecutionFinished)).recordAndFinish r) := .failMeasured
    exact done p (fun q => view_fail) rfl (by simp) ends.queue
  | proceed => cases step
  | timeout => cases step
  | results results => cases step

theorem items_taskDone : s.taskDone.2.queue.items = s.queue.items := by
  rcases s.taskDone_cases with ⟨-, e, done⟩ | ⟨n, -, done⟩ <;> rw [done]

theorem items_itemDone {fromQueue : Bool} : (s.itemDone fromQueue).2.queue.items = s.queue.items := by
  unfold itemDone
  split
  · exact items_taskDone
  · rfl

/-- `queue.task_done()` for the additional items of a batch, as many as are owed. -/
theorem releaseItems_ok {n : Nat} (enough : n ≤ s.queue.unfinished) : s.releaseItems n =
    (.ok (), { s with queue := { s.queue with unfinished := s.queue.unfinished - n } }) := by
  induction n generalizing s with
  | zero => rfl
  | succ n ih =>
    rcases s.taskDone_cases with ⟨spent, -⟩ | ⟨m, left, done⟩
    · omega
    have rest := ih (s := { s with queue := { s.queue with unfinished := m } }) (by dsimp only; omega)
    unfold releaseItems
    rw [done]
    dsimp only at rest ⊢
    rw [rest, show m - n = s.queue.unfinished - (n + 1) by omega]

theorem itemDone_ok {b : Bool} (enough : b.toNat ≤ s.queue.unfinished) : s.itemDone b =
    (.ok (), { s with queue := { s.queue with unfinished := s.queue.unfinished - b.toNat } }) := by
  cases b with
  | false => rfl
  | true =>
    rcases s.taskDone_cases with ⟨spent, -⟩ | ⟨m, left, done⟩
    · rw [spent] at enough
      cases enough
    · rw [itemDone, if_pos rfl, done, Bool.toNat_true, show m = s.queue.unfinished - 1 by omega]

theorem returning {caller : Caller} {queuedItems : Nat} {result : Except Raised Unit}
    (a : Accounted s accepted (.returning caller queuedItems result)) (p : Pooled s fresh (.returning caller queuedItems result))
    (step : (Place.returning caller queuedItems result).advance settings s resumption = some (place', s')) :
    Pooled s' fresh place' := by
  cases resumption <;> cases caller <;> try cases step
  · exact absurd rfl a.sound.1
  rename_i b deferred
  have counted := a.counted
  simp only [Place.owes, Caller.owes] at counted
  have left : s.leave queuedItems b result =
      (result, { s with queue := { s.queue with unfinished := s.queue.unfinished - queuedItems - b.toNat } }) := by
    unfold Scheduling.leave
    rw [releaseItems_ok (by omega)]
    dsimp only
    rw [itemDone_ok (by dsimp only; omega)]
  simp only [Place.advance] at step
  rw [left] at step
  cases result with
  | ok _ =>
    cases step
    have exact_ := p.counted id
    simp only [Place.owes, Caller.owes] at exact_
    refine p.shift (fun q => rfl) (.refl _) (fun q waits => waits) (fun _ => ?_) fun impossible => by cases impossible
    dsimp only [Place.owes]
    omega
  | error e =>
    cases step
    exact p.shift (fun q => rfl) (.refl _) (fun q waits => waits) (fun uncut => absurd trivial uncut)
      fun impossible => by cases impossible

/-- A step of `run_scheduler` keeps the pool. -/
theorem advance (a : Accounted s accepted place) (p : Pooled s fresh place)
    (step : place.advance settings s resumption = some (place', s')) : Pooled s' fresh place' := by
  cases place with
  | loopHead deferred => exact p.loopHead step
  | gettingFirst => exact p.gettingFirst a step
  | scanning fromQueue c => exact p.scanning a step
  | gathering fromQueue c => exact p.gathering a step
  | waiting fromQueue c => exact p.awaiting a step
  | selecting caller queuedItems now rest active => exact p.selecting step
  | generatingBatch caller queuedItems active => exact p.generatingBatch step
  | finishing caller queuedItems completed active rest results => exact p.finishing a step
  | failing caller queuedItems message rest => exact p.failing step
  | abandoning caller queuedItems rest => exact p.abandoning step
  | starting caller request => exact p.starting step
  | generatingOne caller request => exact p.generatingOne step
  | returning caller queuedItems result => exact p.returning a step
  | ended result => cases step

/-- Neither does its cancellation take a request twice. -/
theorem interrupt (p : Pooled s fresh place) (step : place.interrupt s = some (place', s')) : Pooled s' fresh place' := by
  cases place <;> try cases step
  · exact p.moved (fun q => rfl) rfl (.of_perm (.refl _) rfl (fun uncut => absurd trivial uncut) (by simp))
  · refine p.moved (fun q => rfl) rfl ⟨List.nil_subperm, fun q inside => ?_, fun uncut => absurd trivial uncut, by simp⟩
    cases inside
  · refine p.moved (fun q => rfl) rfl ⟨?_, fun q inside => ?_, fun uncut => absurd trivial uncut, by simp⟩
    · exact (List.sublist_append_right _ _).subperm
    · cases inside
  · rename_i caller r
    have ends : Ends r s (((s.finish r .failed "shutdown grace period expired").record r).measure
        (·.modelExecutionFinished)) := (Ends.finish rfl).record.measure
    have changed : ∀ q, (((s.finish r .failed "shutdown grace period expired").record r).measure
        (·.modelExecutionFinished)).view q = if q = r then (s.view r).ended .failed else s.view q := by
      intro q
      rw [view_measure, view_record, view_finish]
    refine p.touched (r := r) (view_of_ne changed) ends.queue ⟨List.nil_subperm, fun q inside => ?_,
      fun uncut => absurd trivial uncut, by simp⟩ (List.mem_append_right _ (List.mem_singleton_self _)) List.not_mem_nil
      fun _ => ?_
    · cases inside
    · rw [changed, if_pos rfl]
      exact RequestView.sane_ended rfl fun impossible => by cases impossible

/-- An uncancelled task goes on uncancelled. -/
theorem uncut (a : Accounted s accepted place) (whole : ¬place.Cut)
    (step : place.advance settings s resumption = some (place', s')) : ¬place'.Cut := by
  intro cut
  obtain ⟨e, raises⟩ := Place.cut_iff.mp cut
  have sound := (a.advance step).sound
  have cancelled : e = taskCancelled := by
    cases place' with
    | abandoning caller queuedItems rest => exact (Option.some.inj raises).symm
    | returning caller queuedItems result =>
      obtain rfl : result = .error e := by
        cases result with
        | ok _ => cases raises
        | error other => rw [Option.some.inj raises]
      exact Except.error.inj (sound.2.resolve_left (by simp))
    | ended result =>
      obtain rfl : result = .error e := by
        cases result with
        | ok _ => cases raises
        | error other => rw [Option.some.inj raises]
      exact Except.error.inj (sound.resolve_left (by simp))
    | _ => cases raises
  rcases advance_raised step raises with other | before
  · exact other (by rw [cancelled]; rfl)
  · exact whole (Place.cut_iff.mpr ⟨e, before⟩)

end Calls

section Clients

/-- A request that is touched by its client goes on waiting where it waits. -/
theorem touchedInPlace (p : Pooled s fresh place) (others : ∀ q, q ≠ r → s'.view q = s.view q) (queue : s'.queue = s.queue)
    (waiting : r ∈ fresh → (s.view r).Fresh → (s'.view r).Fresh) (sane : r ∈ fresh → (s'.view r).Sane) :
    Pooled s' fresh place where
  nodup := by
    unfold Scheduling.pool
    rw [queue]
    exact p.nodup
  counted := by
    rw [queue]
    exact p.counted
  ended := by
    rw [queue]
    exact p.ended
  waiting q member inside := by
    unfold Scheduling.Waits at inside
    rw [queue] at inside
    by_cases same : q = r
    · subst same
      exact waiting member (p.waiting q member inside)
    · rw [others q same]
      exact p.waiting q member inside
  sane q member := by
    by_cases same : q = r
    · subst same
      exact sane member
    · rw [others q same]
      exact p.sane q member

theorem cancel (p : Pooled s fresh place) {reason : String} : Pooled (s.cancel r reason) fresh place := by
  unfold Scheduling.cancel
  split
  · exact p
  · refine p.touchedInPlace (view_of_ne fun q => view_finish) queue_finish (fun _ waited => ?_) fun _ => ?_
    · rw [view_finish, if_pos rfl]
      exact ⟨waited.1, Or.inr rfl⟩
    · rw [view_finish, if_pos rfl]
      exact RequestView.sane_ended rfl fun impossible => by cases impossible

theorem refused (p : Pooled s fresh place) {t : Scheduling} {message : String} (other : r ∉ fresh)
    (from_ : t = s.createFuture r ∨ t = (s.createFuture r).markQueued r) :
    Pooled (t.finish r .rejected message) fresh place := by
  have touches : Touches r s t := by
    rcases from_ with rfl | rfl
    · exact .set
    · exact Touches.set.trans (Touches.monotonic.trans .set)
  have both : Touches r s (t.finish r .rejected message) := touches.trans .finish
  refine p.touchedInPlace (fun q differ => ?_) both.queue (fun member => absurd member other) fun member => absurd member other
  rw [view, both.others q differ, view]

/-- An accepted request, which is in nobody's hands yet, waits in the queue. -/
theorem accept (p : Pooled s fresh place) {size : Nat} {fresh' : List RequestRef} (new : r ∉ s.pool place)
    (going : place ≠ .ended (.ok ())) (before : ∀ q ∈ fresh', q = r ∧ (s.view r).startedAt = 0 ∨ q ≠ r ∧ q ∈ fresh) :
    Pooled { (s.createFuture r).markQueued r with
      queue := { s.queue with items := s.queue.items ++ [some r], unfinished := s.queue.unfinished + 1 }
      maxObservedSize := size } fresh' place := by
  have changed : ∀ q, ((s.createFuture r).markQueued r).view q =
      if q = r then ⟨.queued, (s.view r).startedAt, .pending⟩ else s.view q := by
    intro q
    unfold markQueued
    dsimp only
    rw [view_set]
    by_cases same : q = r
    · rw [if_pos same, if_pos same]
      have created : s.monotonic.2.createFuture r = s.monotonic.2.set r { s.monotonic.2.requests r with future := .pending } := rfl
      have self : (s.createFuture r).requests r = { s.requests r with future := .pending } := requests_set_self
      unfold InferenceRequest.view
      dsimp only
      rw [show (s.createFuture r).monotonic.2.requests r = (s.createFuture r).requests r from rfl, self]
      rfl
    · rw [if_neg same, if_neg same]
      exact (view_set.trans (if_neg same) : (s.createFuture r).view q = s.view q)
  refine ⟨?_, fun uncut => ?_, fun same => absurd same going, fun q member waits => ?_, fun q member => ?_⟩
  · unfold Scheduling.pool
    dsimp only
    rw [List.filterMap_append, show [some r].filterMap id = [r] from rfl, List.append_assoc]
    exact List.perm_middle.nodup_iff.mpr (List.nodup_cons.mpr ⟨new, p.nodup⟩)
  · have counted := p.counted uncut
    dsimp only
    rw [List.length_append, List.length_singleton]
    omega
  · have here := changed q
    refine (?_ : (((s.createFuture r).markQueued r).view q).Fresh)
    rcases before q member with ⟨rfl, unstarted⟩ | ⟨differ, old⟩
    · rw [here, if_pos rfl]
      exact ⟨unstarted, Or.inl rfl⟩
    · rw [here, if_neg differ]
      refine p.waiting q old (waits.imp (fun queued => ?_) id)
      exact (List.mem_append.mp queued).resolve_right (by simpa using differ)
  · have here := changed q
    refine (?_ : (((s.createFuture r).markQueued r).view q).Sane)
    rcases before q member with ⟨rfl, -⟩ | ⟨differ, old⟩
    · rw [here, if_pos rfl]
      exact ⟨fun told => (by cases told), fun impossible => by cases impossible⟩
    · rw [here, if_neg differ]
      exact p.sane q old

theorem ended_ended {v : RequestView} {status : RequestStatus} : (v.ended status).ended status = v.ended status := by
  unfold RequestView.ended
  cases v.future <;> rfl

/-- `close` rejects what waits in the queue. -/
theorem view_drain {items : List (Option RequestRef)} (enough : items.length ≤ s.queue.unfinished) (rejected : Nat)
    (q : RequestRef) :
    (s.drain rejected items).2.view q = if some q ∈ items then (s.view q).ended .rejected else s.view q := by
  induction items generalizing s rejected with
  | nil => simp [drain]
  | cons item rest ih =>
    rw [List.length_cons] at enough
    have away : ∀ t : Scheduling, (t.turnAway item).view q = if some q = item then (t.view q).ended .rejected else t.view q := by
      intro t
      cases item with
      | none => rfl
      | some r =>
        unfold turnAway
        rw [view_measure, view_finish]
        simp only [Option.some.injEq]
        split
        · rename_i same
          rw [same]
        · rfl
    have turned := away { s with queue := { s.queue with items := rest } }
    have queue : ({ s with queue := { s.queue with items := rest } }.turnAway item).queue = { s.queue with items := rest } :=
      queue_turnAway item
    unfold drain
    generalize ({ s with queue := { s.queue with items := rest } } : Scheduling).turnAway item = t at turned queue ⊢
    rcases t.taskDone_cases with ⟨spent, e, done⟩ | ⟨n, left, done⟩
    · rw [queue] at spent
      dsimp only at spent
      omega
    rw [queue] at left
    dsimp only at left
    rw [done]
    dsimp only
    rw [ih (by dsimp only; omega), show ({ t with queue := { t.queue with unfinished := n } } : Scheduling).view q = t.view q
      from rfl, turned, show ({ s with queue := { s.queue with items := rest } } : Scheduling).view q = s.view q from rfl]
    simp only [List.mem_cons]
    by_cases here : some q = item
    · simp [here, ended_ended]
    · simp [here]

theorem close (a : Accounted s accepted place) (p : Pooled s fresh place) : Pooled s.close.2 fresh place := by
  unfold Scheduling.close
  split
  · exact p
  rename_i accepting
  have enough : s.queue.items.length ≤ s.queue.unfinished := by
    have counted := a.counted
    omega
  obtain ⟨n, t, run, emptied, shut, -⟩ := drain_empties (s := { s with accepting := false }) rfl enough 0
  have views := fun q => @view_drain { s with accepting := false } s.queue.items enough 0 q
  have run' : ({ s with accepting := false }.drain 0 s.queue.items) = (.ok n, t) := run
  rw [run'] at views ⊢
  dsimp only at emptied shut views ⊢
  rcases t.putNowait_cases none with ⟨full, -⟩ | ⟨-, put⟩
  · exfalso
    rw [emptied] at full
    simp only [AsyncQueue.full, List.length_nil, Bool.and_eq_true, decide_eq_true_eq] at full
    omega
  rw [put]
  have none_queued : ∀ q : RequestRef, some q ∉ t.queue.items ++ [none] := by
    intro q
    rw [emptied]
    simp
  refine ⟨?_, fun uncut => ?_, fun same => ?_, fun q member waits => ?_, fun q member => ?_⟩
  · unfold Scheduling.pool
    dsimp only
    rw [emptied]
    exact p.nodup_hands
  · have counted := p.counted uncut
    dsimp only
    rw [emptied]
    simp only [List.nil_append, List.length_singleton]
    omega
  · exact absurd (a.leaving (by rw [same]; trivial)) accepting
  · have pending : q ∈ place.pending := waits.resolve_left (none_queued q)
    have absent : some q ∉ s.queue.items := by
      intro queued
      exact (List.nodup_append.mp p.nodup).2.2 q (List.mem_filterMap.mpr ⟨some q, queued, rfl⟩) q
        (List.mem_append_left _ pending) rfl
    have same := views q
    rw [if_neg absent] at same
    refine (?_ : (t.view q).Fresh)
    rw [same]
    exact p.waiting q member (Or.inr pending)
  · refine (?_ : (t.view q).Sane)
    rw [views q]
    split
    · rename_i queued
      exact RequestView.sane_ended rfl fun _ => (p.waiting q member (Or.inl queued)).1
    · exact p.sane q member

end Clients

theorem init (maximum : Int) (requests : RequestRef → InferenceRequest) (clock : Nat → Seconds) :
    Pooled (.init maximum requests clock) [] .gettingFirst where
  nodup := .nil
  counted _ := rfl
  ended impossible := by cases impossible
  waiting q member := by cases member
  sane q member := by cases member

end Pooled

end ServingPlatform
