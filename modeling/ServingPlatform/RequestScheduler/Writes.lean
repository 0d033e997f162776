import ServingPlatform.RequestScheduler.Frames

namespace ServingPlatform

open Scheduling

/-- The request whose status the task's next step writes, with what it writes. -/
def Place.written (settings : SchedulerSettings) (s : Scheduling) : Place → Resumption → Option (RequestRef × RequestStatus)
  | .loopHead (first :: _), _ => if s.accepting = false then some (first, .rejected) else none
  | .scanning _ c, _ =>
    if c.requests.length < settings.maxBatchSize ∧ c.toScan ≠ 0 then
      match c.deferred with
      | some (candidate :: _) => if (s.timedOut candidate settings.requestTimeout).1 then some (candidate, .timeout) else none
      | _ => none
    else none
  | .waiting _ _, .proceed =>
    match s.get? with
    | some (some candidate, s') =>
      if (s'.timedOut candidate settings.requestTimeout).1 then some (candidate, .timeout) else none
    | _ => none
  | .selecting _ _ _ (r :: _) _, _ | .starting _ r, _ =>
    if s.status r = .cancelled then none
    else some (r, if (s.timedOut r settings.requestTimeout).1 then .timeout else .running)
  | .finishing _ _ _ _ (r :: _) (_ :: _), _ => some (r, s.outcome settings r)
  | .generatingOne _ r, .result _ =>
    some (r, (if (s.requests r).completedAt = 0 then s.monotonic.2 else s).outcome settings r)
  | .failing _ _ _ (r :: _), _ | .abandoning _ _ (r :: _), _ | .generatingOne _ r, .raises _ => some (r, .failed)
  | _, _ => none

/-- The status of a request after a step that writes this much. -/
def Scheduling.statusAfter (s : Scheduling) (written : Option (RequestRef × RequestStatus)) (q : RequestRef) : RequestStatus :=
  match written with
  | some (r, status) => if q = r then status else s.status q
  | none => s.status q

section Advance

variable {settings : SchedulerSettings} {s s' : Scheduling} {place' : Place} {resumption : Resumption} {q : RequestRef}

theorem status_loopHead {deferred : List RequestRef}
    (step : (Place.loopHead deferred).advance settings s resumption = some (place', s')) :
    s'.status q = s.statusAfter ((Place.loopHead deferred).written settings s resumption) q := by
  cases resumption <;> cases deferred <;> try cases step
  · rfl
  rename_i first deferred
  simp only [Place.advance] at step
  dsimp only [Place.written]
  by_cases closed : s.accepting = false
  · rw [if_pos closed] at step ⊢
    cases step
    simp [statusAfter]
  · rw [if_neg closed] at step ⊢
    split at step <;> cases step <;> rfl

/-- Considering a candidate writes a status where the candidate has timed out. -/
theorem status_considered {c : Collecting} {candidate : RequestRef} {fromQueue : Bool} :
    (s.consider settings c candidate fromQueue).2.status q = s.statusAfter
      (if (s.timedOut candidate settings.requestTimeout).1 then some (candidate, .timeout) else none) q := by
  by_cases expired : (s.timedOut candidate settings.requestTimeout).1 = true <;> simp [statusAfter, expired]

theorem status_scanning {fromQueue : Option Bool} {c : Collecting}
    (step : (Place.scanning fromQueue c).advance settings s resumption = some (place', s')) :
    s'.status q = s.statusAfter ((Place.scanning fromQueue c).written settings s resumption) q := by
  cases resumption <;> try cases step
  simp only [Place.advance] at step
  dsimp only [Place.written]
  by_cases more : c.requests.length < settings.maxBatchSize ∧ c.toScan ≠ 0
  · rw [if_pos more] at step ⊢
    cases held : c.deferred with
    | none =>
      rw [held] at step
      cases step
      rfl
    | some deferred =>
      rw [held] at step
      cases deferred with
      | nil =>
        cases step
        rfl
      | cons candidate rest =>
        dsimp only at step
        have considered : s' = (s.consider settings { c with deferred := some rest, toScan := c.toScan - 1 }
            candidate false).2 := by
          split at step <;> (rename_i run; cases step; rw [run])
        rw [considered]
        exact status_considered
  · rw [if_neg more] at step ⊢
    cases step
    rfl

theorem status_gathering {fromQueue : Option Bool} {c : Collecting}
    (step : (Place.gathering fromQueue c).advance settings s resumption = some (place', s')) : s'.status q = s.status q := by
  cases resumption <;> try cases step
  simp only [Place.advance] at step
  split at step
  · split at step
    · obtain rfl := congrArg Prod.snd (Option.some.inj step)
      exact status_endCollection.trans status_monotonic
    · cases step
      exact status_monotonic
  · obtain rfl := congrArg Prod.snd (Option.some.inj step)
    exact status_endCollection

theorem status_waiting {fromQueue : Option Bool} {c : Collecting}
    (step : (Place.waiting fromQueue c).advance settings s resumption = some (place', s')) :
    s'.status q = s.statusAfter ((Place.waiting fromQueue c).written settings s resumption) q := by
  cases resumption <;> try cases step
  · simp only [Place.advance] at step
    dsimp only [Place.written]
    cases taken : s.get? with
    | none =>
      rw [taken] at step
      cases step
    | some next =>
      obtain ⟨item, s₁⟩ := next
      have kept := requests_get? taken
      rw [taken] at step
      cases item with
      | none =>
        have done : s₁.taskDone.2.requests = s.requests := requests_taskDone.trans kept
        dsimp only at step
        split at step
        · rename_i run
          rw [run] at done
          cases step
          exact status_congr done
        rename_i s₂ run
        rw [run] at done
        have put : (s₂.putNowait none).2.requests = s.requests := requests_putNowait.trans done
        split at step <;> (rename_i run; rw [run] at put)
        · cases step
          exact status_congr put
        · obtain rfl := congrArg Prod.snd (Option.some.inj step)
          exact status_endCollection.trans (status_congr put)
      | some candidate =>
        have considered : s'.status q = (s₁.consider settings c candidate true).2.status q := by
          dsimp only at step
          split at step <;> (rename_i run; rw [run]; obtain rfl := congrArg Prod.snd (Option.some.inj step))
          · rfl
          · rfl
          · exact status_endCollection
        rw [considered, status_considered]
        unfold statusAfter
        rw [status_congr kept]
  · obtain rfl := congrArg Prod.snd (Option.some.inj step)
    exact status_endCollection

theorem status_selecting {caller : Caller} {queuedItems : Nat} {now : Seconds} {rest active : List RequestRef}
    (step : (Place.selecting caller queuedItems now rest active).advance settings s resumption = some (place', s')) :
    s'.status q = s.statusAfter ((Place.selecting caller queuedItems now rest active).written settings s resumption) q := by
  obtain rfl : resumption = .proceed := by
    cases resumption <;> first | rfl | (cases rest <;> cases active <;> cases step)
  cases rest with
  | nil =>
    cases active <;> cases step
    · rfl
    · exact status_setBatchSize
  | cons r rest =>
    simp only [Place.advance] at step
    dsimp only [Place.written]
    by_cases cancelled : s.status r = .cancelled
    · rw [if_pos cancelled] at step ⊢
      cases step
      exact status_record
    rw [if_neg cancelled] at step ⊢
    split at step <;> (rename_i expired; cases step)
    · simp [statusAfter, expired]
    · simp [statusAfter, expired]

theorem status_starting {caller : Caller} {r : RequestRef}
    (step : (Place.starting caller r).advance settings s resumption = some (place', s')) :
    s'.status q = s.statusAfter ((Place.starting caller r).written settings s resumption) q := by
  cases resumption <;> try cases step
  simp only [Place.advance] at step
  dsimp only [Place.written]
  by_cases cancelled : s.status r = .cancelled
  · rw [if_pos cancelled] at step ⊢
    cases step
    exact status_record
  rw [if_neg cancelled] at step ⊢
  split at step <;> (rename_i expired; cases step)
  · simp [statusAfter, expired]
  · simp [statusAfter, expired]

theorem status_generatingOne {caller : Caller} {r : RequestRef}
    (step : (Place.generatingOne caller r).advance settings s resumption = some (place', s')) :
    s'.status q = s.statusAfter ((Place.generatingOne caller r).written settings s resumption) q := by
  cases resumption with
  | result result =>
    simp only [Place.advance] at step
    dsimp only [Place.written]
    by_cases unset : (s.requests r).completedAt = 0
    · rw [if_pos unset] at step ⊢
      cases step
      rw [status_recordAndFinish, status_measure, status_deliver]
      rfl
    · rw [if_neg unset] at step ⊢
      cases step
      rw [status_recordAndFinish, status_measure, status_deliver]
      rfl
  | raises message =>
    cases step
    rw [status_recordAndFinish, status_measure, status_fail]
    rfl
  | proceed => cases step
  | timeout => cases step
  | results results => cases step

theorem status_returning {caller : Caller} {queuedItems : Nat} {result : Except Raised Unit}
    (step : (Place.returning caller queuedItems result).advance settings s resumption = some (place', s')) :
    s'.status q = s.status q := by
  cases resumption <;> cases caller <;> try cases step
  · rfl
  rename_i fromQueue deferred
  have kept : (s.leave queuedItems fromQueue result).2.requests = s.requests := requests_leave
  simp only [Place.advance] at step
  split at step <;> (rename_i run; rw [run] at kept; cases step; exact status_congr kept)

theorem status_gettingFirst (step : Place.gettingFirst.advance settings s resumption = some (place', s')) :
    s'.status q = s.status q := by
  cases resumption <;> try cases step
  refine status_congr ?_
  simp only [Place.advance] at step
  cases taken : s.get? with
  | none =>
    rw [taken] at step
    cases step
  | some next =>
    obtain ⟨item, s₁⟩ := next
    have kept := requests_get? taken
    rw [taken] at step
    cases item with
    | none =>
      cases step
      exact requests_taskDone.trans kept
    | some first =>
      dsimp only at step
      split at step <;> cases step <;> exact kept

/-- What a task's step does to the statuses. -/
theorem Place.status_advance {place : Place} (step : place.advance settings s resumption = some (place', s')) :
    s'.status q = s.statusAfter (place.written settings s resumption) q := by
  cases place with
  | loopHead deferred => exact status_loopHead step
  | gettingFirst => exact status_gettingFirst step
  | scanning fromQueue c => exact status_scanning step
  | gathering fromQueue c => exact status_gathering step
  | waiting fromQueue c => exact status_waiting step
  | selecting caller queuedItems now rest active => exact status_selecting step
  | generatingBatch caller queuedItems active => cases resumption <;> cases step <;> rfl
  | finishing caller queuedItems completed active rest results =>
    cases resumption <;> cases rest <;> cases results <;> try cases step
    · rfl
    · rfl
    · rfl
    · rw [status_recordAndFinish, status_deliver]
      rfl
  | failing caller queuedItems message rest =>
    cases resumption <;> cases rest <;> try cases step
    · rfl
    · rw [status_recordAndFinish, status_fail]
      rfl
  | abandoning caller queuedItems rest =>
    cases resumption <;> cases rest <;> try cases step
    · rfl
    · rw [status_record, status_finish]
      rfl
  | starting caller request => exact status_starting step
  | generatingOne caller request => exact status_generatingOne step
  | returning caller queuedItems result => exact status_returning step
  | ended result => cases step

end Advance

/-- The requests that `close` rejects: those that wait in the queue. -/
def Scheduling.drained (s : Scheduling) : List (Option RequestRef) := s.queue.items.take (s.queue.unfinished + 1)

section Clients

variable {settings : SchedulerSettings} {s s' : Scheduling} {r q : RequestRef}

theorem status_drain {rejected : Nat} {items : List (Option RequestRef)} :
    (s.drain rejected items).2.status q =
      if some q ∈ items.take (s.queue.unfinished + 1) then .rejected else s.status q := by
  induction items generalizing s rejected with
  | nil => simp [drain]
  | cons item rest ih =>
    simp only [List.take_succ_cons, List.mem_cons]
    unfold drain
    have count : ({ s with queue := { s.queue with items := rest } }.turnAway item).queue.unfinished =
        s.queue.unfinished := by rw [queue_turnAway]
    have written : ({ s with queue := { s.queue with items := rest } }.turnAway item).status q =
        if some q = item then .rejected else s.status q := status_turnAway item
    generalize ({ s with queue := { s.queue with items := rest } } : Scheduling).turnAway item = t at *
    rcases t.taskDone_cases with ⟨spent, e, done⟩ | ⟨n, left, done⟩
    · rw [done, written, ← count, spent]
      simp
    · rw [done]
      have kept : ({ t with queue := { t.queue with unfinished := n } } : Scheduling).status q = t.status q := rfl
      refine ih.trans ?_
      rw [kept, written, ← count, left]
      by_cases here : some q = item <;> simp [here]

/-- What `close` leaves of the statuses. -/
theorem status_close (accepting : s.accepting = true) :
    s.close.2.status q = if some q ∈ s.drained then .rejected else s.status q := by
  have written : ({ s with accepting := false }.drain 0 s.queue.items).2.status q =
      if some q ∈ s.drained then .rejected else s.status q := status_drain
  rw [← written]
  unfold close
  rw [if_neg (by simp [accepting])]
  rcases run : ({ s with accepting := false }.drain 0 s.queue.items) with ⟨e | rejected, t⟩
  · rw [run]
  · rw [run]
    rcases t.putNowait_cases none with ⟨-, put⟩ | ⟨-, put⟩ <;> dsimp only <;> rw [put]
    rfl

theorem status_submit : (s.submit r).2.status q = if q = r then
    if s.accepting = false ∨ s.queue.full = true then .rejected else .queued
  else s.status q := by
  rcases s.submit_cases r with ⟨refused, e, t, message, run, made⟩ | ⟨accepting, room, size, run⟩
  · rw [run, if_pos refused, status_finish]
    split
    · rfl
    rename_i differ
    rcases made with rfl | rfl
    · exact status_createFuture
    · rw [status_markQueued, if_neg differ, status_createFuture]
  · have open_ : ¬(s.accepting = false ∨ s.queue.full = true) := by
      rw [accepting, room]
      decide
    rw [run, if_neg open_]
    refine Eq.trans (b := ((s.createFuture r).markQueued r).status q) rfl ?_
    rw [status_markQueued, status_createFuture]

theorem status_cancel {reason : String} :
    (s.cancel r reason).status q = if q = r ∧ (s.requests r).terminal = false then .cancelled else s.status q := by
  unfold cancel
  cases isOver : (s.requests r).terminal with
  | true => simp
  | false => simp

end Clients

namespace SchedulerSystem

variable {settings : SchedulerSettings} {s s' : SchedulerSystem} {action : SchedulerAction} {r : RequestRef}

/-- A status that the action writes to a request. -/
def Writes (settings : SchedulerSettings) (s : SchedulerSystem) : SchedulerAction → RequestRef → RequestStatus → Prop
  | .submit q, r, status =>
    r = q ∧ status = if s.shared.accepting = false ∨ s.shared.queue.full = true then .rejected else .queued
  | .cancel q _, r, status => r = q ∧ (s.shared.requests q).terminal = false ∧ status = .cancelled
  | .close, r, status => s.shared.accepting = true ∧ some r ∈ s.shared.drained ∧ status = .rejected
  | .call _, _, _ => False
  | .resume task resumption, r, status =>
    ∃ place, s.tasks[task]? = some place ∧ place.written settings s.shared resumption = some (r, status)
  | .interrupt task, r, status => (∃ caller, s.tasks[task]? = some (.generatingOne caller r)) ∧ status = .failed

/-- A step leaves a status as it is, or writes it. -/
theorem step_status (step : s.step settings action = some s') :
    s'.shared.status r = s.shared.status r ∨ s.Writes settings action r (s'.shared.status r) := by
  cases action with
  | submit q =>
    have written := status_submit (s := s.shared) (r := q) (q := r)
    simp only [SchedulerSystem.step] at step
    split at step
    · have after : s'.shared = (s.shared.submit q).2 := by
        split at step <;> (rename_i run; rw [run]; cases step; rfl)
      rw [after, written]
      split
      · rename_i same
        exact Or.inr ⟨same, rfl⟩
      · exact Or.inl rfl
    · cases step
  | cancel q reason =>
    simp only [SchedulerSystem.step] at step
    split at step <;> cases step
    dsimp only
    rw [status_cancel]
    split
    · rename_i cancels
      exact Or.inr ⟨cancels.1, cancels.2, rfl⟩
    · exact Or.inl rfl
  | close =>
    simp only [SchedulerSystem.step] at step
    split at step <;> cases step
    cases accepting : s.shared.accepting with
    | false =>
      refine Or.inl ?_
      dsimp only
      unfold close
      rw [if_pos accepting]
    | true =>
      dsimp only
      rw [status_close accepting]
      split
      · rename_i waits
        exact Or.inr ⟨accepting, waits, rfl⟩
      · exact Or.inl rfl
  | call call =>
    simp only [SchedulerSystem.step] at step
    split at step <;> cases step
    cases call <;> exact Or.inl rfl
  | resume task resumption =>
    simp only [SchedulerSystem.step] at step
    split at step
    · cases found : s.tasks[task]? with
      | none =>
        rw [found] at step
        cases step
      | some place =>
        rw [found] at step
        obtain ⟨⟨place', shared⟩, run, rfl⟩ := Option.map_eq_some_iff.mp step
        have after := Place.status_advance (q := r) run
        dsimp only
        unfold statusAfter at after
        split at after
        · rename_i q status written
          split at after
          · rename_i same
            rw [after, same]
            exact Or.inr ⟨place, found, written⟩
          · exact Or.inl after
        · exact Or.inl after
    · cases step
  | interrupt task =>
    simp only [SchedulerSystem.step] at step
    split at step
    · cases found : s.tasks[task]? with
      | none =>
        rw [found] at step
        cases step
      | some place =>
        rw [found] at step
        obtain ⟨⟨place', shared⟩, run, rfl⟩ := Option.map_eq_some_iff.mp step
        cases place <;> cases run
        · exact Or.inl rfl
        · exact Or.inl rfl
        · exact Or.inl rfl
        rename_i caller q
        dsimp only
        rw [status_measure, status_record, status_finish]
        split
        · rename_i same
          exact Or.inr ⟨⟨caller, same ▸ found⟩, rfl⟩
        · exact Or.inl rfl
    · cases step

end SchedulerSystem

end ServingPlatform
