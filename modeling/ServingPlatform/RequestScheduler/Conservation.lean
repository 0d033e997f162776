import ServingPlatform.RequestScheduler.Batches

namespace ServingPlatform

open Scheduling

namespace Scheduling

variable {s : Scheduling} {r q : RequestRef}

@[simp] theorem shape_createFuture : (s.createFuture r).shape q = s.shape q := shape_set_same rfl

@[simp] theorem shape_markQueued : (s.markQueued r).shape q = s.shape q := by
  have kept : (s.monotonic.2.set r { s.monotonic.2.requests r with queuedAt := s.monotonic.1, status := .queued }).shape q =
      s.monotonic.2.shape q := shape_set_same rfl
  exact kept

theorem shape_submit : (s.submit r).2.shape q = s.shape q := by
  rcases s.submit_cases r with ⟨-, e, t, message, run, rfl | rfl⟩ | ⟨-, -, size, run⟩
  · rw [run, shape_finish, shape_createFuture]
  · rw [run, shape_finish, shape_markQueued, shape_createFuture]
  · rw [run]
    exact shape_markQueued.trans shape_createFuture

theorem shape_cancel {reason : String} : (s.cancel r reason).shape q = s.shape q := by
  unfold cancel
  split
  · rfl
  · exact shape_finish

theorem shape_turnAway (item : Option RequestRef) : (s.turnAway item).shape q = s.shape q := by
  cases item with
  | none => rfl
  | some r => exact shape_finish

theorem shape_drain {items : List (Option RequestRef)} (rejected : Nat) : (s.drain rejected items).2.shape q = s.shape q := by
  induction items generalizing s rejected with
  | nil => rfl
  | cons item rest ih =>
    have away : ({ s with queue := { s.queue with items := rest } }.turnAway item).shape q = s.shape q := shape_turnAway item
    have done := shape_congr (q := q) (requests_taskDone (s := { s with queue := { s.queue with items := rest } }.turnAway item))
    unfold drain
    split
    · rename_i run
      rw [run] at done
      exact done.trans away
    · rename_i run
      rw [run] at done
      exact (ih _).trans (done.trans away)

theorem shape_close : s.close.2.shape q = s.shape q := by
  unfold close
  split
  · rfl
  have drained : ({ s with accepting := false }.drain 0 s.queue.items).2.shape q = s.shape q := shape_drain 0
  split
  · rename_i run
    rw [run] at drained
    exact drained
  · rename_i t run
    rw [run] at drained
    have put := shape_congr (q := q) (@requests_putNowait t none)
    split
    · rename_i put_
      rw [put_] at put
      exact put.trans drained
    · rename_i put_
      rw [put_] at put
      exact put.trans drained

theorem count_filterMap_id (items : List (Option RequestRef)) (r : RequestRef) :
    (items.filterMap id).count r = items.count (some r) := by
  induction items with
  | nil => rfl
  | cons item rest ih =>
    cases item with
    | none => simpa using ih
    | some q =>
      have kept : (some q :: rest).filterMap id = q :: rest.filterMap id := rfl
      rw [kept, List.count_cons, List.count_cons, ih]
      simp

end Scheduling

theorem Place.Fits.congr {settings : SchedulerSettings} {s s' : Scheduling} {place : Place} (fits : place.Fits settings s)
    (shape : ∀ q, s'.shape q = s.shape q) : place.Fits settings s' :=
  fun c here => ⟨(fits c here).1.congr shape, (fits c here).2⟩

/-- Closing does not raise. -/
theorem Accounted.close_ok {s : Scheduling} {accepted : List RequestRef} {place : Place} (a : Accounted s accepted place) :
    ∃ n, s.close.1 = .ok n := by
  unfold Scheduling.close
  split
  · exact ⟨0, rfl⟩
  have enough : s.queue.items.length ≤ s.queue.unfinished := by
    have counted := a.counted
    omega
  obtain ⟨n, t, run, emptied, -⟩ := drain_empties (s := { s with accepting := false }) rfl enough 0
  have run' : ({ s with accepting := false }.drain 0 s.queue.items) = (.ok n, t) := run
  rw [run']
  dsimp only
  rcases t.putNowait_cases none with ⟨full, -⟩ | ⟨-, put⟩
  · exfalso
    rw [emptied] at full
    simp only [AsyncQueue.full, List.length_nil, Bool.and_eq_true, decide_eq_true_eq] at full
    omega
  · rw [put]
    exact ⟨n, rfl⟩

namespace Accounted

variable {s : Scheduling} {accepted : List RequestRef} {place : Place} {r : RequestRef}

theorem pool_accepted (a : Accounted s accepted place) (inside : r ∈ s.pool place) : r ∈ accepted := by
  rcases List.mem_append.mp inside with queued | hands
  · obtain ⟨item, member, same⟩ := List.mem_filterMap.mp queued
    cases item with
    | none => cases same
    | some q =>
      cases same
      exact a.known _ member
  · exact a.mentioned r (Place.pool_mentioned hands)

/-- A request that is not over is in the pool. -/
theorem pool_of_alive (a : Accounted s accepted place) (member : r ∈ accepted) (alive : (s.requests r).terminal = false) :
    r ∈ s.pool place := by
  rcases a.covered r member with isOver | queued | held
  · rw [alive] at isOver
    cases isOver
  · exact List.mem_append_left _ (List.mem_filterMap.mpr ⟨some r, queued, rfl⟩)
  · refine List.mem_append_right _ ?_
    have sound := a.sound
    cases place with
    | finishing caller queuedItems completed active rest results =>
      rcases List.mem_append.mp held with rest | deferred
      · exact List.mem_append_right _ (sound.2 r rest)
      · exact List.mem_append_left _ deferred
    | returning caller queuedItems result =>
      cases result with
      | ok _ => exact List.mem_append_left _ held
      | error e => cases held
    | gettingFirst => cases held
    | ended result => cases held
    | _ =>
      simp only [Place.pending, Place.started, Place.holds, List.mem_append, List.mem_cons, List.not_mem_nil, or_false] at held ⊢
      tauto

end Accounted

namespace SchedulerSystem

variable {settings : SchedulerSettings} {s s' : SchedulerSystem} {action : SchedulerAction} {place : Place}

/-- One `run_scheduler` that nobody cancels, and clients that submit each request once. -/
def Undisturbed (s : SchedulerSystem) : SchedulerAction → Prop
  | .call _ | .interrupt _ => False
  | .submit r => r ∉ s.accepted
  | _ => True

/-- In how many places a request is: in the queue, the deferred deque or the current batch. -/
def placesOf (s : SchedulerSystem) (place : Place) (r : RequestRef) : Nat :=
  s.shared.queue.items.count (some r) + place.deferred.count r + place.batch.count r

/-- The invariant of such a system. -/
structure Conserved (settings : SchedulerSettings) (s : SchedulerSystem) (place : Place) : Prop where
  only : s.tasks = [place]
  accounted : Accounted s.shared s.accepted place
  pooled : Pooled s.shared [] place
  whole : ¬place.Cut
  fits : place.Fits settings s.shared

theorem Conserved.init (maximum : Int) (requests : RequestRef → InferenceRequest) (clock : Nat → Seconds) :
    Conserved settings ⟨.init maximum requests clock, [.gettingFirst], []⟩ .gettingFirst := by
  obtain ⟨place, only, accounted⟩ := Handled.init maximum requests clock
  obtain rfl : Place.gettingFirst = place := by simpa using only
  exact ⟨rfl, accounted, .init maximum requests clock, id, .of_none rfl⟩

theorem Conserved.step (conserved : Conserved settings s place) (room : 0 < settings.maxBatchSize)
    (undisturbed : s.Undisturbed action) (step : s.step settings action = some s') : ∃ place', Conserved settings s' place' := by
  obtain ⟨only, a, p, whole, fits⟩ := conserved
  cases action with
  | call call => exact undisturbed.elim
  | interrupt task => exact undisturbed.elim
  | submit r =>
    have shape : ∀ q, (s.shared.submit r).2.shape q = s.shared.shape q := fun q => shape_submit
    have new : r ∉ s.shared.pool place := fun inside => undisturbed (a.pool_accepted inside)
    simp only [SchedulerSystem.step] at step
    split at step
    · rcases s.shared.submit_cases r with ⟨-, e, t, message, run, from_⟩ | ⟨accepting, -, size, run⟩
      · rw [run] at step shape
        cases step
        exact ⟨place, only, a.refused from_, p.refused List.not_mem_nil from_, whole, fits.congr shape⟩
      · rw [run] at step shape
        cases step
        have going : place ≠ .ended (.ok ()) := by
          rintro rfl
          have closed := a.leaving trivial
          rw [accepting] at closed
          cases closed
        exact ⟨place, only, a.accept accepting, p.accept new going (fun q member => by cases member), whole, fits.congr shape⟩
    · cases step
  | cancel r reason =>
    simp only [SchedulerSystem.step] at step
    split at step <;> cases step
    exact ⟨place, only, a.cancel, p.cancel, whole, fits.congr fun q => shape_cancel⟩
  | close =>
    simp only [SchedulerSystem.step] at step
    split at step <;> cases step
    exact ⟨place, only, a.close, p.close a, whole, fits.congr fun q => shape_close⟩
  | resume task resumption =>
    simp only [SchedulerSystem.step] at step
    split at step
    · cases found : s.tasks[task]? with
      | none =>
        rw [found] at step
        cases step
      | some here =>
        rw [found] at step
        obtain ⟨⟨place', shared⟩, run, rfl⟩ := Option.map_eq_some_iff.mp step
        obtain ⟨rfl, rfl⟩ := sole only found
        refine ⟨place', ?_, a.advance run, p.advance a run, Pooled.uncut a whole run, (Place.fits_advance room a fits run).1⟩
        dsimp only
        rw [only]
        rfl
    · cases step

theorem Conserved.placesOf (conserved : Conserved settings s place) {r : RequestRef} (member : r ∈ s.accepted) :
    s.placesOf place r ≤ 1 ∧ ((s.shared.requests r).terminal = false → s.placesOf place r = 1) := by
  have count : s.placesOf place r = (s.shared.pool place).count r := by
    unfold SchedulerSystem.placesOf Scheduling.pool
    rw [List.count_append, count_filterMap_id, ← place.deferred_batch_perm.count_eq, List.count_append, Nat.add_assoc]
  rw [count]
  refine ⟨List.nodup_iff_count_le_one.mp conserved.pooled.nodup r, fun alive => ?_⟩
  exact List.count_eq_one_of_mem conserved.pooled.nodup (conserved.accounted.pool_of_alive member alive)

/-- In every run of the scheduler that nobody cancels: the queue has one
unfinished item for each that it holds and each that the task has taken and not
marked done, neither the task nor `close` is told of one too many, and none is
left when the task ends; a request that is not over is in one place, and one
that is over in at most one; and each batch that is collected is bounded. -/
theorem queue_conserved (settings : SchedulerSettings) (room : 0 < settings.maxBatchSize) (maximum : Int)
    (requests : RequestRef → InferenceRequest) (clock : Nat → Seconds) (s : SchedulerSystem)
    (run : SchedulerRun settings Undisturbed ⟨.init maximum requests clock, [.gettingFirst], []⟩ s) :
    ∃ place, s.tasks = [place] ∧
      (s.shared.queue.unfinished = s.shared.queue.items.length + place.owes ∧ place.raised = none ∧
        ∃ n, s.shared.close.1 = .ok n) ∧
      (∀ result, place = .ended result → result = .ok () ∧ s.shared.queue.unfinished = 0) ∧
      (∀ r ∈ s.accepted, s.placesOf place r ≤ 1 ∧ ((s.shared.requests r).terminal = false → s.placesOf place r = 1)) ∧
      ∀ resumption place' shared, place.advance settings s.shared resumption = some (place', shared) →
        place.collection.isSome = true → ∀ caller n now batch active, place' = .selecting caller n now batch active →
          active = [] ∧ shared.Bounded settings batch := by
  have conserved : ∃ place, Conserved settings s place := by
    induction run with
    | start => exact ⟨_, .init maximum requests clock⟩
    | next _ undisturbed step ih =>
      obtain ⟨place, conserved⟩ := ih
      exact conserved.step room undisturbed step
  obtain ⟨place, conserved⟩ := conserved
  have counted := conserved.pooled.counted conserved.whole
  have unraised : place.raised = none := by
    cases raises : place.raised with
    | none => rfl
    | some e => exact absurd (Place.cut_iff.mpr ⟨e, raises⟩) conserved.whole
  refine ⟨place, conserved.only, ⟨counted, unraised, conserved.accounted.close_ok⟩, ?_, fun r => conserved.placesOf, ?_⟩
  · rintro (e | ⟨⟩) rfl
    · cases unraised
    · refine ⟨rfl, ?_⟩
      rw [counted, conserved.pooled.ended rfl]
      rfl
  · intro resumption place' shared step collects
    exact ((Place.fits_advance room conserved.accounted conserved.fits step).2 collects).bounded

open Sample in
/-- A request that its client has cancelled stays in the queue, although it is over. -/
theorem cancelled_request_still_queued :
    ∃ s, SchedulerRun Sample.settings Undisturbed start s ∧ 0 ∈ s.accepted ∧ s.placesOf .gettingFirst 0 = 1 ∧
      s.tasks = [.gettingFirst] ∧ (s.shared.requests 0).terminal = true := by
  have submitted : SchedulerRun Sample.settings Undisturbed start _ :=
    .next .start (show start.Undisturbed (.submit 0) from List.not_mem_nil) rfl
  exact ⟨_, .next submitted (show SchedulerSystem.Undisturbed _ (.cancel 0 "client disconnected") from trivial) rfl,
    List.mem_cons_self, rfl, rfl, rfl⟩

open Sample in
theorem queue_conserved_closed :
    ∃ s, start.perform Sample.settings [.submit 0, .close, .resume 0 .proceed] = some s ∧
      ∃ place, s.tasks = [place] ∧ s.shared.queue.unfinished = s.shared.queue.items.length + place.owes := by
  have submitted : SchedulerRun Sample.settings Undisturbed start _ :=
    .next .start (show start.Undisturbed (.submit 0) from List.not_mem_nil) rfl
  have closed := submitted.next (show SchedulerSystem.Undisturbed _ .close from trivial) rfl
  have resumed := closed.next (show SchedulerSystem.Undisturbed _ (.resume 0 .proceed) from trivial) rfl
  obtain ⟨place, only, ⟨counted, -⟩, -⟩ := queue_conserved Sample.settings (by decide) 8 (fun _ => request) (fun n => n + 1) _ resumed
  exact ⟨_, by rfl, place, only, counted⟩

end SchedulerSystem

end ServingPlatform
