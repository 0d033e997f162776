import ServingPlatform.RequestScheduler.Writes

namespace ServingPlatform

namespace Scheduling

variable {settings : SchedulerSettings} {s s' : Scheduling} {r q : RequestRef}

/-- A request that may still become `status`: it is not over, or has ended this way. -/
def Open (s : Scheduling) (r : RequestRef) (status : RequestStatus) : Prop :=
  (s.requests r).terminal = true → s.status r = status

/-- No request that is over changes its status. -/
def Settles (s s' : Scheduling) : Prop := ∀ r, (s.requests r).terminal = true → s'.status r = s.status r

theorem Settles.of_status (same : ∀ q, s'.status q = s.status q) : s.Settles s' := fun q _ => same q

/-- Writing one status settles exactly where that request is open to it. -/
theorem settles_write_iff {status : RequestStatus} (write : ∀ q, s'.status q = if q = r then status else s.status q) :
    s.Settles s' ↔ s.Open r status := by
  constructor
  · intro settles isOver
    have kept := settles r isOver
    rw [write, if_pos rfl] at kept
    exact kept.symm
  · intro isOpen q isOver
    rw [write]
    split
    · rename_i same
      rw [same] at isOver ⊢
      exact (isOpen isOver).symm
    · rfl

theorem open_iff_of_not_terminal (status : RequestStatus) (active : status.isTerminal = false) :
    s.Open r status ↔ (s.requests r).terminal = false := by
  unfold Open InferenceRequest.terminal Scheduling.status
  constructor
  · intro isOpen
    by_contra isOver
    have same := isOpen (by simpa using isOver)
    rw [same] at isOver
    exact isOver active
  · intro unfinished isOver
    rw [unfinished] at isOver
    cases isOver

end Scheduling

open Scheduling

/-- The task's next step writes no status over a terminal one: a request that
times out while it is collected or selected is not over otherwise, a request
that is started is not over, and neither is one whose model call failed,
was abandoned, or has returned a result, a cancelled one apart. -/
def Place.Spares (settings : SchedulerSettings) (s : Scheduling) : Place → Resumption → Prop
  | .loopHead (first :: _), _ => s.accepting = false → s.Open first .rejected
  | .scanning _ c, _ =>
    c.requests.length < settings.maxBatchSize → c.toScan ≠ 0 → ∀ candidate rest, c.deferred = some (candidate :: rest) →
      (s.timedOut candidate settings.requestTimeout).1 = true → s.Open candidate .timeout
  | .waiting _ _, .proceed =>
    ∀ candidate s', s.get? = some (some candidate, s') →
      (s'.timedOut candidate settings.requestTimeout).1 = true → s.Open candidate .timeout
  | .selecting _ _ _ (r :: _) _, _ | .starting _ r, _ =>
    s.status r = .cancelled ∨
      if (s.timedOut r settings.requestTimeout).1 then s.Open r .timeout else (s.requests r).terminal = false
  | .finishing _ _ _ _ (r :: _) (_ :: _), _ =>
    s.status r = .cancelled ∨
      if (s.timedOut r settings.requestTimeout).1 then s.Open r .timeout else s.Open r .completed
  | .generatingOne _ r, .result _ =>
    s.status r = .cancelled ∨
      if ((if (s.requests r).completedAt = 0 then s.monotonic.2 else s).timedOut r settings.requestTimeout).1 then
        s.Open r .timeout else s.Open r .completed
  | .failing _ _ _ (r :: _), _ | .abandoning _ _ (r :: _), _ | .generatingOne _ r, .raises _ => s.Open r .failed
  | _, _ => True

theorem open_outcome_iff {settings : SchedulerSettings} {s : Scheduling} {r : RequestRef} :
    s.Open r (s.outcome settings r) ↔ s.status r = .cancelled ∨
      if (s.timedOut r settings.requestTimeout).1 then s.Open r .timeout else s.Open r .completed := by
  unfold outcome
  by_cases cancelled : s.status r = .cancelled
  · simp only [cancelled, if_true, true_or, iff_true]
    exact fun _ => cancelled
  · simp only [cancelled, if_false, false_or]
    split <;> rfl

section Advance

variable {settings : SchedulerSettings} {s s' : Scheduling} {place' : Place} {resumption : Resumption}

/-- A step settles exactly where the request that it writes is open to the status it writes. -/
theorem settles_written_iff {written : Option (RequestRef × RequestStatus)}
    (after : ∀ q, s'.status q = s.statusAfter written q) :
    s.Settles s' ↔ ∀ r status, written = some (r, status) → s.Open r status := by
  cases written with
  | none => exact iff_of_true (.of_status after) fun r status impossible => by cases impossible
  | some write =>
    obtain ⟨r, status⟩ := write
    rw [settles_write_iff after]
    constructor
    · rintro isOpen _ _ same
      cases same
      exact isOpen
    · exact fun spared => spared r status rfl

/-- A request that is started becomes timed out or running, a cancelled one apart. -/
theorem starts_iff {r : RequestRef} : (s.status r = .cancelled ∨
    if (s.timedOut r settings.requestTimeout).1 then s.Open r .timeout else (s.requests r).terminal = false) ↔
    ∀ q status, (if s.status r = .cancelled then none
      else some (r, if (s.timedOut r settings.requestTimeout).1 then .timeout else .running)) = some (q, status) →
        s.Open q status := by
  by_cases cancelled : s.status r = .cancelled
  · simp [cancelled]
  by_cases expired : (s.timedOut r settings.requestTimeout).1 = true
  · simp [cancelled, expired]
  · rw [if_neg expired, ← open_iff_of_not_terminal .running rfl]
    simp [cancelled, expired]

/-- Sparing the terminal requests is to write over none of them. -/
theorem Place.spares_iff {place : Place} : place.Spares settings s resumption ↔
    ∀ r status, place.written settings s resumption = some (r, status) → s.Open r status := by
  cases place with
  | loopHead deferred =>
    cases deferred with
    | nil => simp [Place.Spares, Place.written]
    | cons first rest => by_cases closed : s.accepting = false <;> simp [Place.Spares, Place.written, closed]
  | scanning fromQueue c =>
    by_cases more : c.requests.length < settings.maxBatchSize ∧ c.toScan ≠ 0
    · cases held : c.deferred with
      | none => simp [Place.Spares, Place.written, held]
      | some deferred =>
        cases deferred with
        | nil => simp [Place.Spares, Place.written, held]
        | cons candidate rest => simp [Place.Spares, Place.written, held, more.1, more.2]
    · refine iff_of_true (fun room scan => absurd ⟨room, scan⟩ more) fun r status impossible => ?_
      dsimp only [Place.written] at impossible
      rw [if_neg more] at impossible
      cases impossible
  | waiting fromQueue c =>
    cases resumption <;> try exact iff_of_true trivial fun _ _ impossible => by cases impossible
    cases taken : s.get? with
    | none => simp [Place.Spares, Place.written, taken]
    | some next =>
      obtain ⟨item, s₁⟩ := next
      cases item <;> simp [Place.Spares, Place.written, taken]
  | selecting caller queuedItems now rest active =>
    cases rest with
    | nil => simp [Place.Spares, Place.written]
    | cons r rest => exact starts_iff
  | finishing caller queuedItems completed active rest results =>
    cases rest <;> cases results <;> simp [Place.Spares, Place.written, open_outcome_iff]
  | failing caller queuedItems message rest => cases rest <;> simp [Place.Spares, Place.written]
  | abandoning caller queuedItems rest => cases rest <;> simp [Place.Spares, Place.written]
  | starting caller request => exact starts_iff
  | generatingOne caller request =>
    cases resumption with
    | result result =>
      dsimp only [Place.Spares, Place.written]
      by_cases unset : (s.requests request).completedAt = 0
      · rw [if_pos unset]
        refine (open_outcome_iff (s := s.monotonic.2)).symm.trans ⟨fun isOpen r status same => ?_, fun spared => spared _ _ rfl⟩
        cases same
        exact isOpen
      · rw [if_neg unset]
        exact open_outcome_iff.symm.trans (by simp)
    | raises message => simp [Place.Spares, Place.written]
    | proceed => simp [Place.Spares, Place.written]
    | timeout => simp [Place.Spares, Place.written]
    | results results => simp [Place.Spares, Place.written]
  | gettingFirst => simp [Place.Spares, Place.written]
  | gathering fromQueue c => simp [Place.Spares, Place.written]
  | generatingBatch caller queuedItems active => simp [Place.Spares, Place.written]
  | returning caller queuedItems result => simp [Place.Spares, Place.written]
  | ended result => simp [Place.Spares, Place.written]

/-- A task's step settles exactly where it spares the terminal requests. -/
theorem Place.advance_settles_iff {place : Place}
    (step : place.advance settings s resumption = some (place', s')) :
    s.Settles s' ↔ place.Spares settings s resumption :=
  (settles_written_iff fun _ => status_advance step).trans spares_iff.symm

end Advance

namespace SchedulerSystem

/-- The step writes no status over a terminal one. -/
def Spares (settings : SchedulerSettings) (s : SchedulerSystem) : SchedulerAction → Prop
  | .submit r =>
    if s.shared.accepting = false ∨ s.shared.queue.full = true then s.shared.Open r .rejected
    else (s.shared.requests r).terminal = false
  | .cancel _ _ | .call _ => True
  | .close => s.shared.accepting = true → ∀ r, some r ∈ s.shared.drained → s.shared.Open r .rejected
  | .resume task resumption => ∀ place, s.tasks[task]? = some place → place.Spares settings s.shared resumption
  | .interrupt task => ∀ caller r, s.tasks[task]? = some (.generatingOne caller r) → s.shared.Open r .failed

end SchedulerSystem

section Clients

variable {settings : SchedulerSettings} {s s' : Scheduling} {r q : RequestRef}

theorem submit_settles_iff : s.Settles (s.submit r).2 ↔
    if s.accepting = false ∨ s.queue.full = true then s.Open r .rejected else (s.requests r).terminal = false := by
  rcases s.submit_cases r with ⟨refused, e, t, message, run, from_⟩ | ⟨accepting, room, size, run⟩
  · rw [run, if_pos refused]
    refine settles_write_iff fun q => ?_
    rw [status_finish]
    split
    · rfl
    · rename_i other
      rcases from_ with rfl | rfl
      · exact status_createFuture
      · rw [status_markQueued, if_neg other, status_createFuture]
  · rw [run, if_neg (by simp [accepting, room]), ← open_iff_of_not_terminal .queued rfl]
    refine settles_write_iff fun q => ?_
    have written : ((s.createFuture r).markQueued r).status q = if q = r then .queued else s.status q := by
      rw [status_markQueued, status_createFuture]
    exact written

theorem close_settles_iff : s.Settles s.close.2 ↔
    (s.accepting = true → ∀ r, some r ∈ s.drained → s.Open r .rejected) := by
  cases accepting : s.accepting with
  | false =>
    have still : s.close.2 = s := by
      unfold close
      rw [if_pos accepting]
    rw [still]
    exact iff_of_true (fun _ _ => rfl) fun impossible => by cases impossible
  | true =>
    constructor
    · intro settles _ r waits isOver
      have kept := settles r isOver
      rw [status_close accepting, if_pos waits] at kept
      exact kept.symm
    · intro isOpen r isOver
      rw [status_close accepting]
      split
      · rename_i waits
        exact (isOpen rfl r waits isOver).symm
      · rfl

theorem cancel_settles {reason : String} : s.Settles (s.cancel r reason) := by
  intro q isOver
  unfold cancel
  split
  · rfl
  · rename_i unfinished
    rw [status_finish, if_neg]
    rintro rfl
    exact unfinished isOver

theorem begin_settles {call : SchedulerCall} : s.Settles (call.begin settings s).2 := by
  cases call <;> exact fun _ _ => rfl

theorem Place.interrupt_settles_iff {place place' : Place} (step : place.interrupt s = some (place', s')) :
    s.Settles s' ↔ ∀ caller r, place = .generatingOne caller r → s.Open r .failed := by
  cases place <;> try cases step
  · exact iff_of_true (fun _ _ => rfl) fun _ _ impossible => by cases impossible
  · exact iff_of_true (fun _ _ => rfl) fun _ _ impossible => by cases impossible
  · exact iff_of_true (fun _ _ => rfl) fun _ _ impossible => by cases impossible
  · rename_i caller r
    have write : ∀ q, (((s.finish r .failed "shutdown grace period expired").record r).measure
        (·.modelExecutionFinished)).status q = if q = r then .failed else s.status q := by simp
    rw [settles_write_iff write]
    constructor
    · rintro isOpen _ _ same
      cases same
      exact isOpen
    · exact fun spared => spared _ _ rfl

end Clients

namespace SchedulerSystem

section Steps

variable {settings : SchedulerSettings} {s s' first : SchedulerSystem} {action : SchedulerAction}

/-- A step of the system settles exactly where it spares the terminal requests. -/
theorem step_settles_iff (step : s.step settings action = some s') :
    s.shared.Settles s'.shared ↔ s.Spares settings action := by
  cases action with
  | submit r =>
    simp only [SchedulerSystem.step] at step
    split at step
    · have run := submit_settles_iff (s := s.shared) (r := r)
      split at step <;> (rename_i submitted; rw [submitted] at run; cases step; exact run)
    · cases step
  | cancel r reason =>
    simp only [SchedulerSystem.step] at step
    split at step <;> cases step
    exact iff_true_intro cancel_settles
  | close =>
    simp only [SchedulerSystem.step] at step
    split at step <;> cases step
    exact close_settles_iff
  | call call =>
    simp only [SchedulerSystem.step] at step
    split at step <;> cases step
    exact iff_true_intro begin_settles
  | resume task resumption =>
    simp only [SchedulerSystem.step] at step
    split at step
    · cases found : s.tasks[task]? with
      | none =>
        rw [found] at step
        cases step
      | some place =>
        rw [found] at step
        obtain ⟨⟨place', shared⟩, run, rfl⟩ := Option.map_eq_some_iff.mp step
        refine (Place.advance_settles_iff run).trans ?_
        simp [Spares, found]
    · cases step
  | interrupt task =>
    simp only [SchedulerSystem.step] at step
    split at step
    · cases found : s.tasks[task]? with
      | none =>
        rw [found] at step
        cases step
      | some place =>
        rw [found] at step
        obtain ⟨⟨place', shared⟩, run, rfl⟩ := Option.map_eq_some_iff.mp step
        refine (Place.interrupt_settles_iff run).trans ?_
        simp [Spares, found]
    · cases step

end Steps

/-- A status that is terminal is final in every run whose steps spare such
requests, and a step that does not spare them overwrites one. -/
theorem terminal_status_final (settings : SchedulerSettings) :
    (∀ (s s' : SchedulerSystem) (action : SchedulerAction), s.step settings action = some s' →
      (s.Spares settings action ↔
        ∀ r, (s.shared.requests r).terminal = true → s'.shared.status r = s.shared.status r)) ∧
    ∀ s s' : SchedulerSystem, SchedulerRun settings (Spares settings) s s' →
      ∀ r, (s.shared.requests r).terminal = true → s'.shared.status r = s.shared.status r := by
  refine ⟨fun s s' action step => (step_settles_iff step).symm, fun s s' run => ?_⟩
  induction run with
  | start => exact fun _ _ => rfl
  | @next middle last action run spares step ih =>
    intro r isOver
    have before := ih r isOver
    have still : (middle.shared.status r).isTerminal = true := by
      rw [before]
      exact isOver
    exact ((step_settles_iff step).mpr spares r still).trans before

open Sample in
/-- A request that was cancelled while it waited is rejected when the queue closes. -/
theorem cancelled_request_rejected :
    ∃ s s', start.perform settings [.submit 0, .cancel 0 "client disconnected"] = some s ∧
      s.step settings .close = some s' ∧ s.shared.status 0 = .cancelled ∧ s'.shared.status 0 = .rejected :=
  ⟨_, _, rfl, rfl, rfl, rfl⟩

open Sample in
theorem terminal_status_final_cancelled :
    ∃ s s', start.perform settings [.submit 0, .cancel 0 "client disconnected"] = some s ∧
      s.step settings .close = some s' ∧ ¬s.Spares settings .close := by
  refine ⟨_, _, rfl, rfl, fun spares => ?_⟩
  have kept := ((terminal_status_final settings).1 _ _ .close rfl).mp spares 0 rfl
  cases kept

end SchedulerSystem

end ServingPlatform
