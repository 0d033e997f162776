import ServingPlatform.Gateway.Runs
import ServingPlatform.RequestScheduler.Conservation

namespace ServingPlatform

open Scheduling

variable {S : Type} {backend : InferenceBackend S}

/-- A queued record may end in any way but as completed, and a running one in any way but as rejected. -/
theorem RequestStatus.recordState_of_terminal {status : RequestStatus} (isOver : status.isTerminal = true) :
    ∃ target, status.recordState = some target ∧ (status ≠ .completed → target ∈ RequestState.queued.allowed) ∧
      (status ≠ .rejected → target ∈ RequestState.running.allowed) := by
  cases status <;> cases isOver <;> exact ⟨_, rfl, by decide, by decide⟩

namespace RequestRecord

variable {record : RequestRecord} {status : RequestStatus} {startedAt now : Seconds}

theorem alive_of_queued (queued : record.status = .queued) : record.terminal = false := by
  unfold terminal
  rw [queued]
  rfl

/-- A queued record is finished by a status that may follow from where it is:
without a start it does not complete, and once started it is not rejected. -/
theorem finished_queued (queued : record.status = .queued) (isOver : status.isTerminal = true)
    (completes : status = .completed → startedAt ≠ 0) (rejects : status = .rejected → startedAt = 0) :
    ∃ record', record.finished status startedAt now = .ok record' := by
  obtain ⟨target, found, waits, runs⟩ := RequestStatus.recordState_of_terminal isOver
  unfold finished
  rw [found]
  dsimp only
  rw [if_neg (by simp [alive_of_queued queued])]
  split
  · rename_i starts
    have started : record.transition .running startedAt = .ok (record.enter .running startedAt) :=
      transition_ok (by rw [queued]; decide)
    rw [started]
    exact ⟨_, transition_ok (runs fun rejected => starts.2 (rejects rejected))⟩
  · rename_i unstarted
    refine ⟨_, transition_ok ?_⟩
    rw [queued]
    exact waits fun completed => unstarted ⟨queued, completes completed⟩

/-- A queued record that has no start cannot complete. -/
theorem finished_unstarted (queued : record.status = .queued) :
    ∃ raised, record.finished .completed 0 now = .error raised ∧ raised.kind = .invalidStateTransition := by
  have waits : ¬(record.status = .queued ∧ (0 : Seconds) ≠ 0) := fun both => both.2 rfl
  have refuses : RequestState.completed ∉ RequestState.queued.allowed := by decide
  unfold finished
  dsimp only [RequestStatus.recordState]
  rw [if_neg (by simp [alive_of_queued queued]), if_neg waits]
  rcases record.transition_cases .completed now with ⟨allowed, -⟩ | ⟨-, raised, refused, kind⟩
  · rw [queued] at allowed
    exact absurd allowed refuses
  · exact ⟨raised, refused, kind⟩

end RequestRecord

namespace SchedulerSystem

variable {settings : SchedulerSettings} {s s' : SchedulerSystem} {shared : Scheduling} {r : RequestRef}

/-- The accepted requests are pooled by the scheduler's task. -/
def Pooling (s : SchedulerSystem) : Prop := ∀ place, s.tasks = [place] → Pooled s.shared s.accepted place

namespace Pooling

theorem init (maximum : Int) (requests : RequestRef → InferenceRequest) (clock : Nat → Seconds) :
    Pooling ⟨.init maximum requests clock, [.gettingFirst], []⟩ := by
  intro place only
  cases only
  exact .init maximum requests clock

theorem touched (pooling : s.Pooling) (touches : Touches r s.shared shared) (other : r ∉ s.accepted) :
    Pooling { s with shared } :=
  fun place only => (pooling place only).touchedInPlace (fun q differ => by rw [view, touches.others q differ, view]) touches.queue
    (fun member => absurd member other) fun member => absurd member other

theorem kept (pooling : s.Pooling) (view : ∀ q, shared.view q = s.shared.view q) (queue : shared.queue = s.shared.queue) :
    Pooling { s with shared } := by
  intro place only
  have p := pooling place only
  refine p.touchedInPlace (r := 0) (fun q _ => view q) queue (fun _ waits => ?_) fun member => ?_
  · rw [view]
    exact waits
  · rw [view]
    exact p.sane 0 member

theorem cancel (pooling : s.Pooling) {reason : String} : Pooling { s with shared := s.shared.cancel r reason } :=
  fun place only => (pooling place only).cancel

theorem accept (pooling : s.Pooling) (enlisted : s.Enlisted) (other : r ∉ s.accepted) (unstarted : (s.shared.view r).startedAt = 0)
    (submits : s.shared.submit r = (.ok (), shared)) : Pooling { s with shared, accepted := r :: s.accepted } := by
  intro place only
  obtain ⟨place, tracked, here, sub, a⟩ := enlisted
  obtain rfl : _ = place := by simpa using only.symm.trans here
  rcases s.shared.submit_cases r with ⟨-, e, t, message, run, -⟩ | ⟨accepting, -, size, run⟩
  · rw [run] at submits
    cases submits
  · rw [run] at submits
    cases submits
    have going : place ≠ .ended (.ok ()) := by
      rintro rfl
      have closed := a.leaving trivial
      rw [accepting] at closed
      cases closed
    refine (pooling _ here).accept (fun inside => other (sub r (a.pool_accepted inside))) going fun q member => ?_
    rcases List.mem_cons.mp member with rfl | old
    · exact Or.inl ⟨rfl, unstarted⟩
    · exact Or.inr ⟨fun same => other (same ▸ old), old⟩

theorem refuse (pooling : s.Pooling) (other : r ∉ s.accepted) {raised : Raised}
    (submits : s.shared.submit r = (.error raised, shared)) : Pooling { s with shared } := by
  intro place only
  rcases s.shared.submit_cases r with ⟨-, e, t, message, run, from_⟩ | ⟨-, -, size, run⟩
  · rw [run] at submits
    cases submits
    exact (pooling place only).refused other from_
  · rw [run] at submits
    cases submits

theorem step (pooling : s.Pooling) (enlisted : s.Enlisted) {action : SchedulerAction} (lifespan : s.Lifespan action)
    (step : s.step settings action = some s') : s'.Pooling := by
  obtain ⟨place, tracked, only, sub, a⟩ := enlisted
  have p := pooling place only
  cases action with
  | submit r => exact lifespan.elim
  | cancel r reason => exact lifespan.elim
  | call call => exact lifespan.elim
  | close =>
    simp only [SchedulerSystem.step] at step
    split at step <;> cases step
    intro place' only'
    obtain rfl : place = place' := by simpa using only.symm.trans only'
    exact p.close a
  | resume task resumption =>
    simp only [SchedulerSystem.step] at step
    split at step
    · cases found : s.tasks[task]? with
      | none =>
        rw [found] at step
        cases step
      | some here =>
        rw [found] at step
        obtain ⟨⟨next, shared⟩, run, rfl⟩ := Option.map_eq_some_iff.mp step
        obtain ⟨rfl, rfl⟩ := sole only found
        intro place' only'
        dsimp only at only'
        rw [only] at only'
        obtain rfl : next = place' := by simpa using only'
        exact p.advance a run
    · cases step
  | interrupt task =>
    simp only [SchedulerSystem.step] at step
    split at step
    · cases found : s.tasks[task]? with
      | none =>
        rw [found] at step
        cases step
      | some here =>
        rw [found] at step
        obtain ⟨⟨next, shared⟩, run, rfl⟩ := Option.map_eq_some_iff.mp step
        obtain ⟨rfl, rfl⟩ := sole only found
        intro place' only'
        dsimp only at only'
        rw [only] at only'
        obtain rfl : next = place' := by simpa using only'
        exact p.interrupt run
    · cases step

end Pooling

end SchedulerSystem

namespace Gateway

variable {settings : GatewaySettings} {g g' g₁ : Gateway backend} {h : Handler} {i : Nat}

/-- Each stored record that is not over, and each active request, is that of a
handler that waits. A handler that has returned left its record stored as over
and its request inactive, and nothing was raised for a forbidden transition. -/
structure Finalized (g : Gateway backend) : Prop where
  stored : ∀ requestId record, g.platformRequests.get? requestId = some record → record.terminal = false →
    ∃ h ∈ g.handlers, h.place = .waiting ∧ h.requestId = requestId
  active : ∀ requestId item, g.activeGatewayRequests.get? requestId = some item →
    ∃ h ∈ g.handlers, h.place = .waiting ∧ h.requestId = requestId
  ended : ∀ h ∈ g.handlers, ∀ result, h.place = .ended result → g.Over h ∧ g.activeGatewayRequests.get? h.requestId = none ∧
    ∀ raised, result = .error raised → raised.kind ≠ .invalidStateTransition

/-- Only `generate` is served. -/
def Generates : GatewayAction → Prop
  | .generateStream .. | .cancelRequest .. => False
  | _ => True

/-- No handler is cancelled once its item has completed, and the clock of an item that completed did not start it at zero. -/
def Prompt (g : Gateway backend) : GatewayAction → Prop
  | .interrupt i => ∀ h, g.handlers[i]? = some h → g.status h.item ≠ .completed
  | .resume i _ => ∀ h, g.handlers[i]? = some h → g.status h.item = .completed → (g.shared.requests h.item).startedAt ≠ 0
  | _ => True

/-- The invariant of a gateway that serves `generate` only. -/
structure Orderly (g : Gateway backend) : Prop where
  coherent : g.Coherent
  pooling : g.scheduler.Pooling
  finalized : g.Finalized
  waiting : ∀ h ∈ g.handlers, h.live →
    h.place = .waiting ∧ h.record.status = .queued ∧ h.item ∈ g.scheduler.accepted ∧ ¬g.Over h

theorem conclude_saves (queued : h.record.status = .queued) (known : g.platformRequests.contains h.requestId = true)
    (isOver : (g.status h.item).isTerminal = true) {startedAt : Seconds} (completes : g.status h.item = .completed → startedAt ≠ 0)
    (rejects : g.status h.item = .rejected → startedAt = 0) (result : Except Raised Unit) :
    ∃ record, record.requestId = h.requestId ∧ record.terminal = true ∧
      g.conclude h startedAt result = ({ h with place := .ended result }, { g.withShared g.shared.monotonic.2 with
        platformRequests := g.platformRequests.insert record
        activeGatewayRequests := g.activeGatewayRequests.erase h.requestId }) := by
  have alive := RequestRecord.alive_of_queued queued
  obtain ⟨record, finishes⟩ : ∃ record, h.record.finished (g.status h.item) startedAt g.shared.monotonic.1 = .ok record :=
    RequestRecord.finished_queued queued isOver completes rejects
  obtain ⟨same, -, ends⟩ := RequestRecord.finished_spec alive finishes
  obtain ⟨target, found, -⟩ := RequestStatus.recordState_of_terminal isOver
  have finished : record.terminal = true := by
    unfold RequestRecord.terminal
    rw [ends target found]
    exact (RequestStatus.isTerminal_of_recordState found).2
  refine ⟨record, same, finished, ?_⟩
  have stored : g.platformRequests.contains record.requestId = true := by
    rw [same]
    exact known
  unfold conclude finishPlatformRequest
  dsimp only
  rw [finishes]
  dsimp only [withShared]
  unfold RequestStore.save
  rw [if_pos stored]
  dsimp only
  rw [if_pos finished, same]
  rfl

/-- A handler that saves its queued record as completed without a start ends with an error. -/
theorem conclude_refuses (queued : h.record.status = .queued) (completed : g.status h.item = .completed)
    (result : Except Raised Unit) :
    ∃ raised g₁, raised.kind = .invalidStateTransition ∧
      g.conclude h 0 result = ({ h with place := .ended (.error raised) }, g₁) ∧ g₁.handlers = g.handlers := by
  obtain ⟨raised, refused, kind⟩ : ∃ raised, h.record.finished .completed 0 g.shared.monotonic.1 = .error raised ∧
      raised.kind = .invalidStateTransition := RequestRecord.finished_unstarted queued
  refine ⟨raised, g.withShared g.shared.monotonic.2, kind, ?_, rfl⟩
  unfold conclude finishPlatformRequest
  dsimp only
  rw [completed, refused]

/-- A handler in the list after one was replaced. -/
theorem mem_handlers_set {h' k : Handler} (member : k ∈ g.handlers.set i h') :
    k = h' ∨ ∃ j, j ≠ i ∧ g.handlers[j]? = some k := by
  obtain ⟨j, here⟩ := List.mem_iff_getElem?.mp member
  rw [List.getElem?_set] at here
  split at here
  · split at here
    · cases here
      exact Or.inl rfl
    · cases here
  · rename_i differ
    exact Or.inr ⟨j, fun same => differ same.symm, here⟩

theorem mem_set_of_ne {h' k : Handler} {j : Nat} (differ : j ≠ i) (found : g.handlers[j]? = some k) : k ∈ g.handlers.set i h' := by
  refine List.mem_iff_getElem?.mpr ⟨j, ?_⟩
  rw [List.getElem?_set, if_neg fun same => differ same.symm]
  exact found

namespace Orderly

theorem index (found : g.handlers[i]? = some h) {k : Handler} (member : k ∈ g.handlers)
    (differ : k.requestId ≠ h.requestId) : ∃ j, j ≠ i ∧ g.handlers[j]? = some k := by
  obtain ⟨j, there⟩ := List.mem_iff_getElem?.mp member
  refine ⟨j, ?_, there⟩
  rintro rfl
  cases found.symm.trans there
  exact differ rfl

theorem sane (o : g.Orderly) (member : h ∈ g.handlers) (live : h.live) : (g.shared.view h.item).Sane := by
  obtain ⟨place, -, only, -⟩ := o.coherent.enlisted
  exact (o.pooling place only).sane _ (o.waiting h member live).2.2.1

/-- No live handler has a record that is over. -/
theorem spares (o : g.Orderly) (settings : GatewaySettings) (action : GatewayAction) : Spares settings g action := by
  have spared : ∀ scheduling, Spares.spared settings g scheduling :=
    fun scheduling h member live isOver => absurd isOver (o.waiting h member live).2.2.2
  cases action with
  | resume i resumption =>
    intro h found isOver status written
    have member := List.mem_of_getElem? found
    by_cases live : h.live
    · exact absurd isOver (o.waiting h member live).2.2.2
    · obtain ⟨result, ended⟩ := not_forall_not.mp live
      rw [ended] at written
      cases written
  | close => exact spared _
  | schedule resumption => exact spared _
  | interruptScheduler => exact spared _
  | _ => trivial

/-- Nothing that the handlers know of has changed. -/
theorem still (o : g.Orderly) (coherent : g₁.Coherent) (pooling : g₁.scheduler.Pooling) (handlers : g₁.handlers = g.handlers)
    (accepted : g₁.scheduler.accepted = g.scheduler.accepted) (store : g₁.platformRequests = g.platformRequests)
    (active : g₁.activeGatewayRequests = g.activeGatewayRequests) : g₁.Orderly where
  coherent := coherent
  pooling := pooling
  finalized := by
    refine ⟨?_, ?_, ?_⟩
    · rw [store, handlers]
      exact o.finalized.stored
    · rw [active, handlers]
      exact o.finalized.active
    · unfold Over
      rw [store, active, handlers]
      exact o.finalized.ended
  waiting := by
    unfold Over
    rw [store, handlers, accepted]
    exact o.waiting

/-- A waiting handler saves its record as over and returns. -/
theorem concluded (o : g.Orderly) (found : g.handlers[i]? = some h) {record : RequestRecord}
    (same : record.requestId = h.requestId) (isOver : record.terminal = true) {result : Except Raised Unit}
    (lawful : ∀ raised, result = .error raised → raised.kind ≠ .invalidStateTransition)
    (handlers : g₁.handlers = g.handlers.set i { h with place := .ended result }) (coherent : g₁.Coherent)
    (pooling : g₁.scheduler.Pooling) (accepted : g₁.scheduler.accepted = g.scheduler.accepted)
    (store : g₁.platformRequests = g.platformRequests.insert record)
    (active : g₁.activeGatewayRequests = g.activeGatewayRequests.erase h.requestId) : g₁.Orderly := by
  have elsewhere : ∀ {id : String}, id ≠ h.requestId → g₁.platformRequests.get? id = g.platformRequests.get? id := by
    intro id differ
    rw [store, RequestStore.get?_insert, if_neg]
    rw [same]
    exact differ
  have inactive : ∀ {id : String}, g₁.activeGatewayRequests.get? id =
      if id = h.requestId then none else g.activeGatewayRequests.get? id := by
    intro id
    rw [active, Dict.get?_erase]
  have apart : ∀ {j : Nat} {k : Handler}, j ≠ i → g.handlers[j]? = some k → k.requestId ≠ h.requestId :=
    fun differ there here => differ (o.coherent.distinct there found (Or.inr here))
  refine ⟨coherent, pooling, ⟨fun id other there alive => ?_, fun id item there => ?_, fun k member last ended => ?_⟩,
    fun k member live => ?_⟩
  · by_cases here : id = h.requestId
    · rw [here, ← same, store, RequestStore.get?_insert_self] at there
      cases there
      rw [isOver] at alive
      cases alive
    · rw [elsewhere here] at there
      obtain ⟨k, member, waits, own⟩ := o.finalized.stored id other there alive
      obtain ⟨j, differ, place⟩ := index found member (by rw [own]; exact here)
      rw [handlers]
      exact ⟨k, mem_set_of_ne differ place, waits, own⟩
  · rw [inactive] at there
    split at there
    · cases there
    · rename_i here
      obtain ⟨k, member, waits, own⟩ := o.finalized.active id item there
      obtain ⟨j, differ, place⟩ := index found member (by rw [own]; exact here)
      rw [handlers]
      exact ⟨k, mem_set_of_ne differ place, waits, own⟩
  · rw [handlers] at member
    rcases mem_handlers_set member with rfl | ⟨j, differ, there⟩
    · cases ended
      refine ⟨⟨record, ?_, isOver⟩, ?_, lawful⟩
      · rw [store]
        have own : Handler.requestId { h with place := .ended result } = record.requestId := same.symm
        rw [own]
        exact RequestStore.get?_insert_self
      · rw [inactive]
        exact if_pos rfl
    · obtain ⟨there_over, gone, good⟩ := o.finalized.ended k (List.mem_of_getElem? there) last ended
      refine ⟨?_, ?_, good⟩
      · unfold Over
        rw [elsewhere (apart differ there)]
        exact there_over
      · rw [inactive, if_neg (apart differ there)]
        exact gone
  · rw [handlers] at member
    rcases mem_handlers_set member with rfl | ⟨j, differ, there⟩
    · exact (live _ rfl).elim
    · obtain ⟨waits, queued, known, alive⟩ := o.waiting k (List.mem_of_getElem? there) live
      refine ⟨waits, queued, ?_, ?_⟩
      · rw [accepted]
        exact known
      · unfold Over
        rw [elsewhere (apart differ there)]
        exact alive

theorem scheduled (o : g.Orderly) {action : SchedulerAction} (lifespan : g.scheduler.Lifespan action)
    (acts : g.onScheduler settings action = some g') : g'.Orderly := by
  have spared : Spares.spared settings g action := fun h member live isOver => absurd isOver (o.waiting h member live).2.2.2
  have coherent := (o.coherent.scheduled lifespan spared acts).1
  obtain ⟨scheduler, step, rfl⟩ := Option.map_eq_some_iff.mp acts
  have accepted := (o.coherent.enlisted.step lifespan step).2
  exact o.still coherent (o.pooling.step o.coherent.enlisted lifespan step) rfl accepted rfl rfl

/-- What a waiting handler raises itself is no forbidden transition. -/
theorem answer_lawful {item : InferenceRequest} {raised : Raised} (answers : answer item = .error raised) :
    raised.kind ≠ .invalidStateTransition := by
  unfold answer at answers
  split at answers
  · cases answers
    simp [apiError]
  split at answers
  · cases answers
    simp [apiError]
  split at answers
  · cases answers
    simp [apiError]
  · cases answers

/-- Only a waiting handler goes on. -/
theorem resumes_waiting (o : g.Orderly) (found : g.handlers[i]? = some h) {resumption : HandlerResumption}
    {next : Handler × Gateway backend} (run : g.resume settings h h.place resumption = some next) :
    h.live ∧ (g.shared.requests h.item).future = .resolved ∧
      next = g.conclude h (g.shared.requests h.item).startedAt (answer (g.shared.requests h.item)) := by
  by_cases live : h.live
  · refine ⟨live, ?_⟩
    rw [(o.waiting h (List.mem_of_getElem? found) live).1] at run
    cases resumption <;> try cases run
    simp only [resume] at run
    split at run
    · rename_i resolved
      exact ⟨resolved, (Option.some.inj run).symm⟩
    · cases run
  · obtain ⟨result, ended⟩ := not_forall_not.mp live
    rw [ended] at run
    cases run

theorem interrupts_waiting (o : g.Orderly) (found : g.handlers[i]? = some h) {next : Handler × Gateway backend}
    (run : g.interrupt h h.place = some next) :
    h.live ∧ next = (g.withShared (g.shared.cancel h.item "client disconnected")).conclude h 0 (.error cancelledError) := by
  by_cases live : h.live
  · refine ⟨live, ?_⟩
    rw [(o.waiting h (List.mem_of_getElem? found) live).1] at run
    exact (Option.some.inj run).symm
  · obtain ⟨result, ended⟩ := not_forall_not.mp live
    rw [ended] at run
    cases run

theorem resume (o : g.Orderly) {resumption : HandlerResumption} (prompt : g.Prompt (.resume i resumption))
    (acts : g.act settings (.resume i resumption) = some g') : g'.Orderly := by
  have coherent := (o.coherent.act (o.spares settings _) acts).1
  simp only [Gateway.act] at acts
  split at acts
  · obtain ⟨h, found, run⟩ := Option.bind_eq_some_iff.mp acts
    obtain ⟨next, goes, run⟩ := Option.bind_eq_some_iff.mp run
    obtain ⟨live, resolved, rfl⟩ := o.resumes_waiting found goes
    obtain ⟨-, queued, -⟩ := o.waiting h (List.mem_of_getElem? found) live
    obtain ⟨told, rejects⟩ := o.sane (List.mem_of_getElem? found) live
    obtain ⟨record, same, isOver, concludes⟩ := conclude_saves queued (o.coherent.stored found) (told resolved) (prompt h found) rejects
      (answer (g.shared.requests h.item))
    rw [concludes] at run
    cases run
    exact o.concluded found same isOver (fun _ => answer_lawful) rfl coherent (o.pooling.kept (fun _ => rfl) rfl) rfl rfl rfl
  · cases acts

theorem interrupt (o : g.Orderly) (prompt : g.Prompt (.interrupt i)) (acts : g.act settings (.interrupt i) = some g') :
    g'.Orderly := by
  have coherent := (o.coherent.act (o.spares settings _) acts).1
  simp only [Gateway.act] at acts
  split at acts
  · obtain ⟨h, found, run⟩ := Option.bind_eq_some_iff.mp acts
    obtain ⟨next, goes, run⟩ := Option.bind_eq_some_iff.mp run
    obtain ⟨live, rfl⟩ := o.interrupts_waiting found goes
    obtain ⟨-, queued, -⟩ := o.waiting h (List.mem_of_getElem? found) live
    have stands : (g.shared.requests h.item).terminal = true ∧
        (g.shared.cancel h.item "client disconnected").status h.item = g.status h.item ∨
        (g.shared.cancel h.item "client disconnected").status h.item = .cancelled := by
      rw [status_cancel]
      by_cases settled : (g.shared.requests h.item).terminal = true
      · exact Or.inl ⟨settled, if_neg (by simp [settled])⟩
      · exact Or.inr (if_pos ⟨rfl, by simpa using settled⟩)
    have isOver : ((g.withShared (g.shared.cancel h.item "client disconnected")).status h.item).isTerminal = true := by
      rw [status_withShared]
      rcases stands with ⟨settled, kept⟩ | cancelled
      · rw [kept]
        exact settled
      · rw [cancelled]
        rfl
    have incomplete : (g.withShared (g.shared.cancel h.item "client disconnected")).status h.item = .completed →
        (0 : Seconds) ≠ 0 := by
      rw [status_withShared]
      intro completed
      rcases stands with ⟨-, kept⟩ | cancelled
      · exact absurd (kept.symm.trans completed) (prompt h found)
      · cases cancelled.symm.trans completed
    obtain ⟨record, same, isOver, concludes⟩ := conclude_saves (g := g.withShared (g.shared.cancel h.item "client disconnected"))
      queued (o.coherent.stored found) isOver incomplete (fun _ => rfl) (.error cancelledError)
    rw [concludes] at run
    cases run
    have lawful : ∀ raised, (.error cancelledError : Except Raised Unit) = .error raised →
        raised.kind ≠ .invalidStateTransition := by
      intro raised is_
      cases is_
      simp [cancelledError]
    have pooling : SchedulerSystem.Pooling { g.scheduler with
        shared := (g.shared.cancel h.item "client disconnected").monotonic.2 } :=
      (o.pooling.cancel (r := h.item)).kept (fun _ => rfl) rfl
    exact o.concluded found same isOver lawful rfl coherent pooling rfl rfl rfl
  · cases acts

/-- A new handler waits, under a new identifier. -/
theorem entered (o : g.Orderly) {record : RequestRecord} (queued : record.status = .queued) (coherent : g₁.Coherent)
    (pooling : g₁.scheduler.Pooling) (fresh : g.platformRequests.contains record.requestId = false)
    (accepted : g₁.scheduler.accepted = g.created :: g.scheduler.accepted)
    (handlers : g₁.handlers = g.handlers ++ [⟨g.created, record, .waiting⟩])
    (store : g₁.platformRequests = g.platformRequests.insert record)
    (active : g₁.activeGatewayRequests = g.activeGatewayRequests.insert record.requestId g.created) : g₁.Orderly := by
  have alive := RequestRecord.alive_of_queued queued
  have new : (⟨g.created, record, .waiting⟩ : Handler) ∈ g₁.handlers := by
    rw [handlers]
    exact List.mem_append_right _ List.mem_cons_self
  have old : ∀ k ∈ g.handlers, k ∈ g₁.handlers := by
    intro k member
    rw [handlers]
    exact List.mem_append_left _ member
  have apart : ∀ k ∈ g.handlers, k.requestId ≠ record.requestId := by
    intro k member same
    obtain ⟨j, there⟩ := List.mem_iff_getElem?.mp member
    have known := o.coherent.stored there
    rw [same, fresh] at known
    cases known
  have elsewhere : ∀ {id : String}, id ≠ record.requestId → g₁.platformRequests.get? id = g.platformRequests.get? id := by
    intro id differ
    rw [store, RequestStore.get?_insert, if_neg differ]
  refine ⟨coherent, pooling, ⟨fun id other there open_ => ?_, fun id item there => ?_, fun k member last ended => ?_⟩,
    fun k member live => ?_⟩
  · by_cases here : id = record.requestId
    · exact ⟨_, new, rfl, here.symm⟩
    · rw [elsewhere here] at there
      obtain ⟨k, member, waits⟩ := o.finalized.stored id other there open_
      exact ⟨k, old k member, waits⟩
  · by_cases here : id = record.requestId
    · exact ⟨_, new, rfl, here.symm⟩
    · rw [active, Dict.get?_insert, if_neg here] at there
      obtain ⟨k, member, waits⟩ := o.finalized.active id item there
      exact ⟨k, old k member, waits⟩
  · rw [handlers] at member
    rcases List.mem_append.mp member with before | after
    · obtain ⟨isOver, gone, lawful⟩ := o.finalized.ended k before last ended
      refine ⟨?_, ?_, lawful⟩
      · unfold Over
        rw [elsewhere (apart k before)]
        exact isOver
      · rw [active, Dict.get?_insert, if_neg (apart k before)]
        exact gone
    · cases List.mem_singleton.mp after
      cases ended
  · rw [handlers] at member
    rw [accepted]
    rcases List.mem_append.mp member with before | after
    · obtain ⟨waits, still, known, open_⟩ := o.waiting k before live
      refine ⟨waits, still, List.mem_cons_of_mem _ known, ?_⟩
      unfold Over
      rw [elsewhere (apart k before)]
      exact open_
    · cases List.mem_singleton.mp after
      refine ⟨rfl, queued, List.mem_cons_self, ?_⟩
      rintro ⟨last, there, isOver⟩
      have here : (g.platformRequests.insert record).get? record.requestId = some last := by
        rw [← store]
        exact there
      rw [RequestStore.get?_insert_self] at here
      cases here
      rw [alive] at isOver
      cases isOver

/-- A new record is saved as over at once. -/
theorem rejected (o : g.Orderly) {record record' : RequestRecord} (same : record'.requestId = record.requestId)
    (isOver : record'.terminal = true) (coherent : g₁.Coherent) (pooling : g₁.scheduler.Pooling)
    (fresh : g.platformRequests.contains record.requestId = false) (accepted : g₁.scheduler.accepted = g.scheduler.accepted)
    (handlers : g₁.handlers = g.handlers) (store : g₁.platformRequests = (g.platformRequests.insert record).insert record')
    (active : g₁.activeGatewayRequests = (g.activeGatewayRequests.insert record.requestId g.created).erase record.requestId) :
    g₁.Orderly := by
  have apart : ∀ k ∈ g.handlers, k.requestId ≠ record.requestId := by
    intro k member here
    obtain ⟨j, there⟩ := List.mem_iff_getElem?.mp member
    have known := o.coherent.stored there
    rw [here, fresh] at known
    cases known
  have elsewhere : ∀ {id : String}, id ≠ record.requestId → g₁.platformRequests.get? id = g.platformRequests.get? id := by
    intro id differ
    rw [store, RequestStore.get?_insert, same, if_neg differ, RequestStore.get?_insert, if_neg differ]
  have inactive : ∀ {id : String}, g₁.activeGatewayRequests.get? id =
      if id = record.requestId then none else g.activeGatewayRequests.get? id := by
    intro id
    rw [active, Dict.get?_erase]
    split
    · rfl
    · rename_i differ
      rw [Dict.get?_insert, if_neg differ]
  refine ⟨coherent, pooling, ⟨fun id other there alive => ?_, fun id item there => ?_, fun k member last ended => ?_⟩,
    fun k member live => ?_⟩
  · by_cases here : id = record.requestId
    · rw [here, ← same, store, RequestStore.get?_insert_self] at there
      cases there
      rw [isOver] at alive
      cases alive
    · rw [elsewhere here] at there
      rw [handlers]
      exact o.finalized.stored id other there alive
  · rw [inactive] at there
    split at there
    · cases there
    · rw [handlers]
      exact o.finalized.active id item there
  · rw [handlers] at member
    obtain ⟨there, gone, lawful⟩ := o.finalized.ended k member last ended
    refine ⟨?_, ?_, lawful⟩
    · unfold Over
      rw [elsewhere (apart k member)]
      exact there
    · rw [inactive, if_neg (apart k member)]
      exact gone
  · rw [handlers] at member
    unfold Over
    rw [accepted, elsewhere (apart k member)]
    exact o.waiting k member live

end Orderly

/-- A record that can be made reaches the queue. -/
theorem platformRequest_made {body : GenerateRequest} {requestId tenantId : String} {tokens : Int} {now : Seconds}
    {received : RequestRecord} (made : Submission.request ⟨tenantId, body.prompt, tokens, body.maxNewTokens, body.temperature,
      body.priority, .finite (body.deadlineSeconds.getD settings.scheduling.requestTimeout)⟩ requestId settings.modelName now =
        .ok received) : ∃ record, platformRequest settings body requestId tenantId tokens now = .ok record := by
  have status : received.status = .received := by
    unfold Submission.request at made
    split at made
    · split at made <;> cases made
      rfl
    · cases made
  have validated : received.transition .validated now = .ok (received.enter .validated now) :=
    RequestRecord.transition_ok (by rw [status]; decide)
  have admitted : (received.enter .validated now).transition .admitted now =
      .ok ((received.enter .validated now).enter .admitted now) :=
    RequestRecord.transition_ok (by rw [RequestRecord.enter_status]; decide)
  have queued : ((received.enter .validated now).enter .admitted now).transition .queued now =
      .ok (((received.enter .validated now).enter .admitted now).enter .queued now) :=
    RequestRecord.transition_ok (by rw [RequestRecord.enter_status]; decide)
  refine ⟨((received.enter .validated now).enter .admitted now).enter .queued now, ?_⟩
  unfold platformRequest
  dsimp only
  rw [made]
  show (do
      let record ← received.transition .validated now
      let record ← record.transition .admitted now
      record.transition .queued now) = _
  rw [validated]
  show (do
      let record ← (received.enter .validated now).transition .admitted now
      record.transition .queued now) = _
  rw [admitted]
  exact queued

/-- A record that cannot be made raises no forbidden transition. -/
theorem platformRequest_raises {body : GenerateRequest} {requestId tenantId : String} {tokens : Int} {now : Seconds}
    {raised : Raised} (run : platformRequest settings body requestId tenantId tokens now = .error raised) :
    raised.kind = .valueError := by
  cases made : Submission.request ⟨tenantId, body.prompt, tokens, body.maxNewTokens, body.temperature, body.priority,
      .finite (body.deadlineSeconds.getD settings.scheduling.requestTimeout)⟩ requestId settings.modelName now with
  | error first =>
    unfold platformRequest at run
    dsimp only at run
    rw [made] at run
    cases run
    unfold Submission.request at made
    split at made
    · split at made <;> cases made
      rfl
    · cases made
      rfl
  | ok received =>
    obtain ⟨record, done⟩ := platformRequest_made made
    cases done.symm.trans run

section Generate

variable {body : GenerateRequest} {requestId tenantId : String} {tokens : Int}

theorem refuse_same (g : Gateway backend) (raised : Raised) :
    (g.refuse raised).2.scheduler.accepted = g.scheduler.accepted ∧ (g.refuse raised).2.handlers = g.handlers ∧
      (g.refuse raised).2.platformRequests = g.platformRequests ∧
      (g.refuse raised).2.activeGatewayRequests = g.activeGatewayRequests ∧
      (g.scheduler.Pooling → (g.refuse raised).2.scheduler.Pooling) ∧
      ∀ answer, (g.refuse raised).1 = .error answer → answer.kind ≠ .invalidStateTransition := by
  have lawful : ∀ {code message : String} {answer : Raised}, (.error (apiError code message) : Except Raised Unit) = .error answer →
      answer.kind ≠ .invalidStateTransition := by
    intro code message answer same
    cases same
    simp [apiError]
  unfold Gateway.refuse
  split <;> exact ⟨rfl, rfl, rfl, rfl, fun pooling => pooling.kept (fun _ => rfl) rfl, fun _ => lawful⟩

/-- Whatever becomes of a call of `generate`, it raises no forbidden transition. -/
theorem Orderly.generate (o : g.Orderly) :
    (g.generate settings body requestId tenantId tokens).2.Orderly ∧ ∀ raised,
      (g.generate settings body requestId tenantId tokens).1 = .error raised → raised.kind ≠ .invalidStateTransition := by
  have made := o.coherent.addItem (.new body tokens (body.deadlineSeconds.map (g.shared.monotonic.1 + ·)))
  have coherent : (g.generate settings body requestId tenantId tokens).2.Coherent := o.coherent.generate.1
  have added : ((g.withShared g.shared.monotonic.2).addItem
      (.new body tokens (body.deadlineSeconds.map (g.shared.monotonic.1 + ·)))).scheduler.Pooling :=
    o.pooling.touched (Touches.monotonic.trans .set) o.coherent.unaccepted
  have unstarted : (((g.withShared g.shared.monotonic.2).addItem
      (.new body tokens (body.deadlineSeconds.map (g.shared.monotonic.1 + ·)))).shared.view g.created).startedAt = 0 := by
    have written : ((g.withShared g.shared.monotonic.2).addItem
        (.new body tokens (body.deadlineSeconds.map (g.shared.monotonic.1 + ·)))).shared.view g.created =
        (g.shared.monotonic.2.set g.created (.new body tokens (body.deadlineSeconds.map (g.shared.monotonic.1 + ·)))).view
          g.created := rfl
    rw [written, view_set, if_pos rfl]
    rfl
  unfold Gateway.generate at coherent ⊢
  dsimp only at coherent ⊢
  cases asked : platformRequest settings body requestId tenantId tokens g.shared.monotonic.1 with
  | error raised =>
    rw [asked] at coherent
    refine ⟨o.still coherent added made.handlers made.accepted made.store made.active, fun other same => ?_⟩
    cases same
    rw [platformRequest_raises asked]
    simp
  | ok record =>
    rw [asked] at coherent
    obtain ⟨rfl, queued⟩ := platformRequest_spec asked
    have alive := RequestRecord.alive_of_queued queued
    dsimp only at coherent ⊢
    rcases made.enter record with ⟨raised, run⟩ | ⟨g₂, run, entered, -, scheduler⟩
    · rw [run] at coherent ⊢
      refine ⟨o.still coherent added made.handlers made.accepted made.store made.active, fun other same => ?_⟩
      unfold Gateway.enter RequestStore.create at run
      split at run
      · rename_i refused
        split at refused <;> cases refused
        cases run
        cases same
        simp [valueError]
      · cases run
    rw [run] at coherent ⊢
    dsimp only at coherent ⊢
    have item : g₂.created - 1 = g.created := by rw [entered.created, Nat.add_sub_cancel]
    rw [item] at coherent ⊢
    have pooling : g₂.scheduler.Pooling := by
      rw [scheduler]
      exact added
    have other : g.created ∉ g₂.scheduler.accepted := by
      rw [entered.accepted]
      exact o.coherent.unaccepted
    split
    · rename_i shared submits
      rw [submits] at coherent
      have first : (g₂.shared.view g.created).startedAt = 0 := by
        unfold Gateway.shared
        rw [scheduler]
        exact unstarted
      refine ⟨o.entered queued coherent (pooling.accept entered.enlisted other first submits) entered.fresh ?_ ?_ entered.store
        entered.active, fun raised same => by cases same⟩
      · dsimp only
        rw [entered.accepted]
      · dsimp only
        rw [entered.handlers]
    · rename_i raised shared submits
      rw [submits] at coherent
      dsimp only at coherent
      obtain ⟨record', finishes⟩ : ∃ record', record.finished .rejected 0 shared.monotonic.1 = .ok record' :=
        RequestRecord.finished_queued queued rfl (fun impossible => by cases impossible) fun _ => rfl
      obtain ⟨same, -, ends⟩ := RequestRecord.finished_spec alive finishes
      have isOver : record'.terminal = true := by
        unfold RequestRecord.terminal
        rw [ends .rejected rfl]
        rfl
      have stored : g₂.platformRequests.contains record'.requestId = true := by
        rw [same, entered.store]
        exact RequestStore.contains_insert_self
      have finished : (g₂.withShared shared).finishPlatformRequest record .rejected 0 =
          (.ok record', { (g₂.withShared shared).withShared shared.monotonic.2 with
            platformRequests := g₂.platformRequests.insert record'
            activeGatewayRequests := g₂.activeGatewayRequests.erase record'.requestId }) := by
        unfold finishPlatformRequest
        dsimp only [shared_withShared]
        rw [finishes]
        dsimp only [withShared]
        unfold RequestStore.save
        rw [if_pos stored]
        dsimp only
        rw [if_pos isOver]
      rw [finished] at coherent ⊢
      dsimp only at coherent ⊢
      obtain ⟨accepted, handlers, store, active, pooled, lawful⟩ := refuse_same { (g₂.withShared shared).withShared
        shared.monotonic.2 with
          platformRequests := g₂.platformRequests.insert record'
          activeGatewayRequests := g₂.activeGatewayRequests.erase record'.requestId } raised
      refine ⟨o.rejected same isOver coherent (pooled ?_) entered.fresh ?_ ?_ ?_ ?_, lawful⟩
      · exact (pooling.refuse other submits).kept (fun _ => rfl) rfl
      · exact accepted.trans entered.accepted
      · exact handlers.trans entered.handlers
      · rw [store]
        dsimp only
        rw [entered.store]
      · rw [active]
        dsimp only
        rw [entered.active, same]

end Generate

/-- A prompt step keeps the invariant. -/
theorem Orderly.act (o : g.Orderly) {action : GatewayAction} (generates : Generates action) (prompt : g.Prompt action)
    (acts : g.act settings action = some g') : g'.Orderly := by
  have coherent := (o.coherent.act (o.spares settings _) acts).1
  cases action with
  | close =>
    have lifespan : g.scheduler.Lifespan .close := trivial
    exact o.scheduled lifespan acts
  | schedule resumption =>
    have lifespan : g.scheduler.Lifespan (.resume 0 resumption) := trivial
    exact o.scheduled lifespan acts
  | interruptScheduler =>
    simp only [Gateway.act] at acts
    split at acts
    · cases acts
    · rename_i closed
      have lifespan : g.scheduler.Lifespan (.interrupt 0) := (Bool.not_eq_true _).mp closed
      exact o.scheduled lifespan acts
  | generate body requestId tenantId tokens =>
    simp only [Gateway.act] at acts
    split at acts <;> cases acts
    exact o.generate.1
  | resume handler resumption => exact o.resume prompt acts
  | interrupt handler => exact o.interrupt prompt acts
  | abandon handler raised =>
    simp only [Gateway.act] at acts
    split at acts
    · obtain ⟨h, found, run⟩ := Option.bind_eq_some_iff.mp acts
      obtain ⟨next, goes, -⟩ := Option.bind_eq_some_iff.mp run
      dsimp only at goes
      by_cases live : h.live
      · rw [(o.waiting h (List.mem_of_getElem? found) live).1] at goes
        cases goes
      · obtain ⟨result, ended⟩ := not_forall_not.mp live
        rw [ended] at goes
        cases goes
    · cases acts
  | generateStream body sampling requestId tenantId tokens => exact generates.elim
  | cancelRequest requestId tenantId => exact generates.elim

/-- A handler that ended with a forbidden transition is not finalized. -/
theorem Finalized.not_refused {h' : Handler} {raised : Raised} (found : g.handlers[i]? = some h)
    (ended : h'.place = .ended (.error raised)) (kind : raised.kind = .invalidStateTransition)
    (handlers : g₁.handlers = g.handlers) : ¬Finalized { g₁ with handlers := g₁.handlers.set i h' } := by
  intro finalized
  have member : h' ∈ g₁.handlers.set i h' := by
    rw [handlers]
    exact List.mem_iff_getElem?.mpr ⟨i, List.getElem?_set_self (List.getElem?_eq_some_iff.mp found).1⟩
  exact (finalized.ended h' member _ ended).2.2 raised rfl kind

/-- A step that is not prompt attempts a forbidden transition. -/
theorem Orderly.imprompt (o : g.Orderly) {action : GatewayAction} (imprompt : ¬g.Prompt action)
    (acts : g.act settings action = some g') : ¬g'.Finalized := by
  cases action <;> try exact absurd trivial imprompt
  · rename_i i resumption
    simp only [Gateway.act] at acts
    split at acts
    · obtain ⟨h, found, run⟩ := Option.bind_eq_some_iff.mp acts
      obtain ⟨next, goes, run⟩ := Option.bind_eq_some_iff.mp run
      obtain ⟨live, -, rfl⟩ := o.resumes_waiting found goes
      obtain ⟨-, queued, -⟩ := o.waiting h (List.mem_of_getElem? found) live
      have late : g.status h.item = .completed ∧ (g.shared.requests h.item).startedAt = 0 := by
        by_contra early
        refine imprompt fun k there completed unset => early ?_
        cases found.symm.trans there
        exact ⟨completed, unset⟩
      obtain ⟨raised, g₁, kind, concludes, handlers⟩ := conclude_refuses queued late.1 (answer (g.shared.requests h.item))
      rw [late.2, concludes] at run
      cases run
      exact Finalized.not_refused found rfl kind handlers
    · cases acts
  · rename_i i
    simp only [Gateway.act] at acts
    split at acts
    · obtain ⟨h, found, run⟩ := Option.bind_eq_some_iff.mp acts
      obtain ⟨next, goes, run⟩ := Option.bind_eq_some_iff.mp run
      obtain ⟨live, rfl⟩ := o.interrupts_waiting found goes
      obtain ⟨-, queued, -⟩ := o.waiting h (List.mem_of_getElem? found) live
      have completed : g.status h.item = .completed := by
        by_contra early
        refine imprompt fun k there completed => early ?_
        cases found.symm.trans there
        exact completed
      have settled : (g.shared.requests h.item).terminal = true := by
        have isOver : (g.status h.item).isTerminal = true := by
          rw [completed]
          rfl
        exact isOver
      have kept : (g.withShared (g.shared.cancel h.item "client disconnected")).status h.item = .completed := by
        rw [status_withShared, status_cancel, if_neg (by simp [settled])]
        exact completed
      obtain ⟨raised, g₁, kind, concludes, handlers⟩ := conclude_refuses queued kept (.error cancelledError)
      rw [concludes] at run
      cases run
      exact Finalized.not_refused found rfl kind handlers
    · cases acts

theorem Orderly.start (fresh : g.Fresh) : g.Orderly := by
  have coherent := Coherent.start fresh
  obtain ⟨⟨maximum, requests, clock, scheduler⟩, store, active, handlers⟩ := fresh
  refine ⟨coherent, ?_, ⟨fun id record there => ?_, fun id item there => ?_, fun h member => ?_⟩, fun h member => ?_⟩
  · rw [scheduler]
    exact .init maximum requests clock
  · rw [store] at there
    cases there
  · rw [active] at there
    cases there
  · rw [handlers] at member
    cases member
  · rw [handlers] at member
    cases member

theorem Orderly.of_reach (reached : Reach settings Fresh (fun g action => Generates action ∧ g.Prompt action) g) : g.Orderly := by
  induction reached with
  | start fresh => exact .start fresh
  | next before allowed step ih =>
    cases step with
    | act acts =>
      obtain ⟨generates, prompt⟩ := allowed _ rfl
      exact ih.act generates prompt acts
    | engine runs step =>
      have engine : Step settings _ none _ := .engine runs step
      have coherent := (ih.coherent.step (fun a impossible => by cases impossible) engine).1
      exact ih.still coherent ih.pooling rfl rfl rfl rfl

/-- In runs of `generate` whose steps are prompt, every record is finalized and
no forbidden transition is attempted; and the first step that is not prompt does attempt one. -/
theorem records_finalized (reached : Reach settings Fresh (fun g action => Generates action ∧ g.Prompt action) g) :
    g.Finalized ∧
    (∀ body requestId tenantId tokens raised, (g.generate settings body requestId tenantId tokens).1 = .error raised →
      raised.kind ≠ .invalidStateTransition) ∧
    ∀ action g', Generates action → g.act settings action = some g' → (g'.Finalized ↔ g.Prompt action) := by
  have o := Orderly.of_reach reached
  refine ⟨o.finalized, fun body requestId tenantId tokens => o.generate.2, fun action g' generates acts => ⟨fun finalized => ?_,
    fun prompt => (o.act generates prompt acts).finalized⟩⟩
  by_contra imprompt
  exact o.imprompt imprompt acts finalized

namespace Sample

/-- A request is generated, and its handler goes on or is cancelled. -/
def served (last : GatewayAction) : List GatewayAction :=
  [.generate body "request" "tenant" 1, .schedule .proceed, .schedule .proceed, .schedule .proceed, .schedule .timeout,
    .schedule .proceed, .schedule .proceed, .schedule (.results [⟨"", 1, 1, 1, 1, 1⟩]), .schedule .proceed, .schedule .proceed,
    .schedule .proceed, .schedule .proceed, last]

theorem prompt_of_started (started : g.handlers[i]?.all (fun h => (g.shared.requests h.item).startedAt ≠ 0) = true)
    (resumption : HandlerResumption) : g.Prompt (.resume i resumption) := by
  intro h found _
  rw [found, Option.all_some] at started
  exact of_decide_eq_true started

end Sample

open Sample in
theorem records_finalized_served : ∃ g : Gateway silent, Reach defaults Fresh (fun g action => Generates action ∧ g.Prompt action) g ∧
    g.Finalized ∧ ∃ record, g.platformRequests.get? "request" = some record ∧ record.status = .completed := by
  have reached : Reach defaults Fresh (fun g action => Generates action ∧ g.Prompt action)
      ((served (.resume 0 .proceed)).foldl (after defaults) new) := by
    refine .run (.start new_fresh) ?_
    exact ⟨⟨trivial, trivial⟩, by rfl, ⟨trivial, trivial⟩, by rfl, ⟨trivial, trivial⟩, by rfl, ⟨trivial, trivial⟩, by rfl,
      ⟨trivial, trivial⟩, by rfl, ⟨trivial, trivial⟩, by rfl, ⟨trivial, trivial⟩, by rfl, ⟨trivial, trivial⟩, by rfl,
      ⟨trivial, trivial⟩, by rfl, ⟨trivial, trivial⟩, by rfl, ⟨trivial, trivial⟩, by rfl, ⟨trivial, trivial⟩, by rfl,
      ⟨trivial, prompt_of_started (by rfl) _⟩, by rfl, trivial⟩
  exact ⟨_, reached, (records_finalized reached).1, _, by rfl, by rfl⟩

open Sample in
/-- A client that goes away once its request has completed: the handler's save is
forbidden, and the record stays queued and active. -/
theorem cancelled_after_completion : ∃ g : Gateway silent, ∃ h record, Reach defaults Fresh (fun _ action => Generates action) g ∧
    g.handlers = [h] ∧ (∃ raised, h.place = .ended (.error raised) ∧ raised.kind = .invalidStateTransition) ∧
      g.platformRequests.get? h.requestId = some record ∧ record.status = .queued ∧
      g.activeGatewayRequests.get? h.requestId = some h.item ∧ ¬g.Finalized := by
  have reached : Reach defaults Fresh (fun _ action => Generates action) ((served (.interrupt 0)).foldl (after defaults) new) := by
    refine .run (.start new_fresh) ?_
    exact ⟨trivial, by rfl, trivial, by rfl, trivial, by rfl, trivial, by rfl, trivial, by rfl, trivial, by rfl, trivial, by rfl,
      trivial, by rfl, trivial, by rfl, trivial, by rfl, trivial, by rfl, trivial, by rfl, trivial, by rfl, trivial⟩
  refine ⟨_, _, _, reached, by rfl, ⟨_, by rfl, by rfl⟩, by rfl, by rfl, by rfl, fun finalized => ?_⟩
  exact (finalized.ended _ List.mem_cons_self _ (by rfl)).2.2 _ rfl rfl

end Gateway

end ServingPlatform
