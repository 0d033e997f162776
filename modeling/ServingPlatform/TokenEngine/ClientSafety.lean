import ServingPlatform.TokenEngine.Halting
import ServingPlatform.TokenEngine.TurnSafety

namespace ServingPlatform.Shared

open TokenGenerationEngine

variable {S : Type} {backend : InferenceBackend S} {setup : EngineSetup} {t t' : Shared backend} {r : Ref}

def started (t : Shared backend) : Shared backend := t.withEngine t.engine.ensureScheduler

/-- As long as no scheduler's task is made, no work has begun and one could begin its loop at once. -/
structure Ready (setup : EngineSetup) (t : Shared backend) : Prop where
  sound : t.Sound setup
  startable : t.engine.schedulerTask = none → Rested setup t.started
  queued : t.engine.schedulerTask = none → ∀ r, t.ActiveRef r → (t.view r).phase = .queued

theorem Sound.started_live (sound : t.Sound setup) (task : t.engine.schedulerTask = none) : t.started.Live setup := by
  refine ⟨sound.ensured, ?_⟩
  show some (t.engine.schedulerTask.getD .running) = _
  rw [task]
  rfl

theorem Ready.of_idle (sound : t.Sound setup) (idle : ∀ r, ¬ t.ActiveRef r) : Ready setup t :=
  ⟨sound, fun task => ⟨sound.started_live task, fun r active => absurd active (idle r)⟩,
    fun _ r active => absurd active (idle r)⟩

theorem Ready.of_task (sound : t.Sound setup) {task : SchedulerTask} (made : t.engine.schedulerTask = some task) :
    Ready setup t :=
  ⟨sound, fun none => absurd (none.symm.trans made) nofun, fun none => absurd (none.symm.trans made) nofun⟩

/-- A client's update that a scheduler at work would not mind either. -/
theorem Ready.beside (ready : Ready setup t) (action : ClientAction t t')
    (task : t'.engine.schedulerTask = t.engine.schedulerTask)
    (beside : t.engine.schedulerTask = none → ClientAction t.started t'.started) : Ready setup t' := by
  refine ⟨action.sound ready.sound, fun none => ?_, fun none r active => ?_⟩
  · have before := task.symm.trans none
    exact (ready.startable before).rely ((beside before).rely (ready.startable before).live)
  · have before := task.symm.trans none
    have rely := (beside before).rely (ready.startable before).live
    rcases rely.joined r active with was | ⟨-, fresh⟩
    · have phase : (t'.view r).phase = (t.view r).phase := congrArg RefView.phase (rely.kept' was).2
      exact phase.trans (ready.queued before r was)
    · exact fresh.phase

theorem Ready.quiet {e : Engine S} (ready : Ready setup t) (same : t.engine.Quiet e) : Ready setup (t.withEngine e) := by
  refine ready.beside (.quiet same) same.schedulerTask fun _ => ?_
  refine ClientAction.quiet (t := t.started) (e := e.ensureScheduler) { same with schedulerTask := ?_ }
  show some (e.schedulerTask.getD .running) = some (t.engine.schedulerTask.getD .running)
  rw [same.schedulerTask]

theorem Ready.popFinished (ready : Ready setup t) (id : String) : Ready setup (t.withEngine (t.engine.popFinished id)) :=
  ready.beside .popFinished rfl fun _ => ClientAction.popFinished (t := t.started)

theorem Ready.ensured (ready : Ready setup t) : Ready setup (t.withEngine t.engine.ensureScheduler) :=
  .of_task ready.sound.ensured rfl

theorem started_reserve (e : Engine S) (id prompt : String) (sampling : SamplingParameters) (deadline : Seconds)
    (count : Int) (createdAt : Seconds) : (e.ensureScheduler.reserve id prompt sampling deadline count createdAt).2 =
      (e.reserve id prompt sampling deadline count createdAt).2.ensureScheduler ∧
      (e.reserve id prompt sampling deadline count createdAt).2.schedulerTask = e.schedulerTask := by
  unfold Engine.reserve
  by_cases closed : e.closed = true
  · rw [if_pos closed, if_pos (show e.ensureScheduler.closed = true from closed)]
    exact ⟨rfl, rfl⟩
  rw [if_neg closed, if_neg (show ¬ e.ensureScheduler.closed = true from closed)]
  by_cases known : (e.active.contains id || e.finished.contains id) = true
  · rw [if_pos known, if_pos (show (e.ensureScheduler.active.contains id || e.ensureScheduler.finished.contains id) = true from known)]
    exact ⟨rfl, rfl⟩
  rw [if_neg known, if_neg (show ¬ (e.ensureScheduler.active.contains id || e.ensureScheduler.finished.contains id) = true from known)]
  by_cases full : e.config.maxActiveSequences ≤ e.active.size
  · rw [if_pos full, if_pos (show e.ensureScheduler.config.maxActiveSequences ≤ e.ensureScheduler.active.size from full)]
    exact ⟨rfl, rfl⟩
  rw [if_neg full, if_neg (show ¬ e.ensureScheduler.config.maxActiveSequences ≤ e.ensureScheduler.active.size from full)]
  rw [show e.ensureScheduler.kvAllocator = e.kvAllocator from rfl]
  rcases e.kvAllocator.allocate id (count + sampling.maxNewTokens) with ⟨raised | blocks, kvAllocator⟩
  · exact ⟨rfl, rfl⟩
  · exact ⟨rfl, rfl⟩

theorem Ready.reserved (ready : Ready setup t) (id prompt : String) (sampling : SamplingParameters) (deadline : Seconds)
    (count : Int) (createdAt : Seconds) :
    Ready setup (t.withEngine (t.engine.reserve id prompt sampling deadline count createdAt).2) := by
  obtain ⟨begun, task⟩ := started_reserve t.engine id prompt sampling deadline count createdAt
  refine ready.beside .reserve task fun _ => ?_
  show ClientAction t.started (t.started.withEngine
    (t.engine.reserve id prompt sampling deadline count createdAt).2.ensureScheduler)
  rw [← begun]
  exact ClientAction.reserve (t := t.started)

/-- The rules of streams and shutdowns: they make no backend calls but the last. -/
def clientProtocol (backend : InferenceBackend S) (setup : EngineSetup) :
    Coro.Protocol (Shared backend) (EngineOp S) EngineOp.Answer Raised where
  update t t' := ClientAction t t' ∧ t'.engine.schedulerTask = t.engine.schedulerTask
  call
    | .call _ _, _ => False
    | .wakeWait, _ => False
    | .backendShutdown, t => Ready setup t ∧ t.Halted
    | _, t => Ready setup t
  answer op t result t' := ∃ t₁ t₂, Chain t t₁ ∧ Answers backend op t₁ result t₂ ∧ Chain t₂ t' ∧ Ready setup t'

abbrev ClientSafe {α : Type} (setup : EngineSetup) (c : EngineM S α)
    (Q : Except Raised α → Shared backend → Prop) (t : Shared backend) : Prop :=
  Coro.Safe window (clientProtocol backend setup) c Q t

/-- Wherever a client ends, the engine is ready. -/
def ClientEnds (setup : EngineSetup) (_ : Except Raised Bool) (t : Shared backend) : Prop := Ready setup t

end ServingPlatform.Shared

namespace ServingPlatform.TokenGenerationEngine

open Shared

variable {S : Type} {backend : InferenceBackend S} {setup : EngineSetup} {t t' : Shared backend} {r : Ref}

section Streams

theorem clientSafe_quiet {α : Type} {f : Engine S → Engine S} {k : Unit → EngineM S α}
    {Q : Except Raised α → Shared backend → Prop} (ready : Ready setup t) (same : t.engine.Quiet (f t.engine))
    (next : ∀ t', Ready setup t' → ClientSafe setup (k ()) Q t') : ClientSafe setup (Coro.modify f >>= k) Q t :=
  Coro.safe_modify.mpr ⟨⟨.quiet same, same.schedulerTask⟩, next _ (ready.quiet same)⟩

theorem clientSafe_pop {α : Type} {id : String} {k : Unit → EngineM S α} {Q : Except Raised α → Shared backend → Prop}
    (ready : Ready setup t) (next : ∀ t', Ready setup t' → ClientSafe setup (k ()) Q t') :
    ClientSafe setup (Coro.modify (fun e => e.popFinished id) >>= k) Q t :=
  Coro.safe_modify.mpr ⟨⟨.popFinished, rfl⟩, next _ (ready.popFinished id)⟩

/-- Whatever a stream waits for, the engine is ready when it goes on. -/
theorem clientSafe_wait {α : Type} {op : EngineOp S} {k : op.Answer → EngineM S α}
    {Q : Except Raised α → Shared backend → Prop} (allowed : (clientProtocol backend setup).call op t)
    (next : ∀ answer t', Ready setup t' → ClientSafe setup (k answer) Q t')
    (raised : ∀ error t', Ready setup t' → Q (.error error) t') :
    ClientSafe setup (Coro.request op >>= k) Q t := by
  refine Coro.safe_bind.mpr (Coro.safe_request.mpr ⟨allowed, fun result t' answered => ?_⟩)
  obtain ⟨_, _, -, -, -, ready⟩ := answered
  cases result with
  | ok answer => exact next answer t' ready
  | error error => exact raised error t' ready

theorem safe_streamEvent (ready : Ready setup t) (id : String) :
    ClientSafe setup (streamEvent r id) (ClientEnds setup) t := by
  refine clientSafe_wait ready (fun event t₁ ready₁ => ?_) fun _ _ later => later
  cases event with
  | failure error => exact ready₁
  | token token => exact clientSafe_wait ready₁ (fun _ _ later => later) fun _ _ later => later
  | complete completion =>
    refine clientSafe_wait ready₁ (fun _ t₂ ready₂ => ?_) fun _ _ later => later
    exact clientSafe_pop ready₂ fun _ later => later

theorem safe_streamCancelled (ready : Ready setup t) (id : String) (error : Raised) :
    ClientSafe setup (streamCancelled r id error) (ClientEnds setup) t := by
  unfold streamCancelled
  split
  swap
  · exact ready
  refine clientSafe_quiet ready (.setCancellation r) fun t₁ ready₁ => ?_
  refine clientSafe_quiet ready₁ .setWake fun t₂ ready₂ => ?_
  refine clientSafe_wait ready₂ (fun _ t₃ ready₃ => ?_) fun _ _ later => later
  exact clientSafe_pop ready₃ fun _ later => later

theorem safe_streamFinally (ready : Ready setup t) (id : String) :
    ClientSafe setup (streamFinally r id) (fun _ t' => Ready setup t') t := by
  refine Coro.safe_read.mpr (Coro.safe_ite (fun _ => ?_) fun _ => ?_)
  · exact Coro.safe_ite (fun _ => ⟨⟨.popFinished, rfl⟩, ready.popFinished id⟩) fun _ => ready
  · refine clientSafe_quiet ready (.setCancellation r) fun t₁ ready₁ => ?_
    exact ⟨⟨.quiet .setWake, rfl⟩, ready₁.quiet .setWake⟩

theorem safe_streamIteration (ready : Ready setup t) (id : String) :
    ClientSafe setup (streamIteration r id) (ClientEnds setup) t := by
  have leaves : ∀ (result : Except Raised Bool) (t' : Shared backend), Ready setup t' →
      ClientSafe setup (streamFinally r id >>= fun _ => Coro.lift result) (ClientEnds setup) t' := by
    intro result t' later
    refine Coro.safe_bind.mpr ((safe_streamFinally later id).mono fun ended t₁ last => ?_)
    cases ended with
    | ok => exact last
    | error => exact last
  refine Coro.safe_bind.mpr (Coro.safe_attempt.mpr (Coro.safe_catchError.mpr
    ((safe_streamEvent ready id).mono fun result t₁ ready₁ => ?_)))
  cases result with
  | ok goesOn =>
    cases goesOn with
    | true => exact ready₁
    | false => exact leaves (.ok false) t₁ ready₁
  | error error =>
    refine (safe_streamCancelled ready₁ id error).mono fun result t₂ ready₂ => ?_
    cases result with
    | error error => exact leaves (.error error) t₂ ready₂
    | ok goesOn =>
      cases goesOn with
      | true => exact ready₂
      | false => exact leaves (.ok false) t₂ ready₂

end Streams

section Shutdown

/-- A sequence that `_complete` may end at once, since no scheduler has worked on it. -/
structure Dismissible (t : Shared backend) (r : Ref) : Prop where
  cancelled : t.Cancelled r
  phase : (t.view r).phase.isTerminal = false
  clean : (t.view r).Clean
  room : (t.view r).generated.length < (t.view r).limit

/-- One sequence has left an engine without a scheduler. -/
structure Dismissed (setup : EngineSetup) (t : Shared backend) (r : Ref) (t' : Shared backend) : Prop
    extends Recedes t t' where
  sound : t'.Sound setup
  gone : ¬ t'.ActiveRef r
  kept : ∀ r', r' ≠ r → t.ActiveRef r' → t'.ActiveRef r'
  others : ∀ r', r' ≠ r → t'.engine.sequences r' = t.engine.sequences r'
  log : t'.log = t.log

theorem Dismissible.of_same {r' : Ref} (dismissible : Dismissible t r')
    (sequences : t'.engine.sequences r' = t.engine.sequences r') (log : t'.log = t.log) : Dismissible t' r' := by
  have cancelled := dismissible.cancelled
  have phase := dismissible.phase
  have clean := dismissible.clean
  have room := dismissible.room
  have sequence : (t'.view r').sequence = (t.view r').sequence := congrArg ScheduledSequence.vital sequences
  have records : (t'.view r').records = (t.view r').records := congrArg (List.filter _) log
  refine ⟨?_, ?_, ?_, ?_⟩
  · rw [Cancelled, sequences]
    exact cancelled
  · rw [RefView.phase, sequence]
    exact phase
  · rw [RefView.Clean, sequence, records]
    exact clean
  · rw [RefView.generated, RefView.limit, sequence]
    exact room

theorem setPhase_self (e : Engine S) (phase : SequencePhase) : (e.setPhase r phase).sequences r =
    { e.sequences r with state := { (e.sequences r).state with phase } } :=
  Engine.modifySequence_self (f := fun runtime => { runtime with state := { runtime.state with phase } })

/-- A sequence that `_complete` has begun to end. -/
theorem Dismissible.closed (dismissible : Dismissible t r) :
    (t.withEngine (t.engine.setPhase r .cancelled)).FinalEvent r
      ((t.withEngine (t.engine.setPhase r .cancelled)).view r).phase
      fun runtime => .complete (completion .cancelled runtime) := by
  have view : (t.withEngine (t.engine.setPhase r .cancelled)).view r = { t.view r with
      sequence := ({ t.engine.sequences r with
        state := { (t.engine.sequences r).state with phase := .cancelled } } : ScheduledSequence).vital } :=
    view_modified rfl
  rw [view]
  refine .complete .cancelled ?_ ?_
  · rw [view]
    exact dismissible.clean
  · show ((t.withEngine (t.engine.setPhase r .cancelled)).view r).generated.length <
      ((t.withEngine (t.engine.setPhase r .cancelled)).view r).limit
    rw [view]
    exact dismissible.room

theorem Dismissed.of_retire {event : ScheduledSequence → StreamEvent} (sound : t.Sound setup) (active : t.ActiveRef r)
    (released : (t.view r).sequence.backendCreated = false) (final : t.FinalEvent r (t.view r).phase event) :
    (t.engine.retire r event).1 = .ok () ∧ Dismissed setup t r (t.withEngine (t.engine.retire r event).2) := by
  have retired : Action t (t.withEngine (t.engine.retire r event).2) := .retired active final.terminal released final
  have recedes := retired.recedes
  have after := retired.sound sound
  obtain ⟨table, owned⟩ := sound.owned active
  obtain ⟨kvAllocator, -, run⟩ := Engine.retire_ok (e := t.engine) sound.kv owned event
  have ended : (t.engine.retire r event).2.active = t.engine.active.erase (t.engine.requestId r) ∧
      ∀ r', r' ≠ r → (t.engine.retire r event).2.sequences r' = t.engine.sequences r' := by
    rw [run]
    exact ⟨rfl, fun r' differ => if_neg differ⟩
  refine ⟨by rw [run], { recedes with sound := after, gone := ?_, kept := ?_, others := ended.2, log := rfl }⟩
  · intro still
    have found : (t.engine.retire r event).2.active.get? ((t.engine.retire r event).2.requestId r) = some r := still
    rw [show (t.engine.retire r event).2.requestId r = _ from recedes.requestId r, ended.1, Dict.get?_erase_self] at found
    cases found
  · intro r' differ active'
    have apart : t.engine.requestId r' ≠ t.engine.requestId r := by
      intro same
      rw [ActiveRef, same] at active'
      exact differ (Option.some.inj (active'.symm.trans active))
    show (t.engine.retire r event).2.active.get? ((t.engine.retire r event).2.requestId r') = some r'
    rw [show (t.engine.retire r event).2.requestId r' = _ from recedes.requestId r', ended.1,
      Dict.get?_erase_of_ne apart]
    exact active'

theorem safe_dismiss (sound : t.Sound setup) (task : t.engine.schedulerTask = none) (active : t.ActiveRef r)
    (dismissible : Dismissible t r) : ClientSafe setup (complete r .cancelled)
      (fun result t' => result = .ok () ∧ Dismissed setup t r t') t := by
  have found : t.engine.active.contains (t.engine.requestId r) = true := by
    rw [Dict.contains, show t.engine.active.get? (t.engine.requestId r) = some r from active]
    rfl
  have unset := sound.idle task r active
  have closing : Action t (t.withEngine (t.engine.setPhase r .cancelled)) :=
    .closing active (Or.inr ⟨dismissible.phase, Or.inl ⟨rfl, dismissible.cancelled⟩⟩)
  have active₁ : (t.withEngine (t.engine.setPhase r .cancelled)).ActiveRef r := by
    rw [ActiveRef, closing.recedes.requestId]
    exact active
  have released : ((t.withEngine (t.engine.setPhase r .cancelled)).view r).sequence.backendCreated = false := by
    show ((t.engine.setPhase r .cancelled).sequences r).backendCreated = false
    rw [setPhase_self]
    exact unset
  have final := dismissible.closed
  obtain ⟨ok, last⟩ := Dismissed.of_retire (closing.sound sound) active₁ released final
  refine Coro.safe_read.mpr ?_
  simp only [window_view, found, if_true]
  refine Coro.safe_modify.mpr ⟨⟨.action task closing, closing.recedes.task⟩, ?_⟩
  simp only [unset]
  refine Coro.safe_sync.mpr ⟨⟨.action (closing.recedes.task.trans task)
    (.retired active₁ final.terminal released final), last.task⟩, ?_⟩
  refine ⟨ok, { closing.recedes.trans last.toRecedes with
    sound := last.sound
    gone := last.gone
    kept := fun r' differ active' => ?_
    others := fun r' differ => ?_
    log := last.log }⟩
  · refine last.kept r' differ ?_
    rw [ActiveRef, closing.recedes.requestId]
    exact active'
  · exact (last.others r' differ).trans (if_neg differ)

/-- What is left when `_complete` went through some of the active sequences. -/
structure Emptied (setup : EngineSetup) (t : Shared backend) (batch : List Ref) (t' : Shared backend) : Prop
    extends Recedes t t' where
  sound : t'.Sound setup
  gone : ∀ r ∈ batch, ¬ t'.ActiveRef r

theorem safe_completeAll {batch : List Ref} (nodup : batch.Nodup) (sound : t.Sound setup)
    (task : t.engine.schedulerTask = none) (active : ∀ r ∈ batch, t.ActiveRef r)
    (dismissible : ∀ r ∈ batch, Dismissible t r) :
    ClientSafe setup (completeAll batch) (fun result t' => result = .ok () ∧ Emptied setup t batch t') t := by
  induction batch generalizing t with
  | nil => exact ⟨rfl, { Recedes.refl t with sound := sound, gone := fun r none => by cases none }⟩
  | cons r rest ih =>
    have other : ∀ r' ∈ rest, r' ≠ r := fun r' listed same => (List.nodup_cons.mp nodup).1 (same ▸ listed)
    have here : r ∈ r :: rest := List.mem_cons_self ..
    refine Coro.safe_bind.mpr ((safe_dismiss sound task (active r here) (dismissible r here)).mono ?_)
    rintro result t₁ ⟨rfl, first⟩
    refine (ih (List.nodup_cons.mp nodup).2 first.sound (first.task.trans task) ?_ ?_).mono ?_
    · exact fun r' listed => first.kept r' (other r' listed) (active r' (List.mem_cons_of_mem _ listed))
    · exact fun r' listed => (dismissible r' (List.mem_cons_of_mem _ listed)).of_same (first.others r' (other r' listed))
        first.log
    · rintro result t' ⟨rfl, later⟩
      refine ⟨rfl, { first.toRecedes.trans later.toRecedes with sound := later.sound, gone := fun r' listed active' => ?_ }⟩
      rcases List.mem_cons.mp listed with rfl | inRest
      · exact first.gone (later.activeRef active')
      · exact later.gone r' inRest active'

/-- The end of `shutdown`: nothing is active any more. -/
theorem safe_stop (sound : t.Sound setup) (halted : t.Halted) (task : t.engine.schedulerTask ≠ some .running) :
    ClientSafe setup (do
      Coro.modify Engine.clearPrefixCache
      Coro.request (EngineOp.backendShutdown : EngineOp S)
      Coro.modify Engine.closeExecutor
      return false) (ClientEnds setup) t := by
  have cleared := (ClientAction.clearPrefixCache task).sound sound
  refine Coro.safe_modify.mpr ⟨⟨.clearPrefixCache task, rfl⟩, Coro.safe_bind.mpr (Coro.safe_request.mpr ⟨?_, ?_⟩)⟩
  · exact ⟨.of_idle cleared halted.idle, halted.closed, halted.idle⟩
  · rintro result t' ⟨t₁, t₂, before, answers, after, ready⟩
    have halted₁ : t₁.Halted := before.halted ⟨halted.closed, halted.idle⟩
    have halted' : t'.Halted := by
      refine after.halted ?_
      cases answers with
      | shutdown => exact ⟨halted₁.closed, halted₁.idle⟩
      | shutdownRefused => exact halted₁
    cases result with
    | error => exact ready
    | ok =>
      have close : ClientAction t' (t'.withEngine t'.engine.closeExecutor) := .closeExecutor halted'.closed halted'.idle
      exact Coro.safe_modify.mpr ⟨⟨close, rfl⟩, .of_idle (close.sound ready.sound) (close.halted halted').idle⟩

theorem safe_shutdown (ready : Ready setup t) : ClientSafe setup shutdown (ClientEnds setup) t := by
  refine Coro.safe_read.mpr (Coro.safe_ite (fun _ => ready) fun _ => ?_)
  refine Coro.safe_modify.mpr ⟨⟨.quiet .close, rfl⟩, ?_⟩
  have ready₁ : Ready setup (t.withEngine t.engine.close) := ready.quiet .close
  simp only [window_view]
  cases made : t.engine.schedulerTask with
  | some task =>
    refine Coro.safe_bind.mpr (Coro.safe_request.mpr ⟨ready₁, ?_⟩)
    rintro result t' ⟨t₁, t₂, before, answers, after, later⟩
    cases answers with
    | raised => exact later
    | returned isOver =>
      have sound := before.sound ready₁.sound
      have halted := after.halted ⟨(sound.returned isOver).1, (sound.returned isOver).2⟩
      refine safe_stop later.sound halted ?_
      rw [after.returned isOver]
      intro same
      cases same
  | none =>
    have rested := ready.startable made
    have active : ∀ r ∈ t.engine.active.values, t.ActiveRef r := fun r listed =>
      active_of_value (t := t.started) rested.live listed
    have closing : t.engine.Quiet t.engine.close := .close
    have same := fun r => same_views closing.sequences rfl rfl r
    have dismissible : ∀ r ∈ t.engine.active.values, Dismissible (t.withEngine t.engine.close) r := by
      intro r listed
      have settled := rested.settled r (active r listed)
      rw [show t.started.view r = t.view r from rfl, ← (same r).2] at settled
      refine ⟨?_, settled.phase, settled.clean, settled.room⟩
      show (if r ∈ t.engine.active.values then _ else _ : ScheduledSequence).state.cancellation = true
      rw [if_pos listed]
    refine Coro.safe_bind.mpr ((safe_completeAll (values_nodup (t := t.started) rested.live) ready₁.sound made
      (fun r listed => (same r).1.mpr (active r listed)) dismissible).mono ?_)
    · rintro result t' ⟨rfl, emptied⟩
      refine safe_stop emptied.sound ⟨emptied.closed rfl, fun r active' => ?_⟩ ?_
      · have before := emptied.activeRef active'
        exact emptied.gone r (Dict.mem_values_iff.mpr ⟨_, before⟩) active'
      · rw [emptied.task]
        show t.engine.schedulerTask ≠ _
        rw [made]
        intro same
        cases same

end Shutdown

end ServingPlatform.TokenGenerationEngine
