import ServingPlatform.TokenEngine.ClientSafety
import ServingPlatform.TokenEngine.Turns

namespace ServingPlatform

open TokenGenerationEngine Shared

variable {S : Type} {backend : InferenceBackend S} {setup : EngineSetup} {h h' : Chronicle backend}
  {t t' : Shared backend} {r : Ref}

namespace TaskStatus

variable {status : TaskStatus S}

/-- What is known of the scheduler's task while it is at work. -/
def SchedulerHolds (setup : EngineSetup) : TaskStatus S → Chronicle backend → Prop
  | .between, h => Rested setup h.shared ∧ h.Orderly
  | .waiting op k, h => h.shared.Live setup ∧ (Chronicle.turnProtocol backend setup).call op h ∧
      ∀ result h', (Chronicle.turnProtocol backend setup).answer op h result h' →
        Chronicle.TurnSafe setup (k result) (Chronicle.TurnEnds setup) h'
  | .answered _ result k, h => h.shared.Live setup ∧ ∀ h', Rely setup h.shared h'.shared → h'.decisions = h.decisions →
      h'.shared.engine.policy = h.shared.engine.policy →
        Chronicle.TurnSafe setup (k result) (Chronicle.TurnEnds setup) h'
  | .isOver _, _ => False

/-- What is known of the task of a stream or a shutdown. -/
def ClientHolds (setup : EngineSetup) : TaskStatus S → Shared backend → Prop
  | .waiting op k, t => (clientProtocol backend setup).call op t ∧
      ∀ result t', (clientProtocol backend setup).answer op t result t' →
        ClientSafe setup (k result) (ClientEnds setup) t'
  | .answered _ result k, t => ∀ t', Chain t t' → Ready setup t' → ClientSafe setup (k result) (ClientEnds setup) t'
  | .between, _ | .isOver _, _ => True

/-- What the scheduler's task knows is not undone by others. -/
theorem SchedulerHolds.rely (holds : status.SchedulerHolds setup h) (rely : Rely setup h.shared h'.shared)
    (decisions : h'.decisions = h.decisions) (policy : h'.shared.engine.policy = h.shared.engine.policy) :
    status.SchedulerHolds setup h' := by
  cases status with
  | between => exact ⟨holds.1.rely rely, holds.2.later rely.onward rely.keeps decisions policy⟩
  | waiting op k =>
    obtain ⟨live, allowed, next⟩ := holds
    refine ⟨rely.live, ?_, fun result h'' given => ?_⟩
    · cases op with
      | call command sequences => exact ⟨allowed.1, allowed.2.rely live rely⟩
      | wakeWait => trivial
      | nextEvent | yieldEvent | doneWait | schedulerDone | backendShutdown => exact allowed.elim
    · obtain ⟨⟨t₁, t₂, first, answers, second⟩, same, kept⟩ := given
      exact next result h'' ⟨⟨t₁, t₂, rely.trans first, answers, second⟩, same.trans decisions, kept.trans policy⟩
  | answered op result k =>
    refine ⟨rely.live, fun h'' later same kept => ?_⟩
    exact holds.2 h'' (rely.trans later) (same.trans decisions) (kept.trans policy)
  | isOver result => exact holds

theorem ClientHolds.chain (holds : status.ClientHolds setup t) (chain : Chain t t') (ready : Ready setup t') :
    status.ClientHolds setup t' := by
  cases status with
  | between => trivial
  | waiting op k =>
    obtain ⟨allowed, next⟩ := holds
    refine ⟨?_, fun result t'' given => ?_⟩
    · cases op with
      | backendShutdown => exact ⟨ready, chain.halted allowed.2⟩
      | nextEvent | yieldEvent | doneWait | schedulerDone => exact ready
      | call | wakeWait => exact allowed.elim
    · obtain ⟨t₁, t₂, first, answers, second, later⟩ := given
      exact next result t'' ⟨t₁, t₂, chain.trans first, answers, second, later⟩
  | answered op result k => exact fun t'' later => holds t'' (chain.trans later)
  | isOver result => trivial

end TaskStatus

namespace Recorded

variable {c c' : Recorded backend}

/-- What holds in every configuration of a run. -/
structure Safe (setup : EngineSetup) (c : Recorded backend) : Prop where
  reach : c.configuration.shared.Reach setup
  ready : Ready setup c.configuration.shared
  orderly : Engine.Orderly c.decisions
  unstarted : c.configuration.shared.engine.schedulerTask = none → c.configuration.scheduler = .between ∧ c.decisions = []
  isOver : ∀ task, c.configuration.shared.engine.schedulerTask = some task → task ≠ .running →
    ∃ result, c.configuration.scheduler = .isOver result
  scheduler : c.configuration.shared.engine.schedulerTask = some .running →
    c.configuration.scheduler.SchedulerHolds setup c.chronicle
  clients : ∀ client ∈ c.configuration.clients,
    (∀ t : Shared backend, Ready setup t → ClientSafe setup client.body (ClientEnds setup) t) ∧
      client.status.ClientHolds setup c.configuration.shared

theorem initial_safe (backend : InferenceBackend S) (setup : EngineSetup) : (initial backend setup).Safe setup where
  reach := .refl
  ready := .of_idle (Shared.initial_sound backend setup) fun r active => by cases active
  orderly := trivial
  unstarted _ := ⟨rfl, rfl⟩
  isOver task made := by cases made
  scheduler task := by cases task
  clients client member := by cases member

end Recorded

section Others

/-- Something that others do while the scheduler is suspended. -/
structure Aside (setup : EngineSetup) (t t' : Shared backend) : Prop where
  moves : ∀ decisions, Relation.ReflTransGen Chronicle.Moves ⟨t, decisions⟩ ⟨t', decisions⟩
  task : t'.engine.schedulerTask = t.engine.schedulerTask
  policy : t'.engine.policy = t.engine.policy
  log : t'.log = t.log
  rely : t.Live setup → Rely setup t t'

theorem Aside.refl (t : Shared backend) : Aside setup t t := ⟨fun _ => .refl, rfl, rfl, rfl, fun live => .refl live⟩

theorem Aside.trans {t'' : Shared backend} (first : Aside setup t t') (second : Aside setup t' t'') : Aside setup t t'' where
  moves decisions := (first.moves decisions).trans (second.moves decisions)
  task := second.task.trans first.task
  policy := second.policy.trans first.policy
  log := second.log.trans first.log
  rely live := (first.rely live).trans (second.rely (first.rely live).live)

theorem Aside.of_action (action : ClientAction t t') (task : t'.engine.schedulerTask = t.engine.schedulerTask) :
    Aside setup t t' :=
  ⟨fun _ => .single (.step (.client action) action.policy), task, action.policy, action.log, action.rely⟩

theorem Aside.of_updates (updates : Relation.ReflTransGen (clientProtocol backend setup).update t t') :
    Aside setup t t' := by
  induction updates with
  | refl => exact .refl _
  | tail _ update before => exact before.trans (.of_action update.1 update.2)

theorem allowed_ready {op : EngineOp S} (allowed : (clientProtocol backend setup).call op t) : Ready setup t := by
  cases op with
  | call | wakeWait => exact allowed.elim
  | backendShutdown => exact allowed.1
  | nextEvent | yieldEvent | doneWait | schedulerDone => exact allowed

/-- The answers that streams and shutdowns get. -/
theorem Answers.aside {op : EngineOp S} {result : Except Raised op.Answer} (answers : Answers backend op t result t')
    (allowed : (clientProtocol backend setup).call op t) : Aside setup t t' ∧ Ready setup t' := by
  have ready := allowed_ready allowed
  cases answers with
  | call | refused | woken => exact allowed.elim
  | @event _ r event next =>
    have same : t.engine.Quiet (t.take r).engine :=
      .modified (f := fun runtime => { runtime with taken := runtime.taken + 1 }) (fun _ => rfl) fun _ set => set
    exact ⟨.of_action (.quiet same) rfl, ready.quiet same⟩
  | @shutdown _ result after executor run =>
    have halted := allowed.2
    have step : Shared.Step t { t with backendState := after } := .stop halted.closed halted.idle run
    refine ⟨⟨fun _ => .single (.step step rfl), rfl, rfl, rfl, fun live => ?_⟩, .of_idle (step.sound ready.sound) halted.idle⟩
    exact {
      live := ⟨step.sound live.sound, live.running⟩
      created := Nat.le_refl _
      requestId := fun _ _ => rfl
      kept := fun _ active _ => ⟨active, rfl⟩
      joined := fun _ active => Or.inl active
      eosIds := fun _ known => known
      log := List.suffix_refl _
      sameLog := rfl
      sameEosIds := rfl
      sameCache := rfl
      sameBackend := fun ⟨r, active⟩ => absurd active (halted.idle r) }
  | _ => exact ⟨.refl t, ready⟩

theorem TaskStatus.ofOutcome_clientHolds {outcome : Coro.Outcome (Engine S) (EngineOp S) EngineOp.Answer Raised Bool}
    (holds : Coro.Holds window (clientProtocol backend setup) (ClientEnds setup) outcome t) :
    (TaskStatus.ofOutcome outcome).ClientHolds setup t ∧ Ready setup t := by
  unfold TaskStatus.ofOutcome
  split
  · exact ⟨holds, allowed_ready holds.1⟩
  · exact ⟨trivial, holds⟩
  · exact ⟨trivial, holds⟩
  · exact ⟨trivial, holds⟩

/-- A client's step. -/
theorem TaskStep.aside {body : EngineM S Bool} {status status' : TaskStatus S} (step : TaskStep body status t status' t')
    (ready : Ready setup t) (safe : ∀ t : Shared backend, Ready setup t → ClientSafe setup body (ClientEnds setup) t)
    (holds : status.ClientHolds setup t) : Aside setup t t' ∧ Ready setup t' ∧ status'.ClientHolds setup t' := by
  cases step with
  | turn run =>
    obtain ⟨updates, ended⟩ := (safe t ready).advances run
    have after := TaskStatus.ofOutcome_clientHolds ended
    exact ⟨.of_updates updates, after.2, after.1⟩
  | answer given =>
    obtain ⟨aside, later⟩ := given.aside holds.1
    exact ⟨aside, later, fun t'' chain last => holds.2 _ t'' ⟨t, t', .refl, given, chain, last⟩⟩
  | resume run =>
    obtain ⟨updates, ended⟩ := (holds t .refl ready).advances run
    have after := TaskStatus.ofOutcome_clientHolds ended
    exact ⟨.of_updates updates, after.2, after.1⟩

end Others

namespace Recorded

variable {c c' : Recorded backend}

/-- Others have done something, and some clients have moved on or joined. -/
theorem Safe.aside {configuration : Configuration backend} (safe : c.Safe setup)
    (aside : Aside setup c.configuration.shared configuration.shared) (ready : Ready setup configuration.shared)
    (scheduler : configuration.scheduler = c.configuration.scheduler)
    (clients : ∀ client ∈ configuration.clients, client ∈ c.configuration.clients ∨
      (∀ t : Shared backend, Ready setup t → ClientSafe setup client.body (ClientEnds setup) t) ∧
        client.status.ClientHolds setup configuration.shared) :
    ({ c with configuration } : Recorded backend).Safe setup := by
  have chain : Chain c.configuration.shared configuration.shared := Chronicle.Moves.chain (aside.moves [])
  refine ⟨safe.reach.trans chain, ready, safe.orderly, fun none => ?_, fun task made other => ?_, fun running => ?_,
    fun client member => ?_⟩
  · have before := safe.unstarted (aside.task.symm.trans none)
    exact ⟨scheduler.trans before.1, before.2⟩
  · obtain ⟨result, before⟩ := safe.isOver task (aside.task.symm.trans made) other
    exact ⟨result, scheduler.trans before⟩
  · have before := safe.scheduler (aside.task.symm.trans running)
    rw [scheduler]
    have live : c.configuration.shared.Live setup := ⟨safe.ready.sound, aside.task.symm.trans running⟩
    exact before.rely (aside.rely live) rfl aside.policy
  · rcases clients client member with old | new
    · obtain ⟨body, holds⟩ := safe.clients client old
      exact ⟨body, holds.chain chain ready⟩
    · exact new

/-- The scheduler has run, and its task object is up to date. -/
theorem Safe.scheduled {status : TaskStatus S} {t : Shared backend} {decisions : List (Engine S)} (safe : c.Safe setup)
    (moves : Relation.ReflTransGen Chronicle.Moves c.chronicle ⟨t, decisions⟩) (orderly : Engine.Orderly decisions)
    {task : SchedulerTask}
    (made : t.engine.schedulerTask = some task)
    (isOver : task ≠ .running → ∃ result, status = .isOver result)
    (holds : task = .running → status.SchedulerHolds setup ⟨t, decisions⟩) :
    (⟨{ c.configuration with scheduler := status, shared := t }, decisions⟩ : Recorded backend).Safe setup := by
  have chain : Chain c.configuration.shared t := Chronicle.Moves.chain moves
  have ready : Ready setup t := .of_task (chain.sound safe.ready.sound) made
  refine ⟨safe.reach.trans chain, ready, orderly, fun none => ?_, fun other same differ => ?_, fun running => ?_,
    fun client member => ?_⟩
  · cases none.symm.trans made
  · cases made.symm.trans same
    exact isOver differ
  · exact holds (Option.some.inj (made.symm.trans running))
  · obtain ⟨body, before⟩ := safe.clients client member
    exact ⟨body, before.chain chain ready⟩

/-- A step as steps of the engine's parties; a call is logged when it is answered. -/
structure Explained (c c' : Recorded backend) : Prop where
  moves : Relation.ReflTransGen Chronicle.Moves c.chronicle c'.chronicle
  log : c'.configuration.shared.log = c.configuration.shared.log ∨ ∃ command sequences k result,
    c.configuration.scheduler = .waiting (.call command sequences) k ∧
      c'.configuration.shared.log = ⟨command, sequences, result⟩ :: c.configuration.shared.log

/-- The scheduler has run to a suspension. -/
theorem Safe.ran {outcome : Coro.Outcome (Engine S) (EngineOp S) EngineOp.Answer Raised Bool} (safe : c.Safe setup)
    (task : c.configuration.shared.engine.schedulerTask = some .running)
    (updates : Relation.ReflTransGen (Chronicle.turnProtocol backend setup).update c.chronicle h)
    (holds : Coro.Holds Chronicle.window (Chronicle.turnProtocol backend setup) (Chronicle.TurnEnds setup) outcome h) :
    (c.schedulerRan (.ofOutcome outcome) h).Safe setup ∧ Explained c (c.schedulerRan (.ofOutcome outcome) h) := by
  have moves : Relation.ReflTransGen Chronicle.Moves c.chronicle h :=
    Relation.ReflTransGen.mono (fun _ _ update => update.1) _ _ updates
  have kept : h.shared.engine.schedulerTask = some .running ∧ h.shared.log = c.configuration.shared.log ∧
      Engine.Orderly h.decisions := by
    clear holds moves
    induction updates with
    | refl => exact ⟨task, rfl, safe.orderly⟩
    | tail _ update before =>
      exact ⟨update.2.1.trans before.1, update.2.2.1.trans before.2.1, update.2.2.2 before.2.2⟩
  obtain ⟨running, log, orderly⟩ := kept
  have live : h.shared.Live setup := ⟨(Chronicle.Moves.chain moves).sound safe.ready.sound, running⟩
  cases outcome with
  | waiting op k =>
    exact ⟨safe.scheduled moves orderly running (fun differ => absurd rfl differ) fun _ => ⟨live, holds⟩, moves, Or.inl log⟩
  | finished result =>
    obtain ⟨-, ends⟩ := holds
    cases result with
    | error error =>
      have raises : Chronicle.Moves h ⟨h.shared.withEngine { h.shared.engine with schedulerTask := some (.raised error) },
          h.decisions⟩ := .step (.schedulerRaised running) rfl
      refine ⟨safe.scheduled (moves.tail raises) orderly (show _ = some (.raised error) from rfl) (fun _ => ⟨_, rfl⟩)
        fun same => ?_, moves.tail raises, Or.inl log⟩
      cases same
    | ok goesOn =>
      cases goesOn with
      | true => exact ⟨safe.scheduled moves orderly running (fun differ => absurd rfl differ) fun _ => ends, moves, Or.inl log⟩
      | false =>
        have returns : Chronicle.Moves h ⟨h.shared.withEngine { h.shared.engine with schedulerTask := some .returned },
            h.decisions⟩ := .step (.schedulerReturned ends.1 ends.2) rfl
        refine ⟨safe.scheduled (moves.tail returns) orderly (show _ = some .returned from rfl) (fun _ => ⟨_, rfl⟩)
          fun same => ?_, moves.tail returns, Or.inl log⟩
        cases same

/-- The scheduler's call has been answered, or it was woken. -/
theorem Safe.answered {op : EngineOp S} {result : Except Raised op.Answer} {k : Except Raised op.Answer → EngineM S Bool}
    {t : Shared backend} (safe : c.Safe setup) (task : c.configuration.shared.engine.schedulerTask = some .running)
    (waiting : c.configuration.scheduler = .waiting op k) (given : Answers backend op c.configuration.shared result t) :
    ({ c with configuration := { c.configuration with scheduler := .answered op result k, shared := t } } :
      Recorded backend).Safe setup ∧
    Explained c { c with configuration := { c.configuration with scheduler := .answered op result k, shared := t } } := by
  have holds := safe.scheduler task
  rw [waiting] at holds
  obtain ⟨live, allowed, next⟩ := holds
  have answered : Explained c { c with configuration := { c.configuration with scheduler := .answered op result k, shared := t } } ∧
      t.engine.schedulerTask = some .running := by
    cases given with
    | @call _ command sequences result after executor run =>
      exact ⟨⟨.single (.step (.call allowed.2 run) rfl), Or.inr ⟨command, sequences, k, result, waiting, rfl⟩⟩, task⟩
    | refused | woken => exact ⟨⟨.refl, Or.inl rfl⟩, task⟩
    | event | eventCancelled | resumed | yieldCancelled | yieldClosed | finished | waitCancelled | returned | raised
    | shutdown | shutdownRefused => exact allowed.elim
  have later : t.Live setup := ⟨(Chronicle.Moves.chain answered.1.moves).sound safe.ready.sound, answered.2⟩
  refine ⟨safe.scheduled answered.1.moves safe.orderly answered.2 (fun differ => absurd rfl differ)
    fun _ => ⟨later, fun h' rely decisions policy => ?_⟩, answered.1⟩
  exact next result h' ⟨⟨_, t, .refl live, given, rely⟩, decisions, policy.trans given.policy⟩

/-- The scheduler's task has been made, if it was not made yet. -/
theorem Safe.started (safe : c.Safe setup) : ({ c with configuration := { c.configuration with
      shared := c.configuration.shared.withEngine c.configuration.shared.engine.ensureScheduler } } :
        Recorded backend).Safe setup := by
  have action : ClientAction c.configuration.shared
      (c.configuration.shared.withEngine c.configuration.shared.engine.ensureScheduler) := .ensureScheduler
  cases task : c.configuration.shared.engine.schedulerTask with
  | none =>
    obtain ⟨between, none⟩ := safe.unstarted task
    have made : c.configuration.shared.engine.ensureScheduler.schedulerTask = some .running := by
      show some (c.configuration.shared.engine.schedulerTask.getD .running) = _
      rw [task]
      rfl
    refine safe.scheduled (.single (.step (.client action) rfl)) (none ▸ trivial) made (fun differ => absurd rfl differ) fun _ => ?_
    rw [between, none]
    refine ⟨safe.ready.startable task, ⟨fun decided last => ?_, fun _ r active => ?_⟩, trivial⟩
    · cases last
    · exact Or.inl ⟨active, Or.inl (safe.ready.queued task r active)⟩
  | some made =>
    refine safe.aside (.of_action action ?_) safe.ready.ensured rfl fun client member => Or.inl member
    show some (c.configuration.shared.engine.schedulerTask.getD .running) = _
    rw [task]
    rfl

theorem Beside.safe {configuration : Configuration backend} (step : Beside c.configuration configuration)
    (safe : c.Safe setup) : ({ c with configuration } : Recorded backend).Safe setup ∧
      Explained c { c with configuration } := by
  cases step with
  | answer task waiting given => exact safe.answered task waiting given
  | @client i client status t at_ step =>
    obtain ⟨body, holds⟩ := safe.clients client (List.mem_of_getElem? at_)
    obtain ⟨aside, ready, after⟩ := step.aside safe.ready body holds
    refine ⟨safe.aside aside ready rfl fun other member => ?_, aside.moves _, Or.inl aside.log⟩
    rcases List.mem_or_eq_of_mem_set member with old | rfl
    · exact Or.inl old
    · exact Or.inr ⟨body, after⟩
  | @immediate engine call =>
    have done : Aside setup c.configuration.shared (c.configuration.shared.withEngine engine) ∧
        Ready setup (c.configuration.shared.withEngine engine) := by
      cases call with
      | reserve id prompt sampling deadline count createdAt =>
        exact ⟨.of_action .reserve (started_reserve _ _ _ _ _ _ _).2, safe.ready.reserved _ _ _ _ _ _⟩
      | cancel id =>
        have quiet : c.configuration.shared.engine.Quiet (c.configuration.shared.engine.cancel id).2 := by
          unfold Engine.cancel
          split
          · exact .refl
          · split
            · exact .refl
            · exact (Engine.Quiet.setCancellation _).trans .setWake
        exact ⟨.of_action (.quiet quiet) quiet.schedulerTask, safe.ready.quiet quiet⟩
    exact ⟨safe.aside done.1 done.2 rfl fun client member => Or.inl member, done.1.moves _, Or.inl done.1.log⟩
  | @stream id r found =>
    have begun := safe.started
    have opened : (c.configuration.shared.engine.openStream id).2 = c.configuration.shared.engine.ensureScheduler := by
      unfold Engine.openStream at found ⊢
      split at found
      · cases found
      · rfl
    rw [opened]
    refine ⟨{ begun with clients := fun client member => ?_ }, .single (.step (.client .ensureScheduler) rfl), Or.inl rfl⟩
    rcases List.mem_append.mp member with old | new
    · exact begun.clients client old
    · rw [List.mem_singleton.mp new]
      exact ⟨fun t ready => safe_streamIteration ready id, trivial⟩
  | shutdown =>
    refine ⟨safe.aside (.refl _) safe.ready rfl fun client member => ?_, .refl, Or.inl rfl⟩
    rcases List.mem_append.mp member with old | new
    · exact Or.inl old
    · rw [List.mem_singleton.mp new]
      exact Or.inr ⟨fun t ready => safe_shutdown ready, trivial⟩

/-- A step keeps what holds of every configuration, and is explained by steps of the engine's parties. -/
theorem Step.safe (step : Step c c') (safe : c.Safe setup) : c'.Safe setup ∧ Explained c c' := by
  cases step with
  | turn task between run =>
    have holds := safe.scheduler task
    rw [between] at holds
    obtain ⟨updates, ended⟩ := (safe_schedulerIteration holds.1 holds.2).advances run
    exact safe.ran task updates ended
  | resume task answered run =>
    have holds := safe.scheduler task
    rw [answered] at holds
    obtain ⟨updates, ended⟩ := (holds.2 c.chronicle (.refl holds.1) rfl rfl).advances run
    exact safe.ran task updates ended
  | beside step => exact step.safe safe

theorem Runs.safe (runs : Runs c c') (safe : c.Safe setup) :
    c'.Safe setup ∧ Relation.ReflTransGen Chronicle.Moves c.chronicle c'.chronicle := by
  induction runs with
  | refl => exact ⟨safe, .refl⟩
  | tail _ step before =>
    obtain ⟨after, explained⟩ := step.safe before.1
    exact ⟨after, before.2.trans explained.moves⟩

/-- A call the scheduler waits for is one it may make. -/
theorem Safe.guard (safe : c.Safe setup) {command : BackendCall S} {sequences : List Ref}
    {k : Except Raised command.Answer → EngineM S Bool}
    (waiting : c.configuration.scheduler = .waiting (.call command sequences) k) :
    c.configuration.shared.Live setup ∧ c.configuration.shared.CallGuard command sequences := by
  have task : c.configuration.shared.engine.schedulerTask = some .running := by
    cases made : c.configuration.shared.engine.schedulerTask with
    | none =>
      have between := (safe.unstarted made).1
      rw [waiting] at between
      cases between
    | some task =>
      by_cases running : task = .running
      · rw [running]
      · obtain ⟨result, isOver⟩ := safe.isOver task made running
        rw [waiting] at isOver
        cases isOver
  have holds := safe.scheduler task
  rw [waiting] at holds
  exact ⟨holds.1, holds.2.1.2⟩

end Recorded

/-- Every configuration of a run of the engine is safe. -/
theorem Configuration.Reachable.safe {c : Configuration backend} (reachable : c.Reachable backend setup) :
    ∃ decisions, (⟨c, decisions⟩ : Recorded backend).Safe setup := by
  induction reachable with
  | refl => exact ⟨[], Recorded.initial_safe backend setup⟩
  | tail _ step before =>
    obtain ⟨decisions, safe⟩ := before
    obtain ⟨c', rfl, recorded⟩ := Recorded.Step.record (c := ⟨_, decisions⟩) step
    exact ⟨c'.decisions, (recorded.safe safe).1⟩

end ServingPlatform
