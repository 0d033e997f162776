import ServingPlatform.TokenEngine.Reservations

namespace ServingPlatform

variable {S : Type}

namespace TokenGenerationEngine

open Coro Engine

variable {α : Type} {backend : InferenceBackend S} {r : Ref}

/-- A coroutine of the engine that gives reservations back at most. -/
abbrev Draining (backend : InferenceBackend S) (c : EngineM S α) : Prop :=
  Steady (Shared.window : Window (Engine S) (Shared backend)) Engine.Drains c

theorem draining_eased {f : Engine S → Engine S} (eased : ∀ e : Engine S, e.Eased (f e)) : Draining backend (Coro.modify f : EngineM S Unit) :=
  steady_modify fun e => (eased e).drains

/-- One sequence changes, but for its identifier, its end and its queue. -/
theorem draining_modified {f : ScheduledSequence → ScheduledSequence}
    (named : ∀ runtime, (f runtime).state.requestId = runtime.state.requestId)
    (cancellation : ∀ runtime, runtime.state.cancellation = true → (f runtime).state.cancellation = true)
    (done : ∀ runtime, (f runtime).done = runtime.done) (events : ∀ runtime, (f runtime).events = runtime.events) :
    Draining backend (Coro.modify fun e => e.modifySequence r f : EngineM S Unit) :=
  draining_eased fun _ => .modified named cancellation done events

theorem draining_runAsync (method : BackendMethod S) (sequences : List Ref) : Draining backend (runAsync method sequences) :=
  steady_request _

theorem draining_checkInterruption : Draining backend (checkInterruption r : EngineM S (Option FinishReason)) := by
  refine steady_read.bind fun e => ?_
  split
  · exact steady_pure _
  · refine steady_clock.bind fun now => ?_
    exact steady_pure _

theorem draining_finish {phase : SequencePhase} {event : ScheduledSequence → StreamEvent} :
    Draining backend (finish r phase event : EngineM S Unit) := by
  refine steady_read.bind fun e => ?_
  dsimp only
  split
  · refine Steady.bind (draining_modified (fun _ => rfl) (fun _ set => set) (fun _ => rfl) fun _ => rfl) fun _ => ?_
    split
    · refine (draining_runAsync _ _).bind fun _ => ?_
      refine Steady.bind (draining_modified (fun _ => rfl) (fun _ set => set) (fun _ => rfl) fun _ => rfl) fun _ => ?_
      exact steady_sync fun _ _ _ => .retired
    · exact steady_sync fun _ _ _ => .retired
  · exact steady_pure _

theorem draining_complete {reason : FinishReason} : Draining backend (complete r reason : EngineM S Unit) := draining_finish

theorem draining_fail {error : Raised} : Draining backend (fail r error : EngineM S Unit) := draining_finish

theorem draining_failAll (error : Raised) (batch : List Ref) : Draining backend (failAll error batch : EngineM S Unit) := by
  induction batch with
  | nil => exact steady_pure _
  | cons r rest ih => exact draining_fail.bind fun _ => ih

theorem draining_acceptToken {token : GeneratedToken} {eosIds : List TokenId} :
    Draining backend (acceptToken r token eosIds : EngineM S Unit) := by
  refine draining_checkInterruption.bind fun interrupted => ?_
  split
  · exact draining_complete
  · refine steady_read.bind fun e => ?_
    split
    · exact draining_complete
    split
    · exact draining_complete
    refine Steady.bind (steady_modify fun e => .emitted e r token) fun _ => ?_
    refine steady_read.bind fun e => ?_
    split
    · exact draining_complete
    · exact steady_pure _

theorem draining_getEosIds (sequences : List Ref) : Draining backend (getEosIds sequences : EngineM S (List TokenId)) := by
  refine steady_read.bind fun e => ?_
  split
  · exact steady_pure _
  · refine (draining_runAsync _ _).bind fun eosIds => ?_
    refine Steady.bind (draining_eased fun _ => ?_) fun _ => steady_pure _
    exact ⟨rfl, fun _ => rfl, rfl, rfl, fun _ set => set, fun _ => rfl, fun _ => rfl⟩

theorem draining_storePrefix : Draining backend (storePrefix r : EngineM S Unit) := by
  refine steady_read.bind fun e => ?_
  split
  · exact steady_pure _
  split
  · refine (draining_runAsync _ _).bind fun snapshot => ?_
    refine Steady.bind (steady_sync fun e result e' run => ?_) fun _ => steady_pure _
    cases run
    exact Eased.drains ⟨rfl, fun _ => rfl, rfl, rfl, fun _ set => set, fun _ => rfl, fun _ => rfl⟩
  · exact steady_pure _

theorem draining_acceptResult {outcome : BatchTokenResult} {eosIds : List TokenId} {measure : Ref → Engine S → Engine S}
    {stores : Bool} (measures : ∀ r (e : Engine S), e.Eased (measure r e)) :
    Draining backend (acceptResult outcome eosIds measure stores r : EngineM S Unit) := by
  refine steady_read.bind fun e => ?_
  split
  · exact draining_fail
  · refine Steady.bind (draining_eased (measures r)) fun _ => ?_
    split
    · exact steady_raise _
    · refine Steady.bind (draining_modified (fun _ => rfl) (fun _ set => set) (fun _ => rfl) fun _ => rfl) fun _ => ?_
      split
      · exact draining_storePrefix.bind fun _ => draining_acceptToken
      · exact draining_acceptToken

theorem draining_acceptOutcome {outcome : BatchTokenResult} {eosIds : List TokenId} {measure : Ref → Engine S → Engine S}
    {stores : Bool} (measures : ∀ r (e : Engine S), e.Eased (measure r e)) (batch : List Ref) :
    Draining backend (acceptOutcome outcome eosIds measure stores batch : EngineM S Unit) := by
  induction batch with
  | nil => exact steady_pure _
  | cons r rest ih => exact (draining_acceptResult measures).bind fun _ => ih

theorem draining_runBatch {command : BackendCall S} {outcomeOf : command.Answer → BatchTokenResult}
    {count : Nat → Engine S → Engine S} {measure : Int → Ref → Engine S → Engine S} {stores : Bool}
    (counts : ∀ size (e : Engine S), e.Eased (count size e)) (measures : ∀ elapsed r (e : Engine S), e.Eased (measure elapsed r e))
    (batch : List Ref) : Draining backend (runBatch command outcomeOf count measure stores batch : EngineM S Unit) := by
  refine steady_clock.bind fun started => ?_
  refine (steady_request _).attempt.bind fun answer => ?_
  split
  · exact draining_failAll _ _
  · refine steady_clock.bind fun ended => ?_
    refine Steady.bind (draining_eased (counts _)) fun _ => ?_
    refine (draining_getEosIds batch).attempt.bind fun eosIds => ?_
    split
    · exact draining_failAll _ _
    · exact draining_acceptOutcome (measures _) batch

section Prefill

theorem draining_tokenizePrompt : Draining backend (tokenizePrompt r : EngineM S TokenizedPrompt) := by
  refine steady_read.bind fun e => ?_
  split
  · exact steady_pure _
  · refine (draining_runAsync _ _).bind fun prompt => ?_
    refine Steady.bind (draining_modified (fun _ => rfl) (fun _ set => set) (fun _ => rfl) fun _ => rfl) fun _ => ?_
    exact Steady.bind (steady_sync fun _ _ _ => .resized) fun _ => steady_pure _

theorem draining_findPrefix (tokenIds : List TokenId) :
    Draining backend (findPrefix tokenIds : EngineM S (Option (PrefixMatch S))) := by
  refine steady_read.bind fun e => ?_
  split
  · refine steady_sync fun e result e' run => ?_
    cases run
    exact Eased.drains ⟨rfl, fun _ => rfl, rfl, rfl, fun _ set => set, fun _ => rfl, fun _ => rfl⟩
  · exact steady_pure _

theorem draining_startFromPrefix {prompt : TokenizedPrompt} {found : PrefixMatch S} :
    Draining backend (startFromPrefix r prompt found) := by
  refine steady_read.bind fun e => ?_
  dsimp only
  split
  · exact draining_runAsync _ _
  · exact (steady_lift _).bind fun suffix => draining_runAsync _ _

theorem draining_reusePrefix {prompt : TokenizedPrompt} {found : PrefixMatch S} :
    Draining backend (reusePrefix r prompt found) := by
  refine steady_clock.bind fun started => ?_
  refine draining_startFromPrefix.bind fun token => ?_
  refine steady_clock.bind fun ended => ?_
  refine Steady.bind (draining_modified (fun _ => rfl) (fun _ set => set) (fun _ => rfl) fun _ => rfl) fun _ => ?_
  refine Steady.bind (draining_modified (fun _ => rfl) (fun _ set => set) (fun _ => rfl) fun _ => rfl) fun _ => ?_
  have accepts : Draining backend (do
      let eosIds ← getEosIds [r]
      acceptToken r token eosIds : EngineM S Unit) := (draining_getEosIds [r]).bind fun _ => draining_acceptToken
  dsimp only
  split
  · exact draining_storePrefix.bind fun _ => accepts
  · exact accepts

theorem draining_prepare : Draining backend (prepare r : EngineM S Bool) := by
  refine draining_tokenizePrompt.bind fun prompt => ?_
  refine Steady.bind (draining_modified (fun _ => rfl) (fun _ set => set) (fun _ => rfl) fun _ => rfl) fun _ => ?_
  refine (draining_findPrefix _).bind fun found => ?_
  split
  · exact steady_pure _
  · exact draining_reusePrefix.bind fun _ => steady_pure _

theorem draining_collect (ids : List String) : Draining backend (collect ids : EngineM S (List Ref)) := by
  induction ids with
  | nil => exact steady_pure _
  | cons id rest ih =>
    refine steady_read.bind fun e => ?_
    split
    · exact ih
    · refine (draining_prepare.catchError fun error => ?_).bind fun joins => ?_
      · exact draining_fail.bind fun _ => steady_pure _
      · exact ih.bind fun batch => steady_pure _

theorem draining_runChunk {eosIds : List TokenId} {prompt : TokenizedPrompt} :
    Draining backend (runChunk eosIds r prompt : EngineM S Unit) := by
  refine steady_read.bind fun e => ?_
  dsimp only
  refine (steady_lift _).bind fun chunk => ?_
  refine steady_clock.bind fun started => ?_
  refine (draining_runAsync _ _).attempt.bind fun answer => ?_
  split
  · exact draining_fail
  · refine steady_clock.bind fun ended => ?_
    refine Steady.bind (draining_modified (fun _ => rfl) (fun _ set => set) (fun _ => rfl) fun _ => rfl) fun _ => ?_
    refine Steady.bind (draining_modified (fun _ => rfl) (fun _ set => set) (fun _ => rfl) fun _ => rfl) fun _ => ?_
    refine Steady.bind (draining_eased fun _ => ⟨rfl, fun _ => rfl, rfl, rfl, fun _ set => set, fun _ => rfl, fun _ => rfl⟩) fun _ => ?_
    split
    · exact steady_pure _
    · refine Steady.bind (draining_modified (fun _ => rfl) (fun _ set => set) (fun _ => rfl) fun _ => rfl) fun _ => ?_
      exact draining_storePrefix.bind fun _ => draining_acceptToken

theorem draining_runChunks (eosIds : List TokenId) (batch : List Ref) :
    Draining backend (runChunks eosIds batch : EngineM S Unit) := by
  induction batch with
  | nil => exact steady_pure _
  | cons r rest ih =>
    refine steady_read.bind fun e => ?_
    split
    · exact ih
    split
    · exact draining_runChunk.bind fun _ => ih
    · exact ih

theorem draining_runPrefillChunks (batch : List Ref) : Draining backend (runPrefillChunks batch : EngineM S Unit) := by
  refine steady_read.bind fun e => ?_
  split
  · refine (draining_getEosIds batch).attempt.bind fun eosIds => ?_
    split
    · exact draining_failAll _ _
    · exact draining_runChunks _ _
  · exact draining_failAll _ _

theorem draining_runPrefill (ids : List String) : Draining backend (runPrefill ids : EngineM S Unit) := by
  refine (draining_collect ids).bind fun batch => ?_
  have counts : ∀ size (e : Engine S), e.Eased (e.countPrefill size) :=
    fun _ _ => ⟨rfl, fun _ => rfl, rfl, rfl, fun _ set => set, fun _ => rfl, fun _ => rfl⟩
  have measures : ∀ elapsed r (e : Engine S), e.Eased (e.addPrefillTime r elapsed) :=
    fun _ _ _ => .modified (fun _ => rfl) (fun _ set => set) (fun _ => rfl) fun _ => rfl
  split
  · refine steady_read.bind fun e => ?_
    split
    · exact draining_runPrefillChunks batch
    dsimp only
    split
    · exact draining_runBatch counts measures batch
    · exact draining_runBatch counts measures batch
  · exact steady_pure _

end Prefill

theorem draining_runDecode (ids : List String) : Draining backend (runDecode ids : EngineM S Unit) := by
  refine steady_read.bind fun e => ?_
  have counts : ∀ size (e : Engine S), e.Eased (e.countDecode size) :=
    fun _ _ => ⟨rfl, fun _ => rfl, rfl, rfl, fun _ set => set, fun _ => rfl, fun _ => rfl⟩
  have measures : ∀ elapsed r (e : Engine S), e.Eased (e.addDecodeTime r elapsed) :=
    fun _ _ _ => .modified (fun _ => rfl) (fun _ set => set) (fun _ => rfl) fun _ => rfl
  dsimp only
  split
  · split
    · exact draining_runBatch counts measures _
    · exact draining_runBatch counts measures _
  · exact steady_pure _

theorem draining_finishInterrupted (batch : List Ref) : Draining backend (finishInterrupted batch : EngineM S Unit) := by
  induction batch with
  | nil => exact steady_pure _
  | cons r rest ih =>
    refine Steady.bind (draining_checkInterruption.bind fun reason => ?_) fun _ => ih
    split
    · exact draining_complete
    · exact steady_pure _

/-- A turn of the scheduler's loop gives reservations back at most. -/
theorem draining_schedulerIteration : Draining backend (schedulerIteration : EngineM S Bool) := by
  refine steady_read.bind fun e => ?_
  split
  · exact steady_pure _
  refine (draining_finishInterrupted _).bind fun _ => ?_
  refine Steady.bind (steady_sync fun e result e' run => Eased.drains ?_) fun decision => ?_
  · cases run
    exact ⟨rfl, fun _ => rfl, rfl, rfl, fun _ set => set, fun _ => rfl, fun _ => rfl⟩
  split
  · exact (draining_runPrefill _).bind fun _ => steady_pure _
  split
  · exact (draining_runDecode _).bind fun _ => steady_pure _
  refine Steady.bind (draining_eased fun _ => ⟨rfl, fun _ => rfl, rfl, rfl, fun _ set => set, fun _ => rfl, fun _ => rfl⟩) fun _ => ?_
  refine steady_read.bind fun e => ?_
  split
  · exact steady_pure _
  · exact (steady_request _).bind fun _ => steady_pure _

theorem draining_completeAll (batch : List Ref) : Draining backend (completeAll batch : EngineM S Unit) := by
  induction batch with
  | nil => exact steady_pure _
  | cons r rest ih => exact draining_complete.bind fun _ => ih

theorem draining_shutdown : Draining backend (shutdown : EngineM S Bool) := by
  have last : Draining backend (do
      Coro.modify Engine.clearPrefixCache
      Coro.request EngineOp.backendShutdown
      Coro.modify Engine.closeExecutor
      return false : EngineM S Bool) := by
    refine Steady.bind (draining_eased fun _ => ?_) fun _ => ?_
    · exact ⟨rfl, fun _ => rfl, rfl, rfl, fun _ set => set, fun _ => rfl, fun _ => rfl⟩
    refine (steady_request _).bind fun _ => ?_
    refine Steady.bind (draining_eased fun _ => ?_) fun _ => steady_pure _
    exact ⟨rfl, fun _ => rfl, rfl, rfl, fun _ set => set, fun _ => rfl, fun _ => rfl⟩
  refine steady_read.bind fun e => ?_
  split
  · exact steady_pure _
  refine (draining_eased .closed).bind fun _ => ?_
  split
  · exact (steady_request _).bind fun _ => last
  · exact (draining_completeAll _).bind fun _ => last

end TokenGenerationEngine

open TokenGenerationEngine

variable {backend : InferenceBackend S}

/-- What remains of a task gives reservations back at most. -/
def TaskStatus.Draining (backend : InferenceBackend S) : TaskStatus S → Prop
  | .waiting _ k => ∀ answer, TokenGenerationEngine.Draining backend (k answer)
  | .answered _ result k => TokenGenerationEngine.Draining backend (k result)
  | .between | .isOver _ => True

theorem Answers.drains {op : EngineOp S} {t t' : Shared backend} {result : Except Raised op.Answer}
    (given : Answers backend op t result t') : t.engine.Drains t'.engine := by
  cases given with
  | event next => exact (t.take_eased _).drains
  | _ => exact .refl _

theorem TaskStep.drains {body : EngineM S Bool} {status status' : TaskStatus S} {t t' : Shared backend}
    (step : TaskStep body status t status' t') (draining : TokenGenerationEngine.Draining backend body)
    (remains : status.Draining backend) : t.engine.Drains t'.engine ∧ status'.Draining backend := by
  have advanced : ∀ {c : EngineM S Bool} {outcome : Coro.Outcome (Engine S) (EngineOp S) EngineOp.Answer Raised Bool}
      {t t' : Shared backend}, TokenGenerationEngine.Draining backend c → Coro.Advances Shared.window c t outcome t' →
        t.engine.Drains t'.engine ∧ (TaskStatus.ofOutcome outcome).Draining backend := by
    intro c outcome t t' steady run
    obtain ⟨steps, rest⟩ := steady.advances run
    refine ⟨Engine.Drains.of_steps steps, ?_⟩
    unfold TaskStatus.ofOutcome
    split
    · exact rest _ _ rfl
    · trivial
    · trivial
    · trivial
  cases step with
  | turn run => exact advanced draining run
  | answer given => exact ⟨given.drains, remains _⟩
  | resume run => exact advanced remains run

namespace Configuration

variable {c c' : Configuration backend}

/-- The steps of the engine that are no calls of its users: of the scheduler's
task and of shutdowns. -/
inductive Works : Configuration backend → Configuration backend → Prop
  | scheduler {c : Configuration backend} {status : TaskStatus S} {t : Shared backend}
      (task : c.shared.engine.schedulerTask = some .running)
      (step : TaskStep TokenGenerationEngine.schedulerIteration c.scheduler c.shared status t) :
      Works c { c with scheduler := status, shared := t.withEngine (t.engine.noteScheduler status) }
  | client {c : Configuration backend} {i : Nat} {client : Client S} {status : TaskStatus S} {t : Shared backend}
      (at_ : c.clients[i]? = some client) (step : TaskStep client.body client.status c.shared status t) :
      Works c { c with shared := t, clients := c.clients.set i { client with status } }
  | shutdown {c : Configuration backend} :
      Works c { c with clients := c.clients ++ [⟨TokenGenerationEngine.shutdown, .between⟩] }

theorem Works.step (works : Works c c') : Step c c' := by
  cases works with
  | scheduler task step => exact .scheduler task step
  | client at_ step => exact .client at_ step
  | shutdown => exact .shutdown

/-- All tasks give reservations back at most. -/
structure Draining (c : Configuration backend) : Prop where
  scheduler : c.scheduler.Draining backend
  clients : ∀ client ∈ c.clients, TokenGenerationEngine.Draining backend client.body ∧ client.status.Draining backend

theorem Draining.same {c c' : Configuration backend} (before : c.Draining) (scheduler : c'.scheduler = c.scheduler)
    (clients : c'.clients = c.clients) : c'.Draining := by
  refine ⟨?_, ?_⟩
  · rw [scheduler]
    exact before.scheduler
  · rw [clients]
    exact before.clients

theorem Works.drains (works : Works c c') (draining : c.Draining) : c.shared.engine.Drains c'.shared.engine ∧ c'.Draining := by
  cases works with
  | @scheduler status t task step =>
    obtain ⟨drains, remains⟩ := step.drains draining_schedulerIteration draining.scheduler
    have noted : t.engine.Eased (t.engine.noteScheduler status) := by
      unfold Engine.noteScheduler
      split <;> exact ⟨rfl, fun _ => rfl, rfl, rfl, fun _ set => set, fun _ => rfl, fun _ => rfl⟩
    exact ⟨drains.trans noted.drains, remains, draining.clients⟩
  | @client i client status t at_ step =>
    obtain ⟨body, before⟩ := draining.clients client (List.mem_of_getElem? at_)
    obtain ⟨drains, remains⟩ := step.drains body before
    refine ⟨drains, draining.scheduler, fun other member => ?_⟩
    rcases List.mem_or_eq_of_mem_set member with old | rfl
    · exact draining.clients other old
    · exact ⟨body, remains⟩
  | shutdown =>
    refine ⟨.refl _, draining.scheduler, fun other member => ?_⟩
    rcases List.mem_append.mp member with old | here
    · exact draining.clients other old
    · rw [List.mem_singleton.mp here]
      exact ⟨draining_shutdown, trivial⟩

end Configuration

end ServingPlatform
