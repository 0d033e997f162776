import ServingPlatform.TokenEngine.System

namespace ServingPlatform

variable {S : Type} {backend : InferenceBackend S}

/-- The engine and its backend, with the states the engine was in when the
scheduler took its decisions, the last one first. -/
structure Chronicle (backend : InferenceBackend S) where
  shared : Shared backend
  decisions : List (Engine S)

namespace Chronicle

/-- Under the balanced policy a decision turns the policy's flag, and nothing else does. -/
def note (h : Chronicle backend) (engine : Engine S) : Chronicle backend where
  shared := h.shared.withEngine engine
  decisions := if engine.policy.balancedDecodeTurn = h.shared.engine.policy.balancedDecodeTurn then h.decisions
    else h.shared.engine :: h.decisions

def window : Coro.Window (Engine S) (Chronicle backend) where
  view h := h.shared.engine
  put := note
  view_put _ _ := rfl

variable {c : EngineM S Bool} {outcome : Coro.Outcome (Engine S) (EngineOp S) EngineOp.Answer Raised Bool}
  {h h' : Chronicle backend} {t : Shared backend}

theorem forget (run : Coro.Advances window c h outcome h') : Coro.Advances Shared.window c h.shared outcome h'.shared :=
  run.project shared (fun _ => rfl) fun _ _ => rfl

theorem keep (run : Coro.Advances Shared.window c h.shared outcome t) :
    ∃ h', h'.shared = t ∧ Coro.Advances window c h outcome h' :=
  run.widen shared (fun _ => rfl) (fun _ _ => rfl) rfl

end Chronicle

/-- A configuration with the decisions taken on the way to it. -/
structure Recorded (backend : InferenceBackend S) where
  configuration : Configuration backend
  decisions : List (Engine S)

namespace Recorded

def chronicle (c : Recorded backend) : Chronicle backend := ⟨c.configuration.shared, c.decisions⟩

/-- The scheduler has run from one suspension to the next. -/
def schedulerRan (c : Recorded backend) (status : TaskStatus S) (h : Chronicle backend) : Recorded backend where
  configuration := { c.configuration with
    scheduler := status
    shared := h.shared.withEngine (h.shared.engine.noteScheduler status) }
  decisions := h.decisions

/-- The steps of configurations in which the scheduler itself does not run. -/
inductive Beside : Configuration backend → Configuration backend → Prop
  | answer {c : Configuration backend} {op : EngineOp S} {result : Except Raised op.Answer}
      {k : Except Raised op.Answer → EngineM S Bool} {t : Shared backend}
      (task : c.shared.engine.schedulerTask = some .running) (waiting : c.scheduler = .waiting op k)
      (given : Answers backend op c.shared result t) :
      Beside c { c with scheduler := .answered op result k, shared := t }
  | client {c : Configuration backend} {i : Nat} {client : Client S} {status : TaskStatus S} {t : Shared backend}
      (at_ : c.clients[i]? = some client) (step : TaskStep client.body client.status c.shared status t) :
      Beside c { c with shared := t, clients := c.clients.set i { client with status } }
  | immediate {c : Configuration backend} {engine : Engine S} (call : Configuration.Immediate c.shared.engine engine) :
      Beside c { c with shared := c.shared.withEngine engine }
  | stream {c : Configuration backend} {requestId : String} {r : Ref}
      (found : (c.shared.engine.openStream requestId).1 = .ok r) :
      Beside c { c with
        shared := c.shared.withEngine (c.shared.engine.openStream requestId).2
        clients := c.clients ++ [⟨TokenGenerationEngine.streamIteration r requestId, .between⟩] }
  | shutdown {c : Configuration backend} :
      Beside c { c with clients := c.clients ++ [⟨TokenGenerationEngine.shutdown, .between⟩] }

/-- The steps of configurations with the decisions they bring. -/
inductive Step : Recorded backend → Recorded backend → Prop
  | turn {c : Recorded backend} {h : Chronicle backend}
      {outcome : Coro.Outcome (Engine S) (EngineOp S) EngineOp.Answer Raised Bool}
      (task : c.configuration.shared.engine.schedulerTask = some .running) (between : c.configuration.scheduler = .between)
      (run : Coro.Advances Chronicle.window TokenGenerationEngine.schedulerIteration c.chronicle outcome h) :
      Step c (c.schedulerRan (.ofOutcome outcome) h)
  | resume {c : Recorded backend} {h : Chronicle backend} {op : EngineOp S} {result : Except Raised op.Answer}
      {k : Except Raised op.Answer → EngineM S Bool}
      {outcome : Coro.Outcome (Engine S) (EngineOp S) EngineOp.Answer Raised Bool}
      (task : c.configuration.shared.engine.schedulerTask = some .running)
      (answered : c.configuration.scheduler = .answered op result k)
      (run : Coro.Advances Chronicle.window (k result) c.chronicle outcome h) :
      Step c (c.schedulerRan (.ofOutcome outcome) h)
  | beside {c : Recorded backend} {configuration : Configuration backend} (step : Beside c.configuration configuration) :
      Step c { c with configuration }

def initial (backend : InferenceBackend S) (setup : EngineSetup) : Recorded backend := ⟨.initial backend setup, []⟩

def Runs : Recorded backend → Recorded backend → Prop := Relation.ReflTransGen Step

end Recorded

namespace Recorded

variable {c c' : Recorded backend}

theorem Beside.step {c c' : Configuration backend} (step : Beside c c') : Configuration.Step c c' := by
  cases step with
  | @answer op result k t task waiting given =>
    have answered : TaskStep TokenGenerationEngine.schedulerIteration c.scheduler c.shared (.answered op result k) t := by
      rw [waiting]
      exact .answer given
    exact .scheduler task answered
  | client at_ step => exact .client at_ step
  | immediate call => exact .immediate call
  | stream found => exact .stream found
  | shutdown => exact .shutdown

/-- The record changes nothing of what happens. -/
theorem Step.erase (step : Step c c') : Configuration.Step c.configuration c'.configuration := by
  cases step with
  | @turn h outcome task between run =>
    have turned : TaskStep TokenGenerationEngine.schedulerIteration c.configuration.scheduler c.configuration.shared
        (.ofOutcome outcome) h.shared := by
      rw [between]
      exact .turn (Chronicle.forget run)
    exact .scheduler task turned
  | @resume h op result k outcome task answered run =>
    have resumed : TaskStep TokenGenerationEngine.schedulerIteration c.configuration.scheduler c.configuration.shared
        (.ofOutcome outcome) h.shared := by
      rw [answered]
      exact .resume (Chronicle.forget run)
    exact .scheduler task resumed
  | beside step => exact step.step

/-- Every step can be recorded. -/
theorem Step.record {configuration : Configuration backend} (step : Configuration.Step c.configuration configuration) :
    ∃ c', c'.configuration = configuration ∧ Step c c' := by
  cases step with
  | @scheduler status t task step =>
    generalize at_ : c.configuration.scheduler = status₀ at step
    generalize from_ : c.configuration.shared = t₀ at step
    cases step with
    | turn run =>
      subst from_
      obtain ⟨h, rfl, ran⟩ := Chronicle.keep (h := c.chronicle) run
      exact ⟨_, rfl, .turn task at_ ran⟩
    | resume run =>
      subst from_
      obtain ⟨h, rfl, ran⟩ := Chronicle.keep (h := c.chronicle) run
      exact ⟨_, rfl, .resume task at_ ran⟩
    | answer given =>
      subst from_
      exact ⟨_, rfl, .beside (.answer task at_ given)⟩
  | client at_ step => exact ⟨_, rfl, .beside (.client at_ step)⟩
  | immediate call => exact ⟨_, rfl, .beside (.immediate call)⟩
  | stream found => exact ⟨_, rfl, .beside (.stream found)⟩
  | shutdown => exact ⟨_, rfl, .beside .shutdown⟩

end Recorded

end ServingPlatform
