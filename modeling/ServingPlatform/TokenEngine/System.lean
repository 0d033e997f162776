import ServingPlatform.TokenEngine.Scheduler

namespace ServingPlatform

variable {S : Type}

/-- A backend call the engine has made, with its outcome. -/
structure CallRecord (S : Type) where
  command : BackendCall S
  sequences : List Ref
  result : Except Raised command.Answer

/-- The engine and its backend, with the history of calls, the last one first. -/
structure Shared (backend : InferenceBackend S) where
  engine : Engine S
  backendState : backend.State
  log : List (CallRecord S)

variable {backend : InferenceBackend S}

namespace Shared

def withEngine (t : Shared backend) (engine : Engine S) : Shared backend := { t with engine }

/-- Coroutines read and write the engine only. -/
def window : Coro.Window (Engine S) (Shared backend) where
  view := engine
  put := withEngine
  view_put _ _ := rfl

def record (t : Shared backend) (command : BackendCall S) (sequences : List Ref)
    (result : Except Raised command.Answer) (after : backend.State) : Shared backend :=
  { t with backendState := after, log := ⟨command, sequences, result⟩ :: t.log }

def take (t : Shared backend) (r : Ref) : Shared backend :=
  t.withEngine (t.engine.modifySequence r fun runtime => { runtime with taken := runtime.taken + 1 })

end Shared

def executorShutDown : Raised := runtimeError "backend executor is shut down"

def cancelledError : Raised := ⟨.cancelledError, ""⟩

def generatorExit : Raised := ⟨.generatorExit, ""⟩

/-- How an awaited operation may be answered. -/
inductive Answers (backend : InferenceBackend S) :
    (op : EngineOp S) → Shared backend → Except Raised op.Answer → Shared backend → Prop
  | call {t : Shared backend} {command : BackendCall S} {sequences : List Ref} {result : Except Raised command.Answer}
      {after : backend.State} (executor : t.engine.executorClosed = false)
      (run : backend.Runs command t.backendState result after) :
      Answers backend (.call command sequences) t result (t.record command sequences result after)
  | refused {t : Shared backend} {command : BackendCall S} {sequences : List Ref}
      (executor : t.engine.executorClosed = true) :
      Answers backend (.call command sequences) t (.error executorShutDown) t
  | woken {t : Shared backend} (wake : t.engine.wake = true) : Answers backend .wakeWait t (.ok ()) t
  | event {t : Shared backend} {r : Ref} {event : StreamEvent}
      (next : (t.engine.sequences r).events[(t.engine.sequences r).taken]? = some event) :
      Answers backend (.nextEvent r) t (.ok event) (t.take r)
  | eventCancelled {t : Shared backend} {r : Ref} : Answers backend (.nextEvent r) t (.error cancelledError) t
  | resumed {t : Shared backend} {event : StreamEvent} : Answers backend (.yieldEvent event) t (.ok ()) t
  | yieldCancelled {t : Shared backend} {event : StreamEvent} :
      Answers backend (.yieldEvent event) t (.error cancelledError) t
  | yieldClosed {t : Shared backend} {event : StreamEvent} :
      Answers backend (.yieldEvent event) t (.error generatorExit) t
  | finished {t : Shared backend} {r : Ref} (done : (t.engine.sequences r).done = true) :
      Answers backend (.doneWait r) t (.ok ()) t
  | waitCancelled {t : Shared backend} {r : Ref} : Answers backend (.doneWait r) t (.error cancelledError) t
  | returned {t : Shared backend} (task : t.engine.schedulerTask = some .returned) :
      Answers backend .schedulerDone t (.ok ()) t
  | raised {t : Shared backend} {error : Raised} (task : t.engine.schedulerTask = some (.raised error)) :
      Answers backend .schedulerDone t (.error error) t
  | shutdown {t : Shared backend} {result : Except Raised Unit} {after : backend.State}
      (executor : t.engine.executorClosed = false)
      (run : backend.Runs (.direct .shutdown) t.backendState result after) :
      Answers backend .backendShutdown t result { t with backendState := after }
  | shutdownRefused {t : Shared backend} (executor : t.engine.executorClosed = true) :
      Answers backend .backendShutdown t (.error executorShutDown) t

/-- A task whose body is repeated as long as it answers `true`. -/
inductive TaskStatus (S : Type)
  | between
  | waiting (op : EngineOp S) (k : Except Raised op.Answer → EngineM S Bool)
  | answered (op : EngineOp S) (result : Except Raised op.Answer) (k : Except Raised op.Answer → EngineM S Bool)
  | isOver (result : Except Raised Unit)

def TaskStatus.ofOutcome : Coro.Outcome (Engine S) (EngineOp S) EngineOp.Answer Raised Bool → TaskStatus S
  | .waiting op k => .waiting op k
  | .finished (.ok true) => .between
  | .finished (.ok false) => .isOver (.ok ())
  | .finished (.error error) => .isOver (.error error)

/-- A task runs from one suspension to the next; between the two the operation
it waits for is answered. -/
inductive TaskStep (body : EngineM S Bool) :
    TaskStatus S → Shared backend → TaskStatus S → Shared backend → Prop
  | turn {t t' : Shared backend} {outcome : Coro.Outcome (Engine S) (EngineOp S) EngineOp.Answer Raised Bool}
      (run : Coro.Advances Shared.window body t outcome t') : TaskStep body .between t (.ofOutcome outcome) t'
  | answer {t t' : Shared backend} {op : EngineOp S} {result : Except Raised op.Answer}
      {k : Except Raised op.Answer → EngineM S Bool} (given : Answers backend op t result t') :
      TaskStep body (.waiting op k) t (.answered op result k) t'
  | resume {t t' : Shared backend} {op : EngineOp S} {result : Except Raised op.Answer}
      {k : Except Raised op.Answer → EngineM S Bool}
      {outcome : Coro.Outcome (Engine S) (EngineOp S) EngineOp.Answer Raised Bool}
      (run : Coro.Advances Shared.window (k result) t outcome t') :
      TaskStep body (.answered op result k) t (.ofOutcome outcome) t'

structure Client (S : Type) where
  body : EngineM S Bool
  status : TaskStatus S

/-- The scheduler's task, the streams and shutdowns begun so far, and what they share. -/
structure Configuration (backend : InferenceBackend S) where
  shared : Shared backend
  scheduler : TaskStatus S
  clients : List (Client S)

/-- The task object records how the scheduler's loop ended. -/
def Engine.noteScheduler (e : Engine S) : TaskStatus S → Engine S
  | .isOver (.ok ()) => { e with schedulerTask := some .returned }
  | .isOver (.error error) => { e with schedulerTask := some (.raised error) }
  | _ => e

namespace Configuration

/-- The calls of the engine's users that finish at once. -/
inductive Immediate : Engine S → Engine S → Prop
  | reserve (e : Engine S) (requestId prompt : String) (sampling : SamplingParameters) (deadline : Seconds)
      (promptTokenCount : Int) (createdAt : Seconds) :
      Immediate e (e.reserve requestId prompt sampling deadline promptTokenCount createdAt).2
  | cancel (e : Engine S) (requestId : String) : Immediate e (e.cancel requestId).2

/-- One step of any party. Tasks also interleave between two turns of a loop,
where the source runs on. -/
inductive Step : Configuration backend → Configuration backend → Prop
  | scheduler {c : Configuration backend} {status : TaskStatus S} {t : Shared backend}
      (task : c.shared.engine.schedulerTask = some .running)
      (step : TaskStep TokenGenerationEngine.schedulerIteration c.scheduler c.shared status t) :
      Step c { c with scheduler := status, shared := t.withEngine (t.engine.noteScheduler status) }
  | client {c : Configuration backend} {i : Nat} {client : Client S} {status : TaskStatus S} {t : Shared backend}
      (at_ : c.clients[i]? = some client) (step : TaskStep client.body client.status c.shared status t) :
      Step c { c with shared := t, clients := c.clients.set i { client with status } }
  | immediate {c : Configuration backend} {engine : Engine S} (call : Immediate c.shared.engine engine) :
      Step c { c with shared := c.shared.withEngine engine }
  | stream {c : Configuration backend} {requestId : String} {r : Ref}
      (found : (c.shared.engine.openStream requestId).1 = .ok r) :
      Step c { c with
        shared := c.shared.withEngine (c.shared.engine.openStream requestId).2
        clients := c.clients ++ [⟨TokenGenerationEngine.streamIteration r requestId, .between⟩] }
  | shutdown {c : Configuration backend} :
      Step c { c with clients := c.clients ++ [⟨TokenGenerationEngine.shutdown, .between⟩] }

end Configuration

/-- How an engine is set up: its settings and those of its new allocator and prefix cache. -/
structure EngineSetup where
  config : EngineConfig
  policy : TokenSchedulingPolicyName
  dimensions : KvDimensions
  maxEntries : Nat
  maxTokens : Nat
  limits : maxEntries = 0 ↔ maxTokens = 0

def EngineSetup.engine (setup : EngineSetup) : Engine S :=
  .new setup.config setup.policy setup.dimensions (.ofLimits setup.maxEntries setup.maxTokens setup.limits)

namespace Configuration

def initial (backend : InferenceBackend S) (setup : EngineSetup) : Configuration backend :=
  ⟨⟨setup.engine, backend.start, []⟩, .between, []⟩

/-- The configurations of all runs of a new engine over its backend. -/
def Reachable (backend : InferenceBackend S) (setup : EngineSetup) : Configuration backend → Prop :=
  Relation.ReflTransGen Step (initial backend setup)

end Configuration

end ServingPlatform
