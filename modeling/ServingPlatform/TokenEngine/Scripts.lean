import ServingPlatform.TokenEngine.Chronicle

namespace ServingPlatform

variable {S : Type}

/-- A backend without a state that has one answer for each method. -/
def InferenceBackend.ofAnswers (answer : (method : BackendMethod S) → Except Raised method.Answer) : InferenceBackend S where
  State := Unit
  start := ()
  held _ _ := False
  perform method _ result _ := result = answer method
  startEmpty _ held := held
  created _ _ held := held.elim
  released _ held := held

/-- What one party does next. -/
inductive Move
  | reserve (requestId prompt : String) (sampling : SamplingParameters) (deadline createdAt : Seconds)
  | stream (requestId : String)
  | schedule (reading : Seconds)
  | answer
  | consume (i : Nat)
  | event (i : Nat)
  | closeStream (i : Nat)

namespace Configuration

variable (answer : (method : BackendMethod S) → Except Raised method.Answer)

/-- The answer a backend call or a sleeping scheduler gets next. -/
def schedulerAnswer (t : Shared (.ofAnswers answer)) :
    (op : EngineOp S) → Option (Except Raised op.Answer × Shared (.ofAnswers answer))
  | .call (.direct method) sequences =>
    if t.engine.executorClosed then none
    else some (answer method, t.record (.direct method) sequences (answer method) ())
  | .wakeWait => if t.engine.wake then some (.ok (), t) else none
  | _ => none

theorem schedulerAnswer_answers {t t' : Shared (.ofAnswers answer)} {op : EngineOp S} {result : Except Raised op.Answer}
    (given : schedulerAnswer answer t op = some (result, t')) : Answers (.ofAnswers answer) op t result t' := by
  cases op with
  | call command sequences =>
    cases command with
    | direct method =>
      simp only [schedulerAnswer] at given
      split at given
      · cases given
      · rename_i executor
        cases given
        exact .call (eq_false_of_ne_true executor) rfl
    | prefillFallback | decodeFallback => cases given
  | wakeWait =>
    simp only [schedulerAnswer] at given
    split at given
    · rename_i wake
      cases given
      exact .woken wake
    · cases given
  | nextEvent | yieldEvent | doneWait | schedulerDone | backendShutdown => cases given

variable {backend : InferenceBackend S}

/-- The next event, for a stream that waits for one. -/
def streamAnswer (t : Shared backend) : (op : EngineOp S) → Option (Except Raised op.Answer × Shared backend)
  | .nextEvent r => (t.engine.sequences r).events[(t.engine.sequences r).taken]?.map fun event => (.ok event, t.take r)
  | _ => none

theorem streamAnswer_answers {t t' : Shared backend} {op : EngineOp S} {result : Except Raised op.Answer}
    (given : streamAnswer t op = some (result, t')) : Answers backend op t result t' := by
  cases op with
  | nextEvent r =>
    obtain ⟨event, next, same⟩ := Option.map_eq_some_iff.mp given
    cases same
    exact .event next
  | call | wakeWait | yieldEvent | doneWait | schedulerDone | backendShutdown => cases given

/-- A stream that has yielded is closed. -/
def closeAnswer (t : Shared backend) : (op : EngineOp S) → Option (Except Raised op.Answer × Shared backend)
  | .yieldEvent _ => some (.error generatorExit, t)
  | _ => none

theorem closeAnswer_answers {t t' : Shared backend} {op : EngineOp S} {result : Except Raised op.Answer}
    (given : closeAnswer t op = some (result, t')) : Answers backend op t result t' := by
  cases op with
  | yieldEvent event =>
    cases given
    exact .yieldClosed
  | call | wakeWait | nextEvent | doneWait | schedulerDone | backendShutdown => cases given

/-- A task runs on to its next suspension. -/
def runTask (body : EngineM S Bool) (reading : Seconds) (t : Shared backend) :
    TaskStatus S → Option (TaskStatus S × Shared backend)
  | .between =>
    let (outcome, t') := Coro.advance Shared.window reading body t
    some (.ofOutcome outcome, t')
  | .answered _ result k =>
    let (outcome, t') := Coro.advance Shared.window reading (k result) t
    some (.ofOutcome outcome, t')
  | _ => none

theorem runTask_step {body : EngineM S Bool} {reading : Seconds} {t t' : Shared backend} {status status' : TaskStatus S}
    (ran : runTask body reading t status = some (status', t')) : TaskStep body status t status' t' := by
  cases status with
  | between =>
    cases ran
    exact .turn (Coro.advance_advances _ _ _ _)
  | answered op result k =>
    cases ran
    exact .resume (Coro.advance_advances _ _ _ _)
  | waiting | isOver => cases ran

/-- The operation a task waits for is answered. -/
def answerTask (answer : (op : EngineOp S) → Option (Except Raised op.Answer × Shared backend)) :
    TaskStatus S → Option (TaskStatus S × Shared backend)
  | .waiting op k => (answer op).map fun given => (.answered op given.1 k, given.2)
  | _ => none

theorem answerTask_step {body : EngineM S Bool} {t t' : Shared backend} {status status' : TaskStatus S}
    {answer : (op : EngineOp S) → Option (Except Raised op.Answer × Shared backend)}
    (answers : ∀ op result t', answer op = some (result, t') → Answers backend op t result t')
    (ran : answerTask answer status = some (status', t')) : TaskStep body status t status' t' := by
  cases status with
  | waiting op k =>
    obtain ⟨given, answered, same⟩ := Option.map_eq_some_iff.mp ran
    cases same
    exact .answer (answers op _ _ answered)
  | between | answered | isOver => cases ran

def scheduled (c : Configuration backend) (outcome : TaskStatus S × Shared backend) : Configuration backend :=
  { c with scheduler := outcome.1, shared := outcome.2.withEngine (outcome.2.engine.noteScheduler outcome.1) }

def consumed (c : Configuration backend) (i : Nat) (client : Client S) (outcome : TaskStatus S × Shared backend) :
    Configuration backend :=
  { c with shared := outcome.2, clients := c.clients.set i { client with status := outcome.1 } }

def play (c : Configuration (.ofAnswers answer)) : Move → Option (Configuration (.ofAnswers answer))
  | .reserve requestId prompt sampling deadline createdAt => some { c with
      shared := c.shared.withEngine (c.shared.engine.reserve requestId prompt sampling deadline prompt.length createdAt).2 }
  | .stream requestId =>
    match (c.shared.engine.openStream requestId).1 with
    | .error _ => none
    | .ok r => some { c with
        shared := c.shared.withEngine (c.shared.engine.openStream requestId).2
        clients := c.clients ++ [⟨TokenGenerationEngine.streamIteration r requestId, .between⟩] }
  | .schedule reading =>
    if c.shared.engine.schedulerTask = some .running then
      (runTask TokenGenerationEngine.schedulerIteration reading c.shared c.scheduler).map c.scheduled
    else none
  | .answer =>
    if c.shared.engine.schedulerTask = some .running then
      (answerTask (schedulerAnswer answer c.shared) c.scheduler).map c.scheduled
    else none
  | .consume i => c.clients[i]?.bind fun client =>
      (runTask client.body 0 c.shared client.status).map (c.consumed i client)
  | .event i => c.clients[i]?.bind fun client =>
      (answerTask (streamAnswer c.shared) client.status).map (c.consumed i client)
  | .closeStream i => c.clients[i]?.bind fun client =>
      (answerTask (closeAnswer c.shared) client.status).map (c.consumed i client)

theorem play_step {c c' : Configuration (.ofAnswers answer)} {move : Move} (played : play answer c move = some c') : Step c c' := by
  have client : ∀ {i : Nat} {run : Client S → Option (TaskStatus S × Shared (.ofAnswers answer))},
      (∀ client status t, run client = some (status, t) → TaskStep client.body client.status c.shared status t) →
      (c.clients[i]?.bind fun client => (run client).map (c.consumed i client)) = some c' → Step c c' := by
    intro i run steps ran
    obtain ⟨client, at_, ran⟩ := Option.bind_eq_some_iff.mp ran
    obtain ⟨outcome, moved, same⟩ := Option.map_eq_some_iff.mp ran
    subst same
    exact .client at_ (steps client _ _ moved)
  cases move with
  | reserve requestId prompt sampling deadline createdAt =>
    cases played
    exact .immediate (.reserve ..)
  | stream requestId =>
    simp only [play] at played
    split at played
    · cases played
    · rename_i r found
      cases played
      exact .stream found
  | schedule reading =>
    simp only [play] at played
    split at played
    · rename_i task
      obtain ⟨outcome, ran, same⟩ := Option.map_eq_some_iff.mp played
      subst same
      exact .scheduler task (runTask_step ran)
    · cases played
  | answer =>
    simp only [play] at played
    split at played
    · rename_i task
      obtain ⟨outcome, ran, same⟩ := Option.map_eq_some_iff.mp played
      subst same
      exact .scheduler task (answerTask_step (fun _ _ _ => schedulerAnswer_answers answer) ran)
    · cases played
  | consume i => exact client (fun client _ _ => runTask_step) played
  | event i => exact client (fun client _ _ => answerTask_step fun _ _ _ => streamAnswer_answers) played
  | closeStream i => exact client (fun client _ _ => answerTask_step fun _ _ _ => closeAnswer_answers) played

def plays : Configuration (.ofAnswers answer) → List Move → Option (Configuration (.ofAnswers answer))
  | c, [] => some c
  | c, move :: rest => (play answer c move).bind fun c' => plays c' rest

theorem plays_runs {c c' : Configuration (.ofAnswers answer)} {script : List Move} (played : plays answer c script = some c') :
    Relation.ReflTransGen Step c c' := by
  induction script generalizing c with
  | nil =>
    cases played
    exact .refl
  | cons move rest ih =>
    obtain ⟨middle, first, later⟩ := Option.bind_eq_some_iff.mp played
    exact .head (play_step answer first) (ih later)

/-- What is seen after a script is seen in some configuration. -/
theorem script_reaches {c : Configuration (.ofAnswers answer)} {script : List Move}
    {seen : Configuration (.ofAnswers answer) → Bool} (shown : (plays answer c script).any seen = true) :
    ∃ c', Relation.ReflTransGen Step c c' ∧ seen c' = true := by
  cases played : plays answer c script with
  | none =>
    rw [played] at shown
    cases shown
  | some c' =>
    rw [played] at shown
    exact ⟨c', plays_runs answer played, shown⟩

end Configuration

namespace Recorded

variable (answer : (method : BackendMethod S) → Except Raised method.Answer)

/-- The scheduler's body, where it can run on. -/
def schedulerBody : TaskStatus S → Option (EngineM S Bool)
  | .between => some TokenGenerationEngine.schedulerIteration
  | .answered _ result k => some (k result)
  | _ => none

def play (c : Recorded (.ofAnswers answer)) : Move → Option (Recorded (.ofAnswers answer))
  | .schedule reading =>
    if c.configuration.shared.engine.schedulerTask = some .running then
      (schedulerBody c.configuration.scheduler).map fun body =>
        let (outcome, h) := Coro.advance Chronicle.window reading body c.chronicle
        c.schedulerRan (.ofOutcome outcome) h
    else none
  | .reserve requestId prompt sampling deadline createdAt => some { c with
      configuration := { c.configuration with
        shared := c.configuration.shared.withEngine
          (c.configuration.shared.engine.reserve requestId prompt sampling deadline prompt.length createdAt).2 } }
  | .stream requestId =>
    match (c.configuration.shared.engine.openStream requestId).1 with
    | .error _ => none
    | .ok r => some { c with
        configuration := { c.configuration with
          shared := c.configuration.shared.withEngine (c.configuration.shared.engine.openStream requestId).2
          clients := c.configuration.clients ++ [⟨TokenGenerationEngine.streamIteration r requestId, .between⟩] } }
  | .answer =>
    if c.configuration.shared.engine.schedulerTask = some .running then
      match c.configuration.scheduler with
      | .waiting op k => (Configuration.schedulerAnswer answer c.configuration.shared op).map fun given => { c with
          configuration := { c.configuration with scheduler := .answered op given.1 k, shared := given.2 } }
      | _ => none
    else none
  | _ => none

theorem play_step {c c' : Recorded (.ofAnswers answer)} {move : Move} (played : play answer c move = some c') : Step c c' := by
  cases move with
  | schedule reading =>
    simp only [play] at played
    split at played
    · rename_i task
      obtain ⟨body, found, same⟩ := Option.map_eq_some_iff.mp played
      subst same
      generalize status : c.configuration.scheduler = scheduler at found
      cases scheduler with
      | between =>
        cases found
        exact .turn task status (Coro.advance_advances _ _ _ _)
      | answered op result k =>
        cases found
        exact .resume task status (Coro.advance_advances _ _ _ _)
      | waiting | isOver => cases found
    · cases played
  | reserve requestId prompt sampling deadline createdAt =>
    cases played
    exact .beside (.immediate (.reserve ..))
  | stream requestId =>
    simp only [play] at played
    split at played
    · cases played
    · rename_i r found
      cases played
      exact .beside (.stream found)
  | answer =>
    simp only [play] at played
    split at played
    · rename_i task
      split at played
      · rename_i op k waiting
        obtain ⟨given, answered, same⟩ := Option.map_eq_some_iff.mp played
        subst same
        exact .beside (.answer task waiting (Configuration.schedulerAnswer_answers answer answered))
      · cases played
    · cases played
  | consume | event | closeStream => cases played

def plays : Recorded (.ofAnswers answer) → List Move → Option (Recorded (.ofAnswers answer))
  | c, [] => some c
  | c, move :: rest => (play answer c move).bind fun c' => plays c' rest

theorem plays_runs {c c' : Recorded (.ofAnswers answer)} {script : List Move} (played : plays answer c script = some c') :
    Runs c c' := by
  induction script generalizing c with
  | nil =>
    cases played
    exact .refl
  | cons move rest ih =>
    obtain ⟨middle, first, later⟩ := Option.bind_eq_some_iff.mp played
    exact .head (play_step answer first) (ih later)

end Recorded

namespace Configuration.Sample

/-- A backend with all capabilities, of two prompts of which one starts with the other. -/
def answer : (method : BackendMethod Unit) → Except Raised method.Answer
  | .tokenize prompt => .ok (if prompt = "short" then ⟨[1], by decide⟩ else ⟨[1, 2, 3], by decide⟩)
  | .prefill _ | .restorePrefix .. => .ok ⟨5, "five", 0, 1⟩
  | .resumePrefix .. => .ok ⟨5, "five", 0, 3⟩
  | .decode _ => .ok ⟨5, "five", 1, 2⟩
  | .prefillBatch _ | .decodeBatch _ => .ok ⟨.empty, .empty⟩
  | .prefillChunk _ _ _ final => .ok (if final then some ⟨5, "five", 0, 1⟩ else none)
  | .snapshotPrefix _ | .releaseSequence _ | .shutdown => .ok ()
  | .eosTokenIds => .ok [0]

def sampling : SamplingParameters := .unstopped 1 Nat.one_pos

end Configuration.Sample

end ServingPlatform
