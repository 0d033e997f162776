import ServingPlatform.TokenEngine.Scripts

namespace ServingPlatform

variable {S : Type}

/-- A backend whose calls are functions of its state. -/
structure BackendMachine (S : Type) where
  State : Type
  start : State
  held : State → String → Bool
  respond : (method : BackendMethod S) → State → Except Raised method.Answer × State
  startEmpty : ∀ id, held start id = false
  created : ∀ (method : BackendMethod S) (b : State) (id : String), held (respond method b).2 id = true →
    held b id = true ∨ id ∈ method.creates
  released : ∀ (id : String) (b : State), (respond (.releaseSequence id) b).1 = .ok () →
    held (respond (.releaseSequence id) b).2 id = false

/-- A machine as a backend. -/
def BackendMachine.backend (m : BackendMachine S) : InferenceBackend S where
  State := m.State
  start := m.start
  held b id := m.held b id = true
  perform method before result after := m.respond method before = (result, after)
  startEmpty id heldId := by
    rw [m.startEmpty] at heldId
    cases heldId
  created run id later := by
    refine m.created _ _ id ?_
    rw [run]
    exact later
  released run := by
    have gone := m.released _ _ (congrArg Prod.fst run)
    rw [run] at gone
    exact Bool.not_eq_true _ ▸ gone

namespace BackendMachine

open ServingPlatform.Configuration

variable (m : BackendMachine S)

/-- The answer the scheduler's call gets from the machine. -/
def schedulerAnswer (t : Shared m.backend) : (op : EngineOp S) → Option (Except Raised op.Answer × Shared m.backend)
  | .call (.direct method) sequences =>
    if t.engine.executorClosed then none
    else
      let answered := m.respond method t.backendState
      some (answered.1, t.record (.direct method) sequences answered.1 answered.2)
  | .wakeWait => if t.engine.wake then some (.ok (), t) else none
  | _ => none

theorem schedulerAnswer_answers {t t' : Shared m.backend} {op : EngineOp S} {result : Except Raised op.Answer}
    (given : m.schedulerAnswer t op = some (result, t')) : Answers m.backend op t result t' := by
  cases op with
  | call command sequences =>
    cases command with
    | direct method =>
      simp only [schedulerAnswer] at given
      split at given
      · cases given
      · rename_i executor
        cases given
        exact .call (eq_false_of_ne_true executor) rfl
    | prefillFallback | decodeFallback => cases given
  | wakeWait =>
    simp only [schedulerAnswer] at given
    split at given
    · rename_i wake
      cases given
      exact .woken wake
    · cases given
  | nextEvent | yieldEvent | doneWait | schedulerDone | backendShutdown => cases given

/-- The moves of the scheduler and of the requests that come in. -/
def drive (c : Configuration m.backend) : Move → Option (Configuration m.backend)
  | .reserve requestId prompt sampling deadline createdAt => some { c with
      shared := c.shared.withEngine (c.shared.engine.reserve requestId prompt sampling deadline prompt.length createdAt).2 }
  | .stream requestId =>
    match (c.shared.engine.openStream requestId).1 with
    | .error _ => none
    | .ok r => some { c with
        shared := c.shared.withEngine (c.shared.engine.openStream requestId).2
        clients := c.clients ++ [⟨TokenGenerationEngine.streamIteration r requestId, .between⟩] }
  | .schedule reading =>
    if c.shared.engine.schedulerTask = some .running then
      (runTask TokenGenerationEngine.schedulerIteration reading c.shared c.scheduler).map c.scheduled
    else none
  | .answer =>
    if c.shared.engine.schedulerTask = some .running then
      (answerTask (m.schedulerAnswer c.shared) c.scheduler).map c.scheduled
    else none
  | _ => none

theorem drive_step {c c' : Configuration m.backend} {move : Move} (driven : m.drive c move = some c') : Step c c' := by
  cases move with
  | reserve requestId prompt sampling deadline createdAt =>
    cases driven
    exact .immediate (.reserve ..)
  | stream requestId =>
    simp only [drive] at driven
    split at driven
    · cases driven
    · rename_i r found
      cases driven
      exact .stream found
  | schedule reading =>
    simp only [drive] at driven
    split at driven
    · rename_i task
      obtain ⟨outcome, ran, same⟩ := Option.map_eq_some_iff.mp driven
      subst same
      exact .scheduler task (runTask_step ran)
    · cases driven
  | answer =>
    simp only [drive] at driven
    split at driven
    · rename_i task
      obtain ⟨outcome, ran, same⟩ := Option.map_eq_some_iff.mp driven
      subst same
      exact .scheduler task (answerTask_step (fun _ _ _ => m.schedulerAnswer_answers) ran)
    · cases driven
  | consume | event | closeStream => cases driven

def drives : Configuration m.backend → List Move → Option (Configuration m.backend)
  | c, [] => some c
  | c, move :: rest => (m.drive c move).bind fun c' => drives c' rest

theorem drives_runs {c c' : Configuration m.backend} {script : List Move} (driven : m.drives c script = some c') :
    Relation.ReflTransGen Step c c' := by
  induction script generalizing c with
  | nil =>
    cases driven
    exact .refl
  | cons move rest ih =>
    obtain ⟨middle, first, later⟩ := Option.bind_eq_some_iff.mp driven
    exact .head (m.drive_step first) (ih later)

/-- What is seen after a script is seen in some configuration. -/
theorem script_reaches {c : Configuration m.backend} {script : List Move} {seen : Configuration m.backend → Bool}
    (shown : (m.drives c script).any seen = true) : ∃ c', Relation.ReflTransGen Step c c' ∧ seen c' = true := by
  cases driven : m.drives c script with
  | none =>
    rw [driven] at shown
    cases shown
  | some c' =>
    rw [driven] at shown
    exact ⟨c', m.drives_runs driven, shown⟩

end BackendMachine

end ServingPlatform
