import ServingPlatform.ControlPlane.Worker

namespace ServingPlatform

/-- What a runtime returns for one prompt. -/
structure RuntimeResult where
  text : String
  inputTokens : Nat
  outputTokens : Nat
  deriving DecidableEq, Repr

structure WorkerExecutionResult where
  requestId : String
  result : RuntimeResult
  deriving DecidableEq, Repr

namespace ManagedWorker

/-- Requests at the front of the queue that can no longer run are dropped. -/
def skipExpired (now : Seconds) : List ObjectId → Objects → Except Raised Unit × List ObjectId × Objects
  | [], objects => (.ok (), [], objects)
  | i :: rest, objects =>
    if (objects i).terminal then skipExpired now rest objects
    else if (objects i).deadline.expired now then
      match (objects i).transition .timedOut now with
      | .ok r => skipExpired now rest (objects.put i r)
      | .error raised => (.error raised, rest, objects)
    else (.ok (), i :: rest, objects)

def compatible (first candidate : RequestRecord) : Bool :=
  candidate.modelId = first.modelId && candidate.maxNewTokens = first.maxNewTokens &&
    candidate.temperature = first.temperature && candidate.stream = first.stream

/-- The batch around a first request, and the queue that remains. Requests that
do not fit keep their place; a raised exception loses those it was looking at. -/
def gather (w : ManagedWorker) (first : RequestRecord) (now : Seconds) (selected : List ObjectId) (tokens : Nat) :
    List ObjectId → Objects → Except (Raised × List ObjectId) (List ObjectId × List ObjectId) × Objects
  | [], objects => (.ok (selected, []), objects)
  | i :: rest, objects =>
    if w.maxBatchSize ≤ selected.length then (.ok (selected, i :: rest), objects)
    else if (objects i).terminal then w.gather first now selected tokens rest objects
    else if (objects i).deadline.expired now then
      match (objects i).transition .timedOut now with
      | .ok r => w.gather first now selected tokens rest (objects.put i r)
      | .error raised => (.error (raised, rest), objects)
    else if compatible first (objects i) ∧ tokens + (objects i).estimatedTokens ≤ w.maxBatchTokens then
      w.gather first now (selected ++ [i]) (tokens + (objects i).estimatedTokens) rest objects
    else
      match w.gather first now selected tokens rest objects with
      | (.ok (chosen, queue), objects) => (.ok (chosen, i :: queue), objects)
      | (.error raised, objects) => (.error raised, objects)

def countActive (w : ManagedWorker) (modelId : String) (change : Int) : ManagedWorker :=
  { w with
    activeRequestsByModel :=
      w.activeRequestsByModel.insert modelId ((w.activeRequestsByModel.get? modelId).getD 0 + change) }

def start (now : Seconds) (i : ObjectId) : Attempt Raised WorkerProcess Unit := fun p =>
  match (p.objects i).transition .running now with
  | .error raised => (.error raised, p)
  | .ok r =>
    let counted := p.worker.countActive r.modelId 1
    (.ok (), {
      worker := { counted with activeRequests := counted.activeRequests.insert r.requestId i }
      objects := p.objects.put i r })

def startAll (now : Seconds) : List ObjectId → Attempt Raised WorkerProcess Unit
  | [] => pure ()
  | i :: rest => do
    start now i
    startAll now rest

/-- The locked first part of `execute_batch`: one compatible batch starts to run. -/
def beginBatch (now : Seconds) : Attempt Raised WorkerProcess (List ObjectId) := fun p =>
  match skipExpired now p.worker.queue p.objects with
  | (.error raised, queue, objects) => (.error raised, ⟨{ p.worker with queue := queue }, objects⟩)
  | (.ok (), [], objects) => (.ok [], ⟨{ p.worker with queue := [] }, objects⟩)
  | (.ok (), i :: rest, objects) =>
    match p.worker.gather (objects i) now [i] (objects i).estimatedTokens rest objects with
    | (.error (raised, queue), objects) => (.error raised, ⟨{ p.worker with queue := queue }, objects⟩)
    | (.ok (selected, queue), objects) =>
      (do
        startAll now selected
        Attempt.update fun p => { p with
          worker := { p.worker with
            modelLastUsed := p.worker.modelLastUsed.insert (p.objects i).modelId now
            activeBatchCount := p.worker.activeBatchCount + 1 } }
        pure selected) ⟨{ p.worker with queue := queue }, objects⟩

/-- The requests of a batch that are not yet terminal take a transition. -/
def closeAll (target : RequestState) (at_ : ObjectId → Seconds) : List ObjectId → Attempt Raised WorkerProcess Unit
  | [] => pure ()
  | i :: rest => fun p =>
    if (p.objects i).terminal then closeAll target at_ rest p
    else
      match (p.objects i).transition target (at_ i) with
      | .error raised => (.error raised, p)
      | .ok r => closeAll target at_ rest { p with objects := p.objects.put i r }

/-- The `finally` clause of `execute_batch`. -/
def retire (selected : List ObjectId) (p : WorkerProcess) : WorkerProcess :=
  { p with
    worker := selected.foldl (fun w i =>
      let counted := w.countActive (p.objects i).modelId (-1)
      { counted with activeRequests := counted.activeRequests.erase (p.objects i).requestId })
      { p.worker with activeBatchCount := p.worker.activeBatchCount - 1 } }

/-- What the runtime is asked for, and how an answer of the wrong length is refused. -/
def checkResults (stream : Bool) (size : Nat) (generated : Except Raised (List RuntimeResult)) :
    Except Raised (List RuntimeResult) :=
  if stream then .error (runtimeError "streaming requests require the streaming worker path")
  else
    match generated with
    | .error raised => .error raised
    | .ok results =>
      if results.length ≠ size then .error (runtimeError "runtime returned an unexpected result count")
      else .ok results

/-- The results of the requests that completed. -/
def executions (objects : Objects) (selected : List ObjectId) (results : List RuntimeResult) :
    List WorkerExecutionResult :=
  (selected.zip results).filterMap fun (i, result) =>
    if (objects i).status = .completed then some ⟨(objects i).requestId, result⟩ else none

/-- The part of `execute_batch` from the runtime's answer on. -/
def finishBatch (selected : List ObjectId) (generated : Except Raised (List RuntimeResult)) (failedAt : Seconds)
    (completedAt : ObjectId → Seconds) : Attempt Raised WorkerProcess (List WorkerExecutionResult) := fun p =>
  let stream := selected.head?.elim false fun i => (p.objects i).stream
  match checkResults stream selected.length generated with
  | .error raised =>
    (Attempt.ensure (do
      closeAll .failed (fun _ => failedAt) selected
      Attempt.raise raised) (retire selected)) p
  | .ok results =>
    (do
      closeAll .completed completedAt selected
      Attempt.read fun p => executions p.objects selected results) (retire selected p)

/-- The readings and the runtime's answer of one `execute_batch`. -/
structure BatchInputs where
  now : Seconds
  generated : Except Raised (List RuntimeResult)
  failedAt : Seconds
  completedAt : ObjectId → Seconds

def executeBatch (inputs : BatchInputs) : Attempt Raised WorkerProcess (List WorkerExecutionResult) := do
  let selected ← beginBatch inputs.now
  if selected = [] then pure []
  else finishBatch selected inputs.generated inputs.failedAt inputs.completedAt

end ManagedWorker

end ServingPlatform
