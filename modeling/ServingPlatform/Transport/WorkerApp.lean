import ServingPlatform.ControlPlane.Batches
import ServingPlatform.ControlPlane.ModelLoads
import ServingPlatform.Transport.Payloads

namespace ServingPlatform

/-- The HTTP app of a worker, in a process of its own. It keeps the records that
it has made of accepted payloads, the latest under each request id; the objects
below `created` are in use. -/
structure WorkerApp where
  worker : ManagedWorker
  objects : Objects
  created : ObjectId
  requests : Dict String ObjectId
  catalog : Dict String ModelDefinition

/-- The answer to `DELETE /internal/requests/...`. -/
structure CancelReply where
  cancelled : Bool
  request : Option RequestPayload

structure ExecutionPayload where
  requestId : String
  result : RuntimeResult
  request : RequestPayload

namespace WorkerApp

def process (app : WorkerApp) : WorkerProcess := ⟨app.worker, app.objects⟩

def setProcess (process : WorkerProcess) (app : WorkerApp) : WorkerApp :=
  { app with worker := process.worker, objects := process.objects }

def onProcess {α : Type} (m : Attempt Raised WorkerProcess α) : Attempt Raised WorkerApp α :=
  Attempt.zoom process setProcess m

def httpException (detail : String) : Raised := ⟨.other "HTTPException" false, detail⟩

/-- `POST /internal/models/load`: a model is loaded as it is registered with the app.
Nothing else happens in the worker during an endpoint. -/
def loadModel (supplied : ModelDefinition) (answers : LoadAnswers) : Attempt Raised WorkerApp Unit := fun app =>
  match app.catalog.get? supplied.modelId with
  | none => (.error (httpException "model is not registered"), app)
  | some expected =>
    if supplied ≠ expected then (.error (httpException "model is not registered"), app)
    else
      let (result, worker) := app.worker.loadModel app.worker id app.objects expected answers
      (result, { app with worker := worker })

/-- `POST /internal/requests`: the record made of the payload is kept if the worker accepts it. -/
def enqueueRequest (payload : RequestPayload) (now : Seconds) : Attempt Raised WorkerApp RequestPayload := fun app =>
  match requestFromDict payload with
  | .error raised => (.error raised, app)
  | .ok r =>
    match ManagedWorker.enqueueRequest app.created now ⟨app.worker, app.objects.put app.created r⟩ with
    | (.error raised, _) => (.error raised, app)
    | (.ok (), process) =>
      (.ok (requestToDict (process.objects app.created)), { app.setProcess process with
        created := app.created + 1
        requests := app.requests.insert r.requestId app.created })

/-- `DELETE /internal/requests/{request_id}`; the path parameter matches no slash, and something. -/
def cancelRequest (requestId : String) (now : Seconds) : Attempt Raised WorkerApp CancelReply :=
  if requestId = "" ∨ '/' ∈ requestId.toList then Attempt.raise (httpException "Not Found")
  else do
    let cancelled ← onProcess (ManagedWorker.cancelRequest requestId now)
    Attempt.read fun app =>
      ⟨cancelled, (app.requests.get? requestId).map fun j => requestToDict (app.objects j)⟩

/-- The executions, each with the record that the app keeps under its request id. -/
def report (app : WorkerApp) : List WorkerExecutionResult → Except Raised (List ExecutionPayload)
  | [] => .ok []
  | execution :: rest =>
    match app.requests.get? execution.requestId, app.report rest with
    | none, _ => .error (keyError execution.requestId)
    | some _, .error raised => .error raised
    | some j, .ok items => .ok (⟨execution.requestId, execution.result, requestToDict (app.objects j)⟩ :: items)

/-- `POST /internal/batches/execute`. -/
def executeBatch (inputs : ManagedWorker.BatchInputs) : Attempt Raised WorkerApp (List ExecutionPayload) := do
  let executions ← onProcess (ManagedWorker.executeBatch inputs)
  fun app => (app.report executions, app)

end WorkerApp

/-- What becomes of an HTTP exchange: a lost reply comes after the effect of its request. -/
inductive Delivery
  | answered
  | requestLost
  | replyLost
  deriving DecidableEq, Repr

/-- `HttpWorkerClient`, with the requests that it has handed over. -/
structure HttpWorkerClient where
  workerId : String
  requests : Dict String ObjectId

/-- A client with the request objects of its process, and the app that it calls. -/
structure Link where
  client : HttpWorkerClient
  objects : Objects
  app : WorkerApp

/-- `urllib.parse.quote` with no safe characters. -/
def quote (text : String) : String :=
  String.join (text.toUTF8.toList.map fun byte =>
    let c := Char.ofNat byte.toNat
    if c.isAlphanum || c = '_' || c = '.' || c = '-' || c = '~' then c.toString
    else "%" ++ String.ofList [hexDigit (byte.toNat / 16), hexDigit (byte.toNat % 16)])
where
  hexDigit (n : Nat) : Char := if n < 10 then Char.ofNat (48 + n) else Char.ofNat (55 + n)

namespace Link

def transportError (workerId method path : String) : Raised :=
  ⟨.workerTransportError, s!"worker {workerId} transport request failed: {method} {path}"⟩

/-- `HttpWorkerClient._request`: an error status of the app is an error of the transport. -/
def request {α : Type} (delivery : Delivery) (method path : String) (endpoint : Attempt Raised WorkerApp α) :
    Attempt Raised Link α := fun l =>
  let failed := transportError l.client.workerId method path
  match delivery, endpoint l.app with
  | .requestLost, _ => (.error failed, l)
  | .replyLost, (_, app) => (.error failed, { l with app := app })
  | .answered, (.error _, app) => (.error failed, { l with app := app })
  | .answered, (.ok answer, app) => (.ok answer, { l with app := app })

/-- `apply_request_dict` to an object of the client's process. -/
def applyTo (i : ObjectId) (payload : RequestPayload) : Attempt Raised Link Unit := fun l =>
  match applyRequestDict (l.objects i) payload with
  | .error raised => (.error raised, l)
  | .ok r => (.ok (), { l with objects := l.objects.put i r })

def loadModel (delivery : Delivery) (model : ModelDefinition) (answers : LoadAnswers) : Attempt Raised Link Unit :=
  request delivery "POST" "/internal/models/load" (WorkerApp.loadModel model answers)

def enqueueRequest (delivery : Delivery) (i : ObjectId) (now : Seconds) : Attempt Raised Link Unit := do
  let r ← Attempt.read fun l => l.objects i
  let payload ← request delivery "POST" "/internal/requests" (WorkerApp.enqueueRequest (requestToDict r) now)
  applyTo i payload
  Attempt.update fun l => { l with client := { l.client with requests := l.client.requests.insert r.requestId i } }

def cancelRequest (delivery : Delivery) (requestId : String) (now : Seconds) : Attempt Raised Link Bool := do
  let reply ← request delivery "DELETE" s!"/internal/requests/{quote requestId}" (WorkerApp.cancelRequest requestId now)
  let known ← Attempt.read fun l => l.client.requests.get? requestId
  match reply.request, known with
  | some payload, some i => do
    applyTo i payload
    pure reply.cancelled
  | _, _ => pure reply.cancelled

/-- The loop of `execute_batch` over the executions of the answer. -/
def mergeAll : List ExecutionPayload → Attempt Raised Link (List WorkerExecutionResult)
  | [] => pure []
  | item :: rest => do
    let known ← Attempt.read fun l => l.client.requests.get? item.requestId
    match known with
    | none => Attempt.raise ⟨.workerTransportError, "worker returned an unknown request"⟩
    | some i => do
      applyTo i item.request
      let executions ← mergeAll rest
      pure (⟨item.requestId, item.result⟩ :: executions)

def executeBatch (delivery : Delivery) (inputs : ManagedWorker.BatchInputs) :
    Attempt Raised Link (List WorkerExecutionResult) := do
  let items ← request delivery "POST" "/internal/batches/execute" (WorkerApp.executeBatch inputs)
  mergeAll items

end Link

end ServingPlatform
