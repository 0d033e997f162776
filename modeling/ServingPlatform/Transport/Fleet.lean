import ServingPlatform.ControlPlane.Pipeline
import ServingPlatform.Transport.WorkerApp
import Mathlib.Logic.Relation

namespace ServingPlatform

/-- A path of the allowed transitions. -/
def RequestState.Leads : RequestState → RequestState → Prop := Relation.ReflTransGen fun s t => t ∈ s.allowed

/-- A merge of the payload takes the request along allowed transitions, and nowhere once it is over. -/
def RequestRecord.Lawful (r : RequestRecord) (payload : RequestPayload) : Prop :=
  ∀ merged, applyRequestDict r payload = .ok merged →
    r.status.Leads merged.status ∧ (r.terminal = true → merged.status = r.status)

namespace RequestRecord

/-- Transitions one after another; the first that is refused is the last that is tried. -/
def follow (at_ : Seconds) (r : RequestRecord) : List RequestState → RequestRecord
  | [] => r
  | target :: rest =>
    match r.transition target at_ with
    | .error _ => r
    | .ok r => r.follow at_ rest

/-- The `except` clause of `dispatch`. -/
def handBack (at_ : Seconds) (r : RequestRecord) : RequestRecord :=
  if r.terminal then r else (r.assign none).follow at_ [.queued]

/-- The `except` clause of `_execute`. -/
def giveUp (at_ : Seconds) (r : RequestRecord) : RequestRecord :=
  if r.terminal then r else r.follow at_ [.failed]

end RequestRecord

/-- The merges of the loop of `execute_batch`, which ends at an unknown request. -/
def Link.merged : List ExecutionPayload → Link → List (RequestRecord × RequestPayload)
  | [], _ => []
  | item :: rest, l =>
    match l.client.requests.get? item.requestId with
    | none => []
    | some i =>
      (l.objects i, item.request) ::
        match Link.applyTo i item.request l with
        | (.error _, _) => []
        | (.ok (), l) => merged rest l

/-- How far a submission gets before its request is handed to a worker. Something
may be raised after some of the first transitions; the admission controller or
the scheduler may refuse the request, or its deadline may have passed. -/
inductive Intake
  | raised (after : Nat)
  | notAdmitted
  | unplaced
  | tooLate
  | placed (workerId : String)

def Intake.states : Intake → List RequestState
  | raised after => [.validated, .admitted, .queued].take after
  | notAdmitted => [.validated, .rejected]
  | unplaced => [.validated, .admitted, .queued, .failed]
  | tooLate => [.validated, .admitted, .queued, .timedOut]
  | placed _ => [.validated, .admitted, .queued]

/-- Where the submission that holds the execution lock stands: in `dispatch`
before its request is handed over, or before the batch of its worker. -/
inductive PipelinePhase
  | idle
  | assigned (i : ObjectId) (workerId : String)
  | handedOver (i : ObjectId) (workerId : String)

/-- An HTTP request that the client has given up and the worker may still get. -/
inductive LateCall
  | load (model : ModelDefinition)
  | enqueue (payload : RequestPayload)
  | execute

/-- A pipeline with the request objects of its process, and the workers that its clients call. -/
structure Fleet where
  objects : Objects
  created : ObjectId
  clients : String → HttpWorkerClient
  apps : String → WorkerApp
  phase : PipelinePhase
  late : List (String × LateCall)

/-- What a submission does next, or a late call. -/
inductive FleetAction
  | submit (s : Submission) (requestId modelId : String) (now : Seconds) (intake : Intake)
  | load (delivery : Delivery) (model : ModelDefinition) (answers : LoadAnswers) (at_ : Seconds)
  | refuse (expired : Bool) (at_ : Seconds)
  | enqueue (delivery : Delivery) (now at_ : Seconds)
  | desert (dispatched : Bool) (at_ : Seconds)
  | execute (delivery : Delivery) (inputs : ManagedWorker.BatchInputs) (at_ : Seconds)
  | arrive (n : Nat) (now : Seconds) (answers : LoadAnswers) (inputs : ManagedWorker.BatchInputs)

/-- A late call takes effect, and nobody hears of it. -/
def LateCall.reach (now : Seconds) (answers : LoadAnswers) (inputs : ManagedWorker.BatchInputs) (app : WorkerApp) :
    LateCall → WorkerApp
  | load model => (WorkerApp.loadModel model answers app).2
  | enqueue payload => (WorkerApp.enqueueRequest payload now app).2
  | execute => (WorkerApp.executeBatch inputs app).2

namespace Fleet

variable (f : Fleet)

def link (workerId : String) : Link := ⟨f.clients workerId, f.objects, f.apps workerId⟩

/-- A client has called its worker. -/
def setLink (workerId : String) (l : Link) : Fleet :=
  { f with
    objects := l.objects
    clients := Function.update f.clients workerId l.client
    apps := Function.update f.apps workerId l.app }

/-- A request that is lost may still arrive. -/
def lose (delivery : Delivery) (workerId : String) (call : LateCall) : Fleet :=
  if delivery = .requestLost then { f with late := f.late ++ [(workerId, call)] } else f

/-- The submission ends with its request as it is changed now. -/
def leave (i : ObjectId) (change : RequestRecord → RequestRecord) : Fleet :=
  { f with objects := f.objects.put i (change (f.objects i)), phase := .idle }

/-- `dispatch` raises, and with it the submission. -/
def abandon (i : ObjectId) (at_ : Seconds) : Fleet := f.leave i fun r => (r.handBack at_).giveUp at_

/-- `submit` up to the hand-over to a worker, with a new request. -/
def takeIn (r : RequestRecord) (intake : Intake) (now : Seconds) : Fleet :=
  let r := r.follow now intake.states
  match intake with
  | .placed workerId => { f with
      objects := f.objects.put f.created ((r.assign (some workerId)).countAttempt.follow now [.assigned])
      created := f.created + 1
      phase := .assigned f.created workerId }
  | _ => { f with objects := f.objects.put f.created r, created := f.created + 1 }

def act : FleetAction → Option Fleet
  | .submit s requestId modelId now intake =>
    match f.phase with
    | .idle =>
      match s.request requestId modelId now with
      | .error _ => some f
      | .ok r =>
        -- `create` of the request store refuses an identifier that it has
        if (List.range f.created).any fun k => (f.objects k).requestId = requestId then some f
        else some (f.takeIn r intake now)
    | _ => none
  | .load delivery model answers at_ =>
    match f.phase with
    | .assigned i workerId =>
      let (result, l) := Link.loadModel delivery model answers (f.link workerId)
      let f := (f.setLink workerId l).lose delivery workerId (.load model)
      match result with
      | .ok () => some f
      | .error _ => some (f.abandon i at_)
    | _ => none
  | .refuse expired at_ =>
    match f.phase with
    | .assigned i _ => if expired then some (f.leave i fun r => r.follow at_ [.timedOut]) else some (f.abandon i at_)
    | _ => none
  | .enqueue delivery now at_ =>
    match f.phase with
    | .assigned i workerId =>
      let (result, l) := Link.enqueueRequest delivery i now (f.link workerId)
      let sent := requestToDict (f.objects i)
      let f := (f.setLink workerId l).lose delivery workerId (.enqueue sent)
      match result with
      | .ok () => some { f with phase := .handedOver i workerId }
      | .error _ => some (f.abandon i at_)
    | _ => none
  | .desert dispatched at_ =>
    match f.phase with
    | .handedOver i _ => if dispatched then some (f.leave i (·.giveUp at_)) else some (f.abandon i at_)
    | _ => none
  | .execute delivery inputs at_ =>
    match f.phase with
    | .handedOver i workerId =>
      let requestId := (f.objects i).requestId
      let (result, l) := Link.executeBatch delivery inputs (f.link workerId)
      let f := (f.setLink workerId l).lose delivery workerId .execute
      match result with
      | .error _ => some (f.leave i (·.giveUp at_))
      | .ok executions =>
        if executions.any fun execution => execution.requestId = requestId then some { f with phase := .idle }
        else some (f.leave i (·.giveUp at_))
    | _ => none
  | .arrive n now answers inputs =>
    match f.late[n]? with
    | none => none
    | some (workerId, call) => some { f with
        late := f.late.eraseIdx n
        apps := Function.update f.apps workerId (call.reach now answers inputs (f.apps workerId)) }

/-- A pipeline that has not served anything yet. -/
structure Fresh (f : Fleet) : Prop where
  created : f.created = 0
  clients : ∀ workerId, (f.clients workerId).requests = .empty
  apps : ∀ workerId, (f.apps workerId).created = 0 ∧ (f.apps workerId).requests = .empty ∧
    (f.apps workerId).worker.queue = [] ∧ (f.apps workerId).worker.activeRequests = .empty
  phase : f.phase = .idle
  late : f.late = []

/-- The calls of `apply_request_dict` that a step makes: each record as it is before its merge, with the payload. -/
def merges : FleetAction → List (RequestRecord × RequestPayload)
  | .enqueue delivery now _ =>
    match f.phase with
    | .assigned i workerId =>
      match Link.request delivery "POST" "/internal/requests" (WorkerApp.enqueueRequest (requestToDict (f.objects i)) now)
        (f.link workerId) with
      | (.ok payload, l) => [(l.objects i, payload)]
      | (.error _, _) => []
    | _ => []
  | .execute delivery inputs _ =>
    match f.phase with
    | .handedOver _ workerId =>
      match Link.request delivery "POST" "/internal/batches/execute" (WorkerApp.executeBatch inputs) (f.link workerId) with
      | (.ok items, l) => Link.merged items l
      | (.error _, _) => []
    | _ => []
  | _ => []

/-- A batch that is answered reports no request whose submission has ended
otherwise, up to the first request that the client does not know. -/
def Awaited : FleetAction → Prop
  | .execute .answered inputs _ =>
    match f.phase with
    | .handedOver _ workerId =>
      ∀ executions, (ManagedWorker.executeBatch inputs (f.apps workerId).process).1 = .ok executions →
        ∀ requestId ∈ (executions.map (·.requestId)).takeWhile (f.clients workerId).requests.contains,
        ∀ k, (f.clients workerId).requests.get? requestId = some k →
          (f.objects k).terminal = false ∨ (f.objects k).status = .completed
    | _ => True
  | _ => True

/-- The merges of the steps, as far as they can be taken. -/
def mergesOf (f : Fleet) : List FleetAction → List (RequestRecord × RequestPayload)
  | [] => []
  | action :: rest => f.merges action ++
    match f.act action with
    | none => []
    | some f => f.mergesOf rest

/-- Each batch of the steps is awaited. -/
def AwaitedIn (f : Fleet) : List FleetAction → Prop
  | [] => True
  | action :: rest => f.Awaited action ∧
    match f.act action with
    | none => True
    | some f => f.AwaitedIn rest

end Fleet

end ServingPlatform
