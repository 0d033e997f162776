import ServingPlatform.RequestScheduler.Requests

namespace ServingPlatform

/-- The settings that the scheduler reads; times are in the clock's unit. -/
structure SchedulerSettings where
  schedulerPolicy : String
  maxBatchSize : Int
  maxWait : Seconds
  maxTotalBatchTokens : Int
  requestTimeout : Seconds

/-- The local variables of `collect_batch`. Without a `deferred` deque it
puts what it cannot use back into the queue. -/
structure Collecting where
  first : RequestRef
  requests : List RequestRef
  total : Int
  queuedItems : Nat
  started : Seconds
  deadline : Seconds
  deferred : Option (List RequestRef)
  toScan : Nat

/-- Who called: the loop of `run_scheduler`, with its own variables, or somebody else. -/
inductive Caller
  | direct
  | scheduler (fromQueue : Bool) (deferred : List RequestRef)

/-- Where `collect_batch` returns a batch, or raises. -/
def Caller.ofCollection (fromQueue : Option Bool) (c : Collecting) : Caller :=
  match fromQueue with
  | none => .direct
  | some fromQueue => .scheduler fromQueue (c.deferred.getD [])

/-- Where a task of the scheduler stands. It is suspended at its awaits
(`gettingFirst`, `waiting`, `generatingBatch` and `generatingOne`) and when
it is over; between them it runs alone. -/
inductive Place
  | loopHead (deferred : List RequestRef)
  | gettingFirst
  | scanning (fromQueue : Option Bool) (c : Collecting)
  | gathering (fromQueue : Option Bool) (c : Collecting)
  | waiting (fromQueue : Option Bool) (c : Collecting)
  | selecting (caller : Caller) (queuedItems : Nat) (now : Seconds) (rest active : List RequestRef)
  | generatingBatch (caller : Caller) (queuedItems : Nat) (active : List RequestRef)
  | finishing (caller : Caller) (queuedItems : Nat) (completed : Seconds) (active rest : List RequestRef)
      (results : List GenerationResult)
  | failing (caller : Caller) (queuedItems : Nat) (message : String) (rest : List RequestRef)
  | abandoning (caller : Caller) (queuedItems : Nat) (rest : List RequestRef)
  | starting (caller : Caller) (request : RequestRef)
  | generatingOne (caller : Caller) (request : RequestRef)
  | returning (caller : Caller) (queuedItems : Nat) (result : Except Raised Unit)
  | ended (result : Except Raised Unit)

def Place.suspended : Place → Bool
  | .gettingFirst | .waiting .. | .generatingBatch .. | .generatingOne .. | .ended _ => true
  | _ => false

/-- What lets a task go on. -/
inductive Resumption
  | proceed
  | timeout
  | results (results : List GenerationResult)
  | result (result : GenerationResult)
  | raises (message : String)

namespace Scheduling

variable (settings : SchedulerSettings) (s : Scheduling)

/-- `candidate.estimated_tokens + candidate.max_new_tokens` -/
def cost (r : RequestRef) : Int := (s.requests r).estimatedTokens + (s.requests r).maxNewTokens

/-- `_compatible` -/
def compatible (candidate first : RequestRef) : Bool :=
  (s.requests candidate).maxNewTokens = (s.requests first).maxNewTokens &&
    (s.requests candidate).temperature = (s.requests first).temperature

/-- `consider` of `collect_batch`; it says whether the collection goes on. -/
def consider (c : Collecting) (candidate : RequestRef) (fromQueue : Bool) :
    Except Raised (Bool × Collecting) × Scheduling :=
  let (expired, s) := s.timedOut candidate settings.requestTimeout
  if expired then
    let (done, s) := (s.finishTimeout candidate).itemDone fromQueue
    (done.map fun _ => (true, c), s)
  else if s.status candidate = .cancelled then
    let (done, s) := (s.record candidate).itemDone fromQueue
    (done.map fun _ => (true, c), s)
  else if s.compatible candidate c.first ∧ c.total + s.cost candidate ≤ settings.maxTotalBatchTokens then
    (.ok (true, { c with
      requests := c.requests ++ [candidate]
      total := c.total + s.cost candidate
      queuedItems := c.queuedItems + if fromQueue then 1 else 0 }), s)
  else
    match c.deferred with
    | none =>
      match s.putNowait (some candidate) with
      | (.error e, s) => (.error e, s)
      | (.ok (), s) =>
        let (done, s) := s.itemDone fromQueue
        (done.map fun _ => (false, c), s)
    | some deferred =>
      let (done, s) := s.itemDone fromQueue
      (done.map fun _ => (true, { c with deferred := some (deferred ++ [candidate]) }), s)

/-- `collect_batch` begins. -/
def beginCollection (first : RequestRef) (deferred : Option (List RequestRef)) : Collecting × Scheduling :=
  let (now, s) := s.monotonic
  ({ first
     requests := [first]
     total := s.cost first
     queuedItems := 0
     started := now
     deadline := now + settings.maxWait
     deferred
     toScan := (deferred.getD []).length }, s)

/-- The waits of a batch are written into its requests. -/
def setCollection (collected : Int) : List RequestRef → Scheduling → Scheduling
  | [], s => s
  | r :: rest, s => setCollection collected rest (s.set r { s.requests r with batchCollectionMs := collected })

def setBatchSize (size : Nat) : List RequestRef → Scheduling → Scheduling
  | [], s => s
  | r :: rest, s => setBatchSize size rest (s.set r { s.requests r with batchSize := size })

/-- `collect_batch` is done; the scheduler's loop goes on to `process_batch`. -/
def endCollection (fromQueue : Option Bool) (c : Collecting) : Place × Scheduling :=
  let (now, s) := s.monotonic
  let s := s.setCollection (now - c.started) c.requests
  match fromQueue with
  | none => (.ended (.ok ()), s)
  | some _ =>
    let (now, s) := s.monotonic
    (.selecting (Caller.ofCollection fromQueue c) c.queuedItems now c.requests [], s)

/-- `queue.task_done()` for each additional item of a batch. -/
def releaseItems (s : Scheduling) : Nat → Except Raised Unit × Scheduling
  | 0 => (.ok (), s)
  | n + 1 =>
    match s.taskDone with
    | (.error e, s) => (.error e, s)
    | (.ok (), s) => s.releaseItems n

/-- The `finally` clauses of `run_scheduler`; an exception in one of them
replaces an earlier one. -/
def leave (queuedItems : Nat) (fromQueue : Bool) (result : Except Raised Unit) : Except Raised Unit × Scheduling :=
  let (inner, s) := s.releaseItems queuedItems
  let (outer, s) := s.itemDone fromQueue
  (match outer, inner with
    | .error e, _ => .error e
    | .ok (), .error e => .error e
    | .ok (), .ok () => result, s)

end Scheduling

open Scheduling

/-- What a request becomes that has its result. -/
def Scheduling.deliver (settings : SchedulerSettings) (s : Scheduling) (r : RequestRef) (result : GenerationResult)
    (completed : Seconds) : Scheduling :=
  let cancelled := s.status r = .cancelled
  let item := s.requests r
  let s := s.set r ({ item with completedAt := if item.completedAt = 0 then completed else item.completedAt }.withResult
    result)
  if cancelled then s.set r { s.requests r with status := .cancelled }
  else
    let (expired, s) := s.timedOut r settings.requestTimeout
    s.set r { s.requests r with status := if expired then .timeout else .completed }

/-- A model call failed. -/
def Scheduling.fail (s : Scheduling) (r : RequestRef) (message : String) : Scheduling :=
  let (now, s) := s.monotonic
  s.set r { s.requests r with status := .failed, errorMessage := message, completedAt := now }

/-- `metrics.record(request)` and `request.finish(request.status, request.error_message)` -/
def Scheduling.recordAndFinish (s : Scheduling) (r : RequestRef) : Scheduling :=
  let s := s.record r
  s.finish r (s.status r) (s.requests r).errorMessage

/-- One step of a task: to its next await, or through one round of a loop. -/
def Place.advance (settings : SchedulerSettings) (s : Scheduling) : Place → Resumption → Option (Place × Scheduling)
  | .loopHead [], .proceed => some (.gettingFirst, s)
  | .loopHead (first :: deferred), .proceed =>
    if s.accepting = false then
      some (.loopHead deferred,
        (s.finish first .rejected "server is shutting down").measure (·.rejected "service_shutting_down"))
    else if settings.schedulerPolicy = "dynamic_batch" then
      let (c, s) := s.beginCollection settings first (some deferred)
      some (.scanning (some false) c, s)
    else some (.starting (.scheduler false deferred) first, s)
  | .gettingFirst, .proceed =>
    match s.get? with
    | none => none
    | some (none, s) => let (done, s) := s.taskDone; some (.ended done, s)
    | some (some first, s) =>
      if settings.schedulerPolicy = "dynamic_batch" then
        let (c, s) := s.beginCollection settings first (some [])
        some (.scanning (some true) c, s)
      else some (.starting (.scheduler true []) first, s)
  | .scanning fromQueue c, .proceed =>
    if c.requests.length < settings.maxBatchSize ∧ c.toScan ≠ 0 then
      match c.deferred with
      | some (candidate :: deferred) =>
        match s.consider settings { c with deferred := some deferred, toScan := c.toScan - 1 } candidate false with
        | (.error e, s) => some (.returning (Caller.ofCollection fromQueue c) 0 (.error e), s)
        | (.ok (true, c), s) => some (.scanning fromQueue c, s)
        | (.ok (false, c), s) => some (.gathering fromQueue c, s)
      | _ => some (.returning (Caller.ofCollection fromQueue c) 0 (.error (indexError "pop from an empty deque")), s)
    else some (.gathering fromQueue c, s)
  | .gathering fromQueue c, .proceed =>
    if c.requests.length < settings.maxBatchSize then
      let (now, s) := s.monotonic
      if c.deadline - now ≤ 0 then some (s.endCollection fromQueue c) else some (.waiting fromQueue c, s)
    else some (s.endCollection fromQueue c)
  | .waiting fromQueue c, .timeout => some (s.endCollection fromQueue c)
  | .waiting fromQueue c, .proceed =>
    match s.get? with
    | none => none
    | some (none, s) =>
      match s.taskDone with
      | (.error e, s) => some (.returning (Caller.ofCollection fromQueue c) 0 (.error e), s)
      | (.ok (), s) =>
        match s.putNowait none with
        | (.error e, s) => some (.returning (Caller.ofCollection fromQueue c) 0 (.error e), s)
        | (.ok (), s) => some (s.endCollection fromQueue c)
    | some (some candidate, s) =>
      match s.consider settings c candidate true with
      | (.error e, s) => some (.returning (Caller.ofCollection fromQueue c) 0 (.error e), s)
      | (.ok (true, c), s) => some (.gathering fromQueue c, s)
      | (.ok (false, c), s) => some (s.endCollection fromQueue c)
  | .selecting caller queuedItems _ [] [], .proceed => some (.returning caller queuedItems (.ok ()), s)
  | .selecting caller queuedItems _ [] active, .proceed =>
    some (.generatingBatch caller queuedItems active,
      ((s.setBatchSize active.length active).measure (·.recordModelInvocation)).measure (·.modelExecutionStarted))
  | .selecting caller queuedItems now (r :: rest) active, .proceed =>
    if s.status r = .cancelled then some (.selecting caller queuedItems now rest active, s.record r)
    else
      let (expired, s) := s.timedOut r settings.requestTimeout
      if expired then some (.selecting caller queuedItems now rest active, s.finishTimeout r)
      else some (.selecting caller queuedItems now rest (active ++ [r]),
        s.set r { s.requests r with status := .running, startedAt := now, batchSize := 0 })
  | .generatingBatch caller queuedItems active, .results results =>
    let (completed, s) := s.monotonic
    some (.finishing caller queuedItems completed active active results, s)
  | .generatingBatch caller queuedItems active, .raises message => some (.failing caller queuedItems message active, s)
  | .finishing caller queuedItems _ _ [] [], .proceed =>
    some (.returning caller queuedItems (.ok ()), s.measure (·.modelExecutionFinished))
  | .finishing caller queuedItems _ active [] (_ :: _), .proceed =>
    some (.failing caller queuedItems "zip() argument 2 is longer than argument 1" active, s)
  | .finishing caller queuedItems _ active (_ :: _) [], .proceed =>
    some (.failing caller queuedItems "zip() argument 2 is shorter than argument 1" active, s)
  | .finishing caller queuedItems completed active (r :: rest) (result :: results), .proceed =>
    some (.finishing caller queuedItems completed active rest results,
      (s.deliver settings r result completed).recordAndFinish r)
  | .failing caller queuedItems _ [], .proceed =>
    some (.returning caller queuedItems (.ok ()), s.measure (·.modelExecutionFinished))
  | .failing caller queuedItems message (r :: rest), .proceed =>
    some (.failing caller queuedItems message rest, (s.fail r message).recordAndFinish r)
  | .abandoning caller queuedItems [], .proceed =>
    some (.returning caller queuedItems (.error taskCancelled), s.measure (·.modelExecutionFinished))
  | .abandoning caller queuedItems (r :: rest), .proceed =>
    some (.abandoning caller queuedItems rest, (s.finish r .failed "shutdown grace period expired").record r)
  | .starting caller r, .proceed =>
    if s.status r = .cancelled then some (.returning caller 0 (.ok ()), s.record r)
    else
      let (expired, s) := s.timedOut r settings.requestTimeout
      if expired then some (.returning caller 0 (.ok ()), s.finishTimeout r)
      else
        let (now, s) := s.monotonic
        let s := s.set r { s.requests r with
          status := .running, startedAt := now, batchSize := 1, batchCollectionMs := 0 }
        some (.generatingOne caller r, (s.measure (·.recordModelInvocation)).measure (·.modelExecutionStarted))
  | .generatingOne caller r, .result result =>
    let (completed, s) := if (s.requests r).completedAt = 0 then s.monotonic else (0, s)
    some (.returning caller 0 (.ok ()),
      ((s.deliver settings r result completed).measure (·.modelExecutionFinished)).recordAndFinish r)
  | .generatingOne caller r, .raises message =>
    some (.returning caller 0 (.ok ()), ((s.fail r message).measure (·.modelExecutionFinished)).recordAndFinish r)
  | .returning .direct _ result, .proceed => some (.ended result, s)
  | .returning (.scheduler fromQueue deferred) queuedItems result, .proceed =>
    match s.leave queuedItems fromQueue result with
    | (.ok (), s) => some (.loopHead deferred, s)
    | (.error e, s) => some (.ended (.error e), s)
  | _, _ => none

section

-- The equations are generated here, once for all proofs that take a turn apart.
attribute [local simp] Place.advance

end

/-- `task.cancel()` at an await. -/
def Place.interrupt (s : Scheduling) : Place → Option (Place × Scheduling)
  | .gettingFirst => some (.ended (.error taskCancelled), s)
  | .waiting fromQueue c => some (.returning (Caller.ofCollection fromQueue c) 0 (.error taskCancelled), s)
  | .generatingBatch caller queuedItems active => some (.abandoning caller queuedItems active, s)
  | .generatingOne caller r =>
    some (.returning caller 0 (.error taskCancelled),
      ((s.finish r .failed "shutdown grace period expired").record r).measure (·.modelExecutionFinished))
  | _ => none

/-- The functions that a task may run. -/
inductive SchedulerCall
  | runScheduler
  | collectBatch (first : RequestRef) (deferred : Option (List RequestRef))
  | processBatch (batch : List RequestRef)
  | processOne (request : RequestRef)

/-- A call begins; `run_scheduler` does nothing before its first await. -/
def SchedulerCall.begin (settings : SchedulerSettings) (s : Scheduling) : SchedulerCall → Place × Scheduling
  | .runScheduler => (.gettingFirst, s)
  | .collectBatch first deferred =>
    let (c, s) := s.beginCollection settings first deferred
    (.scanning none c, s)
  | .processBatch batch => (.selecting .direct 0 s.monotonic.1 batch [], s.monotonic.2)
  | .processOne request => (.starting .direct request, s)

/-- `RequestQueue(maximum)`, with the requests and the clock as they are. -/
def Scheduling.init (maximum : Int) (requests : RequestRef → InferenceRequest) (clock : Nat → Seconds) : Scheduling :=
  ⟨requests, ⟨[], maximum, 0⟩, true, 0, .init, clock⟩

/-- The shared objects, the tasks, and the requests that `submit` accepted. -/
structure SchedulerSystem where
  shared : Scheduling
  tasks : List Place
  accepted : List RequestRef

inductive SchedulerAction
  | submit (r : RequestRef)
  | cancel (r : RequestRef) (reason : String)
  | close
  | call (call : SchedulerCall)
  | resume (task : Nat) (resumption : Resumption)
  | interrupt (task : Nat)

namespace SchedulerSystem

/-- No other task than this one is between two awaits. -/
def mayRun (s : SchedulerSystem) (task : Nat) : Bool := (s.tasks.eraseIdx task).all Place.suspended

/-- The event loop runs something that is not a task's next part. -/
def idle (s : SchedulerSystem) : Bool := s.tasks.all Place.suspended

def step (settings : SchedulerSettings) (s : SchedulerSystem) : SchedulerAction → Option SchedulerSystem
  | .submit r =>
    if s.idle then
      match s.shared.submit r with
      | (.ok (), shared) => some { s with shared, accepted := r :: s.accepted }
      | (.error _, shared) => some { s with shared }
    else none
  | .cancel r reason => if s.idle then some { s with shared := s.shared.cancel r reason } else none
  | .close => if s.idle then some { s with shared := s.shared.close.2 } else none
  | .call call =>
    if s.idle then
      let (place, shared) := call.begin settings s.shared
      some { s with shared, tasks := s.tasks ++ [place] }
    else none
  | .resume task resumption =>
    if s.mayRun task then
      match s.tasks[task]? with
      | none => none
      | some place =>
        (place.advance settings s.shared resumption).map fun (place, shared) =>
          { s with shared, tasks := s.tasks.set task place }
    else none
  | .interrupt task =>
    if s.mayRun task then
      match s.tasks[task]? with
      | none => none
      | some place =>
        (place.interrupt s.shared).map fun (place, shared) => { s with shared, tasks := s.tasks.set task place }
    else none

def perform (settings : SchedulerSettings) (s : SchedulerSystem) : List SchedulerAction → Option SchedulerSystem
  | [] => some s
  | action :: rest => (s.step settings action).bind fun s => s.perform settings rest

namespace Sample

def request : InferenceRequest where
  prompt := "hello"
  maxNewTokens := 1
  temperature := 0
  estimatedTokens := 1
  queuedAt := 0
  startedAt := 0
  completedAt := 0
  inputTokens := 0
  outputTokens := 0
  status := .received
  resultText := ""
  errorMessage := ""
  batchSize := 1
  workerTokenizationMs := 0
  generationMs := 0
  decodingMs := 0
  batchCollectionMs := 0
  future := .missing
  metricsRecorded := false
  deadlineAt := none

def settings : SchedulerSettings := ⟨"dynamic_batch", 8, 10, 100, 1000⟩

/-- One scheduler and an empty queue. -/
def start : SchedulerSystem := ⟨.init 8 (fun _ => request) fun n => n + 1, [.gettingFirst], []⟩

end Sample

end SchedulerSystem

/-- The states that a system gets to by actions that a condition allows. -/
inductive SchedulerRun (settings : SchedulerSettings) (Allowed : SchedulerSystem → SchedulerAction → Prop)
    (first : SchedulerSystem) : SchedulerSystem → Prop
  | start : SchedulerRun settings Allowed first first
  | next {s s' action} : SchedulerRun settings Allowed first s → Allowed s action → s.step settings action = some s' →
      SchedulerRun settings Allowed first s'

end ServingPlatform
