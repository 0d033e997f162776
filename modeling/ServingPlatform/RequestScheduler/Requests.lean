import Mathlib.Data.Rat.Defs
import Mathlib.Logic.Function.Basic
import ServingPlatform.Library.Dict
import ServingPlatform.TokenTypes

namespace ServingPlatform

inductive RequestStatus
  | received
  | queued
  | running
  | completed
  | failed
  | rejected
  | timeout
  | cancelled
  deriving DecidableEq, Repr

/-- `TERMINAL_STATUSES`. -/
def RequestStatus.isTerminal : RequestStatus → Bool
  | .completed | .failed | .rejected | .timeout | .cancelled => true
  | .received | .queued | .running => false

/-- The future that a caller of `submit` waits for. -/
inductive ResultFuture
  | missing
  | pending
  | resolved
  deriving DecidableEq, Repr

/-- `if self.future and not self.future.done(): self.future.set_result(self)` -/
def ResultFuture.resolve : ResultFuture → ResultFuture
  | .missing => .missing
  | .pending | .resolved => .resolved

/-- The fields of a request that the scheduler reads or writes; a time of zero is not set. -/
structure InferenceRequest where
  prompt : String
  maxNewTokens : Int
  temperature : Rat
  estimatedTokens : Int
  queuedAt : Seconds
  startedAt : Seconds
  completedAt : Seconds
  inputTokens : Int
  outputTokens : Int
  status : RequestStatus
  resultText : String
  errorMessage : String
  batchSize : Nat
  workerTokenizationMs : Int
  generationMs : Int
  decodingMs : Int
  batchCollectionMs : Int
  future : ResultFuture
  metricsRecorded : Bool
  deadlineAt : Option Seconds

/-- What the worker returns for one prompt. -/
structure GenerationResult where
  text : String
  inputTokens : Int
  outputTokens : Int
  tokenizationMs : Int
  generationMs : Int
  decodingMs : Int

namespace InferenceRequest

def terminal (item : InferenceRequest) : Bool := item.status.isTerminal

/-- A request that is over and whose submitter has been told. -/
def settled (item : InferenceRequest) : Prop := item.terminal = true ∧ item.future = .resolved

def timedOut (item : InferenceRequest) (timeout now : Seconds) : Bool :=
  item.deadlineAt.any (· ≤ now) || (item.queuedAt ≠ 0 && timeout ≤ now - item.queuedAt)

def finish (item : InferenceRequest) (status : RequestStatus) (errorMessage : String) (now : Seconds) :
    InferenceRequest :=
  { item with
    status
    errorMessage
    completedAt := if item.completedAt = 0 then now else item.completedAt
    future := item.future.resolve }

def cancel (item : InferenceRequest) (reason : String) (now : Seconds) : InferenceRequest :=
  if item.terminal then item else item.finish .cancelled reason now

/-- The fields that a model result sets. -/
def withResult (item : InferenceRequest) (result : GenerationResult) : InferenceRequest :=
  { item with
    inputTokens := result.inputTokens
    outputTokens := result.outputTokens
    resultText := result.text
    workerTokenizationMs := result.tokenizationMs
    generationMs := result.generationMs
    decodingMs := result.decodingMs }

end InferenceRequest

/-- The counters of `Metrics`; its samples decide nothing here. -/
structure Metrics where
  completedRequests : Nat
  failedRequests : Nat
  timeoutRequests : Nat
  cancelledRequests : Nat
  rejectedRequests : Nat
  queueFullRejections : Nat
  rejectionsByReason : Dict String Nat
  activeModelExecutions : Int
  peakModelExecutions : Int
  modelInvocations : Nat
  batches : Nat
  outputTokens : Int

namespace Metrics

def init : Metrics := ⟨0, 0, 0, 0, 0, 0, .empty, 0, 0, 0, 0, 0⟩

def rejected (m : Metrics) (reason : String) : Metrics :=
  { m with
    rejectedRequests := m.rejectedRequests + 1
    rejectionsByReason := m.rejectionsByReason.insert reason ((m.rejectionsByReason.get? reason).getD 0 + 1) }

def modelExecutionStarted (m : Metrics) : Metrics :=
  { m with
    activeModelExecutions := m.activeModelExecutions + 1
    peakModelExecutions := max m.peakModelExecutions (m.activeModelExecutions + 1) }

def modelExecutionFinished (m : Metrics) : Metrics :=
  { m with activeModelExecutions := m.activeModelExecutions - 1 }

def recordModelInvocation (m : Metrics) : Metrics :=
  { m with modelInvocations := m.modelInvocations + 1, batches := m.batches + 1 }

def record (m : Metrics) (item : InferenceRequest) : Metrics :=
  if item.metricsRecorded then m
  else { m with
    completedRequests := m.completedRequests + if item.status = .completed then 1 else 0
    timeoutRequests := m.timeoutRequests + if item.status = .timeout then 1 else 0
    failedRequests := m.failedRequests + if item.status = .failed then 1 else 0
    cancelledRequests := m.cancelledRequests + if item.status = .cancelled then 1 else 0
    outputTokens := m.outputTokens + item.outputTokens }

end Metrics

/-- A request as an object, which the queue, the scheduler and its submitter share. -/
abbrev RequestRef := Nat

def queueFull : Raised := ⟨.other "QueueFull" false, ""⟩

def queueClosed (message : String) : Raised := ⟨.other "QueueClosed" true, message⟩

def taskCancelled : Raised := ⟨.cancelledError, ""⟩

/-- `asyncio.Queue`, with `None` as the scheduler's signal to stop. -/
structure AsyncQueue where
  items : List (Option RequestRef)
  maxsize : Int
  unfinished : Nat

namespace AsyncQueue

def full (q : AsyncQueue) : Bool := 0 < q.maxsize && q.maxsize ≤ q.items.length

def putNowait (q : AsyncQueue) (item : Option RequestRef) : Except Raised AsyncQueue :=
  if q.full then .error queueFull
  else .ok { q with items := q.items ++ [item], unfinished := q.unfinished + 1 }

def taskDone (q : AsyncQueue) : Except Raised AsyncQueue :=
  if q.unfinished = 0 then .error (valueError "task_done() called too many times")
  else .ok { q with unfinished := q.unfinished - 1 }

end AsyncQueue

/-- What the scheduler and its clients share: the request objects, the fields
of `RequestQueue`, the metrics, and the readings that the clock will give. -/
structure Scheduling where
  requests : RequestRef → InferenceRequest
  queue : AsyncQueue
  accepting : Bool
  maxObservedSize : Nat
  metrics : Metrics
  clock : Nat → Seconds

namespace Scheduling

variable (s : Scheduling) (r q : RequestRef)

def status : RequestStatus := (s.requests r).status

/-- `time.monotonic()` -/
def monotonic : Seconds × Scheduling := (s.clock 0, { s with clock := fun n => s.clock (n + 1) })

def set (item : InferenceRequest) : Scheduling := { s with requests := Function.update s.requests r item }

def finish (status : RequestStatus) (errorMessage : String) : Scheduling :=
  if (s.requests r).completedAt = 0 then
    s.monotonic.2.set r ((s.requests r).finish status errorMessage s.monotonic.1)
  else s.set r ((s.requests r).finish status errorMessage 0)

def cancel (reason : String) : Scheduling :=
  if (s.requests r).terminal then s else s.finish r .cancelled reason

def timedOut (timeout : Seconds) : Bool × Scheduling :=
  ((s.requests r).timedOut timeout s.monotonic.1, s.monotonic.2)

/-- `metrics.record(request)` -/
def record : Scheduling :=
  { s.set r { s.requests r with metricsRecorded := true } with metrics := s.metrics.record (s.requests r) }

def finishTimeout : Scheduling := (s.finish r .timeout "").record r

/-- Lets the metrics change. -/
def measure (f : Metrics → Metrics) : Scheduling := { s with metrics := f s.metrics }

def taskDone : Except Raised Unit × Scheduling :=
  match s.queue.taskDone with
  | .ok queue => (.ok (), { s with queue })
  | .error e => (.error e, s)

/-- `if from_queue: queue.task_done()` -/
def itemDone (fromQueue : Bool) : Except Raised Unit × Scheduling := if fromQueue then s.taskDone else (.ok (), s)

def putNowait (item : Option RequestRef) : Except Raised Unit × Scheduling :=
  match s.queue.putNowait item with
  | .ok queue => (.ok (), { s with queue })
  | .error e => (.error e, s)

/-- The item that `queue.get()` delivers next. -/
def get? : Option (Option RequestRef × Scheduling) :=
  match s.queue.items with
  | [] => none
  | item :: rest => some (item, { s with queue := { s.queue with items := rest } })

end Scheduling

/-- `request.future = asyncio.get_running_loop().create_future()` -/
def Scheduling.createFuture (s : Scheduling) (r : RequestRef) : Scheduling :=
  s.set r { s.requests r with future := .pending }

def Scheduling.markQueued (s : Scheduling) (r : RequestRef) : Scheduling :=
  let (now, s) := s.monotonic
  s.set r { s.requests r with queuedAt := now, status := .queued }

/-- `RequestQueue.submit`. -/
def Scheduling.submit (s : Scheduling) (r : RequestRef) : Except Raised Unit × Scheduling :=
  let s := s.createFuture r
  if s.accepting = false then
    (.error (queueClosed "scheduler is shutting down"), s.finish r .rejected "scheduler is shutting down")
  else
    let s := s.markQueued r
    match s.queue.putNowait (some r) with
    | .ok queue => (.ok (), { s with queue, maxObservedSize := max s.maxObservedSize queue.items.length })
    | .error e => (.error e, s.finish r .rejected "scheduler queue is full")

/-- `close` rejects what it takes out of the queue. -/
def Scheduling.turnAway (s : Scheduling) : Option RequestRef → Scheduling
  | none => s
  | some r => (s.finish r .rejected "server is shutting down").measure (·.rejected "service_shutting_down")

/-- `close` takes out everything that waits. -/
def Scheduling.drain (s : Scheduling) (rejected : Nat) : List (Option RequestRef) → Except Raised Nat × Scheduling
  | [] => (.ok rejected, s)
  | item :: rest =>
    match ({ s with queue := { s.queue with items := rest } }.turnAway item).taskDone with
    | (.error e, s) => (.error e, s)
    | (.ok (), s) => s.drain (rejected + if item.isSome then 1 else 0) rest

/-- `RequestQueue.close`. -/
def Scheduling.close (s : Scheduling) : Except Raised Nat × Scheduling :=
  if s.accepting = false then (.ok 0, s)
  else
    match { s with accepting := false }.drain 0 s.queue.items with
    | (.error e, s) => (.error e, s)
    | (.ok rejected, s) =>
      match s.putNowait none with
      | (.error e, s) => (.error e, s)
      | (.ok (), s) => (.ok rejected, s)

end ServingPlatform
