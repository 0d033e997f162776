import ServingPlatform.Gateway.Streams
import ServingPlatform.TokenEngine.Draining

namespace ServingPlatform

structure ConcurrencyLimiter where
  maximum : Int
  active : Int

namespace ConcurrencyLimiter

variable (l : ConcurrencyLimiter)

def acquire : Except Raised Unit × ConcurrencyLimiter :=
  if l.maximum ≤ l.active then (.error (apiError "concurrency_limit_exceeded" "maximum concurrent requests exceeded"), l)
  else (.ok (), { l with active := l.active + 1 })

def release : Except Raised Unit × ConcurrencyLimiter :=
  if l.active ≤ 0 then (.error (runtimeError "concurrency limiter released without an active slot"), l)
  else (.ok (), { l with active := l.active - 1 })

end ConcurrencyLimiter

structure StreamTracker where
  accepting : Bool
  active : Int
  idle : Bool

namespace StreamTracker

variable (t : StreamTracker)

def start : Except Raised Unit × StreamTracker :=
  if t.accepting then (.ok (), { t with active := t.active + 1, idle := false })
  else (.error (apiError "service_shutting_down" "server is shutting down"), t)

def finish : Except Raised Unit × StreamTracker :=
  if t.active ≤ 0 then (.error (runtimeError "stream tracker finished without an active stream"), t)
  else (.ok (), { t with active := t.active - 1, idle := t.idle || t.active - 1 = 0 })

/-- `close` up to its wait. -/
def close : StreamTracker := { t with accepting := false }

end StreamTracker

/-- A request that has its slots and no record yet: it is validated, or its stop
tokens are. -/
inductive PendingCall
  | generate (body : GenerateRequest) (tenantId : String)
  | validating (body : GenerateRequest) (sampling : SamplingParameters) (tenantId : String)
  | checking (body : GenerateRequest) (sampling : SamplingParameters) (tenantId : String) (tokens : Int)

def PendingCall.streams : PendingCall → Bool
  | generate _ _ => false
  | validating _ _ _ | checking _ _ _ _ => true

namespace HandlerPlace

/-- The handler has a slot of the limiter; a response body has given it back when it comes to `releasing`. -/
def holds : HandlerPlace → Bool
  | .releasing _ | .ended _ => false
  | _ => true

/-- The handler has an active stream. -/
def streams : HandlerPlace → Bool
  | .waiting | .releasing _ | .ended _ => false
  | _ => true

end HandlerPlace

/-- The application state with its limits. No lock of a limit is ever waited
for, since nothing is awaited while one is held. `misuses` and `givenUp` only
note what has happened: releases without a slot, and streams left while their
sequence may go on. -/
structure AppState {S : Type} (backend : InferenceBackend S) where
  gateway : Gateway backend
  limiter : ConcurrencyLimiter
  streamTracker : StreamTracker
  calls : List PendingCall
  misuses : List Raised
  givenUp : List String

inductive AppAction
  | close
  | schedule (resumption : Resumption)
  | interruptScheduler
  | cancelRequest (requestId tenantId : String)
  | closeTracker
  | arrive (body : GenerateRequest) (tenantId : String)
  | arriveStream (body : GenerateRequest) (sampling : SamplingParameters) (tenantId : String)
  | validated (call : Nat) (result : Except Raised Int) (requestId : String)
  | checked (call : Nat) (result : Except Raised Unit) (requestId : String)
  | resume (handler : Nat) (resumption : HandlerResumption)
  | interrupt (handler : Nat)
  | abandon (handler : Nat) (raised : Raised)

variable {S : Type} {backend : InferenceBackend S}

/-- What `engine.reserve` of a stream answers, as in `generateStream`. -/
def Gateway.reserveStream (settings : GatewaySettings) (g : Gateway backend) (body : GenerateRequest) (sampling : SamplingParameters)
    (requestId : String) (tokens : Int) : Except Raised Unit :=
  (g.reserve settings body sampling requestId tokens (body.deadlineSeconds.map (g.shared.monotonic.1 + ·)) g.shared.monotonic.1).1

namespace AppState

variable (settings : GatewaySettings) (a : AppState backend)

def release : Except Raised Unit × AppState backend :=
  match a.limiter.release with
  | (.ok (), limiter) => (.ok (), { a with limiter })
  | (.error raised, limiter) => (.error raised, { a with limiter, misuses := raised :: a.misuses })

def finish : Except Raised Unit × AppState backend :=
  match a.streamTracker.finish with
  | (.ok (), streamTracker) => (.ok (), { a with streamTracker })
  | (.error raised, streamTracker) => (.error raised, { a with streamTracker, misuses := raised :: a.misuses })

/-- `limiter.release` and `stream_tracker.finish`. -/
def giveBack : Except Raised Unit × AppState backend :=
  match a.release with
  | (.ok (), a) => a.finish
  | (.error raised, a) => (.error raised, a)

/-- `generate` up to its validation. -/
def arrive (body : GenerateRequest) (tenantId : String) : AppState backend :=
  match a.limiter.acquire with
  | (.ok (), limiter) => { a with limiter, calls := a.calls ++ [.generate body tenantId] }
  | (.error _, _) => a

/-- `generate_stream` up to its validation. -/
def arriveStream (body : GenerateRequest) (sampling : SamplingParameters) (tenantId : String) : AppState backend :=
  match a.streamTracker.start with
  | (.error _, _) => a
  | (.ok (), streamTracker) =>
    match a.limiter.acquire with
    | (.ok (), limiter) => { a with limiter, streamTracker, calls := a.calls ++ [.validating body sampling tenantId] }
    | (.error _, _) => ({ a with streamTracker }.finish).2

/-- The call is over, and what it leaves to the gateway. -/
def leaveCall (call : Nat) (gateway : Gateway backend) : AppState backend := { a with gateway, calls := a.calls.eraseIdx call }

/-- `generate` after its validation. -/
def generate (call : Nat) (body : GenerateRequest) (requestId tenantId : String) (tokens : Int) : AppState backend :=
  match a.gateway.generate settings body requestId tenantId tokens with
  | (.ok (), gateway) => a.leaveCall call gateway
  | (.error _, gateway) => ((a.leaveCall call gateway).release).2

/-- `generate_stream` from its reservation on. Nothing is given back when an
exception is raised after the reservation. -/
def generateStream (call : Nat) (body : GenerateRequest) (sampling : SamplingParameters) (requestId tenantId : String) (tokens : Int) :
    AppState backend :=
  let left := a.leaveCall call (a.gateway.generateStream settings body sampling requestId tenantId tokens).2
  match a.gateway.reserveStream settings body sampling requestId tokens with
  | .error _ => left.giveBack.2
  | .ok () => left

/-- `_validated` returns or raises. -/
def validated (call : Nat) (result : Except Raised Int) (requestId : String) : PendingCall → Option (AppState backend)
  | .generate body tenantId =>
    match result with
    | .error _ => some ((a.leaveCall call a.gateway).release).2
    | .ok tokens => some (a.generate settings call body requestId tenantId tokens)
  | .validating body sampling tenantId =>
    match result with
    | .error _ => some ((a.leaveCall call a.gateway).giveBack).2
    | .ok tokens =>
      if a.gateway.engine.isSome then some { a with calls := a.calls.set call (.checking body sampling tenantId tokens) }
      else some (a.generateStream settings call body sampling requestId tenantId tokens)
  | .checking _ _ _ _ => none

/-- `validate_sampling` returns or raises. -/
def checked (call : Nat) (result : Except Raised Unit) (requestId : String) : PendingCall → Option (AppState backend)
  | .checking body sampling tenantId tokens =>
    match result with
    | .error _ => some ((a.leaveCall call a.gateway).giveBack).2
    | .ok () => some (a.generateStream settings call body sampling requestId tenantId tokens)
  | _ => none

/-- The limits that a handler's move gives back: `limiter.slot()` is left with
`generate`, and the `finally` block of a response body comes to them first. -/
def settle (place : HandlerPlace) (h : Handler) : Handler × AppState backend :=
  let given : Except Raised Unit × AppState backend :=
    match place, h.place with
    | .waiting, .ended _ => a.release
    | .releasing _, _ => (.ok (), a)
    | _, .releasing _ => a.giveBack
    | _, _ => (.ok (), a)
  match given with
  | (.ok (), a) => (h, a)
  | (.error raised, a) => ({ h with place := .ended (.error raised) }, a)

/-- A handler's move, with what it gives back. -/
def handle (handler : Nat) (go : Handler → Option (Handler × Gateway backend)) : Option (AppState backend) := do
  let h ← a.gateway.handlers[handler]?
  let (h', gateway) ← go h
  let (h', a) := { a with gateway }.settle h.place h'
  return { a with gateway := { a.gateway with handlers := a.gateway.handlers.set handler h' } }

/-- The handler's request is noted as given up if its place is such. -/
def noting (handler : Nat) (givesUp : HandlerPlace → Bool) : AppState backend :=
  match a.gateway.handlers[handler]? with
  | none => a
  | some h => if givesUp h.place then { a with givenUp := h.requestId :: a.givenUp } else a

/-- What the gateway does apart from its handlers. -/
def onGateway (action : GatewayAction) : Option (AppState backend) :=
  (a.gateway.act settings action).map fun gateway => { a with gateway }

def act : AppAction → Option (AppState backend)
  | .close => a.onGateway settings .close
  | .schedule resumption => a.onGateway settings (.schedule resumption)
  | .interruptScheduler => a.onGateway settings .interruptScheduler
  | .cancelRequest requestId tenantId => a.onGateway settings (.cancelRequest requestId tenantId)
  | .closeTracker => some { a with streamTracker := a.streamTracker.close }
  | .arrive body tenantId => some (a.arrive body tenantId)
  | .arriveStream body sampling tenantId => some (a.arriveStream body sampling tenantId)
  | .validated call result requestId =>
    if a.gateway.scheduler.idle then (a.calls[call]?).bind (a.validated settings call result requestId) else none
  | .checked call result requestId =>
    if a.gateway.scheduler.idle then (a.calls[call]?).bind (a.checked settings call result requestId) else none
  | .resume handler resumption =>
    if a.gateway.scheduler.idle then a.handle handler fun h => a.gateway.resume settings h h.place resumption else none
  | .interrupt handler =>
    -- a second cancellation while the engine's stream waits for its sequence gives it up
    if a.gateway.scheduler.idle then
      (a.noting handler HandlerPlace.isDraining).handle handler fun h =>
        a.gateway.interrupt h h.place
    else none
  | .abandon handler raised =>
    if a.gateway.scheduler.idle ∧ raised.kind.isException = false then
      (a.noting handler HandlerPlace.isYielding).handle handler fun h =>
        a.gateway.abandon h raised h.place
    else none

/-- A step of the application, or of its engine. -/
inductive Step : AppState backend → Option AppAction → AppState backend → Prop
  | act {a a' : AppState backend} {action : AppAction} (acts : a.act settings action = some a') : Step a (some action) a'
  | engine {a : AppState backend} {c c' : Configuration backend} (runs : a.gateway.engine = some c) (works : c.Works c') :
      Step a none { a with gateway := { a.gateway with engine := some c' } }

/-- The states of an application, in runs whose actions are all allowed. -/
inductive Reach (Start : AppState backend → Prop) (Allowed : AppState backend → AppAction → Prop) : AppState backend → Prop
  | start {a : AppState backend} (first : Start a) : Reach Start Allowed a
  | next {a a' : AppState backend} {action : Option AppAction} (before : Reach Start Allowed a)
      (allowed : ∀ b, action = some b → Allowed a b) (step : Step settings a action a') : Reach Start Allowed a'

/-- An application whose lifespan has just begun; its engine, if it has one, is new. -/
structure Fresh (a : AppState backend) : Prop where
  gateway : a.gateway.Fresh
  engine : ∀ c, a.gateway.engine = some c → ∃ setup, c = .initial backend setup
  limiter : a.limiter.active = 0
  streamTracker : a.streamTracker.active = 0
  calls : a.calls = []
  misuses : a.misuses = []
  givenUp : a.givenUp = []

end AppState

end ServingPlatform
