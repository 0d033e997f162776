import ServingPlatform.Gateway.Handlers

namespace ServingPlatform

variable {S : Type} {backend : InferenceBackend S}

/-- The `finally` block of the engine's `stream`. -/
def Engine.closeStream (e : Engine S) (requestId : String) (sequence : Ref) : Engine S :=
  if (e.sequences sequence).done then
    if e.queueEmpty sequence then e.popFinished requestId else e
  else (e.setCancellation sequence).setWake

namespace Handler

def requestId (h : Handler) : String := h.record.requestId

/-- The handler has not returned. -/
def live (h : Handler) : Prop := ∀ result, h.place ≠ .ended result

end Handler

namespace Gateway

variable (settings : GatewaySettings) (g : Gateway backend) (h : Handler)

/-- How `generate` answers for an item that is over. -/
def answer (item : InferenceRequest) : Except Raised Unit :=
  if item.status = .timeout then .error (apiError "request_timeout" "request timed out")
  else if item.status = .rejected then .error (apiError "service_shutting_down" item.errorMessage)
  else if item.status = .failed then .error (apiError "generation_failed" "model generation failed")
  else .ok ()

/-- The last save of a handler, after which it returns. -/
def conclude (startedAt : Seconds) (result : Except Raised Unit) : Handler × Gateway backend :=
  match g.finishPlatformRequest h.record (g.status h.item) startedAt with
  | (.error raised, g) => ({ h with place := .ended (.error raised) }, g)
  | (.ok _, g) => ({ h with place := .ended result }, g)

/-- The `finally` block of a response body, to its first await. -/
def leave (result : Except Raised Unit) : Handler × Gateway backend :=
  let shared := g.shared.set h.item { g.shared.requests h.item with inputTokens := h.record.promptTokens }
  ({ h with place := .releasing result }, g.withShared ((shared.record h.item).measure (·.modelExecutionFinished)))

/-- A response body in which something is raised. -/
def except (raised : Raised) : Handler × Gateway backend :=
  if raised.kind = .cancelledError then
    let g := g.onEngine fun e => (e.cancel h.requestId).2
    (g.withShared (g.shared.cancel h.item "streaming client disconnected")).leave h (.error raised)
  else if raised.kind.isException then
    ({ h with place := .errorSent }, g.withShared (g.shared.finish h.item .failed "streaming model generation failed"))
  else g.leave h (.error raised)

/-- A response body begins. -/
def beginStream : Handler × Gateway backend :=
  let g := g.withShared ((g.shared.measure (·.recordModelInvocation)).measure (·.modelExecutionStarted))
  match g.engine with
  | none => ({ h with place := .reading }, g)
  | some c =>
    match c.shared.engine.openStream h.requestId with
    | (.error raised, _) => g.except h raised
    | (.ok sequence, engine) =>
      ({ h with place := .receiving sequence }, { g with engine := some { c with shared := c.shared.withEngine engine } })

/-- The engine's next event for a stream, which is taken from its queue. -/
def nextEvent (sequence : Ref) : Option (StreamEvent × Gateway backend) := do
  let c ← g.engine
  let event ← (c.shared.engine.sequences sequence).events[(c.shared.engine.sequences sequence).taken]?
  return (event, { g with engine := some { c with shared := c.shared.take sequence } })

/-- The first token turns a record from prefill to decode. -/
def noteToken : Except Raised RequestRecord × Gateway backend :=
  if h.record.status = .prefill then
    let (now, shared) := g.shared.monotonic
    let g := g.withShared shared
    match h.record.transition .decode now with
    | .error raised => (.error raised, g)
    | .ok record =>
      match g.platformRequests.save record with
      | (.error raised, _) => (.error raised, g)
      | (.ok (), store) => (.ok record, { g with platformRequests := store })
  else (.ok h.record, g)

/-- What a stream makes of an event of the engine. -/
def receive (sequence : Ref) : StreamEvent → Handler × Gateway backend
  | .failure raised => (g.onEngine fun e => e.closeStream h.requestId sequence).except h raised
  | .token token =>
    if g.status h.item = .cancelled then ({ h with place := .receiving sequence }, g)
    else
      match g.noteToken h with
      | (.error raised, g) => g.except h raised
      | (.ok record, g) =>
        let item := g.shared.requests h.item
        ({ h with record, place := .yielding sequence false }, g.withShared (g.shared.set h.item { item with
          outputTokens := token.index + 1
          resultText := item.resultText ++ token.text }))
  | .complete completion =>
    let (now, shared) := g.shared.monotonic
    ({ h with place := .yielding sequence true }, g.withShared (shared.set h.item { shared.requests h.item with
      inputTokens := completion.inputTokens
      outputTokens := completion.outputTokens
      workerTokenizationMs := 0
      generationMs := completion.prefillMs + completion.decodeMs
      decodingMs := completion.decodeMs
      completedAt := now
      status := completion.finishReason.itemStatus }))

/-- The worker's stream is read to its end. -/
def exhaust : Handler × Gateway backend :=
  let (now, shared) := g.shared.monotonic
  let shared := shared.set h.item { shared.requests h.item with completedAt := now }
  let (expired, shared) := shared.timedOut h.item settings.scheduling.requestTimeout
  ({ h with place := .doneSent }, g.withShared (shared.set h.item { shared.requests h.item with
    status := if expired then .timeout else .completed }))

/-- A handler goes on from where it waits to where it waits next. -/
def resume : HandlerPlace → HandlerResumption → Option (Handler × Gateway backend)
  | .waiting, .proceed =>
    if (g.shared.requests h.item).future = .resolved then
      some (g.conclude h (g.shared.requests h.item).startedAt (answer (g.shared.requests h.item)))
    else none
  | .unstarted, .proceed => some (g.beginStream h)
  | .receiving sequence, .proceed => (g.nextEvent sequence).map fun (event, g) => g.receive h sequence event
  | .yielding sequence false, .proceed => some ({ h with place := .receiving sequence }, g)
  | .yielding sequence true, .proceed =>
    some ((g.onEngine fun e => (e.popFinished h.requestId).closeStream h.requestId sequence).leave h (.ok ()))
  | .draining sequence, .proceed =>
    if g.engine.any fun c => (c.shared.engine.sequences sequence).done then
      some ((g.onEngine fun e => (e.popFinished h.requestId).closeStream h.requestId sequence).except h cancelledError)
    else none
  | .reading, .chunk outputTokens =>
    some ({ h with place := .chunkSent },
      g.withShared (g.shared.set h.item { g.shared.requests h.item with outputTokens }))
  | .reading, .exhausted => some (g.exhaust settings h)
  | .reading, .raises raised => some (g.except h raised)
  | .chunkSent, .proceed => some ({ h with place := .reading }, g)
  | .doneSent, .proceed | .failureSent, .proceed => some (g.leave h (.ok ()))
  | .errorSent, .proceed => some ({ h with place := .failureSent }, g)
  | .releasing result, .proceed => some (g.conclude h 0 result)
  | _, _ => none

/-- The handler's task is cancelled while it waits. -/
def interrupt : HandlerPlace → Option (Handler × Gateway backend)
  | .waiting =>
    some ((g.withShared (g.shared.cancel h.item "client disconnected")).conclude h 0 (.error cancelledError))
  | .receiving sequence => some ({ h with place := .draining sequence },
      g.onEngine fun e => (e.setCancellation sequence).setWake)
  | .draining sequence => some ((g.onEngine fun e => e.closeStream h.requestId sequence).except h cancelledError)
  | .reading => some (g.except h cancelledError)
  | .releasing _ => some ({ h with place := .ended (.error cancelledError) }, g)
  | _ => none

/-- A response body is given up at a `yield`, with `GeneratorExit` or a
cancellation; the engine's stream that it ran is closed with it. -/
def abandon (raised : Raised) : HandlerPlace → Option (Handler × Gateway backend)
  | .unstarted => some ({ h with place := .ended (.error raised) }, g)
  | .yielding sequence _ => some ((g.onEngine fun e => e.closeStream h.requestId sequence).except h raised)
  | .chunkSent | .doneSent => some (g.except h raised)
  | .errorSent | .failureSent => some (g.leave h (.error raised))
  | _ => none

end Gateway

/-- What happens in a gateway, apart from the steps of its engine. -/
inductive GatewayAction
  | close
  | schedule (resumption : Resumption)
  | interruptScheduler
  | generate (body : GenerateRequest) (requestId tenantId : String) (tokens : Int)
  | generateStream (body : GenerateRequest) (sampling : SamplingParameters) (requestId tenantId : String) (tokens : Int)
  | resume (handler : Nat) (resumption : HandlerResumption)
  | interrupt (handler : Nat)
  | abandon (handler : Nat) (raised : Raised)
  | cancelRequest (requestId tenantId : String)

namespace Gateway

variable (settings : GatewaySettings) (g : Gateway backend)

/-- The handler's part of a step. -/
def handle (handler : Nat) (go : Handler → Option (Handler × Gateway backend)) : Option (Gateway backend) := do
  let h ← g.handlers[handler]?
  let (h, g) ← go h
  return { g with handlers := g.handlers.set handler h }

/-- The scheduler's part of a step. -/
def onScheduler (action : SchedulerAction) : Option (Gateway backend) :=
  (g.scheduler.step settings.scheduling action).map fun scheduler => { g with scheduler }

/-- A step of the event loop: it runs a handler or a route while the scheduler's
task waits. The scheduler is cancelled only after its queue was closed. -/
def act : GatewayAction → Option (Gateway backend)
  | .close => g.onScheduler settings .close
  | .schedule resumption => g.onScheduler settings (.resume 0 resumption)
  | .interruptScheduler => if g.shared.accepting then none else g.onScheduler settings (.interrupt 0)
  | .generate body requestId tenantId tokens =>
    if g.scheduler.idle then some (g.generate settings body requestId tenantId tokens).2 else none
  | .generateStream body sampling requestId tenantId tokens =>
    if g.scheduler.idle then some (g.generateStream settings body sampling requestId tenantId tokens).2 else none
  | .resume handler resumption =>
    if g.scheduler.idle then g.handle handler fun h => g.resume settings h h.place resumption else none
  | .interrupt handler => if g.scheduler.idle then g.handle handler fun h => g.interrupt h h.place else none
  | .abandon handler raised =>
    if g.scheduler.idle ∧ raised.kind.isException = false then g.handle handler fun h => g.abandon h raised h.place else none
  | .cancelRequest requestId tenantId =>
    if g.scheduler.idle then some (g.cancelRequest requestId tenantId).2 else none

/-- A step of the gateway or of its engine. -/
inductive Step : Gateway backend → Option GatewayAction → Gateway backend → Prop
  | act {g g' : Gateway backend} {action : GatewayAction} (acts : g.act settings action = some g') : Step g (some action) g'
  | engine {g : Gateway backend} {c c' : Configuration backend} (runs : g.engine = some c) (step : c.Step c') :
      Step g none { g with engine := some c' }

/-- The states of a gateway, in runs whose actions are all allowed. -/
inductive Reach (Start : Gateway backend → Prop) (Allowed : Gateway backend → GatewayAction → Prop) : Gateway backend → Prop
  | start {g : Gateway backend} (first : Start g) : Reach Start Allowed g
  | next {g g' : Gateway backend} {action : Option GatewayAction} (before : Reach Start Allowed g)
      (allowed : ∀ a, action = some a → Allowed g a) (step : Step settings g action g') : Reach Start Allowed g'

/-- A gateway whose lifespan has just begun. -/
structure Fresh (g : Gateway backend) : Prop where
  scheduler : ∃ maximum requests clock, g.scheduler = ⟨.init maximum requests clock, [.gettingFirst], []⟩
  platformRequests : g.platformRequests = .empty
  activeGatewayRequests : g.activeGatewayRequests = .empty
  handlers : g.handlers = []

end Gateway

end ServingPlatform
