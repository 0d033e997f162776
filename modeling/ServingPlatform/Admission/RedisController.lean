import Mathlib.Data.List.Sort
import ServingPlatform.Admission.Counters
import ServingPlatform.Library.ScriptHash

namespace ServingPlatform

/-- The document of a reservation. -/
structure SharedReservation where
  tenant : String
  tokens : Int
  running : Bool
  concurrencyLimit : Int
  deriving DecidableEq, Repr

/-- The hash of one namespace. -/
abbrev AdmissionHash := ScriptHash SharedReservation

/-- The fields of the hash. -/
inductive AdmissionField
  | fingerprint
  | globalQueued
  | reservation (requestId : String)
  | queued (tenant : String)
  | running (tenant : String)
  | tokens (tenant : String)
  deriving DecidableEq, Repr

/-- The text of a field. -/
def AdmissionField.key : AdmissionField → String
  | .fingerprint => "config:fingerprint"
  | .globalQueued => "global:queued"
  | .reservation requestId => "reservation:" ++ requestId
  | .queued tenant => "tenant:" ++ tenant ++ ":queued"
  | .running tenant => "tenant:" ++ tenant ++ ":running"
  | .tokens tenant => "tenant:" ++ tenant ++ ":tokens"

namespace AdmissionField

/-- The first and the last character of a field's text. -/
def ends : AdmissionField → Char × Option Char
  | .fingerprint => ('c', some 't')
  | .globalQueued => ('g', some 'd')
  | .reservation requestId => ('r', some (requestId.toList.getLast?.getD ':'))
  | .queued _ => ('t', some 'd')
  | .running _ => ('t', some 'g')
  | .tokens _ => ('t', some 's')

theorem ends_key (f : AdmissionField) : f.key.toList.head? = some f.ends.1 ∧ f.key.toList.getLast? = f.ends.2 := by
  cases f <;> simp [key, ends, String.toList_append, List.getLast?_cons, List.getLast?_append]

/-- No two fields have one text, whatever the ids in them are. -/
theorem key_injective : Function.Injective key := by
  intro a b same
  have first : a.ends.1 = b.ends.1 := by
    have heads := a.ends_key.1
    rw [same, b.ends_key.1] at heads
    exact (Option.some.inj heads).symm
  have last : a.ends.2 = b.ends.2 := by rw [← a.ends_key.2, same, b.ends_key.2]
  have texts := congrArg String.toList same
  -- Fields of two kinds differ at an end; those of one kind have their fixed parts taken off.
  cases a <;> cases b <;> first | rfl | (simp [ends] at first; done) | (simp [ends] at last; done) | skip
  all_goals
    simp only [key, String.toList_append, List.append_cancel_left_eq, List.append_cancel_right_eq, List.append_assoc] at texts
    rw [String.toList_inj.mp texts]

end AdmissionField

namespace AdmissionHash

open HashScript AdmissionField

/-- `CONFIGURE_SCRIPT` -/
def configureScript (fingerprint : String) : HashScript SharedReservation String := do
  match ← hget (key .fingerprint) with
  | none => do
    hset (key .fingerprint) (.text fingerprint)
    pure "configured"
  | some current => pure (if current = .text fingerprint then "existing" else "conflict")

variable (numbers : ScriptNumbers)

/-- `cjson.encode(reservation)` -/
def encode (reservation : SharedReservation) : HashText SharedReservation :=
  .document { reservation with
    tokens := numbers.transcribed reservation.tokens
    concurrencyLimit := numbers.transcribed reservation.concurrencyLimit }

/-- `RESERVE_SCRIPT` -/
def reserveScript (requestId tenant : String) (tokens globalLimit queueLimit concurrencyLimit tokenLimit : Int) :
    HashScript SharedReservation String := do
  let globalQueued ← counter numbers (key .globalQueued)
  let queued ← counter numbers (key (.queued tenant))
  let running ← counter numbers (key (.running tenant))
  let reservedTokens ← counter numbers (key (.tokens tenant))
  if ← hexists (key (.reservation requestId)) then pure "already_admitted"
  else if ← reaches globalQueued (numbers.nearest globalLimit) then pure "global_queue_full"
  else if ← reaches queued (numbers.nearest queueLimit) then pure "tenant_queue_full"
  else if ← reaches running (numbers.nearest concurrencyLimit) then pure "tenant_concurrency_limit"
  else if ← exceeds numbers reservedTokens (numbers.nearest tokens) (numbers.nearest tokenLimit) then
    pure "tenant_token_quota"
  else do
    hincrby numbers (key .globalQueued) 1
    hincrby numbers (key (.queued tenant)) 1
    hincrby numbers (key (.tokens tenant)) (numbers.nearest tokens)
    hset (key (.reservation requestId))
      (encode numbers ⟨tenant, numbers.nearest tokens, false, numbers.nearest concurrencyLimit⟩)
    pure "admitted"

/-- `MARK_RUNNING_SCRIPT` -/
def markRunningScript (requestId : String) : HashScript SharedReservation String := do
  match ← hget (key (.reservation requestId)) with
  | none => pure "missing"
  | some encoded => do
    let reservation ← decode encoded
    if reservation.running then pure "already_running"
    else do
      let running ← counter numbers (key (.running reservation.tenant))
      if ← reaches running reservation.concurrencyLimit then pure "tenant_concurrency_limit"
      else do
        hincrby numbers (key .globalQueued) (-1)
        hincrby numbers (key (.queued reservation.tenant)) (-1)
        hincrby numbers (key (.running reservation.tenant)) 1
        hset (key (.reservation requestId)) (encode numbers { reservation with running := true })
        pure "running"

/-- `RELEASE_SCRIPT` -/
def releaseScript (requestId : String) : HashScript SharedReservation Nat := do
  match ← hget (key (.reservation requestId)) with
  | none => pure 0
  | some encoded => do
    let reservation ← decode encoded
    if reservation.running then hincrby numbers (key (.running reservation.tenant)) (-1)
    else do
      hincrby numbers (key .globalQueued) (-1)
      hincrby numbers (key (.queued reservation.tenant)) (-1)
    hincrby numbers (key (.tokens reservation.tenant)) (-reservation.tokens)
    hdel (key (.reservation requestId))
    pure 1

/-- `SNAPSHOT_SCRIPT` -/
def snapshotScript (tenant : String) :
    HashScript SharedReservation (HashText SharedReservation × HashText SharedReservation × HashText SharedReservation) := do
  let queued ← hget (key (.queued tenant))
  let running ← hget (key (.running tenant))
  let tokens ← hget (key (.tokens tenant))
  pure (queued.getD (.decimal 0), running.getD (.decimal 0), tokens.getD (.decimal 0))

end AdmissionHash

/-- The hashes of a server, by their state keys. A hash that is missing is empty. -/
abbrev AdmissionServer := Dict String AdmissionHash

namespace AdmissionServer

/-- The hash under a state key. -/
def hashAt (server : AdmissionServer) (stateKey : String) : AdmissionHash := (server.get? stateKey).getD .empty

/-- The exception of a client whose script ended early. -/
def responseError : ScriptError → Raised
  | .notAnInteger => ⟨.other "ResponseError" false, "value is not an integer or out of range"⟩
  | .overflow => ⟨.other "ResponseError" false, "increment or decrement would overflow"⟩
  | .comparedNil => ⟨.other "ResponseError" false, "attempt to compare nil with number"⟩
  | .addedNil => ⟨.other "ResponseError" false, "attempt to perform arithmetic on a nil value"⟩
  | .notADocument => ⟨.other "ResponseError" false, "Expected value but found invalid token"⟩

/-- `client.eval(script, 1, state_key, *arguments)`: the server runs one script at a time. -/
def eval {α : Type} (stateKey : String) (script : HashScript SharedReservation α) : Attempt Raised AdmissionServer α :=
  fun server =>
    ((script (server.hashAt stateKey)).1.mapError responseError,
      server.insert stateKey (script (server.hashAt stateKey)).2)

end AdmissionServer

/-- What the fingerprint of a configuration is taken of. -/
structure AdmissionConfiguration where
  globalQueueCapacity : Nat
  /-- Each tenant's id, `max_concurrent_requests`, `max_queued_requests` and `token_quota`. -/
  tenants : List (String × Nat × Nat × Nat)
  deriving DecidableEq, Repr

structure RedisAdmissionController where
  tenants : Dict String TenantLimits
  globalQueueCapacity : Nat
  stateKey : String
  positive : 0 < globalQueueCapacity

namespace RedisAdmissionController

open AdmissionServer AdmissionHash

def configuration (tenants : List TenantLimits) (globalQueueCapacity : Nat) : AdmissionConfiguration where
  globalQueueCapacity := globalQueueCapacity
  tenants := (tenants.insertionSort fun a b => a.tenantId ≤ b.tenantId).map fun tenant =>
    (tenant.tenantId, tenant.maxConcurrentRequests, tenant.maxQueuedRequests, tenant.tokenQuota)

/-- Whether a namespace is neither empty nor holds a brace. -/
def validNamespace (name : String) : Bool :=
  name ≠ "" && name.toList.all fun c => c ≠ '\x7b' && c ≠ '\x7d'

def stateKeyOf (name : String) : String := "llm:admission:\x7b" ++ name ++ "\x7d:state"

/-- A controller is built where its configuration is the first of its namespace, or the same as that one. -/
def init (fingerprint : AdmissionConfiguration → String) (tenants : List TenantLimits) (globalQueueCapacity : Int)
    (name : String) : Attempt Raised AdmissionServer RedisAdmissionController :=
  -- The capacity is positive where it is not cut off at zero.
  if positive : 0 < globalQueueCapacity.toNat then
    if validNamespace name = false then .raise (valueError "admission namespace is invalid")
    else if (TenantLimits.table id tenants).size ≠ tenants.length then
      .raise (valueError "tenant identifiers must be unique")
    else do
      let configured ← eval (stateKeyOf name)
        (configureScript (fingerprint (configuration tenants globalQueueCapacity.toNat)))
      if configured = "configured" ∨ configured = "existing" then
        pure {
          tenants := TenantLimits.table id tenants
          globalQueueCapacity := globalQueueCapacity.toNat
          stateKey := stateKeyOf name
          positive := positive }
      else .raise (valueError "shared admission configuration conflicts with existing state")
  else .raise (valueError "global queue capacity must be positive")

/-- What `decide` checks before it asks the server. -/
def preCheck (c : RedisAdmissionController) (r : RequestRecord) (model : Option ModelDefinition)
    (workers : List WorkerState) (now : Seconds) : Except AdmissionDecision TenantLimits :=
  match c.tenants.get? r.tenantId, model with
  | none, _ => .error ⟨false, "unknown_tenant", "tenant is not configured"⟩
  | some _, none => .error ⟨false, "unsupported_model", "model is not registered"⟩
  | some tenant, some model =>
    if model.maxContextTokens < r.estimatedTokens then
      .error ⟨false, "context_window_exceeded", "context is too large"⟩
    else if r.deadline.expired now then .error ⟨false, "deadline_exceeded", "deadline has expired"⟩
    else if workers.all fun w => w.healthStatus ≠ .healthy ∨ w.draining = true then
      .error ⟨false, "no_healthy_capacity", "no healthy worker"⟩
    else .ok tenant

def reasons : List (String × String) := [
  ("admitted", "request capacity reserved"),
  ("already_admitted", "reservation already exists"),
  ("global_queue_full", "global queue is full"),
  ("tenant_queue_full", "tenant queue is full"),
  ("tenant_concurrency_limit", "tenant concurrency limit reached"),
  ("tenant_token_quota", "tenant token quota exceeded")]

variable (numbers : ScriptNumbers)

def decide (c : RedisAdmissionController) (r : RequestRecord) (model : Option ModelDefinition)
    (workers : List WorkerState) (now : Seconds) : Attempt Raised AdmissionServer AdmissionDecision :=
  match c.preCheck r model workers now with
  | .error refusal => pure refusal
  | .ok tenant => do
    let result ← eval c.stateKey (reserveScript numbers r.requestId tenant.tenantId r.estimatedTokens
      c.globalQueueCapacity tenant.maxQueuedRequests tenant.maxConcurrentRequests tenant.tokenQuota)
    match reasons.lookup result with
    | none => .raise (runtimeError s!"unexpected shared admission result: {result}")
    | some reason => pure ⟨["admitted", "already_admitted"].contains result, result, reason⟩

def markRunning (c : RedisAdmissionController) (requestId : String) : Attempt Raised AdmissionServer Unit := do
  let result ← eval c.stateKey (markRunningScript numbers requestId)
  if result = "missing" then .raise (keyError requestId)
  else if result = "tenant_concurrency_limit" then .raise (runtimeError "tenant concurrency limit reached")
  else if ["running", "already_running"].contains result then pure ()
  else .raise (runtimeError s!"unexpected shared admission result: {result}")

def release (c : RedisAdmissionController) (requestId : String) : Attempt Raised AdmissionServer Unit := do
  let _ ← eval c.stateKey (releaseScript numbers requestId)
  pure ()

/-- `int(_text(value))` -/
def asInt : HashText SharedReservation → Except Raised Int
  | .decimal n => .ok n
  | _ => .error (valueError "invalid literal for int() with base 10")

def snapshot (c : RedisAdmissionController) (tenantId : String) : Attempt Raised AdmissionServer AdmissionSnapshot := do
  if c.tenants.contains tenantId then do
    let raw ← eval c.stateKey (snapshotScript tenantId)
    let queued ← .answer (asInt raw.1)
    let running ← .answer (asInt raw.2.1)
    let tokens ← .answer (asInt raw.2.2)
    pure ⟨queued, running, tokens⟩
  else .raise (keyError tenantId)

def perform (c : RedisAdmissionController) : AdmissionCall → Attempt Raised AdmissionServer AdmissionAnswer
  | .decide r model workers now => do
    let decision ← c.decide numbers r model workers now
    pure (.decided decision)
  | .markRunning requestId => do
    c.markRunning numbers requestId
    pure .done
  | .release requestId => do
    c.release numbers requestId
    pure .done
  | .snapshot tenantId => do
    let snapshot ← c.snapshot tenantId
    pure (.shown snapshot)

end RedisAdmissionController

/-- Several controllers and the server that they share. -/
structure SharedAdmission where
  server : AdmissionServer
  controllers : List RedisAdmissionController
  /-- The calls so far, with the state keys of the controllers that made them. -/
  calls : List (String × AdmissionCall)

inductive SharedAction
  | connect (tenants : List TenantLimits) (globalQueueCapacity : Int) (name : String)
  | call (controller : Nat) (call : AdmissionCall)

namespace SharedAdmission

def start : SharedAdmission := ⟨.empty, [], []⟩

variable (numbers : ScriptNumbers) (fingerprint : AdmissionConfiguration → String)

/-- One controller is built, or one controller runs one of its operations. Each runs at most one
script, so that the runs of the scripts are all that can come between two of them. -/
def step (s : SharedAdmission) : SharedAction → SharedAdmission
  | .connect tenants capacity name =>
    match RedisAdmissionController.init fingerprint tenants capacity name s.server with
    | (.ok c, server) => { s with server := server, controllers := s.controllers ++ [c] }
    | (.error _, server) => { s with server := server }
  | .call i call =>
    match s.controllers[i]? with
    | none => s
    | some c => { s with
        server := (c.perform numbers call s.server).2
        calls := s.calls ++ [(c.stateKey, call)] }

def run (s : SharedAdmission) (actions : List SharedAction) : SharedAdmission :=
  actions.foldl (fun s action => s.step numbers fingerprint action) s

/-- The calls that reached the hash of a state key. -/
def callsOn (s : SharedAdmission) (stateKey : String) : List AdmissionCall :=
  (s.calls.filter fun entry => entry.1 = stateKey).map Prod.snd

end SharedAdmission

end ServingPlatform
