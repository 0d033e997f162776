import Mathlib.Data.Rat.Defs
import ServingPlatform.Library.Dict
import ServingPlatform.TokenTypes

namespace ServingPlatform

inductive RequestState
  | received
  | validated
  | admitted
  | queued
  | assigned
  | prefill
  | decode
  | running
  | streaming
  | completed
  | rejected
  | timedOut
  | cancelled
  | failed
  deriving DecidableEq, Repr

namespace RequestState

def value : RequestState → String
  | received => "received"
  | validated => "validated"
  | admitted => "admitted"
  | queued => "queued"
  | assigned => "assigned"
  | prefill => "prefill"
  | decode => "decode"
  | running => "running"
  | streaming => "streaming"
  | completed => "completed"
  | rejected => "rejected"
  | timedOut => "timed_out"
  | cancelled => "cancelled"
  | failed => "failed"

/-- `TERMINAL_REQUEST_STATES`. -/
def isTerminal : RequestState → Bool
  | completed | rejected | timedOut | cancelled | failed => true
  | _ => false

/-- `ALLOWED_REQUEST_TRANSITIONS`. -/
def allowed : RequestState → List RequestState
  | received => [validated, rejected, cancelled]
  | validated => [admitted, rejected, timedOut, cancelled]
  | admitted => [queued, assigned, rejected, timedOut, cancelled]
  | queued => [assigned, prefill, running, rejected, timedOut, cancelled, failed]
  | assigned => [queued, prefill, running, timedOut, cancelled, failed]
  | running => [streaming, completed, timedOut, cancelled, failed]
  | prefill => [decode, completed, timedOut, cancelled, failed]
  | decode => [completed, timedOut, cancelled, failed]
  | streaming => [completed, timedOut, cancelled, failed]
  | completed | rejected | timedOut | cancelled | failed => []

theorem allowed_of_terminal {state : RequestState} (terminal : state.isTerminal = true) : state.allowed = [] := by
  cases state <;> first | rfl | cases terminal

end RequestState

/-- A point in time, or `float("inf")`. -/
inductive Deadline
  | finite (at_ : Seconds)
  | infinite
  deriving DecidableEq, Repr

def Deadline.expired (deadline : Deadline) (now : Seconds) : Bool :=
  match deadline with
  | .finite at_ => at_ ≤ now
  | .infinite => false

/-- Whether `str.strip` leaves nothing. -/
def isBlank (prompt : String) : Bool :=
  prompt.toList.all fun c =>
    let code := c.toNat
    (9 ≤ code && code ≤ 13) || (28 ≤ code && code ≤ 32) || code = 133 || code = 160 || code = 5760 ||
      (8192 ≤ code && code ≤ 8202) || code = 8232 || code = 8233 || code = 8239 || code = 8287 || code = 12288

/-- A request, with the checks of `__post_init__` as fields; its status always has a timestamp. -/
structure RequestRecord where
  requestId : String
  tenantId : String
  modelId : String
  prompt : String
  promptTokens : Nat
  maxNewTokens : Nat
  priority : Int
  deadline : Deadline
  stream : Bool
  temperature : Rat
  createdAt : Seconds
  status : RequestState
  assignedWorkerId : Option String
  attemptCount : Nat
  retryReasons : List String
  payloadAvailable : Bool
  transitionTimestamps : Dict RequestState Seconds
  identified : requestId ≠ "" ∧ tenantId ≠ "" ∧ modelId ≠ ""
  prompted : isBlank prompt = false
  positive : 0 < maxNewTokens
  temperate : 0 ≤ temperature
  stamped : transitionTimestamps.contains status = true

namespace RequestRecord

def terminal (r : RequestRecord) : Bool := r.status.isTerminal

def estimatedTokens (r : RequestRecord) : Nat := r.promptTokens + r.maxNewTokens

/-- The record in a state it may take, entered at a time. -/
def enter (r : RequestRecord) (target : RequestState) (at_ : Seconds) : RequestRecord :=
  { r with
    status := target
    transitionTimestamps := r.transitionTimestamps.insert target at_
    stamped := by rw [Dict.contains, Dict.get?_insert_self]; rfl }

def transition (r : RequestRecord) (target : RequestState) (at_ : Seconds) : Except Raised RequestRecord :=
  if target ∈ r.status.allowed then .ok (r.enter target at_)
  else .error ⟨.invalidStateTransition, s!"cannot transition {r.status.value} to {target.value}"⟩

/-- Whether a transition to the state was ever recorded. -/
def reached (r : RequestRecord) (state : RequestState) : Bool := r.transitionTimestamps.contains state

def assign (r : RequestRecord) (worker : Option String) : RequestRecord := { r with assignedWorkerId := worker }

def countAttempt (r : RequestRecord) : RequestRecord := { r with attemptCount := r.attemptCount + 1 }

def addReason (r : RequestRecord) (reason : String) : RequestRecord :=
  { r with retryReasons := r.retryReasons ++ [reason] }

section

variable {r : RequestRecord} {target : RequestState} {at_ : Seconds}

@[simp] theorem enter_status : (r.enter target at_).status = target := rfl

@[simp] theorem enter_requestId : (r.enter target at_).requestId = r.requestId := rfl

@[simp] theorem enter_tenantId : (r.enter target at_).tenantId = r.tenantId := rfl

@[simp] theorem enter_assignedWorkerId : (r.enter target at_).assignedWorkerId = r.assignedWorkerId := rfl

@[simp] theorem enter_attemptCount : (r.enter target at_).attemptCount = r.attemptCount := rfl

@[simp] theorem enter_deadline : (r.enter target at_).deadline = r.deadline := rfl

@[simp] theorem enter_modelId : (r.enter target at_).modelId = r.modelId := rfl

@[simp] theorem enter_estimatedTokens : (r.enter target at_).estimatedTokens = r.estimatedTokens := rfl

theorem transition_ok (allowed : target ∈ r.status.allowed) : r.transition target at_ = .ok (r.enter target at_) :=
  if_pos allowed

theorem transition_cases (r : RequestRecord) (target : RequestState) (at_ : Seconds) :
    (target ∈ r.status.allowed ∧ r.transition target at_ = .ok (r.enter target at_)) ∨
      (target ∉ r.status.allowed ∧ ∃ raised, r.transition target at_ = .error raised ∧
        raised.kind = .invalidStateTransition) := by
  by_cases allowed : target ∈ r.status.allowed
  · exact Or.inl ⟨allowed, transition_ok allowed⟩
  · exact Or.inr ⟨allowed, _, if_neg allowed, rfl⟩

end

end RequestRecord

/-- The identity of a request object. -/
abbrev ObjectId := Nat

/-- The request objects of a process; components share them by reference. -/
abbrev Objects := ObjectId → RequestRecord

def Objects.put (objects : Objects) (i : ObjectId) (r : RequestRecord) : Objects :=
  fun j => if j = i then r else objects j

@[simp] theorem Objects.put_self {objects : Objects} {i : ObjectId} {r : RequestRecord} : objects.put i r i = r :=
  if_pos rfl

theorem Objects.put_of_ne {objects : Objects} {i j : ObjectId} {r : RequestRecord} (differ : j ≠ i) :
    objects.put i r j = objects j :=
  if_neg differ

@[simp] theorem Objects.put_put {objects : Objects} {i : ObjectId} {r r' : RequestRecord} :
    (objects.put i r).put i r' = objects.put i r' := by
  funext j
  unfold Objects.put
  split <;> rfl

/-- The in-memory request store. It keeps copies, each under its request id. -/
structure RequestStore where
  requests : Dict String RequestRecord
  keyed : ∀ requestId r, requests.get? requestId = some r → r.requestId = requestId

namespace RequestStore

def get? (store : RequestStore) (requestId : String) : Option RequestRecord := store.requests.get? requestId

def contains (store : RequestStore) (requestId : String) : Bool := store.requests.contains requestId

def insert (store : RequestStore) (r : RequestRecord) : RequestStore where
  requests := store.requests.insert r.requestId r
  keyed := by
    intro requestId other found
    rw [Dict.get?_insert] at found
    split at found
    · rename_i same
      cases found
      exact same.symm
    · exact store.keyed requestId other found

def create (store : RequestStore) (r : RequestRecord) : Except Raised Unit × RequestStore :=
  if store.contains r.requestId then (.error (valueError s!"request already exists: {r.requestId}"), store)
  else (.ok (), store.insert r)

def save (store : RequestStore) (r : RequestRecord) : Except Raised Unit × RequestStore :=
  if store.contains r.requestId then (.ok (), store.insert r)
  else (.error (keyError s!"request does not exist: {r.requestId}"), store)

def empty : RequestStore := ⟨.empty, fun _ _ found => by cases found⟩

variable {store : RequestStore} {r : RequestRecord} {requestId : String}

theorem get?_insert : (store.insert r).get? requestId = if requestId = r.requestId then some r else store.get? requestId :=
  Dict.get?_insert

@[simp] theorem get?_insert_self : (store.insert r).get? r.requestId = some r := Dict.get?_insert_self

theorem contains_insert_self : (store.insert r).contains r.requestId = true := by
  rw [contains, insert, Dict.contains, Dict.get?_insert_self]
  rfl

theorem contains_iff : store.contains requestId = true ↔ ∃ r, store.get? requestId = some r :=
  Option.isSome_iff_exists

/-- What is stored stays so. -/
theorem contains_insert (known : store.contains requestId = true) : (store.insert r).contains requestId = true := by
  obtain ⟨first, found⟩ := contains_iff.mp known
  refine contains_iff.mpr ?_
  rw [get?_insert]
  split
  · exact ⟨r, rfl⟩
  · exact ⟨first, found⟩

end RequestStore

end ServingPlatform
