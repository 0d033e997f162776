import Mathlib.Algebra.Order.Round
import Mathlib.Data.Rat.Floor
import ServingPlatform.Errors
import ServingPlatform.Library.Binary64
import ServingPlatform.Library.ExpiringKey

namespace ServingPlatform

/-- A client's lease on a shared responsibility. -/
structure RedisLease where
  key : String
  ttlMs : Nat
  ownerToken : String
  positive : 0 < ttlMs
  deriving DecidableEq

/-- The methods of a lease; each is one command or script of the server. -/
inductive LeaseCall
  | acquire
  | renew
  | release
  | isOwner
  deriving DecidableEq, Repr

namespace RedisLease

/-- Python's `round` of a number of milliseconds. -/
def milliseconds (ttlSeconds : Rat) : Nat :=
  Binary64.roundHalfEven (ttlSeconds * 1000).num.toNat (ttlSeconds * 1000).den

/-- `uuid` is the token that a lease without one is given. -/
def init (name : String) (ttlSeconds : Rat) (ownerToken : Option String) (uuid : String) : Except Raised RedisLease :=
  if name = "" ∨ '{' ∈ name.toList ∨ '}' ∈ name.toList then .error (valueError "lease name is invalid")
  else if ttlSeconds ≤ 0 then .error (valueError "lease TTL must be positive")
  else .ok {
    key := "llm:coordination:\x7b" ++ name ++ "\x7d:lease"
    ttlMs := max 1 (milliseconds ttlSeconds)
    ownerToken := if (ownerToken.getD "") = "" then uuid else ownerToken.getD ""
    positive := by omega }

section Calls

variable (l : RedisLease) (k : ExpiringKey String) (now : Nat)

def acquire : Bool × ExpiringKey String := k.setIfAbsent now l.ownerToken l.ttlMs

def renew : Bool × ExpiringKey String := k.expireIf now l.ownerToken l.ttlMs

def release : Bool × ExpiringKey String := k.deleteIf now l.ownerToken

def isOwner : Bool := k.get now = some l.ownerToken

def perform : LeaseCall → Bool × ExpiringKey String
  | .acquire => l.acquire k now
  | .renew => l.renew k now
  | .release => l.release k now
  | .isOwner => (l.isOwner k now, k)

end Calls

variable {l : RedisLease} {k : ExpiringKey String} {now : Nat}

theorem isOwner_iff : l.isOwner k now = true ↔ k.get now = some l.ownerToken := decide_eq_true_iff

/-- A client's call leaves another's unexpired lease as it is. -/
theorem perform_of_other {token : String} (found : k.get now = some token) (other : l.ownerToken ≠ token)
    (call : LeaseCall) : l.perform k now call = (false, k) := by
  have differ : k.get now ≠ some l.ownerToken := by
    rw [found]
    exact fun same => other (Option.some.inj same).symm
  cases call with
  | acquire => exact ExpiringKey.setIfAbsent_of_found found
  | renew => exact ExpiringKey.expireIf_of_ne differ
  | release => exact ExpiringKey.deleteIf_of_ne differ
  | isOwner =>
    have refused : l.isOwner k now = false := decide_eq_false differ
    exact Prod.ext refused rfl

end RedisLease

/-- The clients of one lease key; each has its own token. -/
structure LeaseClients where
  leases : List RedisLease
  distinct : (leases.map RedisLease.ownerToken).Nodup

theorem LeaseClients.eq_of_token (clients : LeaseClients) {i j : Nat} {a b : RedisLease}
    (first : clients.leases[i]? = some a) (second : clients.leases[j]? = some b) (same : a.ownerToken = b.ownerToken) :
    i = j := by
  have bound : i < (clients.leases.map RedisLease.ownerToken).length := by
    rw [List.length_map]
    exact (List.getElem?_eq_some_iff.mp first).1
  refine (List.getElem?_inj bound clients.distinct).mp ?_
  rw [List.getElem?_map, List.getElem?_map, first, second, Option.map_some, Option.map_some, same]

/-- The server's key, and the calls that clients have made: those that did not
reach the server yet, and what the others were answered. -/
structure LeaseSystem where
  key : ExpiringKey String
  now : Nat
  sent : List (Nat × LeaseCall)
  answered : List (Nat × LeaseCall × Bool)

/-- A client makes a call, the server executes one, or time passes. -/
inductive LeaseEvent
  | send (client : Nat) (call : LeaseCall)
  | execute (client : Nat) (call : LeaseCall)
  | tick (duration : Nat)
  deriving DecidableEq, Repr

namespace LeaseSystem

def start : LeaseSystem := ⟨.empty, 0, [], []⟩

/-- The server executes a call that is under way. -/
def execute (clients : LeaseClients) (s : LeaseSystem) (client : Nat) (call : LeaseCall) : LeaseSystem :=
  match clients.leases[client]? with
  | none => s
  | some l =>
    if (client, call) ∈ s.sent then
      let (answer, key) := l.perform s.key s.now call
      { s with
        key := key
        sent := s.sent.erase (client, call)
        answered := s.answered ++ [(client, call, answer)] }
    else s

def step (clients : LeaseClients) (s : LeaseSystem) : LeaseEvent → LeaseSystem
  | .send client call => { s with sent := s.sent ++ [(client, call)] }
  | .execute client call => s.execute clients client call
  | .tick duration => { s with now := s.now + duration }

def run (clients : LeaseClients) (s : LeaseSystem) (events : List LeaseEvent) : LeaseSystem :=
  events.foldl (step clients) s

variable {clients : LeaseClients} {s : LeaseSystem}

theorem execute_cases (clients : LeaseClients) (s : LeaseSystem) (client : Nat) (call : LeaseCall) :
    execute clients s client call = s ∨
    ∃ l, clients.leases[client]? = some l ∧ (client, call) ∈ s.sent ∧ execute clients s client call =
      { s with
        key := (l.perform s.key s.now call).2
        sent := s.sent.erase (client, call)
        answered := s.answered ++ [(client, call, (l.perform s.key s.now call).1)] } := by
  unfold execute
  cases known : clients.leases[client]? with
  | none => exact Or.inl rfl
  | some l =>
    by_cases sent : (client, call) ∈ s.sent
    · exact Or.inr ⟨l, rfl, sent, if_pos sent⟩
    · exact Or.inl (if_neg sent)

theorem now_step (event : LeaseEvent) : s.now ≤ (step clients s event).now := by
  cases event with
  | send client call => exact Nat.le_refl _
  | tick duration => exact Nat.le_add_right _ _
  | execute client call =>
    rcases execute_cases clients s client call with same | ⟨l, -, -, executed⟩
    · exact Nat.le_of_eq (congrArg now same).symm
    · exact Nat.le_of_eq (congrArg now executed).symm

theorem now_run (events : List LeaseEvent) : s.now ≤ (run clients s events).now := by
  induction events generalizing s with
  | nil => exact Nat.le_refl _
  | cons event rest ih => exact Nat.le_trans (now_step event) ih

/-- Only its owner's calls change an unexpired lease. -/
theorem key_step {owner : Nat} {l : RedisLease} (owned : clients.leases[owner]? = some l)
    (held : s.key.get s.now = some l.ownerToken) {event : LeaseEvent} (others : ∀ call, event ≠ .execute owner call) :
    (step clients s event).key = s.key := by
  cases event with
  | send client call => rfl
  | tick duration => rfl
  | execute client call =>
    rcases execute_cases clients s client call with same | ⟨other, known, -, executed⟩
    · exact congrArg key same
    have differ : other.ownerToken ≠ l.ownerToken := by
      intro same
      have equal := clients.eq_of_token known owned same
      subst equal
      exact others call rfl
    have kept := RedisLease.perform_of_other held differ call
    exact (congrArg key executed).trans (congrArg Prod.snd kept)

/-- As long as the lease has not expired, the calls of all other clients leave it as it is. -/
theorem key_run {owner : Nat} {l : RedisLease} (owned : clients.leases[owner]? = some l) {events : List LeaseEvent}
    (others : ∀ event ∈ events, ∀ call, event ≠ .execute owner call)
    (held : s.key.get (run clients s events).now = some l.ownerToken) : (run clients s events).key = s.key := by
  induction events generalizing s with
  | nil => rfl
  | cons event rest ih =>
    have now := ExpiringKey.get_of_later held ((now_step event).trans (now_run rest))
    have kept := key_step owned now (others event List.mem_cons_self)
    have rest := ih (s := step clients s event) (fun e member => others e (List.mem_cons_of_mem _ member))
      (by rw [kept]; exact held)
    exact rest.trans kept

/-- In every state that calls and time lead to, at most one client owns the
lease; who does not own it cannot change it, also with calls made earlier. -/
theorem ownership_safe (clients : LeaseClients) (events : List LeaseEvent) :
    (∀ (i j : Nat) (a b : RedisLease), clients.leases[i]? = some a → clients.leases[j]? = some b →
      a.isOwner (run clients start events).key (run clients start events).now = true →
      b.isOwner (run clients start events).key (run clients start events).now = true → i = j) ∧
    (∀ l ∈ clients.leases,
      (l.acquire (run clients start events).key (run clients start events).now).1 = true →
      (run clients start events).key.get (run clients start events).now = none) ∧
    (∀ l ∈ clients.leases, l.isOwner (run clients start events).key (run clients start events).now = false →
      l.renew (run clients start events).key (run clients start events).now =
        (false, (run clients start events).key) ∧
      l.release (run clients start events).key (run clients start events).now =
        (false, (run clients start events).key)) ∧
    ∀ (owner : Nat) (l : RedisLease) (later : List LeaseEvent), clients.leases[owner]? = some l →
      (∀ event ∈ later, ∀ call, event ≠ .execute owner call) →
      (run clients start events).key.get (run clients start (events ++ later)).now = some l.ownerToken →
      (run clients start (events ++ later)).key = (run clients start events).key := by
  refine ⟨?_, ?_, ?_, ?_⟩
  · intro i j a b first second owns owns'
    have same := (RedisLease.isOwner_iff.mp owns).symm.trans (RedisLease.isOwner_iff.mp owns')
    exact clients.eq_of_token first second (Option.some.inj same)
  · intro l _ succeeded
    exact ExpiringKey.setIfAbsent_eq_true_iff.mp succeeded
  · intro l _ refused
    have differ := of_decide_eq_false refused
    exact ⟨ExpiringKey.expireIf_of_ne differ, ExpiringKey.deleteIf_of_ne differ⟩
  · intro owner l later owned others held
    have joined : run clients start (events ++ later) = run clients (run clients start events) later :=
      List.foldl_append
    rw [joined] at held ⊢
    exact key_run owned others held

namespace Sample

def first : RedisLease := ⟨"llm:coordination:\x7brecovery\x7d:lease", 1000, "first", by decide⟩

def second : RedisLease := { first with ownerToken := "second" }

def pair : LeaseClients := ⟨[first, second], by decide⟩

/-- The second client takes over while a renewal of the first is under way. -/
def takeover : List LeaseEvent :=
  [.send 0 .acquire, .execute 0 .acquire, .send 0 .renew, .tick 1000, .send 1 .acquire, .execute 1 .acquire]

end Sample

open Sample in
theorem ownership_safe_delayed : (run pair start (takeover ++ [.execute 0 .renew, .tick 999])).key =
    (run pair start takeover).key := by
  have others : ∀ event ∈ [LeaseEvent.execute 0 .renew, .tick 999], ∀ call, event ≠ .execute 1 call := by simp
  exact (ownership_safe pair takeover).2.2.2 1 second _ rfl others rfl

end LeaseSystem

end ServingPlatform
