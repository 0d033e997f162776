import Mathlib.Algebra.BigOperators.Ring.Finset
import ServingPlatform.Admission.SharedCounters

namespace ServingPlatform

open AdmissionField AdmissionHash AdmissionServer

namespace AdmissionServer

variable {server : AdmissionServer} {stateKey other : String} {hash hash' : AdmissionHash} {α : Type}
  {script : HashScript SharedReservation α} {a : α}

@[simp] theorem hashAt_insert : hashAt (server.insert stateKey hash) other =
    if other = stateKey then hash else server.hashAt other := by
  unfold hashAt
  rw [Dict.get?_insert]
  split <;> rfl

theorem eval_run (run : script (server.hashAt stateKey) = (.ok a, hash)) :
    eval stateKey script server = (.ok a, server.insert stateKey hash) := by
  rw [eval, run]
  rfl

end AdmissionServer

namespace RedisAdmissionController

variable {numbers : ScriptNumbers} {c : RedisAdmissionController} {m : TenantAdmissionController} {server : AdmissionServer}
  {r : RequestRecord} {model : Option ModelDefinition} {workers : List WorkerState} {now : Seconds}
  {refusal : AdmissionDecision} {tenant : TenantLimits} {requestId : String}

/-- The controller with the same limits that keeps its counters in memory. -/
def inMemory (c : RedisAdmissionController) : TenantAdmissionController where
  tenants := c.tenants
  globalQueueCapacity := c.globalQueueCapacity
  queued := .empty
  running := .empty
  tokens := .empty
  reserved := .empty
  positive := c.positive

/-- A controller has the limits of one in memory. -/
structure Agrees (c : RedisAdmissionController) (m : TenantAdmissionController) : Prop where
  capacity : c.globalQueueCapacity = m.globalQueueCapacity
  tenants : ∀ id, (c.tenants.get? id).map TenantLimits.admission = (m.tenants.get? id).map TenantLimits.admission

/-- What is refused before the server is asked is refused in memory, for the same reason. -/
theorem decision_of_refusal (agrees : c.Agrees m) (refused : c.preCheck r model workers now = .error refusal) :
    m.decision r model workers now = refusal ∧ refusal.admitted = false := by
  unfold preCheck at refused
  unfold TenantAdmissionController.decision
  rcases TenantAdmissionController.limits_cases agrees.tenants r.tenantId with ⟨absent, absent'⟩ |
    ⟨limits, limits', found, found', -⟩
  · rw [absent] at refused
    cases refused
    rw [absent']
    exact ⟨rfl, rfl⟩
  rw [found] at refused
  rw [found']
  cases model with
  | none =>
    cases refused
    exact ⟨rfl, rfl⟩
  | some model =>
    dsimp only at refused ⊢
    split at refused
    · rename_i long
      cases refused
      rw [if_pos long]
      exact ⟨rfl, rfl⟩
    rename_i short
    rw [if_neg short]
    split at refused
    · rename_i late
      cases refused
      rw [if_pos late]
      exact ⟨rfl, rfl⟩
    rename_i early
    rw [if_neg early]
    split at refused
    · rename_i down
      cases refused
      rw [if_pos down]
      exact ⟨rfl, rfl⟩
    · cases refused

/-- What passes is decided by the limits alone. -/
theorem decision_of_passed (agrees : c.Agrees m) (passed : c.preCheck r model workers now = .ok tenant) :
    ∃ limits, m.tenants.get? r.tenantId = some limits ∧ tenant.tenantId = limits.tenantId ∧
      tenant.maxConcurrentRequests = limits.maxConcurrentRequests ∧ tenant.maxQueuedRequests = limits.maxQueuedRequests ∧
      tenant.tokenQuota = limits.tokenQuota ∧ m.decision r model workers now = m.room limits r := by
  unfold preCheck at passed
  unfold TenantAdmissionController.decision
  rcases TenantAdmissionController.limits_cases agrees.tenants r.tenantId with ⟨absent, absent'⟩ |
    ⟨limits, limits', found, found', same⟩
  · rw [absent] at passed
    cases passed
  rw [found] at passed
  rw [found']
  cases model with
  | none => cases passed
  | some model =>
    dsimp only at passed ⊢
    split at passed
    · cases passed
    rename_i short
    split at passed
    · cases passed
    rename_i early
    split at passed
    · cases passed
    rename_i up
    cases passed
    rw [if_neg short, if_neg early, if_neg up]
    exact ⟨limits', rfl, same.1, same.2.1, same.2.2.1, same.2.2.2, rfl⟩

/-- What a controller answers where the hash stands for the state `m`: what the one in memory
answers, except that a request that is refused before the server is asked is refused also where
it has a reservation, and that the counters of a tenant that is not configured are not shown. -/
def answer (c : RedisAdmissionController) (m : TenantAdmissionController) (call : AdmissionCall) :
    Except Raised AdmissionAnswer :=
  match call with
  | .decide r model workers now =>
    match c.preCheck r model workers now with
    | .error refusal => .ok (.decided refusal)
    | .ok _ => (m.perform call).1
  | .snapshot tenantId => if c.tenants.contains tenantId then (m.perform call).1 else .error (keyError tenantId)
  | _ => (m.perform call).1

/-- The outcome of a call on the hash under the controller's key: the hash stands for what the call
makes of the state in memory, and nothing else has changed. -/
structure Performed (c : RedisAdmissionController) (server after : AdmissionServer) (m' : TenantAdmissionController) :
    Prop where
  represents : Represents (after.hashAt c.stateKey) m'
  others : ∀ k, k ≠ c.stateKey → after.hashAt k = server.hashAt k
  fingerprint : (after.hashAt c.stateKey).get? (key .fingerprint) = (server.hashAt c.stateKey).get? (key .fingerprint)

theorem Performed.same (rep : Represents (server.hashAt c.stateKey) m) : Performed c server server m :=
  ⟨rep, fun _ _ => rfl, rfl⟩

theorem Performed.insert {hash : AdmissionHash} (rep : Represents hash m)
    (kept : hash.get? (key .fingerprint) = (server.hashAt c.stateKey).get? (key .fingerprint)) :
    Performed c server (server.insert c.stateKey hash) m where
  represents := by rwa [hashAt_insert, if_pos rfl]
  others := fun k differ => by rw [hashAt_insert, if_neg differ]
  fingerprint := by rwa [hashAt_insert, if_pos rfl]

section Answers

variable {call : AdmissionCall}

theorem answer_refused (refused : c.preCheck r model workers now = .error refusal) :
    c.answer m (.decide r model workers now) = .ok (.decided refusal) := by
  simp only [answer, refused]

theorem answer_passed (passed : c.preCheck r model workers now = .ok tenant) :
    c.answer m (.decide r model workers now) = .ok (.decided (m.decide r model workers now).1) := by
  simp only [answer, passed]
  rfl

theorem answer_snapshot {tenantId : String} : c.answer m (.snapshot tenantId) =
    if c.tenants.contains tenantId then .ok (.shown (m.snapshot tenantId)) else .error (keyError tenantId) := rfl

end Answers

/-- The codes of what the limits leave room for are those that the client knows. -/
theorem lookup_room (m : TenantAdmissionController) (limits : TenantLimits) (r : RequestRecord) :
    reasons.lookup (m.room limits r).code = some (m.room limits r).reason ∧
      ["admitted", "already_admitted"].contains (m.room limits r).code = (m.room limits r).admitted := by
  unfold TenantAdmissionController.room
  split
  · exact ⟨rfl, rfl⟩
  split
  · exact ⟨rfl, rfl⟩
  split
  · exact ⟨rfl, rfl⟩
  split <;> exact ⟨rfl, rfl⟩

section Operations

theorem decide_run (agrees : c.Agrees m) (rep : Represents (server.hashAt c.stateKey) m) (balanced : m.Balanced)
    (ranges : m.Exact) :
    (c.decide numbers r model workers now server).1.map AdmissionAnswer.decided =
        c.answer m (.decide r model workers now) ∧
      Performed c server (c.decide numbers r model workers now server).2 (m.decide r model workers now).2 := by
  unfold decide
  cases checked : c.preCheck r model workers now with
  | error refusal =>
    obtain ⟨decided, refused⟩ := decision_of_refusal agrees checked
    have same : (m.decide r model workers now).2 = m := by
      rw [TenantAdmissionController.decide, decided]
      dsimp only
      rw [refused]
      split <;> rfl
    rw [answer_refused checked, same]
    exact ⟨rfl, Performed.same rep⟩
  | ok tenant =>
    obtain ⟨limits, found, named, concurrency, queue, quota, decided⟩ := decision_of_passed agrees checked
    have owner := balanced.keyed _ _ found
    have run := reserveScript_run numbers rep balanced ranges (r := r) found
    dsimp only
    rw [answer_passed checked, named, concurrency, queue, quota, agrees.capacity, owner,
      TenantAdmissionController.decide, decided]
    cases known : m.reserved.contains r.requestId
    · rw [known, if_neg (by simp)] at run
      rw [if_neg (by simp), Attempt.bind_ok (eval_run run), (lookup_room m limits r).1]
      dsimp only
      rw [(lookup_room m limits r).2]
      refine ⟨rfl, ?_⟩
      dsimp only [Attempt.run_pure]
      cases admitted : (m.room limits r).admitted
      · rw [if_neg (by simp), if_neg (by simp)]
        exact Performed.insert rep rfl
      · rw [if_pos rfl, if_pos rfl]
        refine Performed.insert (rep.reserve found owner) ?_
        unfold withReservation
        rw [get?_insert_key, if_neg (by simp), get?_insert_key, if_neg (by simp), get?_insert_key, if_neg (by simp),
          get?_insert_key, if_neg (by simp)]
    · rw [known, if_pos rfl] at run
      rw [if_pos rfl, Attempt.bind_ok (eval_run run)]
      exact ⟨rfl, Performed.insert rep rfl⟩

theorem markRunning_run (numbers : ScriptNumbers) (requestId : String) (rep : Represents (server.hashAt c.stateKey) m)
    (balanced : m.Balanced) (ranges : m.Exact) :
    (c.markRunning numbers requestId server).1 = (m.markRunning requestId).1 ∧
      Performed c server (c.markRunning numbers requestId server).2 (m.markRunning requestId).2 := by
  have run := markRunningScript_run numbers requestId rep balanced ranges
  unfold markRunning TenantAdmissionController.markRunning
  cases found : m.reserved.get? requestId with
  | none =>
    rw [found] at run
    rw [Attempt.bind_ok (eval_run run)]
    exact ⟨rfl, Performed.insert rep rfl⟩
  | some reservation =>
    obtain ⟨limits, configured⟩ := balanced.configured reservation (Dict.mem_values_iff.mpr ⟨requestId, found⟩)
    have limit : (m.shared reservation).concurrencyLimit = limits.maxConcurrentRequests := by
      simp [TenantAdmissionController.shared, configured]
    rw [found] at run
    dsimp only at run ⊢
    rw [limit] at run
    by_cases runs : reservation.running = true
    · rw [if_pos runs] at run
      rw [if_pos runs, Attempt.bind_ok (eval_run run)]
      exact ⟨rfl, Performed.insert rep rfl⟩
    rw [if_neg runs] at run
    rw [if_neg runs, configured]
    dsimp only
    by_cases busy : (limits.maxConcurrentRequests : Int) ≤ TenantAdmissionController.count m.running reservation.tenantId
    · rw [if_pos busy] at run
      rw [if_pos busy, Attempt.bind_ok (eval_run run)]
      exact ⟨rfl, Performed.insert rep rfl⟩
    · rw [if_neg busy] at run
      rw [if_neg busy, Attempt.bind_ok (eval_run run)]
      refine ⟨rfl, Performed.insert (rep.markRunning (balanced.queued_pos found (by simpa using runs))) ?_⟩
      unfold withRunning
      dsimp only
      rw [get?_insert_key, if_neg (by simp), get?_insert_key, if_neg (by simp), get?_insert_key, if_neg (by simp),
        get?_insert_key, if_neg (by simp)]

theorem release_run (numbers : ScriptNumbers) (requestId : String) (rep : Represents (server.hashAt c.stateKey) m)
    (balanced : m.Balanced) (ranges : m.Exact) :
    (c.release numbers requestId server).1 = .ok () ∧
      Performed c server (c.release numbers requestId server).2 (m.release requestId) := by
  have run := releaseScript_run numbers requestId rep balanced ranges
  unfold release
  cases found : m.reserved.get? requestId with
  | none =>
    rw [found] at run
    rw [Attempt.bind_ok (eval_run run)]
    refine ⟨rfl, ?_⟩
    rw [TenantAdmissionController.release, found]
    exact Performed.insert rep rfl
  | some reservation =>
    rw [found] at run
    rw [Attempt.bind_ok (eval_run run)]
    refine ⟨rfl, Performed.insert (rep.release found) ?_⟩
    unfold withoutReservation
    dsimp only
    rw [get?_erase_key, if_neg (by simp), get?_insert_key, if_neg (by simp)]
    split
    · rw [get?_insert_key, if_neg (by simp)]
    · rw [get?_insert_key, if_neg (by simp), get?_insert_key, if_neg (by simp)]

theorem snapshot_run (rep : Represents (server.hashAt c.stateKey) m) {tenantId : String} :
    (c.snapshot tenantId server).1.map AdmissionAnswer.shown = c.answer m (.snapshot tenantId) ∧
      Performed c server (c.snapshot tenantId server).2 m := by
  rw [answer_snapshot]
  unfold snapshot
  by_cases known : c.tenants.contains tenantId = true
  · obtain ⟨queued, running, tokens, run, queuedEq, runningEq, tokensEq⟩ := snapshotScript_run tenantId rep
    rw [if_pos known, if_pos known, Attempt.bind_ok (eval_run run)]
    dsimp only
    rw [queuedEq, runningEq, tokensEq]
    exact ⟨rfl, Performed.insert rep rfl⟩
  · rw [if_neg known, if_neg known]
    exact ⟨rfl, Performed.same rep⟩

/-- A controller's operation answers what the counters in memory say, and keeps them. -/
theorem perform_run (numbers : ScriptNumbers) (agrees : c.Agrees m) (rep : Represents (server.hashAt c.stateKey) m)
    (balanced : m.Balanced) (ranges : m.Exact) (call : AdmissionCall) :
    (c.perform numbers call server).1 = c.answer m call ∧
      Performed c server (c.perform numbers call server).2 (m.perform call).2 := by
  have answers : ∀ {α : Type} (part : Attempt Raised AdmissionServer α) (shown : α → AdmissionAnswer),
      (part >>= fun a => pure (shown a)) server = ((part server).1.map shown, (part server).2) := by
    intro α part shown
    rcases Attempt.bind_cases part (fun a => pure (shown a)) server with ⟨a, after, run, whole⟩ | ⟨e, after, run, whole⟩
    · rw [whole, run]
      rfl
    · rw [whole, run]
      rfl
  cases call with
  | decide r model workers now =>
    rw [perform, answers]
    exact decide_run agrees rep balanced ranges
  | markRunning requestId =>
    obtain ⟨result, performed⟩ := markRunning_run numbers requestId rep balanced ranges
    rw [perform, answers _ fun _ => AdmissionAnswer.done, result]
    exact ⟨rfl, performed⟩
  | release requestId =>
    obtain ⟨result, performed⟩ := release_run numbers requestId rep balanced ranges
    rw [perform, answers _ fun _ => AdmissionAnswer.done, result]
    exact ⟨rfl, performed⟩
  | snapshot tenantId =>
    rw [perform, answers]
    exact snapshot_run rep

end Operations

section Configurations

variable {c c' : RedisAdmissionController} {config : AdmissionConfiguration}

/-- The limits of a controller are those of a configuration. -/
def Configured (c : RedisAdmissionController) (config : AdmissionConfiguration) : Prop :=
  c.globalQueueCapacity = config.globalQueueCapacity ∧
    ∀ id, (c.tenants.get? id).map TenantLimits.admission = config.tenants.find? fun entry => entry.1 = id

theorem Configured.alike (configured : c.Configured config) (configured' : c'.Configured config) :
    c.inMemory.Alike c'.inMemory :=
  ⟨configured.1.trans configured'.1.symm, fun id => (configured.2 id).trans (configured'.2 id).symm, rfl, rfl, rfl, rfl⟩

/-- A sorted configuration still finds each tenant. -/
theorem find?_configuration {tenants : List TenantLimits} (capacity : Nat)
    (unique : (TenantLimits.table id tenants).size = tenants.length) (name : String) :
    ((TenantLimits.table id tenants).get? name).map TenantLimits.admission =
      (configuration tenants capacity).tenants.find? fun entry => entry.1 = name := by
  have distinct := Dict.nodup_of_size_ofValues unique
  have listed : ∀ entry, entry ∈ (configuration tenants capacity).tenants ↔ ∃ t ∈ tenants, t.admission = entry := by
    intro entry
    unfold configuration
    simp [TenantLimits.admission]
  cases found : (configuration tenants capacity).tenants.find? fun entry => entry.1 = name with
  | none =>
    rw [Option.map_eq_none_iff]
    by_contra present
    obtain ⟨t, held⟩ := Option.ne_none_iff_exists'.mp present
    obtain ⟨t', member, named, rfl⟩ := Dict.get?_ofValues held
    have missing := List.find?_eq_none.mp found t'.admission ((listed _).mpr ⟨t', member, rfl⟩)
    exact missing (decide_eq_true named)
  | some entry =>
    obtain ⟨t, member, rfl⟩ := (listed entry).mp (List.mem_of_find?_eq_some found)
    have listedAs := List.find?_some found
    have named : t.tenantId = name := of_decide_eq_true listedAs
    subst named
    have held : (TenantLimits.table id tenants).get? t.tenantId = some t := Dict.get?_ofValues_of_mem distinct member
    rw [held]
    rfl

/-- A controller that is built has the limits it was given, and its fingerprint is the one of its namespace. -/
theorem init_cases (fingerprint : AdmissionConfiguration → String) (tenants : List TenantLimits) (capacity : Int)
    (name : String) (server : AdmissionServer) :
    (∃ raised after, init fingerprint tenants capacity name server = (.error raised, after) ∧
      ∀ k, after.hashAt k = server.hashAt k) ∨
    ∃ c after hash, init fingerprint tenants capacity name server = (.ok c, after) ∧ c.stateKey = stateKeyOf name ∧
      TenantAdmissionController.init tenants capacity = .ok c.inMemory ∧
      c.Configured (configuration tenants capacity.toNat) ∧
      (∀ k, after.hashAt k = if k = c.stateKey then hash else server.hashAt k) ∧
      ((server.hashAt c.stateKey).get? (key .fingerprint) = none ∧ hash = (server.hashAt c.stateKey).insert (key .fingerprint)
          (.text (fingerprint (configuration tenants capacity.toNat))) ∨
        (server.hashAt c.stateKey).get? (key .fingerprint) =
          some (.text (fingerprint (configuration tenants capacity.toNat))) ∧ hash = server.hashAt c.stateKey) := by
  unfold init TenantAdmissionController.init
  split
  swap
  · exact Or.inl ⟨_, _, rfl, fun k => rfl⟩
  rename_i positive
  rw [dif_pos (show 0 < capacity by omega)]
  split
  · exact Or.inl ⟨_, _, rfl, fun k => rfl⟩
  split
  · exact Or.inl ⟨_, _, rfl, fun k => rfl⟩
  rename_i unique
  have found := find?_configuration capacity.toNat (not_not.mp unique)
  cases held : (server.hashAt (stateKeyOf name)).get? (key .fingerprint) with
  | none =>
    have run : configureScript (fingerprint (configuration tenants capacity.toNat)) (server.hashAt (stateKeyOf name)) =
        (.ok "configured", (server.hashAt (stateKeyOf name)).insert (key .fingerprint)
          (.text (fingerprint (configuration tenants capacity.toNat)))) := by
      unfold configureScript
      rw [Attempt.bind_ok HashScript.hget_run, held]
      rfl
    rw [Attempt.bind_ok (eval_run run), if_pos (Or.inl rfl)]
    exact Or.inr ⟨_, _, _, rfl, rfl, rfl, ⟨rfl, found⟩, fun k => hashAt_insert, Or.inl ⟨held, rfl⟩⟩
  | some current =>
    have run : configureScript (fingerprint (configuration tenants capacity.toNat)) (server.hashAt (stateKeyOf name)) =
        (.ok (if current = .text (fingerprint (configuration tenants capacity.toNat)) then "existing" else "conflict"),
          server.hashAt (stateKeyOf name)) := by
      unfold configureScript
      rw [Attempt.bind_ok HashScript.hget_run, held]
      rfl
    rw [Attempt.bind_ok (eval_run run)]
    by_cases same : current = .text (fingerprint (configuration tenants capacity.toNat))
    · subst same
      rw [if_pos rfl, if_pos (Or.inr rfl)]
      exact Or.inr ⟨_, _, _, rfl, rfl, rfl, ⟨rfl, found⟩, fun k => hashAt_insert, Or.inr ⟨held, rfl⟩⟩
    · rw [if_neg same, if_neg (by simp)]
      refine Or.inl ⟨_, _, rfl, fun k => ?_⟩
      rw [hashAt_insert]
      split
      · rename_i here
        rw [here]
      · rfl

end Configurations

end RedisAdmissionController

/-- The limits that an action brings are within the range in which the numbers of a script are exact. -/
def SharedAction.Exact : SharedAction → Prop
  | .connect tenants capacity _ => capacity < 10 ^ 14 ∧ ∀ t ∈ tenants, t.Exact
  | .call _ _ => True

namespace SharedAdmission

open RedisAdmissionController

variable {numbers : ScriptNumbers} {fingerprint : AdmissionConfiguration → String} {s : SharedAdmission}
  {c : RedisAdmissionController}

/-- The configurations of the controllers that a run tries to build. -/
def configurations (actions : List SharedAction) : List AdmissionConfiguration :=
  actions.filterMap fun
    | .connect tenants capacity _ => some (configuration tenants capacity.toNat)
    | .call _ _ => none

/-- The state in memory that the hash of a controller stands for. -/
def counters (s : SharedAdmission) (c : RedisAdmissionController) : TenantAdmissionController :=
  c.inMemory.performAll (s.callsOn c.stateKey)

/-- Each hash stands for the calls that reached it, whichever controllers made them. -/
structure Coherent (fingerprint : AdmissionConfiguration → String) (configs : List AdmissionConfiguration)
    (s : SharedAdmission) : Prop where
  configured : ∀ c ∈ s.controllers, ∃ config ∈ configs, c.Configured config ∧
    (s.server.hashAt c.stateKey).get? (key .fingerprint) = some (.text (fingerprint config))
  ranges : ∀ c ∈ s.controllers, c.inMemory.Exact ∧ c.inMemory.Balanced
  represented : ∀ c ∈ s.controllers, Represents (s.server.hashAt c.stateKey) (s.counters c)
  fresh : ∀ k, (∀ c ∈ s.controllers, c.stateKey ≠ k) → s.server.hashAt k = .empty ∧ s.callsOn k = []

theorem start_coherent (configs : List AdmissionConfiguration) : Coherent fingerprint configs start where
  configured := fun c member => by cases member
  ranges := fun c member => by cases member
  represented := fun c member => by cases member
  fresh := fun k unused => ⟨rfl, rfl⟩

theorem Coherent.balanced {configs : List AdmissionConfiguration} (coherent : Coherent fingerprint configs s)
    (member : c ∈ s.controllers) : (s.counters c).Balanced :=
  (coherent.ranges c member).2.performAll _

theorem Coherent.exact {configs : List AdmissionConfiguration} (coherent : Coherent fingerprint configs s)
    (member : c ∈ s.controllers) : (s.counters c).Exact := by
  obtain ⟨tenants, capacity⟩ := c.inMemory.performAll_constants (s.callsOn c.stateKey)
  have ranges := (coherent.ranges c member).1
  exact ⟨capacity ▸ ranges.capacity, tenants ▸ ranges.tenants⟩

theorem counters_agrees (s : SharedAdmission) (c : RedisAdmissionController) : c.Agrees (s.counters c) := by
  obtain ⟨tenants, capacity⟩ := c.inMemory.performAll_constants (s.callsOn c.stateKey)
  exact ⟨capacity.symm, fun id => by rw [counters, tenants]; rfl⟩

/-- Two controllers of one namespace have one configuration. -/
theorem Coherent.alike {configs : List AdmissionConfiguration} {c' : RedisAdmissionController}
    (coherent : Coherent fingerprint configs s)
    (distinct : ∀ a ∈ configs, ∀ b ∈ configs, fingerprint a = fingerprint b → a = b)
    (member : c ∈ s.controllers) (member' : c' ∈ s.controllers) (same : c.stateKey = c'.stateKey) :
    c.inMemory.Alike c'.inMemory := by
  obtain ⟨config, listed, configured, held⟩ := coherent.configured c member
  obtain ⟨config', listed', configured', held'⟩ := coherent.configured c' member'
  rw [same, held'] at held
  cases distinct config' listed' config listed (by simpa using held)
  exact configured.alike configured'

theorem callsOn_append (s : SharedAdmission) (server : AdmissionServer) (k : String) (call : AdmissionCall) (k' : String) :
    ({ s with server := server, calls := s.calls ++ [(k, call)] } : SharedAdmission).callsOn k' =
      s.callsOn k' ++ if k = k' then [call] else [] := by
  unfold callsOn
  rw [List.filter_append, List.map_append]
  by_cases same : k = k' <;> simp [same]

/-- A call of a controller. -/
theorem Coherent.call {configs : List AdmissionConfiguration} (coherent : Coherent fingerprint configs s)
    (distinct : ∀ a ∈ configs, ∀ b ∈ configs, fingerprint a = fingerprint b → a = b)
    (member : c ∈ s.controllers) (call : AdmissionCall) :
    Coherent fingerprint configs { s with
      server := (c.perform numbers call s.server).2
      calls := s.calls ++ [(c.stateKey, call)] } := by
  obtain ⟨-, performed⟩ := perform_run numbers (s.counters_agrees c) (coherent.represented c member)
    (coherent.balanced member) (coherent.exact member) call
  refine ⟨fun c' member' => ?_, coherent.ranges, fun c' member' => ?_, fun k unused => ?_⟩
  · obtain ⟨config, listed, configured, held⟩ := coherent.configured c' member'
    refine ⟨config, listed, configured, ?_⟩
    by_cases same : c'.stateKey = c.stateKey
    · rw [same] at held ⊢
      rw [performed.fingerprint, held]
    · rw [performed.others _ same, held]
  · unfold counters
    rw [callsOn_append]
    by_cases same : c.stateKey = c'.stateKey
    · rw [if_pos same, ← same]
      refine (coherent.alike distinct member member' same).performAll _ |>.represents ?_
      rw [TenantAdmissionController.performAll, List.foldl_append]
      exact performed.represents
    · rw [if_neg same, List.append_nil, performed.others _ (Ne.symm same)]
      exact coherent.represented c' member'
  · have differ := unused c member
    rw [callsOn_append, if_neg differ, List.append_nil, performed.others k (Ne.symm differ)]
    exact coherent.fresh k unused

/-- A hash with nothing but a fingerprint stands for a controller that was just built. -/
theorem represents_fresh (c : RedisAdmissionController) (text : String) :
    Represents (Dict.insert .empty (key .fingerprint) (.text text)) c.inMemory := by
  refine ⟨?_, fun tenant => ?_, fun tenant => ?_, fun tenant => ?_, fun id => ?_, fun field d found => ?_⟩
  · rw [stored_insert_ne (by simp)]
    rfl
  · rw [stored_insert_ne (by simp)]
    rfl
  · rw [stored_insert_ne (by simp)]
    rfl
  · rw [stored_insert_ne (by simp)]
    rfl
  · rw [get?_insert_key, if_neg (by simp)]
    rfl
  · rw [Dict.get?_insert] at found
    split at found
    · cases found
    · cases found

theorem inMemory_ranges {tenants : List TenantLimits} {capacity : Int}
    (built : TenantAdmissionController.init tenants capacity = .ok c.inMemory)
    (small : capacity < 10 ^ 14) (each : ∀ t ∈ tenants, t.Exact) : c.inMemory.Exact ∧ c.inMemory.Balanced := by
  obtain ⟨balanced, capacityEq, -⟩ := TenantAdmissionController.init_balanced built
  refine ⟨⟨by omega, fun tenant limits found => ?_⟩, balanced⟩
  unfold TenantAdmissionController.init at built
  split at built
  · split at built
    · cases built
    · have tables := congrArg TenantAdmissionController.tenants (Except.ok.inj built)
      rw [← tables] at found
      obtain ⟨t, member, -, rfl⟩ := Dict.get?_ofValues found
      exact each t member
  · cases built

section Steps

variable {tenants : List TenantLimits} {capacity : Int} {name : String} {after : AdmissionServer} {raised : Raised}
  {i : Nat} {call : AdmissionCall}

theorem step_built (run : init fingerprint tenants capacity name s.server = (.ok c, after)) :
    s.step numbers fingerprint (.connect tenants capacity name) =
      { s with server := after, controllers := s.controllers ++ [c] } := by
  simp only [step, run]

theorem step_refused (run : init fingerprint tenants capacity name s.server = (.error raised, after)) :
    s.step numbers fingerprint (.connect tenants capacity name) = { s with server := after } := by
  simp only [step, run]

theorem step_call (found : s.controllers[i]? = some c) : s.step numbers fingerprint (.call i call) = { s with
    server := (c.perform numbers call s.server).2
    calls := s.calls ++ [(c.stateKey, call)] } := by
  simp only [step, found]

theorem step_absent (missing : s.controllers[i]? = none) : s.step numbers fingerprint (.call i call) = s := by
  simp only [step, missing]

end Steps

/-- A controller that is built, or refused. -/
theorem Coherent.connect {configs : List AdmissionConfiguration} (coherent : Coherent fingerprint configs s)
    (distinct : ∀ a ∈ configs, ∀ b ∈ configs, fingerprint a = fingerprint b → a = b)
    {tenants : List TenantLimits} {capacity : Int} {name : String} (listed : configuration tenants capacity.toNat ∈ configs)
    (small : capacity < 10 ^ 14) (each : ∀ t ∈ tenants, t.Exact) :
    Coherent fingerprint configs (s.step numbers fingerprint (.connect tenants capacity name)) := by
  rcases init_cases fingerprint tenants capacity name s.server with
    ⟨raised, after, run, same⟩ | ⟨c, after, hash, run, -, built, configured, hashes, found⟩
  · rw [step_refused run]
    refine ⟨fun c member => ?_, coherent.ranges, fun c member => ?_, fun k unused => ?_⟩
    · rw [same]
      exact coherent.configured c member
    · rw [same]
      exact coherent.represented c member
    · rw [same]
      exact coherent.fresh k unused
  rw [step_built run]
  -- The hash is either one that nobody has used, or one whose controllers have this configuration.
  have here : hash.get? (key .fingerprint) = some (.text (fingerprint (configuration tenants capacity.toNat))) ∧
      Represents hash (s.counters c) ∧ ∀ c' ∈ s.controllers, c'.stateKey = c.stateKey → hash = s.server.hashAt c.stateKey := by
    by_cases used : ∃ c' ∈ s.controllers, c'.stateKey = c.stateKey
    · obtain ⟨c', member, same⟩ := used
      obtain ⟨config, listed', configured', held⟩ := coherent.configured c' member
      rw [same] at held
      rcases found with ⟨absent, -⟩ | ⟨present, rfl⟩
      · cases absent.symm.trans held
      · refine ⟨present, ?_, fun _ _ _ => rfl⟩
        rw [held] at present
        cases distinct config listed' _ listed (by simpa using present)
        have alike := (configured'.alike configured).performAll (s.callsOn c.stateKey)
        have represented := coherent.represented c' member
        unfold counters at represented ⊢
        rw [same] at represented
        exact alike.represents represented
    · obtain ⟨empty, none⟩ := coherent.fresh c.stateKey fun c' member same => used ⟨c', member, same⟩
      rw [empty] at found
      rcases found with ⟨-, rfl⟩ | ⟨present, -⟩
      · refine ⟨by rw [get?_insert_key, if_pos rfl], ?_, fun c' member same => absurd ⟨c', member, same⟩ used⟩
        unfold counters
        rw [none]
        exact represents_fresh c _
      · cases present
  refine ⟨fun c' member => ?_, fun c' member => ?_, fun c' member => ?_, fun k unused => ?_⟩
  · rcases List.mem_append.mp member with before | added
    · obtain ⟨config, listed', configured', held⟩ := coherent.configured c' before
      refine ⟨config, listed', configured', ?_⟩
      rw [hashes]
      split
      · rename_i same
        rw [here.2.2 c' before same, ← same, held]
      · exact held
    · cases List.mem_singleton.mp added
      exact ⟨_, listed, configured, by rw [hashes, if_pos rfl, here.1]⟩
  · rcases List.mem_append.mp member with before | added
    · exact coherent.ranges c' before
    · cases List.mem_singleton.mp added
      exact inMemory_ranges built small each
  · rcases List.mem_append.mp member with before | added
    · have represented := coherent.represented c' before
      rw [hashes]
      split
      · rename_i same
        rw [here.2.2 c' before same, ← same]
        exact represented
      · exact represented
    · cases List.mem_singleton.mp added
      rw [hashes, if_pos rfl]
      exact here.2.1
  · have differ := unused c (List.mem_append_right _ (List.mem_singleton_self c))
    rw [hashes, if_neg (Ne.symm differ)]
    exact coherent.fresh k fun c' member => unused c' (List.mem_append_left _ member)

/-- Every run keeps each hash in step with the calls that reached it. -/
theorem Coherent.run (numbers : ScriptNumbers) {configs : List AdmissionConfiguration}
    (coherent : Coherent fingerprint configs s)
    (distinct : ∀ a ∈ configs, ∀ b ∈ configs, fingerprint a = fingerprint b → a = b) {actions : List SharedAction}
    (listed : ∀ config ∈ configurations actions, config ∈ configs) (ranges : ∀ action ∈ actions, action.Exact) :
    Coherent fingerprint configs (s.run numbers fingerprint actions) := by
  induction actions generalizing s with
  | nil => exact coherent
  | cons action rest ih =>
    refine ih ?_ (fun config member => listed config ?_) fun action member => ranges action (List.mem_cons_of_mem _ member)
    · cases action with
      | connect tenants capacity name =>
        obtain ⟨small, each⟩ := ranges _ List.mem_cons_self
        exact coherent.connect distinct (listed _ List.mem_cons_self) small each
      | call i call =>
        dsimp only
        cases found : s.controllers[i]? with
        | none =>
          rw [step_absent found]
          exact coherent
        | some c =>
          rw [step_call found]
          exact coherent.call distinct (List.mem_of_getElem? found) call
    · unfold configurations at member ⊢
      rw [List.filterMap_cons]
      split
      · exact member
      · exact List.mem_cons_of_mem _ member

/-- Each controller of a run was there before, or comes from an action that gave it its limits. -/
theorem controllers_built {actions : List SharedAction}
    (member : c ∈ (s.run numbers fingerprint actions).controllers) :
    c ∈ s.controllers ∨ ∃ tenants capacity name, .connect tenants capacity name ∈ actions ∧
      c.stateKey = stateKeyOf name ∧ TenantAdmissionController.init tenants capacity = .ok c.inMemory := by
  induction actions generalizing s with
  | nil => exact Or.inl member
  | cons action rest ih =>
    rcases ih member with before | ⟨tenants, capacity, name, listed, built⟩
    · dsimp only at before
      cases action with
      | connect tenants capacity name =>
        rcases init_cases fingerprint tenants capacity name s.server with
          ⟨raised, after, run, -⟩ | ⟨added, after, hash, run, named, built, -⟩
        · rw [step_refused run] at before
          exact Or.inl before
        · rw [step_built run] at before
          rcases List.mem_append.mp before with old | new
          · exact Or.inl old
          · cases List.mem_singleton.mp new
            exact Or.inr ⟨tenants, capacity, name, List.mem_cons_self, named, built⟩
      | call i call =>
        cases found : s.controllers[i]? with
        | none =>
          rw [step_absent found] at before
          exact Or.inl before
        | some caller =>
          rw [step_call found] at before
          exact Or.inl before
    · exact Or.inr ⟨tenants, capacity, name, List.mem_cons_of_mem _ listed, built⟩

end SharedAdmission

namespace AdmissionHash

variable {hash : AdmissionHash} {m : TenantAdmissionController}

/-- The documents of a hash are those of the reservations that it stands for. -/
theorem Represents.documents_perm (rep : Represents hash m) : hash.documents.Perm (m.reserved.values.map m.shared) :=
  ScriptHash.documents_perm (fun _ _ same => AdmissionField.reservation.inj (key_injective same)) rep.reserved rep.documents

/-- How many reservations of a tenant run, or wait. -/
def reservationsOf (hash : AdmissionHash) (tenant : String) (running : Bool) : Nat :=
  hash.documents.countP fun d => d.tenant = tenant && d.running == running

/-- The tokens that a tenant's reservations hold together. -/
def tokensOf (hash : AdmissionHash) (tenant : String) : Int :=
  ((hash.documents.filter fun d => d.tenant = tenant).map SharedReservation.tokens).sum

theorem Represents.reservationsOf_eq (rep : Represents hash m) (tenant : String) (running : Bool) :
    hash.reservationsOf tenant running = m.reservationsOf tenant running := by
  unfold reservationsOf TenantAdmissionController.reservationsOf
  rw [rep.documents_perm.countP_eq, List.countP_map]
  rfl

theorem Represents.waiting_eq (rep : Represents hash m) :
    (hash.documents.countP fun d => !d.running) = m.reserved.values.countP fun r => !r.running := by
  rw [rep.documents_perm.countP_eq, List.countP_map]
  rfl

theorem Represents.tokensOf_eq (rep : Represents hash m) (tenant : String) : hash.tokensOf tenant = m.tokensOf tenant := by
  unfold tokensOf TenantAdmissionController.tokensOf
  have perm := ((rep.documents_perm.filter fun d => d.tenant = tenant).map SharedReservation.tokens).sum_eq
  rw [perm, List.filter_map, List.map_map, Nat.cast_list_sum, List.map_map]
  rfl

end AdmissionHash

namespace SharedAdmission

open RedisAdmissionController

/-- Whatever controllers share the server and however their calls are interleaved, the counters of
each namespace are what its reservations add up to, and no controller's limit is exceeded. -/
theorem counters_match_documents (numbers : ScriptNumbers) (fingerprint : AdmissionConfiguration → String)
    (actions : List SharedAction) (ranges : ∀ action ∈ actions, action.Exact)
    (distinct : ∀ a ∈ configurations actions, ∀ b ∈ configurations actions, fingerprint a = fingerprint b → a = b)
    {c : RedisAdmissionController} {hash : AdmissionHash} (member : c ∈ (start.run numbers fingerprint actions).controllers)
    (here : (start.run numbers fingerprint actions).server.hashAt c.stateKey = hash) :
    hash.stored (key .globalQueued) = some ((hash.documents.countP fun d => !d.running : Nat) : Int) ∧
    (hash.documents.countP fun d => !d.running) ≤ c.globalQueueCapacity ∧
    (∀ tenant, hash.stored (key (.queued tenant)) = some (hash.reservationsOf tenant false : Int) ∧
      hash.stored (key (.running tenant)) = some (hash.reservationsOf tenant true : Int) ∧
      hash.stored (key (.tokens tenant)) = some (hash.tokensOf tenant)) ∧
    (∀ tenant limits, c.tenants.get? tenant = some limits →
      hash.reservationsOf tenant false ≤ limits.maxQueuedRequests ∧
      hash.reservationsOf tenant true ≤ limits.maxConcurrentRequests ∧ hash.tokensOf tenant ≤ limits.tokenQuota) ∧
    ∀ d ∈ hash.documents, ∃ limits, c.tenants.get? d.tenant = some limits ∧
      d.concurrencyLimit = limits.maxConcurrentRequests := by
  have coherent := (start_coherent (configurations actions)).run numbers distinct (fun _ listed => listed) ranges
  subst here
  have rep := coherent.represented c member
  have balanced := coherent.balanced member
  obtain ⟨tenants, capacity⟩ := c.inMemory.performAll_constants
    ((start.run numbers fingerprint actions).callsOn c.stateKey)
  have sum : ((start.run numbers fingerprint actions).counters c).queued.values.sum ≤ c.globalQueueCapacity := by
    have room := balanced.capacity
    unfold counters at room ⊢
    rwa [capacity] at room
  refine ⟨?_, ?_, fun tenant => ⟨?_, ?_, ?_⟩, fun tenant limits found => ?_, fun d inside => ?_⟩
  · rw [rep.globalQueued, balanced.total_eq, rep.waiting_eq]
  · rw [balanced.total_eq] at sum
    rw [rep.waiting_eq]
    omega
  · rw [rep.queued, balanced.queued_eq, rep.reservationsOf_eq]
  · rw [rep.running, balanced.running_eq, rep.reservationsOf_eq]
  · rw [rep.tokens, balanced.tokens_eq, rep.tokensOf_eq]
  · obtain ⟨queued, running, tokens⟩ := balanced.limited tenant limits (by rw [counters, tenants]; exact found)
    rw [balanced.queued_eq, ← rep.reservationsOf_eq] at queued
    rw [balanced.running_eq, ← rep.reservationsOf_eq] at running
    rw [balanced.tokens_eq, ← rep.tokensOf_eq] at tokens
    exact ⟨by omega, by omega, tokens⟩
  · obtain ⟨reservation, reserved, rfl⟩ := List.mem_map.mp (rep.documents_perm.mem_iff.mp inside)
    obtain ⟨limits, found⟩ := balanced.configured reservation reserved
    refine ⟨limits, ?_, by simp [TenantAdmissionController.shared, found]⟩
    rw [counters, tenants] at found
    exact found

namespace Sample

/-- Numbers that are exact; within the range of the theorems the real ones are. -/
def numbers : ScriptNumbers where
  nearest := id
  transcribed := id
  argument := some
  nearest_mono := fun _ _ le => le
  nearest_exact := fun _ _ => rfl
  transcribed_exact := fun _ _ => rfl
  argument_exact := fun _ _ => rfl

def fingerprint (_ : AdmissionConfiguration) : String := "digest"

/-- Two controllers with the same limits, of which each asks for room for one request. -/
def actions : List SharedAction := [
  .connect [TenantAdmissionController.Sample.tenant] 1 "main",
  .connect [TenantAdmissionController.Sample.tenant] 1 "main",
  .call 0 (.decide TenantAdmissionController.Sample.request (some TenantAdmissionController.Sample.model)
    [TenantAdmissionController.Sample.worker] 0),
  .call 1 (.markRunning "request")]

def shared : SharedAdmission := start.run numbers fingerprint actions

def controller : RedisAdmissionController where
  tenants := TenantLimits.table id [TenantAdmissionController.Sample.tenant]
  globalQueueCapacity := 1
  stateKey := stateKeyOf "main"
  positive := Nat.one_pos

theorem controller_mem : controller ∈ (start.run numbers fingerprint actions).controllers := by
  have both : shared.controllers = [controller, controller] := rfl
  change controller ∈ shared.controllers
  rw [both]
  exact List.mem_cons_self

theorem ranges : ∀ action ∈ actions, action.Exact := by
  have small : TenantAdmissionController.Sample.tenant.Exact := by
    unfold TenantLimits.Exact
    decide
  simp [actions, SharedAction.Exact, small]

theorem distinct : ∀ a ∈ configurations actions, ∀ b ∈ configurations actions,
    fingerprint a = fingerprint b → a = b := by
  decide

end Sample

open Sample in
theorem counters_match_documents_sample : ScriptHash.stored (shared.server.hashAt controller.stateKey)
      (key (.running "tenant")) = some 1 ∧
    ScriptHash.stored (shared.server.hashAt controller.stateKey) (key (.tokens "tenant")) = some 10 := by
  obtain ⟨-, -, counters, -⟩ := counters_match_documents numbers fingerprint actions ranges distinct controller_mem rfl
  obtain ⟨-, running, tokens⟩ := counters "tenant"
  refine ⟨running.trans ?_, tokens.trans ?_⟩
  · rfl
  · rfl

/-- Each call is answered as one in-memory controller would answer it that was built from the same
limits and got all calls of the namespace in the order in which their scripts ran. The exceptions
are a request that the checks before the script refuse although it has a reservation, and a tenant
that is not configured. -/
theorem calls_answered_as_in_memory (numbers : ScriptNumbers) (fingerprint : AdmissionConfiguration → String)
    (actions : List SharedAction) (ranges : ∀ action ∈ actions, action.Exact)
    (distinct : ∀ a ∈ configurations actions, ∀ b ∈ configurations actions, fingerprint a = fingerprint b → a = b)
    {s : SharedAdmission} (reached : start.run numbers fingerprint actions = s)
    {c : RedisAdmissionController} (member : c ∈ s.controllers) :
    ∃ tenants capacity name c₀, .connect tenants capacity name ∈ actions ∧ c.stateKey = stateKeyOf name ∧
      TenantAdmissionController.init tenants capacity = .ok c₀ ∧
      (∀ r model workers now, ((c₀.performAll (s.callsOn c.stateKey)).reserved.contains r.requestId = false ∨
          ∃ limits, c.preCheck r model workers now = .ok limits) →
        (c.perform numbers (.decide r model workers now) s.server).1 =
          ((c₀.performAll (s.callsOn c.stateKey)).perform (.decide r model workers now)).1) ∧
      (∀ r model workers now refusal, c.preCheck r model workers now = .error refusal →
        (c.perform numbers (.decide r model workers now) s.server).1 = .ok (.decided refusal)) ∧
      (∀ requestId, (c.perform numbers (.markRunning requestId) s.server).1 =
        ((c₀.performAll (s.callsOn c.stateKey)).perform (.markRunning requestId)).1) ∧
      (∀ requestId, (c.perform numbers (.release requestId) s.server).1 = .ok .done) ∧
      ∀ tenant, (c.perform numbers (.snapshot tenant) s.server).1 = if c.tenants.contains tenant then
        ((c₀.performAll (s.callsOn c.stateKey)).perform (.snapshot tenant)).1 else .error (keyError tenant) := by
  have coherent := (start_coherent (configurations actions)).run numbers distinct (fun _ listed => listed) ranges
  rw [reached] at coherent
  rcases controllers_built (reached ▸ member) with old | ⟨tenants, capacity, name, listed, named, built⟩
  · cases old
  have performs := fun call => (perform_run numbers (s.counters_agrees c) (coherent.represented c member)
    (coherent.balanced member) (coherent.exact member) call).1
  refine ⟨tenants, capacity, name, c.inMemory, listed, named, built, fun r model workers now usual => ?_,
    fun r model workers now refusal refused => ?_, fun requestId => performs _, fun requestId => performs _,
    fun tenant => performs _⟩
  · rw [performs]
    cases checked : c.preCheck r model workers now with
    | ok limits => exact answer_passed checked
    | error refusal =>
      obtain ⟨decided, -⟩ := decision_of_refusal (s.counters_agrees c) checked
      have fresh : (c.inMemory.performAll (s.callsOn c.stateKey)).reserved.contains r.requestId = false := by
        rcases usual with fresh | ⟨limits, passed⟩
        · exact fresh
        · cases checked.symm.trans passed
      rw [answer_refused checked, TenantAdmissionController.perform, TenantAdmissionController.decide, fresh,
        if_neg (by simp)]
      exact congrArg (fun d => Except.ok (AdmissionAnswer.decided d)) decided.symm
  · rw [performs]
    exact answer_refused refused

open Sample in
/-- A request that has its reservation is refused once its deadline is over. -/
theorem calls_answered_as_in_memory_sample : (controller.perform numbers (.decide TenantAdmissionController.Sample.request
      (some TenantAdmissionController.Sample.model) [TenantAdmissionController.Sample.worker] 200) shared.server).1 =
    .ok (.decided ⟨false, "deadline_exceeded", "deadline has expired"⟩) := by
  obtain ⟨-, -, -, -, -, -, -, -, refused, -⟩ :=
    calls_answered_as_in_memory numbers fingerprint actions ranges distinct rfl controller_mem
  exact refused _ _ _ _ _ rfl

end SharedAdmission

end ServingPlatform
