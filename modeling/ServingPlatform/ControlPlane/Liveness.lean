import ServingPlatform.ControlPlane.Placement

namespace ServingPlatform

/-- The operations of the worker registry that change it. -/
inductive RegistryCall
  | register (worker : WorkerState)
  | heartbeat (worker : WorkerState)
  | markSuspect (workerId errorCode : String)
  | unregister (workerId : String)
  | expireStale
  deriving DecidableEq, Repr

inductive RegistryAnswer
  | done
  | raised (exception : Raised)
  | expired (workerIds : List String)
  deriving DecidableEq, Repr

/-- A call of the registry, with its clock reading and its answer. -/
structure RegistryEntry where
  call : RegistryCall
  now : Seconds
  answer : RegistryAnswer
  deriving DecidableEq, Repr

namespace RegistryEntry

/-- How often a call reports a worker as expired. -/
def reports (workerId : String) (e : RegistryEntry) : Nat :=
  match e.answer with
  | .expired workerIds => workerIds.count workerId
  | _ => 0

/-- The time of a heartbeat of a worker that succeeded. -/
def beat (workerId : String) (e : RegistryEntry) : Option Seconds :=
  match e.call, e.answer with
  | .heartbeat worker, .done => if worker.workerId = workerId then some e.now else none
  | _, _ => none

def removes (workerId : String) (e : RegistryEntry) : Bool := e.call = .unregister workerId

end RegistryEntry

namespace WorkerRegistry

def markSuspect (registry : WorkerRegistry) (workerId errorCode : String) : Except Raised Unit × WorkerRegistry :=
  if errorCode = "" then (.error (valueError "worker error code is required"), registry)
  else
    match registry.workers.get? workerId with
    | none => (.error (keyError s!"unknown worker: {workerId}"), registry)
    | some worker =>
      if worker.healthStatus = .unhealthy ∨ worker.healthStatus = .stopped then (.ok (), registry)
      else
        (.ok (), { registry with
          workers := registry.workers.insert workerId { worker with
            healthStatus := .suspect
            consecutiveFailures := worker.consecutiveFailures + 1
            lastErrorCode := some errorCode } })

def answered : Except Raised Unit → RegistryAnswer
  | .ok () => .done
  | .error raised => .raised raised

def perform (registry : WorkerRegistry) (now : Seconds) : RegistryCall → RegistryAnswer × WorkerRegistry
  | .register worker => (.done, registry.register worker now)
  | .heartbeat worker => (answered (registry.heartbeat worker now).1, (registry.heartbeat worker now).2)
  | .markSuspect workerId errorCode =>
    (answered (registry.markSuspect workerId errorCode).1, (registry.markSuspect workerId errorCode).2)
  | .unregister workerId => (.done, registry.unregister workerId)
  | .expireStale => (.expired (registry.expireStale now).1, (registry.expireStale now).2)

def run (registry : WorkerRegistry) (calls : List (RegistryCall × Seconds)) : WorkerRegistry :=
  calls.foldl (fun registry (call, now) => (registry.perform now call).2) registry

def history : WorkerRegistry → List (RegistryCall × Seconds) → List RegistryEntry
  | _, [] => []
  | registry, (call, now) :: rest =>
    ⟨call, now, (registry.perform now call).1⟩ :: history (registry.perform now call).2 rest

variable {registry : WorkerRegistry} {now : Seconds} {workerId key : String} {v w : WorkerState}

/-- Every worker is kept under its own id, with a status that the registry gives. -/
def Keyed (registry : WorkerRegistry) : Prop :=
  ∀ key v, registry.workers.get? key = some v → v.workerId = key ∧
    (v.healthStatus = .healthy ∨ v.healthStatus = .suspect ∨ v.healthStatus = .unhealthy)

section Aging

@[simp] theorem age_workerId : (registry.age now v).workerId = v.workerId := by
  unfold age
  dsimp only
  split
  · rfl
  split <;> rfl

@[simp] theorem age_lastHeartbeat : (registry.age now v).lastHeartbeat = v.lastHeartbeat := by
  unfold age
  dsimp only
  split
  · rfl
  split <;> rfl

@[simp] theorem age_heartbeatSequence : (registry.age now v).heartbeatSequence = v.heartbeatSequence := by
  unfold age
  dsimp only
  split
  · rfl
  split <;> rfl

/-- What a scan makes of a worker's status. -/
theorem age_status (registry : WorkerRegistry) (now : Seconds)
    (given : v.healthStatus = .healthy ∨ v.healthStatus = .suspect ∨ v.healthStatus = .unhealthy) :
    ((registry.age now v).healthStatus = .healthy ∨ (registry.age now v).healthStatus = .suspect ∨
      (registry.age now v).healthStatus = .unhealthy) ∧
    ((registry.age now v).healthStatus = .unhealthy ↔
      v.healthStatus = .unhealthy ∨ registry.heartbeatTimeoutSeconds < now - v.lastHeartbeat) := by
  unfold age
  dsimp only
  by_cases late : registry.heartbeatTimeoutSeconds < now - v.lastHeartbeat
  · rcases given with status | status | status <;> simp [status, late]
  · rcases given with status | status | status
    · by_cases delayed : registry.suspectAfterSeconds < now - v.lastHeartbeat <;> simp [status, late, delayed]
    · simp [status, late]
    · simp [status, late]

theorem get?_expireStale (registry : WorkerRegistry) (now : Seconds) (key : String) :
    (registry.expireStale now).2.workers.get? key = (registry.workers.get? key).map (registry.age now) := by
  have general : ∀ (keys : List String) (d : Dict String WorkerState), keys.Nodup →
      (keys.foldl (fun workers key =>
        (workers.get? key).elim workers fun worker => workers.insert key (registry.age now worker)) d).get? key = if key ∈ keys then (d.get? key).map (registry.age now) else d.get? key := by
    intro keys
    induction keys with
    | nil => exact fun d _ => (if_neg List.not_mem_nil).symm
    | cons first rest ih =>
      intro d distinct
      obtain ⟨fresh, distinct⟩ := List.nodup_cons.mp distinct
      rw [List.foldl_cons, ih _ distinct]
      by_cases same : key = first
      · subst same
        rw [if_neg fresh, if_pos List.mem_cons_self]
        cases found : d.get? key with
        | none => simp [found]
        | some worker => simp
      · have untouched : ((d.get? first).elim d fun worker => d.insert first (registry.age now worker)).get? key =
            d.get? key := by
          cases d.get? first with
          | none => rfl
          | some worker => exact Dict.get?_insert_of_ne same
        simp only [untouched, List.mem_cons, same, false_or]
  have aged := general registry.workers.keys registry.workers registry.workers.nodup
  have scanned : (registry.expireStale now).2.workers = registry.workers.keys.foldl (fun workers key =>
      (workers.get? key).elim workers fun worker => workers.insert key (registry.age now worker)) registry.workers := by
    unfold expireStale
    dsimp only
    congr 1
    funext workers key
    cases workers.get? key <;> rfl
  rw [scanned]
  refine aged.trans ?_
  split
  · rfl
  · rename_i absent
    rw [Dict.get?_eq_none_iff.mpr absent]
    rfl

/-- A scan reports a worker exactly when it has one that is not yet unhealthy and not heard of for too long. -/
theorem expireStale_reports (keyed : registry.Keyed) (now : Seconds) (workerId : String) :
    (registry.expireStale now).1.count workerId ≤ 1 ∧ (0 < (registry.expireStale now).1.count workerId ↔
      ∃ v, registry.workers.get? workerId = some v ∧ v.healthStatus ≠ .unhealthy ∧
        registry.heartbeatTimeoutSeconds < now - v.lastHeartbeat) := by
  have statuses : ∀ e ∈ registry.workers.entries, e.2.workerId = e.1 ∧
      ((e.2.healthStatus ≠ .unhealthy && decide ((registry.age now e.2).healthStatus = .unhealthy)) = true ↔
        e.2.healthStatus ≠ .unhealthy ∧ registry.heartbeatTimeoutSeconds < now - e.2.lastHeartbeat) := by
    intro e member
    obtain ⟨named, given⟩ := keyed e.1 e.2 (Dict.get?_eq_some_iff.mpr member)
    obtain ⟨-, expires⟩ := age_status registry now given
    refine ⟨named, ?_⟩
    rw [Bool.and_eq_true, decide_eq_true_eq, decide_eq_true_eq, expires]
    exact and_congr_right fun alive => or_iff_right alive
  have perm : ((registry.expireStale now).1).Perm ((registry.workers.entries.filter fun e =>
      e.2.healthStatus ≠ .unhealthy && (registry.age now e.2).healthStatus = .unhealthy).map Prod.fst) := by
    refine (List.perm_insertionSort _ _).trans (List.Perm.of_eq ?_)
    exact List.map_congr_left fun e member => (statuses e (List.mem_of_mem_filter member)).1
  have distinct := registry.workers.nodup.sublist ((List.filter_sublist (p := fun e : String × WorkerState =>
    e.2.healthStatus ≠ .unhealthy && decide ((registry.age now e.2).healthStatus = .unhealthy))).map Prod.fst)
  rw [perm.count_eq]
  refine ⟨List.nodup_iff_count_le_one.mp distinct workerId, List.count_pos_iff.trans ?_⟩
  rw [List.mem_map]
  constructor
  · rintro ⟨⟨key, v⟩, member, rfl⟩
    obtain ⟨inside, passes⟩ := List.mem_filter.mp member
    exact ⟨v, Dict.get?_eq_some_iff.mpr inside, (statuses _ inside).2.mp passes⟩
  · rintro ⟨v, found, passes⟩
    have inside := Dict.get?_eq_some_iff.mp found
    exact ⟨(workerId, v), List.mem_filter.mpr ⟨inside, (statuses _ inside).2.mpr passes⟩, rfl⟩

end Aging

/-- What a registry holds of a worker between two of its registrations: when
it was last heard of, how often it sent a heartbeat, how often it was reported
as expired, and whether it was removed. -/
structure Tenure (registry : WorkerRegistry) (workerId : String) (seen : Seconds) (beats reports : Nat) (removed : Bool) :
    Prop where
  once : reports ≤ 1
  present : removed = false → ∃ v, registry.workers.get? workerId = some v ∧ v.lastHeartbeat = seen ∧
    v.heartbeatSequence = beats ∧ (v.healthStatus = .unhealthy ↔ reports = 1)
  absent : removed = true → registry.workers.get? workerId = none

theorem register_keyed (keyed : registry.Keyed) (worker : WorkerState) (now : Seconds) :
    (registry.register worker now).Keyed := by
  intro key v found
  unfold register at found
  rw [Dict.get?_insert] at found
  split at found
  · rename_i same
    cases found
    exact ⟨same.symm, Or.inl rfl⟩
  · exact keyed key v found

theorem heartbeat_cases (registry : WorkerRegistry) (worker : WorkerState) (now : Seconds) :
    (∃ raised, registry.heartbeat worker now = (.error raised, registry) ∧
      ∀ v, registry.workers.get? worker.workerId = some v → v.healthStatus = .unhealthy ∨ v.healthStatus = .stopped) ∨
    ∃ current, registry.workers.get? worker.workerId = some current ∧
      ¬(current.healthStatus = .unhealthy ∨ current.healthStatus = .stopped) ∧
      registry.heartbeat worker now = (.ok (), { registry with
        workers := registry.workers.insert worker.workerId { worker with
          healthStatus := .healthy
          lastHeartbeat := now
          heartbeatSequence := current.heartbeatSequence + 1
          consecutiveFailures := 0
          lastErrorCode := none } }) := by
  unfold heartbeat
  cases found : registry.workers.get? worker.workerId with
  | none => exact Or.inl ⟨_, rfl, fun _ other => by cases other⟩
  | some current =>
    dsimp only
    by_cases dead : current.healthStatus = .unhealthy ∨ current.healthStatus = .stopped
    · rw [if_pos dead]
      exact Or.inl ⟨_, rfl, fun v same => Option.some.inj same ▸ dead⟩
    · rw [if_neg dead]
      exact Or.inr ⟨current, rfl, dead, rfl⟩

theorem markSuspect_cases (registry : WorkerRegistry) (workerId errorCode : String) :
    (registry.markSuspect workerId errorCode).2 = registry ∨
    ∃ current, registry.workers.get? workerId = some current ∧
      ¬(current.healthStatus = .unhealthy ∨ current.healthStatus = .stopped) ∧
      (registry.markSuspect workerId errorCode).2 = { registry with
        workers := registry.workers.insert workerId { current with
          healthStatus := .suspect
          consecutiveFailures := current.consecutiveFailures + 1
          lastErrorCode := some errorCode } } := by
  unfold markSuspect
  split
  · exact Or.inl rfl
  cases found : registry.workers.get? workerId with
  | none => exact Or.inl rfl
  | some current =>
    dsimp only
    by_cases dead : current.healthStatus = .unhealthy ∨ current.healthStatus = .stopped
    · rw [if_pos dead]
      exact Or.inl rfl
    · rw [if_neg dead]
      exact Or.inr ⟨current, rfl, dead, rfl⟩

theorem perform_keyed (keyed : registry.Keyed) (now : Seconds) (call : RegistryCall) :
    (registry.perform now call).2.Keyed := by
  cases call with
  | register worker => exact register_keyed keyed worker now
  | heartbeat worker =>
    change (registry.heartbeat worker now).2.Keyed
    rcases registry.heartbeat_cases worker now with ⟨raised, run, -⟩ | ⟨current, -, -, run⟩
    · rw [run]
      exact keyed
    · rw [run]
      intro key v found
      rw [Dict.get?_insert] at found
      split at found
      · rename_i same
        cases found
        exact ⟨same.symm, Or.inl rfl⟩
      · exact keyed key v found
  | markSuspect workerId errorCode =>
    change (registry.markSuspect workerId errorCode).2.Keyed
    rcases registry.markSuspect_cases workerId errorCode with run | ⟨current, held, -, run⟩
    · rw [run]
      exact keyed
    · rw [run]
      intro key v found
      rw [Dict.get?_insert] at found
      split at found
      · rename_i same
        cases found
        exact ⟨(keyed _ _ held).1.trans same.symm, Or.inr (Or.inl rfl)⟩
      · exact keyed key v found
  | unregister workerId =>
    intro key v found
    change (registry.workers.erase workerId).get? key = some v at found
    rw [Dict.get?_erase] at found
    split at found
    · cases found
    · exact keyed key v found
  | expireStale =>
    intro key v found
    change (registry.expireStale now).2.workers.get? key = some v at found
    rw [get?_expireStale, Option.map_eq_some_iff] at found
    obtain ⟨old, held, rfl⟩ := found
    obtain ⟨named, given⟩ := keyed key old held
    exact ⟨age_workerId.trans named, (age_status registry now given).1⟩

section Steps

variable {seen : Seconds} {beats reports : Nat} {removed : Bool} {registry' : WorkerRegistry} {e : RegistryEntry}

/-- A worker's tenure after a call. -/
def TenureAfter (registry : WorkerRegistry) (workerId : String) (seen : Seconds) (beats reports : Nat) (removed : Bool)
    (e : RegistryEntry) : Prop :=
  Tenure registry workerId ((e.beat workerId).getD seen) (beats + (e.beat workerId).toList.length)
    (reports + e.reports workerId) (removed || e.removes workerId)

/-- A call that does nothing to the worker. -/
theorem Tenure.idle (tenure : Tenure registry workerId seen beats reports removed)
    (kept : registry'.workers.get? workerId = registry.workers.get? workerId) (noBeat : e.beat workerId = none)
    (noReport : e.reports workerId = 0) (stays : e.removes workerId = false) :
    TenureAfter registry' workerId seen beats reports removed e := by
  unfold TenureAfter
  rw [noBeat, noReport, stays, Bool.or_false]
  refine ⟨tenure.once, fun here => ?_, fun gone => ?_⟩
  · rw [kept]
    exact tenure.present here
  · rw [kept]
    exact tenure.absent gone

theorem Tenure.here (tenure : Tenure registry workerId seen beats reports removed)
    (held : registry.workers.get? workerId = some v) : removed = false := by
  cases gone : removed with
  | false => rfl
  | true => cases held.symm.trans (tenure.absent gone)

theorem Tenure.heartbeat (tenure : Tenure registry workerId seen beats reports removed) (worker : WorkerState)
    (now : Seconds) : TenureAfter (registry.perform now (.heartbeat worker)).2 workerId seen beats reports removed
      ⟨.heartbeat worker, now, (registry.perform now (.heartbeat worker)).1⟩ := by
  change TenureAfter (registry.heartbeat worker now).2 workerId seen beats reports removed
    ⟨.heartbeat worker, now, answered (registry.heartbeat worker now).1⟩
  rcases registry.heartbeat_cases worker now with ⟨raised, run, -⟩ | ⟨current, held, alive, run⟩
  · rw [run]
    exact tenure.idle rfl rfl rfl rfl
  rw [run]
  by_cases own : worker.workerId = workerId
  · subst own
    have here := tenure.here held
    obtain ⟨v, found, -, sequence, status⟩ := tenure.present here
    cases held.symm.trans found
    have unreported : reports ≠ 1 := fun one => alive (Or.inl (status.mpr one))
    have once := tenure.once
    have beat : (⟨.heartbeat worker, now, answered (.ok ())⟩ : RegistryEntry).beat worker.workerId = some now := if_pos rfl
    unfold TenureAfter
    rw [beat]
    refine ⟨once, fun _ => ⟨_, Dict.get?_insert_self, rfl, congrArg (· + 1) sequence, ?_⟩, fun gone => ?_⟩
    · constructor
      · intro dead
        cases dead
      · exact fun one => absurd one unreported
    · rw [here] at gone
      cases gone
  · refine tenure.idle ?_ (if_neg own) rfl rfl
    exact Dict.get?_insert_of_ne (Ne.symm own)

theorem Tenure.markSuspect (tenure : Tenure registry workerId seen beats reports removed) (other errorCode : String)
    (now : Seconds) : TenureAfter (registry.perform now (.markSuspect other errorCode)).2 workerId seen beats reports
      removed ⟨.markSuspect other errorCode, now, (registry.perform now (.markSuspect other errorCode)).1⟩ := by
  have noReport : (⟨.markSuspect other errorCode, now, answered (registry.markSuspect other errorCode).1⟩ :
      RegistryEntry).reports workerId = 0 := by
    cases (registry.markSuspect other errorCode).1 <;> rfl
  have noBeat : (⟨.markSuspect other errorCode, now, answered (registry.markSuspect other errorCode).1⟩ :
      RegistryEntry).beat workerId = none := rfl
  change TenureAfter (registry.markSuspect other errorCode).2 workerId seen beats reports removed
    ⟨.markSuspect other errorCode, now, answered (registry.markSuspect other errorCode).1⟩
  rcases registry.markSuspect_cases other errorCode with run | ⟨current, held, alive, run⟩
  · exact tenure.idle (by rw [run]) noBeat noReport rfl
  by_cases own : other = workerId
  · subst own
    have here := tenure.here held
    obtain ⟨v, found, heard, sequence, status⟩ := tenure.present here
    cases held.symm.trans found
    have unreported : reports ≠ 1 := fun one => alive (Or.inl (status.mpr one))
    unfold TenureAfter
    rw [run, noReport, noBeat]
    refine ⟨tenure.once, fun _ => ⟨_, Dict.get?_insert_self, heard, sequence, ?_⟩, fun gone => ?_⟩
    · constructor
      · intro dead
        cases dead
      · exact fun one => absurd one unreported
    · rw [here] at gone
      cases gone
  · refine tenure.idle ?_ noBeat noReport rfl
    rw [run]
    exact Dict.get?_insert_of_ne (Ne.symm own)

theorem Tenure.unregister (tenure : Tenure registry workerId seen beats reports removed) (other : String)
    (now : Seconds) : TenureAfter (registry.perform now (.unregister other)).2 workerId seen beats reports removed
      ⟨.unregister other, now, (registry.perform now (.unregister other)).1⟩ := by
  by_cases own : other = workerId
  · subst own
    have leaves : (⟨.unregister other, now, .done⟩ : RegistryEntry).removes other = true := decide_eq_true rfl
    change TenureAfter (registry.unregister other) other seen beats reports removed ⟨.unregister other, now, .done⟩
    unfold TenureAfter
    rw [leaves, Bool.or_true]
    exact ⟨tenure.once, fun here => (by cases here), fun _ => Dict.get?_erase_self⟩
  · have stays : (⟨.unregister other, now, .done⟩ : RegistryEntry).removes workerId = false :=
      decide_eq_false fun same => own (RegistryCall.unregister.inj same)
    exact tenure.idle (Dict.get?_erase_of_ne (Ne.symm own)) rfl rfl stays

theorem Tenure.expireStale (tenure : Tenure registry workerId seen beats reports removed) (keyed : registry.Keyed)
    (now : Seconds) : TenureAfter (registry.perform now .expireStale).2 workerId seen beats reports removed
      ⟨.expireStale, now, (registry.perform now .expireStale).1⟩ := by
  obtain ⟨atMost, reported⟩ := expireStale_reports keyed now workerId
  have noBeat : (⟨.expireStale, now, .expired (registry.expireStale now).1⟩ : RegistryEntry).beat workerId = none := rfl
  have stays : (⟨.expireStale, now, .expired (registry.expireStale now).1⟩ : RegistryEntry).removes workerId = false := rfl
  have aged := get?_expireStale registry now workerId
  change TenureAfter (registry.expireStale now).2 workerId seen beats reports removed
    ⟨.expireStale, now, .expired (registry.expireStale now).1⟩
  unfold TenureAfter
  rw [noBeat, stays, Bool.or_false]
  change Tenure _ workerId seen (beats + 0) (reports + (registry.expireStale now).1.count workerId) removed
  generalize (registry.expireStale now).1.count workerId = count at *
  cases removed with
  | true =>
    have absent := tenure.absent rfl
    have none : count = 0 := by
      by_contra some
      obtain ⟨v, found, -⟩ := reported.mp (Nat.pos_of_ne_zero some)
      cases absent.symm.trans found
    rw [none]
    exact ⟨tenure.once, fun here => (by cases here), fun _ => by rw [aged, absent]; rfl⟩
  | false =>
    obtain ⟨v, found, heard, sequence, status⟩ := tenure.present rfl
    obtain ⟨-, given⟩ := keyed workerId v found
    obtain ⟨-, expires⟩ := age_status registry now given
    have once := tenure.once
    have counted : 0 < count ↔ v.healthStatus ≠ .unhealthy ∧ registry.heartbeatTimeoutSeconds < now - v.lastHeartbeat := by
      rw [reported]
      constructor
      · rintro ⟨w, same, both⟩
        cases found.symm.trans same
        exact both
      · exact fun both => ⟨v, found, both⟩
    refine ⟨?_, fun _ => ⟨registry.age now v, by rw [aged, found]; rfl, age_lastHeartbeat.trans heard,
      age_heartbeatSequence.trans sequence, ?_⟩, fun gone => (by cases gone)⟩
    · by_cases dead : v.healthStatus = .unhealthy
      · have none : ¬ 0 < count := fun some => (counted.mp some).1 dead
        omega
      · have zero : reports ≠ 1 := fun one => dead (status.mpr one)
        omega
    · rw [expires]
      by_cases dead : v.healthStatus = .unhealthy
      · have one := status.mp dead
        have none : ¬ 0 < count := fun some => (counted.mp some).1 dead
        exact ⟨fun _ => by omega, fun _ => Or.inl dead⟩
      · have zero : reports ≠ 1 := fun one => dead (status.mpr one)
        rw [or_iff_right dead]
        constructor
        · intro late
          have some := counted.mpr ⟨dead, late⟩
          omega
        · intro one
          exact (counted.mp (by omega)).2

/-- One call that does not register the worker anew. -/
theorem Tenure.perform (tenure : Tenure registry workerId seen beats reports removed) (keyed : registry.Keyed)
    {call : RegistryCall} (anew : ∀ worker, call = .register worker → worker.workerId ≠ workerId) (now : Seconds) :
    TenureAfter (registry.perform now call).2 workerId seen beats reports removed
      ⟨call, now, (registry.perform now call).1⟩ := by
  cases call with
  | register worker => exact tenure.idle (Dict.get?_insert_of_ne (anew worker rfl).symm) rfl rfl rfl
  | heartbeat worker => exact tenure.heartbeat worker now
  | markSuspect other errorCode => exact tenure.markSuspect other errorCode now
  | unregister other => exact tenure.unregister other now
  | expireStale => exact tenure.expireStale keyed now

end Steps

section Runs

/-- The times of a worker's successful heartbeats. -/
def beatsOf (workerId : String) (h : List RegistryEntry) : List Seconds := h.filterMap (·.beat workerId)

def reportsOf (workerId : String) (h : List RegistryEntry) : Nat := (h.map (·.reports workerId)).sum

def removedIn (workerId : String) (h : List RegistryEntry) : Bool := h.any (·.removes workerId)

variable {seen : Seconds} {beats reports : Nat} {removed : Bool} {calls : List (RegistryCall × Seconds)}

theorem run_keyed (keyed : registry.Keyed) (calls : List (RegistryCall × Seconds)) : (registry.run calls).Keyed := by
  induction calls generalizing registry with
  | nil => exact keyed
  | cons c rest ih => exact ih (perform_keyed keyed c.2 c.1)

theorem perform_timeout (registry : WorkerRegistry) (now : Seconds) (call : RegistryCall) :
    (registry.perform now call).2.heartbeatTimeoutSeconds = registry.heartbeatTimeoutSeconds := by
  cases call with
  | register worker => rfl
  | heartbeat worker =>
    change (registry.heartbeat worker now).2.heartbeatTimeoutSeconds = _
    rcases registry.heartbeat_cases worker now with ⟨raised, run, -⟩ | ⟨current, -, -, run⟩ <;> rw [run]
  | markSuspect workerId errorCode =>
    change (registry.markSuspect workerId errorCode).2.heartbeatTimeoutSeconds = _
    rcases registry.markSuspect_cases workerId errorCode with run | ⟨current, -, -, run⟩ <;> rw [run]
  | unregister workerId => rfl
  | expireStale => rfl

theorem run_timeout (registry : WorkerRegistry) (calls : List (RegistryCall × Seconds)) :
    (registry.run calls).heartbeatTimeoutSeconds = registry.heartbeatTimeoutSeconds := by
  induction calls generalizing registry with
  | nil => rfl
  | cons c rest ih => exact (ih _).trans (perform_timeout registry c.2 c.1)

/-- Any calls that do not register the worker anew. -/
theorem Tenure.run (tenure : Tenure registry workerId seen beats reports removed) (keyed : registry.Keyed)
    (anew : ∀ c ∈ calls, ∀ worker, c.1 = .register worker → worker.workerId ≠ workerId) :
    Tenure (registry.run calls) workerId ((beatsOf workerId (registry.history calls)).getLast?.getD seen)
      (beats + (beatsOf workerId (registry.history calls)).length)
      (reports + reportsOf workerId (registry.history calls)) (removed || removedIn workerId (registry.history calls)) := by
  induction calls generalizing registry seen beats reports removed with
  | nil =>
    change Tenure registry workerId seen beats reports (removed || false)
    rw [Bool.or_false]
    exact tenure
  | cons c rest ih =>
    obtain ⟨call, now⟩ := c
    have first := tenure.perform keyed (anew (call, now) List.mem_cons_self) now
    have later := ih first (perform_keyed keyed now call) fun c member => anew c (List.mem_cons_of_mem _ member)
    have beats_cons : beatsOf workerId (registry.history ((call, now) :: rest)) =
        ((⟨call, now, (registry.perform now call).1⟩ : RegistryEntry).beat workerId).toList ++
          beatsOf workerId ((registry.perform now call).2.history rest) := by
      unfold beatsOf
      rw [history, List.filterMap_cons]
      cases (⟨call, now, (registry.perform now call).1⟩ : RegistryEntry).beat workerId <;> rfl
    have last : (beatsOf workerId (registry.history ((call, now) :: rest))).getLast?.getD seen =
        (beatsOf workerId ((registry.perform now call).2.history rest)).getLast?.getD
          (((⟨call, now, (registry.perform now call).1⟩ : RegistryEntry).beat workerId).getD seen) := by
      rw [beats_cons]
      cases (⟨call, now, (registry.perform now call).1⟩ : RegistryEntry).beat workerId with
      | none => rfl
      | some time =>
        rw [Option.toList_some, List.singleton_append, List.getLast?_cons]
        rfl
    have count : reportsOf workerId (registry.history ((call, now) :: rest)) =
        (⟨call, now, (registry.perform now call).1⟩ : RegistryEntry).reports workerId +
          reportsOf workerId ((registry.perform now call).2.history rest) := by
      unfold reportsOf
      rw [history, List.map_cons, List.sum_cons]
    have leaves : removedIn workerId (registry.history ((call, now) :: rest)) =
        ((⟨call, now, (registry.perform now call).1⟩ : RegistryEntry).removes workerId ||
          removedIn workerId ((registry.perform now call).2.history rest)) := by
      unfold removedIn
      rw [history, List.any_cons]
    rw [last, beats_cons, count, leaves, List.length_append, ← Nat.add_assoc, ← Nat.add_assoc, ← Bool.or_assoc]
    exact later

theorem Tenure.start (registry : WorkerRegistry) (worker : WorkerState) (now : Seconds) :
    Tenure (registry.register worker now) worker.workerId now 0 0 false :=
  ⟨Nat.zero_le 1, fun _ => ⟨_, Dict.get?_insert_self, rfl, rfl, by simp⟩, fun gone => (by cases gone)⟩

/-- What a scan reports of a worker that has a tenure. -/
theorem Tenure.reported_iff (tenure : Tenure registry workerId seen beats reports removed) (keyed : registry.Keyed)
    (now : Seconds) : workerId ∈ (registry.expireStale now).1 ↔
      removed = false ∧ reports = 0 ∧ registry.heartbeatTimeoutSeconds < now - seen := by
  rw [← List.count_pos_iff, (expireStale_reports keyed now workerId).2]
  have once := tenure.once
  constructor
  · rintro ⟨v, found, alive, late⟩
    have here := tenure.here found
    obtain ⟨w, same, heard, -, status⟩ := tenure.present here
    cases found.symm.trans same
    have unreported : reports ≠ 1 := fun one => alive (status.mpr one)
    exact ⟨here, by omega, heard ▸ late⟩
  · rintro ⟨here, unreported, late⟩
    obtain ⟨v, found, heard, -, status⟩ := tenure.present here
    refine ⟨v, found, fun dead => ?_, heard ▸ late⟩
    have one := status.mp dead
    omega

end Runs

/-- Between two registrations of a worker it is reported at most once: exactly
when it is registered still, was not reported yet and was not heard of for more
than the timeout. From then on it stays unhealthy and cannot send a heartbeat. -/
theorem expiry_once {registry : WorkerRegistry} (new : registry.workers = .empty)
    (before calls : List (RegistryCall × Seconds)) (worker : WorkerState) (at_ : Seconds)
    (anew : ∀ c ∈ calls, ∀ w, c.1 = .register w → w.workerId ≠ worker.workerId) :
    reportsOf worker.workerId (((registry.run before).register worker at_).history calls) ≤ 1 ∧
    (∀ now, worker.workerId ∈ ((((registry.run before).register worker at_).run calls).expireStale now).1 ↔
      removedIn worker.workerId (((registry.run before).register worker at_).history calls) = false ∧
      reportsOf worker.workerId (((registry.run before).register worker at_).history calls) = 0 ∧
      registry.heartbeatTimeoutSeconds < now -
        (beatsOf worker.workerId (((registry.run before).register worker at_).history calls)).getLast?.getD at_) ∧
    ((((registry.run before).register worker at_).run calls).get worker.workerId = none ↔
      removedIn worker.workerId (((registry.run before).register worker at_).history calls) = true) ∧
    (∀ v, (((registry.run before).register worker at_).run calls).get worker.workerId = some v →
      v.heartbeatSequence =
        (beatsOf worker.workerId (((registry.run before).register worker at_).history calls)).length ∧
      (v.healthStatus = .unhealthy ↔
        reportsOf worker.workerId (((registry.run before).register worker at_).history calls) = 1)) ∧
    (reportsOf worker.workerId (((registry.run before).register worker at_).history calls) = 1 →
      ∀ w now, w.workerId = worker.workerId → ∃ raised,
        (((registry.run before).register worker at_).run calls).heartbeat w now =
          (.error raised, ((registry.run before).register worker at_).run calls)) := by
  have empty : registry.Keyed := by
    intro key v found
    rw [new] at found
    cases found
  have keyed := register_keyed (run_keyed empty before) worker at_
  have tenure := (Tenure.start (registry.run before) worker at_).run keyed anew
  have timeout : (((registry.run before).register worker at_).run calls).heartbeatTimeoutSeconds =
      registry.heartbeatTimeoutSeconds := (run_timeout _ calls).trans (run_timeout registry before)
  rw [Bool.false_or, Nat.zero_add, Nat.zero_add] at tenure
  have final := run_keyed keyed calls
  generalize ((registry.run before).register worker at_).run calls = after at *
  generalize ((registry.run before).register worker at_).history calls = h at *
  refine ⟨tenure.once, fun now => ?_, ?_, ?_, ?_⟩
  · rw [tenure.reported_iff final, timeout]
  · constructor
    · intro absent
      by_contra here
      obtain ⟨v, found, -⟩ := tenure.present (by simpa using here)
      cases absent.symm.trans found
    · exact tenure.absent
  · intro v found
    obtain ⟨w, same, -, sequence, status⟩ := tenure.present (tenure.here found)
    cases found.symm.trans same
    exact ⟨sequence, status⟩
  · intro one w now own
    rcases after.heartbeat_cases w now with ⟨raised, run, -⟩ | ⟨current, held, alive, -⟩
    · exact ⟨raised, run⟩
    · rw [own] at held
      obtain ⟨v, same, -, -, status⟩ := tenure.present (tenure.here held)
      cases held.symm.trans same
      exact absurd (Or.inl (status.mpr one)) alive

namespace Sample

def fresh : WorkerRegistry := ⟨10, 4, .empty, by decide⟩

def worker : WorkerState where
  workerId := "worker"
  totalMemoryBytes := none
  availableMemoryBytes := none
  residentModels := []
  loadingModels := []
  queueDepth := 0
  activeBatchCount := 0
  maxConcurrency := 1
  healthStatus := .registering
  draining := false
  lastHeartbeat := 0
  allocatedMemoryBytes := none
  reservedMemoryBytes := none
  heartbeatSequence := 0
  consecutiveFailures := 0
  lastErrorCode := none

/-- A heartbeat in time, one that is late, and a scan after the timeout. -/
def calls : List (RegistryCall × Seconds) := [(.heartbeat worker, 3), (.expireStale, 8), (.heartbeat worker, 9)]

end Sample

open Sample in
theorem expiry_once_sample :
    "worker" ∈ ((((fresh.run []).register worker 0).run calls).expireStale 20).1 := by
  have new : fresh.workers = .empty := rfl
  refine ((expiry_once new [] calls worker 0 ?_).2.1 20).mpr (by decide)
  intro c member w same
  simp only [calls, List.mem_cons, List.not_mem_nil, or_false] at member
  rcases member with rfl | rfl | rfl <;> cases same

end WorkerRegistry

end ServingPlatform
