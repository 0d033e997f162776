import ServingPlatform.ControlPlane.Liveness
import ServingPlatform.ControlPlane.RecoveryRuns
import ServingPlatform.ControlPlane.Reservations
import ServingPlatform.Placement.Selection

namespace ServingPlatform

/-- `ManagedWorker.register`; a stopped worker also stops draining. -/
def ManagedWorker.register (w : ManagedWorker) (registry : WorkerRegistry) (capacity : Except Raised RuntimeCapacity)
    (now : Seconds) : Except Raised WorkerState × ManagedWorker × WorkerRegistry :=
  let w := { w with
    draining := if w.health = .stopped then false else w.draining
    health := .healthy }
  match capacity with
  | .error raised => (.error raised, w, registry)
  | .ok capacity =>
    match w.snapshot capacity now with
    | .error raised => (.error raised, w, registry)
    | .ok snapshot => (.ok snapshot, w, registry.register snapshot now)

/-- The control plane under its supervisor. The pending workers have
expired, and are recovered one after the other. -/
structure Supervision where
  plane : Plane
  pending : List String

/-- What happens to the registry and the directory: a worker starts, which adds its handle, or sends a heartbeat;
the supervisor scans the heartbeats or recovers the next expired worker; a worker registers again through its handle. -/
inductive SupervisionStep
  | startUp (workerId : String) (capacity : Except Raised RuntimeCapacity) (now : Seconds)
  | heartbeat (workerId : String) (capacity : Except Raised RuntimeCapacity) (now : Seconds)
  | expire (now : Seconds)
  | recover (inputs : RecoveryReadings) (maxAttempts : Int)
  | reregister (workerId : String) (capacity : Except Raised RuntimeCapacity) (now : Seconds)

namespace Supervision

/-- A registration through the handle of a worker. -/
def register (s : Supervision) (workerId : String) (capacity : Except Raised RuntimeCapacity) (now : Seconds) :
    Except Raised WorkerState × Supervision :=
  let (answer, w, registry) := (s.plane.workers workerId).register s.plane.registry capacity now
  (answer, { s with plane := { s.plane.setWorker workerId w with registry := registry } })

/-- `WorkerDirectory.add`. -/
def addHandle (s : Supervision) (workerId : String) : Supervision :=
  { s with plane := { s.plane with directory := workerId :: s.plane.directory } }

/-- An exception ends the supervisor. -/
def step (s : Supervision) : SupervisionStep → Supervision
  | .startUp workerId capacity now =>
    match s.register workerId capacity now with
    | (.ok _, s) => s.addHandle (s.plane.workers workerId).workerId
    | (.error _, s) => s
  | .heartbeat workerId capacity now =>
    { s with plane := { s.plane with
      registry := ((s.plane.workers workerId).heartbeat s.plane.registry capacity now).2 } }
  | .expire now =>
    ⟨{ s.plane with registry := (s.plane.registry.expireStale now).2 },
      s.pending ++ (s.plane.registry.expireStale now).1⟩
  | .recover inputs maxAttempts =>
    match s.pending with
    | [] => s
    | workerId :: rest =>
      match Plane.recoverFailedWorker inputs workerId maxAttempts s.plane with
      | (.ok _, plane) => ⟨plane, rest⟩
      | (.error _, plane) => ⟨plane, []⟩
  | .reregister workerId capacity now => (s.register workerId capacity now).2

def run (s : Supervision) (steps : List SupervisionStep) : Supervision := steps.foldl step s

/-- Every worker that requests can be placed on can be reached. -/
def Placeable (s : Supervision) : Prop :=
  ∀ worker ∈ s.plane.registry.list, worker.healthStatus = .healthy → worker.draining = false →
    worker.workerId ∈ s.plane.directory

/-- A worker does not register while its recovery is outstanding, and not
again through a handle that a recovery has removed. -/
def Allowed (s : Supervision) : SupervisionStep → Prop
  | .startUp workerId _ _ => (s.plane.workers workerId).workerId ∉ s.pending
  | .reregister workerId _ _ => (s.plane.workers workerId).workerId ∉ s.pending ∧
      (s.plane.workers workerId).workerId ∈ s.plane.directory
  | _ => True

def AlwaysAllowed : Supervision → List SupervisionStep → Prop
  | _, [] => True
  | s, next :: rest => s.Allowed next ∧ AlwaysAllowed (s.step next) rest

/-- A worker that is not unhealthy has a handle, and no recovery of it is outstanding. -/
structure Backed (s : Supervision) : Prop where
  keyed : s.plane.registry.Keyed
  handled : ∀ key worker, s.plane.registry.workers.get? key = some worker → worker.healthStatus ≠ .unhealthy →
    key ∈ s.plane.directory ∧ key ∉ s.pending

section Steps

variable {s : Supervision} {workerId : String} {capacity : Except Raised RuntimeCapacity} {now : Seconds}

theorem snapshot_workerId {w : ManagedWorker} {capacity : RuntimeCapacity} {snapshot : WorkerState}
    (taken : w.snapshot capacity now = .ok snapshot) : snapshot.workerId = w.workerId ∧ snapshot.draining = w.draining := by
  unfold ManagedWorker.snapshot WorkerState.checked at taken
  dsimp only at taken
  split_ifs at taken
  cases taken
  exact ⟨rfl, rfl⟩

/-- A registration that succeeds lists the worker under its id; one that fails changes no table. -/
theorem register_cases (s : Supervision) (workerId : String) (capacity : Except Raised RuntimeCapacity) (now : Seconds) :
    (∃ raised s', s.register workerId capacity now = (.error raised, s') ∧ s'.plane.registry = s.plane.registry ∧
      s'.plane.directory = s.plane.directory ∧ s'.pending = s.pending) ∨
    ∃ snapshot s', s.register workerId capacity now = (.ok snapshot, s') ∧
      snapshot.workerId = (s.plane.workers workerId).workerId ∧
      s'.plane.registry = s.plane.registry.register snapshot now ∧ s'.plane.directory = s.plane.directory ∧
      s'.pending = s.pending ∧ (s'.plane.workers workerId).workerId = (s.plane.workers workerId).workerId := by
  unfold register ManagedWorker.register
  dsimp only
  split
  · exact Or.inl ⟨_, _, rfl, rfl, rfl, rfl⟩
  split
  · exact Or.inl ⟨_, _, rfl, rfl, rfl, rfl⟩
  · rename_i snapshot taken
    refine Or.inr ⟨snapshot, _, rfl, (snapshot_workerId taken).1, rfl, rfl, rfl, ?_⟩
    simp only [Plane.setWorker, if_true]

/-- A recovery touches the directory only, and only the handle of its worker. -/
theorem recoverFailedWorker_tables (inputs : RecoveryReadings) (workerId : String) (maxAttempts : Int) (p : Plane) :
    (Plane.recoverFailedWorker inputs workerId maxAttempts p).2.registry = p.registry ∧
      ∀ other, other ≠ workerId → other ∈ p.directory →
        other ∈ (Plane.recoverFailedWorker inputs workerId maxAttempts p).2.directory := by
  have requeued : ∀ i now, (Plane.requeue i now).Keeps fun p => (p.registry, p.directory) := by
    intro i now p
    have failing : (Plane.transition i .failed now >>= fun _ =>
        Plane.modify i (fun r => r.addReason "global_retry_queue_unavailable") >>= fun _ =>
          pure RecoveryOutcome.failed).Keeps fun p => (p.registry, p.directory) :=
      .bind (fun _ => rfl) fun _ => .bind (fun _ => rfl) fun _ => Attempt.keeps_pure _
    unfold Plane.requeue
    split
    · exact failing p
    · split <;> rfl
  have settled : ∀ r, (Plane.settle inputs maxAttempts r).Keeps fun p => (p.registry, p.directory) := by
    intro r
    unfold Plane.settle
    dsimp only
    split
    · exact .bind (fun _ => rfl) fun _ => .bind (fun _ => rfl) fun _ => Attempt.keeps_pure _
    · refine .bind ?_ fun _ => .bind (fun _ => rfl) fun _ => requeued _ _
      split
      · exact fun _ => rfl
      · exact Attempt.keeps_pure _
  have saved : ∀ i, (Plane.save none i).Keeps fun p => (p.registry, p.directory) := by
    intro i p
    rcases Plane.save_cases none i p with ⟨raised, -, -, run, -⟩ | ⟨store, run, -⟩ <;> rw [run]
  have one : ∀ requestId, (Plane.recoverRequest inputs workerId maxAttempts requestId).Keeps
      fun p => (p.registry, p.directory) := by
    intro requestId
    refine .bind (fun _ => rfl) fun r => ?_
    split
    · exact Attempt.keeps_pure _
    · exact (settled r).bind fun _ => (saved _).bind fun _ => Attempt.keeps_pure _
  have all : ∀ requestIds counts, (Plane.recoverAll inputs workerId maxAttempts counts requestIds).Keeps
      fun p => (p.registry, p.directory) := by
    intro requestIds
    induction requestIds with
    | nil => exact fun counts => Attempt.keeps_pure _
    | cons first rest induct => exact fun counts => (one first).bind fun outcome => induct (counts.count outcome)
  unfold Plane.recoverFailedWorker
  split
  · exact ⟨rfl, fun _ _ member => member⟩
  split
  · exact ⟨rfl, fun _ _ member => member⟩
  · rename_i store held
    obtain ⟨registry, directory⟩ := Prod.mk.inj
      (all (sortedKeys store.requests) ⟨0, 0, 0⟩ (p.listed inputs workerId store))
    refine ⟨registry, fun other differs member => ?_⟩
    rw [directory]
    exact List.mem_filter.mpr ⟨member, by simpa using differs⟩

/-- A registration keeps every worker backed whose handle is there, or is added at once. -/
theorem Backed.registered {s' : Supervision} {snapshot : WorkerState} (backed : s.Backed)
    (registered : s'.plane.registry = s.plane.registry.register snapshot now)
    (kept : ∀ other ∈ s.plane.directory, other ∈ s'.plane.directory) (pending : s'.pending = s.pending)
    (idle : snapshot.workerId ∉ s.pending) (handled : snapshot.workerId ∈ s'.plane.directory) : s'.Backed := by
  constructor
  · rw [registered]
    exact WorkerRegistry.register_keyed backed.keyed snapshot now
  · intro key worker found alive
    rw [registered, WorkerRegistry.register, Dict.get?_insert] at found
    rw [pending]
    split_ifs at found with same
    · rw [same]
      exact ⟨handled, idle⟩
    · obtain ⟨listed, idle⟩ := backed.handled key worker found alive
      exact ⟨kept key listed, idle⟩

theorem Backed.heartbeat (backed : s.Backed) : (s.step (.heartbeat workerId capacity now)).Backed := by
  have unchanged : ∀ {registry : WorkerRegistry}, registry = s.plane.registry →
      Backed { s with plane := { s.plane with registry := registry } } := by
    rintro registry rfl
    exact ⟨backed.keyed, backed.handled⟩
  unfold step
  dsimp only
  unfold ManagedWorker.heartbeat
  split
  · exact unchanged rfl
  split
  · exact unchanged rfl
  rename_i memory
  split
  · exact unchanged rfl
  rename_i snapshot taken
  have keyed := WorkerRegistry.perform_keyed backed.keyed now (.heartbeat snapshot)
  have beat : (s.plane.registry.perform now (.heartbeat snapshot)).2 = (s.plane.registry.heartbeat snapshot now).2 := rfl
  rw [beat] at keyed
  rcases s.plane.registry.heartbeat_cases snapshot now with ⟨raised, run, -⟩ | ⟨current, found, alive, run⟩
  · rw [run]
    exact unchanged rfl
  · rw [run] at keyed ⊢
    refine ⟨keyed, fun key worker listed healthy => ?_⟩
    rw [Dict.get?_insert] at listed
    split_ifs at listed with same
    · rw [same]
      exact backed.handled _ current found fun dead => alive (Or.inl dead)
    · exact backed.handled key worker listed healthy

/-- What a scan leaves alive it has not reported. -/
theorem Backed.expire (backed : s.Backed) : (s.step (.expire now)).Backed := by
  have keyed := WorkerRegistry.perform_keyed backed.keyed now .expireStale
  refine ⟨keyed, fun key worker found alive => ?_⟩
  have aged : (s.plane.registry.workers.get? key).map (s.plane.registry.age now) = some worker := by
    rw [← WorkerRegistry.get?_expireStale]
    exact found
  obtain ⟨before, listed, rfl⟩ := Option.map_eq_some_iff.mp aged
  obtain ⟨-, given⟩ := backed.keyed key before listed
  obtain ⟨-, expires⟩ := WorkerRegistry.age_status s.plane.registry now given
  have young := fun dead => alive (expires.mpr dead)
  obtain ⟨handled, idle⟩ := backed.handled key before listed fun dead => young (Or.inl dead)
  refine ⟨handled, fun member => ?_⟩
  rcases List.mem_append.mp member with outstanding | reported
  · exact idle outstanding
  · obtain ⟨late, same, -, old⟩ := (WorkerRegistry.expireStale_reports backed.keyed now key).2.mp
      (List.count_pos_iff.mpr reported)
    obtain rfl : before = late := Option.some.inj (listed.symm.trans same)
    exact young (Or.inr old)

theorem Backed.recover (backed : s.Backed) {inputs : RecoveryReadings} {maxAttempts : Int} :
    (s.step (.recover inputs maxAttempts)).Backed := by
  unfold step
  dsimp only
  split
  · exact backed
  rename_i next rest waits
  obtain ⟨registry, directory⟩ := recoverFailedWorker_tables inputs next maxAttempts s.plane
  have still : ∀ pending, pending ⊆ rest →
      Backed ⟨(Plane.recoverFailedWorker inputs next maxAttempts s.plane).2, pending⟩ := by
    intro pending fewer
    refine ⟨registry.symm ▸ backed.keyed, fun key worker found alive => ?_⟩
    rw [registry] at found
    obtain ⟨handled, idle⟩ := backed.handled key worker found alive
    rw [waits] at idle
    exact ⟨directory key (fun same => idle (same ▸ List.mem_cons_self)) handled,
      fun member => idle (List.mem_cons_of_mem _ (fewer member))⟩
  split
  · rename_i answer plane run
    have kept := still rest (List.Subset.refl _)
    rwa [run] at kept
  · rename_i raised plane run
    have kept := still [] (List.nil_subset _)
    rwa [run] at kept

theorem Backed.step (backed : s.Backed) {next : SupervisionStep} (allowed : s.Allowed next) : (s.step next).Backed := by
  cases next with
  | startUp workerId capacity now =>
    unfold Supervision.step
    dsimp only
    rcases s.register_cases workerId capacity now with
      ⟨raised, s', run, registry, directory, pending⟩ | ⟨snapshot, s', run, named, registry, directory, pending, same⟩
    · rw [run]
      exact ⟨registry.symm ▸ backed.keyed, by rw [registry, directory, pending]; exact backed.handled⟩
    · rw [run]
      refine backed.registered registry (fun other member => ?_) pending (named ▸ allowed) ?_
      · exact List.mem_cons_of_mem _ (directory.symm ▸ member)
      · rw [named, ← same]
        exact List.mem_cons_self
  | heartbeat workerId capacity now => exact backed.heartbeat
  | expire now => exact backed.expire
  | recover inputs maxAttempts => exact backed.recover
  | reregister workerId capacity now =>
    unfold Supervision.step
    dsimp only
    rcases s.register_cases workerId capacity now with
      ⟨raised, s', run, registry, directory, pending⟩ | ⟨snapshot, s', run, named, registry, directory, pending, -⟩
    · rw [run]
      exact ⟨registry.symm ▸ backed.keyed, by rw [registry, directory, pending]; exact backed.handled⟩
    · rw [run]
      refine backed.registered registry (fun other member => directory.symm ▸ member) pending (named ▸ allowed.1) ?_
      rw [named, directory]
      exact allowed.2

theorem Backed.run (backed : s.Backed) {steps : List SupervisionStep} (allowed : AlwaysAllowed s steps) :
    (s.run steps).Backed := by
  induction steps generalizing s with
  | nil => exact backed
  | cons next rest ih => exact ih (backed.step allowed.1) allowed.2

theorem Backed.placeable (backed : s.Backed) : s.Placeable := by
  intro worker member healthy _
  obtain ⟨key, -, found⟩ := List.mem_filterMap.mp member
  obtain ⟨named, -⟩ := backed.keyed key worker found
  rw [named]
  exact (backed.handled key worker found (by rw [healthy]; exact nofun)).1

/-- A worker that registers again without a handle is placed on and cannot be reached. -/
theorem unreachable_of_reregister {snapshot : WorkerState} {s' : Supervision}
    (registered : s.register workerId capacity now = (.ok snapshot, s')) (staying : snapshot.draining = false)
    (lost : snapshot.workerId ∉ s.plane.directory) : ¬(s.step (.reregister workerId capacity now)).Placeable := by
  have after : s.step (.reregister workerId capacity now) = s' := congrArg Prod.snd registered
  rcases s.register_cases workerId capacity now with
    ⟨raised, _, run, -⟩ | ⟨_, _, run, -, registry, directory, -⟩
  · rw [registered] at run
    cases run
  · rw [registered] at run
    obtain ⟨same, rfl⟩ := Prod.mk.inj run
    obtain rfl := Except.ok.inj same
    intro placeable
    have found : s'.plane.registry.workers.get? snapshot.workerId = some { snapshot with
        healthStatus := .healthy
        lastHeartbeat := now
        heartbeatSequence := 0
        consecutiveFailures := 0
        lastErrorCode := none } := by
      rw [registry]
      exact Dict.get?_insert_self
    have listed := List.mem_filterMap.mpr ⟨snapshot.workerId,
      mem_sortedKeys.mpr (Dict.mem_keys_iff.mpr ⟨_, found⟩), found⟩
    rw [after] at placeable
    have reachable := placeable _ listed rfl staying
    exact lost (directory ▸ reachable)

/-- The reservations change nothing in whether a worker accepts work. -/
theorem effectiveWorkers_accepting (reservations : PlacementReservations) (registry : WorkerRegistry) {worker : WorkerState}
    (member : worker ∈ reservations.effectiveWorkers registry) : ∃ listed ∈ registry.list,
      listed.workerId = worker.workerId ∧ listed.healthStatus = worker.healthStatus ∧ listed.draining = worker.draining := by
  have charged : ∀ (book : List PlacementReservation) (workers : Dict String WorkerState) (models : List (String × String)),
      (∀ key v, workers.get? key = some v → ∃ w, registry.workers.get? key = some w ∧ w.workerId = v.workerId ∧
        w.healthStatus = v.healthStatus ∧ w.draining = v.draining) →
      ∀ key v, (book.foldl (fun charged reservation =>
          PlacementReservations.charge reservation charged.1 charged.2) (workers, models)).1.get? key = some v →
        ∃ w, registry.workers.get? key = some w ∧ w.workerId = v.workerId ∧ w.healthStatus = v.healthStatus ∧
          w.draining = v.draining := by
    intro book
    induction book with
    | nil => exact fun _ _ same => same
    | cons reservation rest ih =>
      intro workers models same
      rw [List.foldl_cons]
      refine ih _ _ fun key v found => ?_
      change (PlacementReservations.charge reservation workers models).1.get? key = some v at found
      unfold PlacementReservations.charge at found
      split at found
      · exact same key v found
      rename_i charged held
      dsimp only at found
      split at found <;>
      · rw [Dict.get?_insert] at found
        split_ifs at found with here
        · cases found
          exact here ▸ same _ charged held
        · exact same key v found
  obtain ⟨key, -, found⟩ := List.mem_filterMap.mp member
  obtain ⟨listed, held, same⟩ := charged reservations.values registry.workers [] (fun _ v found => ⟨v, found, rfl, rfl, rfl⟩)
    key worker found
  exact ⟨listed, List.mem_filterMap.mpr ⟨key, mem_sortedKeys.mpr (Dict.mem_keys_iff.mpr ⟨listed, held⟩), held⟩, same⟩

end Steps

/-- Where no worker registers through a handle that a recovery has removed or
is about to remove, every worker that is placed on can be reached, whatever
is reserved. Any other registration that succeeds ends this. -/
theorem placeable_workers_reachable {p : Plane} (new : p.registry.workers = .empty) {steps : List SupervisionStep}
    (allowed : AlwaysAllowed ⟨p, []⟩ steps) :
    (run ⟨p, []⟩ steps).Placeable ∧
    (∀ (reservations : PlacementReservations), ∀ worker ∈
      reservations.effectiveWorkers (run ⟨p, []⟩ steps).plane.registry, worker.Accepting →
        worker.workerId ∈ (run ⟨p, []⟩ steps).plane.directory) ∧
    ∀ workerId capacity now snapshot s', (run ⟨p, []⟩ steps).register workerId capacity now = (.ok snapshot, s') →
      snapshot.draining = false → snapshot.workerId ∉ (run ⟨p, []⟩ steps).plane.directory →
        ¬((run ⟨p, []⟩ steps).step (.reregister workerId capacity now)).Placeable := by
  have start : Backed ⟨p, []⟩ := by
    refine ⟨fun key v found => ?_, fun key v found => ?_⟩
    · rw [new] at found
      cases found
    · rw [new] at found
      cases found
  have placeable := (start.run allowed).placeable
  refine ⟨placeable, fun reservations worker member accepting => ?_, fun workerId capacity now snapshot s' registered =>
    unreachable_of_reregister registered⟩
  obtain ⟨listed, inside, named, healthy, draining⟩ := effectiveWorkers_accepting reservations _ member
  rw [← named]
  exact placeable listed inside (healthy.trans accepting.healthy) (draining.trans accepting.staying)

namespace Sample

/-- No worker is registered yet. -/
def unregistered : Plane := { Plane.Rejected.plane .empty [] with registry := { (Plane.Rejected.plane .empty []).registry with workers := .empty } }

def capacity : Except Raised RuntimeCapacity := .ok ⟨none, none, none, none⟩

/-- A worker starts and expires, and is recovered. -/
def lost : List SupervisionStep :=
  [.startUp "worker" capacity 0, .expire 31, .recover ⟨fun _ => 1, fun _ => 31, fun _ => 31, fun _ => 31⟩ 3]

end Sample

open Sample in
theorem placeable_workers_reachable_lost : (run ⟨unregistered, []⟩ lost).Placeable := by
  have allowed : AlwaysAllowed ⟨unregistered, []⟩ lost := ⟨List.not_mem_nil, trivial, trivial, trivial⟩
  exact (placeable_workers_reachable rfl allowed).1

open Sample in
/-- The recovered worker registers again, is listed as healthy, and cannot be reached. -/
theorem reregistered_worker_unreachable : ¬(run ⟨unregistered, []⟩ (lost ++ [.reregister "worker" capacity 32])).Placeable := by
  rw [run, List.foldl_append]
  exact unreachable_of_reregister (s := run ⟨unregistered, []⟩ lost) rfl rfl List.not_mem_nil

end Supervision

end ServingPlatform
