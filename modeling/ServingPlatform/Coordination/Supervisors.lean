import ServingPlatform.Coordination.Lease

namespace ServingPlatform

/-- Where a supervisor's loop is. Between two phases the loop does not use the
lease; a call of the lease is executed when its phase is left. -/
inductive SupervisorPhase
  | waiting
  | asking
  | claiming (owns : Bool)
  | claimed (granted : Bool)
  | expiring
  | recovering (workerIds : List String)
  | closing
  | leaving (owns : Bool)
  | ended
  deriving DecidableEq, Repr

/-- What makes a supervisor go on: the next step of its loop, the workers that
`expire_stale` returned, `stop`, or an exception. -/
inductive SupervisorMove
  | next
  | expired (workerIds : List String)
  | stop
  | raise
  deriving DecidableEq, Repr

namespace SupervisorPhase

/-- Inside the section that expires workers and recovers their requests. -/
def inSection : SupervisorPhase → Bool
  | .expiring | .recovering _ => true
  | _ => false

/-- Inside the section, or about to enter it with the lease just granted. -/
def admitted : SupervisorPhase → Bool
  | .claimed true | .expiring | .recovering _ => true
  | _ => false

/-- One step of `ReliabilitySupervisor.run`. -/
def advance (l : RedisLease) (k : ExpiringKey String) (now : Nat) :
    SupervisorPhase → SupervisorMove → SupervisorPhase × ExpiringKey String
  | .waiting, .next => (.asking, k)
  | .waiting, .stop => (.closing, k)
  | .asking, .next => (.claiming (l.isOwner k now), k)
  | .claiming true, .next => (.claimed (l.renew k now).1, (l.renew k now).2)
  | .claiming false, .next => (.claimed (l.acquire k now).1, (l.acquire k now).2)
  | .claimed true, .next => (.expiring, k)
  | .claimed false, .next => (.waiting, k)
  | .expiring, .expired workerIds => (.recovering workerIds, k)
  | .recovering (_ :: rest), .next => (.recovering rest, k)
  | .recovering [], .next => (.waiting, k)
  | .closing, .next => (.leaving (l.isOwner k now), k)
  | .leaving true, .next => (.ended, (l.release k now).2)
  | .leaving false, .next => (.ended, k)
  | .closing, .raise => (.ended, k)
  | .leaving _, .raise => (.ended, k)
  | .ended, .raise => (.ended, k)
  | _, .raise => (.closing, k)
  | phase, _ => (phase, k)

variable {l : RedisLease} {k : ExpiringKey String} {now : Nat} {phase : SupervisorPhase} {move : SupervisorMove}

theorem admitted_of_inSection (inside : phase.inSection = true) : phase.admitted = true := by
  cases phase with
  | expiring => rfl
  | recovering workerIds => rfl
  | _ => cases inside

/-- A step leaves the lease alone, or it is one of the supervisor's calls; who
is let in by it, or is in already, owns the lease then. -/
theorem advance_cases (l : RedisLease) (k : ExpiringKey String) (now : Nat) (phase : SupervisorPhase)
    (move : SupervisorMove) :
    (phase.advance l k now move).2 = k ∧ ((phase.advance l k now move).1.admitted = true → phase.admitted = true) ∨
    (phase.admitted = false ∧ ∃ call, (phase.advance l k now move).2 = (l.perform k now call).2 ∧
      ((phase.advance l k now move).1.admitted = true →
        (phase.advance l k now move).2.get now = some l.ownerToken)) := by
  cases phase with
  | waiting => cases move <;> exact Or.inl ⟨rfl, fun admitted => by cases admitted⟩
  | asking => cases move <;> exact Or.inl ⟨rfl, fun admitted => by cases admitted⟩
  | claiming owns =>
    cases move with
    | next =>
      cases owns with
      | true =>
        refine Or.inr ⟨rfl, .renew, rfl, fun admitted => ?_⟩
        cases granted : (l.renew k now).1 with
        | true => exact ExpiringKey.get_expireIf l.positive granted
        | false => simp [advance, granted, SupervisorPhase.admitted] at admitted
      | false =>
        refine Or.inr ⟨rfl, .acquire, rfl, fun admitted => ?_⟩
        cases granted : (l.acquire k now).1 with
        | true => exact ExpiringKey.get_setIfAbsent l.positive granted
        | false => simp [advance, granted, SupervisorPhase.admitted] at admitted
    | _ => cases owns <;> exact Or.inl ⟨rfl, fun admitted => by cases admitted⟩
  | claimed granted => cases granted <;> cases move <;> exact Or.inl ⟨rfl, fun admitted => by first | rfl | cases admitted⟩
  | expiring => cases move <;> exact Or.inl ⟨rfl, fun _ => rfl⟩
  | recovering workerIds => cases workerIds <;> cases move <;> exact Or.inl ⟨rfl, fun _ => rfl⟩
  | closing => cases move <;> exact Or.inl ⟨rfl, fun admitted => by cases admitted⟩
  | leaving owns =>
    cases owns with
    | true =>
      cases move with
      | next => exact Or.inr ⟨rfl, .release, rfl, fun admitted => by cases admitted⟩
      | _ => exact Or.inl ⟨rfl, fun admitted => by cases admitted⟩
    | false => cases move <;> exact Or.inl ⟨rfl, fun admitted => by cases admitted⟩
  | ended => cases move <;> exact Or.inl ⟨rfl, fun admitted => by cases admitted⟩

end SupervisorPhase

/-- The supervisors that share a lease: client `i` is in the `i`th phase. -/
structure SupervisorSystem where
  key : ExpiringKey String
  now : Nat
  phases : List SupervisorPhase

/-- One supervisor makes a step, or time passes. -/
inductive SupervisorEvent
  | move (supervisor : Nat) (move : SupervisorMove)
  | tick (duration : Nat)
  deriving DecidableEq, Repr

namespace SupervisorSystem

def start (clients : LeaseClients) : SupervisorSystem := ⟨.empty, 0, clients.leases.map fun _ => .waiting⟩

def step (clients : LeaseClients) (s : SupervisorSystem) : SupervisorEvent → SupervisorSystem
  | .move i move =>
    match clients.leases[i]?, s.phases[i]? with
    | some l, some phase =>
      { s with
        key := (phase.advance l s.key s.now move).2
        phases := s.phases.set i (phase.advance l s.key s.now move).1 }
    | _, _ => s
  | .tick duration => { s with now := s.now + duration }

def run (clients : LeaseClients) (s : SupervisorSystem) (events : List SupervisorEvent) : SupervisorSystem :=
  events.foldl (step clients) s

/-- No two supervisors are inside the section. -/
def Exclusive (s : SupervisorSystem) : Prop :=
  ∀ (i j : Nat) (a b : SupervisorPhase), s.phases[i]? = some a → s.phases[j]? = some b → a.inSection = true →
    b.inSection = true → i = j

/-- While a supervisor is in its section, time does not reach the lease's expiry. -/
def InTime (s : SupervisorSystem) : SupervisorEvent → Prop
  | .move _ _ => True
  | .tick duration => (∃ phase ∈ s.phases, phase.admitted = true) → s.key.get (s.now + duration) = s.key.get s.now

def AlwaysInTime (clients : LeaseClients) : SupervisorSystem → List SupervisorEvent → Prop
  | _, [] => True
  | s, event :: rest => s.InTime event ∧ AlwaysInTime clients (s.step clients event) rest

/-- Every supervisor that is let in owns the unexpired lease. -/
def Owned (clients : LeaseClients) (s : SupervisorSystem) : Prop :=
  ∀ (i : Nat) (phase : SupervisorPhase), s.phases[i]? = some phase → phase.admitted = true →
    ∃ l, clients.leases[i]? = some l ∧ s.key.get s.now = some l.ownerToken

variable {clients : LeaseClients} {s : SupervisorSystem}

theorem Owned.exclusive (owned : s.Owned clients) : s.Exclusive := by
  intro i j a b first second inside inside'
  obtain ⟨l, known, holds⟩ := owned i a first (SupervisorPhase.admitted_of_inSection inside)
  obtain ⟨l', known', holds'⟩ := owned j b second (SupervisorPhase.admitted_of_inSection inside')
  exact clients.eq_of_token known known' (Option.some.inj (holds.symm.trans holds'))

theorem start_owned (clients : LeaseClients) : (start clients).Owned clients := by
  intro i phase found admitted
  obtain ⟨l, -, rfl⟩ := Option.map_eq_some_iff.mp (List.getElem?_map.symm.trans found)
  cases admitted

theorem step_move {i : Nat} {l : RedisLease} {phase : SupervisorPhase} (known : clients.leases[i]? = some l)
    (found : s.phases[i]? = some phase) (move : SupervisorMove) : s.step clients (.move i move) =
      { s with
        key := (phase.advance l s.key s.now move).2
        phases := s.phases.set i (phase.advance l s.key s.now move).1 } := by
  simp only [step, known, found]

theorem step_move_cases (clients : LeaseClients) (s : SupervisorSystem) (i : Nat) (move : SupervisorMove) :
    s.step clients (.move i move) = s ∨ ∃ l phase, clients.leases[i]? = some l ∧ s.phases[i]? = some phase := by
  cases known : clients.leases[i]? with
  | none =>
    left
    simp only [step, known]
  | some l =>
    cases found : s.phases[i]? with
    | none =>
      left
      simp only [step, known, found]
    | some phase => exact Or.inr ⟨l, phase, rfl, rfl⟩

section Moves

variable {i j : Nat} {l : RedisLease} {phase other : SupervisorPhase} {move : SupervisorMove}

theorem phase_moved (known : clients.leases[i]? = some l) (found : s.phases[i]? = some phase) (move : SupervisorMove) :
    (s.step clients (.move i move)).phases[i]? = some (phase.advance l s.key s.now move).1 := by
  rw [step_move known found]
  exact List.getElem?_set_self (List.getElem?_eq_some_iff.mp found).1

theorem phase_of_other (differ : i ≠ j) (found : s.phases[j]? = some other) :
    (s.step clients (.move i move)).phases[j]? = some other := by
  rcases step_move_cases clients s i move with same | ⟨l, phase, known, held⟩
  · rw [same]
    exact found
  · rw [step_move known held]
    exact (List.getElem?_set_ne differ).trans found

end Moves

theorem Owned.move (owned : s.Owned clients) (i : Nat) (move : SupervisorMove) :
    (s.step clients (.move i move)).Owned clients := by
  rcases step_move_cases clients s i move with same | ⟨l, phase, known, found⟩
  · rw [same]
    exact owned
  have stepped := step_move known found move
  have now : (s.step clients (.move i move)).now = s.now := by rw [stepped]
  have key : (s.step clients (.move i move)).key = (phase.advance l s.key s.now move).2 := by rw [stepped]
  intro j other held admitted
  rw [now, key]
  by_cases same : i = j
  · subst same
    cases (phase_moved known found move).symm.trans held
    rcases phase.advance_cases l s.key s.now move with ⟨kept, before⟩ | ⟨outside, call, performed, granted⟩
    · rw [kept]
      exact owned i phase found (before admitted)
    · exact ⟨l, known, granted admitted⟩
  · have held : s.phases[j]? = some other := by
      rw [stepped] at held
      exact (List.getElem?_set_ne same).symm.trans held
    obtain ⟨l', known', holds⟩ := owned j other held admitted
    rcases phase.advance_cases l s.key s.now move with ⟨kept, before⟩ | ⟨outside, call, performed, granted⟩
    · rw [kept]
      exact ⟨l', known', holds⟩
    · -- Another supervisor is in its section, so the call of this one is refused.
      have others : l.ownerToken ≠ l'.ownerToken := fun equal => same (clients.eq_of_token known known' equal)
      rw [performed, RedisLease.perform_of_other holds others call]
      exact ⟨l', known', holds⟩

theorem Owned.tick (owned : s.Owned clients) {duration : Nat} (inTime : s.InTime (.tick duration)) :
    (s.step clients (.tick duration)).Owned clients := by
  intro i phase found admitted
  obtain ⟨l, known, holds⟩ := owned i phase found admitted
  exact ⟨l, known, (inTime ⟨phase, List.mem_of_getElem? found, admitted⟩).trans holds⟩

theorem Owned.run (owned : s.Owned clients) {events : List SupervisorEvent} (inTime : AlwaysInTime clients s events) :
    (s.run clients events).Owned clients := by
  induction events generalizing s with
  | nil => exact owned
  | cons event rest ih =>
    obtain ⟨now, later⟩ := inTime
    cases event with
    | move i move => exact ih (owned.move i move) later
    | tick duration => exact ih (owned.tick now) later

section Overrun

variable {i j : Nat} {l : RedisLease} {phase : SupervisorPhase}

/-- A supervisor that comes round when no lease is stored enters the section. -/
theorem enters_section (known : clients.leases[j]? = some l) (waits : s.phases[j]? = some .waiting)
    (absent : s.key.get s.now = none) (differ : j ≠ i) (found : s.phases[i]? = some phase) :
    ∃ events, (s.run clients events).phases[j]? = some .expiring ∧ (s.run clients events).phases[i]? = some phase := by
  have refused : l.isOwner s.key s.now = false := by
    rw [RedisLease.isOwner, absent]
    rfl
  have granted : l.acquire s.key s.now = (true, ⟨some (l.ownerToken, s.now + l.ttlMs)⟩) :=
    ExpiringKey.setIfAbsent_of_absent absent
  have asking : (s.step clients (.move j .next)).phases[j]? = some .asking := phase_moved known waits .next
  have first : s.step clients (.move j .next) = { s with phases := s.phases.set j .asking } :=
    step_move known waits .next
  rw [first] at asking
  have claiming := phase_moved known asking .next
  have second := step_move known asking .next
  simp only [SupervisorPhase.advance, refused] at claiming second
  rw [second] at claiming
  have claimed := phase_moved known claiming .next
  have third := step_move known claiming .next
  simp only [SupervisorPhase.advance, granted] at claimed third
  have expiring := phase_moved known claimed .next
  refine ⟨[.move j .next, .move j .next, .move j .next, .move j .next], ?_, ?_⟩
  · unfold run
    simp only [List.foldl_cons, List.foldl_nil]
    rw [first, second]
    exact expiring
  · exact phase_of_other differ (phase_of_other differ (phase_of_other differ (phase_of_other differ found)))

end Overrun

theorem length_run (clients : LeaseClients) (s : SupervisorSystem) (events : List SupervisorEvent) :
    (s.run clients events).phases.length = s.phases.length := by
  induction events generalizing s with
  | nil => rfl
  | cons event rest ih =>
    refine (ih (s.step clients event)).trans ?_
    cases event with
    | tick duration => rfl
    | move i move =>
      rcases step_move_cases clients s i move with same | ⟨l, phase, known, found⟩
      · rw [same]
      · rw [step_move known found]
        exact List.length_set

/-- Every phase is that of a client. -/
theorem client_of_phase {events : List SupervisorEvent} {i : Nat} {phase : SupervisorPhase}
    (found : (run clients (start clients) events).phases[i]? = some phase) : ∃ l, clients.leases[i]? = some l := by
  have bound := (List.getElem?_eq_some_iff.mp found).1
  rw [length_run, start, List.length_map] at bound
  exact ⟨_, List.getElem?_eq_getElem bound⟩

/-- Recovery is exclusive in every run in which no lease expires during its
owner's section; where one does, any supervisor that waits can make it fail. -/
theorem recovery_exclusive (clients : LeaseClients) (events : List SupervisorEvent)
    (inTime : AlwaysInTime clients (start clients) events) :
    (run clients (start clients) events).Exclusive ∧
    ∀ (i j : Nat) (phase : SupervisorPhase) (duration : Nat),
      (run clients (start clients) events).phases[i]? = some phase → phase.inSection = true →
      (run clients (start clients) events).phases[j]? = some .waiting →
      ¬ (run clients (start clients) events).InTime (.tick duration) →
      ∃ later, ¬ (run clients (start clients) (events ++ .tick duration :: later)).Exclusive := by
  have owned := (start_owned clients).run inTime
  refine ⟨owned.exclusive, ?_⟩
  intro i j phase duration found inside waits late
  obtain ⟨l, known⟩ := client_of_phase waits
  have joined : ∀ later, run clients (start clients) (events ++ .tick duration :: later) =
      run clients ((run clients (start clients) events).step clients (.tick duration)) later :=
    fun later => List.foldl_append
  generalize run clients (start clients) events = s at *
  have expired : s.key.get (s.now + duration) = none := by
    rw [Option.eq_none_iff_forall_ne_some]
    intro token still
    exact late fun _ => still.trans (ExpiringKey.get_of_later still (Nat.le_add_right _ _)).symm
  have differ : j ≠ i := by
    rintro rfl
    cases found.symm.trans waits
    cases inside
  obtain ⟨later, entered, stayed⟩ :=
    enters_section (s := s.step clients (.tick duration)) known waits expired differ found
  refine ⟨later, fun exclusive => differ ?_⟩
  rw [joined later] at exclusive
  exact exclusive j i .expiring phase entered stayed rfl inside

namespace Sample

/-- A supervisor comes round and enters its section. -/
def enter (i : Nat) : List SupervisorEvent := [.move i .next, .move i .next, .move i .next, .move i .next]

end Sample

open Sample LeaseSystem.Sample in
theorem recovery_exclusive_handover : (run pair (start pair)
    (enter 0 ++ [.move 0 (.expired []), .tick 1, .move 0 .next, .tick 1000] ++ enter 1)).Exclusive := by
  refine (recovery_exclusive pair _ ?_).1
  have idle : ¬ ∃ phase ∈ [SupervisorPhase.waiting, .waiting], phase.admitted = true := by decide
  exact ⟨trivial, trivial, trivial, trivial, trivial, fun _ => rfl, trivial, fun inside => absurd inside idle,
    trivial, trivial, trivial, trivial, trivial⟩

open Sample LeaseSystem.Sample in
/-- The first supervisor is still recovering when its lease expires, and the second enters. -/
theorem overrun_not_exclusive :
    ¬ (run pair (start pair) (enter 0 ++ [.move 0 (.expired ["worker"]), .tick 1000] ++ enter 1)).Exclusive := by
  intro exclusive
  have same := exclusive 0 1 (.recovering ["worker"]) .expiring rfl rfl rfl rfl
  cases same

end SupervisorSystem

end ServingPlatform
