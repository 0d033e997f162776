import ServingPlatform.ControlPlane.StoreCoherence

namespace ServingPlatform.Plane

variable {i : ObjectId} {inputs : DispatchInputs i} {p p' q q' final : Plane} {a : Assignment} {raised : Raised}
  {workerId requestId : String} {reachable : Bool}

/-- The store shows a request that is not over. -/
def Alive (p : Plane) (requestId : String) : Prop :=
  ∃ entries copy, p.store = some entries ∧ entries.get? requestId = some copy ∧ copy.terminal = false

/-- A queued and stored request, without a reservation; store and directory answer. -/
structure Ready (inputs : DispatchInputs i) (p : Plane) : Prop where
  queued : (p.objects i).status = .queued
  alive : p.Alive (p.objects i).requestId
  unreserved : p.Unreserved (p.objects i).requestId
  firstSave : inputs.faults .firstSave = none
  directory : inputs.faults .directory = none

/-- The dispatch finds the deadline passed: before it assigns the request, or once the model is loaded. -/
def Overdue (inputs : DispatchInputs i) (p : Plane) : Prop :=
  Late inputs p ∨ ∃ a q, assign inputs p = (.ok a, q) ∧
    (prepare inputs a.workerId (decide (a.workerId ∈ (save (inputs.faults .firstSave) i q).2.directory))
      (save (inputs.faults .firstSave) i q).2).1 = .ok () ∧
    (p.objects i).deadline.expired inputs.loadedAt = true

/-- Of all requests only one is changed, in memory and in the store; it keeps its id. -/
structure Touches (i : ObjectId) (p p' : Plane) : Prop where
  others : ∀ j, j ≠ i → p'.objects j = p.objects j
  requestId : (p'.objects i).requestId = (p.objects i).requestId
  deadline : (p'.objects i).deadline = (p.objects i).deadline
  stored : ∀ other, other ≠ (p.objects i).requestId → p'.stored other = p.stored other

theorem stored_congr (store : p'.store = p.store) (other : String) : p'.stored other = p.stored other := by
  unfold Plane.stored
  rw [store]

theorem Touches.trans (first : Touches i p p') (second : Touches i p' q) : Touches i p q where
  others := fun j differ => (second.others j differ).trans (first.others j differ)
  requestId := second.requestId.trans first.requestId
  deadline := second.deadline.trans first.deadline
  stored := fun other differ =>
    (second.stored other (first.requestId ▸ differ)).trans (first.stored other differ)

theorem Touches.of_put {r : RequestRecord} (objects : p'.objects = p.objects.put i r) (store : p'.store = p.store)
    (named : r.requestId = (p.objects i).requestId) (deadline : r.deadline = (p.objects i).deadline) :
    Touches i p p' where
  others := fun j differ => by rw [objects, Objects.put_of_ne differ]
  requestId := by rw [objects, Objects.put_self, named]
  deadline := by rw [objects, Objects.put_self, deadline]
  stored := fun other _ => stored_congr store other

theorem Touches.of_eq (objects : p'.objects = p.objects) (store : p'.store = p.store) : Touches i p p' :=
  ⟨fun j _ => by rw [objects], by rw [objects], by rw [objects], fun other _ => stored_congr store other⟩

theorem Touches.refl (p : Plane) : Touches i p p := .of_eq rfl rfl

/-- A save touches its request only. -/
theorem Touches.of_save {fault : Option Raised} (saved : save fault i p = (.ok (), p')) : Touches i p p' := by
  have objects := (save_objects saved).1
  refine ⟨fun j _ => by rw [objects], by rw [objects], by rw [objects], fun other differ => ?_⟩
  rcases save_cases fault i p with ⟨raised, -, -, lost, -⟩ | ⟨store, kept, ⟨none, none'⟩ | ⟨entries, held, -, -, inserted⟩⟩
  · cases lost.symm.trans saved
  · cases kept.symm.trans saved
    exact stored_congr (none'.trans none.symm) other
  · cases kept.symm.trans saved
    unfold Plane.stored
    rw [held, inserted, Option.bind_some, Option.bind_some, RequestStore.get?_insert, if_neg differ]

theorem Assigned.touches (assigned : Assigned inputs p (.ok a) q) : Touches i p q := by
  obtain ⟨⟨decision, objects⟩, store, -⟩ := assigned.placed_facts
  exact .of_put objects store rfl rfl

/-- Where the request was assigned and saved, only the reading after the load is left. -/
theorem overdue_iff (placed : assign inputs p = (.ok a, q)) (saved : save (inputs.faults .firstSave) i q = (.ok (), q')) :
    Overdue inputs p ↔ (prepare inputs a.workerId (decide (a.workerId ∈ q'.directory)) q').1 = .ok () ∧
      (q'.objects i).deadline.expired inputs.loadedAt = true := by
  have assigned := Assigned.of_run placed
  have deadline : (q'.objects i).deadline = (p.objects i).deadline := by
    rw [(save_objects saved).1]
    exact assigned.touches.deadline
  rw [deadline]
  constructor
  · rintro (⟨-, late⟩ | ⟨a', q₁, placed', prepared, late⟩)
    · rw [assigned.places.2.1] at late
      cases late
    · cases placed.symm.trans placed'
      rw [saved] at prepared
      exact ⟨prepared, late⟩
  · rintro ⟨prepared, late⟩
    refine Or.inr ⟨a, q, placed, ?_, late⟩
    rw [saved]
    exact prepared

/-- What a dispatch of a ready request does to it. It ends the request exactly when it finds it overdue. -/
structure Fate (inputs : DispatchInputs i) (p p' : Plane) : Prop where
  touches : Touches i p p'
  alive : p'.Alive (p.objects i).requestId
  unreserved : p'.Unreserved (p.objects i).requestId
  isOver : (p'.objects i).terminal = true ↔ Overdue inputs p
  status : (p'.objects i).terminal = false → (p'.objects i).status = .queued ∨ (p'.objects i).status = .assigned

theorem alive_of_insert {entries : RequestStore} {r : RequestRecord} (stored : p.store = some (entries.insert r))
    (waits : r.terminal = false) : p.Alive r.requestId :=
  ⟨_, r, stored, RequestStore.get?_insert_self, waits⟩

theorem Alive.congr (alive : p.Alive requestId) (store : p'.store = p.store) : p'.Alive requestId := by
  unfold Alive
  rw [store]
  exact alive

theorem not_terminal_of_status {r : RequestRecord} {status : RequestState} (same : r.status = status)
    (waits : status.isTerminal = false) : r.terminal = false := by
  unfold RequestRecord.terminal
  rw [same]
  exact waits

theorem Ready.of_unassigned (ready : Ready inputs p) (assigned : Assigned inputs p (.error raised) p')
    (run : assign inputs p = (.error raised, p')) : Fate inputs p p' := by
  have waits : (p.objects i).terminal = false := not_terminal_of_status ready.queued rfl
  have overdue : Overdue inputs p ↔ Late inputs p := by
    refine ⟨?_, Or.inl⟩
    rintro (late | ⟨a, q, placed, -⟩)
    · exact late
    · cases run.symm.trans placed
  cases assigned with
  | unschedulable status => exact absurd (Or.inr ready.queued) status
  | expired schedulable late =>
    refine ⟨.of_put rfl rfl rfl rfl, ready.alive, ready.unreserved, ?_, ?_⟩
    · rw [overdue]
      dsimp only
      rw [Objects.put_self]
      exact ⟨fun _ => ⟨schedulable, late⟩, fun _ => rfl⟩
    · dsimp only
      rw [Objects.put_self]
      intro alive
      cases alive
  | unplaced schedulable early refused =>
    refine ⟨.refl p, ready.alive, ready.unreserved, ?_, fun _ => Or.inl ready.queued⟩
    rw [overdue, waits]
    refine ⟨fun isOver => (by cases isOver), fun late => ?_⟩
    rw [late.2] at early
    cases early

/-- The handoff ends the request exactly when it finds it overdue. -/
theorem HandedOff.fate {result : Except Raised Unit} (handed : HandedOff inputs workerId reachable q result final)
    (assigned : (q.objects i).status = .assigned) :
    Touches i q final ∧ ((final.objects i).terminal = true ↔ (prepare inputs workerId reachable q).1 = .ok () ∧
      (q.objects i).deadline.expired inputs.loadedAt = true) ∧
      ((final.objects i).terminal = false → (final.objects i).status = .queued ∨ (final.objects i).status = .assigned) := by
  have waits : (q.objects i).terminal = false := not_terminal_of_status assigned rfl
  have prepared := prepare_kept inputs workerId reachable q
  have early_not : (q.objects i).deadline.expired inputs.loadedAt = false →
      ¬((prepare inputs workerId reachable q).1 = .ok () ∧ (q.objects i).deadline.expired inputs.loadedAt = true) := by
    rintro early ⟨-, late⟩
    rw [early] at late
    cases late
  have queued : ∀ {middle : Plane} (now : Seconds), q.Kept middle →
      Touches i q (middle.queuedAt workerId i now) ∧ ((middle.queuedAt workerId i now).objects i).status = .queued := by
    intro middle now same
    have objects : (middle.queuedAt workerId i now).objects = q.objects.put i ((q.objects i).enter .queued now) := by
      unfold queuedAt
      dsimp only
      rw [same.objects]
    refine ⟨.of_put objects same.store rfl rfl, ?_⟩
    rw [objects, Objects.put_self]
    rfl
  cases handed with
  | unprepared run =>
    rw [run] at prepared ⊢
    rw [prepared.objects, waits]
    exact ⟨.of_eq prepared.objects prepared.store, by simp, fun _ => Or.inr assigned⟩
  | expired run late =>
    rw [run] at prepared ⊢
    have objects := congrArg (fun objects : Objects => objects.put i ((q.objects i).enter .timedOut inputs.transitionAt))
      prepared.objects
    refine ⟨.of_put objects prepared.store rfl rfl, ?_, ?_⟩
    · dsimp only
      rw [Objects.put_self]
      exact ⟨fun _ => ⟨rfl, late⟩, fun _ => rfl⟩
    · dsimp only
      rw [Objects.put_self]
      intro alive
      cases alive
  | refused run early refusal =>
    have never := early_not early
    rw [run] at prepared
    rw [prepared.objects, waits]
    exact ⟨.of_eq prepared.objects prepared.store, ⟨fun isOver => (by cases isOver), fun cond => absurd cond never⟩,
      fun _ => Or.inr assigned⟩
  | unsaved run early accepted lost =>
    have never := early_not early
    rw [run] at prepared
    obtain ⟨touches, status⟩ := queued inputs.transitionAt prepared
    refine ⟨touches, ?_, fun _ => Or.inl status⟩
    rw [not_terminal_of_status status rfl]
    exact ⟨fun isOver => (by cases isOver), fun cond => absurd cond never⟩
  | accepted run early accepted saved =>
    have never := early_not early
    rw [run] at prepared
    obtain ⟨touches, status⟩ := queued inputs.transitionAt prepared
    have same := (save_objects saved).1
    refine ⟨touches.trans (.of_save saved), ?_, fun _ => Or.inl (by rw [same]; exact status)⟩
    rw [same, not_terminal_of_status status rfl]
    exact ⟨fun isOver => (by cases isOver), fun cond => absurd cond never⟩

/-- The store keeps showing a request that is handed off as not over. -/
theorem HandedOff.alive {result : Except Raised Unit} {entries : RequestStore}
    (handed : HandedOff inputs workerId reachable q result final) (assigned : (q.objects i).status = .assigned)
    (stored : q.store = some (entries.insert (q.objects i))) : final.Alive (q.objects i).requestId := by
  have before : q.Alive (q.objects i).requestId := alive_of_insert stored (not_terminal_of_status assigned rfl)
  have prepared := prepare_kept inputs workerId reachable q
  cases handed with
  | unprepared run =>
    rw [run] at prepared
    exact before.congr prepared.store
  | expired run late =>
    rw [run] at prepared
    exact before.congr prepared.store
  | refused run early refusal =>
    rw [run] at prepared
    exact before.congr prepared.store
  | unsaved run early accepted lost =>
    rw [run] at prepared
    exact before.congr prepared.store
  | @accepted middle _ run early accepted saved =>
    rw [run] at prepared
    have held : (middle.queuedAt workerId i inputs.transitionAt).store = some (entries.insert (q.objects i)) :=
      prepared.store.trans stored
    have object : (middle.queuedAt workerId i inputs.transitionAt).objects i =
        (q.objects i).enter .queued inputs.transitionAt := by
      unfold queuedAt
      dsimp only
      rw [prepared.objects, Objects.put_self]
    obtain ⟨inserted, -, -⟩ := save_shows held saved
    rw [object] at inserted
    exact alive_of_insert (r := (q.objects i).enter .queued inputs.transitionAt) inserted rfl

/-- A dispatch of a ready request: where it succeeds, the request is queued. -/
theorem dispatch_fate (ready : Ready inputs p) : ∃ result p', dispatch inputs p = (result, p') ∧ Fate inputs p p' ∧
    ∀ a, result = .ok a → (p'.objects i).status = .queued := by
  obtain ⟨entries, copy, stored, found, -⟩ := ready.alive
  obtain ⟨result, p', run, dispatched⟩ := dispatch_cases inputs p
  refine ⟨result, p', run, ?_⟩
  -- the request once it is assigned and saved
  have begun : ∀ {a q q'}, assign inputs p = (.ok a, q) → save (inputs.faults .firstSave) i q = (.ok (), q') →
      Touches i p q' ∧ (q'.objects i).status = .assigned ∧ q'.store = some (entries.insert (q'.objects i)) ∧
        a.requestId = (p.objects i).requestId := by
    intro a q q' placed saved
    have assigned := Assigned.of_run placed
    obtain ⟨status, inserted, -, -⟩ := saved_assignment stored placed saved
    exact ⟨assigned.touches.trans (.of_save saved), status, inserted, assigned.placed_facts.2.2.2.1⟩
  have handled : ∀ {a q q' final handedOff}, assign inputs p = (.ok a, q) →
      save (inputs.faults .firstSave) i q = (.ok (), q') →
      HandedOff inputs a.workerId (decide (a.workerId ∈ q'.directory)) q' handedOff final →
      Fate inputs p (final.releaseAssignment a.requestId) := by
    intro a q q' final handedOff placed saved handed
    obtain ⟨first, status, inserted, named⟩ := begun placed saved
    obtain ⟨touches, isOver, alive⟩ := handed.fate status
    refine ⟨first.trans (touches.trans (.of_eq rfl rfl)), ?_, named ▸ released _ _, isOver.trans (overdue_iff placed saved).symm, alive⟩
    have shown := handed.alive status inserted
    rw [first.requestId] at shown
    exact shown
  -- giving it back changes only the request
  have back : ∀ {a : Assignment} {final : Plane} {r : RequestRecord}, Fate inputs p (final.releaseAssignment a.requestId) →
      (final.objects i).terminal = false → r.requestId = (final.objects i).requestId →
      r.deadline = (final.objects i).deadline → r.status = .queued →
      Fate inputs p (releaseAssignment a.requestId { final with objects := final.objects.put i r }) := by
    intro a final r fate waits requestId deadline status
    have object : (releaseAssignment a.requestId { final with objects := final.objects.put i r }).objects i = r :=
      Objects.put_self
    refine ⟨fate.touches.trans (.of_put rfl rfl requestId deadline), fate.alive, fate.unreserved, ?_, ?_⟩
    · rw [object, ← fate.isOver, not_terminal_of_status status rfl]
      refine ⟨fun isOver => (by cases isOver), fun isOver => ?_⟩
      rw [show (final.releaseAssignment a.requestId).objects i = final.objects i from rfl, waits] at isOver
      cases isOver
    · rw [object]
      exact fun _ => Or.inl status
  cases dispatched with
  | unassigned unplaced => exact ⟨ready.of_unassigned (.of_run unplaced) unplaced, fun a ok => (by cases ok)⟩
  | unsaved placed lost =>
    have stores : Stores (inputs.faults .firstSave) i p := by
      intro others held
      cases stored.symm.trans held
      exact ⟨ready.firstSave, RequestStore.contains_iff.mpr ⟨copy, found⟩⟩
    have ok := save_ok_iff.mpr ((Assigned.of_run placed).stores_iff.mpr stores)
    rw [lost] at ok
    cases ok
  | unlooked placed saved fault =>
    rw [ready.directory] at fault
    cases fault
  | @accepted a q q' final placed saved looked handed =>
    refine ⟨handled placed saved handed, fun a ok => ?_⟩
    cases handed with
    | @accepted middle _ prepared early accepted finally_ =>
      have same : final.objects = (middle.queuedAt a.workerId i inputs.transitionAt).objects :=
        (save_objects finally_).1
      change (final.objects i).status = .queued
      rw [same]
      unfold queuedAt
      dsimp only
      rw [Objects.put_self]
      rfl
  | escaped placed saved looked handed uncaught => exact ⟨handled placed saved handed, fun a ok => (by cases ok)⟩
  | isOver placed saved looked handed caught isOver => exact ⟨handled placed saved handed, fun a ok => (by cases ok)⟩
  | returned placed saved looked handed caught status =>
    exact ⟨back (handled placed saved handed) (not_terminal_of_status status rfl) rfl rfl rfl, fun a ok => (by cases ok)⟩
  | stuck placed saved looked handed caught status kind =>
    exact ⟨back (handled placed saved handed) (not_terminal_of_status status rfl) rfl rfl status,
      fun a ok => (by cases ok)⟩

end ServingPlatform.Plane
