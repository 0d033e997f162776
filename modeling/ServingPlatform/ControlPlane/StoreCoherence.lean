import ServingPlatform.ControlPlane.Reservations

namespace ServingPlatform.Plane

variable {i : ObjectId} {inputs : DispatchInputs i} {p p' q q' final : Plane} {a : Assignment} {raised : Raised}
/-- What stands in the way of the handoff of an assigned and saved request. -/
def handoffObstacle (inputs : DispatchInputs i) (a : Assignment) (q : Plane) : Option Raised :=
  obstacle inputs a.workerId (decide (a.workerId ∈ (save (inputs.faults .firstSave) i q).2.directory))
    (save (inputs.faults .firstSave) i q).2

/-- A failed handoff has left the request over, or in the global queue's hands
only, with one more attempt and the handoff's error. -/
def Recovered (i : ObjectId) (p p' : Plane) (raised : Raised) : Prop :=
  ((p'.objects i).terminal = true ∨ (p'.objects i).status = .queued ∧ (p'.objects i).assignedWorkerId = none) ∧
    (∀ workerId, i ∉ (p'.workers workerId).queue) ∧
    (p'.objects i).attemptCount = (p.objects i).attemptCount + 1 ∧ raised.kind = .workerDispatchError

theorem not_recovered_of_assigned (status : (p'.objects i).status = .assigned) : ¬Recovered i p p' raised := by
  rintro ⟨isOver | ⟨queued, -⟩, -⟩
  · unfold RequestRecord.terminal at isOver
    rw [status] at isOver
    cases isOver
  · rw [status] at queued
    cases queued

theorem Assigned.attempts (assigned : Assigned inputs p (.ok a) q) :
    (q.objects i).attemptCount = (p.objects i).attemptCount + 1 := by
  obtain ⟨⟨decision, objects⟩, -⟩ := assigned.placed_facts
  rw [objects, Objects.put_self]
  rfl

/-- After an assignment, a failed dispatch leaves the request schedulable
exactly when what stands in the way is one of the caught error classes, and no
local queue held the request. -/
theorem dispatch_recovers_iff (placed : assign inputs p = (.ok a, q)) (failed : dispatch inputs p = (.error raised, p')) :
    Recovered i p p' raised ↔ Stores (inputs.faults .firstSave) i p ∧ inputs.faults .directory = none ∧
      (∀ workerId, i ∉ (p.workers workerId).queue) ∧
      ∃ reason, handoffObstacle inputs a q = some reason ∧ reason.rejectsHandoff = true := by
  have assigned := Assigned.of_run placed
  obtain ⟨result, p'', run, dispatched⟩ := dispatch_cases inputs p
  cases failed.symm.trans run
  have status := assigned.status
  have workers := assigned.placed_facts.2.2.1
  have requestId := assigned.placed_facts.2.2.2.1
  -- what holds of a handoff that ran into an obstacle
  have tried : ∀ {a' q₁ q₂ reason final}, assign inputs p = (.ok a', q₁) →
      save (inputs.faults .firstSave) i q₁ = (.ok (), q₂) → inputs.faults .directory = none →
      HandedOff inputs a'.workerId (decide (a'.workerId ∈ q₂.directory)) q₂ (.error reason) final →
      (q₂.objects i).status = .assigned ∧ (q₂.objects i).attemptCount = (p.objects i).attemptCount + 1 ∧
        q₂.workers = p.workers ∧ Stores (inputs.faults .firstSave) i p ∧
        handoffObstacle inputs a q = obstacle inputs a'.workerId (decide (a'.workerId ∈ q₂.directory)) q₂ := by
    intro a' q₁ q₂ reason final placed' saved looked handed
    cases placed.symm.trans placed'
    have kept := save_objects saved
    refine ⟨kept.1 ▸ status, kept.1 ▸ assigned.attempts, kept.2.1.trans workers,
      assigned.stores_iff.mp (save_ok_iff.mp (congrArg Prod.fst saved)), ?_⟩
    unfold handoffObstacle
    rw [saved]
  cases dispatched with
  | unassigned unplaced => cases placed.symm.trans unplaced
  | unsaved placed' lost =>
    cases placed.symm.trans placed'
    refine ⟨fun recovered => absurd recovered (not_recovered_of_assigned status), fun cond => ?_⟩
    have ok := save_ok_iff.mpr (assigned.stores_iff.mpr cond.1)
    rw [lost] at ok
    cases ok
  | unlooked placed' saved fault =>
    cases placed.symm.trans placed'
    refine ⟨fun recovered => absurd recovered (not_recovered_of_assigned ((save_objects saved).1 ▸ status)), fun cond => ?_⟩
    rw [fault] at cond
    cases cond.2.1
  | @escaped a' _ q₁ q₂ final placed' saved looked handed uncaught =>
    obtain ⟨given, attempts, queues, stores, same⟩ := tried placed' saved looked handed
    cases handed.failed with
    | stopped obstructed objects store held =>
      refine ⟨fun recovered => absurd recovered (not_recovered_of_assigned ?_), fun cond => ?_⟩
      · change (final.objects i).status = .assigned
        rw [objects]
        exact given
      · obtain ⟨reason, found, caught⟩ := cond.2.2.2
        rw [same, obstructed] at found
        cases found
        rw [uncaught] at caught
        cases caught
    | expired obstructed objects store kind held =>
      unfold Raised.rejectsHandoff at uncaught
      rw [kind] at uncaught
      cases uncaught
    | unsaved unobstructed objects store held lost =>
      refine ⟨fun recovered => absurd held (recovered.2.1 _), fun cond => ?_⟩
      obtain ⟨reason, found, -⟩ := cond.2.2.2
      rw [same, unobstructed] at found
      cases found
  | @isOver a' reason q₁ q₂ final placed' saved looked handed caught isOver =>
    obtain ⟨given, attempts, queues, stores, same⟩ := tried placed' saved looked handed
    cases handed.failed with
    | stopped obstructed objects store held =>
      unfold RequestRecord.terminal at isOver
      rw [objects, given] at isOver
      cases isOver
    | expired obstructed objects store kind held =>
      refine ⟨fun recovered => ⟨stores, looked, fun v member => recovered.2.1 v ((held v).mpr (queues ▸ member)),
        reason, same.trans obstructed, caught⟩, fun cond => ⟨Or.inl isOver, fun v member => ?_, ?_, rejection_kind _⟩⟩
      · exact cond.2.2.1 v (queues ▸ (held v).mp member)
      · change (final.objects i).attemptCount = _
        rw [objects, Objects.put_self]
        exact attempts
    | unsaved unobstructed objects store held lost =>
      unfold RequestRecord.terminal at isOver
      rw [objects, Objects.put_self] at isOver
      cases isOver
  | @returned a' reason q₁ q₂ final placed' saved looked handed caught status' =>
    obtain ⟨given, attempts, queues, stores, same⟩ := tried placed' saved looked handed
    cases handed.failed with
    | stopped obstructed objects store held =>
      refine ⟨fun recovered => ⟨stores, looked, fun v member => recovered.2.1 v ((held v).mpr (queues ▸ member)),
        reason, same.trans obstructed, caught⟩, fun cond => ⟨Or.inr ?_, fun v member => ?_, ?_, rejection_kind _⟩⟩
      · change (Objects.put _ _ _ i).status = _ ∧ (Objects.put _ _ _ i).assignedWorkerId = _
        rw [Objects.put_self]
        exact ⟨rfl, rfl⟩
      · exact cond.2.2.1 v (queues ▸ (held v).mp member)
      · change (Objects.put _ _ _ i).attemptCount = _
        rw [Objects.put_self, objects]
        exact attempts
    | expired obstructed objects store kind held =>
      rw [objects, Objects.put_self] at status'
      cases status'
    | unsaved unobstructed objects store held lost =>
      rw [objects, Objects.put_self] at status'
      cases status'
  | @stuck a' reason invalid q₁ q₂ final placed' saved looked handed caught status' kind =>
    obtain ⟨given, attempts, queues, stores, same⟩ := tried placed' saved looked handed
    refine ⟨fun recovered => ?_, fun cond => ?_⟩
    · have error := recovered.2.2.2
      rw [kind] at error
      cases error
    · cases handed.failed with
      | stopped obstructed objects store held =>
        rw [objects, given] at status'
        cases status'
      | expired obstructed objects store kind held =>
        rw [objects, Objects.put_self] at status'
        cases status'
      | unsaved unobstructed objects store held lost =>
        obtain ⟨reason, found, -⟩ := cond.2.2.2
        rw [same, unobstructed] at found
        cases found

open Rejected

/-- A `ValueError` of the runtime leaves the request assigned. -/
theorem load_error_leaves_assigned : ∃ p : Plane, ∃ inputs : DispatchInputs 0, ∃ a q raised p',
    assign inputs p = (.ok a, q) ∧ dispatch inputs p = (.error raised, p') ∧ ¬Recovered 0 p p' raised := by
  refine ⟨plane known ["worker"], readings 0 (some (valueError "model is not supported")), _, _, _, _, rfl, rfl, ?_⟩
  exact not_recovered_of_assigned rfl

theorem dispatch_recovers_iff_unreachable : ∃ a q raised p',
    assign (readings 0 none) (plane known []) = (.ok a, q) ∧ dispatch (readings 0 none) (plane known []) = (.error raised, p') ∧
      (Recovered 0 (plane known []) p' raised ↔ Stores none 0 (plane known []) ∧ (none : Option Raised) = none ∧
        (∀ workerId, 0 ∉ ((plane known []).workers workerId).queue) ∧
        ∃ reason, handoffObstacle (readings 0 none) a q = some reason ∧ reason.rejectsHandoff = true) := by
  obtain ⟨a, q, placed⟩ : ∃ a q, assign (readings 0 none) (plane known []) = (.ok a, q) := ⟨_, _, rfl⟩
  obtain ⟨raised, p', failed⟩ : ∃ raised p', dispatch (readings 0 none) (plane known []) = (.error raised, p') :=
    ⟨_, _, rfl⟩
  exact ⟨a, q, raised, p', placed, failed, dispatch_recovers_iff placed failed⟩

end ServingPlatform.Plane

namespace ServingPlatform.Plane

variable {i : ObjectId} {inputs : DispatchInputs i} {p p' q q' final : Plane} {a : Assignment} {raised : Raised}
  {entries : RequestStore}

/-- The deadline is found to have passed when the request is to be assigned. -/
def Late (inputs : DispatchInputs i) (p : Plane) : Prop :=
  (p.objects i).Schedulable ∧ (p.objects i).deadline.expired inputs.assignedAt = true

/-- The store shows a record with the same status, worker and attempts. -/
def Shows (p : Plane) (r : RequestRecord) : Prop :=
  ∃ entries stored, p.store = some entries ∧ entries.get? r.requestId = some stored ∧ stored.status = r.status ∧
    stored.assignedWorkerId = r.assignedWorkerId ∧ stored.attemptCount = r.attemptCount

theorem shows_congr {r : RequestRecord} (store : p'.store = p.store) : p'.Shows r ↔ p.Shows r := by
  unfold Shows
  rw [store]

/-- A successful save makes the store show the request. -/
theorem save_shows {fault : Option Raised} (stored : p.store = some entries) (saved : save fault i p = (.ok (), p')) :
    p'.store = some (entries.insert (p.objects i)) ∧ p'.objects = p.objects ∧
      p'.Shows (p.objects i) := by
  rcases save_cases fault i p with ⟨raised, -, -, lost, -⟩ | ⟨store, kept, found⟩
  · cases lost.symm.trans saved
  · cases kept.symm.trans saved
    rcases found with ⟨none, -⟩ | ⟨others, some, -, -, inserted⟩
    · rw [none] at stored
      cases stored
    · rw [some] at stored
      cases stored
      exact ⟨inserted, rfl, _, p.objects i, inserted, RequestStore.get?_insert_self, rfl, rfl, rfl⟩

theorem shows_status {r : RequestRecord} (stored : p.store = some (entries.insert r))
    {r' : RequestRecord} (same : r'.requestId = r.requestId) (differ : r'.status ≠ r.status) : ¬p.Shows r' := by
  rintro ⟨others, copy, held, found, status, -⟩
  rw [stored] at held
  cases held
  rw [same, RequestStore.get?_insert_self] at found
  cases found
  exact differ status.symm

/-- The store once an assignment is saved. -/
theorem saved_assignment (stored : p.store = some entries) (placed : assign inputs p = (.ok a, q))
    (saved : save (inputs.faults .firstSave) i q = (.ok (), q')) :
    (q'.objects i).status = .assigned ∧
      q'.store = some (entries.insert (q'.objects i)) ∧ q'.Shows (q'.objects i) ∧
      handoffObstacle inputs a q = obstacle inputs a.workerId (decide (a.workerId ∈ q'.directory)) q' := by
  have assigned := Assigned.of_run placed
  obtain ⟨inserted, objects, shown⟩ := save_shows (assigned.placed_facts.2.1.trans stored) saved
  refine ⟨objects ▸ assigned.status, ?_, ?_, ?_⟩
  · rw [objects]
    exact inserted
  · rw [objects]
    exact shown
  · unfold handoffObstacle
    rw [saved]

/-- A request that was saved once can be saved again. -/
theorem save_again (inserted : q'.store = some (entries.insert (q'.objects i)))
    (store : final.store = q'.store) (requestId : (final.objects i).requestId = (q'.objects i).requestId)
    {fault : Option Raised} (sound : fault = none) : save fault i final ≠ (.error raised, final) := by
  intro lost
  have stores : Stores fault i final := by
    intro others held
    rw [store, inserted] at held
    cases held
    refine ⟨sound, ?_⟩
    rw [requestId]
    exact RequestStore.contains_insert_self
  have done := save_ok_iff.mpr stores
  rw [lost] at done
  cases done

/-- When the handoff leaves the store in step with the request. -/
def HandsOver (inputs : DispatchInputs i) (p : Plane) : Prop :=
  ∃ a q, assign inputs p = (.ok a, q) ∧ (inputs.faults .directory ≠ none ∨
    ∀ reason, handoffObstacle inputs a q = some reason → reason.rejectsHandoff = false)

/-- A caught error stands against it. -/
theorem not_handsOver (placed : assign inputs p = (.ok a, q)) (looked : inputs.faults .directory = none)
    {reason : Raised} (obstructed : handoffObstacle inputs a q = some reason) (caught : reason.rejectsHandoff = true) :
    ¬HandsOver inputs p := by
  rintro ⟨a', q₁, placed', fault | escapes⟩
  · exact fault looked
  · cases placed.symm.trans placed'
    have uncaught := escapes reason obstructed
    rw [caught] at uncaught
    cases uncaught

/-- With a store whose saves succeed, a dispatch leaves store and request in
agreement unless the handoff runs into one of the caught errors, or the request
was out of step before or at its deadline. -/
theorem dispatch_coherent_iff (inputs : DispatchInputs i) (p : Plane) (stored : p.store = some entries)
    (known : entries.contains (p.objects i).requestId = true)
    (saves : inputs.faults .firstSave = none ∧ inputs.faults .finalSave = none) :
    (dispatch inputs p).2.Shows ((dispatch inputs p).2.objects i) ↔
      HandsOver inputs p ∨
      ¬Places inputs p ∧ (Late inputs p ∧ p.Shows ((p.objects i).enter .timedOut inputs.assignedAt) ∨
        ¬Late inputs p ∧ p.Shows (p.objects i)) := by
  obtain ⟨result, p', run, dispatched⟩ := dispatch_cases inputs p
  rw [run]
  dsimp only
  -- a caught error leaves the store behind
  have behind : ∀ {a q reason}, assign inputs p = (.ok a, q) → inputs.faults .directory = none →
      handoffObstacle inputs a q = some reason → reason.rejectsHandoff = true → ¬p'.Shows (p'.objects i) →
      (p'.Shows (p'.objects i) ↔ HandsOver inputs p ∨
        ¬Places inputs p ∧ (Late inputs p ∧ p.Shows ((p.objects i).enter .timedOut inputs.assignedAt) ∨
          ¬Late inputs p ∧ p.Shows (p.objects i))) := by
    intro a q reason placed looked obstructed caught stale
    refine ⟨fun shown => absurd shown stale, fun cond => ?_⟩
    rcases cond with handsOver | ⟨unplaced, -⟩
    · exact absurd handsOver (not_handsOver placed looked obstructed caught)
    · exact absurd (Assigned.of_run placed).places unplaced
  cases dispatched with
  | unassigned unplaced =>
    have assigned := Assigned.of_run unplaced
    have stays : ¬HandsOver inputs p := by
      rintro ⟨a, q, placed, -⟩
      cases placed.symm.trans unplaced
    simp only [stays, false_or, assigned.not_places, not_false_eq_true, true_and]
    cases assigned with
    | unschedulable status => simp [Late, status]
    | unplaced schedulable early refused => simp [Late, early]
    | expired schedulable late =>
      have lateHere : Late inputs p := ⟨schedulable, late⟩
      simp only [lateHere, not_true_eq_false, false_and, or_false, true_and, Objects.put_self]
      exact shows_congr rfl
  | unsaved placed lost =>
    have stores : Stores (inputs.faults .firstSave) i p := fun others held => by
      rw [stored] at held
      cases held
      exact ⟨saves.1, known⟩
    have ok := save_ok_iff.mpr ((Assigned.of_run placed).stores_iff.mpr stores)
    rw [lost] at ok
    cases ok
  | unlooked placed saved fault =>
    have shown := (saved_assignment stored placed saved).2.2.1
    exact ⟨fun _ => Or.inl ⟨_, _, placed, Or.inl (by rw [fault]; simp)⟩, fun _ => shown⟩
  | @accepted a q q' final placed saved looked handed =>
    obtain ⟨-, inserted, -, same⟩ := saved_assignment stored placed saved
    refine ⟨fun _ => Or.inl ⟨_, _, placed, Or.inr fun reason obstructed => ?_⟩, fun _ => ?_⟩
    · rw [same, handed.unobstructed] at obstructed
      cases obstructed
    · cases handed with
      | @accepted middle _ prepared early accepted finally_ =>
        have kept := prepare_kept inputs a.workerId (decide (a.workerId ∈ q'.directory)) q'
        rw [prepared] at kept
        have held : (middle.queuedAt a.workerId i inputs.transitionAt).store =
            some (entries.insert (q'.objects i)) := kept.store.trans inserted
        obtain ⟨-, objects, shown⟩ := save_shows held finally_
        change final.Shows (final.objects i)
        rw [objects]
        exact shown
  | @escaped a reason q q' final placed saved looked handed uncaught =>
    obtain ⟨-, inserted, shown, same⟩ := saved_assignment stored placed saved
    cases handed.failed with
    | stopped obstructed objects store held =>
      refine ⟨fun _ => Or.inl ⟨_, _, placed, Or.inr fun other found => ?_⟩, fun _ => ?_⟩
      · rw [same, obstructed] at found
        cases found
        exact uncaught
      · change final.Shows (final.objects i)
        rw [objects, shows_congr store]
        exact shown
    | expired obstructed objects store kind held =>
      unfold Raised.rejectsHandoff at uncaught
      rw [kind] at uncaught
      cases uncaught
    | unsaved unobstructed objects store held lost =>
      exact absurd lost (save_again inserted store (by rw [objects, Objects.put_self]; rfl) saves.2)
  | @isOver a reason q q' final placed saved looked handed caught isOver =>
    obtain ⟨status, inserted, -, same⟩ := saved_assignment stored placed saved
    cases handed.failed with
    | stopped obstructed objects store held =>
      unfold RequestRecord.terminal at isOver
      rw [objects, status] at isOver
      cases isOver
    | expired obstructed objects store kind held =>
      refine behind placed looked (same.trans obstructed) caught (shows_status (store.trans inserted) ?_ ?_)
      · change (final.objects i).requestId = _
        rw [objects, Objects.put_self]
        rfl
      · change (final.objects i).status ≠ _
        rw [objects, Objects.put_self, status]
        simp
    | unsaved unobstructed objects store held lost =>
      exact absurd lost (save_again inserted store (by rw [objects, Objects.put_self]; rfl) saves.2)
  | @returned a reason q q' final placed saved looked handed caught given =>
    obtain ⟨status, inserted, -, same⟩ := saved_assignment stored placed saved
    cases handed.failed with
    | stopped obstructed objects store held =>
      refine behind placed looked (same.trans obstructed) caught (shows_status (store.trans inserted) ?_ ?_)
      · change (Objects.put _ _ _ i).requestId = _
        rw [Objects.put_self, objects]
        rfl
      · change (Objects.put _ _ _ i).status ≠ _
        rw [Objects.put_self, status]
        simp
    | expired obstructed objects store kind held =>
      rw [objects, Objects.put_self] at given
      cases given
    | unsaved unobstructed objects store held lost =>
      rw [objects, Objects.put_self] at given
      cases given
  | @stuck a reason invalid q q' final placed saved looked handed caught queued kind =>
    obtain ⟨status, inserted, -, -⟩ := saved_assignment stored placed saved
    cases handed.failed with
    | stopped obstructed objects store held =>
      rw [objects, status] at queued
      cases queued
    | expired obstructed objects store kind held =>
      rw [objects, Objects.put_self] at queued
      cases queued
    | unsaved unobstructed objects store held lost =>
      exact absurd lost (save_again inserted store (by rw [objects, Objects.put_self]; rfl) saves.2)

open Rejected

/-- Where the chosen worker has no handle, the request returns to the global
queue while the store still shows it assigned to the worker. -/
theorem rejected_handoff_not_stored : ∃ p : Plane, ∃ inputs : DispatchInputs 0, ∃ entries,
    p.store = some entries ∧ entries.contains (p.objects 0).requestId = true ∧ inputs.faults = (fun _ => none) ∧
      ¬(dispatch inputs p).2.Shows ((dispatch inputs p).2.objects 0) := by
  refine ⟨plane known [], readings 0 none, known, rfl, rfl, rfl, ?_⟩
  rintro ⟨entries, copy, held, found, status, -⟩
  have object : ((dispatch (readings 0 none) (plane known [])).2.objects 0).status = .queued := rfl
  have shown : (dispatch (readings 0 none) (plane known [])).2.store.map (fun entries =>
      (entries.get? "request").map RequestRecord.status) = some (some .assigned) := rfl
  have named : ((dispatch (readings 0 none) (plane known [])).2.objects 0).requestId = "request" := rfl
  rw [named] at found
  rw [held, Option.map_some, found, Option.map_some, status, object] at shown
  cases shown

theorem dispatch_coherent_iff_unreachable :
    (dispatch (readings 0 none) (plane known [])).2.Shows ((dispatch (readings 0 none) (plane known [])).2.objects 0) ↔
      HandsOver (readings 0 none) (plane known []) ∨
      ¬Places (readings 0 none) (plane known []) ∧ (Late (readings 0 none) (plane known []) ∧
        (plane known []).Shows (((plane known []).objects 0).enter .timedOut 1) ∨
        ¬Late (readings 0 none) (plane known []) ∧ (plane known []).Shows ((plane known []).objects 0)) :=
  dispatch_coherent_iff (readings 0 none) (plane known []) rfl rfl ⟨rfl, rfl⟩

end ServingPlatform.Plane
