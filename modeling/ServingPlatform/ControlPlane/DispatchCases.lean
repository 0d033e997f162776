import ServingPlatform.ControlPlane.Handoff

namespace ServingPlatform.Plane

variable {i : ObjectId} {inputs : DispatchInputs i} {p p' : Plane} {workerId : String} {reachable : Bool}
  {raised : Raised}

theorem HandedOff.keeps {result : Except Raised Unit} (handed : HandedOff inputs workerId reachable p result p') :
    p'.reservations = p.reservations := by
  have prepared := prepare_kept inputs workerId reachable p
  cases handed with
  | unprepared run =>
    rw [run] at prepared
    exact prepared.reservations
  | expired run late =>
    rw [run] at prepared
    exact prepared.reservations
  | refused run early refusal =>
    rw [run] at prepared
    exact prepared.reservations
  | unsaved run early accepted lost =>
    rw [run] at prepared
    exact prepared.reservations
  | @accepted middle final run early accepted saved =>
    rw [run] at prepared
    rcases save_cases (inputs.faults .finalSave) i (middle.queuedAt workerId i inputs.transitionAt) with
      ⟨raised, -, -, lost, -⟩ | ⟨store, kept, -⟩
    · cases lost.symm.trans saved
    · cases kept.symm.trans saved
      exact prepared.reservations

/-- What stands in the way of a handoff, up to and with the worker's own refusal. -/
def obstacle (inputs : DispatchInputs i) (workerId : String) (reachable : Bool) (p : Plane) : Option Raised :=
  match prepare inputs workerId reachable p with
  | (.error raised, _) => some raised
  | (.ok (), ready) =>
    if (p.objects i).deadline.expired inputs.loadedAt then
      some (dispatchError "request deadline expired during model loading")
    else refusal inputs workerId ready

theorem HandedOff.unobstructed (handed : HandedOff inputs workerId reachable p (.ok ()) p') :
    obstacle inputs workerId reachable p = none := by
  unfold obstacle
  cases handed with
  | accepted run early accepted saved =>
    rw [run]
    dsimp only
    rw [if_neg (by rw [early]; decide)]
    exact accepted

/-- How a handoff fails: before the request is touched, past its deadline, or
after the worker took the request. -/
inductive Failed (inputs : DispatchInputs i) (workerId : String) (reachable : Bool) (p : Plane) :
    Raised → Plane → Prop
  | stopped {raised : Raised} {p' : Plane} (obstructed : obstacle inputs workerId reachable p = some raised)
      (objects : p'.objects = p.objects) (store : p'.store = p.store)
      (held : ∀ v, i ∈ (p'.workers v).queue ↔ i ∈ (p.workers v).queue) :
      Failed inputs workerId reachable p raised p'
  | expired {raised : Raised} {p' : Plane} (obstructed : obstacle inputs workerId reachable p = some raised)
      (objects : p'.objects = p.objects.put i ((p.objects i).enter .timedOut inputs.transitionAt))
      (store : p'.store = p.store) (kind : raised.kind = .workerDispatchError)
      (held : ∀ v, i ∈ (p'.workers v).queue ↔ i ∈ (p.workers v).queue) :
      Failed inputs workerId reachable p raised p'
  | unsaved {raised : Raised} {p' : Plane} (unobstructed : obstacle inputs workerId reachable p = none)
      (objects : p'.objects = p.objects.put i ((p.objects i).enter .queued inputs.transitionAt))
      (store : p'.store = p.store) (held : i ∈ (p'.workers workerId).queue)
      (lost : save (inputs.faults .finalSave) i p' = (.error raised, p')) :
      Failed inputs workerId reachable p raised p'

theorem HandedOff.failed (handed : HandedOff inputs workerId reachable p (.error raised) p') :
    Failed inputs workerId reachable p raised p' := by
  have prepared := prepare_kept inputs workerId reachable p
  have free := prepare_held inputs workerId reachable p
  cases handed with
  | unprepared run =>
    have obstructed : obstacle inputs workerId reachable p = some raised := by
      unfold obstacle
      rw [run]
    rw [run] at prepared free
    exact .stopped obstructed prepared.objects prepared.store free
  | expired run late =>
    have obstructed : obstacle inputs workerId reachable p =
        some (dispatchError "request deadline expired during model loading") := by
      unfold obstacle
      rw [run]
      exact if_pos late
    rw [run] at prepared free
    exact .expired obstructed (by rw [← prepared.objects]) prepared.store rfl free
  | refused run early refusal =>
    have obstructed : obstacle inputs workerId reachable p = some raised := by
      unfold obstacle
      rw [run]
      dsimp only
      rw [if_neg (by rw [early]; decide)]
      exact refusal
    rw [run] at prepared free
    exact .stopped obstructed prepared.objects prepared.store free
  | @unsaved raised middle run early accepted lost =>
    have unobstructed : obstacle inputs workerId reachable p = none := by
      unfold obstacle
      rw [run]
      dsimp only
      rw [if_neg (by rw [early]; decide)]
      exact accepted
    rw [run] at prepared
    refine .unsaved unobstructed ?_ prepared.store ?_ lost
    · unfold queuedAt
      dsimp only
      rw [prepared.objects]
    · unfold queuedAt setWorker
      dsimp only
      rw [if_pos rfl]
      exact List.mem_append_right _ (List.mem_singleton_self i)

/-- A handoff that the `except` clause answers with the dispatch error. -/
def rejection (raised : Raised) : Raised :=
  if raised.kind = .workerDispatchError then raised else dispatchError "selected worker rejected the handoff"

theorem rejection_kind (raised : Raised) : (rejection raised).kind = .workerDispatchError := by
  unfold rejection
  split
  · assumption
  · rfl

theorem giveBack_over (isOver : (p.objects i).terminal = true) : giveBack inputs p = (.ok (), p) := by
  unfold giveBack
  rw [Attempt.bind_ok current_run, if_pos isOver]
  rfl

theorem giveBack_assigned (assigned : (p.objects i).status = .assigned) :
    giveBack inputs p = (.ok (), { p with
      objects := p.objects.put i (((p.objects i).assign none).enter .queued inputs.transitionAt) }) := by
  have active : ¬(p.objects i).terminal = true := by
    unfold RequestRecord.terminal
    rw [assigned]
    decide
  unfold giveBack
  rw [Attempt.bind_ok current_run, if_neg active, Attempt.bind_ok (modify_run _), transition_ok _ _]
  · dsimp only
    rw [Objects.put_put, Objects.put_self]
  · dsimp only
    rw [Objects.put_self]
    change RequestState.queued ∈ (p.objects i).status.allowed
    rw [assigned]
    decide

/-- A request that a worker has queued cannot be queued again. -/
theorem giveBack_queued (queued : (p.objects i).status = .queued) :
    ∃ stuck, giveBack inputs p = (.error stuck, { p with
      objects := p.objects.put i ((p.objects i).assign none) }) ∧ stuck.kind = .invalidStateTransition := by
  have active : ¬(p.objects i).terminal = true := by
    unfold RequestRecord.terminal
    rw [queued]
    decide
  have refused : RequestState.queued ∉ ((p.objects i).assign none).status.allowed := by
    change RequestState.queued ∉ (p.objects i).status.allowed
    rw [queued]
    decide
  unfold giveBack
  rw [Attempt.bind_ok current_run, if_neg active, Attempt.bind_ok (modify_run _)]
  unfold transition onObjects Attempt.zoom Objects.transition
  dsimp only
  rw [Objects.put_self]
  rcases ((p.objects i).assign none).transition_cases .queued inputs.transitionAt with
    ⟨allowed, -⟩ | ⟨-, stuck, run, kind⟩
  · exact absurd allowed refused
  · rw [run]
    exact ⟨stuck, rfl, kind⟩

/-- The ways a dispatch ends. -/
inductive Dispatched (inputs : DispatchInputs i) (p : Plane) : Except Raised Assignment → Plane → Prop
  | unassigned {raised : Raised} {q : Plane} (unplaced : assign inputs p = (.error raised, q)) :
      Dispatched inputs p (.error raised) q
  | unsaved {a : Assignment} {raised : Raised} {q : Plane} (placed : assign inputs p = (.ok a, q))
      (lost : save (inputs.faults .firstSave) i q = (.error raised, q)) : Dispatched inputs p (.error raised) q
  | unlooked {a : Assignment} {raised : Raised} {q q' : Plane} (placed : assign inputs p = (.ok a, q))
      (saved : save (inputs.faults .firstSave) i q = (.ok (), q')) (fault : inputs.faults .directory = some raised) :
      Dispatched inputs p (.error raised) q'
  | accepted {a : Assignment} {q q' final : Plane} (placed : assign inputs p = (.ok a, q))
      (saved : save (inputs.faults .firstSave) i q = (.ok (), q')) (looked : inputs.faults .directory = none)
      (handed : HandedOff inputs a.workerId (decide (a.workerId ∈ q'.directory)) q' (.ok ()) final) :
      Dispatched inputs p (.ok a) (final.releaseAssignment a.requestId)
  | escaped {a : Assignment} {raised : Raised} {q q' final : Plane}
      (placed : assign inputs p = (.ok a, q)) (saved : save (inputs.faults .firstSave) i q = (.ok (), q'))
      (looked : inputs.faults .directory = none)
      (handed : HandedOff inputs a.workerId (decide (a.workerId ∈ q'.directory)) q' (.error raised) final)
      (uncaught : raised.rejectsHandoff = false) :
      Dispatched inputs p (.error raised) (final.releaseAssignment a.requestId)
  | isOver {a : Assignment} {raised : Raised} {q q' final : Plane}
      (placed : assign inputs p = (.ok a, q)) (saved : save (inputs.faults .firstSave) i q = (.ok (), q'))
      (looked : inputs.faults .directory = none)
      (handed : HandedOff inputs a.workerId (decide (a.workerId ∈ q'.directory)) q' (.error raised) final)
      (caught : raised.rejectsHandoff = true) (isOver : (final.objects i).terminal = true) :
      Dispatched inputs p (.error (rejection raised)) (final.releaseAssignment a.requestId)
  | returned {a : Assignment} {raised : Raised} {q q' final : Plane}
      (placed : assign inputs p = (.ok a, q)) (saved : save (inputs.faults .firstSave) i q = (.ok (), q'))
      (looked : inputs.faults .directory = none)
      (handed : HandedOff inputs a.workerId (decide (a.workerId ∈ q'.directory)) q' (.error raised) final)
      (caught : raised.rejectsHandoff = true) (status : (final.objects i).status = .assigned) :
      Dispatched inputs p (.error (rejection raised)) (releaseAssignment a.requestId { final with
        objects := final.objects.put i (((final.objects i).assign none).enter .queued inputs.transitionAt) })
  | stuck {a : Assignment} {raised invalid : Raised} {q q' final : Plane}
      (placed : assign inputs p = (.ok a, q)) (saved : save (inputs.faults .firstSave) i q = (.ok (), q'))
      (looked : inputs.faults .directory = none)
      (handed : HandedOff inputs a.workerId (decide (a.workerId ∈ q'.directory)) q' (.error raised) final)
      (caught : raised.rejectsHandoff = true) (status : (final.objects i).status = .queued)
      (kind : invalid.kind = .invalidStateTransition) :
      Dispatched inputs p (.error invalid) (releaseAssignment a.requestId { final with
        objects := final.objects.put i ((final.objects i).assign none) })

theorem Assigned.status {a : Assignment} {q : Plane} (assigned : Assigned inputs p (.ok a) q) :
    (q.objects i).status = .assigned := by
  cases assigned with
  | placed schedulable early decided chosen named =>
    dsimp only
    rw [Objects.put_self]
    rfl

theorem save_objects {fault : Option Raised} {q q' : Plane} (saved : save fault i q = (.ok (), q')) :
    q'.objects = q.objects ∧ q'.workers = q.workers ∧ q'.reservations = q.reservations := by
  rcases save_cases fault i q with ⟨raised, -, -, lost, -⟩ | ⟨store, kept, -⟩
  · cases lost.symm.trans saved
  · cases kept.symm.trans saved
    exact ⟨rfl, rfl, rfl⟩

/-- The `try` statement of `dispatch`. -/
def tryHandOff (inputs : DispatchInputs i) (a : Assignment) (reachable : Bool) : Attempt Raised Plane Unit :=
  Attempt.ensure (Attempt.handle (handOff inputs a.workerId reachable) (rejectHandoff inputs))
    (releaseAssignment a.requestId)

section TryHandOff

variable {a : Assignment} {q final : Plane} {reachable : Bool}

theorem tryHandOff_ok (tried : handOff inputs a.workerId reachable q = (.ok (), final)) :
    tryHandOff inputs a reachable q = (.ok (), final.releaseAssignment a.requestId) := by
  unfold tryHandOff Attempt.ensure
  rw [Attempt.handle_ok tried]

theorem tryHandOff_uncaught (tried : handOff inputs a.workerId reachable q = (.error raised, final))
    (uncaught : raised.rejectsHandoff = false) :
    tryHandOff inputs a reachable q = (.error raised, final.releaseAssignment a.requestId) := by
  have missing : rejectHandoff inputs raised = none := if_neg (by rw [uncaught]; decide)
  unfold tryHandOff Attempt.ensure
  rw [Attempt.handle_uncaught tried missing]

theorem tryHandOff_caught (tried : handOff inputs a.workerId reachable q = (.error raised, final))
    (caught : raised.rejectsHandoff = true) {result : Except Raised Unit} {after : Plane}
    (back : giveBack inputs final = (result, after)) :
    tryHandOff inputs a reachable q =
      (result.bind fun _ => .error (rejection raised), after.releaseAssignment a.requestId) := by
  have found : rejectHandoff inputs raised =
      some (giveBack inputs >>= fun _ => Attempt.raise (rejection raised)) := if_pos caught
  unfold tryHandOff Attempt.ensure
  rw [Attempt.handle_caught tried found]
  cases result with
  | ok done =>
    rw [Attempt.bind_ok back]
    rfl
  | error stuck =>
    rw [Attempt.bind_error back]
    rfl

end TryHandOff

theorem HandedOff.final_status {q final : Plane} (handed : HandedOff inputs workerId reachable q (.error raised) final)
    (assigned : (q.objects i).status = .assigned) :
    (final.objects i).status = .assigned ∨ (final.objects i).terminal = true ∨ (final.objects i).status = .queued := by
  cases handed.failed with
  | stopped obstructed objects store held =>
    rw [objects]
    exact Or.inl assigned
  | expired obstructed objects store kind held =>
    rw [objects, Objects.put_self]
    exact Or.inr (Or.inl rfl)
  | unsaved unobstructed objects store held lost =>
    rw [objects, Objects.put_self]
    exact Or.inr (Or.inr rfl)

theorem Assigned.of_run {result : Except Raised Assignment} {q : Plane} (run : assign inputs p = (result, q)) :
    Assigned inputs p result q := by
  obtain ⟨result', q', run', assigned⟩ := assign_cases inputs p
  cases run.symm.trans run'
  exact assigned

theorem dispatch_cases (inputs : DispatchInputs i) (p : Plane) :
    ∃ result p', dispatch inputs p = (result, p') ∧ Dispatched inputs p result p' := by
  unfold dispatch
  change ∃ result p', (assign inputs >>= fun a => save (inputs.faults .firstSave) i >>= fun _ =>
    faultOr (inputs.faults .directory) (Attempt.read fun p => decide (a.workerId ∈ p.directory)) >>= fun reachable =>
    tryHandOff inputs a reachable >>= fun _ => pure a) p = (result, p') ∧ _
  obtain ⟨result, q, run, assigned⟩ := assign_cases inputs p
  cases result with
  | error raised =>
    rw [Attempt.bind_error run]
    exact ⟨_, _, rfl, .unassigned run⟩
  | ok a =>
    rw [Attempt.bind_ok run]
    rcases save_cases (inputs.faults .firstSave) i q with ⟨raised, -, -, lost, -⟩ | ⟨store, saved, -⟩
    · rw [Attempt.bind_error lost]
      exact ⟨_, _, rfl, .unsaved run lost⟩
    rw [Attempt.bind_ok saved]
    generalize { q with store := store } = q' at saved ⊢
    cases fault : inputs.faults .directory with
    | some raised =>
      have lookup : faultOr (some raised) (Attempt.read fun p => decide (a.workerId ∈ p.directory)) q' =
        (.error raised, q') := rfl
      rw [Attempt.bind_error lookup]
      exact ⟨_, _, rfl, .unlooked run saved fault⟩
    | none =>
      have lookup : faultOr none (Attempt.read fun p => decide (a.workerId ∈ p.directory)) q' =
        (.ok (decide (a.workerId ∈ q'.directory)), q') := rfl
      rw [Attempt.bind_ok lookup]
      have status : (q'.objects i).status = .assigned := (save_objects saved).1 ▸ assigned.status
      obtain ⟨result, final, tried, handed⟩ :=
        handOff_cases inputs a.workerId (decide (a.workerId ∈ q'.directory)) status
      cases result with
      | ok done =>
        rw [Attempt.bind_ok (tryHandOff_ok tried)]
        exact ⟨_, _, rfl, .accepted run saved fault handed⟩
      | error raised =>
        cases caught : raised.rejectsHandoff with
        | false =>
          rw [Attempt.bind_error (tryHandOff_uncaught tried caught)]
          exact ⟨_, _, rfl, .escaped run saved fault handed caught⟩
        | true =>
          rcases handed.final_status status with given | isOver | queued
          · rw [Attempt.bind_error (tryHandOff_caught tried caught (giveBack_assigned given))]
            exact ⟨_, _, rfl, .returned run saved fault handed caught given⟩
          · rw [Attempt.bind_error (tryHandOff_caught tried caught (giveBack_over isOver))]
            exact ⟨_, _, rfl, .isOver run saved fault handed caught isOver⟩
          · obtain ⟨stuck, back, kind⟩ := giveBack_queued queued
            rw [Attempt.bind_error (tryHandOff_caught tried caught back)]
            exact ⟨_, _, rfl, .stuck run saved fault handed caught queued kind⟩

end ServingPlatform.Plane
