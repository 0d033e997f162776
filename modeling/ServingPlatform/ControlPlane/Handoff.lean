import ServingPlatform.ControlPlane.DispatchSteps

namespace ServingPlatform.Plane

variable {i : ObjectId} {inputs : DispatchInputs i} {p p' : Plane} {workerId : String} {now : Seconds}

/-- The worker changes of the `try` block do not touch requests, store and reservations. -/
structure Kept (p p' : Plane) : Prop where
  objects : p'.objects = p.objects
  store : p'.store = p.store
  reservations : p'.reservations = p.reservations

theorem Kept.refl (p : Plane) : p.Kept p := ⟨rfl, rfl, rfl⟩

theorem loadModel_kept (inputs : DispatchInputs i) (workerId : String) (model : ModelDefinition) (p : Plane) :
    p.Kept (loadModel inputs workerId model p).2 := by
  unfold loadModel
  dsimp only
  split
  · exact ⟨rfl, rfl, rfl⟩
  · split <;> exact ⟨rfl, rfl, rfl⟩

theorem prepare_kept (inputs : DispatchInputs i) (workerId : String) (reachable : Bool) (p : Plane) :
    p.Kept (prepare inputs workerId reachable p).2 := by
  unfold prepare provideModel
  split
  · exact .refl p
  split
  · exact .refl p
  split
  · exact .refl p
  split
  · exact .refl p
  split
  · exact .refl p
  split
  · exact .refl p
  split
  · exact .refl p
  · exact loadModel_kept inputs workerId _ p

theorem loadModel_held (inputs : DispatchInputs i) (workerId : String) (model : ModelDefinition) (p : Plane)
    (v : String) : i ∈ ((loadModel inputs workerId model p).2.workers v).queue ↔ i ∈ (p.workers v).queue := by
  have loaded := @ManagedWorker.loadModel_holdings _ _ p.objects model inputs.load _
    (fun held => i ∈ held.1 ↔ i ∈ (p.workers workerId).queue) Iff.rfl (inputs.apart (p.workers workerId)).1
    fun w same => (inputs.apart w).2.trans same
  have after : i ∈ ((p.setWorker workerId ((p.workers workerId).loadModel (inputs.woken (p.workers workerId))
      inputs.meanwhile p.objects model inputs.load).2).workers v).queue ↔ i ∈ (p.workers v).queue := by
    unfold setWorker
    dsimp only
    split
    · rename_i same
      rw [same]
      exact loaded
    · exact Iff.rfl
  unfold loadModel
  dsimp only
  split
  · exact after
  · split <;> exact after

theorem prepare_held (inputs : DispatchInputs i) (workerId : String) (reachable : Bool) (p : Plane) (v : String) :
    i ∈ ((prepare inputs workerId reachable p).2.workers v).queue ↔ i ∈ (p.workers v).queue := by
  unfold prepare provideModel
  split
  · exact Iff.rfl
  split
  · exact Iff.rfl
  split
  · exact Iff.rfl
  split
  · exact Iff.rfl
  split
  · exact Iff.rfl
  split
  · exact Iff.rfl
  split
  · exact Iff.rfl
  · exact loadModel_held inputs workerId _ p v

/-- The plane once a worker has taken a request into its queue. -/
def queuedAt (workerId : String) (i : ObjectId) (now : Seconds) (p : Plane) : Plane :=
  { p.setWorker workerId { p.workers workerId with queue := (p.workers workerId).queue ++ [i] } with
    objects := p.objects.put i ((p.objects i).enter .queued now) }

/-- What stands in the way of the enqueue itself. -/
def refusal (inputs : DispatchInputs i) (workerId : String) (p : Plane) : Option Raised :=
  match (faultOr (inputs.faults .enqueue)
    (onWorker workerId (ManagedWorker.enqueueRequest i inputs.transitionAt)) p).1 with
  | .error raised => some raised
  | .ok () => none

/-- The ways the `try` block ends, for an assigned request. -/
inductive HandedOff (inputs : DispatchInputs i) (workerId : String) (reachable : Bool) (p : Plane) :
    Except Raised Unit → Plane → Prop
  | unprepared {raised : Raised} {p' : Plane} (run : prepare inputs workerId reachable p = (.error raised, p')) :
      HandedOff inputs workerId reachable p (.error raised) p'
  | expired {p' : Plane} (run : prepare inputs workerId reachable p = (.ok (), p'))
      (late : (p.objects i).deadline.expired inputs.loadedAt = true) :
      HandedOff inputs workerId reachable p
        (.error (dispatchError "request deadline expired during model loading"))
        { p' with objects := p'.objects.put i ((p.objects i).enter .timedOut inputs.transitionAt) }
  | refused {raised : Raised} {p' : Plane} (run : prepare inputs workerId reachable p = (.ok (), p'))
      (early : (p.objects i).deadline.expired inputs.loadedAt = false)
      (refusal : refusal inputs workerId p' = some raised) :
      HandedOff inputs workerId reachable p (.error raised) p'
  | unsaved {raised : Raised} {p' : Plane} (run : prepare inputs workerId reachable p = (.ok (), p'))
      (early : (p.objects i).deadline.expired inputs.loadedAt = false)
      (accepted : Plane.refusal inputs workerId p' = none)
      (lost : save (inputs.faults .finalSave) i (p'.queuedAt workerId i inputs.transitionAt) =
        (.error raised, p'.queuedAt workerId i inputs.transitionAt)) :
      HandedOff inputs workerId reachable p (.error raised) (p'.queuedAt workerId i inputs.transitionAt)
  | accepted {p' final : Plane} (run : prepare inputs workerId reachable p = (.ok (), p'))
      (early : (p.objects i).deadline.expired inputs.loadedAt = false)
      (accepted : Plane.refusal inputs workerId p' = none)
      (saved : save (inputs.faults .finalSave) i (p'.queuedAt workerId i inputs.transitionAt) = (.ok (), final)) :
      HandedOff inputs workerId reachable p (.ok ()) final

theorem enqueue_cases (inputs : DispatchInputs i) (workerId : String) (assigned : (p.objects i).status = .assigned) :
    (∃ raised, refusal inputs workerId p = some raised ∧
      faultOr (inputs.faults .enqueue) (onWorker workerId (ManagedWorker.enqueueRequest i inputs.transitionAt)) p =
        (.error raised, p)) ∨
      refusal inputs workerId p = none ∧
      faultOr (inputs.faults .enqueue) (onWorker workerId (ManagedWorker.enqueueRequest i inputs.transitionAt)) p =
        (.ok (), p.queuedAt workerId i inputs.transitionAt) := by
  unfold refusal faultOr
  cases inputs.faults .enqueue with
  | some raised => exact Or.inl ⟨raised, rfl, rfl⟩
  | none =>
    have same : { p.setWorker workerId (p.workers workerId) with objects := p.objects } = p := by
      rw [setWorker_self]
    dsimp only [Option.elim_none, onWorker, Attempt.zoom]
    rcases ManagedWorker.enqueueRequest_cases (i := i) inputs.transitionAt
      (p := ⟨p.workers workerId, p.objects⟩) assigned with ⟨raised, run, -⟩ | run
    · rw [run]
      exact Or.inl ⟨raised, rfl, by rw [same]⟩
    · rw [run]
      exact Or.inr ⟨rfl, rfl⟩

theorem handOff_cases (inputs : DispatchInputs i) (workerId : String) (reachable : Bool)
    (assigned : (p.objects i).status = .assigned) :
    ∃ result p', handOff inputs workerId reachable p = (result, p') ∧
      HandedOff inputs workerId reachable p result p' := by
  unfold handOff
  have kept := prepare_kept inputs workerId reachable p
  rcases prepared : prepare inputs workerId reachable p with ⟨raised | ⟨⟩, p'⟩
  · rw [Attempt.bind_error prepared]
    exact ⟨_, _, rfl, .unprepared prepared⟩
  rw [prepared] at kept
  have same : p'.objects = p.objects := kept.objects
  rw [Attempt.bind_ok prepared]
  by_cases late : (p.objects i).deadline.expired inputs.loadedAt = true
  · have checked : checkDeadline inputs p' = (.error (dispatchError "request deadline expired during model loading"),
        { p' with objects := p'.objects.put i ((p.objects i).enter .timedOut inputs.transitionAt) }) := by
      unfold checkDeadline
      rw [Attempt.bind_ok current_run, same, if_pos late, Attempt.bind_ok (transition_ok _ _), same]
      · rfl
      · rw [same, assigned]
        decide
    rw [Attempt.bind_error checked]
    exact ⟨_, _, rfl, .expired prepared late⟩
  have early : (p.objects i).deadline.expired inputs.loadedAt = false := by simpa using late
  have checked : checkDeadline inputs p' = (.ok (), p') := by
    unfold checkDeadline
    rw [Attempt.bind_ok current_run, same, if_neg late]
    rfl
  rw [Attempt.bind_ok checked]
  rcases enqueue_cases inputs workerId (p := p') (i := i) (by rw [same]; exact assigned) with
    ⟨raised, refused, run⟩ | ⟨accepted, run⟩
  · rw [Attempt.bind_error run]
    exact ⟨_, _, rfl, .refused prepared early refused⟩
  · rw [Attempt.bind_ok run]
    rcases save_cases (inputs.faults .finalSave) i (p'.queuedAt workerId i inputs.transitionAt) with
      ⟨raised, -, -, lost, -⟩ | ⟨store, saved, -⟩
    · exact ⟨_, _, lost, .unsaved prepared early accepted lost⟩
    · exact ⟨_, _, saved, .accepted prepared early accepted saved⟩

end ServingPlatform.Plane
