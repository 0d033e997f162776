import ServingPlatform.TokenEngine.SchedulerProtocol

namespace ServingPlatform.Shared

variable {S : Type} {backend : InferenceBackend S} {setup : EngineSetup} {t t' : Shared backend} {e : Engine S} {r : Ref}
  {f : ScheduledSequence → ScheduledSequence}

/-- What the scheduler's updates leave as it is, and what they only take away. -/
structure Recedes (t t' : Shared backend) : Prop where
  task : t'.engine.schedulerTask = t.engine.schedulerTask
  closed : t.engine.closed = true → t'.engine.closed = true
  created : t'.engine.created = t.engine.created
  requestId : ∀ r, t'.engine.requestId r = t.engine.requestId r
  active : ∀ id r, t'.engine.active.get? id = some r → t.engine.active.get? id = some r

theorem Recedes.refl (t : Shared backend) : Recedes t t :=
  ⟨rfl, id, rfl, fun _ => rfl, fun _ _ found => found⟩

theorem Recedes.trans {t'' : Shared backend} (first : Recedes t t') (second : Recedes t' t'') : Recedes t t'' where
  task := second.task.trans first.task
  closed was := second.closed (first.closed was)
  created := second.created.trans first.created
  requestId r := (second.requestId r).trans (first.requestId r)
  active id r found := first.active id r (second.active id r found)

theorem Recedes.activeRef (recedes : Recedes t t') (active : t'.ActiveRef r) : t.ActiveRef r := by
  rw [ActiveRef, recedes.requestId] at active
  exact recedes.active _ r active

theorem Recedes.of_same (task : e.schedulerTask = t.engine.schedulerTask)
    (closed : t.engine.closed = true → e.closed = true) (created : e.created = t.engine.created)
    (requestId : ∀ r, e.requestId r = t.engine.requestId r) (active : e.active = t.engine.active) :
    Recedes t (t.withEngine e) :=
  ⟨task, closed, created, requestId, fun _ _ found => active ▸ found⟩

theorem Recedes.modified (named : (f (t.engine.sequences r)).state.requestId = t.engine.requestId r) :
    Recedes t (t.withEngine (t.engine.modifySequence r f)) :=
  .of_same rfl id rfl (Engine.modifySequence_congr (fun runtime => runtime.state.requestId) named) rfl

theorem Recedes.quiet (same : t.engine.Quiet e) : Recedes t (t.withEngine e) :=
  .of_same same.schedulerTask same.closed same.created (fun r => vital_requestId (same.sequences r)) same.active

theorem Recedes.noteResize (r : Ref) (outcome : Except Raised (List BlockId) × KVBlockAllocator) :
    Recedes t (t.withEngine (t.engine.noteResize r outcome).2) := by
  obtain ⟨-, sequences, active, created, -, task⟩ := t.engine.noteResize_frame r outcome
  refine .of_same task ?_ created (fun r' => vital_requestId (sequences r')) active
  rcases t.engine.noteResize_cases r outcome with ⟨raised, -, run⟩ | ⟨blocks, -, run⟩
  · rw [run]
    exact id
  · rw [run]
    exact id

theorem Recedes.retire (r : Ref) (event : ScheduledSequence → StreamEvent) :
    Recedes t (t.withEngine (t.engine.retire r event).2) := by
  unfold Engine.retire
  split
  · exact .of_same rfl id rfl (fun _ => rfl) rfl
  · have named : ∀ r', (t.engine.modifySequence r fun runtime =>
        { runtime with events := runtime.events ++ [event runtime], done := true }).requestId r' = t.engine.requestId r' :=
      Engine.modifySequence_congr (fun runtime => runtime.state.requestId) rfl
    refine ⟨rfl, id, rfl, named, fun id r' found => ?_⟩
    · have left : (t.engine.active.erase (t.engine.requestId r)).get? id = some r' := found
      rw [Dict.get?_erase] at left
      split at left
      · cases left
      · exact left

theorem Recedes.decided : Recedes t (t.withEngine t.engine.decision.2) := .of_same rfl id rfl (fun _ => rfl) rfl

theorem Action.recedes (action : Action t t') : Recedes t t' := by
  cases action with
  | quiet same => exact .quiet same
  | tokenized => exact .modified rfl
  | resized => exact .noteResize _ _
  | beginPrefill => exact .modified rfl
  | lookup => exact .of_same rfl id rfl (fun _ => rfl) rfl
  | advanced => exact .modified rfl
  | eosKnown => exact .of_same rfl id rfl (fun _ => rfl) rfl
  | stored => exact .of_same rfl id rfl (fun _ => rfl) rfl
  | closing => exact .modified rfl
  | released => exact .modified rfl
  | cached => exact .modified rfl
  | emitted => exact .modified rfl
  | retired => exact .retire _ _

/-- A scheduler's task that was made stays made, and one that is over stays over. -/
theorem Step.task (step : Step t t') : t.engine.schedulerTask = none ∨
    t'.engine.schedulerTask = t.engine.schedulerTask ∨
      t.engine.schedulerTask = some .running ∧ (∃ error, t'.engine.schedulerTask = some (.raised error)) ∨
        t'.engine.schedulerTask = some .returned := by
  cases step with
  | scheduler action => exact Or.inr (Or.inl action.recedes.task)
  | decided => exact Or.inr (Or.inl rfl)
  | client action =>
    cases action with
    | quiet same => exact Or.inr (Or.inl same.schedulerTask)
    | @reserve id prompt sampling deadline count createdAt =>
      refine Or.inr (Or.inl ?_)
      rcases t.engine.reserve_cases id prompt sampling deadline count createdAt with
        ⟨raised, kvAllocator, run, -⟩ | ⟨n, kvAllocator, blocks, -, -, -, -, -, -, run⟩
      · rw [run]
        rfl
      · rw [run]
        rfl
    | ensureScheduler =>
      cases made : t.engine.schedulerTask with
      | none => exact Or.inl rfl
      | some task =>
        refine Or.inr (Or.inl ?_)
        show some (t.engine.schedulerTask.getD .running) = _
        rw [made]
        rfl
    | popFinished => exact Or.inr (Or.inl rfl)
    | clearPrefixCache => exact Or.inr (Or.inl rfl)
    | closeExecutor => exact Or.inr (Or.inl rfl)
    | action _ action => exact Or.inr (Or.inl action.recedes.task)
  | call => exact Or.inr (Or.inl rfl)
  | stop => exact Or.inr (Or.inl rfl)
  | schedulerReturned => exact Or.inr (Or.inr (Or.inr rfl))
  | schedulerRaised running => exact Or.inr (Or.inr (Or.inl ⟨running, _, rfl⟩))

/-- The engine is closed, and nothing is active any more. -/
structure Halted (t : Shared backend) : Prop where
  closed : t.engine.closed = true
  idle : ∀ r, ¬ t.ActiveRef r

theorem Recedes.halted (recedes : Recedes t t') (halted : t.Halted) : t'.Halted :=
  ⟨recedes.closed halted.closed, fun r active => halted.idle r (recedes.activeRef active)⟩

theorem ClientAction.halted (action : ClientAction t t') (halted : t.Halted) : t'.Halted := by
  cases action with
  | quiet same => exact (Recedes.quiet same).halted halted
  | @reserve id prompt sampling deadline count createdAt =>
    have refused : (t.engine.reserve id prompt sampling deadline count createdAt).2 = t.engine := by
      unfold Engine.reserve
      rw [if_pos halted.closed]
    rw [refused]
    exact halted
  | ensureScheduler | popFinished | clearPrefixCache | closeExecutor => exact ⟨halted.closed, halted.idle⟩
  | action _ action => exact action.recedes.halted halted

theorem Step.halted (step : Step t t') (halted : t.Halted) : t'.Halted := by
  cases step with
  | scheduler action => exact action.recedes.halted halted
  | decided => exact ⟨halted.closed, halted.idle⟩
  | client action => exact action.halted halted
  | call => exact ⟨halted.closed, halted.idle⟩
  | stop => exact ⟨halted.closed, halted.idle⟩
  | schedulerReturned => exact ⟨halted.closed, halted.idle⟩
  | schedulerRaised => exact ⟨halted.closed, halted.idle⟩

/-- What all parties have done between two states. -/
abbrev Chain (t t' : Shared backend) : Prop := Relation.ReflTransGen Step t t'

theorem Chain.halted (chain : Chain t t') (halted : t.Halted) : t'.Halted := by
  induction chain with
  | refl => exact halted
  | tail _ step before => exact step.halted before

theorem Chain.sound (chain : Chain t t') (sound : t.Sound setup) : t'.Sound setup := by
  induction chain with
  | refl => exact sound
  | tail _ step before => exact step.sound before

theorem Chain.returned (chain : Chain t t') (task : t.engine.schedulerTask = some .returned) :
    t'.engine.schedulerTask = some .returned := by
  induction chain with
  | refl => exact task
  | tail _ step before =>
    rcases step.task with none | same | ⟨running, -⟩ | returned
    · cases none.symm.trans before
    · exact same.trans before
    · cases running.symm.trans before
    · exact returned

/-- A scheduler's task that is not made was never made. -/
theorem Chain.unstarted (chain : Chain t t') (task : t'.engine.schedulerTask = none) :
    t.engine.schedulerTask = none := by
  induction chain with
  | refl => exact task
  | tail _ step before =>
    rcases step.task with none | same | ⟨-, error, raised⟩ | returned
    · exact before none
    · exact before (same.symm.trans task)
    · cases raised.symm.trans task
    · cases returned.symm.trans task

end ServingPlatform.Shared
