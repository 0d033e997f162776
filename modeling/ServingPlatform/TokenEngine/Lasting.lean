import ServingPlatform.TokenEngine.Turns

namespace ServingPlatform

variable {S : Type} {backend : InferenceBackend S} {setup : EngineSetup}

namespace Engine

variable {e e' e'' : Engine S} {r : Ref}

/-- Active sequences stand in the order in which they were reserved. -/
def Lined (e : Engine S) : Prop := e.active.values.Pairwise (· < ·) ∧ ∀ r ∈ e.active.values, r < e.created

/-- What a run of the engine never takes back. -/
structure Lasts (e e' : Engine S) : Prop where
  onward : e.Onward e'
  createdAt : ∀ r, r < e.created → (e'.sequences r).state.createdAt = (e.sequences r).state.createdAt
  done : ∀ r, r < e.created → (e.sequences r).done = true → (e'.sequences r).done = true
  lined : e.Lined → e'.Lined

theorem Lasts.refl (e : Engine S) : e.Lasts e := ⟨.refl e, fun _ _ => rfl, fun _ _ done => done, id⟩

theorem Lasts.trans (first : e.Lasts e') (second : e'.Lasts e'') : e.Lasts e'' := by
  have later : ∀ {r : Ref}, r < e.created → r < e'.created := fun below => Nat.lt_of_lt_of_le below first.onward.created
  refine ⟨first.onward.trans second.onward, fun r below => ?_, fun r below done => ?_, fun lined => ?_⟩
  · exact (second.createdAt r (later below)).trans (first.createdAt r below)
  · exact second.done r (later below) (first.done r below done)
  · exact second.lined (first.lined lined)

theorem Lined.of_sublist (lined : e.Lined) (active : e'.active.entries.Sublist e.active.entries)
    (created : e'.created = e.created) : e'.Lined := by
  have fewer : e'.active.values.Sublist e.active.values := active.map Prod.snd
  refine ⟨lined.1.sublist fewer, fun r member => ?_⟩
  rw [created]
  exact lined.2 r (fewer.subset member)

theorem Lined.admitted (lined : e.Lined) {state : SequenceState} {kvAllocator : KVBlockAllocator}
    (new : e.active.get? state.requestId = none) : (e.admitSequence state kvAllocator).Lined := by
  have grown : (e.admitSequence state kvAllocator).active.values = e.active.values ++ [e.created] := by
    show (e.active.insert state.requestId e.created).entries.map Prod.snd = _
    rw [Dict.entries_insert_of_fresh (Dict.get?_eq_none_iff.mp new), List.map_append]
    rfl
  unfold Lined
  rw [grown]
  refine ⟨List.pairwise_append.mpr ⟨lined.1, List.pairwise_singleton _ _, fun r old last new => ?_⟩, fun r member => ?_⟩
  · rw [List.mem_singleton.mp new]
    exact lined.2 r old
  · rcases List.mem_append.mp member with old | last
    · exact Nat.lt_succ_of_lt (lined.2 r old)
    · rw [List.mem_singleton.mp last]
      exact Nat.lt_succ_self _

theorem Lasts.of_same (onward : e.Onward e') (created : e'.created = e.created)
    (active : e'.active.entries.Sublist e.active.entries)
    (createdAt : ∀ r, (e'.sequences r).state.createdAt = (e.sequences r).state.createdAt)
    (done : ∀ r, (e.sequences r).done = true → (e'.sequences r).done = true) : e.Lasts e' :=
  ⟨onward, fun r _ => createdAt r, fun r _ => done r, fun lined => lined.of_sublist active created⟩

theorem Lasts.modified {f : ScheduledSequence → ScheduledSequence} (onward : e.Onward (e.modifySequence r f))
    (createdAt : (f (e.sequences r)).state.createdAt = (e.sequences r).state.createdAt)
    (done : (f (e.sequences r)).done = (e.sequences r).done) : e.Lasts (e.modifySequence r f) := by
  refine .of_same onward rfl (List.Sublist.refl _) ?_ fun r' was => ?_
  · exact modifySequence_congr (fun runtime => runtime.state.createdAt) createdAt
  · exact (modifySequence_congr ScheduledSequence.done done r').trans was

theorem Lasts.of_vital (onward : e.Onward e') (created : e'.created = e.created) (active : e'.active = e.active)
    (sequences : ∀ r, (e'.sequences r).vital = (e.sequences r).vital) : e.Lasts e' := by
  refine .of_same onward created (active ▸ List.Sublist.refl _) (fun r => ?_) fun r was => ?_
  · exact congrArg (fun runtime => runtime.state.createdAt) (sequences r)
  · exact (congrArg ScheduledSequence.done (sequences r)).trans was

end Engine

namespace Shared

variable {t t' : Shared backend} {r : Ref}

theorem lasts_modified {f : ScheduledSequence → ScheduledSequence}
    (onward : t.engine.Onward (t.withEngine (t.engine.modifySequence r f)).engine)
    (createdAt : (f (t.engine.sequences r)).state.createdAt = (t.engine.sequences r).state.createdAt)
    (done : (f (t.engine.sequences r)).done = (t.engine.sequences r).done) :
    t.engine.Lasts (t.withEngine (t.engine.modifySequence r f)).engine := .modified onward createdAt done

theorem lasts_noteResize (r : Ref) (outcome : Except Raised (List BlockId) × KVBlockAllocator) :
    t.engine.Lasts (t.withEngine (t.engine.noteResize r outcome).2).engine := by
  obtain ⟨-, sequences, active, created, -, -⟩ := t.engine.noteResize_frame r outcome
  exact .of_vital (onward_noteResize r outcome) created active sequences

theorem lasts_retire (r : Ref) (event : ScheduledSequence → StreamEvent)
    (onward : t.engine.Onward (t.engine.retire r event).2) : t.engine.Lasts (t.engine.retire r event).2 := by
  have recedes : Recedes t (t.withEngine (t.engine.retire r event).2) := .retire r event
  rcases outcome : t.engine.kvAllocator.release (t.engine.requestId r) with ⟨raised | done, kvAllocator⟩
  · have run : (t.engine.retire r event).2 = { t.engine with kvAllocator } := by
      unfold Engine.retire
      rw [outcome]
    rw [run] at onward ⊢
    exact .of_vital onward rfl rfl fun _ => rfl
  · have run : (t.engine.retire r event).2.active = t.engine.active.erase (t.engine.requestId r) ∧
        (t.engine.retire r event).2.sequences = (t.engine.modifySequence r fun runtime =>
          { runtime with events := runtime.events ++ [event runtime], done := true }).sequences := by
      unfold Engine.retire
      rw [outcome]
      exact ⟨rfl, rfl⟩
    refine .of_same onward recedes.created ?_ (fun r' => ?_) fun r' was => ?_
    · rw [run.1]
      exact Dict.eraseEntry_sublist _ _
    · rw [run.2]
      exact Engine.modifySequence_congr (f := fun runtime =>
        { runtime with events := runtime.events ++ [event runtime], done := true })
        (fun runtime => runtime.state.createdAt) rfl r'
    · rw [run.2]
      rcases Engine.modifySequence_cases (e := t.engine) (r := r) r'
        (fun runtime => { runtime with events := runtime.events ++ [event runtime], done := true }) with
        ⟨rfl, here⟩ | ⟨-, elsewhere⟩
      · rw [here]
      · rw [elsewhere]
        exact was

theorem Action.lasts (action : Action t t') : t.engine.Lasts t'.engine := by
  have onward := action.onward
  cases action with
  | quiet same => exact .of_vital onward same.created same.active same.sequences
  | tokenized => exact lasts_modified onward rfl rfl
  | resized => exact lasts_noteResize _ _
  | beginPrefill => exact lasts_modified onward rfl rfl
  | lookup => exact .of_vital onward rfl rfl fun _ => rfl
  | advanced => exact lasts_modified onward rfl rfl
  | eosKnown => exact .of_vital onward rfl rfl fun _ => rfl
  | stored => exact .of_vital onward rfl rfl fun _ => rfl
  | closing => exact lasts_modified onward rfl rfl
  | released => exact lasts_modified onward rfl rfl
  | cached => exact lasts_modified onward rfl rfl
  | emitted => exact lasts_modified onward rfl rfl
  | retired => exact lasts_retire _ _ onward

theorem ClientAction.lasts (action : ClientAction t t') : t.engine.Lasts t'.engine := by
  have onward := action.onward
  cases action with
  | quiet same => exact .of_vital onward same.created same.active same.sequences
  | @reserve id prompt sampling deadline count createdAt =>
    rcases t.engine.reserve_cases id prompt sampling deadline count createdAt with
      ⟨raised, kvAllocator, run, -⟩ | ⟨n, kvAllocator, blocks, -, new, -, -, -, -, run⟩
    · rw [run] at onward ⊢
      exact .of_vital onward rfl rfl fun _ => rfl
    · rw [run] at onward ⊢
      have old : ∀ {r : Ref}, r < t.engine.created → (t.engine.admitSequence
          { requestId := id, prompt, sampling, deadline, createdAt, kvBlockIds := blocks } kvAllocator).sequences r =
            t.engine.sequences r := fun below => if_neg (Nat.ne_of_lt below)
      refine ⟨onward, fun r below => ?_, fun r below was => ?_, fun lined => ?_⟩
      · exact congrArg (fun runtime => runtime.state.createdAt) (old below)
      · exact (congrArg ScheduledSequence.done (old below)).trans was
      · exact lined.admitted new
  | ensureScheduler | popFinished | clearPrefixCache | closeExecutor => exact .of_vital onward rfl rfl fun _ => rfl
  | action _ action => exact action.lasts

/-- No step of any party takes back what lasts. -/
theorem Step.lasts (step : Step t t') : t.engine.Lasts t'.engine := by
  cases step with
  | scheduler action => exact action.lasts
  | client action => exact action.lasts
  | decided | call | stop | schedulerReturned | schedulerRaised =>
    exact .of_vital (.of_same rfl rfl fun _ => rfl) rfl rfl fun _ => rfl

theorem Step.policyName (step : Step t t') : t'.engine.policy.name = t.engine.policy.name := by
  cases step with
  | scheduler action => rw [action.policy]
  | client action => rw [action.policy]
  | decided =>
    show t.engine.decision.2.policy.name = _
    rcases t.engine.decision_policy with ⟨same, -⟩ | ⟨turned, -⟩
    · rw [same]
    · rw [turned]
  | call | stop | schedulerReturned | schedulerRaised => rfl

theorem Chain.lasts (chain : Chain t t') : t.engine.Lasts t'.engine := by
  induction chain with
  | refl => exact .refl _
  | tail _ step before => exact before.trans step.lasts

theorem Chain.policyName (chain : Chain t t') : t'.engine.policy.name = t.engine.policy.name := by
  induction chain with
  | refl => rfl
  | tail _ step before => exact step.policyName.trans before

/-- Sequences of a reachable engine stand in order. -/
theorem Reach.lined (reach : t.Reach setup) : t.engine.Lined :=
  (Chain.lasts reach).lined ⟨.nil, fun _ none => by cases none⟩

end Shared

namespace Chronicle

variable {h h' : Chronicle backend}

/-- Every decision noted on the way was taken in a state on the way. -/
theorem Moves.traced (moves : Relation.ReflTransGen Moves h h') : ∃ taken, h'.decisions = taken ++ h.decisions ∧
    ∀ e ∈ taken, ∃ t : Shared backend, t.engine = e ∧ Shared.Chain h.shared t ∧ Shared.Chain t h'.shared := by
  induction moves with
  | refl => exact ⟨[], rfl, fun e none => by cases none⟩
  | @tail h₁ h₂ before move ih =>
    obtain ⟨taken, decisions, traced⟩ := ih
    have last : Shared.Step h₁.shared h₂.shared := by
      cases move with
      | step step => exact step
      | decided => exact .decided
    have old : ∀ e ∈ taken, ∃ t : Shared backend, t.engine = e ∧ Shared.Chain h.shared t ∧ Shared.Chain t h₂.shared := by
      intro e member
      obtain ⟨t, same, first, later⟩ := traced e member
      exact ⟨t, same, first, later.tail last⟩
    have noted : h₂.decisions = h₁.decisions ∨ h₂.decisions = h₁.shared.engine :: h₁.decisions := by
      cases move with
      | step => exact Or.inl rfl
      | decided => exact ite_eq_or_eq _ _ _
    rcases noted with same | grown
    · exact ⟨taken, same.trans decisions, old⟩
    · refine ⟨h₁.shared.engine :: taken, by rw [grown, decisions]; rfl, fun e member => ?_⟩
      rcases List.mem_cons.mp member with rfl | inOld
      · exact ⟨h₁.shared, rfl, chain before, .single last⟩
      · exact old e inOld

end Chronicle

end ServingPlatform
