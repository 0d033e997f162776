import ServingPlatform.TokenEngine.Chronicle
import ServingPlatform.TokenEngine.Halting

namespace ServingPlatform

variable {S : Type} {backend : InferenceBackend S} {setup : EngineSetup}

namespace Engine

variable {e e' e'' : Engine S} {r : Ref}

/-- The sequence is one of those `_sets` lists as waiting. -/
def Waits (e : Engine S) (r : Ref) : Prop :=
  e.active.get? (e.requestId r) = some r ∧
    ((e.sequences r).state.phase = .queued ∨ (e.sequences r).state.phase = .prefill)

/-- The sequences a decision taken in this state prefills. -/
def chosen (e : Engine S) : List Ref :=
  match e.decision.1 with
  | .ok d => d.prefillIds.filterMap e.active.get?
  | .error _ => []

/-- Sequences leave or begin to wait, and the others are in their phases. -/
def Keeps (e e' : Engine S) : Prop :=
  ∀ r, e'.active.get? (e'.requestId r) = some r → e'.Waits r ∨
    e.active.get? (e.requestId r) = some r ∧ (e'.sequences r).state.phase = (e.sequences r).state.phase

/-- Between two turns a sequence waits, or it decodes since a decision chose it. -/
def Credits (e : Engine S) (decisions : List (Engine S)) : Prop :=
  ∀ r, e.active.get? (e.requestId r) = some r → e.Waits r ∨
    (e.sequences r).state.phase = .decode ∧ ∃ decided ∈ decisions, r ∈ decided.chosen

/-- Sequences join, but none begins to wait again. -/
structure Onward (e e' : Engine S) : Prop where
  created : e.created ≤ e'.created
  waits : ∀ r, r < e.created → e'.Waits r → e.Waits r

theorem Onward.refl (e : Engine S) : e.Onward e := ⟨Nat.le_refl _, fun _ _ waits => waits⟩

theorem Onward.trans (first : e.Onward e') (second : e'.Onward e'') : e.Onward e'' where
  created := Nat.le_trans first.created second.created
  waits r older waits := first.waits r older (second.waits r (Nat.lt_of_lt_of_le older first.created) waits)

/-- Between two turns: a decision was taken in the first state and acted upon before the second. -/
structure Succeeds (e e' : Engine S) : Prop where
  onward : e.Onward e'
  policy : e'.policy = e.decision.2.policy
  below : ∀ r ∈ e.chosen, r < e.created
  served : e.config.prefillChunkSizeTokens = 0 → ∀ r ∈ e.chosen, ¬ e'.Waits r

theorem Succeeds.later (succeeds : e.Succeeds e') (onward : e'.Onward e'') (policy : e''.policy = e'.policy) :
    e.Succeeds e'' where
  onward := succeeds.onward.trans onward
  policy := policy.trans succeeds.policy
  below := succeeds.below
  served whole r listed waits := succeeds.served whole r listed
    (onward.waits r (Nat.lt_of_lt_of_le (succeeds.below r listed) succeeds.onward.created) waits)

theorem Credits.later {decisions : List (Engine S)} (credits : e.Credits decisions) (keeps : e.Keeps e') :
    e'.Credits decisions := by
  intro r active
  rcases keeps r active with waits | ⟨before, phase⟩
  · exact Or.inl waits
  · rcases credits r before with waited | ⟨decodes, chosen⟩
    · exact Or.inl ⟨active, phase ▸ waited.2⟩
    · exact Or.inr ⟨phase.trans decodes, chosen⟩

/-- A state between two turns, after some decisions, the last one first. -/
structure Follows (e : Engine S) (decisions : List (Engine S)) : Prop where
  succeeds : ∀ decided ∈ decisions.head?, decided.Succeeds e
  credits : e.policy.name = .balanced → e.Credits decisions

theorem Follows.later {decisions : List (Engine S)} (follows : e.Follows decisions) (onward : e.Onward e')
    (keeps : e.Keeps e') (policy : e'.policy = e.policy) : e'.Follows decisions where
  succeeds decided last := (follows.succeeds decided last).later onward policy
  credits balanced := (follows.credits (policy ▸ balanced)).later keeps

/-- The states of all decisions, each between two turns. -/
def Orderly : List (Engine S) → Prop
  | [] => True
  | e :: earlier => e.Follows earlier ∧ Orderly earlier

theorem Orderly.suffix {later decisions : List (Engine S)} (orderly : Orderly (later ++ decisions)) : Orderly decisions := by
  induction later with
  | nil => exact orderly
  | cons e rest ih => exact ih orderly.2

theorem Onward.of_phase (created : e.created ≤ e'.created) (requestId : ∀ r, r < e.created → e'.requestId r = e.requestId r)
    (active : ∀ id r, r < e.created → e'.active.get? id = some r → e.active.get? id = some r)
    (phase : ∀ r, r < e.created → (e'.sequences r).state.phase = .queued ∨ (e'.sequences r).state.phase = .prefill →
      (e.sequences r).state.phase = .queued ∨ (e.sequences r).state.phase = .prefill) : e.Onward e' := by
  refine ⟨created, fun r older waits => ⟨?_, phase r older waits.2⟩⟩
  have found := active _ r older waits.1
  rw [requestId r older] at found
  exact found

theorem Onward.of_same (created : e'.created = e.created) (active : e'.active = e.active)
    (sequences : ∀ r, (e'.sequences r).vital = (e.sequences r).vital) : e.Onward e' := by
  refine .of_phase (Nat.le_of_eq created.symm) (fun r _ => Shared.vital_requestId (sequences r)) ?_ ?_
  · exact fun id r _ found => active ▸ found
  · intro r _ waits
    have phase : (e'.sequences r).state.phase = (e.sequences r).state.phase :=
      congrArg (fun runtime => runtime.state.phase) (sequences r)
    exact phase ▸ waits

theorem Onward.modified {f : ScheduledSequence → ScheduledSequence}
    (named : (f (e.sequences r)).state.requestId = e.requestId r)
    (phase : (f (e.sequences r)).state.phase = .queued ∨ (f (e.sequences r)).state.phase = .prefill →
      (e.sequences r).state.phase = .queued ∨ (e.sequences r).state.phase = .prefill) :
    e.Onward (e.modifySequence r f) := by
  refine .of_phase (Nat.le_refl _) (fun r' _ => modifySequence_congr (fun runtime => runtime.state.requestId) named r')
    (fun _ _ _ found => found) fun r' _ waits => ?_
  rcases modifySequence_cases (e := e) (r := r) r' f with ⟨rfl, here⟩ | ⟨-, elsewhere⟩
  · rw [here] at waits
    exact phase waits
  · rw [elsewhere] at waits
    exact waits

/-- The balanced policy turns its flag; the others stay as they are. -/
theorem select_policy (policy : PrefillDecodePolicy) (waiting running : List SequenceState)
    (resources : TokenResourceSnapshot) :
    (policy.select waiting running resources).2 = policy ∧ policy.name ≠ .balanced ∨
      (policy.select waiting running resources).2 =
        { policy with balancedDecodeTurn := !policy.balancedDecodeTurn } ∧ policy.name = .balanced := by
  unfold PrefillDecodePolicy.select
  cases name : policy.name with
  | prefillFirst =>
    refine Or.inl ⟨?_, fun same => by cases same⟩
    dsimp only
    split <;> rfl
  | decodeFirst =>
    refine Or.inl ⟨?_, fun same => by cases same⟩
    dsimp only
    split <;> rfl
  | balanced =>
    refine Or.inr ⟨?_, rfl⟩
    dsimp only
    split
    · rfl
    · split <;> rfl

theorem decision_policy (e : Engine S) : e.decision.2.policy = e.policy ∧ e.policy.name ≠ .balanced ∨
    e.decision.2.policy = { e.policy with balancedDecodeTurn := !e.policy.balancedDecodeTurn } ∧ e.policy.name = .balanced :=
  select_policy _ _ _ _

end Engine

namespace Shared

variable {t t' : Shared backend} {r : Ref}

theorem onward_modified {f : ScheduledSequence → ScheduledSequence}
    (named : (f (t.engine.sequences r)).state.requestId = t.engine.requestId r)
    (phase : (f (t.engine.sequences r)).state.phase = .queued ∨ (f (t.engine.sequences r)).state.phase = .prefill →
      (t.engine.sequences r).state.phase = .queued ∨ (t.engine.sequences r).state.phase = .prefill) :
    t.engine.Onward (t.withEngine (t.engine.modifySequence r f)).engine := .modified named phase

theorem modified_policy {f : ScheduledSequence → ScheduledSequence} :
    (t.withEngine (t.engine.modifySequence r f)).engine.policy = t.engine.policy := rfl

theorem noteResize_policy (r : Ref) (outcome : Except Raised (List BlockId) × KVBlockAllocator) :
    (t.withEngine (t.engine.noteResize r outcome).2).engine.policy = t.engine.policy := by
  rcases t.engine.noteResize_cases r outcome with ⟨raised, -, run⟩ | ⟨blocks, -, run⟩
  · exact congrArg (fun outcome => outcome.2.policy) run
  · exact congrArg (fun outcome => outcome.2.policy) run

theorem onward_noteResize (r : Ref) (outcome : Except Raised (List BlockId) × KVBlockAllocator) :
    t.engine.Onward (t.withEngine (t.engine.noteResize r outcome).2).engine := by
  obtain ⟨-, sequences, active, created, -, -⟩ := t.engine.noteResize_frame r outcome
  exact .of_same created active sequences

theorem Action.policy (action : Action t t') : t'.engine.policy = t.engine.policy := by
  cases action with
  | quiet same => exact same.policy
  | tokenized => exact modified_policy
  | resized => exact noteResize_policy _ _
  | beginPrefill => exact modified_policy
  | lookup => rfl
  | advanced => exact modified_policy
  | eosKnown => rfl
  | stored => rfl
  | closing => exact modified_policy
  | released => exact modified_policy
  | cached => exact modified_policy
  | emitted => exact modified_policy
  | @retired r event =>
    show (t.engine.retire r event).2.policy = _
    unfold Engine.retire
    split <;> rfl

theorem ClientAction.policy (action : ClientAction t t') : t'.engine.policy = t.engine.policy := by
  cases action with
  | quiet same => exact same.policy
  | @reserve id prompt sampling deadline count createdAt =>
    show (t.engine.reserve id prompt sampling deadline count createdAt).2.policy = _
    rcases t.engine.reserve_cases id prompt sampling deadline count createdAt with
      ⟨raised, kvAllocator, run, -⟩ | ⟨n, kvAllocator, blocks, -, -, -, -, -, -, run⟩
    · rw [run]
    · rw [run]
      rfl
  | ensureScheduler | popFinished | clearPrefixCache | closeExecutor => rfl
  | action _ action => exact action.policy

theorem withEngine_log (e : Engine S) : (t.withEngine e).log = t.log := rfl

theorem Action.log (action : Action t t') : t'.log = t.log := by
  cases action <;> exact withEngine_log _

theorem ClientAction.log (action : ClientAction t t') : t'.log = t.log := by
  cases action with
  | action _ action => exact action.log
  | _ => exact withEngine_log _

theorem Action.onward (action : Action t t') : t.engine.Onward t'.engine := by
  cases action with
  | quiet same => exact .of_same same.created same.active same.sequences
  | tokenized => exact onward_modified rfl fun waits => waits
  | resized => exact onward_noteResize _ _
  | beginPrefill _ _ phase => exact onward_modified rfl fun _ => phase
  | lookup => exact .of_same rfl rfl fun _ => rfl
  | advanced => exact onward_modified rfl fun waits => waits
  | eosKnown => exact .of_same rfl rfl fun _ => rfl
  | stored => exact .of_same rfl rfl fun _ => rfl
  | @closing r phase _ may =>
    refine onward_modified rfl fun waits => ?_
    have waits : phase = .queued ∨ phase = .prefill := waits
    have terminal : phase = .failed ∨ phase = .cancelled ∨ phase = .completed ∨ phase = .timedOut := by
      rcases may with failed | ⟨-, ⟨cancelled, -⟩ | ⟨completed | timedOut, -⟩⟩
      · exact Or.inl failed
      · exact Or.inr (Or.inl cancelled)
      · exact Or.inr (Or.inr (Or.inl completed))
      · exact Or.inr (Or.inr (Or.inr timedOut))
    rcases waits with rfl | rfl <;> rcases terminal with is | is | is | is <;> cases is
  | released => exact onward_modified rfl fun waits => waits
  | cached => exact onward_modified rfl fun waits => waits
  | @emitted r token =>
    refine onward_modified rfl fun waits => ?_
    rcases waits with is | is <;> cases is
  | @retired r event active phase released final =>
    have recedes : Recedes t (t.withEngine (t.engine.retire r event).2) := .retire r event
    refine .of_phase (Nat.le_of_eq recedes.created.symm) (fun r' _ => recedes.requestId r')
      (fun id r' _ found => recedes.active id r' found) fun r' _ waits => ?_
    have kept : ((t.engine.retire r event).2.sequences r').state.phase = (t.engine.sequences r').state.phase := by
      unfold Engine.retire
      split
      · rfl
      · exact Engine.modifySequence_congr (r := r) (fun runtime => runtime.state.phase)
          (f := fun runtime => { runtime with events := runtime.events ++ [event runtime], done := true }) rfl r'
    exact kept ▸ waits

theorem ClientAction.onward (action : ClientAction t t') : t.engine.Onward t'.engine := by
  cases action with
  | quiet same => exact .of_same same.created same.active same.sequences
  | @reserve id prompt sampling deadline count createdAt =>
    rcases t.engine.reserve_cases id prompt sampling deadline count createdAt with
      ⟨raised, kvAllocator, run, -⟩ | ⟨n, kvAllocator, blocks, -, -, -, -, -, -, run⟩
    · rw [run]
      exact .of_same rfl rfl fun _ => rfl
    · rw [run]
      have old : ∀ {r : Ref}, r < t.engine.created → (t.engine.admitSequence
          { requestId := id, prompt, sampling, deadline, createdAt, kvBlockIds := blocks } kvAllocator).sequences r =
            t.engine.sequences r := fun below => if_neg (Nat.ne_of_lt below)
      refine .of_phase (Nat.le_succ _) (fun r older => congrArg (fun runtime => runtime.state.requestId) (old older)) ?_ ?_
      · intro id' r older found
        have found : (t.engine.active.insert id t.engine.created).get? id' = some r := found
        rw [Dict.get?_insert] at found
        split at found
        · cases found
          exact absurd older (Nat.lt_irrefl _)
        · exact found
      · intro r older waits
        have phase := congrArg (fun runtime => runtime.state.phase) (old older)
        exact phase ▸ waits
  | ensureScheduler | popFinished | clearPrefixCache | closeExecutor => exact .of_same rfl rfl fun _ => rfl
  | action _ action => exact action.onward

end Shared

end ServingPlatform
