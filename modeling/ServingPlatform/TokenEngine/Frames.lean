import ServingPlatform.TokenEngine.InvariantSteps

namespace ServingPlatform.Shared

variable {S : Type} {backend : InferenceBackend S} {setup : EngineSetup} {t t' t'' : Shared backend}

/-- A state in which the scheduler is at work. -/
structure Live (setup : EngineSetup) (t : Shared backend) : Prop where
  sound : t.Sound setup
  running : t.engine.schedulerTask = some .running

/-- Between the two states the scheduler has worked on sequences in `R` only.
The others are as before, and sequences may have joined. -/
structure Progress (setup : EngineSetup) (R : Ref → Prop) (t t' : Shared backend) : Prop where
  live : t'.Live setup
  created : t.engine.created ≤ t'.engine.created
  requestId : ∀ r, r < t.engine.created → t'.engine.requestId r = t.engine.requestId r
  kept : ∀ r, t.ActiveRef r → ¬ R r → t'.ActiveRef r ∧ t'.view r = t.view r
  joined : ∀ r, t'.ActiveRef r → t.ActiveRef r ∨ t.engine.created ≤ r ∧ (t'.view r).Fresh
  eosIds : ∀ eosIds, t.engine.eosIds = some eosIds → t'.engine.eosIds = some eosIds
  log : t.log <:+ t'.log

/-- Between the two states only other parties have run. -/
structure Rely (setup : EngineSetup) (t t' : Shared backend) : Prop
    extends Progress setup (fun _ => False) t t' where
  sameLog : t'.log = t.log
  sameEosIds : t'.engine.eosIds = t.engine.eosIds
  sameCache : t'.engine.prefixCache = t.engine.prefixCache
  sameBackend : (∃ r, t.ActiveRef r) → t'.backendState = t.backendState

theorem Progress.mono {R R' : Ref → Prop} (progress : Progress setup R t t') (wider : ∀ r, R r → R' r) :
    Progress setup R' t t' :=
  { progress with kept := fun r active outside => progress.kept r active fun inside => outside (wider r inside) }

theorem Progress.refl {R : Ref → Prop} (live : t.Live setup) : Progress setup R t t where
  live := live
  created := Nat.le_refl _
  requestId _ _ := rfl
  kept _ active _ := ⟨active, rfl⟩
  joined _ active := Or.inl active
  eosIds _ known := known
  log := List.suffix_refl _

theorem Progress.trans {R : Ref → Prop} (first : Progress setup R t t') (second : Progress setup R t' t'')
    (below : ∀ r, R r → r < t.engine.created) : Progress setup R t t'' where
  live := second.live
  created := Nat.le_trans first.created second.created
  requestId r older := (second.requestId r (Nat.lt_of_lt_of_le older first.created)).trans (first.requestId r older)
  kept r active outside := by
    have once := first.kept r active outside
    have twice := second.kept r once.1 outside
    exact ⟨twice.1, twice.2.trans once.2⟩
  joined r active := by
    rcases second.joined r active with before | ⟨newer, fresh⟩
    · rcases first.joined r before with initially | ⟨newer, fresh⟩
      · exact Or.inl initially
      · have same := (second.kept r before fun inside => absurd newer (Nat.not_le_of_lt (below r inside))).2
        exact Or.inr ⟨newer, same.symm ▸ fresh⟩
    · exact Or.inr ⟨Nat.le_trans first.created newer, fresh⟩
  eosIds eosIds known := second.eosIds eosIds (first.eosIds eosIds known)
  log := first.log.trans second.log

/-- What happens before the sequences in `R` are worked on, and after. -/
theorem Progress.after {R : Ref → Prop} (first : Progress setup (fun _ => False) t t')
    (second : Progress setup R t' t'') (below : ∀ r, R r → r < t.engine.created) : Progress setup R t t'' :=
  (first.mono fun _ never => never.elim).trans second below

theorem Progress.before {R : Ref → Prop} (first : Progress setup R t t')
    (second : Progress setup (fun _ => False) t' t'') (below : ∀ r, R r → r < t.engine.created) :
    Progress setup R t t'' :=
  first.trans (second.mono fun _ never => never.elim) below

theorem Rely.refl (live : t.Live setup) : Rely setup t t :=
  { Progress.refl live with
    sameLog := rfl
    sameEosIds := rfl
    sameCache := rfl
    sameBackend := fun _ => rfl }

theorem Rely.kept' (rely : Rely setup t t') {r : Ref} (active : t.ActiveRef r) :
    t'.ActiveRef r ∧ t'.view r = t.view r :=
  rely.kept r active fun never => never

theorem Rely.trans (first : Rely setup t t') (second : Rely setup t' t'') : Rely setup t t'' :=
  { first.toProgress.trans second.toProgress fun _ never => never.elim with
    sameLog := second.sameLog.trans first.sameLog
    sameEosIds := second.sameEosIds.trans first.sameEosIds
    sameCache := second.sameCache.trans first.sameCache
    sameBackend := fun ⟨r, active⟩ =>
      (second.sameBackend ⟨r, (first.kept' active).1⟩).trans (first.sameBackend ⟨r, active⟩) }

section Views

variable {e : Engine S} {r : Ref} {f : ScheduledSequence → ScheduledSequence}

theorem view_modified (named : (f (t.engine.sequences r)).state.requestId = t.engine.requestId r) :
    (t.withEngine (t.engine.modifySequence r f)).view r =
      { t.view r with sequence := (f (t.engine.sequences r)).vital } := by
  have here : (t.engine.modifySequence r f).sequences r = f (t.engine.sequences r) := Engine.modifySequence_self
  simp only [view, withEngine, recordsOf, Engine.requestId, here, named]
  rfl

theorem view_recorded {command : BackendCall S} {sequences : List Ref} {result : Except Raised command.Answer}
    {after : backend.State} (r : Ref) : (t.record command sequences result after).view r =
      if r ∈ sequences then { t.view r with records := ⟨command, sequences, result⟩ :: (t.view r).records }
      else t.view r := by
  by_cases member : r ∈ sequences <;>
    simp only [view, record, recordsOf, List.filter_cons, member, decide_true, decide_false, if_true, if_false,
      Bool.false_eq_true]

theorem same_views (sequences : ∀ r, (e.sequences r).vital = (t.engine.sequences r).vital)
    (owners : e.kvAllocator.owners = t.engine.kvAllocator.owners) (active : e.active = t.engine.active) (r : Ref) :
    ((t.withEngine e).ActiveRef r ↔ t.ActiveRef r) ∧ (t.withEngine e).view r = t.view r := by
  have sameId : e.requestId r = t.engine.requestId r := vital_requestId (sequences r)
  constructor
  · show e.active.get? (e.requestId r) = some r ↔ _
    rw [sameId, active]
    rfl
  · show RefView.mk (e.sequences r).vital (e.kvAllocator.owners.get? (e.requestId r)) _ = _
    rw [sequences, sameId, owners]
    rfl

/-- An engine that differs in nothing that is seen of its sequences. -/
theorem Rely.of_same (live : t.Live setup) (after : (t.withEngine e).Sound setup)
    (sequences : ∀ r, (e.sequences r).vital = (t.engine.sequences r).vital)
    (owners : e.kvAllocator.owners = t.engine.kvAllocator.owners) (active : e.active = t.engine.active)
    (created : e.created = t.engine.created) (eosIds : e.eosIds = t.engine.eosIds)
    (prefixCache : e.prefixCache = t.engine.prefixCache) (task : e.schedulerTask = t.engine.schedulerTask) :
    Rely setup t (t.withEngine e) := by
  have same := fun r => same_views sequences owners active r
  exact {
    live := ⟨after, task.trans live.running⟩
    created := Nat.le_of_eq created.symm
    requestId := fun r _ => vital_requestId (sequences r)
    kept := fun r isActive _ => ⟨(same r).1.mpr isActive, (same r).2⟩
    joined := fun r isActive => Or.inl ((same r).1.mp isActive)
    eosIds := fun _ known => eosIds.trans known
    log := List.suffix_refl _
    sameLog := rfl
    sameEosIds := eosIds
    sameCache := prefixCache
    sameBackend := fun _ => rfl }

theorem Rely.quiet (live : t.Live setup) (same : t.engine.Quiet e) : Rely setup t (t.withEngine e) :=
  .of_same live (live.sound.quiet same) same.sequences (congrArg KVBlockAllocator.owners same.kvAllocator) same.active
    same.created same.eosIds same.prefixCache same.schedulerTask

/-- A sequence joins: its identifier is new, so no other sequence sees it. -/
theorem Rely.admitted (live : t.Live setup) {id prompt : String} {sampling : SamplingParameters}
    {deadline createdAt : Seconds} {blocks : List BlockId} {kvAllocator : KVBlockAllocator} {n : Nat}
    (after : (t.withEngine (t.engine.admitSequence
      { requestId := id, prompt, sampling, deadline, createdAt, kvBlockIds := blocks } kvAllocator)).Sound setup)
    (inactive : t.engine.active.get? id = none)
    (grown : KVBlockAllocator.Grown t.engine.kvAllocator kvAllocator id [] n) :
    Rely setup t (t.withEngine (t.engine.admitSequence
      { requestId := id, prompt, sampling, deadline, createdAt, kvBlockIds := blocks } kvAllocator)) := by
  generalize made : ({ requestId := id, prompt, sampling, deadline, createdAt, kvBlockIds := blocks } :
    SequenceState) = state at after
  have named : state.requestId = id := by rw [← made]
  have old : ∀ {r : Ref}, r < t.engine.created →
      (t.engine.admitSequence state kvAllocator).sequences r = t.engine.sequences r :=
    fun below => if_neg (Nat.ne_of_lt below)
  have new : (t.engine.admitSequence state kvAllocator).sequences t.engine.created = { state } := if_pos rfl
  have other : ∀ r, t.ActiveRef r → t.engine.requestId r ≠ id := by
    intro r active same
    rw [ActiveRef, same, inactive] at active
    cases active
  exact {
    live := ⟨after, live.running⟩
    created := Nat.le_succ _
    requestId := fun r below => congrArg (fun runtime => runtime.state.requestId) (old below)
    kept := fun r active _ => by
      have below := live.sound.bound active
      constructor
      · show (t.engine.active.insert state.requestId t.engine.created).get?
          ((t.engine.admitSequence state kvAllocator).sequences r).state.requestId = some r
        rw [old below, named]
        exact (Dict.get?_insert_of_ne (other r active)).trans active
      · show RefView.mk ((t.engine.admitSequence state kvAllocator).sequences r).vital
          (kvAllocator.owners.get? ((t.engine.admitSequence state kvAllocator).sequences r).state.requestId) _ = _
        rw [old below, grown.owners]
        exact congrArg (RefView.mk _ · _) (Dict.get?_insert_of_ne (other r active))
    joined := fun r active => by
      rcases Nat.lt_or_ge r t.engine.created with older | newer
      · refine Or.inl ?_
        have found : (t.engine.active.insert state.requestId t.engine.created).get?
            ((t.engine.admitSequence state kvAllocator).sequences r).state.requestId = some r := active
        rw [old older, named, Dict.get?_insert] at found
        split at found
        · cases found
          exact absurd older (Nat.lt_irrefl _)
        · exact found
      · refine Or.inr ⟨newer, ?_⟩
        have last : r = t.engine.created := Nat.le_antisymm (Nat.le_of_lt_succ (after.bound active)) newer
        have records : t.recordsOf r = [] := by
          refine List.filter_eq_nil_iff.mpr fun c member => ?_
          simp only [decide_eq_true_eq]
          exact fun listed => absurd (live.sound.mentioned c member r listed) (Nat.not_lt_of_le newer)
        have sequence : (t.engine.admitSequence state kvAllocator).sequences r = { state } := last ▸ new
        have view : (t.withEngine (t.engine.admitSequence state kvAllocator)).view r =
            ⟨({ state } : ScheduledSequence).vital, kvAllocator.owners.get? id, []⟩ := by
          show RefView.mk ((t.engine.admitSequence state kvAllocator).sequences r).vital
            (kvAllocator.owners.get? ((t.engine.admitSequence state kvAllocator).sequences r).state.requestId)
            (t.recordsOf r) = _
          rw [sequence, records, named]
        rw [view, ← made]
        exact ⟨rfl, rfl, rfl, rfl, rfl, rfl, rfl⟩
    eosIds := fun _ known => known
    log := List.suffix_refl _
    sameLog := rfl
    sameEosIds := rfl
    sameCache := rfl
    sameBackend := fun _ => rfl }

/-- What clients do while the scheduler is suspended. -/
theorem ClientAction.rely (action : ClientAction t t') (live : t.Live setup) : Rely setup t t' := by
  have after := action.sound live.sound
  cases action with
  | quiet same => exact .quiet live same
  | @reserve id prompt sampling deadline count createdAt =>
    rcases t.engine.reserve_cases id prompt sampling deadline count createdAt with
      ⟨raised, kvAllocator, run, same⟩ | ⟨n, kvAllocator, blocks, -, inactive, -, -, grown, -, run⟩
    · rw [run] at after ⊢
      exact .of_same live after (fun _ => rfl) same.owners rfl rfl rfl rfl rfl
    · rw [run] at after ⊢
      exact .admitted live after inactive grown
  | ensureScheduler =>
    refine .of_same live after (fun _ => rfl) rfl rfl rfl rfl rfl ?_
    show some (t.engine.schedulerTask.getD .running) = _
    rw [live.running]
    rfl
  | popFinished => exact .of_same live after (fun _ => rfl) rfl rfl rfl rfl rfl rfl
  | clearPrefixCache idle => exact absurd live.running idle
  | closeExecutor => exact .of_same live after (fun _ => rfl) rfl rfl rfl rfl rfl rfl
  | action idle =>
    cases idle.symm.trans live.running

theorem ClientActions.rely (actions : Relation.ReflTransGen ClientAction t t') (live : t.Live setup) :
    Rely setup t t' := by
  induction actions with
  | refl => exact .refl live
  | tail _ action before => exact before.trans (action.rely before.live)

end Views

end ServingPlatform.Shared
