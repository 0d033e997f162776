import ServingPlatform.TokenEngine.Frames
import ServingPlatform.TokenEngine.ViewUpdates

namespace ServingPlatform.Shared

variable {S : Type} {backend : InferenceBackend S} {setup : EngineSetup} {t t' t'' : Shared backend}

/-- The rules the scheduler keeps: its updates are actions, its calls are
guarded, and other parties run before and after an answer. -/
def schedulerProtocol (backend : InferenceBackend S) (setup : EngineSetup) :
    Coro.Protocol (Shared backend) (EngineOp S) EngineOp.Answer Raised where
  update := Action
  call
    | .call command sequences, t => sequences ≠ [] ∧ t.CallGuard command sequences
    | .wakeWait, _ => True
    | _, _ => False
  answer op t result t' := ∃ t₁ t₂, Rely setup t t₁ ∧ Answers backend op t₁ result t₂ ∧ Rely setup t₂ t'

abbrev SchedulerSafe {α : Type} (setup : EngineSetup) (c : EngineM S α)
    (Q : Except Raised α → Shared backend → Prop) (t : Shared backend) : Prop :=
  Coro.Safe window (schedulerProtocol backend setup) c Q t

@[simp] theorem window_view (t : Shared backend) : (window : Coro.Window (Engine S) (Shared backend)).view t = t.engine := rfl

section Updates

variable {r : Ref} {f : ScheduledSequence → ScheduledSequence}

theorem view_congr (t : Shared backend) {e : Engine S} (sequences : e.sequences r = t.engine.sequences r)
    (owners : e.kvAllocator.owners.get? (t.engine.requestId r) =
      t.engine.kvAllocator.owners.get? (t.engine.requestId r)) : (t.withEngine e).view r = t.view r := by
  have sameId : e.requestId r = t.engine.requestId r := congrArg (fun runtime => runtime.state.requestId) sequences
  show RefView.mk (e.sequences r).vital (e.kvAllocator.owners.get? (e.requestId r)) _ = _
  rw [sameId, sequences, owners]
  rfl

/-- One sequence is updated and keeps its identifier. -/
theorem Progress.modified (live : t.Live setup)
    (after : (t.withEngine (t.engine.modifySequence r f)).Sound setup)
    (named : (f (t.engine.sequences r)).state.requestId = t.engine.requestId r) :
    Progress setup (· = r) t (t.withEngine (t.engine.modifySequence r f)) := by
  have sameId : ∀ r', (t.engine.modifySequence r f).requestId r' = t.engine.requestId r' :=
    Engine.modifySequence_congr (fun runtime => runtime.state.requestId) named
  have sameActive : ∀ r', (t.withEngine (t.engine.modifySequence r f)).ActiveRef r' ↔ t.ActiveRef r' := by
    intro r'
    show t.engine.active.get? ((t.engine.modifySequence r f).requestId r') = some r' ↔ _
    rw [sameId]
    rfl
  exact {
    live := ⟨after, live.running⟩
    created := Nat.le_refl _
    requestId := fun r' _ => sameId r'
    kept := fun r' active differ => ⟨(sameActive r').mpr active,
      view_congr t (Engine.modifySequence_of_ne differ) rfl⟩
    joined := fun r' active => Or.inl ((sameActive r').mp active)
    eosIds := fun _ known => known
    log := List.suffix_refl _ }

theorem modified_active (named : (f (t.engine.sequences r)).state.requestId = t.engine.requestId r)
    (active : t.ActiveRef r) : (t.withEngine (t.engine.modifySequence r f)).ActiveRef r :=
  (congrArg t.engine.active.get?
    (Engine.modifySequence_congr (fun runtime => runtime.state.requestId) named r)).trans active

/-- What the scheduler knows after an update of one sequence. -/
structure Updated (setup : EngineSetup) (t : Shared backend) (r : Ref) (f : ScheduledSequence → ScheduledSequence)
    (t' : Shared backend) : Prop where
  progress : Progress setup (· = r) t t'
  active : t'.ActiveRef r
  sequence : t'.engine.sequences r = f (t.engine.sequences r)
  view : t'.view r = { t.view r with sequence := (f (t.engine.sequences r)).vital }
  eosIds : t'.engine.eosIds = t.engine.eosIds
  log : t'.log = t.log

/-- The rule of updates of one sequence. -/
theorem safe_update {α : Type} {k : Unit → EngineM S α} {Q : Except Raised α → Shared backend → Prop}
    (live : t.Live setup) (active : t.ActiveRef r)
    (action : Action t (t.withEngine (t.engine.modifySequence r f)))
    (named : (f (t.engine.sequences r)).state.requestId = t.engine.requestId r)
    (next : ∀ t', Updated setup t r f t' → SchedulerSafe setup (k ()) Q t') :
    SchedulerSafe setup (Coro.modify (fun e => e.modifySequence r f) >>= k) Q t :=
  Coro.safe_modify.mpr ⟨action, next _ {
    progress := .modified live (action.sound live.sound) named
    active := modified_active named active
    sequence := Engine.modifySequence_self
    view := view_modified named
    eosIds := rfl
    log := rfl }⟩

/-- Only the cache or the known terminal tokens change. -/
theorem Progress.of_same {e : Engine S} (live : t.Live setup) (after : (t.withEngine e).Sound setup)
    (sequences : e.sequences = t.engine.sequences) (owners : e.kvAllocator = t.engine.kvAllocator)
    (active : e.active = t.engine.active) (created : e.created = t.engine.created)
    (eosIds : ∀ eosIds, t.engine.eosIds = some eosIds → e.eosIds = some eosIds)
    (task : e.schedulerTask = t.engine.schedulerTask) {R : Ref → Prop} : Progress setup R t (t.withEngine e) := by
  have sameActive : ∀ r, (t.withEngine e).ActiveRef r ↔ t.ActiveRef r := by
    intro r
    show e.active.get? (e.sequences r).state.requestId = some r ↔ _
    rw [sequences, active]
    rfl
  exact {
    live := ⟨after, task.trans live.running⟩
    created := Nat.le_of_eq created.symm
    requestId := fun r _ => by rw [show (t.withEngine e).engine.requestId r = _ from
      congrArg (fun runtime => runtime.state.requestId) (congrFun sequences r)]; rfl
    kept := fun r isActive _ => ⟨(sameActive r).mpr isActive, view_congr t (congrFun sequences r) (by rw [owners])⟩
    joined := fun r isActive => Or.inl ((sameActive r).mp isActive)
    eosIds := eosIds
    log := List.suffix_refl _ }

theorem Progress.retired (live : t.Live setup) (active : t.ActiveRef r)
    (released : (t.engine.sequences r).backendCreated = false) (event : ScheduledSequence → StreamEvent) :
    (t.engine.retire r event).1 = .ok () ∧ Progress setup (· = r) t (t.withEngine (t.engine.retire r event).2) ∧
      ¬ (t.withEngine (t.engine.retire r event).2).ActiveRef r := by
  have after := live.sound.retired active released event
  obtain ⟨table, owned⟩ := live.sound.owned active
  obtain ⟨kvAllocator, freed, run⟩ := Engine.retire_ok live.sound.kv owned event
  rw [run] at after ⊢
  generalize change : (fun runtime : ScheduledSequence =>
    { runtime with events := runtime.events ++ [event runtime], done := true }) = f at after
  have sameId : ∀ r', (t.engine.modifySequence r f).requestId r' = t.engine.requestId r' :=
    Engine.modifySequence_congr (fun runtime => runtime.state.requestId) (by rw [← change])
  have other : ∀ r', t.ActiveRef r' → r' ≠ r → t.engine.requestId r' ≠ t.engine.requestId r := by
    intro r' active' differ same
    rw [ActiveRef, same] at active'
    exact differ (Option.some.inj (active'.symm.trans active))
  refine ⟨rfl, ?_, ?_⟩
  · exact {
      live := ⟨after, live.running⟩
      created := Nat.le_refl _
      requestId := fun r' _ => sameId r'
      kept := fun r' active' differ => by
        constructor
        · show (t.engine.active.erase (t.engine.requestId r)).get? ((t.engine.modifySequence r f).requestId r') = some r'
          rw [sameId, Dict.get?_erase_of_ne (other r' active' differ)]
          exact active'
        · refine view_congr t (Engine.modifySequence_of_ne differ) ?_
          show kvAllocator.owners.get? _ = _
          rw [freed.owners, Dict.get?_erase_of_ne (other r' active' differ)]
      joined := fun r' active' => by
        refine Or.inl ?_
        have found : (t.engine.active.erase (t.engine.requestId r)).get?
          ((t.engine.modifySequence r f).requestId r') = some r' := active'
        rw [sameId, Dict.get?_erase] at found
        split at found
        · cases found
        · exact found
      eosIds := fun _ known => known
      log := List.suffix_refl _ }
  · intro still
    have found : (t.engine.active.erase (t.engine.requestId r)).get?
      ((t.engine.modifySequence r f).requestId r) = some r := still
    rw [sameId, Dict.get?_erase_self] at found
    cases found

theorem Progress.noteResize (live : t.Live setup) (active : t.ActiveRef r)
    {outcome : Except Raised (List BlockId) × KVBlockAllocator}
    (after : (t.withEngine (t.engine.noteResize r outcome).2).Sound setup)
    (others : ∀ id, id ≠ t.engine.requestId r → outcome.2.owners.get? id = t.engine.kvAllocator.owners.get? id) :
    Progress setup (· = r) t (t.withEngine (t.engine.noteResize r outcome).2) ∧
      (t.withEngine (t.engine.noteResize r outcome).2).ActiveRef r ∧
      (t.withEngine (t.engine.noteResize r outcome).2).view r =
        { t.view r with table := outcome.2.owners.get? (t.engine.requestId r) } := by
  obtain ⟨kvAllocator, sequences, sameActive, created, eosIds, task⟩ := t.engine.noteResize_frame r outcome
  have sameId : ∀ r', (t.engine.noteResize r outcome).2.requestId r' = t.engine.requestId r' :=
    fun r' => vital_requestId (sequences r')
  have isActive : ∀ r', (t.withEngine (t.engine.noteResize r outcome).2).ActiveRef r' ↔ t.ActiveRef r' := by
    intro r'
    show (t.engine.noteResize r outcome).2.active.get? ((t.engine.noteResize r outcome).2.requestId r') = some r' ↔ _
    rw [sameActive, sameId]
    rfl
  have view : ∀ r', (t.withEngine (t.engine.noteResize r outcome).2).view r' =
      { t.view r' with table := outcome.2.owners.get? (t.engine.requestId r') } := by
    intro r'
    show RefView.mk ((t.engine.noteResize r outcome).2.sequences r').vital
      ((t.engine.noteResize r outcome).2.kvAllocator.owners.get? ((t.engine.noteResize r outcome).2.requestId r')) _ = _
    rw [sequences, sameId, kvAllocator]
    rfl
  refine ⟨?_, (isActive r).mpr active, view r⟩
  exact {
    live := ⟨after, task.trans live.running⟩
    created := Nat.le_of_eq created.symm
    requestId := fun r' _ => sameId r'
    kept := fun r' active' differ => by
      refine ⟨(isActive r').mpr active', (view r').trans ?_⟩
      rw [others _ fun same => differ (Option.some.inj
        ((same ▸ show t.engine.active.get? (t.engine.requestId r') = some r' from active').symm.trans active))]
      rfl
    joined := fun r' active' => Or.inl ((isActive r').mp active')
    eosIds := fun _ known => eosIds.trans known
    log := List.suffix_refl _ }

/-- A resized sequence has the blocks for its prompt, unless the resize raised. -/
theorem Progress.resized (live : t.Live setup) (active : t.ActiveRef r) (prompt : TokenizedPrompt) :
    Progress setup (· = r) t (t.withEngine (t.engine.resizeReservation r prompt).2) ∧
      (t.withEngine (t.engine.resizeReservation r prompt).2).ActiveRef r ∧
      ∃ table, (t.withEngine (t.engine.resizeReservation r prompt).2).view r = { t.view r with table } ∧
        ((t.engine.resizeReservation r prompt).1 = .ok () → ∃ blocks, table = some blocks ∧
          t.engine.kvAllocator.blocksForTokens (t.engine.totalTokens r prompt) = .ok blocks.length) := by
  have owners := KVBlockAllocator.resize_owners live.sound.kv (t.engine.requestId r) (t.engine.totalTokens r prompt)
  obtain ⟨progress, stillActive, view⟩ := Progress.noteResize live active (live.sound.resized r prompt) owners.2.2.1
  refine ⟨progress, stillActive, _, view, fun ok => ?_⟩
  obtain ⟨blocks, ran⟩ := Engine.noteResize_ok ok
  exact ⟨blocks, KVBlockAllocator.resize_ok live.sound.kv ran⟩

end Updates

end ServingPlatform.Shared

namespace ServingPlatform.Shared

variable {S : Type} {backend : InferenceBackend S} {setup : EngineSetup} {t t' t'' : Shared backend}


/-- What the scheduler has established for a call still holds when others have run. -/
theorem CallGuard.rely {command : BackendCall S} {sequences : List Ref} (guard : t.CallGuard command sequences)
    (live : t.Live setup) (rely : Rely setup t t') : t'.CallGuard command sequences := by
  have config : t'.engine.config = t.engine.config := rely.live.sound.config.trans live.sound.config.symm
  have dimensions : t'.engine.kvAllocator.dimensions = t.engine.kvAllocator.dimensions :=
    rely.live.sound.dimensions.trans live.sound.dimensions.symm
  have sameId : ∀ {r : Ref}, t.ActiveRef r → t'.engine.requestId r = t.engine.requestId r :=
    fun active => rely.requestId _ (live.sound.bound active)
  have prefillGuard : ∀ {sequences : List Ref} {requests : List PrefillRequest},
      t.PrefillGuard sequences requests → t'.PrefillGuard sequences requests := by
    intro sequences requests guard
    refine ⟨guard.1, config.symm ▸ guard.2.1, guard.2.2.imp fun r request held => ?_⟩
    refine ⟨(rely.kept' held.1).1, ?_, held.2.2.trans (sameId held.1).symm⟩
    rw [config, dimensions, (rely.kept' held.1).2]
    exact held.2.1
  have decodeGuard : ∀ {sequences : List Ref} {requests : List DecodeRequest},
      t.DecodeGuard sequences requests → t'.DecodeGuard sequences requests := by
    intro sequences requests guard
    obtain ⟨nodup, ⟨length, equal⟩, all⟩ := guard
    have active : ∀ r ∈ sequences, t.ActiveRef r :=
      CallGuard.active (.decodeBatch ⟨nodup, ⟨length, equal⟩, all⟩)
    refine ⟨nodup, ⟨length, fun r listed => ?_⟩, all.imp fun r request held => ?_⟩
    · rw [(rely.kept' (active r listed)).2]
      exact equal r listed
    rw [dimensions, (rely.kept' held.1).2, sameId held.1]
    exact ⟨(rely.kept' held.1).1, held.2⟩
  have stillPrefilling : ∀ {r : Ref} {prompt : TokenizedPrompt}, t.ActiveRef r →
      (t.view r).Prefilling t.engine.config t.engine.kvAllocator.dimensions prompt →
      (t'.view r).Prefilling t'.engine.config t'.engine.kvAllocator.dimensions prompt := by
    intro r prompt active prefilling
    rw [config, dimensions, (rely.kept' active).2]
    exact prefilling
  cases guard with
  | tokenize active fresh => exact .tokenize (rely.kept' active).1 ((rely.kept' active).2.symm ▸ fresh)
  | prefillBatch guard => exact .prefillBatch (prefillGuard guard)
  | prefillFallback guard => exact .prefillFallback (prefillGuard guard)
  | prefillChunk active prefilling bounded piece last =>
    rw [← sameId active]
    rw [← (rely.kept' active).2] at piece last
    exact .prefillChunk (rely.kept' active).1 (stillPrefilling active prefilling) (config.symm ▸ bounded) piece last
  | restorePrefix active prefilling cached =>
    rw [← sameId active]
    exact .restorePrefix (rely.kept' active).1 (stillPrefilling active prefilling) (rely.sameCache.symm ▸ cached)
  | resumePrefix active prefilling cached split longest =>
    rw [← sameId active]
    exact .resumePrefix (rely.kept' active).1 (stillPrefilling active prefilling) (rely.sameCache.symm ▸ cached) split
      (rely.sameCache.symm ▸ longest)
  | snapshotPrefix active pending first =>
    rw [← sameId active]
    rw [← dimensions, ← (rely.kept' active).2] at pending
    exact .snapshotPrefix (rely.kept' active).1 pending ((rely.kept' active).2.symm ▸ first)
  | decodeBatch guard => exact .decodeBatch (decodeGuard guard)
  | decodeFallback guard => exact .decodeFallback (decodeGuard guard)
  | eosTokenIds active => exact .eosTokenIds fun r listed => (rely.kept' (active r listed)).1
  | releaseSequence active phase =>
    rw [← sameId active]
    exact .releaseSequence (rely.kept' active).1 ((rely.kept' active).2.symm ▸ phase)

/-- What the scheduler knows when a call of its has been answered. -/
structure Called (setup : EngineSetup) (t : Shared backend) (command : BackendCall S) (sequences : List Ref)
    (result : Except Raised command.Answer) (t' : Shared backend) : Prop where
  progress : Progress setup (· ∈ sequences) t t'
  views : ∀ r ∈ sequences, t'.ActiveRef r ∧ t'.view r = (t.view r).recorded ⟨command, sequences, result⟩
  log : t'.log = ⟨command, sequences, result⟩ :: t.log
  eosIds : t'.engine.eosIds = t.engine.eosIds
  run : ∃ before, backend.Runs command before result t'.backendState

theorem Progress.recorded (live : t.Live setup) {command : BackendCall S} {sequences : List Ref}
    {result : Except Raised command.Answer} {after : backend.State} (guard : t.CallGuard command sequences)
    (run : backend.Runs command t.backendState result after) :
    Progress setup (· ∈ sequences) t (t.record command sequences result after) where
  live := ⟨live.sound.record guard run, live.running⟩
  created := Nat.le_refl _
  requestId _ _ := rfl
  kept r active outside := ⟨active, (view_recorded r).trans (if_neg outside)⟩
  joined _ active := Or.inl active
  eosIds _ known := known
  log := List.suffix_cons _ _

theorem Called.of_answers {command : BackendCall S} {sequences : List Ref} {result : Except Raised command.Answer}
    {t₁ t₂ : Shared backend} (live : t.Live setup) (some : sequences ≠ []) (guard : t.CallGuard command sequences)
    (first : Rely setup t t₁) (answers : Answers backend (.call command sequences) t₁ result t₂)
    (second : Rely setup t₂ t') : Called setup t command sequences result t' := by
  have later := guard.rely live first
  have below : ∀ r, r ∈ sequences → r < t.engine.created := fun r listed => live.sound.bound (guard.active r listed)
  cases answers with
  | refused closed =>
    obtain ⟨r, listed⟩ := List.exists_mem_of_ne_nil sequences some
    exact absurd (later.active r listed) ((first.live.sound.executor closed).2 r)
  | @call _ _ _ _ after _ run =>
    have step := Progress.recorded first.live later run
    have active : ∀ r ∈ sequences, (t₁.record command sequences result after).ActiveRef r := fun r listed =>
      later.active r listed
    exact {
      progress := (first.toProgress.after step below).before second.toProgress below
      views := fun r listed => by
        refine ⟨(second.kept' (active r listed)).1, ?_⟩
        rw [(second.kept' (active r listed)).2, view_recorded, if_pos listed,
          (first.kept' (guard.active r listed)).2]
        rfl
      log := second.sameLog.trans (congrArg _ first.sameLog)
      eosIds := second.sameEosIds.trans first.sameEosIds
      run := by
        obtain ⟨r, listed⟩ := List.exists_mem_of_ne_nil sequences some
        rw [second.sameBackend ⟨r, active r listed⟩]
        exact ⟨_, run⟩ }

/-- The rule of calls. -/
theorem safe_call {command : BackendCall S} {sequences : List Ref} {Q : Except Raised command.Answer → Shared backend → Prop}
    (live : t.Live setup) (some : sequences ≠ []) (guard : t.CallGuard command sequences)
    (next : ∀ result t', Called setup t command sequences result t' → Q result t') :
    SchedulerSafe setup (Coro.request (EngineOp.call command sequences)) Q t :=
  Coro.safe_request.mpr ⟨⟨some, guard⟩, fun result t' ⟨_, _, first, answers, second⟩ =>
    next result t' (.of_answers live some guard first answers second)⟩

end ServingPlatform.Shared
