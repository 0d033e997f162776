import ServingPlatform.TokenEngine.Contents

namespace ServingPlatform

variable {S : Type} {backend : InferenceBackend S} {setup : EngineSetup}

/-- A method that brings a sequence in from a snapshot. -/
def BackendMethod.reusesPrefix : BackendMethod S → Bool
  | .restorePrefix .. | .resumePrefix .. => true
  | _ => false

namespace Shared

variable {t t' : Shared backend} {r : Ref}

section Updates

variable {tells : backend.KeepsTokens} {e : Engine S}

/-- Between the two states no call was made, and the sequence was tokenized at most. -/
structure Retold (t t' : Shared backend) (r : Ref) : Prop where
  requestId : t'.engine.requestId r = t.engine.requestId r
  tokenized : (t'.engine.sequences r).tokenized = (t.engine.sequences r).tokenized ∨ (t.engine.sequences r).tokenized = none
  live : (t'.view r).phase.isTerminal = false → (t.view r).phase.isTerminal = false

theorem records_of_log (log : t'.log = t.log) : t'.recordsOf r = t.recordsOf r := by
  rw [recordsOf, recordsOf, log]

theorem Retold.held {holding : Holding} (retold : Retold t t' r) (log : t'.log = t.log)
    (held : (t.view r).Held holding) : (t'.view r).Held holding := by
  have records : (t'.view r).records = (t.view r).records := records_of_log log
  have answered : (t'.view r).answered = (t.view r).answered := by
    show answeredTokens (t'.engine.requestId r) (t'.view r).records = _
    rw [retold.requestId, records]
    rfl
  have submitted : (t'.view r).submitted = (t.view r).submitted := congrArg submittedTokens records
  rcases retold.tokenized with same | new
  · have prompt : (t'.view r).prompt = (t.view r).prompt := congrArg (Option.elim · [] TokenizedPrompt.tokenIds) same
    refine ⟨fun none => ?_, fun none => ?_, fun none => ?_, fun earlier token => ?_⟩
    · rw [answered, submitted]
      exact held.untokenized (same.symm.trans none)
    · rw [submitted]
      rw [answered] at none
      exact held.absent none
    · rw [submitted, prompt]
      rw [answered] at none
      exact held.begun none
    · rw [answered, prompt]
      exact held.whole earlier token
  · obtain ⟨none, zero⟩ := held.untokenized new
    refine ⟨fun _ => ⟨answered.trans none, submitted.trans zero⟩, fun _ _ => held.absent none zero, fun _ some => ?_,
      fun earlier token same => ?_⟩
    · rw [submitted, zero] at some
      exact absurd some (Nat.lt_irrefl 0)
    · rw [answered, none] at same
      exact absurd same.symm (List.concat_ne_nil _ _)

theorem Retold.faultless (retold : Retold t t' r) (log : t'.log = t.log) (active : t'.ActiveRef r → t.ActiveRef r)
    (faultless : t'.Faultless r) : t.Faultless r := by
  refine ⟨active faultless.active, retold.live faultless.live, fun c member => ?_⟩
  have records : (t'.view r).records = (t.view r).records := records_of_log log
  rw [← records] at member
  have harmless : c.errorFor (t'.engine.requestId r) = none := faultless.clean c member
  rw [retold.requestId] at harmless
  exact harmless

theorem Retold.of_vital (same : (e.sequences r).vital = (t.engine.sequences r).vital) :
    Retold t (t.withEngine e) r where
  requestId := vital_requestId same
  tokenized := Or.inl (congrArg (fun runtime => runtime.tokenized) same)
  live live := (congrArg SequencePhase.isTerminal (vital_phase same)).symm.trans live

theorem Retold.modified {r' : Ref} {f : ScheduledSequence → ScheduledSequence}
    (named : (f (t.engine.sequences r')).state.requestId = (t.engine.sequences r').state.requestId)
    (tokenized : (f (t.engine.sequences r')).tokenized = (t.engine.sequences r').tokenized ∨
      (t.engine.sequences r').tokenized = none)
    (live : (f (t.engine.sequences r')).state.phase.isTerminal = false →
      (t.engine.sequences r').state.phase.isTerminal = false) :
    Retold t (t.withEngine (t.engine.modifySequence r' f)) r := by
  rcases Engine.modifySequence_cases (e := t.engine) (r := r') r f with ⟨rfl, here⟩ | ⟨-, elsewhere⟩
  · refine ⟨?_, ?_, fun was => ?_⟩
    · exact (congrArg (fun runtime => runtime.state.requestId) here).trans named
    · rw [show ((t.withEngine (t.engine.modifySequence r f)).engine.sequences r) = _ from here]
      exact tokenized
    · refine live ?_
      rw [← here]
      exact was
  · exact .of_vital (congrArg ScheduledSequence.vital elsewhere)

theorem Retold.noteResize (r' : Ref) (outcome : Except Raised (List BlockId) × KVBlockAllocator) :
    Retold t (t.withEngine (t.engine.noteResize r' outcome).2) r := by
  obtain ⟨-, sequences, -⟩ := t.engine.noteResize_frame r' outcome
  exact .of_vital (sequences r)

theorem MayClose.terminal {phase : SequencePhase} (may : t.MayClose r phase) : phase.isTerminal = true := by
  rcases may with rfl | ⟨-, ⟨rfl, -⟩ | ⟨rfl | rfl, -⟩⟩ <;> rfl

theorem Action.retold (action : Action t t') (sound : t.Sound setup) : Retold t t' r := by
  cases action with
  | quiet same => exact .of_vital (same.sequences r)
  | tokenized _ phase new => exact .modified rfl (Or.inr new) id
  | resized => exact .noteResize _ _
  | beginPrefill _ _ phase =>
    refine .modified rfl (Or.inl rfl) fun _ => ?_
    rcases phase with queued | prefill
    · exact congrArg SequencePhase.isTerminal queued
    · exact congrArg SequencePhase.isTerminal prefill
  | lookup | eosKnown | stored => exact .of_vital rfl
  | advanced | released | cached => exact .modified rfl (Or.inl rfl) id
  | closing _ may =>
    refine .modified rfl (Or.inl rfl) fun live => ?_
    cases live.symm.trans may.terminal
  | emitted _ pending =>
    refine .modified rfl (Or.inl rfl) fun _ => ?_
    rcases pending.phase with ⟨phase, -⟩ | ⟨phase, -⟩
    · exact congrArg SequencePhase.isTerminal phase
    · exact congrArg SequencePhase.isTerminal phase
  | @retired r' event active =>
    obtain ⟨table, owned⟩ := sound.owned active
    obtain ⟨sequences, -⟩ := Engine.retire_sequences sound.kv owned event
    have moved : Retold t (t.withEngine (t.engine.modifySequence r' fun runtime =>
        { runtime with events := runtime.events ++ [event runtime], done := true })) r := .modified rfl (Or.inl rfl) id
    have same := congrFun sequences r
    refine ⟨?_, ?_, fun live => moved.live ?_⟩
    · exact (congrArg (fun runtime => runtime.state.requestId) same).trans moved.requestId
    · rw [show (t.withEngine (t.engine.retire r' event).2).engine.sequences r = _ from same]
      exact moved.tokenized
    · exact (congrArg (fun runtime => runtime.state.phase.isTerminal) same).symm.trans live

theorem prefixCache_noteResize (e : Engine S) (r : Ref) (outcome : Except Raised (List BlockId) × KVBlockAllocator) :
    (e.noteResize r outcome).2.prefixCache = e.prefixCache := by
  rcases e.noteResize_cases r outcome with ⟨raised, -, run⟩ | ⟨blocks, -, run⟩
  · rw [run]
  · rw [run]
    rfl

theorem prefixCache_resizeReservation (e : Engine S) (r : Ref) (prompt : TokenizedPrompt) :
    (e.resizeReservation r prompt).2.prefixCache = e.prefixCache :=
  prefixCache_noteResize e r _

theorem prefixCache_retire (e : Engine S) (r : Ref) (event : ScheduledSequence → StreamEvent) :
    (e.retire r event).2.prefixCache = e.prefixCache := by
  unfold Engine.retire
  split
  · rfl
  · rfl

theorem withEngine_prefixCache (e : Engine S) : (t.withEngine e).engine.prefixCache = e.prefixCache := rfl

theorem withEngine_backendState (e : Engine S) : (t.withEngine e).backendState = t.backendState := rfl

theorem Action.backendState (action : Action t t') : t'.backendState = t.backendState := by
  cases action <;> exact withEngine_backendState _

theorem ClientAction.backendState (action : ClientAction t t') : t'.backendState = t.backendState := by
  cases action with
  | action _ action => exact action.backendState
  | _ => exact withEngine_backendState _

/-- What is cached after an update was cached before, or is the last snapshot. -/
theorem Action.cachedFrom (action : Action t t') {key : List TokenId} {entry : PrefixCacheEntry S}
    (found : t'.engine.prefixCache.entries.get? key = some entry) :
    t.engine.prefixCache.entries.get? key = some entry ∨ ∃ r prompt, (t.engine.sequences r).tokenized = some prompt ∧
      key = prompt.tokenIds ∧
      ⟨.direct (.snapshotPrefix (t.engine.requestId r)), [r], .ok entry.backendState⟩ ∈ t.log := by
  cases action with
  | quiet same => exact Or.inl (same.prefixCache ▸ found)
  | tokenized | beginPrefill | advanced | eosKnown | closing | released | cached | emitted => exact Or.inl found
  | @resized r prompt =>
    rw [withEngine_prefixCache, prefixCache_resizeReservation] at found
    exact Or.inl found
  | lookup => exact Or.inl ((PrefixCache.longestPrefix_get? _ _ _).symm.trans found)
  | @stored r prompt snapshot rest _ prompted last =>
    rcases PrefixCache.put_get? found with before | ⟨rfl, rfl⟩
    · exact Or.inl before
    · refine Or.inr ⟨r, prompt, prompted, rfl, ?_⟩
      rw [last]
      exact List.mem_cons_self ..
  | @retired r event =>
    rw [withEngine_prefixCache, prefixCache_retire] at found
    exact Or.inl found

theorem Step.cachedFrom (step : Step t t') {key : List TokenId} {entry : PrefixCacheEntry S}
    (found : t'.engine.prefixCache.entries.get? key = some entry) :
    t.engine.prefixCache.entries.get? key = some entry ∨ ∃ r prompt, (t.engine.sequences r).tokenized = some prompt ∧
      key = prompt.tokenIds ∧
      ⟨.direct (.snapshotPrefix (t.engine.requestId r)), [r], .ok entry.backendState⟩ ∈ t.log := by
  cases step with
  | scheduler action => exact action.cachedFrom found
  | decided | call | stop | schedulerReturned | schedulerRaised => exact Or.inl found
  | client action =>
    cases action with
    | quiet same => exact Or.inl (same.prefixCache ▸ found)
    | @reserve id prompt sampling deadline count createdAt =>
      refine Or.inl ?_
      rcases t.engine.reserve_cases id prompt sampling deadline count createdAt with
        ⟨raised, kvAllocator, run, -⟩ | ⟨n, kvAllocator, blocks, -, -, -, -, -, -, run⟩
      · rw [run] at found
        exact found
      · rw [run] at found
        exact found
    | ensureScheduler | popFinished | closeExecutor => exact Or.inl found
    | clearPrefixCache => cases found
    | action _ action => exact action.cachedFrom found

theorem Step.retold (step : Step t t') (sound : t.Sound setup) (older : r < t.engine.created) : Retold t t' r := by
  cases step with
  | scheduler action => exact action.retold sound
  | decided | schedulerReturned | schedulerRaised => exact .of_vital rfl
  | call | stop => exact ⟨rfl, Or.inl rfl, id⟩
  | client action =>
    cases action with
    | quiet same => exact .of_vital (same.sequences r)
    | @reserve id prompt sampling deadline count createdAt =>
      refine .of_vital (congrArg ScheduledSequence.vital ?_)
      rcases t.engine.reserve_cases id prompt sampling deadline count createdAt with
        ⟨raised, kvAllocator, run, -⟩ | ⟨n, kvAllocator, blocks, -, -, -, -, -, -, run⟩
      · rw [run]
      · rw [run]
        exact if_neg (Nat.ne_of_lt older)
    | ensureScheduler | popFinished | clearPrefixCache | closeExecutor => exact .of_vital rfl
    | action _ action => exact action.retold sound

/-- What is active after a step was active before, unless it is new. -/
theorem Step.activeRef (step : Step t t') (sound : t.Sound setup) (older : r < t.engine.created)
    (active : t'.ActiveRef r) : t.ActiveRef r := by
  by_contra inactive
  have isOver : (t.engine.sequences r).done = true :=
    eq_true_of_ne_false fun live => inactive ((sound.live r older).mp live)
  have after := step.sound sound
  have live := (after.live r (after.bound active)).mpr active
  cases step.stream sound older with
  | same same => cases (live.symm.trans (congrArg SequenceStory.done same.story)).trans isOver
  | emits active' => exact inactive active'
  | ends active' => exact inactive active'

/-- A step that makes no call keeps track of all sequences. -/
theorem Step.tracked_of_log (step : Step t t') (sound : t.Sound setup) (tracked : t.Tracked tells) (log : t'.log = t.log)
    (backendState : t'.backendState = t.backendState) : t'.Tracked tells where
  held r faultless := by
    have after := step.sound sound
    rcases step.joined (after.bound faultless.active) with older | ⟨-, new, state, -, made⟩
    · have retold := step.retold sound older
      rw [backendState, retold.requestId]
      exact retold.held log (tracked.held r (retold.faultless log (step.activeRef sound older) faultless))
    · have records : t'.recordsOf r = [] := by
        refine List.filter_eq_nil_iff.mpr fun c member listed => ?_
        rw [log] at member
        exact absurd (sound.mentioned c member r (of_decide_eq_true listed)) (Nat.not_lt_of_le new)
      have answered : (t'.view r).answered = [] := congrArg (answeredTokens _) records
      have submitted : (t'.view r).submitted = 0 := congrArg submittedTokens records
      refine ⟨fun _ => ⟨answered, submitted⟩, fun _ _ => tells.unheld fun heldId => ?_, fun _ some => ?_, fun earlier token same => ?_⟩
      · have flag := after.created heldId faultless.active
        rw [made] at flag
        cases flag
      · rw [submitted] at some
        exact absurd some (Nat.lt_irrefl 0)
      · rw [answered] at same
        exact absurd same.symm (List.concat_ne_nil _ _)
  cached key entry found := by
    rcases step.cachedFrom found with before | ⟨r, prompt, prompted, rfl, logged⟩
    · exact tracked.cached key entry before
    · obtain ⟨prompt', prompted', keeps⟩ := tracked.snapshots _ r _ logged
      cases prompted.symm.trans prompted'
      exact keeps
  snapshots id r snapshot logged := by
    rw [log] at logged
    obtain ⟨prompt, prompted, keeps⟩ := tracked.snapshots id r snapshot logged
    have older := sound.mentioned _ logged r (List.mem_singleton_self _)
    refine ⟨prompt, ?_, keeps⟩
    rcases (step.retold sound older).tokenized with same | none
    · exact same.trans prompted
    · cases none.symm.trans prompted

/-- Every step keeps track of the tokens of all sequences. -/
theorem Step.tracked (step : Step t t') (sound : t.Sound setup) (tracked : t.Tracked tells) : t'.Tracked tells := by
  cases step with
  | scheduler action => exact (Step.scheduler action).tracked_of_log sound tracked action.log action.backendState
  | decided => exact Step.decided.tracked_of_log sound tracked rfl rfl
  | client action => exact (Step.client action).tracked_of_log sound tracked action.log action.backendState
  | call guard run => exact tracked.record guard run
  | stop _ none => exact ⟨fun r faultless => absurd faultless.active (none r), tracked.cached, tracked.snapshots⟩
  | schedulerReturned closed none => exact (Step.schedulerReturned closed none).tracked_of_log sound tracked rfl rfl
  | schedulerRaised task => exact (Step.schedulerRaised task).tracked_of_log sound tracked rfl rfl

theorem Reach.tracked (reach : Reach setup t) : t.Tracked tells := by
  induction reach with
  | refl =>
    refine ⟨fun r faultless => ?_, fun key entry found => ?_, fun id r snapshot none => by cases none⟩
    · cases faultless.active
    · cases found
  | tail earlier step before => exact step.tracked (Reach.sound earlier) before

theorem Tracked.absent_iff (tracked : t.Tracked tells)
    (active : t.ActiveRef r) {config : EngineConfig} {dimensions : KvDimensions} {prompt : TokenizedPrompt}
    (prefilling : (t.view r).Prefilling config dimensions prompt) :
    tells.holds t.backendState (t.engine.requestId r) = .absent ↔ (t.engine.sequences r).prefillOffset = 0 := by
  have live : (t.view r).phase.isTerminal = false := by
    rw [prefilling.phase]
    rfl
  have held := tracked.held r ⟨active, live, prefilling.clean⟩
  have count : (t.view r).submitted = (t.engine.sequences r).prefillOffset := prefilling.submitted
  refine ⟨fun absent => ?_, fun zero => held.absent prefilling.answered (count.trans zero)⟩
  by_contra some
  obtain ⟨next, holds⟩ := held.begun prefilling.answered (count ▸ Nat.pos_of_ne_zero some)
  cases absent.symm.trans holds

end Updates

end Shared

namespace Configuration

variable {c : Configuration backend} {r : Ref}

/-- Between two turns of the scheduler the backend holds, for every active
sequence, the part of the prompt that was submitted, or the prompt and what was
generated, the last token of it as the next input. Cached snapshots keep their keys. -/
theorem contents_follow_tokens (tells : backend.KeepsTokens) (reachable : c.Reachable backend setup)
    (between : c.scheduler = .between) (active : c.shared.ActiveRef r) :
    (∀ key entry, c.shared.engine.prefixCache.entries.get? key = some entry →
      tells.kept entry.backendState = some key) ∧
    ((c.shared.engine.sequences r).state.generatedTokenIds = [] → (c.shared.engine.sequences r).prefillOffset = 0 →
      tells.holds c.shared.backendState (c.shared.engine.requestId r) = .absent) ∧
    ((c.shared.engine.sequences r).state.generatedTokenIds = [] → 0 < (c.shared.engine.sequences r).prefillOffset →
      ∃ next, tells.holds c.shared.backendState (c.shared.engine.requestId r) =
        .intact ⟨(c.shared.engine.sequences r).state.promptTokenIds.take (c.shared.engine.sequences r).prefillOffset, next⟩) ∧
    ∀ earlier last, (c.shared.engine.sequences r).state.generatedTokenIds = earlier ++ [last] →
      tells.holds c.shared.backendState (c.shared.engine.requestId r) =
        .intact ⟨(c.shared.engine.sequences r).state.promptTokenIds ++ earlier, last⟩ := by
  obtain ⟨decisions, safe⟩ := reachable.safe
  have tracked : c.shared.Tracked tells := safe.reach.tracked
  have settled := safe.settled between active
  have held := tracked.held r ⟨active, settled.phase, settled.clean⟩
  refine ⟨tracked.cached, ?_⟩
  rcases settled with fresh | ⟨prompt, prefilling⟩ | decoding
  · have unanswered : (c.shared.view r).answered = [] := congrArg (answeredTokens _) fresh.records
    have none : (c.shared.view r).submitted = 0 := congrArg submittedTokens fresh.records
    refine ⟨fun _ _ => held.absent unanswered none, fun _ some => ?_, fun earlier last generated => ?_⟩
    · exact absurd fresh.prefillOffset some.ne'
    · exact absurd (fresh.generated.symm.trans generated).symm (List.concat_ne_nil _ _)
  · have ids : (c.shared.view r).prompt = (c.shared.engine.sequences r).state.promptTokenIds := by
      rw [RefView.prompt, prefilling.tokenized]
      exact prefilling.promptTokenIds.symm
    refine ⟨fun _ zero => held.absent prefilling.answered (prefilling.submitted.trans zero), fun _ some => ?_,
      fun earlier last generated => ?_⟩
    · obtain ⟨next, holds⟩ := held.begun prefilling.answered (prefilling.submitted.symm ▸ some)
      rw [ids, prefilling.submitted] at holds
      exact ⟨next, holds⟩
    · exact absurd (prefilling.generated.symm.trans generated).symm (List.concat_ne_nil _ _)
  · obtain ⟨prompt, prompted, promptIds, -⟩ := decoding.prompted
    obtain ⟨before, token, answers⟩ := decoding.answers
    have generated : before.map GeneratedToken.tokenId ++ [token.tokenId] = (c.shared.view r).generated := by
      rw [← decoding.accepted, answers, List.map_append]
      rfl
    have some : (c.shared.view r).generated ≠ [] := generated ▸ List.concat_ne_nil _ _
    refine ⟨fun none => absurd none some, fun none => absurd none some, fun earlier last same => ?_⟩
    obtain ⟨rfl, one⟩ := List.append_inj' (generated.trans same) rfl
    rw [← List.singleton_inj.mp one]
    have ids : (c.shared.view r).prompt = (c.shared.engine.sequences r).state.promptTokenIds := by
      rw [RefView.prompt, prompted]
      exact promptIds.symm
    rw [← ids]
    exact held.whole before token answers

/-- When the scheduler has a cached prefix restored or resumed for a sequence, the
backend holds the sequence already if, and only if, a part of its prompt was
submitted in chunks before. -/
theorem prefix_reuse_meets_held (tells : backend.KeepsTokens) (reachable : c.Reachable backend setup)
    {method : BackendMethod S} {k : Except Raised (BackendCall.Answer (.direct method)) → EngineM S Bool}
    (waiting : c.scheduler = .waiting (.call (.direct method) [r]) k)
    (reuse : method.reusesPrefix = true) :
    (tells.holds c.shared.backendState (c.shared.engine.requestId r) = .absent ↔
      (c.shared.engine.sequences r).prefillOffset = 0) ∧
    (setup.config.prefillChunkSizeTokens = 0 →
      tells.holds c.shared.backendState (c.shared.engine.requestId r) = .absent) := by
  obtain ⟨decisions, safe⟩ := reachable.safe
  obtain ⟨live, guard⟩ := safe.guard waiting
  have tracked : c.shared.Tracked tells := safe.reach.tracked
  have found : ∃ prompt, c.shared.ActiveRef r ∧
      (c.shared.view r).Prefilling c.shared.engine.config c.shared.engine.kvAllocator.dimensions prompt := by
    cases guard with
    | restorePrefix active prefilling => exact ⟨_, active, prefilling⟩
    | resumePrefix active prefilling => exact ⟨_, active, prefilling⟩
    | _ => cases reuse
  obtain ⟨prompt, active, prefilling⟩ := found
  have absent := tracked.absent_iff active prefilling
  refine ⟨absent, fun whole => absent.mpr (prefilling.whole ?_)⟩
  exact (congrArg EngineConfig.prefillChunkSizeTokens live.sound.config).trans whole

end Configuration

end ServingPlatform
