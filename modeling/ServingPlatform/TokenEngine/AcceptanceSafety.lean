import ServingPlatform.TokenEngine.SchedulerProtocol

namespace ServingPlatform.TokenGenerationEngine

open Shared

variable {S : Type} {backend : InferenceBackend S} {setup : EngineSetup} {t t' : Shared backend} {r : Ref}

/-- The rule of updates that nothing depends on. -/
theorem safe_quiet {α : Type} {f : Engine S → Engine S} {k : Unit → EngineM S α}
    {Q : Except Raised α → Shared backend → Prop} (live : t.Live setup) (same : t.engine.Quiet (f t.engine))
    (next : ∀ t', Rely setup t t' → SchedulerSafe setup (k ()) Q t') :
    SchedulerSafe setup (Coro.modify f >>= k) Q t :=
  Coro.safe_modify.mpr ⟨.quiet same, next _ (.quiet live same)⟩

theorem safe_checkInterruption {Q : Except Raised (Option FinishReason) → Shared backend → Prop}
    (cancelled : t.Cancelled r → Q (.ok (some .cancelled)) t) (timeout : ¬ t.Cancelled r → Q (.ok (some .timeout)) t)
    (goesOn : ¬ t.Cancelled r → Q (.ok none) t) : SchedulerSafe setup (checkInterruption r) Q t := by
  refine Coro.safe_read.mpr ?_
  by_cases set : (t.engine.sequences r).state.cancellation = true
  · simp only [Shared.window, set, if_true]
    exact cancelled set
  · simp only [Shared.window, set]
    refine Coro.safe_clock.mpr fun now => ?_
    by_cases late : (t.engine.sequences r).state.deadline ≤ now
    · simp only [late, if_true]
      exact timeout set
    · simp only [late, if_false]
      exact goesOn set

end ServingPlatform.TokenGenerationEngine

namespace ServingPlatform.Shared

variable {S : Type} {backend : InferenceBackend S} {setup : EngineSetup} {t t' : Shared backend} {r : Ref}

theorem ReasonHolds.later {reason : FinishReason} (holds : t.ReasonHolds r reason)
    (same : (t.view r).SameStory (t'.view r))
    (eosIds : ∀ eosIds, t.engine.eosIds = some eosIds → t'.engine.eosIds = some eosIds) : t'.ReasonHolds r reason := by
  have limit : (t'.view r).limit = (t.view r).limit := congrArg SamplingParameters.maxNewTokens same.sampling
  unfold ReasonHolds at holds ⊢
  rw [limit, same.generated, same.answered, same.sampling]
  cases reason with
  | eos =>
    obtain ⟨room, token, ids, asked, known, member⟩ := holds
    exact ⟨room, token, ids, asked, eosIds ids known, member⟩
  | stop | length | cancelled | timeout | failed => exact holds

theorem FinalEvent.later {phase : SequencePhase} {event : ScheduledSequence → StreamEvent}
    (final : t.FinalEvent r phase event) (same : (t.view r).SameStory (t'.view r))
    (eosIds : ∀ eosIds, t.engine.eosIds = some eosIds → t'.engine.eosIds = some eosIds) :
    t'.FinalEvent r phase event := by
  cases final with
  | complete reason clean holds => exact .complete reason (same.clean clean) (holds.later same eosIds)
  | failure error blames => exact .failure error (same.blames error blames)

theorem Progress.below (live : t.Live setup) (active : t.ActiveRef r) : ∀ r', r' = r → r' < t.engine.created :=
  fun _ same => same ▸ live.sound.bound active

theorem FinalEvent.terminal {phase : SequencePhase} {event : ScheduledSequence → StreamEvent}
    (final : t.FinalEvent r phase event) : phase.isTerminal = true := by
  cases final with
  | complete reason => cases reason <;> rfl
  | failure => rfl

end ServingPlatform.Shared

namespace ServingPlatform.TokenGenerationEngine

open Shared

variable {S : Type} {backend : InferenceBackend S} {setup : EngineSetup} {t t' : Shared backend} {r : Ref}

/-- How `_complete` and `_fail` end: only a failing release stops them. -/
def Finished (setup : EngineSetup) (t : Shared backend) (r : Ref) (result : Except Raised Unit)
    (t' : Shared backend) : Prop :=
  Progress setup (· = r) t t' ∧ match result with
    | .ok () => ¬ t'.ActiveRef r
    | .error _ => ¬ Covered t'.log ∧ t'.ActiveRef r ∧ ((t.view r).Clean → (t'.view r).Clean)

/-- The end of `_complete` and `_fail`. -/
theorem safe_retire (live : t.Live setup) (active : t.ActiveRef r) {event : ScheduledSequence → StreamEvent}
    (released : (t.view r).sequence.backendCreated = false) (final : t.FinalEvent r (t.view r).phase event) :
    SchedulerSafe setup (Coro.sync fun e : Engine S => e.retire r event) (Finished setup t r) t := by
  obtain ⟨ok, progress, gone⟩ := Progress.retired live active released event
  refine Coro.safe_sync.mpr ⟨.retired active final.terminal released final, ?_⟩
  show Finished setup t r (t.engine.retire r event).1 _
  rw [ok]
  exact ⟨progress, gone⟩

theorem Finished.after {R : Ref → Prop} {t₁ : Shared backend} {result : Except Raised Unit}
    (finished : Finished setup t₁ r result t') (progress : Progress setup R t t₁) (only : ∀ r', R r' → r' = r)
    (below : r < t.engine.created) (clean : (t.view r).Clean → (t₁.view r).Clean) : Finished setup t r result t' := by
  refine ⟨(progress.mono only).trans finished.1 fun r' same => same ▸ below, ?_⟩
  have rest := finished.2
  cases result with
  | ok => exact rest
  | error => exact ⟨rest.1, rest.2.1, fun was => rest.2.2 (clean was)⟩

/-- The backend drops the sequence before it is retired. -/
theorem safe_release (live : t.Live setup) (active : t.ActiveRef r) {event : ScheduledSequence → StreamEvent}
    (final : t.FinalEvent r (t.view r).phase event) :
    SchedulerSafe setup (do
      runAsync (.releaseSequence (t.engine.requestId r)) [r]
      Coro.modify fun e => e.clearBackendCreated r
      Coro.sync fun e : Engine S => e.retire r event) (Finished setup t r) t := by
  have below := live.sound.bound active
  refine Coro.safe_bind.mpr (safe_call live (List.cons_ne_nil _ _) (.releaseSequence active final.terminal) ?_)
  intro result t₁ called
  obtain ⟨activeCalled, viewCalled⟩ := called.views r (List.mem_singleton_self r)
  have noted : (t.view r).Noted (t₁.view r) := by
    rw [viewCalled]
    exact .record .refl .releaseSequence
  have progress := called.progress.mono fun r' listed => List.mem_singleton.mp listed
  cases result with
  | error error =>
    refine ⟨progress, fun covered => ?_, activeCalled, noted.clean⟩
    have proper := covered.proper (called.log ▸ List.mem_cons_self ..)
    cases proper
  | ok _ =>
    obtain ⟨before, run⟩ := called.run
    have samePhase : (t₁.view r).phase = (t.view r).phase := by rw [viewCalled]; rfl
    have gone : ¬ backend.held t₁.backendState (t₁.engine.requestId r) := by
      rw [called.progress.requestId r below]
      exact backend.released run
    refine safe_update called.progress.live activeCalled (.released activeCalled (samePhase ▸ final.terminal) gone) rfl ?_
    intro t₂ cleared
    have story : (t₁.view r).SameStory (t₂.view r) := by
      rw [cleared.view]
      exact ⟨rfl, rfl, rfl, fun clean => clean, fun _ blames => blames⟩
    have finalCleared : t₂.FinalEvent r (t₂.view r).phase event := by
      rw [show (t₂.view r).phase = (t₁.view r).phase by rw [cleared.view]; rfl, samePhase]
      exact final.later (noted.sameStory.trans story) fun ids known =>
        cleared.eosIds.trans (called.eosIds.trans known)
    exact (safe_retire cleared.progress.live cleared.active (by rw [cleared.view]; rfl) finalCleared).mono
      fun result t' finished => finished.after (progress.trans cleared.progress fun r' same => same ▸ below)
        (fun _ same => same) below fun clean => story.clean (noted.clean clean)

theorem safe_finish (live : t.Live setup) (active : t.ActiveRef r) {phase : SequencePhase}
    {event : ScheduledSequence → StreamEvent} (may : t.MayClose r phase) (final : t.FinalEvent r phase event) :
    SchedulerSafe setup (finish r phase event) (Finished setup t r) t := by
  have below := live.sound.bound active
  refine Coro.safe_read.mpr ?_
  have found : t.engine.active.contains (t.engine.requestId r) = true := by
    rw [Dict.contains, show t.engine.active.get? (t.engine.requestId r) = some r from active]
    rfl
  simp only [Shared.window, found, if_true]
  refine safe_update live active (.closing active may) rfl ?_
  intro t₁ closed
  have story : (t.view r).SameStory (t₁.view r) := by
    rw [closed.view]
    exact ⟨rfl, rfl, rfl, fun clean => clean, fun _ blames => blames⟩
  have finalClosed : t₁.FinalEvent r (t₁.view r).phase event := by
    rw [show (t₁.view r).phase = phase by rw [closed.view]; rfl]
    exact final.later story fun ids known => closed.eosIds.trans known
  by_cases created : (t.engine.sequences r).backendCreated = true
  · simp only [created, if_true]
    rw [← closed.progress.requestId r below]
    exact (safe_release closed.progress.live closed.active finalClosed).mono fun result t' finished =>
      finished.after closed.progress (fun _ same => same) below story.clean
  · have unset : (t₁.view r).sequence.backendCreated = false := by
      rw [closed.view]
      exact eq_false_of_ne_true created
    simp only [created]
    exact (safe_retire closed.progress.live closed.active unset finalClosed).mono fun result t' finished =>
      finished.after closed.progress (fun _ same => same) below story.clean

theorem safe_complete (live : t.Live setup) (active : t.ActiveRef r) {reason : FinishReason}
    (may : t.MayClose r reason.phase) (clean : (t.view r).Clean) (holds : t.ReasonHolds r reason) :
    SchedulerSafe setup (complete r reason) (Finished setup t r) t :=
  safe_finish live active may (.complete reason clean holds)

theorem safe_fail (live : t.Live setup) (active : t.ActiveRef r) {error : Raised} (blames : (t.view r).Blames error) :
    SchedulerSafe setup (fail r error) (Finished setup t r) t :=
  safe_finish live active (Or.inl rfl) (.failure error blames)

end ServingPlatform.TokenGenerationEngine

namespace ServingPlatform.TokenGenerationEngine

open Shared

variable {S : Type} {backend : InferenceBackend S} {setup : EngineSetup} {t t' : Shared backend} {r : Ref}

/-- The known terminal tokens, or the exception met when asking for them. -/
def EosLearned (setup : EngineSetup) (t : Shared backend) (sequences : List Ref) (result : Except Raised (List TokenId))
    (t' : Shared backend) : Prop :=
  Progress setup (· ∈ sequences) t t' ∧ (∀ r ∈ sequences, t'.ActiveRef r) ∧ match result with
    | .ok eosIds => t'.engine.eosIds = some eosIds ∧ ∀ r ∈ sequences, (t.view r).Noted (t'.view r)
    | .error error => ∀ r ∈ sequences, (t'.view r).Blames error

theorem safe_getEosIds {sequences : List Ref} (live : t.Live setup) (some : sequences ≠ [])
    (active : ∀ r ∈ sequences, t.ActiveRef r) :
    SchedulerSafe setup (getEosIds sequences) (EosLearned setup t sequences) t := by
  refine Coro.safe_read.mpr ?_
  cases known : t.engine.eosIds with
  | some eosIds =>
    simp only [Shared.window, known]
    exact ⟨.refl live, active, known, fun r _ => .refl⟩
  | none =>
    simp only [Shared.window, known]
    refine Coro.safe_bind.mpr (safe_call live some (.eosTokenIds active) ?_)
    intro result t₁ called
    cases result with
    | error error =>
      refine ⟨called.progress, fun r listed => (called.views r listed).1, fun r listed => ?_⟩
      rw [(called.views r listed).2]
      exact RefView.blames_recorded rfl
    | ok eosIds =>
      have unknown : t₁.engine.eosIds = none := called.eosIds.trans known
      have learning : Action t₁ (t₁.withEngine (t₁.engine.setEosIds eosIds)) := .eosKnown unknown
      refine Coro.safe_modify.mpr ⟨learning, ?_⟩
      have learned : Progress setup (· ∈ sequences) t₁ (t₁.withEngine (t₁.engine.setEosIds eosIds)) :=
        .of_same called.progress.live (learning.sound called.progress.live.sound) rfl rfl rfl rfl
          (fun ids known => by cases unknown.symm.trans known) rfl
      refine ⟨called.progress.trans learned fun r listed => live.sound.bound (active r listed),
        fun r listed => (called.views r listed).1, rfl, fun r listed => ?_⟩
      have noted : (t.view r).Noted (t₁.view r) := by
        rw [(called.views r listed).2]
        exact .record .refl .eosTokenIds
      exact noted

/-- The prefix is stored, or the exception of the snapshot met. -/
def PrefixStored (setup : EngineSetup) (t : Shared backend) (r : Ref) (result : Except Raised Unit)
    (t' : Shared backend) : Prop :=
  Progress setup (· = r) t t' ∧ t'.ActiveRef r ∧ match result with
    | .ok () => (t.view r).Noted (t'.view r)
    | .error error => (t'.view r).Blames error ∧ ((t.view r).Unresumed → ¬ Covered t'.log)

theorem putPrefix_ok {e : Engine S} {tokenIds : List TokenId} (nonempty : tokenIds ≠ []) (snapshot : S) :
    ∃ kept, (e.putPrefix tokenIds snapshot).1 = .ok kept := by
  unfold Engine.putPrefix PrefixCache.put
  simp only [nonempty, if_false]
  split <;> exact ⟨_, rfl⟩

/-- A snapshot that fails for a sequence with no resumed prefix is not covered. -/
theorem not_covered_of_failedSnapshot {id : String} {error : Raised} {rest : List (CallRecord S)}
    (unresumed : ∀ c ∈ rest, r ∈ c.sequences → ¬ c.IsResume) :
    ¬ Covered (⟨.direct (.snapshotPrefix id), [r], .error error⟩ :: rest) := by
  rintro ⟨-, only, -⟩
  obtain ⟨d, member, resume, same⟩ := only ⟨id, [r], error, rfl⟩
  exact unresumed d member (same.symm ▸ List.mem_singleton_self r) resume

theorem safe_storePrefix (live : t.Live setup) (active : t.ActiveRef r) {token : GeneratedToken}
    (pending : (t.view r).Pending setup.dimensions token) (first : (t.view r).generated = []) :
    SchedulerSafe setup (storePrefix r) (PrefixStored setup t r) t := by
  obtain ⟨prompt, prompted, -, -⟩ := pending.prompted
  have tokenized : (t.engine.sequences r).tokenized = some prompt := prompted
  refine Coro.safe_read.mpr ?_
  simp only [Shared.window, tokenized]
  by_cases stores : t.engine.prefixCache.enabled = true ∧ t.engine.config.capabilities.snapshotPrefix = true
  · simp only [stores, and_self, if_true]
    rw [← live.sound.dimensions] at pending
    refine Coro.safe_bind.mpr (safe_call live (List.cons_ne_nil _ _) (.snapshotPrefix active pending first) ?_)
    intro result t₁ called
    obtain ⟨activeCalled, viewCalled⟩ := called.views r (List.mem_singleton_self r)
    have progress := called.progress.mono fun r' listed => List.mem_singleton.mp listed
    cases result with
    | error error =>
      refine ⟨progress, activeCalled, ?_, fun unresumed => ?_⟩
      · rw [viewCalled]
        exact RefView.blames_recorded rfl
      · rw [called.log]
        refine not_covered_of_failedSnapshot fun c member listed => unresumed c ?_
        exact List.mem_filter.mpr ⟨member, by simpa using listed⟩
    | ok snapshot =>
      have noted : (t.view r).Noted (t₁.view r) := by
        rw [viewCalled]
        exact .record .refl .snapshotPrefix
      have last := called.log
      rw [← called.progress.requestId r (live.sound.bound active)] at last
      have storing : Action t₁ (t₁.withEngine (t₁.engine.putPrefix prompt.tokenIds snapshot).2) :=
        .stored activeCalled (by rw [viewCalled]; exact prompted) last
      refine Coro.safe_bind.mpr (Coro.safe_sync.mpr ⟨storing, ?_⟩)
      have stored : Progress setup (· = r) t₁ (t₁.withEngine (t₁.engine.putPrefix prompt.tokenIds snapshot).2) :=
        .of_same progress.live (storing.sound progress.live.sound) rfl rfl rfl rfl (fun _ known => known) rfl
      obtain ⟨kept, ok⟩ := putPrefix_ok (e := t₁.engine) prompt.nonempty snapshot
      simp only [ok]
      exact ⟨progress.trans stored fun r' same => same ▸ live.sound.bound active, activeCalled, noted⟩
  · simp only [stores, if_false]
    exact ⟨.refl live, active, .refl⟩

/-- An accepted token leaves the sequence decoding or retired, unless a release failed. -/
def Accepted (setup : EngineSetup) (t : Shared backend) (r : Ref) (result : Except Raised Unit)
    (t' : Shared backend) : Prop :=
  Progress setup (· = r) t t' ∧ match result with
    | .ok () => t'.ActiveRef r → (t.view r).Extended setup.dimensions (t'.view r)
    | .error error => ¬ Covered t'.log ∧ t'.ActiveRef r ∧ (t'.view r).Blames error

theorem Finished.accepted {result : Except Raised Unit} (finished : Finished setup t r result t')
    (clean : (t.view r).Clean) : Accepted setup t r result t' := by
  refine ⟨finished.1, ?_⟩
  have rest := finished.2
  cases result with
  | ok => exact fun active => absurd active rest
  | error error => exact ⟨rest.1, rest.2.1, (rest.2.2 clean).blames error⟩

/-- A sequence whose next token is pending completes for a reason that is not its length. -/
theorem safe_complete_pending (live : t.Live setup) (active : t.ActiveRef r) {token : GeneratedToken}
    (pending : (t.view r).Pending setup.dimensions token) {reason : FinishReason}
    (may : reason.phase = .cancelled ∧ t.Cancelled r ∨
      (reason.phase = .completed ∨ reason.phase = .timedOut) ∧ ¬ t.Cancelled r)
    (holds : t.ReasonHolds r reason) : SchedulerSafe setup (complete r reason) (Accepted setup t r) t := by
  have phase : (t.view r).phase.isTerminal = false := by
    rcases pending.phase with ⟨prefill, -⟩ | ⟨decode, -⟩
    · rw [prefill]
      rfl
    · rw [decode]
      rfl
  exact (safe_complete live active (Or.inr ⟨phase, may⟩) pending.clean holds).mono
    fun result t' finished => finished.accepted pending.clean

theorem Pending.next {token : GeneratedToken} {v : RefView S} (pending : v.Pending setup.dimensions token) :
    v.answered[v.generated.length]? = some token := by
  obtain ⟨before, answered, accepted⟩ := pending.answered
  rw [answered, ← accepted, List.length_map, List.getElem?_concat_length]

/-- A token is emitted; the sequence then awaits its next one or has reached its length. -/
theorem safe_emit (live : t.Live setup) (active : t.ActiveRef r) {token : GeneratedToken} {eosIds : List TokenId}
    (pending : (t.view r).Pending setup.dimensions token) (notCancelled : ¬ t.Cancelled r)
    (eos : t.engine.eosIds = some eosIds) (notEos : token.tokenId ∉ eosIds)
    (notStop : token.tokenId ∉ (t.view r).sequence.state.sampling.stopTokenIds)
    (cached : (t.view r).sequence.cacheTokens = token.cacheTokens) :
    SchedulerSafe setup (do
      Coro.modify fun e => e.emit r token
      let e ← Coro.read
      if (e.sequences r).state.sampling.maxNewTokens ≤ (e.sequences r).state.generatedTokenIds.length then
        complete r .length) (Accepted setup t r) t := by
  have emission := pending
  rw [← live.sound.dimensions] at emission
  refine safe_update live active (.emitted active emission notCancelled eos notEos notStop) rfl ?_
  intro t₁ emitted
  obtain ⟨before, answered, accepted⟩ := pending.answered
  have acceptedNow : (t₁.view r).answered.map GeneratedToken.tokenId = (t₁.view r).generated := by
    rw [emitted.view]
    show (t.view r).answered.map GeneratedToken.tokenId = (t.view r).generated ++ [token.tokenId]
    rw [answered, List.map_append, accepted]
    rfl
  have clean : (t₁.view r).Clean := by
    rw [emitted.view]
    exact pending.clean
  have decode : (t₁.view r).phase = .decode := by rw [emitted.view]; rfl
  refine Coro.safe_read.mpr ?_
  by_cases full : (t₁.view r).limit ≤ (t₁.view r).generated.length
  · have reached : (t₁.engine.sequences r).state.sampling.maxNewTokens ≤
      (t₁.engine.sequences r).state.generatedTokenIds.length := full
    simp only [Shared.window, reached, if_true]
    have stillLive : ¬ t₁.Cancelled r := by
      rw [Shared.Cancelled, emitted.sequence]
      exact notCancelled
    have may : t₁.MayClose r FinishReason.length.phase :=
      Or.inr ⟨by rw [decode]; rfl, Or.inr ⟨Or.inl rfl, stillLive⟩⟩
    refine (safe_complete emitted.progress.live emitted.active may clean
      (show t₁.ReasonHolds r .length from full)).mono fun result t' finished => ?_
    have done := finished.accepted clean
    refine ⟨emitted.progress.trans done.1 fun r' same => same ▸ live.sound.bound active, ?_⟩
    cases result with
    | ok => exact fun still => absurd still finished.2
    | error error => exact done.2
  · have short : ¬ (t₁.engine.sequences r).state.sampling.maxNewTokens ≤
      (t₁.engine.sequences r).state.generatedTokenIds.length := full
    simp only [Shared.window, short, if_false]
    have decoding : (t₁.view r).Decoding setup.dimensions := {
      prompted := by
        rw [emitted.view]
        exact pending.prompted
      backendCreated := by
        rw [emitted.view]
        exact pending.backendCreated
      accepted := acceptedNow
      room := Nat.lt_of_not_le full
      clean := clean
      phase := Or.inr ⟨decode, by rw [emitted.view]; exact List.append_ne_nil_of_right_ne_nil _ (List.cons_ne_nil _ _)⟩
      decode := decode
      cached := by
        rw [emitted.view]
        show (t.view r).sequence.cacheTokens = (t.view r).toldLength
        rw [cached, RefView.toldLength, answered, List.getLast?_concat]
        rfl }
    refine ⟨emitted.progress, fun _ => ⟨decoding, ⟨token.tokenId, ?_⟩, ?_⟩⟩
    · rw [emitted.view]
      rfl
    · rw [emitted.view]
      rfl

theorem safe_acceptToken (live : t.Live setup) (active : t.ActiveRef r) {token : GeneratedToken}
    {eosIds : List TokenId} (pending : (t.view r).Pending setup.dimensions token)
    (eos : t.engine.eosIds = some eosIds) (cached : (t.view r).sequence.cacheTokens = token.cacheTokens) :
    SchedulerSafe setup (acceptToken r token eosIds) (Accepted setup t r) t := by
  have next := Pending.next pending
  refine Coro.safe_bind.mpr (safe_checkInterruption ?_ ?_ ?_)
  · exact fun cancelled => safe_complete_pending live active pending (Or.inl ⟨rfl, cancelled⟩) pending.room
  · exact fun notCancelled =>
      safe_complete_pending live active pending (Or.inr ⟨Or.inr rfl, notCancelled⟩) pending.room
  · intro notCancelled
    refine Coro.safe_read.mpr ?_
    by_cases isEos : token.tokenId ∈ eosIds
    · simp only [isEos, if_true]
      exact safe_complete_pending live active pending (Or.inr ⟨Or.inl rfl, notCancelled⟩)
        ⟨pending.room, token, eosIds, next, eos, isEos⟩
    · simp only [isEos, if_false]
      by_cases isStop : token.tokenId ∈ (t.engine.sequences r).state.sampling.stopTokenIds
      · simp only [Shared.window, isStop, if_true]
        exact safe_complete_pending live active pending (Or.inr ⟨Or.inl rfl, notCancelled⟩)
          ⟨pending.room, token, next, isStop⟩
      · simp only [Shared.window, isStop, if_false]
        exact safe_emit live active pending notCancelled eos isEos isStop cached

end ServingPlatform.TokenGenerationEngine
