import ServingPlatform.TokenEngine.PreparationSafety

namespace ServingPlatform.TokenGenerationEngine

open Shared

variable {S : Type} {backend : InferenceBackend S} {setup : EngineSetup} {t t' : Shared backend} {r : Ref}
  {prompt : TokenizedPrompt}

/-- What a prefill decision does to a sequence that stays: it got its first
token, or more of its prompt was submitted. -/
inductive Prefilled (setup : EngineSetup) (v v' : RefView S) : Prop
  | extended (extended : v.Extended setup.dimensions v')
  | advanced (chunked : setup.config.prefillChunkSizeTokens ≠ 0)
      (prefilling : ∃ prompt, v'.Prefilling setup.config setup.dimensions prompt)
      (offset : v.sequence.prefillOffset < v'.sequence.prefillOffset)
      (sampling : v'.sequence.state.sampling = v.sequence.state.sampling)

section Collect

/-- The sequences with these identifiers. -/
abbrev refs (t : Shared backend) (ids : List String) : List Ref := ids.filterMap t.engine.active.get?

/-- How the first loop ends: some of the sequences are in the batch, the
others that stay go on without it. -/
def Collected (setup : EngineSetup) (t : Shared backend) (ids : List String) (result : Except Raised (List Ref))
    (t' : Shared backend) : Prop :=
  Progress setup (· ∈ refs t ids) t t' ∧ match result with
    | .ok batch => batch.Nodup ∧
      (∀ r ∈ batch, r ∈ refs t ids ∧ t'.ActiveRef r ∧ Resting setup (t.view r) (t'.view r)) ∧
      ∀ r ∈ refs t ids, r ∉ batch → t'.ActiveRef r → (t.view r).Extended setup.dimensions (t'.view r)
    | .error _ => ¬ Covered t'.log

/-- Any exception in a sequence's turn fails the sequence. -/
theorem safe_turn (live : t.Live setup) (active : t.ActiveRef r) (waits : Waiting setup (t.view r)) :
    SchedulerSafe setup ((prepare r).catchError fun error => do
      fail r error
      return false)
      (fun result t' => Progress setup (· = r) t t' ∧ match result with
        | .ok joins => Turned setup t r joins t'
        | .error _ => ¬ Covered t'.log) t := by
  have below := Progress.below live active
  refine Coro.safe_catchError.mpr ((safe_prepare live active waits).mono fun result t₁ tried => ?_)
  cases result with
  | ok joins => exact tried
  | error error =>
    obtain ⟨progress, activeTried, blames⟩ := tried
    refine Coro.safe_bind.mpr ((safe_fail progress.live activeTried blames).mono fun result t' finished => ?_)
    cases result with
    | ok => exact ⟨progress.trans finished.1 below, fun still => absurd still finished.2⟩
    | error => exact ⟨progress.trans finished.1 below, finished.2.1⟩

theorem refs_later {ids : List String} {R : Ref → Prop} (live : t.Live setup) (progress : Progress setup R t t')
    (all : ∀ id ∈ ids, ∃ r, t.engine.active.get? id = some r ∧ ¬ R r) : refs t' ids = refs t ids := by
  refine List.filterMap_congr fun id member => ?_
  obtain ⟨r, found, outside⟩ := all id member
  have named := (live.sound.named id r found).1
  have active : t.ActiveRef r := by
    rw [ActiveRef, named]
    exact found
  have still := (progress.kept r active outside).1
  rw [ActiveRef, progress.requestId r (live.sound.bound active), named] at still
  exact still.trans found.symm

theorem safe_collect {ids : List String} (nodup : ids.Nodup) (live : t.Live setup)
    (all : ∀ id ∈ ids, ∃ r, t.engine.active.get? id = some r ∧ Waiting setup (t.view r)) :
    SchedulerSafe setup (collect ids) (Collected setup t ids) t := by
  induction ids generalizing t with
  | nil =>
    exact ⟨.refl live, List.nodup_nil, fun r listed => absurd listed List.not_mem_nil,
      fun r listed => absurd listed List.not_mem_nil⟩
  | cons id rest ih =>
    obtain ⟨r, found, waits⟩ := all id (List.mem_cons_self ..)
    obtain ⟨named, below⟩ := live.sound.named id r found
    have active : t.ActiveRef r := by
      rw [ActiveRef, named]
      exact found
    obtain ⟨apart, nodupRest⟩ := List.nodup_cons.mp nodup
    have listing : refs t (id :: rest) = r :: refs t rest := List.filterMap_cons_some found
    have others : ∀ other ∈ rest, ∃ r', t.engine.active.get? other = some r' ∧ r' ≠ r := by
      intro other member
      obtain ⟨r', found', -⟩ := all other (List.mem_cons_of_mem id member)
      refine ⟨r', found', fun same => apart ?_⟩
      rw [← named, ← same, (live.sound.named other r' found').1]
      exact member
    have outside : r ∉ refs t rest := by
      intro listed
      obtain ⟨other, member, found'⟩ := List.mem_filterMap.mp listed
      obtain ⟨r', found'', differ⟩ := others other member
      exact differ (Option.some.inj (found''.symm.trans found'))
    refine Coro.safe_read.mpr ?_
    simp only [Shared.window, found]
    refine Coro.safe_bind.mpr ((safe_turn live active waits).mono fun result t₁ turned => ?_)
    obtain ⟨progress, rest_⟩ := turned
    have inside : ∀ r', r' = r → r' ∈ refs t (id :: rest) := fun r' same =>
      listing ▸ same ▸ List.mem_cons_self ..
    cases result with
    | error error => exact ⟨progress.mono inside, rest_⟩
    | ok joins =>
      have sameRefs : refs t₁ rest = refs t rest := refs_later live progress others
      have kept : ∀ r' ∈ refs t rest, t₁.view r' = t.view r' := by
        intro r' listed
        obtain ⟨other, member, found'⟩ := List.mem_filterMap.mp listed
        refine (progress.kept r' ?_ fun same => outside (same ▸ listed)).2
        rw [ActiveRef, (live.sound.named other r' found').1]
        exact found'
      have later : ∀ other ∈ rest, ∃ r', t₁.engine.active.get? other = some r' ∧ Waiting setup (t₁.view r') := by
        intro other member
        obtain ⟨r', found', waits'⟩ := all other (List.mem_cons_of_mem id member)
        have listed : r' ∈ refs t rest := List.mem_filterMap.mpr ⟨other, member, found'⟩
        obtain ⟨other', member', found''⟩ := List.mem_filterMap.mp (sameRefs ▸ listed)
        have sameId := (progress.live.sound.named other' r' found'').1
        rw [progress.requestId r' (live.sound.named other r' found').2, (live.sound.named other r' found').1] at sameId
        refine ⟨r', sameId ▸ found'', ?_⟩
        rw [kept r' listed]
        exact waits'
      refine Coro.safe_bind.mpr ((ih nodupRest progress.live later).mono fun result t' collected => ?_)
      obtain ⟨second, outcome⟩ := collected
      rw [sameRefs] at second
      have whole : Progress setup (· ∈ refs t (id :: rest)) t t' := by
        refine (progress.mono inside).trans (second.mono fun r' listed => ?_) fun r' listed => ?_
        · rw [listing]
          exact List.mem_cons_of_mem r listed
        · obtain ⟨other, member, found'⟩ := List.mem_filterMap.mp listed
          exact (live.sound.named other r' found').2
      cases result with
      | error error => exact ⟨whole, outcome⟩
      | ok batch =>
        obtain ⟨nodupBatch, joined, left⟩ := outcome
        rw [sameRefs] at left
        have batched : ∀ r' ∈ batch, r' ∈ refs t rest ∧ t'.ActiveRef r' ∧ Resting setup (t.view r') (t'.view r') := by
          intro r' listed
          obtain ⟨among, activeNow, resting⟩ := joined r' listed
          rw [sameRefs] at among
          exact ⟨among, activeNow, kept r' among ▸ resting⟩
        have notBatched : r ∉ batch := fun listed => outside (batched r listed).1
        have ended : ∀ r' ∈ refs t rest, r' ∉ batch → t'.ActiveRef r' →
            (t.view r').Extended setup.dimensions (t'.view r') := by
          intro r' listed out still
          exact kept r' listed ▸ left r' listed out still
        refine ⟨whole, ?_⟩
        cases joins with
        | true =>
          obtain ⟨activeTurned, resting⟩ := rest_
          obtain ⟨stays, sameView⟩ := second.kept r activeTurned outside
          refine ⟨List.nodup_cons.mpr ⟨notBatched, nodupBatch⟩, fun r' listed => ?_, fun r' listed out still => ?_⟩
          · rw [listing]
            rcases List.mem_cons.mp listed with rfl | among
            · exact ⟨List.mem_cons_self .., stays, sameView.symm ▸ resting⟩
            · exact ⟨List.mem_cons_of_mem r (batched r' among).1, (batched r' among).2⟩
          · rw [listing] at listed
            rcases List.mem_cons.mp listed with rfl | among
            · exact absurd (List.mem_cons_self ..) out
            · exact ended r' among (fun inBatch => out (List.mem_cons_of_mem r inBatch)) still
        | false =>
          refine ⟨nodupBatch, fun r' listed => ?_, fun r' listed out still => ?_⟩
          · rw [listing]
            exact ⟨List.mem_cons_of_mem r (batched r' listed).1, (batched r' listed).2⟩
          · rw [listing] at listed
            rcases List.mem_cons.mp listed with rfl | among
            · rcases second.joined r' still with before | ⟨newer, -⟩
              · exact (second.kept r' before outside).2.symm ▸ rest_ before
              · exact absurd below (Nat.not_lt_of_le (progress.created.trans newer))
            · exact ended r' among out still

end Collect

section Chunks

variable {config : EngineConfig}

/-- One past the last token of the next chunk. -/
def chunkStop (config : EngineConfig) (v : RefView S) (prompt : TokenizedPrompt) : Nat :=
  min (v.sequence.prefillOffset + config.prefillChunkSizeTokens) prompt.tokenIds.length

/-- The next chunk of a prompt. -/
structure NextChunk (config : EngineConfig) (v : RefView S) (prompt chunk : TokenizedPrompt) : Prop where
  bounded : chunk.tokenIds.length ≤ config.prefillChunkSizeTokens
  reaches : v.submitted + chunk.tokenIds.length = chunkStop config v prompt
  advances : v.sequence.prefillOffset < chunkStop config v prompt
  piece : prompt.tokenIds.take (v.submitted + chunk.tokenIds.length) =
    prompt.tokenIds.take v.submitted ++ chunk.tokenIds

theorem NextChunk.of_slice {v : RefView S} {chunk : TokenizedPrompt}
    (prefilling : v.Prefilling config setup.dimensions prompt)
    (slice : chunk.tokenIds =
      (prompt.tokenIds.take (chunkStop config v prompt)).drop v.sequence.prefillOffset) :
    NextChunk config v prompt chunk := by
  have submitted := prefilling.submitted
  have within : chunkStop config v prompt ≤ prompt.tokenIds.length := Nat.min_le_right ..
  have reach : chunkStop config v prompt ≤ v.sequence.prefillOffset + config.prefillChunkSizeTokens :=
    Nat.min_le_left ..
  have length : chunk.tokenIds.length = chunkStop config v prompt - v.sequence.prefillOffset := by
    rw [slice, List.length_drop, List.length_take, Nat.min_eq_left within]
  have positive : 0 < chunk.tokenIds.length := List.length_pos_iff.mpr chunk.nonempty
  have reaches : v.submitted + chunk.tokenIds.length = chunkStop config v prompt := by omega
  refine ⟨by omega, reaches, by omega, ?_⟩
  rw [reaches, slice, submitted]
  have front : prompt.tokenIds.take v.sequence.prefillOffset =
      (prompt.tokenIds.take (chunkStop config v prompt)).take v.sequence.prefillOffset := by
    rw [List.take_take, Nat.min_eq_left (by omega)]
  rw [front, List.take_append_drop]

/-- A prompt without a next chunk was stalled by its last one. -/
theorem stalled_of_no_chunk {v : RefView S} (chunked : config.prefillChunkSizeTokens ≠ 0)
    (prefilling : v.Prefilling config setup.dimensions prompt)
    (none : (prompt.tokenIds.take (chunkStop config v prompt)).drop v.sequence.prefillOffset = []) : v.Stalled := by
  rcases prefilling.unfinished with short | ⟨-, stalled⟩
  · have length := congrArg List.length none
    rw [List.length_drop, List.length_take, List.length_nil, chunkStop] at length
    omega
  · exact stalled

theorem not_covered_of_stalled (stalled : (t.view r).Stalled) : ¬ Covered t.log := by
  intro covered
  obtain ⟨c, member, id, chunk, parameters, sequences, rfl⟩ := stalled
  exact covered.proper (List.mem_of_mem_filter member) rfl rfl

/-- The chunk was submitted, and the sequence's offset moved. -/
theorem Prefilling.advanced {v : RefView S} {chunk : TokenizedPrompt} {id : String} {parameters : SamplingParameters}
    {sequence : ScheduledSequence} (chunked : config.prefillChunkSizeTokens ≠ 0)
    (prefilling : v.Prefilling config setup.dimensions prompt) (next : NextChunk config v prompt chunk)
    (moved : sequence = { v.sequence with prefillOffset := chunkStop config v prompt }) :
    { v.recorded ⟨.direct (.prefillChunk id chunk parameters (chunkStop config v prompt = prompt.tokenIds.length)), [r],
      .ok none⟩ with sequence }.Prefilling config setup.dimensions prompt := by
  subst moved
  refine ⟨⟨prefilling.tokenized, prefilling.promptTokenIds, prefilling.sized, prefilling.generated, ?_, ?_, next.reaches,
    fun whole => absurd whole chunked, ?_⟩, prefilling.phase, prefilling.backendCreated⟩
  · exact (List.append_nil _).trans prefilling.answered
  · exact prefilling.clean.recorded rfl
  · have within : chunkStop config v prompt ≤ prompt.tokenIds.length := Nat.min_le_right ..
    rcases Nat.lt_or_ge (chunkStop config v prompt) prompt.tokenIds.length with short | whole
    · exact Or.inl short
    · have last : chunkStop config v prompt = prompt.tokenIds.length := Nat.le_antisymm within whole
      refine Or.inr ⟨within, _, List.mem_cons_self .., id, chunk, parameters, [r], ?_⟩
      rw [decide_eq_true last]

/-- The chunk's answer is in, and the sequence's offset has moved. -/
structure Moved (setup : EngineSetup) (t : Shared backend) (r : Ref) (stop : Nat) (t' : Shared backend) : Prop where
  progress : Progress setup (· = r) t t'
  active : t'.ActiveRef r
  view : t'.view r = { t.view r with sequence := { (t.view r).sequence with prefillOffset := stop } }
  eosIds : t'.engine.eosIds = t.engine.eosIds

theorem safe_moveOffset {elapsed : Int} {stop : Nat} {k : Unit → EngineM S Unit}
    {Q : Except Raised Unit → Shared backend → Prop} (live : t.Live setup) (active : t.ActiveRef r)
    (phase : (t.view r).phase = .prefill) (submitted : (t.view r).submitted = stop)
    (next : ∀ t', Moved setup t r stop t' → SchedulerSafe setup (k ()) Q t') :
    SchedulerSafe setup (Coro.modify (fun e => e.addPrefillTime r elapsed) >>= fun _ =>
      Coro.modify (fun e => e.setPrefillOffset r stop) >>= fun _ =>
        Coro.modify (fun e => e.countPrefill 1) >>= k) Q t := by
  have below := Progress.below live active
  refine safe_quiet live (.addPrefillTime r elapsed) fun t₁ rely => ?_
  obtain ⟨activeTimed, viewTimed⟩ := rely.kept' active
  have timed : Progress setup (· = r) t t₁ := rely.toProgress.mono fun _ never => never.elim
  refine safe_update rely.live activeTimed (.advanced activeTimed (viewTimed.symm ▸ phase) (viewTimed.symm ▸ submitted))
    rfl fun t₂ moved => ?_
  refine safe_quiet moved.progress.live (.countPrefill 1) fun t₃ counted => next t₃ ?_
  obtain ⟨activeCounted, viewCounted⟩ := counted.kept' moved.active
  refine ⟨(timed.trans moved.progress below).before counted.toProgress below, activeCounted, ?_,
    counted.sameEosIds.trans (moved.eosIds.trans rely.sameEosIds)⟩
  have same : (t₁.engine.sequences r).vital = (t.view r).sequence := congrArg RefView.sequence viewTimed
  rw [viewCounted, moved.view, viewTimed, ← same]
  rfl

/-- A chunk that brought no token leaves the rest of the prompt to be submitted. -/
theorem Moved.advanced {v : RefView S} {chunk : TokenizedPrompt} {id : String} {parameters : SamplingParameters}
    (sameConfig : config = setup.config) (chunked : config.prefillChunkSizeTokens ≠ 0)
    (prefilling : v.Prefilling config setup.dimensions prompt) (next : NextChunk config v prompt chunk)
    (view : t.view r = v.recorded ⟨.direct (.prefillChunk id chunk parameters
      (chunkStop config v prompt = prompt.tokenIds.length)), [r], .ok none⟩)
    (moved : Moved setup t r (chunkStop config v prompt) t') : Prefilled setup v (t'.view r) := by
  subst sameConfig
  refine .advanced chunked ⟨prompt, ?_⟩ ?_ ?_
  · rw [moved.view, view]
    exact Prefilling.advanced chunked prefilling next rfl
  · rw [moved.view]
    exact next.advances
  · rw [moved.view, view]
    rfl

/-- A chunk that brought a token ends the prefill. -/
theorem Moved.pending {v : RefView S} {chunk : TokenizedPrompt} {id : String} {parameters : SamplingParameters}
    {final : Bool} {token : GeneratedToken} (prefilling : v.Prefilling setup.config setup.dimensions prompt)
    (view : t.view r = v.recorded ⟨.direct (.prefillChunk id chunk parameters final), [r], .ok (some token)⟩)
    {stop : Nat} (moved : Moved setup t r stop t') :
    (t'.view r).Pending setup.dimensions token ∧ (t'.view r).generated = [] ∧ (t'.view r).Unresumed ∧
      (t'.view r).sequence.state.sampling = v.sequence.state.sampling := by
  have asked : (v.recorded ⟨.direct (.prefillChunk id chunk parameters final), [r], .ok (some token)⟩).Pending
      setup.dimensions token := prefilling.awaiting.pending rfl rfl
  have unresumed := RefView.unresumed_of_unanswered prefilling.answered prefilling.clean
  rw [moved.view, view]
  refine ⟨?_, prefilling.generated, ?_, rfl⟩
  · exact ⟨asked.prompted, asked.backendCreated, asked.answered, asked.room, asked.clean, asked.phase⟩
  · exact unresumed.recorded fun ⟨_, _, _, _, _, _, same⟩ => by cases same

theorem safe_runChunk {eosIds : List TokenId} (chunked : setup.config.prefillChunkSizeTokens ≠ 0) (live : t.Live setup)
    (active : t.ActiveRef r) (prefilling : (t.view r).Prefilling setup.config setup.dimensions prompt)
    (eos : t.engine.eosIds = some eosIds) :
    SchedulerSafe setup (runChunk eosIds r prompt) (Handled setup (Prefilled setup) (· = r) t) t := by
  have below := Progress.below live active
  have sameConfig := live.sound.config
  have known := prefilling
  rw [← sameConfig] at chunked known
  have guarded := known
  rw [← live.sound.dimensions] at guarded
  refine Coro.safe_read.mpr ?_
  dsimp only [window_view]
  unfold TokenizedPrompt.ofTokens
  by_cases nonempty : (prompt.tokenIds.take (min ((t.engine.sequences r).prefillOffset +
      t.engine.config.prefillChunkSizeTokens) prompt.tokenIds.length)).drop (t.engine.sequences r).prefillOffset ≠ []
  · rw [dif_pos nonempty]
    refine Coro.safe_bind.mpr (Coro.safe_lift.mpr ?_)
    have next : NextChunk t.engine.config (t.view r) prompt ⟨_, nonempty⟩ := .of_slice known rfl
    refine Coro.safe_clock.mpr fun started => ?_
    refine Coro.safe_bind.mpr (Coro.safe_attempt.mpr (safe_call live (List.cons_ne_nil _ _)
      (.prefillChunk active guarded next.bounded next.piece ?_) fun result t₁ called => ?_))
    · rw [decide_eq_true_iff, next.reaches]
      rfl
    obtain ⟨activeCalled, viewCalled⟩ := called.views r (List.mem_singleton_self r)
    have progress : Progress setup (· = r) t t₁ := called.progress.mono fun r' listed => List.mem_singleton.mp listed
    cases result with
    | error error =>
      refine (safe_fail progress.live activeCalled ?_).mono fun result t' finished =>
        Handled.gone finished.handled progress below
      rw [viewCalled]
      exact RefView.blames_recorded rfl
    | ok answer =>
      refine Coro.safe_clock.mpr fun ended => ?_
      have submitted : (t₁.view r).submitted = chunkStop t.engine.config (t.view r) prompt := by
        rw [viewCalled]
        exact next.reaches
      refine safe_moveOffset progress.live activeCalled (viewCalled.symm ▸ prefilling.phase) submitted fun t₂ moved => ?_
      have whole : Progress setup (· = r) t t₂ := progress.trans moved.progress below
      cases answer with
      | none =>
        refine ⟨whole, fun r' same _ => ?_⟩
        subst same
        exact moved.advanced sameConfig chunked known next viewCalled
      | some token =>
        obtain ⟨pending, generated, unresumed, sampling⟩ := Moved.pending prefilling viewCalled moved
        refine (safe_takeToken true moved.progress.live moved.active pending (fun _ => ⟨generated, unresumed⟩)
          (moved.eosIds.trans (called.eosIds.trans eos))).mono fun result t' handled => ?_
        refine (handled.after whole below fun r' same v extended => ?_).mono fun _ _ extended => .extended extended
        exact same ▸ extended.of_same (same ▸ generated.trans prefilling.generated.symm) (same ▸ sampling)
  · rw [dif_neg nonempty]
    refine Coro.safe_bind.mpr (Coro.safe_lift.mpr ⟨.refl live, ?_⟩)
    exact not_covered_of_stalled (stalled_of_no_chunk chunked known (not_not.mp nonempty))

/-- One turn of the loop over the chunks. -/
def chunkTurn (eosIds : List TokenId) (r : Ref) : EngineM S Unit := do
  let e ← Coro.read
  match (e.sequences r).tokenized with
  | none => pure ()
  | some prompt => if e.active.contains (e.requestId r) then runChunk eosIds r prompt

theorem runChunks_cons (eosIds : List TokenId) (r : Ref) (rest : List Ref) :
    (runChunks eosIds (r :: rest) : EngineM S Unit) = chunkTurn eosIds r >>= fun _ => runChunks eosIds rest := by
  refine congrArg Coro.get (funext fun e => ?_)
  simp only [Coro.bindResult]
  cases (e.sequences r).tokenized with
  | none => rfl
  | some prompt =>
    dsimp only
    cases e.active.contains (e.requestId r) with
    | false => rfl
    | true => rfl

theorem safe_runChunks {eosIds : List TokenId} {batch : List Ref} (chunked : setup.config.prefillChunkSizeTokens ≠ 0)
    (nodup : batch.Nodup) (live : t.Live setup) (active : ∀ r ∈ batch, t.ActiveRef r)
    (prefilling : ∀ r ∈ batch, ∃ prompt, (t.view r).Prefilling setup.config setup.dimensions prompt)
    (eos : t.engine.eosIds = some eosIds) :
    SchedulerSafe setup (runChunks eosIds batch) (Handled setup (Prefilled setup) (· ∈ batch) t) t := by
  refine safe_loop (fun t r => (∃ prompt, (t.view r).Prefilling setup.config setup.dimensions prompt) ∧
    t.engine.eosIds = some eosIds) rfl (runChunks_cons eosIds) ?_ ?_ nodup live active
    fun r listed => ⟨prefilling r listed, eos⟩
  · intro t t' r r' live active progress differ pre
    exact ⟨(progress.kept r' active differ).2.symm ▸ pre.1, progress.eosIds _ pre.2⟩
  · intro t r live active pre
    obtain ⟨⟨prompt, prefilling⟩, eos⟩ := pre
    have known : (t.engine.sequences r).tokenized = some prompt := prefilling.tokenized
    refine Coro.safe_read.mpr ?_
    simp only [window_view, known]
    refine Coro.safe_ite (fun _ => safe_runChunk chunked live active prefilling eos) fun gone => ?_
    refine absurd ?_ gone
    rw [Dict.contains, show t.engine.active.get? (t.engine.requestId r) = some r from active]
    rfl

theorem safe_runPrefillChunks {batch : List Ref} (chunked : setup.config.prefillChunkSizeTokens ≠ 0)
    (some : batch ≠ []) (nodup : batch.Nodup) (live : t.Live setup) (active : ∀ r ∈ batch, t.ActiveRef r)
    (prefilling : ∀ r ∈ batch, ∃ prompt, (t.view r).Prefilling setup.config setup.dimensions prompt) :
    SchedulerSafe setup (runPrefillChunks batch) (Handled setup (Prefilled setup) (· ∈ batch) t) t := by
  have below : ∀ r ∈ batch, r < t.engine.created := fun r listed => live.sound.bound (active r listed)
  refine Coro.safe_read.mpr (Coro.safe_ite (fun _ => ?_) fun _ => ?_)
  · refine Coro.safe_bind.mpr (Coro.safe_attempt.mpr ((safe_getEosIds live some active).mono fun result t₁ learned => ?_))
    obtain ⟨progress, activeLearned, known⟩ := learned
    cases result with
    | error error =>
      exact (safe_failAll nodup progress.live activeLearned known).mono fun result t' handled => handled.gone progress below
    | ok eosIds =>
      obtain ⟨eos, noted⟩ := known
      refine (safe_runChunks chunked nodup progress.live activeLearned (fun r listed => ?_) eos).mono
        fun result t' handled => handled.after progress below fun r listed v prefilled => ?_
      · obtain ⟨prompt, before⟩ := prefilling r listed
        exact ⟨prompt, (noted r listed).prefilling before⟩
      · have story := (noted r listed).sameStory
        have sameOffset : (t₁.view r).sequence.prefillOffset = (t.view r).sequence.prefillOffset := by
          obtain ⟨records, same⟩ := (noted r listed).shape
          rw [same]
        cases prefilled with
        | extended extended => exact .extended (extended.of_same story.generated story.sampling)
        | advanced chunked prefilling offset sampling =>
          exact .advanced chunked prefilling (sameOffset ▸ offset) (sampling.trans story.sampling)
  · refine (safe_failAll nodup live active fun r listed => ?_).mono fun result t' handled => handled.gone (.refl live) below
    obtain ⟨prompt, before⟩ := prefilling r listed
    exact Or.inl before.clean

end Chunks

section Batch

theorem mem_prefillRequests {e : Engine S} {batch : List Ref} (tokenized : (e.sequences r).tokenized = some prompt)
    (listed : r ∈ batch) :
    e.requestId r ∈ (batch.filterMap (prefillRequest e)).map PrefillRequest.sequenceId := by
  refine List.mem_map.mpr ⟨⟨e.requestId r, prompt, (e.sequences r).state.sampling⟩, ?_, rfl⟩
  refine List.mem_filterMap.mpr ⟨r, listed, ?_⟩
  rw [prefillRequest, tokenized]
  rfl

/-- A batch whose prompts are known has one request for each sequence. -/
theorem prefillGuard_of_batch {batch : List Ref} (nodup : batch.Nodup)
    (unchunked : t.engine.config.prefillChunkSizeTokens = 0) (active : ∀ r ∈ batch, t.ActiveRef r)
    (prefilling : ∀ r ∈ batch, ∃ prompt,
      (t.view r).Prefilling t.engine.config t.engine.kvAllocator.dimensions prompt) :
    t.PrefillGuard batch (batch.filterMap (prefillRequest t.engine)) := by
  refine ⟨nodup, unchunked, ?_⟩
  clear nodup
  induction batch with
  | nil => exact .nil
  | cons r rest ih =>
    obtain ⟨prompt, here⟩ := prefilling r (List.mem_cons_self ..)
    have tokenized : (t.engine.sequences r).tokenized = some prompt := here.tokenized
    have request : prefillRequest t.engine r =
        some ⟨t.engine.requestId r, prompt, (t.engine.sequences r).state.sampling⟩ := by
      rw [prefillRequest, tokenized]
      rfl
    rw [List.filterMap_cons_some request]
    refine .cons ⟨active r (List.mem_cons_self ..), here, rfl⟩ (ih (fun r' listed => active r' (List.mem_cons_of_mem r listed))
      fun r' listed => prefilling r' (List.mem_cons_of_mem r listed))

theorem Prefilled.of_resting {v v₁ v' : RefView S} (resting : Resting setup v v₁) (unasked : v.generated = [])
    (prefilled : Prefilled setup v₁ v') : Prefilled setup v v' := by
  obtain ⟨prompt, prefilling⟩ := resting.prefilling
  have generated : v₁.generated = v.generated := prefilling.generated.trans unasked.symm
  cases prefilled with
  | extended extended => exact .extended (extended.of_same generated resting.sampling)
  | advanced chunked later offset sampling =>
    exact .advanced chunked later (resting.offset ▸ offset) (sampling.trans resting.sampling)

/-- The sequences in the batch, and those that go on without it. -/
theorem Collected.handled {ids : List String} {batch : List Ref} {t₁ : Shared backend} {result : Except Raised Unit}
    (waits : ∀ r ∈ refs t ids, Waiting setup (t.view r)) (collected : Collected setup t ids (.ok batch) t₁)
    (handled : Handled setup (Prefilled setup) (· ∈ batch) t₁ result t') (below : ∀ r ∈ refs t ids, r < t.engine.created) :
    Handled setup (Prefilled setup) (· ∈ refs t ids) t result t' := by
  obtain ⟨progress, nodup, joined, left⟩ := collected
  have inside : ∀ r ∈ batch, r ∈ refs t ids := fun r listed => (joined r listed).1
  refine ⟨progress.trans (handled.1.mono inside) below, ?_⟩
  have rest := handled.2
  cases result with
  | error => exact rest
  | ok =>
    intro r listed still
    have unasked : (t.view r).generated = [] := by
      rcases waits r listed with fresh | ⟨prompt, prefilling⟩
      · exact fresh.generated
      · exact prefilling.generated
    by_cases inBatch : r ∈ batch
    · exact (rest r inBatch still).of_resting (joined r inBatch).2.2 unasked
    · rcases handled.1.joined r still with before | ⟨newer, -⟩
      · rw [(handled.1.kept r before inBatch).2]
        exact .extended (left r listed inBatch before)
      · exact absurd (below r listed) (Nat.not_lt_of_le (progress.created.trans newer))

/-- The sequences of a prefill decision get their first token, or more of
their prompts is submitted, or they end. -/
theorem safe_runPrefill (live : t.Live setup) {ids : List String} (nodup : ids.Nodup)
    (all : ∀ id ∈ ids, ∃ r, t.engine.active.get? id = some r ∧ Waiting setup (t.view r)) :
    SchedulerSafe setup (runPrefill ids) (Handled setup (Prefilled setup) (· ∈ refs t ids) t) t := by
  have waits : ∀ r ∈ refs t ids, Waiting setup (t.view r) := by
    intro r listed
    obtain ⟨id, member, found⟩ := List.mem_filterMap.mp listed
    obtain ⟨r', found', waits⟩ := all id member
    exact Option.some.inj (found'.symm.trans found) ▸ waits
  have below : ∀ r ∈ refs t ids, r < t.engine.created := by
    intro r listed
    obtain ⟨id, member, found⟩ := List.mem_filterMap.mp listed
    exact (live.sound.named id r found).2
  refine Coro.safe_bind.mpr ((safe_collect nodup live all).mono fun result t₁ collected => ?_)
  cases result with
  | error error => exact collected
  | ok batch =>
    have whole : ∀ {result : Except Raised Unit} {t' : Shared backend},
        Handled setup (Prefilled setup) (· ∈ batch) t₁ result t' →
        Handled setup (Prefilled setup) (· ∈ refs t ids) t result t' :=
      fun handled => collected.handled waits handled below
    obtain ⟨progress, nodupBatch, joined, -⟩ := collected
    have active : ∀ r ∈ batch, t₁.ActiveRef r := fun r listed => (joined r listed).2.1
    have prefilling : ∀ r ∈ batch, ∃ prompt, (t₁.view r).Prefilling setup.config setup.dimensions prompt :=
      fun r listed => (joined r listed).2.2.prefilling
    refine Coro.safe_ite (fun some => ?_) fun none => ?_
    · refine Coro.safe_read.mpr (Coro.safe_ite (fun chunked => ?_) fun unchunked => ?_)
      · rw [window_view, progress.live.sound.config] at chunked
        exact (safe_runPrefillChunks chunked some nodupBatch progress.live active prefilling).mono
          fun result t' handled => whole handled
      · have guard : t₁.PrefillGuard batch (batch.filterMap (prefillRequest t₁.engine)) := by
          refine prefillGuard_of_batch nodupBatch (not_not.mp unchunked) active fun r listed => ?_
          rw [progress.live.sound.config, progress.live.sound.dimensions]
          exact prefilling r listed
        have named : ∀ r ∈ batch, t₁.engine.requestId r ∈
            (batch.filterMap (prefillRequest t₁.engine)).map PrefillRequest.sequenceId := by
          intro r listed
          obtain ⟨prompt, known⟩ := prefilling r listed
          exact mem_prefillRequests known.tokenized listed
        have awaiting : ∀ r ∈ batch, (t₁.view r).Awaiting setup.dimensions := by
          intro r listed
          obtain ⟨prompt, known⟩ := prefilling r listed
          exact known.awaiting
        have first : ∀ r ∈ batch, true = true → (t₁.view r).generated = [] ∧ (t₁.view r).Unresumed := by
          intro r listed _
          obtain ⟨prompt, known⟩ := prefilling r listed
          exact ⟨known.generated, RefView.unresumed_of_unanswered known.answered known.clean⟩
        refine Coro.safe_ite (fun _ => ?_) fun _ => ?_
        · exact (safe_runBatch (.prefillBatch _) (fun size e => .countPrefill size)
            (fun elapsed r e => .addPrefillTime r elapsed) some nodupBatch progress.live (.prefillBatch guard) awaiting named
            first).mono fun result t' handled => whole (handled.mono fun _ _ extended => .extended extended)
        · exact (safe_runBatch (.prefillFallback _) (fun size e => .countPrefill size)
            (fun elapsed r e => .addPrefillTime r elapsed) some nodupBatch progress.live (.prefillFallback guard) awaiting
            named first).mono fun result t' handled => whole (handled.mono fun _ _ extended => .extended extended)
    · rw [not_not.mp none] at whole
      exact whole (.none progress.live fun r => List.not_mem_nil)

end Batch

end ServingPlatform.TokenGenerationEngine
