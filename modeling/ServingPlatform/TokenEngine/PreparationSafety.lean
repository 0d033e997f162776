import ServingPlatform.TokenEngine.TurnSafety

namespace ServingPlatform.TokenGenerationEngine

open Shared

variable {S : Type} {backend : InferenceBackend S} {setup : EngineSetup} {t t' : Shared backend} {r : Ref} {α β : Type}

/-- A part of one sequence's turn that may raise: the exception is then one
the sequence may be failed with. -/
def Tried (setup : EngineSetup) (r : Ref) (Q : α → Shared backend → Prop) (t : Shared backend) (result : Except Raised α)
    (t' : Shared backend) : Prop :=
  Progress setup (· = r) t t' ∧ match result with
    | .ok a => Q a t'
    | .error error => t'.ActiveRef r ∧ (t'.view r).Blames error

theorem Tried.after {Q : α → Shared backend → Prop} {t₁ : Shared backend} {result : Except Raised α}
    (tried : Tried setup r Q t₁ result t') (progress : Progress setup (· = r) t t₁) (below : r < t.engine.created) :
    Tried setup r Q t result t' :=
  ⟨progress.trans tried.1 fun _ same => same ▸ below, tried.2⟩

/-- One part after the other. -/
theorem safe_tried {c : EngineM S α} {f : α → EngineM S β} {Q : α → Shared backend → Prop} {R : β → Shared backend → Prop}
    (below : r < t.engine.created) (first : SchedulerSafe setup c (Tried setup r Q t) t)
    (next : ∀ a t₁, Progress setup (· = r) t t₁ → Q a t₁ → SchedulerSafe setup (f a) (Tried setup r R t₁) t₁) :
    SchedulerSafe setup (c >>= f) (Tried setup r R t) t := by
  refine Coro.safe_bind.mpr (first.mono fun result t₁ tried => ?_)
  cases result with
  | error error => exact tried
  | ok a => exact (next a t₁ tried.1 tried.2).mono fun result t' later => later.after tried.1 below

/-- An update that nothing depends on, then the rest of the turn. -/
theorem safe_tried_quiet {f : Engine S → Engine S} {k : Unit → EngineM S β} {R : β → Shared backend → Prop}
    (live : t.Live setup) (active : t.ActiveRef r) (same : t.engine.Quiet (f t.engine))
    (next : ∀ t₁, Rely setup t t₁ → t₁.ActiveRef r → t₁.view r = t.view r →
      SchedulerSafe setup (k ()) (Tried setup r R t₁) t₁) :
    SchedulerSafe setup (Coro.modify f >>= k) (Tried setup r R t) t := by
  refine safe_quiet live same fun t₁ rely => ?_
  refine (next t₁ rely (rely.kept' active).1 (rely.kept' active).2).mono fun result t' later => ?_
  exact later.after (rely.toProgress.mono fun _ never => never.elim) (live.sound.bound active)

/-- What a call for the sequence answers, or the exception it met. -/
theorem safe_tried_call {method : BackendMethod S} (release : (BackendCall.direct method).isRelease = false)
    (live : t.Live setup) (guard : t.CallGuard (.direct method) [r]) :
    SchedulerSafe setup (runAsync method [r])
      (Tried setup r (fun answer t₁ => Called setup t (.direct method) [r] (.ok answer) t₁) t) t := by
  refine safe_call live (List.cons_ne_nil _ _) guard fun result t₁ called => ?_
  have here := called.views r (List.mem_singleton_self r)
  refine ⟨called.progress.mono fun r' listed => List.mem_singleton.mp listed, ?_⟩
  cases result with
  | ok answer => exact called
  | error error =>
    refine ⟨here.1, ?_⟩
    rw [here.2]
    refine RefView.blames_recorded ?_
    simp only [CallRecord.errorFor, release, Bool.false_eq_true, if_false]

/-- The rule of atomic updates that may raise. -/
theorem safe_synced {f : Engine S → Except Raised α × Engine S} {result : Except Raised α} {e : Engine S}
    {Q : Except Raised α → Shared backend → Prop} (run : f t.engine = (result, e)) (action : Action t (t.withEngine e))
    (next : Q result (t.withEngine e)) : SchedulerSafe setup (Coro.sync f) Q t := by
  have after : (f (window.view t)).2 = e := congrArg Prod.snd run
  have answer : (f (window.view t)).1 = result := congrArg Prod.fst run
  refine Coro.safe_sync.mpr ⟨?_, ?_⟩
  · rw [after]
    exact action
  · rw [answer, after]
    exact next

section Tokenize

/-- The sequence's turn to be prefilled has come. -/
def Waiting (setup : EngineSetup) (v : RefView S) : Prop :=
  v.Fresh ∨ ∃ prompt, v.Prefilling setup.config setup.dimensions prompt

/-- The prompt is known and its blocks are reserved. -/
structure Prompted (setup : EngineSetup) (t : Shared backend) (r : Ref) (prompt : TokenizedPrompt) (t' : Shared backend) :
    Prop where
  active : t'.ActiveRef r
  promptable : (t'.view r).Promptable setup.config setup.dimensions prompt
  phase : (t'.view r).phase = .queued ∨ (t'.view r).phase = .prefill
  offset : (t'.view r).sequence.prefillOffset = (t.view r).sequence.prefillOffset
  sampling : (t'.view r).sequence.state.sampling = (t.view r).sequence.state.sampling

/-- The prompt was just tokenized. -/
structure Tokenized (v : RefView S) (prompt : TokenizedPrompt) : Prop where
  phase : v.phase = .queued
  tokenized : v.sequence.tokenized = some prompt
  promptTokenIds : v.sequence.state.promptTokenIds = prompt.tokenIds
  backendCreated : v.sequence.backendCreated = false
  generated : v.generated = []
  answered : v.answered = []
  clean : v.Clean
  submitted : v.submitted = 0
  prefillOffset : v.sequence.prefillOffset = 0

theorem Tokenized.of_fresh {v : RefView S} (fresh : v.Fresh) {prompt : TokenizedPrompt} {call : String}
    {sequence : ScheduledSequence} (same : sequence = { v.sequence with
      tokenized := some prompt
      state := { v.sequence.state with promptTokenIds := prompt.tokenIds } }) :
    Tokenized { v.recorded ⟨.direct (.tokenize call), [r], .ok prompt⟩ with sequence } prompt := by
  subst same
  have answered : v.answered = [] := by rw [RefView.answered, fresh.records]; rfl
  have submitted : v.submitted = 0 := by rw [RefView.submitted, fresh.records]; rfl
  refine ⟨fresh.phase, rfl, rfl, fresh.backendCreated, fresh.generated, ?_, ?_, submitted, fresh.prefillOffset⟩
  · exact (List.append_nil _).trans answered
  · intro c member
    rcases List.mem_cons.mp member with rfl | earlier
    · rfl
    · rw [fresh.records] at earlier
      cases earlier

theorem Tokenized.promptable {v : RefView S} {prompt : TokenizedPrompt} (tokenized : Tokenized v prompt)
    {blocks : List BlockId} {a : KVBlockAllocator} (dimensions : a.dimensions = setup.dimensions)
    (needed : a.blocksForTokens (prompt.tokenIds.length + v.limit : Nat) = .ok blocks.length) :
    { v with table := some blocks : RefView S }.Promptable setup.config setup.dimensions prompt where
  tokenized := tokenized.tokenized
  promptTokenIds := tokenized.promptTokenIds
  sized := ⟨blocks, rfl, a, dimensions, needed⟩
  generated := tokenized.generated
  answered := tokenized.answered
  clean := tokenized.clean
  submitted := tokenized.submitted.trans tokenized.prefillOffset.symm
  whole _ := tokenized.prefillOffset
  unfinished := by
    refine Or.inl ?_
    show v.sequence.prefillOffset < _
    rw [tokenized.prefillOffset]
    exact List.length_pos_iff.mpr prompt.nonempty

theorem Tried.resized {prompt : TokenizedPrompt} {result : Except Raised Unit} {e : Engine S} (live : t.Live setup)
    (active : t.ActiveRef r) (tokenized : Tokenized (t.view r) prompt)
    (run : t.engine.resizeReservation r prompt = (result, e)) :
    Tried setup r (fun _ t' => Prompted setup t r prompt t') t result (t.withEngine e) := by
  obtain ⟨progress, activeResized, table, resized, sized⟩ := Progress.resized live active prompt
  rw [run] at progress activeResized resized sized
  cases result with
  | error error =>
    refine ⟨progress, activeResized, Or.inl ?_⟩
    rw [resized]
    exact tokenized.clean
  | ok =>
    obtain ⟨blocks, owned, needed⟩ := sized rfl
    subst owned
    have total : t.engine.totalTokens r prompt = prompt.tokenIds.length + (t.view r).limit := rfl
    rw [total] at needed
    refine ⟨progress, activeResized, ?_, Or.inl ?_, ?_, ?_⟩
    · rw [resized]
      exact tokenized.promptable live.sound.dimensions needed
    · rw [resized]
      exact tokenized.phase
    · rw [resized]
    · rw [resized]

/-- Resizing the reservation gives the sequence the blocks for its prompt. -/
theorem safe_resize {prompt : TokenizedPrompt} (live : t.Live setup) (active : t.ActiveRef r)
    (tokenized : Tokenized (t.view r) prompt) :
    SchedulerSafe setup (do
      Coro.sync fun e => e.resizeReservation r prompt
      return prompt) (Tried setup r (Prompted setup t r) t) t := by
  have action : Action t (t.withEngine (t.engine.resizeReservation r prompt).2) :=
    .resized active tokenized.backendCreated
  cases run : t.engine.resizeReservation r prompt with
  | mk result e =>
    have tried := Tried.resized live active tokenized run
    rw [run] at action
    refine Coro.safe_bind.mpr (safe_synced run action ?_)
    cases result with
    | error => exact tried
    | ok => exact tried

theorem safe_tokenizePrompt (live : t.Live setup) (active : t.ActiveRef r) (waits : Waiting setup (t.view r)) :
    SchedulerSafe setup (tokenizePrompt r) (Tried setup r (Prompted setup t r) t) t := by
  have below := live.sound.bound active
  refine Coro.safe_read.mpr ?_
  rcases waits with fresh | ⟨prompt, prefilling⟩
  · have unknown : (t.engine.sequences r).tokenized = none := fresh.tokenized
    simp only [Shared.window, unknown]
    refine safe_tried below (safe_tried_call rfl live (.tokenize active fresh)) fun prompt t₁ progress called => ?_
    obtain ⟨activeCalled, viewCalled⟩ := called.views r (List.mem_singleton_self r)
    have action : Action t₁ (t₁.withEngine (t₁.engine.setTokenized r prompt)) := by
      refine .tokenized activeCalled ?_ ?_ ?_ ?_
      · rw [viewCalled]
        exact fresh.phase
      · rw [viewCalled]
        exact fresh.tokenized
      · rw [viewCalled]
        exact fresh.generated
      · rw [viewCalled]
        exact fresh.backendCreated
    refine safe_update progress.live activeCalled action rfl fun t₂ updated => ?_
    have same : (t₁.engine.sequences r).vital = (t.view r).sequence := congrArg RefView.sequence viewCalled
    have tokenized : Tokenized (t₂.view r) prompt := by
      rw [updated.view, viewCalled]
      exact .of_fresh fresh (by rw [← same]; rfl)
    have offset : (t₂.view r).sequence.prefillOffset = (t.view r).sequence.prefillOffset :=
      tokenized.prefillOffset.trans fresh.prefillOffset.symm
    have sampling : (t₂.view r).sequence.state.sampling = (t.view r).sequence.state.sampling := by
      rw [updated.view, ← same]
      rfl
    refine ((safe_resize updated.progress.live updated.active tokenized).mono fun result t' tried => ?_)
    refine Tried.after ⟨tried.1, ?_⟩ updated.progress (progress.live.sound.bound activeCalled)
    have rest := tried.2
    cases result with
    | error => exact rest
    | ok prompt => exact ⟨rest.active, rest.promptable, rest.phase, rest.offset.trans offset, rest.sampling.trans sampling⟩
  · have known : (t.engine.sequences r).tokenized = some prompt := prefilling.tokenized
    simp only [Shared.window, known]
    exact ⟨.refl live, active, prefilling.toPromptable, Or.inr prefilling.phase, rfl, rfl⟩

end Tokenize

section Reuse

variable {prompt : TokenizedPrompt} {found : PrefixMatch S}

/-- The match is of an entry the prefix cache holds now. -/
structure Cached (t : Shared backend) (tokenIds : List TokenId) (found : PrefixMatch S) : Prop where
  isPrefix : found.tokenIds <+: tokenIds
  exact_iff : found.exact = true ↔ found.tokenIds = tokenIds
  entry : ∃ entry, t.engine.prefixCache.entries.get? found.tokenIds = some entry ∧
    entry.backendState = found.backendState
  longest : ∀ key, key <+: tokenIds → t.engine.prefixCache.entries.get? key ≠ none → key.length ≤ found.matchedTokens

theorem safe_findPrefix {tokenIds : List TokenId} (live : t.Live setup) (active : t.ActiveRef r)
    (clean : (t.view r).Clean) :
    SchedulerSafe setup (findPrefix tokenIds)
      (Tried setup r (fun found t' => t'.ActiveRef r ∧ t'.view r = t.view r ∧
        ∀ hit, found = some hit → Cached t' tokenIds hit) t) t := by
  refine Coro.safe_read.mpr (Coro.safe_ite (fun _ => ?_) fun _ => ?_)
  · have action : Action t (t.withEngine (t.engine.lookupPrefix tokenIds !t.engine.config.capabilities.resumePrefix).2) :=
      .lookup
    refine safe_synced rfl action ?_
    have progress : Progress setup (· = r) t
        (t.withEngine (t.engine.lookupPrefix tokenIds !t.engine.config.capabilities.resumePrefix).2) :=
      .of_same live (action.sound live.sound) rfl rfl rfl rfl (fun _ known => known) rfl
    refine ⟨progress, ?_⟩
    split
    · rename_i answer run
      refine ⟨active, rfl, fun hit same => ?_⟩
      rw [same] at run
      obtain ⟨isPrefix, exact_iff, entry, longest⟩ := live.sound.cache.longestPrefix_some run
      exact ⟨isPrefix, exact_iff, entry, longest⟩
    · exact ⟨active, Or.inl clean⟩
  · exact ⟨.refl live, active, rfl, fun hit same => by cases same⟩

/-- The backend has started the sequence from a cached prefix. -/
structure Started (setup : EngineSetup) (t : Shared backend) (r : Ref) (token : GeneratedToken) (t' : Shared backend) :
    Prop where
  active : t'.ActiveRef r
  pending : (t'.view r).Pending setup.dimensions token
  generated : (t'.view r).generated = (t.view r).generated
  sampling : (t'.view r).sequence.state.sampling = (t.view r).sequence.state.sampling

theorem Started.of_called {method : BackendMethod S} {answer : method.Answer} {token : GeneratedToken}
    (prefilling : (t.view r).Prefilling setup.config setup.dimensions prompt)
    (called : Called setup t (.direct method) [r] (.ok answer) t')
    (returned : ∀ id, (BackendCall.direct method).tokenIn id answer = some token)
    (harmless : ∀ id, (BackendCall.direct method).failureIn id answer = none) : Started setup t r token t' := by
  obtain ⟨active, view⟩ := called.views r (List.mem_singleton_self r)
  refine ⟨active, ?_, ?_, ?_⟩
  · rw [view]
    exact prefilling.awaiting.pending (returned _) (harmless _)
  · rw [view]
    rfl
  · rw [view]
    rfl

theorem safe_startFromPrefix (live : t.Live setup) (active : t.ActiveRef r)
    (prefilling : (t.view r).Prefilling setup.config setup.dimensions prompt) (cached : Cached t prompt.tokenIds found) :
    SchedulerSafe setup (startFromPrefix r prompt found) (Tried setup r (Started setup t r) t) t := by
  have guarded := prefilling
  rw [← live.sound.config, ← live.sound.dimensions] at guarded
  obtain ⟨entry, held, state⟩ := cached.entry
  refine Coro.safe_read.mpr (Coro.safe_ite (fun whole => ?_) fun part => ?_)
  · rw [cached.exact_iff.mp whole] at held
    rw [← state]
    refine (safe_tried_call rfl live (.restorePrefix active guarded held)).mono fun result t' tried => ?_
    refine ⟨tried.1, ?_⟩
    have rest := tried.2
    cases result with
    | error => exact rest
    | ok token => exact .of_called prefilling rest (fun _ => rfl) fun _ => rfl
  · have split : prompt.tokenIds = found.tokenIds ++ prompt.tokenIds.drop found.matchedTokens := by
      obtain ⟨rest, whole⟩ := cached.isPrefix
      rw [← whole, PrefixMatch.matchedTokens, List.drop_left]
    unfold TokenizedPrompt.ofTokens
    by_cases nonempty : prompt.tokenIds.drop found.matchedTokens ≠ []
    · rw [dif_pos nonempty, ← state]
      refine Coro.safe_bind.mpr (Coro.safe_lift.mpr ?_)
      refine (safe_tried_call rfl live (.resumePrefix active guarded held split cached.longest)).mono fun result t' tried => ?_
      refine ⟨tried.1, ?_⟩
      have rest := tried.2
      cases result with
      | error => exact rest
      | ok token => exact .of_called prefilling rest (fun _ => rfl) fun _ => rfl
    · rw [dif_neg nonempty]
      exact Coro.safe_bind.mpr (Coro.safe_lift.mpr ⟨.refl live, active, Or.inl prefilling.clean⟩)

/-- The sequence goes on with a token, unless it is over. -/
def GoesOn (setup : EngineSetup) (t : Shared backend) (r : Ref) (_ : Unit) (t' : Shared backend) : Prop :=
  t'.ActiveRef r → (t.view r).Extended setup.dimensions (t'.view r)

theorem GoesOn.of_same {t₁ : Shared backend} {u : Unit} (goesOn : GoesOn setup t₁ r u t')
    (generated : (t₁.view r).generated = (t.view r).generated)
    (sampling : (t₁.view r).sequence.state.sampling = (t.view r).sequence.state.sampling) : GoesOn setup t r u t' :=
  fun active => (goesOn active).of_same generated sampling

/-- The terminal tokens are learned if need be, and the token is accepted. -/
theorem safe_learnAndAccept {token : GeneratedToken} (live : t.Live setup) (active : t.ActiveRef r)
    (pending : (t.view r).Pending setup.dimensions token)
    (cached : (t.view r).sequence.cacheTokens = token.cacheTokens) :
    SchedulerSafe setup (do
      let eosIds ← getEosIds [r]
      acceptToken r token eosIds) (Tried setup r (GoesOn setup t r) t) t := by
  have below := live.sound.bound active
  have alone : ∀ r' ∈ [r], t.ActiveRef r' := fun r' listed => List.mem_singleton.mp listed ▸ active
  have here := List.mem_singleton_self r
  refine Coro.safe_bind.mpr ((safe_getEosIds live (List.cons_ne_nil _ _) alone).mono fun result t₁ learned => ?_)
  have progress : Progress setup (· = r) t t₁ := learned.1.mono fun r' listed => List.mem_singleton.mp listed
  obtain ⟨-, activeLearned, known⟩ := learned
  cases result with
  | error error => exact ⟨progress, activeLearned r here, known r here⟩
  | ok eosIds =>
    obtain ⟨eos, noted⟩ := known
    have silent := noted r here
    have cachedLearned : (t₁.view r).sequence.cacheTokens = token.cacheTokens := by
      obtain ⟨records, same⟩ := silent.shape
      rw [same]
      exact cached
    refine (safe_acceptToken progress.live (activeLearned r here) (silent.pending pending) eos cachedLearned).mono
      fun result t' accepted => Tried.after ⟨accepted.1, ?_⟩ progress below
    have rest := accepted.2
    cases result with
    | error => exact rest.2
    | ok => exact fun still => (rest still).of_same silent.sameStory.generated silent.sameStory.sampling

theorem safe_reusePrefix (live : t.Live setup) (active : t.ActiveRef r)
    (prefilling : (t.view r).Prefilling setup.config setup.dimensions prompt) (cached : Cached t prompt.tokenIds found) :
    SchedulerSafe setup (reusePrefix r prompt found) (Tried setup r (GoesOn setup t r) t) t := by
  have below := live.sound.bound active
  refine Coro.safe_clock.mpr fun started => ?_
  refine safe_tried below (safe_startFromPrefix live active prefilling cached) fun token t₁ progress began => ?_
  refine Coro.safe_clock.mpr fun ended => ?_
  refine safe_tried_quiet progress.live began.active (.addPrefillTime r _) fun t₂ rely activeTimed sameView => ?_
  have pendingTimed : (t₂.view r).Pending setup.dimensions token := sameView.symm ▸ began.pending
  have first : (t₂.view r).generated = [] := by
    rw [sameView, began.generated]
    exact prefilling.generated
  have noting := pendingTimed
  rw [← rely.live.sound.dimensions] at noting
  refine safe_update rely.live activeTimed (.cached activeTimed noting) rfl fun t₃ noted => ?_
  have belowTimed := rely.live.sound.bound activeTimed
  have generated : (t₃.view r).generated = (t.view r).generated := by
    rw [noted.view]
    exact (congrArg RefView.generated sameView).trans began.generated
  have sampling : (t₃.view r).sequence.state.sampling = (t.view r).sequence.state.sampling := by
    rw [noted.view]
    exact (congrArg (fun v => v.sequence.state.sampling) sameView).trans began.sampling
  have pending : (t₃.view r).Pending setup.dimensions token := by
    rw [noted.view]
    exact ⟨pendingTimed.prompted, pendingTimed.backendCreated, pendingTimed.answered, pendingTimed.room,
      pendingTimed.clean, pendingTimed.phase⟩
  have told : (t₃.view r).sequence.cacheTokens = token.cacheTokens := by
    rw [noted.view]
    rfl
  refine Coro.Safe.mono ?_ fun result t' (tried : Tried setup r (GoesOn setup t r) t₃ result t') =>
    tried.after noted.progress belowTimed
  have goesOn : ∀ {t₄ : Shared backend}, (t₄.view r).generated = (t₃.view r).generated →
      (t₄.view r).sequence.state.sampling = (t₃.view r).sequence.state.sampling → t₄.Live setup → t₄.ActiveRef r →
      (t₄.view r).Pending setup.dimensions token → (t₄.view r).sequence.cacheTokens = token.cacheTokens →
      SchedulerSafe setup (do
        let eosIds ← getEosIds [r]
        acceptToken r token eosIds) (Tried setup r (GoesOn setup t r) t₄) t₄ := by
    intro t₄ sameTokens sameSampling live active pending told
    refine (safe_learnAndAccept live active pending told).mono fun result t' tried => ⟨tried.1, ?_⟩
    have rest := tried.2
    cases result with
    | error => exact rest
    | ok => exact GoesOn.of_same rest (sameTokens.trans generated) (sameSampling.trans sampling)
  refine Coro.safe_ite (fun _ => ?_) fun _ => goesOn rfl rfl noted.progress.live noted.active pending told
  have fresh : (t₃.view r).generated = [] := generated.trans prefilling.generated
  have stores : SchedulerSafe setup (storePrefix r) (Tried setup r (fun _ t' => t'.ActiveRef r ∧ (t₃.view r).Noted (t'.view r))
      t₃) t₃ := by
    refine (safe_storePrefix noted.progress.live noted.active pending fresh).mono fun result t' stored => ⟨stored.1, ?_⟩
    obtain ⟨-, activeStored, rest⟩ := stored
    cases result with
    | error => exact ⟨activeStored, rest.1⟩
    | ok => exact ⟨activeStored, rest⟩
  refine safe_tried (noted.progress.live.sound.bound noted.active) stores fun _ t₄ progress kept => ?_
  obtain ⟨activeStored, silent⟩ := kept
  refine goesOn silent.sameStory.generated silent.sameStory.sampling progress.live activeStored (silent.pending pending) ?_
  obtain ⟨records, same⟩ := silent.shape
  rw [same]
  exact told

end Reuse

section Prepare

/-- The prompt's submission goes on where it was. -/
structure Resting (setup : EngineSetup) (v v' : RefView S) : Prop where
  prefilling : ∃ prompt, v'.Prefilling setup.config setup.dimensions prompt
  offset : v'.sequence.prefillOffset = v.sequence.prefillOffset
  sampling : v'.sequence.state.sampling = v.sequence.state.sampling

/-- What a sequence's turn in the first loop leads to: it joins the batch, or goes on without it. -/
def Turned (setup : EngineSetup) (t : Shared backend) (r : Ref) (joins : Bool) (t' : Shared backend) : Prop :=
  if joins then t'.ActiveRef r ∧ Resting setup (t.view r) (t'.view r) else GoesOn setup t r () t'

theorem safe_prepare (live : t.Live setup) (active : t.ActiveRef r) (waits : Waiting setup (t.view r)) :
    SchedulerSafe setup (prepare r) (Tried setup r (Turned setup t r) t) t := by
  have below := live.sound.bound active
  have unasked : (t.view r).generated = [] := by
    rcases waits with fresh | ⟨prompt, prefilling⟩
    · exact fresh.generated
    · exact prefilling.generated
  refine safe_tried below (safe_tokenizePrompt live active waits) fun prompt t₁ progress prompted => ?_
  have belowPrompted := progress.live.sound.bound prompted.active
  have promptable := prompted.promptable
  rw [← progress.live.sound.config, ← progress.live.sound.dimensions] at promptable
  refine safe_update progress.live prompted.active (.beginPrefill prompted.active progress.live.running prompted.phase
    promptable) rfl fun t₂ begun => ?_
  refine Coro.Safe.mono ?_ fun result t' (tried : Tried setup r (Turned setup t r) t₂ result t') =>
    tried.after begun.progress belowPrompted
  have prefilling : (t₂.view r).Prefilling setup.config setup.dimensions prompt := by
    rw [begun.view]
    have known := prompted.promptable
    exact ⟨⟨known.tokenized, known.promptTokenIds, known.sized, known.generated, known.answered, known.clean,
      known.submitted, known.whole, known.unfinished⟩, rfl, rfl⟩
  have offset : (t₂.view r).sequence.prefillOffset = (t.view r).sequence.prefillOffset := by
    rw [begun.view]
    exact prompted.offset
  have sampling : (t₂.view r).sequence.state.sampling = (t.view r).sequence.state.sampling := by
    rw [begun.view]
    exact prompted.sampling
  refine safe_tried (begun.progress.live.sound.bound begun.active)
    (safe_findPrefix begun.progress.live begun.active prefilling.clean) fun found t₃ progress looked => ?_
  obtain ⟨activeFound, sameView, cached⟩ := looked
  cases found with
  | none =>
    refine ⟨.refl progress.live, activeFound, ?_⟩
    rw [sameView]
    exact ⟨⟨prompt, prefilling⟩, offset, sampling⟩
  | some hit =>
    have belowFound := progress.live.sound.bound activeFound
    refine safe_tried belowFound (safe_reusePrefix progress.live activeFound (sameView.symm ▸ prefilling) (cached hit rfl))
      fun _ t₄ later goesOn => ⟨.refl later.live, ?_⟩
    refine GoesOn.of_same goesOn ?_ ?_
    · rw [sameView, unasked]
      exact prefilling.generated
    · rw [sameView]
      exact sampling

end Prepare

end ServingPlatform.TokenGenerationEngine
