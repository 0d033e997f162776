import ServingPlatform.TokenEngine.AcceptanceSafety

namespace ServingPlatform.TokenGenerationEngine

open Shared

variable {S : Type} {backend : InferenceBackend S} {setup : EngineSetup} {t t' : Shared backend} {r : Ref}
  {P : RefView S → RefView S → Prop}

/-- The sequences in `R` were worked on. Those still active have moved along
`P`; only what no run covers raises. -/
def Handled (setup : EngineSetup) (P : RefView S → RefView S → Prop) (R : Ref → Prop) (t : Shared backend)
    (result : Except Raised Unit) (t' : Shared backend) : Prop :=
  Progress setup R t t' ∧ match result with
    | .ok () => ∀ r, R r → t'.ActiveRef r → P (t.view r) (t'.view r)
    | .error _ => ¬ Covered t'.log

theorem Handled.mono {P' : RefView S → RefView S → Prop} {R : Ref → Prop} {result : Except Raised Unit}
    (handled : Handled setup P R t result t') (weaker : ∀ v v', P v v' → P' v v') : Handled setup P' R t result t' := by
  refine ⟨handled.1, ?_⟩
  have rest := handled.2
  cases result with
  | ok => exact fun r inside active => weaker _ _ (rest r inside active)
  | error => exact rest

/-- What was done to the sequences before they were worked on does not count. -/
theorem Handled.after {R : Ref → Prop} {t₁ : Shared backend} {result : Except Raised Unit}
    (handled : Handled setup P R t₁ result t') (progress : Progress setup R t t₁)
    (below : ∀ r, R r → r < t.engine.created)
    (from_ : ∀ r, R r → ∀ v, P (t₁.view r) v → P (t.view r) v) : Handled setup P R t result t' := by
  refine ⟨progress.trans handled.1 below, ?_⟩
  have rest := handled.2
  cases result with
  | ok => exact fun r inside active => from_ r inside _ (rest r inside active)
  | error => exact rest

/-- Nothing that was worked on is left. -/
theorem Handled.gone {R : Ref → Prop} {t₁ : Shared backend} {result : Except Raised Unit}
    (handled : Handled setup (fun _ _ => False) R t₁ result t') (progress : Progress setup R t t₁)
    (below : ∀ r, R r → r < t.engine.created) : Handled setup P R t result t' :=
  (handled.after progress below fun _ _ _ none => none).mono fun _ _ none => none.elim

theorem Finished.handled {result : Except Raised Unit} (finished : Finished setup t r result t') :
    Handled setup P (· = r) t result t' := by
  refine ⟨finished.1, ?_⟩
  have rest := finished.2
  cases result with
  | ok => exact fun r' same active => absurd (same ▸ active) rest
  | error => exact rest.1

theorem Accepted.handled {result : Except Raised Unit} (accepted : Accepted setup t r result t') :
    Handled setup (·.Extended setup.dimensions) (· = r) t result t' := by
  refine ⟨accepted.1, ?_⟩
  have rest := accepted.2
  cases result with
  | ok => exact fun r' same active => same ▸ rest (same ▸ active)
  | error => exact rest.1

theorem Handled.none (live : t.Live setup) {R : Ref → Prop} (nothing : ∀ r, ¬ R r) : Handled setup P R t (.ok ()) t :=
  ⟨.refl live, fun r inside => absurd inside (nothing r)⟩

/-- One sequence is worked on, then others. -/
theorem Handled.cons {t₁ : Shared backend} {result : Except Raised Unit} {rest : List Ref} (live : t.Live setup)
    (active : ∀ r' ∈ r :: rest, t.ActiveRef r') (apart : r ∉ rest) (first : Handled setup P (· = r) t (.ok ()) t₁)
    (second : Handled setup P (· ∈ rest) t₁ result t') : Handled setup P (· ∈ r :: rest) t result t' := by
  have below : ∀ r' ∈ r :: rest, r' < t.engine.created := fun r' listed => live.sound.bound (active r' listed)
  have begun : Progress setup (· ∈ r :: rest) t t₁ := first.1.mono fun r' same => same ▸ List.mem_cons_self ..
  have continued : Progress setup (· ∈ r :: rest) t₁ t' := second.1.mono fun r' => List.mem_cons_of_mem r
  refine ⟨begun.trans continued below, ?_⟩
  have moved := second.2
  cases result with
  | error => exact moved
  | ok =>
    intro r' listed still
    rcases List.mem_cons.mp listed with rfl | later
    · rcases second.1.joined r' still with before | ⟨newer, -⟩
      · have kept := (second.1.kept r' before apart).2
        exact kept ▸ first.2 r' rfl before
      · exact absurd (below r' listed) (Nat.not_lt_of_le (first.1.created.trans newer))
    · have differ : r' ≠ r := fun same => apart (same ▸ later)
      have kept := (first.1.kept r' (active r' listed) differ).2
      exact kept ▸ moved r' later still

/-- The rule of the loops over a batch: what a sequence's turn needs is not
touched by the turns of the others. -/
theorem safe_loop {body : Ref → EngineM S Unit} {loop : List Ref → EngineM S Unit} (Pre : Shared backend → Ref → Prop)
    (nil : loop [] = pure ()) (cons : ∀ r rest, loop (r :: rest) = body r >>= fun _ => loop rest)
    (stable : ∀ {t t' : Shared backend} {r r' : Ref}, t.Live setup → t.ActiveRef r' → Progress setup (· = r) t t' →
      r' ≠ r → Pre t r' → Pre t' r')
    (single : ∀ {t : Shared backend} {r : Ref}, t.Live setup → t.ActiveRef r → Pre t r →
      SchedulerSafe setup (body r) (Handled setup P (· = r) t) t)
    {batch : List Ref} (nodup : batch.Nodup) (live : t.Live setup) (active : ∀ r ∈ batch, t.ActiveRef r)
    (pre : ∀ r ∈ batch, Pre t r) : SchedulerSafe setup (loop batch) (Handled setup P (· ∈ batch) t) t := by
  induction batch generalizing t with
  | nil =>
    rw [nil]
    exact .none live fun r => List.not_mem_nil
  | cons r rest ih =>
    have apart := (List.nodup_cons.mp nodup).1
    have here := List.mem_cons_self (a := r) (l := rest)
    rw [cons]
    refine Coro.safe_bind.mpr ((single live (active r here) (pre r here)).mono fun result t₁ first => ?_)
    cases result with
    | error error => exact ⟨first.1.mono fun r' same => same ▸ List.mem_cons_self .., first.2⟩
    | ok =>
      have differ : ∀ r' ∈ rest, r' ≠ r := fun r' listed same => apart (same ▸ listed)
      have later : ∀ r' ∈ rest, t.ActiveRef r' := fun r' listed => active r' (List.mem_cons_of_mem r listed)
      refine (ih (List.nodup_cons.mp nodup).2 first.1.live
        (fun r' listed => (first.1.kept r' (later r' listed) (differ r' listed)).1)
        fun r' listed => stable live (later r' listed) first.1 (differ r' listed)
          (pre r' (List.mem_cons_of_mem r listed))).mono fun result t' second => ?_
      exact .cons live active apart first second

theorem safe_failAll {error : Raised} {batch : List Ref} (nodup : batch.Nodup) (live : t.Live setup)
    (active : ∀ r ∈ batch, t.ActiveRef r) (blames : ∀ r ∈ batch, (t.view r).Blames error) :
    SchedulerSafe setup (failAll error batch) (Handled setup (fun _ _ => False) (· ∈ batch) t) t := by
  refine safe_loop (fun t r => (t.view r).Blames error) rfl (fun _ _ => rfl) ?_ ?_ nodup live active blames
  · intro t t' r r' live active progress differ blames
    exact (progress.kept r' active differ).2.symm ▸ blames
  · intro t r live active blames
    exact (safe_fail live active blames).mono fun result t' finished => finished.handled

section Results

variable {outcome : BatchTokenResult}

/-- The answer to a batch's call has come; what it has for the sequence is still to be taken. -/
structure Answered (setup : EngineSetup) (outcome : BatchTokenResult) (stores : Bool) (t : Shared backend) (r : Ref) :
    Prop where
  failed : ∀ error, outcome.failures.get? (t.engine.requestId r) = some error → (t.view r).Blames error
  missing : outcome.failures.get? (t.engine.requestId r) = none →
    outcome.tokens.get? (t.engine.requestId r) = none → ¬ Covered t.log
  returned : ∀ token, outcome.failures.get? (t.engine.requestId r) = none →
    outcome.tokens.get? (t.engine.requestId r) = some token → (t.view r).Pending setup.dimensions token
  first : stores = true → (t.view r).generated = [] ∧ (t.view r).Unresumed

theorem Answered.later {stores : Bool} {R : Ref → Prop} (live : t.Live setup) (active : t.ActiveRef r)
    (progress : Progress setup R t t') (outside : ¬ R r) (answered : Answered setup outcome stores t r) :
    Answered setup outcome stores t' r := by
  have kept := (progress.kept r active outside).2
  have named := progress.requestId r (live.sound.bound active)
  refine ⟨?_, ?_, ?_, ?_⟩
  · rw [kept, named]
    exact answered.failed
  · rw [named]
    exact fun none missing covered => answered.missing none missing (covered.of_suffix progress.log)
  · rw [kept, named]
    exact answered.returned
  · rw [kept]
    exact answered.first

/-- The cache's length is noted, and the token goes to the sequence. -/
theorem safe_takeToken (stores : Bool) {token : GeneratedToken} {eosIds : List TokenId} (live : t.Live setup)
    (active : t.ActiveRef r) (pending : (t.view r).Pending setup.dimensions token)
    (first : stores = true → (t.view r).generated = [] ∧ (t.view r).Unresumed) (eos : t.engine.eosIds = some eosIds) :
    SchedulerSafe setup (do
      Coro.modify fun e => e.setCacheTokens r token.cacheTokens
      if stores then storePrefix r
      acceptToken r token eosIds) (Handled setup (·.Extended setup.dimensions) (· = r) t) t := by
  have noting := pending
  rw [← live.sound.dimensions] at noting
  have below := Progress.below live active
  refine safe_update live active (.cached active noting) rfl ?_
  intro t₁ noted
  have story : ∀ v, (t₁.view r).Extended setup.dimensions v → (t.view r).Extended setup.dimensions v := by
    intro v extended
    rw [noted.view] at extended
    exact ⟨extended.decoding, extended.generated, extended.sampling⟩
  have pendingNoted : (t₁.view r).Pending setup.dimensions token := by
    rw [noted.view]
    exact ⟨pending.prompted, pending.backendCreated, pending.answered, pending.room, pending.clean, pending.phase⟩
  have cached : (t₁.view r).sequence.cacheTokens = token.cacheTokens := by
    rw [noted.view]
    rfl
  have liveNoted := noted.progress.live
  have eosNoted := noted.eosIds.trans eos
  have done : ∀ {result : Except Raised Unit} {t' : Shared backend},
      Handled setup (·.Extended setup.dimensions) (· = r) t₁ result t' →
      Handled setup (·.Extended setup.dimensions) (· = r) t result t' := fun handled =>
    handled.after noted.progress below fun r' same v => same ▸ story v
  cases stores with
  | false =>
    exact (safe_acceptToken liveNoted noted.active pendingNoted eosNoted cached).mono
      fun result t' accepted => done accepted.handled
  | true =>
    obtain ⟨new, unresumed⟩ := first rfl
    have fresh : (t₁.view r).generated = [] := by
      rw [noted.view]
      exact new
    refine Coro.safe_bind.mpr ((safe_storePrefix liveNoted noted.active pendingNoted fresh).mono ?_)
    intro result t₂ stored
    cases result with
    | error error =>
      refine done ⟨stored.1, stored.2.2.2 ?_⟩
      rw [noted.view]
      exact unresumed
    | ok =>
      obtain ⟨progress, activeStored, silent⟩ := stored
      refine (safe_acceptToken progress.live activeStored (silent.pending pendingNoted) (progress.eosIds _ eosNoted)
        ?_).mono fun result t' accepted => done ?_
      · obtain ⟨records, same⟩ := silent.shape
        rw [same]
        exact cached
      · refine accepted.handled.after progress (fun r' same => same ▸ liveNoted.sound.bound noted.active) ?_
        intro r' same v extended
        subst same
        obtain ⟨records, same⟩ := silent.shape
        rw [same] at extended
        exact ⟨extended.decoding, extended.generated, extended.sampling⟩

theorem safe_acceptResult {eosIds : List TokenId} {measure : Ref → Engine S → Engine S} {stores : Bool}
    (measures : ∀ r (e : Engine S), e.Quiet (measure r e)) (live : t.Live setup) (active : t.ActiveRef r)
    (answered : Answered setup outcome stores t r) (eos : t.engine.eosIds = some eosIds) :
    SchedulerSafe setup (acceptResult outcome eosIds measure stores r)
      (Handled setup (·.Extended setup.dimensions) (· = r) t) t := by
  have below := Progress.below live active
  refine Coro.safe_read.mpr ?_
  cases failed : outcome.failures.get? (t.engine.requestId r) with
  | some failure =>
    simp only [Shared.window, failed]
    exact (safe_fail live active (answered.failed failure failed)).mono fun result t' finished => finished.handled
  | none =>
    simp only [Shared.window, failed]
    refine safe_quiet live (measures r t.engine) fun t₁ rely => ?_
    have activeMeasured := (rely.kept' active).1
    have sameView := (rely.kept' active).2
    have progress : Progress setup (· = r) t t₁ := rely.toProgress.mono fun _ never => never.elim
    cases returned : outcome.tokens.get? (t.engine.requestId r) with
    | none =>
      refine ⟨progress, fun covered => answered.missing failed returned ?_⟩
      exact rely.sameLog ▸ covered
    | some token =>
      refine (safe_takeToken stores rely.live activeMeasured (sameView.symm ▸ answered.returned token failed returned)
        (fun set => sameView.symm ▸ answered.first set) (rely.sameEosIds.trans eos)).mono fun result t' handled => ?_
      exact handled.after progress below fun r' same v => by
        subst same
        rw [sameView]
        exact id

theorem safe_acceptOutcome {eosIds : List TokenId} {measure : Ref → Engine S → Engine S} {stores : Bool}
    (measures : ∀ r (e : Engine S), e.Quiet (measure r e)) {batch : List Ref} (nodup : batch.Nodup)
    (live : t.Live setup) (active : ∀ r ∈ batch, t.ActiveRef r)
    (answered : ∀ r ∈ batch, Answered setup outcome stores t r) (eos : t.engine.eosIds = some eosIds) :
    SchedulerSafe setup (acceptOutcome outcome eosIds measure stores batch)
      (Handled setup (·.Extended setup.dimensions) (· ∈ batch) t) t := by
  refine safe_loop (fun t r => Answered setup outcome stores t r ∧ t.engine.eosIds = some eosIds) rfl (fun _ _ => rfl)
    ?_ ?_ nodup live active fun r listed => ⟨answered r listed, eos⟩
  · intro t t' r r' live active progress differ pre
    exact ⟨pre.1.later live active progress differ, progress.eosIds _ pre.2⟩
  · intro t r live active pre
    exact safe_acceptResult measures live active pre.1 pre.2

end Results

section Calls

/-- The call is made for a batch, and its answer is an outcome for all in it. -/
structure BatchCall (command : BackendCall S) (outcomeOf : command.Answer → BatchTokenResult) (ids : List String) :
    Prop where
  token : ∀ id answer, command.tokenIn id answer = (outcomeOf answer).tokenFor id
  failure : ∀ id answer, command.failureIn id answer = (outcomeOf answer).failures.get? id
  release : command.isRelease = false
  proper : ∀ sequences answer, (⟨command, sequences, .ok answer⟩ : CallRecord S).Proper → ∀ id ∈ ids,
    (outcomeOf answer).failures.get? id = none → (outcomeOf answer).tokens.get? id ≠ none
  resume : ∀ sequences result, ¬ (⟨command, sequences, result⟩ : CallRecord S).IsResume

theorem BatchCall.prefillBatch (requests : List PrefillRequest) :
    BatchCall (.direct (.prefillBatch requests) : BackendCall S) id (requests.map PrefillRequest.sequenceId) where
  token _ _ := rfl
  failure _ _ := rfl
  release := rfl
  proper _ _ proper _ member := by
    obtain ⟨request, listed, rfl⟩ := List.mem_map.mp member
    exact proper request listed
  resume _ _ := fun ⟨_, _, _, _, _, _, same⟩ => by cases same

theorem BatchCall.prefillFallback (requests : List PrefillRequest) :
    BatchCall (.prefillFallback requests : BackendCall S) id (requests.map PrefillRequest.sequenceId) where
  token _ _ := rfl
  failure _ _ := rfl
  release := rfl
  proper _ _ proper _ member := by
    obtain ⟨request, listed, rfl⟩ := List.mem_map.mp member
    exact proper request listed
  resume _ _ := fun ⟨_, _, _, _, _, _, same⟩ => by cases same

theorem BatchCall.decodeBatch (requests : List DecodeRequest) :
    BatchCall (.direct (.decodeBatch requests) : BackendCall S) id (requests.map DecodeRequest.sequenceId) where
  token _ _ := rfl
  failure _ _ := rfl
  release := rfl
  proper _ _ proper _ member := by
    obtain ⟨request, listed, rfl⟩ := List.mem_map.mp member
    exact proper request listed
  resume _ _ := fun ⟨_, _, _, _, _, _, same⟩ => by cases same

theorem BatchCall.decodeFallback (requests : List DecodeRequest) :
    BatchCall (.decodeFallback requests : BackendCall S) id (requests.map DecodeRequest.sequenceId) where
  token _ _ := rfl
  failure _ _ := rfl
  release := rfl
  proper _ _ proper _ member := by
    obtain ⟨request, listed, rfl⟩ := List.mem_map.mp member
    exact proper request listed
  resume _ _ := fun ⟨_, _, _, _, _, _, same⟩ => by cases same

variable {command : BackendCall S} {outcomeOf : command.Answer → BatchTokenResult} {ids : List String}
  {batch : List Ref} {stores : Bool}

theorem BatchCall.answered (batchCall : BatchCall command outcomeOf ids) {answer : command.Answer}
    (live : t.Live setup) (active : t.ActiveRef r) (called : Called setup t command batch (.ok answer) t')
    (listed : r ∈ batch) (awaiting : (t.view r).Awaiting setup.dimensions) (named : t.engine.requestId r ∈ ids)
    (first : stores = true → (t.view r).generated = [] ∧ (t.view r).Unresumed) :
    Answered setup (outcomeOf answer) stores t' r := by
  have sameId := called.progress.requestId r (live.sound.bound active)
  have view := (called.views r listed).2
  refine ⟨?_, ?_, ?_, ?_⟩
  · intro error failed
    rw [sameId] at failed
    rw [view]
    exact RefView.blames_recorded ((batchCall.failure _ answer).trans failed)
  · intro none missing covered
    rw [sameId] at none missing
    rw [called.log] at covered
    exact batchCall.proper _ _ covered.1 _ named none missing
  · intro token none returned
    rw [sameId] at none returned
    rw [view]
    refine awaiting.pending ?_ ((batchCall.failure _ answer).trans none)
    refine (batchCall.token _ answer).trans ?_
    rw [BatchTokenResult.tokenFor]
    exact (if_pos none).trans returned
  · intro set
    rw [view]
    exact ⟨(first set).1, (first set).2.recorded (batchCall.resume _ _)⟩

theorem Answered.noted {outcome : BatchTokenResult} (answered : Answered setup outcome stores t r)
    (named : t'.engine.requestId r = t.engine.requestId r) (noted : (t.view r).Noted (t'.view r))
    (log : t.log <:+ t'.log) : Answered setup outcome stores t' r := by
  refine ⟨?_, ?_, ?_, ?_⟩
  · rw [named]
    exact fun error failed => noted.blames (answered.failed error failed)
  · rw [named]
    exact fun none missing covered => answered.missing none missing (covered.of_suffix log)
  · rw [named]
    exact fun token none returned => noted.pending (answered.returned token none returned)
  · intro set
    exact ⟨noted.sameStory.generated.trans (answered.first set).1, noted.unresumed (answered.first set).2⟩

/-- A batch's call is made, and its outcome is taken sequence by sequence. -/
theorem safe_runBatch {count : Nat → Engine S → Engine S} {measure : Int → Ref → Engine S → Engine S}
    (batchCall : BatchCall command outcomeOf ids) (counts : ∀ size (e : Engine S), e.Quiet (count size e))
    (measures : ∀ elapsed r (e : Engine S), e.Quiet (measure elapsed r e)) (some : batch ≠ []) (nodup : batch.Nodup)
    (live : t.Live setup) (guard : t.CallGuard command batch)
    (awaiting : ∀ r ∈ batch, (t.view r).Awaiting setup.dimensions) (named : ∀ r ∈ batch, t.engine.requestId r ∈ ids)
    (first : ∀ r ∈ batch, stores = true → (t.view r).generated = [] ∧ (t.view r).Unresumed) :
    SchedulerSafe setup (runBatch command outcomeOf count measure stores batch)
      (Handled setup (·.Extended setup.dimensions) (· ∈ batch) t) t := by
  have below : ∀ r ∈ batch, r < t.engine.created := fun r listed => live.sound.bound (guard.active r listed)
  refine Coro.safe_clock.mpr fun started => ?_
  refine Coro.safe_bind.mpr (Coro.safe_attempt.mpr (safe_call live some guard fun result t₁ called => ?_))
  have activeCalled : ∀ r ∈ batch, t₁.ActiveRef r := fun r listed => (called.views r listed).1
  cases result with
  | error error =>
    refine (safe_failAll nodup called.progress.live activeCalled fun r listed => ?_).mono
      fun result t' handled => handled.gone called.progress below
    rw [(called.views r listed).2]
    refine RefView.blames_recorded ?_
    simp only [CallRecord.errorFor, batchCall.release, Bool.false_eq_true, if_false]
  | ok answer =>
    have answered : ∀ r ∈ batch, Answered setup (outcomeOf answer) stores t₁ r := fun r listed =>
      batchCall.answered live (guard.active r listed) called listed (awaiting r listed) (named r listed) (first r listed)
    refine Coro.safe_clock.mpr fun ended => ?_
    refine safe_quiet called.progress.live (counts _ _) fun t₂ rely => ?_
    have activeCounted : ∀ r ∈ batch, t₂.ActiveRef r := fun r listed => (rely.kept' (activeCalled r listed)).1
    refine Coro.safe_bind.mpr (Coro.safe_attempt.mpr ((safe_getEosIds rely.live some activeCounted).mono
      fun result t₃ learned => ?_))
    obtain ⟨progress, activeLearned, known⟩ := learned
    have belowCounted : ∀ r ∈ batch, r < t₂.engine.created := fun r listed =>
      rely.live.sound.bound (activeCounted r listed)
    have whole : Progress setup (· ∈ batch) t t₃ :=
      (called.progress.before rely.toProgress below).trans progress below
    cases result with
    | error error =>
      exact (safe_failAll nodup progress.live activeLearned known).mono
        fun result t' handled => handled.gone whole below
    | ok eosIds =>
      obtain ⟨eos, noted⟩ := known
      have answeredLearned : ∀ r ∈ batch, Answered setup (outcomeOf answer) stores t₃ r := by
        intro r listed
        have counted := (answered r listed).later called.progress.live (activeCalled r listed) rely.toProgress id
        exact counted.noted (progress.requestId r (belowCounted r listed)) (noted r listed) progress.log
      refine (safe_acceptOutcome (measures _) nodup progress.live activeLearned answeredLearned eos).mono
        fun result t' handled => handled.after whole below fun r listed v extended => ?_
      have story := (noted r listed).sameStory
      rw [(rely.kept' (activeCalled r listed)).2, (called.views r listed).2] at story
      exact extended.of_same story.generated story.sampling

end Calls

end ServingPlatform.TokenGenerationEngine
