import ServingPlatform.TokenEngine.ChunkBounds
import ServingPlatform.TokenEngine.Lasting

namespace ServingPlatform

variable {S : Type}

def StreamEvent.token? : StreamEvent → Option GeneratedToken
  | .token generated => some generated
  | .complete _ | .failure _ => none

def StreamEvent.isTerminal (event : StreamEvent) : Bool := event.token?.isNone

/-- A completion by cancellation, or a failure. -/
def StreamEvent.endsCancelled : StreamEvent → Bool
  | .token _ => false
  | .complete completion => completion.finishReason = .cancelled
  | .failure _ => true

/-- What a sequence's events are about. -/
structure SequenceStory where
  requestId : String
  sampling : SamplingParameters
  generated : List TokenId
  events : List StreamEvent
  done : Bool

def ScheduledSequence.story (runtime : ScheduledSequence) : SequenceStory where
  requestId := runtime.state.requestId
  sampling := runtime.state.sampling
  generated := runtime.state.generatedTokenIds
  events := runtime.events
  done := runtime.done

theorem answeredTokens_append (id : String) (later earlier : List (CallRecord S)) :
    answeredTokens id (later ++ earlier) = answeredTokens id earlier ++ answeredTokens id later := by
  induction later with
  | nil => exact (List.append_nil _).symm
  | cons c rest ih =>
    rw [List.cons_append, answeredTokens, answeredTokens, ih, List.append_assoc]

theorem Engine.noteResize_cancellation (e : Engine S) (r : Ref)
    (outcome : Except Raised (List BlockId) × KVBlockAllocator) (r' : Ref) :
    ((e.noteResize r outcome).2.sequences r').state.cancellation = (e.sequences r').state.cancellation := by
  rcases e.noteResize_cases r outcome with ⟨raised, -, run⟩ | ⟨blocks, -, run⟩
  · rw [run]
  · rw [run]
    exact Engine.modifySequence_congr (e := { e with kvAllocator := outcome.2 }) (r := r) (f := fun runtime =>
      { runtime with state := { runtime.state with kvBlockIds := blocks } })
      (fun runtime => runtime.state.cancellation) rfl r'

/-- An active sequence that is retired gets its event; the others keep theirs. -/
theorem Engine.retire_sequences {e : Engine S} {r : Ref} {table : List BlockId} (consistent : e.kvAllocator.Consistent)
    (owned : e.kvAllocator.owners.get? (e.requestId r) = some table) (event : ScheduledSequence → StreamEvent) :
    (e.retire r event).2.sequences = (e.modifySequence r fun runtime =>
      { runtime with events := runtime.events ++ [event runtime], done := true }).sequences ∧
      (e.retire r event).2.eosIds = e.eosIds := by
  obtain ⟨kvAllocator, -, run⟩ := Engine.retire_ok consistent owned event
  rw [run]
  exact ⟨rfl, rfl⟩

/-- A cancellation is refused for what is not active or at its end. -/
theorem Engine.cancel_cases (e : Engine S) (id : String) :
    (e.cancel id = (false, e) ∧ ∀ r, e.active.get? id = some r → (e.sequences r).state.terminal = true) ∨
      ∃ r, e.active.get? id = some r ∧ (e.sequences r).state.terminal = false ∧
        e.cancel id = (true, (e.setCancellation r).setWake) := by
  unfold cancel
  cases found : e.active.get? id with
  | none => exact Or.inl ⟨rfl, fun r none => by cases none⟩
  | some r =>
    dsimp only
    split
    · rename_i terminal
      refine Or.inl ⟨rfl, fun r' same => ?_⟩
      cases same
      exact terminal
    · rename_i live
      exact Or.inr ⟨r, rfl, eq_false_of_ne_true live, rfl⟩

namespace Shared

variable {backend : InferenceBackend S} {setup : EngineSetup} {t t' : Shared backend} {r : Ref}

/-- Between the two states nothing was put on the sequence's queue. -/
structure SameStream (t t' : Shared backend) (r : Ref) : Prop where
  story : (t'.engine.sequences r).story = (t.engine.sequences r).story
  cancelled : t.Cancelled r → t'.Cancelled r
  phase : (t'.view r).phase = (t.view r).phase ∨ t.MayClose r (t'.view r).phase ∨ (t'.view r).phase = .prefill
  log : t.log <:+ t'.log
  eosIds : ∀ eosIds, t.engine.eosIds = some eosIds → t'.engine.eosIds = some eosIds

/-- What one step may do to the events of a sequence. -/
inductive StreamStep (t t' : Shared backend) (r : Ref) : Prop
  | same (same : SameStream t t' r)
  | emits {token : GeneratedToken} {eosIds : List TokenId} (active : t.ActiveRef r)
      (pending : (t.view r).Pending t.engine.kvAllocator.dimensions token) (live : ¬ t.Cancelled r)
      (eos : t.engine.eosIds = some eosIds) (notEos : token.tokenId ∉ eosIds)
      (notStop : token.tokenId ∉ (t.view r).sequence.state.sampling.stopTokenIds)
      (after : t' = t.withEngine (t.engine.emit r token))
  | ends {event : ScheduledSequence → StreamEvent} (active : t.ActiveRef r)
      (final : t.FinalEvent r (t.view r).phase event)
      (sequence : t'.engine.sequences r = { t.engine.sequences r with
        events := (t.engine.sequences r).events ++ [event (t.engine.sequences r)], done := true })
      (log : t'.log = t.log) (eosIds : t'.engine.eosIds = t.engine.eosIds)

section Steps

variable {e : Engine S}

theorem vital_story {runtime runtime' : ScheduledSequence} (same : runtime'.vital = runtime.vital) :
    runtime'.story = runtime.story :=
  congrArg (fun runtime => runtime.story) same

theorem vital_phase {runtime runtime' : ScheduledSequence} (same : runtime'.vital = runtime.vital) :
    runtime'.state.phase = runtime.state.phase :=
  congrArg (fun runtime => runtime.state.phase) same

theorem SameStream.of_vital (vital : (e.sequences r).vital = (t.engine.sequences r).vital)
    (cancelled : t.Cancelled r → (t.withEngine e).Cancelled r)
    (eosIds : ∀ eosIds, t.engine.eosIds = some eosIds → e.eosIds = some eosIds) : SameStream t (t.withEngine e) r :=
  ⟨vital_story vital, cancelled, Or.inl (vital_phase vital), List.suffix_refl _, eosIds⟩

theorem SameStream.of_same (sequences : e.sequences r = t.engine.sequences r)
    (eosIds : ∀ eosIds, t.engine.eosIds = some eosIds → e.eosIds = some eosIds) : SameStream t (t.withEngine e) r := by
  refine .of_vital (congrArg ScheduledSequence.vital sequences) (fun cancelled => ?_) eosIds
  show (e.sequences r).state.cancellation = true
  rw [sequences]
  exact cancelled

theorem SameStream.modified {r' : Ref} {f : ScheduledSequence → ScheduledSequence}
    (story : (f (t.engine.sequences r')).story = (t.engine.sequences r').story)
    (cancelled : (f (t.engine.sequences r')).state.cancellation = (t.engine.sequences r').state.cancellation)
    (phase : r = r' → (f (t.engine.sequences r)).state.phase = (t.engine.sequences r).state.phase ∨
      t.MayClose r (f (t.engine.sequences r)).state.phase ∨ (f (t.engine.sequences r)).state.phase = .prefill) :
    SameStream t (t.withEngine (t.engine.modifySequence r' f)) r := by
  rcases Engine.modifySequence_cases (e := t.engine) (r := r') r f with ⟨rfl, here⟩ | ⟨-, elsewhere⟩
  · have moved := phase rfl
    rw [← here] at moved
    refine ⟨(congrArg ScheduledSequence.story here).trans story, fun was => ?_, moved, List.suffix_refl _, fun _ known => known⟩
    show ((t.engine.modifySequence r f).sequences r).state.cancellation = true
    rw [here, cancelled]
    exact was
  · exact .of_same elsewhere fun _ known => known

theorem StreamStep.quiet (same : t.engine.Quiet e) : StreamStep t (t.withEngine e) r :=
  .same (.of_vital (same.sequences r) (same.cancellation r) fun _ known => same.eosIds.trans known)

theorem StreamStep.noteResize (r' : Ref) (outcome : Except Raised (List BlockId) × KVBlockAllocator) :
    StreamStep t (t.withEngine (t.engine.noteResize r' outcome).2) r := by
  obtain ⟨-, sequences, -, -, eosIds, -⟩ := t.engine.noteResize_frame r' outcome
  refine .same (.of_vital (sequences r) (fun was => ?_) fun _ known => eosIds.trans known)
  exact (t.engine.noteResize_cancellation r' outcome r).trans was

theorem Action.stream (action : Action t t') (sound : t.Sound setup) : StreamStep t t' r := by
  have kept : ∀ {f : ScheduledSequence → ScheduledSequence} {r' : Ref},
      (f (t.engine.sequences r')).story = (t.engine.sequences r').story →
      (f (t.engine.sequences r')).state.cancellation = (t.engine.sequences r').state.cancellation →
      (∀ runtime, (f runtime).state.phase = runtime.state.phase) →
      StreamStep t (t.withEngine (t.engine.modifySequence r' f)) r :=
    fun story cancelled phase => .same (.modified story cancelled fun _ => Or.inl (phase _))
  cases action with
  | quiet same => exact .quiet same
  | tokenized => exact kept rfl rfl fun _ => rfl
  | resized => exact .noteResize _ _
  | beginPrefill => exact .same (.modified rfl rfl fun _ => Or.inr (Or.inr rfl))
  | lookup => exact .same (.of_same rfl fun _ known => known)
  | advanced => exact kept rfl rfl fun _ => rfl
  | eosKnown unknown => exact .same (.of_same rfl fun _ known => by cases unknown.symm.trans known)
  | stored => exact .same (.of_same rfl fun _ known => known)
  | closing _ may =>
    refine .same (.modified rfl rfl fun same => Or.inr (Or.inl ?_))
    rw [same]
    exact may
  | released => exact kept rfl rfl fun _ => rfl
  | cached => exact kept rfl rfl fun _ => rfl
  | @emitted r' token eosIds active pending live eos notEos notStop =>
    rcases eq_or_ne r r' with rfl | differ
    · exact .emits active pending live eos notEos notStop rfl
    · exact .same (.of_same (Engine.modifySequence_of_ne differ) fun _ known => known)
  | @retired r' event active phase released final =>
    obtain ⟨table, owned⟩ := sound.owned active
    obtain ⟨sequences, eosIds⟩ := Engine.retire_sequences sound.kv owned event
    rcases eq_or_ne r r' with rfl | differ
    · exact .ends active final ((congrFun sequences r).trans Engine.modifySequence_self) rfl eosIds
    · exact .same (.of_same ((congrFun sequences r).trans (Engine.modifySequence_of_ne differ)) fun _ known =>
        eosIds.trans known)

theorem ClientAction.stream (action : ClientAction t t') (sound : t.Sound setup) (below : r < t.engine.created) :
    StreamStep t t' r := by
  cases action with
  | quiet same => exact .quiet same
  | @reserve id prompt sampling deadline count createdAt =>
    refine .same (.of_same ?_ fun eosIds known => ?_)
    · rcases t.engine.reserve_cases id prompt sampling deadline count createdAt with
        ⟨raised, kvAllocator, run, -⟩ | ⟨n, kvAllocator, blocks, -, -, -, -, -, -, run⟩
      · rw [run]
      · rw [run]
        exact if_neg (Nat.ne_of_lt below)
    · rcases t.engine.reserve_cases id prompt sampling deadline count createdAt with
        ⟨raised, kvAllocator, run, -⟩ | ⟨n, kvAllocator, blocks, -, -, -, -, -, -, run⟩
      · rw [run]
        exact known
      · rw [run]
        exact known
  | ensureScheduler => exact .same (.of_same rfl fun _ known => known)
  | popFinished => exact .same (.of_same rfl fun _ known => known)
  | clearPrefixCache => exact .same (.of_same rfl fun _ known => known)
  | closeExecutor => exact .same (.of_same rfl fun _ known => known)
  | action _ action => exact action.stream sound

/-- Every step leaves the events of a sequence alone, emits its next token or ends it. -/
theorem Step.stream (step : Step t t') (sound : t.Sound setup) (below : r < t.engine.created) : StreamStep t t' r := by
  cases step with
  | scheduler action => exact action.stream sound
  | decided => exact .same (.of_same rfl fun _ known => known)
  | client action => exact action.stream sound below
  | call => exact .same ⟨rfl, id, Or.inl rfl, List.suffix_cons _ _, fun _ known => known⟩
  | stop => exact .same ⟨rfl, id, Or.inl rfl, List.suffix_refl _, fun _ known => known⟩
  | schedulerReturned => exact .same (.of_same rfl fun _ known => known)
  | schedulerRaised => exact .same (.of_same rfl fun _ known => known)

theorem StreamStep.requestId (step : StreamStep t t' r) : t'.engine.requestId r = t.engine.requestId r := by
  cases step with
  | same same => exact congrArg SequenceStory.requestId same.story
  | emits _ _ _ _ _ _ after =>
    rw [after]
    show ((t.engine.emit r _).sequences r).state.requestId = _
    rw [Engine.emit, Engine.modifySequence_self]
    rfl
  | ends _ _ sequence => exact congrArg (fun runtime => runtime.state.requestId) sequence

end Steps

section Streams

/-- What the terminal event of a sequence tells after `n` tokens. -/
def Told (t : Shared backend) (r : Ref) (n : Nat) : StreamEvent → Prop
  | .token _ => False
  | .failure _ => True
  | .complete completion =>
    completion.outputTokens = n ∧ (completion.finishReason = .length ↔ n = (t.view r).limit) ∧
      (completion.finishReason = .eos → ∃ token eosIds, (t.view r).answered[n]? = some token ∧
        t.engine.eosIds = some eosIds ∧ token.tokenId ∈ eosIds) ∧
      (completion.finishReason = .stop → ∃ token, (t.view r).answered[n]? = some token ∧
        token.tokenId ∈ (t.view r).sequence.state.sampling.stopTokenIds)

/-- A token that neither is an end-of-sequence token nor stops the sequence. -/
def Ordinary (t : Shared backend) (r : Ref) (token : GeneratedToken) : Prop :=
  ∃ eosIds, t.engine.eosIds = some eosIds ∧ token.tokenId ∉ eosIds ∧
    token.tokenId ∉ (t.view r).sequence.state.sampling.stopTokenIds

/-- The queue got the tokens and then, at the sequence's end, its terminal event. -/
structure Streamed (t : Shared backend) (r : Ref) (tokens : List GeneratedToken) (last : Option StreamEvent) : Prop where
  events : (t.engine.sequences r).events = tokens.map .token ++ last.toList
  generated : tokens.map GeneratedToken.tokenId = (t.view r).generated
  answered : tokens <+: (t.view r).answered
  bounded : tokens.length ≤ (t.view r).limit
  ordinary : ∀ token ∈ tokens, t.Ordinary r token
  done : (t.engine.sequences r).done = last.isSome
  told : ∀ event ∈ last, t.Told r tokens.length event

variable {tokens : List GeneratedToken} {last : Option StreamEvent}

/-- Between the two states the sequence's tokens and limits stayed the same, but for answers that came in. -/
structure SameTokens (t t' : Shared backend) (r : Ref) : Prop where
  requestId : t'.engine.requestId r = t.engine.requestId r
  sampling : (t'.view r).sequence.state.sampling = (t.view r).sequence.state.sampling
  generated : (t'.view r).generated = (t.view r).generated
  log : t.log <:+ t'.log
  eosIds : ∀ eosIds, t.engine.eosIds = some eosIds → t'.engine.eosIds = some eosIds

theorem SameStream.sameTokens (same : SameStream t t' r) : SameTokens t t' r where
  requestId := congrArg SequenceStory.requestId same.story
  sampling := congrArg SequenceStory.sampling same.story
  generated := congrArg SequenceStory.generated same.story
  log := same.log
  eosIds := same.eosIds

namespace SameTokens

theorem limit (same : SameTokens t t' r) : (t'.view r).limit = (t.view r).limit :=
  congrArg SamplingParameters.maxNewTokens same.sampling

theorem answered (same : SameTokens t t' r) : (t.view r).answered <+: (t'.view r).answered := by
  obtain ⟨later, grown⟩ := same.log
  refine ⟨answeredTokens (t.engine.requestId r) (later.filter fun c => r ∈ c.sequences), ?_⟩
  show answeredTokens _ (t.log.filter _) ++ _ = answeredTokens (t'.engine.requestId r) (t'.log.filter _)
  rw [same.requestId, ← grown, List.filter_append, answeredTokens_append]
  rfl

theorem answer (same : SameTokens t t' r) {i : Nat} {token : GeneratedToken}
    (found : (t.view r).answered[i]? = some token) : (t'.view r).answered[i]? = some token := by
  obtain ⟨later, grown⟩ := same.answered
  obtain ⟨inside, -⟩ := List.getElem?_eq_some_iff.mp found
  rw [← grown, List.getElem?_append_left inside]
  exact found

theorem ordinary (same : SameTokens t t' r) {token : GeneratedToken} (ordinary : t.Ordinary r token) :
    t'.Ordinary r token := by
  obtain ⟨eosIds, known, notEos, notStop⟩ := ordinary
  exact ⟨eosIds, same.eosIds _ known, notEos, same.sampling.symm ▸ notStop⟩

theorem told (same : SameTokens t t' r) {n : Nat} {event : StreamEvent} (told : t.Told r n event) :
    t'.Told r n event := by
  cases event with
  | token => exact told
  | failure => trivial
  | complete completion =>
    obtain ⟨count, length, eos, stop⟩ := told
    refine ⟨count, same.limit.symm ▸ length, fun reason => ?_, fun reason => ?_⟩
    · obtain ⟨token, eosIds, found, known, member⟩ := eos reason
      exact ⟨token, eosIds, same.answer found, same.eosIds _ known, member⟩
    · obtain ⟨token, found, member⟩ := stop reason
      exact ⟨token, same.answer found, same.sampling.symm ▸ member⟩

end SameTokens

namespace Streamed

theorem same (streamed : t.Streamed r tokens last) (same : SameStream t t' r) : t'.Streamed r tokens last where
  events := (congrArg SequenceStory.events same.story).trans streamed.events
  generated := streamed.generated.trans same.sameTokens.generated.symm
  answered := streamed.answered.trans same.sameTokens.answered
  bounded := same.sameTokens.limit.symm ▸ streamed.bounded
  ordinary token member := same.sameTokens.ordinary (streamed.ordinary token member)
  done := (congrArg SequenceStory.done same.story).trans streamed.done
  told event member := same.sameTokens.told (streamed.told event member)

/-- An active sequence has no terminal event. -/
theorem open_of_active (streamed : t.Streamed r tokens last) (sound : t.Sound setup) (active : t.ActiveRef r) :
    last = none := by
  have live := (sound.live r (sound.bound active)).mpr active
  rw [streamed.done] at live
  exact Option.not_isSome_iff_eq_none.mp (Bool.eq_false_iff.mp live)

/-- A token to be accepted is the first one that the queue does not have. -/
theorem answered_eq (streamed : t.Streamed r tokens last) {dimensions : KvDimensions} {token : GeneratedToken}
    (pending : (t.view r).Pending dimensions token) : (t.view r).answered = tokens ++ [token] := by
  obtain ⟨before, answered, accepted⟩ := pending.answered
  have ids := streamed.generated.trans accepted.symm
  have length : tokens.length = before.length := by
    rw [← List.length_map GeneratedToken.tokenId, ids, List.length_map]
  have inside := streamed.answered
  rw [answered] at inside
  have same : tokens <+: before :=
    List.prefix_of_prefix_length_le inside (List.prefix_append before [token]) length.le
  rw [answered, same.eq_of_length length]

theorem emitted (streamed : t.Streamed r tokens last) (sound : t.Sound setup) {token : GeneratedToken}
    (active : t.ActiveRef r) (pending : (t.view r).Pending t.engine.kvAllocator.dimensions token)
    (ordinary : t.Ordinary r token) : (t.withEngine (t.engine.emit r token)).Streamed r (tokens ++ [token]) none := by
  cases streamed.open_of_active sound active
  have sequence : (t.engine.emit r token).sequences r = { t.engine.sequences r with
      state := { (t.engine.sequences r).state with
        phase := .decode
        generatedTokenIds := (t.engine.sequences r).state.generatedTokenIds ++ [token.tokenId] }
      events := (t.engine.sequences r).events ++ [.token token] } := Engine.modifySequence_self
  have view : ((t.withEngine (t.engine.emit r token)).view r).generated = (t.view r).generated ++ [token.tokenId] :=
    congrArg (fun runtime => runtime.state.generatedTokenIds) sequence
  have sampling : ((t.withEngine (t.engine.emit r token)).view r).sequence.state.sampling =
      (t.view r).sequence.state.sampling := congrArg (fun runtime => runtime.state.sampling) sequence
  have requestId : (t.engine.emit r token).requestId r = t.engine.requestId r :=
    congrArg (fun runtime => runtime.state.requestId) sequence
  have answered : ((t.withEngine (t.engine.emit r token)).view r).answered = (t.view r).answered :=
    congrArg (fun id => answeredTokens id (t.recordsOf r)) requestId
  refine ⟨?_, ?_, ?_, ?_, fun other member => ?_, ?_, fun event none => by cases none⟩
  · show ((t.engine.emit r token).sequences r).events = _
    rw [sequence]
    show (t.engine.sequences r).events ++ _ = _
    rw [streamed.events, List.map_append, Option.toList_none, List.append_nil, List.append_nil]
    rfl
  · rw [view, List.map_append, streamed.generated]
    rfl
  · rw [answered, streamed.answered_eq pending]
  · have room := pending.room
    rw [← streamed.generated, List.length_map] at room
    rw [RefView.limit, sampling, List.length_append]
    exact room
  · have old : t.Ordinary r other := by
      rcases List.mem_append.mp member with earlier | new
      · exact streamed.ordinary other earlier
      · rw [List.mem_singleton.mp new]
        exact ordinary
    obtain ⟨eosIds, known, notEos, notStop⟩ := old
    exact ⟨eosIds, known, notEos, sampling.symm ▸ notStop⟩
  · show ((t.engine.emit r token).sequences r).done = _
    rw [sequence]
    exact streamed.done

end Streamed

/-- What a sequence completes with is what its completion tells. -/
theorem FinalEvent.told {event : ScheduledSequence → StreamEvent} {phase : SequencePhase}
    (final : t.FinalEvent r phase event) (bounded : (t.view r).generated.length ≤ (t.view r).limit) :
    t.Told r (t.view r).generated.length (event (t.engine.sequences r)) := by
  cases final with
  | failure error blames => trivial
  | complete reason clean holds =>
    refine ⟨rfl, ?_, fun same => ?_, fun same => ?_⟩
    · cases reason with
      | length => exact ⟨fun _ => Nat.le_antisymm bounded holds, fun _ => rfl⟩
      | eos | stop => exact ⟨fun same => (by cases same), fun full => absurd full (Nat.ne_of_lt holds.1)⟩
      | cancelled | timeout => exact ⟨fun same => (by cases same), fun full => absurd full (Nat.ne_of_lt holds)⟩
      | failed => exact holds.elim
    · have same : reason = .eos := same
      subst same
      exact holds.2
    · have same : reason = .stop := same
      subst same
      exact holds.2

theorem Streamed.ended (streamed : t.Streamed r tokens last) (sound : t.Sound setup) (active : t.ActiveRef r)
    {event : ScheduledSequence → StreamEvent} (final : t.FinalEvent r (t.view r).phase event)
    (sequence : t'.engine.sequences r = { t.engine.sequences r with
      events := (t.engine.sequences r).events ++ [event (t.engine.sequences r)], done := true })
    (log : t'.log = t.log) (eosIds : t'.engine.eosIds = t.engine.eosIds) :
    t'.Streamed r tokens (some (event (t.engine.sequences r))) := by
  cases streamed.open_of_active sound active
  have same : SameTokens t t' r :=
    ⟨congrArg (fun runtime => runtime.state.requestId) sequence, congrArg (fun runtime => runtime.state.sampling) sequence,
      congrArg (fun runtime => runtime.state.generatedTokenIds) sequence, log ▸ List.suffix_refl _,
      fun _ known => eosIds.trans known⟩
  have bounded := streamed.bounded
  rw [← List.length_map GeneratedToken.tokenId, streamed.generated] at bounded
  refine ⟨?_, streamed.generated.trans same.generated.symm, streamed.answered.trans same.answered,
    same.limit.symm ▸ streamed.bounded, fun token member => same.ordinary (streamed.ordinary token member), ?_,
    fun other member => ?_⟩
  · rw [sequence]
    show (t.engine.sequences r).events ++ _ = _
    rw [streamed.events, Option.toList_none, List.append_nil]
    rfl
  · rw [sequence]
    rfl
  · cases Option.mem_some_iff.mp member
    have told := final.told bounded
    rw [← streamed.generated, List.length_map] at told
    exact same.told told

/-- A sequence that a step brings is new. -/
theorem Step.joined (step : Step t t') (below : r < t'.engine.created) : r < t.engine.created ∨
    t'.log = t.log ∧ t.engine.created ≤ r ∧ ∃ state : SequenceState,
      state.generatedTokenIds = [] ∧ t'.engine.sequences r = { state } := by
  have same : t'.engine.created = t.engine.created → r < t.engine.created := fun same => same ▸ below
  cases step with
  | scheduler action => exact Or.inl (same action.recedes.created)
  | decided | call | stop | schedulerReturned | schedulerRaised => exact Or.inl (same rfl)
  | client action =>
    cases action with
    | quiet quiet => exact Or.inl (same quiet.created)
    | @reserve id prompt sampling deadline count createdAt =>
      rcases t.engine.reserve_cases id prompt sampling deadline count createdAt with
        ⟨raised, kvAllocator, run, -⟩ | ⟨n, kvAllocator, blocks, -, -, -, -, -, -, run⟩
      · exact Or.inl (same (congrArg (fun outcome => outcome.2.created) run))
      · have created := congrArg (fun outcome => outcome.2.created) run
        rw [show (t.withEngine (t.engine.reserve id prompt sampling deadline count createdAt).2).engine.created = _ from
          created] at below
        rcases Nat.lt_succ_iff_lt_or_eq.mp below with older | new
        · exact Or.inl older
        · refine Or.inr ⟨rfl, new.ge, { requestId := id, prompt, sampling, deadline, createdAt, kvBlockIds := blocks }, rfl, ?_⟩
          exact (congrArg (fun outcome => outcome.2.sequences r) run).trans (if_pos new)
    | ensureScheduler | popFinished | clearPrefixCache | closeExecutor => exact Or.inl (same rfl)
    | action _ action => exact Or.inl (same action.recedes.created)

/-- The queue of every sequence is well formed after a step. -/
theorem Step.streamed (step : Step t t') (sound : t.Sound setup)
    (before : ∀ r, r < t.engine.created → ∃ tokens last, t.Streamed r tokens last) (below : r < t'.engine.created) :
    ∃ tokens last, t'.Streamed r tokens last := by
  rcases step.joined below with older | ⟨-, -, state, generated, new⟩
  · obtain ⟨tokens, last, streamed⟩ := before r older
    cases step.stream sound older with
    | same same => exact ⟨tokens, last, streamed.same same⟩
    | emits active pending live eos notEos notStop after =>
      subst after
      exact ⟨_, _, streamed.emitted sound active pending ⟨_, eos, notEos, notStop⟩⟩
    | ends active final sequence log eosIds => exact ⟨_, _, streamed.ended sound active final sequence log eosIds⟩
  · refine ⟨[], none, ?_, ?_, List.nil_prefix, Nat.zero_le _, fun token none => (by cases none), ?_,
      fun event none => by cases none⟩
    · rw [new]
      rfl
    · exact (generated.symm.trans (congrArg (fun runtime => runtime.state.generatedTokenIds) new).symm)
    · rw [new]
      rfl

/-- In every state that comes about every queue is well formed. -/
theorem Reach.streamed (reach : Reach setup t) (below : r < t.engine.created) :
    ∃ tokens last, t.Streamed r tokens last := by
  induction reach generalizing r with
  | refl => exact absurd below (Nat.not_lt_zero _)
  | tail earlier step before => exact step.streamed (Reach.sound earlier) (fun _ => before) below

end Streams

section Cancellation

/-- A sequence cancelled before its end: from now on its queue gets nothing but
a completion by cancellation or a failure. -/
structure Silenced (t : Shared backend) (r : Ref) (tokens : List GeneratedToken) (last : Option StreamEvent) : Prop
    extends t.Streamed r tokens last where
  cancelled : t.Cancelled r
  phase : (t.view r).phase.isTerminal = false ∨ (t.view r).phase = .cancelled ∨ (t.view r).phase = .failed
  ending : ∀ event ∈ last, event.endsCancelled = true

variable {tokens : List GeneratedToken} {last : Option StreamEvent}

/-- A live sequence that is cancelled falls silent. -/
theorem Streamed.cancelled (streamed : t.Streamed r tokens none)
    (live : (t.engine.sequences r).state.terminal = false) :
    (t.withEngine (t.engine.setCancellation r).setWake).Silenced r tokens none := by
  have quiet : t.engine.Quiet (t.engine.setCancellation r).setWake :=
    (Engine.Quiet.setCancellation r).trans .setWake
  have same : SameStream t (t.withEngine (t.engine.setCancellation r).setWake) r :=
    .of_vital (quiet.sequences r) (quiet.cancellation r) fun _ known => quiet.eosIds.trans known
  refine ⟨streamed.same same, ?_, Or.inl ?_, fun event member => by cases member⟩
  · show ((t.engine.setCancellation r).sequences r).state.cancellation = true
    rw [Engine.setCancellation, Engine.modifySequence_self]
  · exact (congrArg SequencePhase.isTerminal (vital_phase (quiet.sequences r))).trans live

theorem MayClose.of_cancelled {phase : SequencePhase} (may : t.MayClose r phase) (cancelled : t.Cancelled r) :
    phase = .cancelled ∨ phase = .failed := by
  rcases may with failed | ⟨-, ⟨same, -⟩ | ⟨-, live⟩⟩
  · exact Or.inr failed
  · exact Or.inl same
  · exact absurd cancelled live

theorem FinalEvent.endsCancelled {event : ScheduledSequence → StreamEvent} {phase : SequencePhase}
    (final : t.FinalEvent r phase event)
    (closed : phase.isTerminal = false ∨ phase = .cancelled ∨ phase = .failed) (runtime : ScheduledSequence) :
    (event runtime).endsCancelled = true := by
  cases final with
  | failure error blames => rfl
  | complete reason clean holds =>
    cases reason with
    | cancelled => rfl
    | failed => exact holds.elim
    | eos | stop | length | timeout =>
      rcases closed with live | cancelled | failed
      · cases live
      · cases cancelled
      · cases failed

theorem Step.silenced (step : Step t t') (sound : t.Sound setup) (below : r < t.engine.created)
    (silenced : t.Silenced r tokens last) : ∃ last', t'.Silenced r tokens last' := by
  cases step.stream sound below with
  | same same =>
    refine ⟨last, silenced.toStreamed.same same, same.cancelled silenced.cancelled, ?_, silenced.ending⟩
    rcases same.phase with kept | may | prefill
    · rw [kept]
      exact silenced.phase
    · exact Or.inr (may.of_cancelled silenced.cancelled)
    · rw [prefill]
      exact Or.inl rfl
  | emits active pending live => exact absurd silenced.cancelled live
  | ends active final sequence log eosIds =>
    refine ⟨_, silenced.toStreamed.ended sound active final sequence log eosIds, ?_, ?_, fun event member => ?_⟩
    · show (t'.engine.sequences r).state.cancellation = true
      rw [sequence]
      exact silenced.cancelled
    · have phase : (t'.view r).phase = (t.view r).phase := congrArg (fun runtime => runtime.state.phase) sequence
      rw [phase]
      exact silenced.phase
    · cases Option.mem_some_iff.mp member
      exact final.endsCancelled silenced.phase _

/-- Whatever happens after a cancellation, no token is put on the queue any more. -/
theorem Chain.silenced (chain : Chain t t') (sound : t.Sound setup) (below : r < t.engine.created)
    (silenced : t.Silenced r tokens last) : ∃ last', t'.Silenced r tokens last' := by
  induction chain with
  | refl => exact ⟨last, silenced⟩
  | tail earlier step before =>
    obtain ⟨last', silenced'⟩ := before
    have onward := (Chain.lasts earlier).onward.created
    exact step.silenced (Chain.sound earlier sound) (Nat.lt_of_lt_of_le below onward) silenced'

end Cancellation

end Shared

namespace Configuration

variable {backend : InferenceBackend S} {setup : EngineSetup} {c c' : Configuration backend}

/-- A run is explained by steps of the engine's parties. -/
theorem runs_chain {decisions : List (Engine S)} (safe : (⟨c, decisions⟩ : Recorded backend).Safe setup)
    (runs : Relation.ReflTransGen Step c c') : Shared.Chain c.shared c'.shared ∧
      ∃ decisions', (⟨c', decisions'⟩ : Recorded backend).Safe setup := by
  induction runs with
  | refl => exact ⟨.refl, decisions, safe⟩
  | tail _ step before =>
    obtain ⟨chain, decisions', safe'⟩ := before
    obtain ⟨later, rfl, recorded⟩ := Recorded.Step.record (c := ⟨_, decisions'⟩) step
    obtain ⟨after, explained⟩ := recorded.safe safe'
    exact ⟨chain.trans (Chronicle.Moves.chain explained.moves), later.decisions, after⟩

theorem Reachable.streamed (reachable : c.Reachable backend setup) {r : Ref} (below : r < c.shared.engine.created) :
    ∃ tokens last, c.shared.Streamed r tokens last := by
  obtain ⟨decisions, safe⟩ := reachable.safe
  exact safe.reach.streamed below

/-- Whenever a task is suspended, blocks are owned by exactly the active
sequences, and a sequence that got its terminal event owns none. -/
theorem resources_conserved (reachable : c.Reachable backend setup) :
    (∀ id, (∃ table, c.shared.engine.kvAllocator.owners.get? id = some table) ↔
      ∃ r, c.shared.engine.active.get? id = some r) ∧
    (∀ id, c.shared.engine.active.get? id = none ∨ c.shared.engine.finished.get? id = none) ∧
    c.shared.engine.active.size ≤ setup.config.maxActiveSequences ∧
    (∀ id, backend.held c.shared.backendState id → ∃ r, c.shared.engine.active.get? id = some r ∧
      (c.shared.engine.sequences r).backendCreated = true) ∧
    ∀ r, r < c.shared.engine.created → ∀ event ∈ (c.shared.engine.sequences r).events, event.isTerminal = true →
      ¬ c.shared.ActiveRef r ∧ ∀ table,
        c.shared.engine.kvAllocator.owners.get? (c.shared.engine.requestId r) = some table →
          ∃ r', r' ≠ r ∧ c.shared.engine.active.get? (c.shared.engine.requestId r) = some r' := by
  obtain ⟨decisions, safe⟩ := reachable.safe
  have sound := safe.ready.sound
  have owned : ∀ id, (∃ table, c.shared.engine.kvAllocator.owners.get? id = some table) ↔
      ∃ r, c.shared.engine.active.get? id = some r := by
    intro id
    rw [← Option.isSome_iff_exists, ← Option.isSome_iff_exists, sound.owners id]
  refine ⟨owned, fun id => ?_, sound.config ▸ sound.capacity, sound.held, fun r below event member terminal => ?_⟩
  · cases found : c.shared.engine.active.get? id with
    | none => exact Or.inl rfl
    | some r => exact Or.inr (sound.apart id r found)
  · obtain ⟨tokens, last, streamed⟩ := safe.reach.streamed below
    have closed : ¬ c.shared.ActiveRef r := by
      intro active
      cases streamed.open_of_active sound active
      rw [streamed.events, Option.toList_none, List.append_nil] at member
      obtain ⟨token, -, rfl⟩ := List.mem_map.mp member
      cases terminal
    refine ⟨closed, fun table found => ?_⟩
    obtain ⟨r', other⟩ := (owned _).mp ⟨table, found⟩
    exact ⟨r', fun same => closed (same ▸ other), other⟩

namespace Sample

/-- Some sequence has got its terminal event. -/
def ended (c : Configuration (.ofAnswers answer)) : Bool :=
  (c.shared.engine.sequences 0).events.any StreamEvent.isTerminal ∧ 0 < c.shared.engine.created

theorem script_ends : ((plays answer (initial _ oneToken) script).any ended) = true := by decide +kernel

end Sample

open Sample in
theorem resources_conserved_sample : ∃ c : Configuration (.ofAnswers answer), c.Reachable _ oneToken ∧
    (∃ event ∈ (c.shared.engine.sequences 0).events, event.isTerminal = true) ∧ ¬ c.shared.ActiveRef 0 ∧
    c.shared.engine.active.size ≤ 4 := by
  obtain ⟨c, reachable, seen⟩ := script_reaches answer script_ends
  obtain ⟨terminal, created⟩ := of_decide_eq_true seen
  obtain ⟨event, member, ends⟩ := List.any_eq_true.mp terminal
  have conserved := resources_conserved reachable
  exact ⟨c, reachable, ⟨event, member, ends⟩, (conserved.2.2.2.2 0 created event member ends).1, conserved.2.2.1⟩

/-- A cancellation is accepted for sequences that are active and not at
their end; afterwards no token is put on the queue, and the one terminal event
is a completion by cancellation or a failure. -/
theorem cancellation_silences (reachable : c.Reachable backend setup) (id : String) :
    ((∀ r, c.shared.engine.active.get? id = some r → (c.shared.engine.sequences r).state.terminal = true) →
      (c.shared.engine.cancel id).1 = false) ∧
    ((c.shared.engine.cancel id).1 = true → ∃ r, c.shared.engine.active.get? id = some r ∧
      ∀ c' : Configuration backend, Relation.ReflTransGen Step
        { c with shared := c.shared.withEngine (c.shared.engine.cancel id).2 } c' →
          ∃ ending : Option StreamEvent, (c'.shared.engine.sequences r).events =
              (c.shared.engine.sequences r).events ++ ending.toList ∧
            ∀ event ∈ ending, event.endsCancelled = true) := by
  rcases c.shared.engine.cancel_cases id with ⟨refused, terminal⟩ | ⟨r, found, live, accepted⟩
  · refine ⟨fun _ => congrArg Prod.fst refused, fun accepted => ?_⟩
    cases (congrArg Prod.fst refused).symm.trans accepted
  refine ⟨fun terminal => ?_, fun _ => ⟨r, found, fun c' runs => ?_⟩⟩
  · cases live.symm.trans (terminal r found)
  obtain ⟨decisions, safe⟩ := reachable.safe
  have sound := safe.ready.sound
  have active : c.shared.ActiveRef r := by
    show c.shared.engine.active.get? (c.shared.engine.requestId r) = some r
    rw [(sound.named id r found).1]
    exact found
  have below := sound.bound active
  obtain ⟨tokens, last, streamed⟩ := safe.reach.streamed below
  cases streamed.open_of_active sound active
  have cancels : Step c { c with shared := c.shared.withEngine (c.shared.engine.cancel id).2 } := .immediate (.cancel _ id)
  obtain ⟨-, decisions', safe'⟩ := runs_chain safe (.single cancels)
  have silenced := streamed.cancelled live
  rw [accepted] at safe' runs
  obtain ⟨last', silenced'⟩ := (runs_chain safe' runs).1.silenced safe'.ready.sound below silenced
  refine ⟨last', ?_, silenced'.ending⟩
  rw [silenced'.events, streamed.events, Option.toList_none, List.append_nil]

namespace Sample

theorem first_cancellable : ((plays answer (initial _ oneToken) [.reserve "first" "short" sampling 10 0]).any
    fun c => (c.shared.engine.cancel "first").1) = true := by decide +kernel

end Sample

open Sample in
theorem cancellation_silences_sample : ∃ c : Configuration (.ofAnswers answer), c.Reachable _ oneToken ∧
    (c.shared.engine.cancel "first").1 = true ∧ ∃ r, c.shared.engine.active.get? "first" = some r ∧
      ∀ c' : Configuration (.ofAnswers answer), Relation.ReflTransGen Step
        { c with shared := c.shared.withEngine (c.shared.engine.cancel "first").2 } c' →
          ∃ ending : Option StreamEvent, (c'.shared.engine.sequences r).events =
              (c.shared.engine.sequences r).events ++ ending.toList ∧
            ∀ event ∈ ending, event.endsCancelled = true := by
  obtain ⟨c, reachable, accepted⟩ := script_reaches answer first_cancellable
  exact ⟨c, reachable, accepted, (cancellation_silences reachable "first").2 accepted⟩

end Configuration

end ServingPlatform
