import ServingPlatform.TokenEngine.Invariant

namespace ServingPlatform.Shared

variable {S : Type} {backend : InferenceBackend S} {setup : EngineSetup} {t t' : Shared backend}

section Updates

/-- Another allocator with the same owners. -/
theorem Sound.reallocated (before : t.Sound setup) {kvAllocator : KVBlockAllocator} (kv : kvAllocator.Consistent)
    (dimensions : kvAllocator.dimensions = t.engine.kvAllocator.dimensions)
    (owners : ∀ id, (kvAllocator.owners.get? id).isSome = (t.engine.kvAllocator.owners.get? id).isSome) :
    (t.withEngine { t.engine with kvAllocator }).Sound setup :=
  { before with
    dimensions := dimensions.trans before.dimensions
    kv := kv
    owners := fun id => (owners id).trans (before.owners id) }

theorem Sound.recached (before : t.Sound setup) {prefixCache : PrefixCache S} (coherent : prefixCache.Coherent) :
    (t.withEngine { t.engine with prefixCache }).Sound setup :=
  { before with cache := coherent }

theorem Sound.noteResize (before : t.Sound setup) (r : Ref) {outcome : Except Raised (List BlockId) × KVBlockAllocator}
    (kv : outcome.2.Consistent) (dimensions : outcome.2.dimensions = t.engine.kvAllocator.dimensions)
    (owners : ∀ id, (outcome.2.owners.get? id).isSome = (t.engine.kvAllocator.owners.get? id).isSome) :
    (t.withEngine (t.engine.noteResize r outcome).2).Sound setup := by
  have reallocated := before.reallocated kv dimensions owners
  rcases t.engine.noteResize_cases r outcome with ⟨raised, -, run⟩ | ⟨blocks, -, run⟩
  · rw [run]
    exact reallocated
  · rw [run]
    exact reallocated.modifySequence (r := r) (f := fun runtime =>
        { runtime with state := { runtime.state with kvBlockIds := blocks } })
      (fun _ => rfl) (fun _ => rfl) (fun heldId active => reallocated.created heldId active) fun _ flag => flag

theorem Sound.resized (before : t.Sound setup) (r : Ref) (prompt : TokenizedPrompt) :
    (t.withEngine (t.engine.resizeReservation r prompt).2).Sound setup := by
  have owners := KVBlockAllocator.resize_owners before.kv (t.engine.requestId r) (t.engine.totalTokens r prompt)
  refine before.noteResize r owners.1 owners.2.1 fun id => ?_
  rcases eq_or_ne id (t.engine.requestId r) with rfl | differ
  · exact owners.2.2.2
  · rw [owners.2.2.1 id differ]

theorem Sound.retired (before : t.Sound setup) {r : Ref} (active : t.ActiveRef r)
    (released : (t.engine.sequences r).backendCreated = false) (event : ScheduledSequence → StreamEvent) :
    (t.withEngine (t.engine.retire r event).2).Sound setup := by
  obtain ⟨table, owned⟩ := before.owned active
  obtain ⟨kvAllocator, freed, run⟩ := Engine.retire_ok before.kv owned event
  rw [run]
  generalize change : (fun runtime : ScheduledSequence =>
    { runtime with events := runtime.events ++ [event runtime], done := true }) = f
  have sameId : ∀ r', (t.engine.modifySequence r f).requestId r' = t.engine.requestId r' :=
    Engine.modifySequence_congr (fun runtime => runtime.state.requestId) (by rw [← change])
  have sameFlag : ∀ r', ((t.engine.modifySequence r f).sequences r').backendCreated =
      (t.engine.sequences r').backendCreated :=
    Engine.modifySequence_congr (fun runtime => runtime.backendCreated) (by rw [← change])
  have stays : ∀ {id : String} {r' : Ref}, (t.engine.active.erase (t.engine.requestId r)).get? id = some r' →
      id ≠ t.engine.requestId r ∧ t.engine.active.get? id = some r' := by
    intro id r' found
    rw [Dict.get?_erase] at found
    split at found
    · cases found
    · rename_i differ
      exact ⟨differ, found⟩
  have still : ∀ r', (t.engine.active.erase (t.engine.requestId r)).get?
      ((t.engine.modifySequence r f).requestId r') = some r' → t.ActiveRef r' ∧ r' ≠ r := by
    intro r' found
    rw [sameId] at found
    exact ⟨(stays found).2, fun same => (stays found).1 (congrArg t.engine.requestId same)⟩
  exact {
    config := before.config
    dimensions := freed.dimensions.trans before.dimensions
    kv := freed.consistent before.kv
    cache := before.cache
    named := fun id r' found => by
      have earlier := before.named id r' (stays found).2
      exact ⟨(sameId r').trans earlier.1, earlier.2⟩
    past := fun id r' found => by
      rcases eq_or_ne id (t.engine.requestId r) with rfl | differ
      · cases Dict.get?_insert_self.symm.trans found
        exact ⟨sameId r, before.bound active⟩
      · have earlier := before.past id r' ((Dict.get?_insert_of_ne differ).symm.trans found)
        exact ⟨(sameId r').trans earlier.1, earlier.2⟩
    apart := fun id r' found =>
      (Dict.get?_insert_of_ne (stays found).1).trans (before.apart id r' (stays found).2)
    owners := fun id => by
      show (kvAllocator.owners.get? id).isSome = ((t.engine.active.erase (t.engine.requestId r)).get? id).isSome
      rw [freed.owners, Dict.get?_erase, Dict.get?_erase]
      split
      · rfl
      · exact before.owners id
    capacity := by
      have smaller := Dict.size_erase (show t.engine.active.get? (t.engine.requestId r) = some r from active)
      exact Nat.le_trans (Nat.le_of_lt (smaller ▸ Nat.lt_succ_self _)) before.capacity
    held := fun id heldId => by
      obtain ⟨r', found, flag⟩ := before.held id heldId
      refine ⟨r', ?_, (sameFlag r').trans flag⟩
      refine (Dict.get?_erase_of_ne fun same => ?_).trans found
      subst same
      cases found.symm.trans active
      cases flag.symm.trans released
    executor := fun closed => absurd active ((before.executor closed).2 r)
    returned := fun task => absurd active ((before.returned task).2 r)
    idle := fun task r' stillActive => (sameFlag r').trans (before.idle task r' (still r' stillActive).1)
    mentioned := before.mentioned
    live := fun r' below => by
      show ((t.engine.modifySequence r f).sequences r').done = false ↔
        (t.engine.active.erase (t.engine.requestId r)).get? ((t.engine.modifySequence r f).requestId r') = some r'
      rcases Engine.modifySequence_cases (e := t.engine) (r := r) r' f with ⟨rfl, here⟩ | ⟨differ, elsewhere⟩
      · rw [here]
        refine ⟨fun isOver => ?_, fun found => absurd rfl (still r' found).2⟩
        rw [← change] at isOver
        cases isOver
      · rw [elsewhere, before.live r' below]
        refine ⟨fun activeHere => ?_, fun found => (still r' found).1⟩
        rw [sameId]
        refine (Dict.get?_erase_of_ne fun same => ?_).trans activeHere
        exact differ (Option.some.inj ((same ▸ show t.engine.active.get? (t.engine.requestId r') = some r'
          from activeHere).symm.trans active)) }

theorem Sound.admitted (before : t.Sound setup) {state : SequenceState} {kvAllocator : KVBlockAllocator} {n : Nat}
    (opened : t.engine.closed = false) (inactive : t.engine.active.get? state.requestId = none)
    (unfinished : t.engine.finished.get? state.requestId = none)
    (room : t.engine.active.size < t.engine.config.maxActiveSequences)
    (unowned : t.engine.kvAllocator.owners.get? state.requestId = none)
    (grown : KVBlockAllocator.Grown t.engine.kvAllocator kvAllocator state.requestId [] n) :
    (t.withEngine (t.engine.admitSequence state kvAllocator)).Sound setup := by
  have old : ∀ {r : Ref}, r < t.engine.created →
      (t.engine.admitSequence state kvAllocator).sequences r = t.engine.sequences r :=
    fun below => if_neg (Nat.ne_of_lt below)
  have new : (t.engine.admitSequence state kvAllocator).sequences t.engine.created = { state } := if_pos rfl
  have cases : ∀ {id : String} {r : Ref}, (t.engine.active.insert state.requestId t.engine.created).get? id = some r →
      (id = state.requestId ∧ r = t.engine.created) ∨ (id ≠ state.requestId ∧ t.engine.active.get? id = some r) := by
    intro id r found
    rcases eq_or_ne id state.requestId with rfl | differ
    · cases Dict.get?_insert_self.symm.trans found
      exact Or.inl ⟨rfl, rfl⟩
    · exact Or.inr ⟨differ, (Dict.get?_insert_of_ne differ).symm.trans found⟩
  have joins : ∀ {id : String} {r : Ref}, t.engine.active.get? id = some r →
      (t.engine.active.insert state.requestId t.engine.created).get? id = some r := by
    intro id r found
    refine (Dict.get?_insert_of_ne fun same => ?_).trans found
    rw [same, inactive] at found
    cases found
  exact {
    config := before.config
    dimensions := grown.dimensions.trans before.dimensions
    kv := grown.consistent (Or.inr ⟨unowned, rfl⟩) before.kv
    cache := before.cache
    named := fun id r found => by
      rcases cases found with ⟨rfl, rfl⟩ | ⟨-, found⟩
      · exact ⟨congrArg (fun runtime => runtime.state.requestId) new, Nat.lt_succ_self _⟩
      · have earlier := before.named id r found
        exact ⟨(congrArg (fun runtime => runtime.state.requestId) (old earlier.2)).trans earlier.1,
          Nat.lt_succ_of_lt earlier.2⟩
    past := fun id r found => by
      have earlier := before.past id r found
      exact ⟨(congrArg (fun runtime => runtime.state.requestId) (old earlier.2)).trans earlier.1,
        Nat.lt_succ_of_lt earlier.2⟩
    apart := fun id r found => by
      rcases cases found with ⟨rfl, -⟩ | ⟨-, found⟩
      · exact unfinished
      · exact before.apart id r found
    owners := fun id => by
      show (kvAllocator.owners.get? id).isSome =
        ((t.engine.active.insert state.requestId t.engine.created).get? id).isSome
      rw [grown.owners, Dict.get?_insert, Dict.get?_insert]
      split
      · rfl
      · exact before.owners id
    capacity := by
      show (t.engine.active.insert state.requestId t.engine.created).size ≤ _
      rw [Dict.size_insert_of_fresh (Dict.get?_eq_none_iff.mp inactive)]
      exact room
    held := fun id heldId => by
      obtain ⟨r, found, flag⟩ := before.held id heldId
      exact ⟨r, joins found, (congrArg (fun runtime => runtime.backendCreated) (old (before.named id r found).2)).trans flag⟩
    executor := fun closed => by
      cases opened.symm.trans (before.executor closed).1
    returned := fun task => by
      cases opened.symm.trans (before.returned task).1
    idle := fun task r active => by
      rcases cases active with ⟨-, rfl⟩ | ⟨-, found⟩
      · exact congrArg (fun runtime => runtime.backendCreated) new
      · have earlier := before.named _ r found
        refine (congrArg (fun runtime => runtime.backendCreated) (old earlier.2)).trans (before.idle task r ?_)
        exact (congrArg t.engine.active.get? earlier.1).trans found
    mentioned := fun c member r listed => Nat.lt_succ_of_lt (before.mentioned c member r listed)
    live := fun r below => by
      rcases Nat.lt_succ_iff_lt_or_eq.mp below with older | rfl
      · show ((t.engine.admitSequence state kvAllocator).sequences r).done = false ↔
          (t.engine.active.insert state.requestId t.engine.created).get?
            ((t.engine.admitSequence state kvAllocator).sequences r).state.requestId = some r
        rw [old older, before.live r older]
        refine ⟨joins, fun found => ?_⟩
        rcases cases found with ⟨-, rfl⟩ | ⟨-, found⟩
        · exact absurd older (Nat.lt_irrefl _)
        · exact found
      · show ((t.engine.admitSequence state kvAllocator).sequences t.engine.created).done = false ↔
          (t.engine.active.insert state.requestId t.engine.created).get?
            ((t.engine.admitSequence state kvAllocator).sequences t.engine.created).state.requestId = some t.engine.created
        rw [new]
        exact ⟨fun _ => Dict.get?_insert_self, fun _ => rfl⟩ }

end Updates

/-- An update of one sequence that leaves its flag alone. -/
theorem Sound.rewritten (before : t.Sound setup) {r : Ref} {f : ScheduledSequence → ScheduledSequence}
    (named : ∀ runtime, (f runtime).state.requestId = runtime.state.requestId)
    (done : ∀ runtime, (f runtime).done = runtime.done)
    (flag : ∀ runtime, (f runtime).backendCreated = runtime.backendCreated) :
    (t.withEngine (t.engine.modifySequence r f)).Sound setup :=
  before.modifySequence named done (fun heldId active => (flag _).trans (before.created heldId active))
    fun _ unset => (flag _).trans unset

theorem Action.sound (action : Action t t') (before : t.Sound setup) : t'.Sound setup := by
  cases action with
  | quiet same => exact before.quiet same
  | tokenized => exact before.rewritten (fun _ => rfl) (fun _ => rfl) fun _ => rfl
  | resized => exact before.resized _ _
  | beginPrefill _ task =>
    exact before.modifySequence (fun _ => rfl) (fun _ => rfl) (fun _ _ => rfl) fun none => by
      cases none.symm.trans task
  | lookup => exact before.recached (PrefixCache.longestPrefix_coherent before.cache _ _)
  | advanced => exact before.rewritten (fun _ => rfl) (fun _ => rfl) fun _ => rfl
  | eosKnown => exact { before with }
  | stored => exact before.recached (PrefixCache.put_coherent before.cache _ _)
  | closing => exact before.rewritten (fun _ => rfl) (fun _ => rfl) fun _ => rfl
  | released _ _ gone => exact before.modifySequence (fun _ => rfl) (fun _ => rfl) (fun heldId => absurd heldId gone) fun _ _ => rfl
  | cached => exact before.rewritten (fun _ => rfl) (fun _ => rfl) fun _ => rfl
  | emitted => exact before.rewritten (fun _ => rfl) (fun _ => rfl) fun _ => rfl
  | retired active _ released => exact before.retired active released _

theorem Sound.reserved (before : t.Sound setup) (id prompt : String) (sampling : SamplingParameters)
    (deadline : Seconds) (count : Int) (createdAt : Seconds) :
    (t.withEngine (t.engine.reserve id prompt sampling deadline count createdAt).2).Sound setup := by
  rcases t.engine.reserve_cases id prompt sampling deadline count createdAt with
    ⟨raised, kvAllocator, run, same⟩ |
    ⟨n, kvAllocator, blocks, opened, inactive, unfinished, room, grown, unowned, run⟩
  · rw [run]
    exact before.reallocated (same.consistent before.kv) same.dimensions fun id => by rw [same.owners]
  · rw [run]
    exact before.admitted opened inactive unfinished room unowned grown

/-- A scheduler's task that is over stays so. -/
theorem Sound.ensured (before : t.Sound setup) : (t.withEngine t.engine.ensureScheduler).Sound setup := by
  have task : ∀ {task : SchedulerTask}, t.engine.ensureScheduler.schedulerTask = some task →
      task = .running ∨ t.engine.schedulerTask = some task := by
    intro task found
    unfold Engine.ensureScheduler at found
    cases current : t.engine.schedulerTask with
    | none =>
      rw [current] at found
      exact Or.inl (Option.some.inj found).symm
    | some other =>
      rw [current] at found
      exact Or.inr found
  exact { before with
    returned := fun isOver => by
      rcases task isOver with running | same
      · cases running
      · exact before.returned same
    idle := fun none => by cases none }

theorem Sound.popped (before : t.Sound setup) (id : String) : (t.withEngine (t.engine.popFinished id)).Sound setup := by
  have earlier : ∀ {other : String} {r : Ref}, (t.engine.finished.erase id).get? other = some r →
      t.engine.finished.get? other = some r := by
    intro other r found
    rw [Dict.get?_erase] at found
    split at found
    · cases found
    · exact found
  exact { before with
    past := fun other r found => before.past other r (earlier found)
    apart := fun other r found => by
      show (t.engine.finished.erase id).get? other = none
      rw [Dict.get?_erase]
      split
      · rfl
      · exact before.apart other r found }

theorem ClientAction.sound (action : ClientAction t t') (before : t.Sound setup) : t'.Sound setup := by
  cases action with
  | quiet same => exact before.quiet same
  | reserve => exact before.reserved _ _ _ _ _ _
  | ensureScheduler => exact before.ensured
  | popFinished => exact before.popped _
  | clearPrefixCache => exact before.recached PrefixCache.clear_coherent
  | closeExecutor closed none => exact { before with executor := fun _ => ⟨closed, none⟩ }
  | action _ action => exact action.sound before

theorem Sound.record (before : t.Sound setup) {command : BackendCall S} {sequences : List Ref}
    {result : Except Raised command.Answer} {after : backend.State} (guard : t.CallGuard command sequences)
    (run : backend.Runs command t.backendState result after) :
    (t.record command sequences result after).Sound setup :=
  { before with
    held := fun id heldId => by
      rcases run.created heldId with earlier | made
      · exact before.held id earlier
      · obtain ⟨r, active, rfl, flag⟩ := guard.creates made
        exact ⟨r, active, flag⟩
    mentioned := fun c member r listed => by
      rcases List.mem_cons.mp member with rfl | earlier
      · exact before.bound (guard.active r listed)
      · exact before.mentioned c earlier r listed }

theorem Step.sound (step : Step t t') (before : t.Sound setup) : t'.Sound setup := by
  cases step with
  | scheduler action => exact action.sound before
  | decided => exact { before with }
  | client action => exact action.sound before
  | call guard run => exact before.record guard run
  | stop _ none run =>
    exact { before with
      held := fun id heldId => by
        rcases InferenceBackend.Runs.created run heldId with earlier | made
        · exact before.held id earlier
        · cases made }
  | schedulerReturned closed none =>
    exact { before with
      returned := fun _ => ⟨closed, none⟩
      idle := fun task => by cases task }
  | schedulerRaised =>
    exact { before with
      returned := fun task => by cases task
      idle := fun task => by cases task }

/-- The invariant holds after any run. -/
theorem Reach.sound (reach : Reach setup t) : t.Sound setup := by
  induction reach with
  | refl => exact initial_sound backend setup
  | tail _ step before => exact step.sound before

end ServingPlatform.Shared
