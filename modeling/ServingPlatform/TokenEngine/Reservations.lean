import ServingPlatform.TokenEngine.EngineSteps

namespace ServingPlatform

variable {S : Type}

/-- The sequence is not done, and its stream has got tokens only. -/
def ScheduledSequence.Underway (runtime : ScheduledSequence) : Prop :=
  runtime.done = false ∧ ∀ event ∈ runtime.events, ∃ token, event = .token token

namespace Engine

variable {e e' e'' : Engine S} {r : Ref}

/-- What is reserved is under way, and reserved under its own identifier, and
blocks are held for reservations only. -/
structure Reserves (e : Engine S) : Prop where
  underway : ∀ id r, e.active.get? id = some r → e.requestId r = id ∧ r < e.created ∧ (e.sequences r).Underway
  kv : e.kvAllocator.Consistent
  owned : ∀ id, (e.kvAllocator.owners.get? id).isSome = true → (e.active.get? id).isSome = true

/-- Reservations are given back at most, and no cancellation is taken back. -/
structure Drains (e e' : Engine S) : Prop where
  created : e'.created = e.created
  requestId : ∀ r, e'.requestId r = e.requestId r
  active : ∀ id r, e'.active.get? id = some r → e.active.get? id = some r
  cancellation : ∀ r, (e.sequences r).state.cancellation = true → (e'.sequences r).state.cancellation = true
  reserves : e.Reserves → e'.Reserves

/-- Reservations and queues stay as they are. -/
structure Eased (e e' : Engine S) : Prop where
  created : e'.created = e.created
  requestId : ∀ r, e'.requestId r = e.requestId r
  active : e'.active = e.active
  kvAllocator : e'.kvAllocator = e.kvAllocator
  cancellation : ∀ r, (e.sequences r).state.cancellation = true → (e'.sequences r).state.cancellation = true
  done : ∀ r, (e'.sequences r).done = (e.sequences r).done
  events : ∀ r, (e'.sequences r).events = (e.sequences r).events

namespace Drains

theorem refl (e : Engine S) : e.Drains e := ⟨rfl, fun _ => rfl, fun _ _ found => found, fun _ set => set, id⟩

theorem trans (first : e.Drains e') (second : e'.Drains e'') : e.Drains e'' where
  created := second.created.trans first.created
  requestId r := (second.requestId r).trans (first.requestId r)
  active id r found := first.active id r (second.active id r found)
  cancellation r set := second.cancellation r (first.cancellation r set)
  reserves before := second.reserves (first.reserves before)

theorem of_steps (steps : Relation.ReflTransGen Drains e e') : e.Drains e' := by
  induction steps with
  | refl => exact refl e
  | tail _ last before => exact before.trans last

end Drains

namespace Eased

theorem refl (e : Engine S) : e.Eased e := ⟨rfl, fun _ => rfl, rfl, rfl, fun _ set => set, fun _ => rfl, fun _ => rfl⟩

theorem trans (first : e.Eased e') (second : e'.Eased e'') : e.Eased e'' where
  created := second.created.trans first.created
  requestId r := (second.requestId r).trans (first.requestId r)
  active := second.active.trans first.active
  kvAllocator := second.kvAllocator.trans first.kvAllocator
  cancellation r set := second.cancellation r (first.cancellation r set)
  done r := (second.done r).trans (first.done r)
  events r := (second.events r).trans (first.events r)

theorem drains (eased : e.Eased e') : e.Drains e' where
  created := eased.created
  requestId := eased.requestId
  active id r found := by
    rw [eased.active] at found
    exact found
  cancellation := eased.cancellation
  reserves before := by
    refine ⟨fun id r found => ?_, ?_, fun id owner => ?_⟩
    · rw [eased.active] at found
      obtain ⟨named, inside, live, tokens⟩ := before.underway id r found
      refine ⟨(eased.requestId r).trans named, ?_, (eased.done r).trans live, ?_⟩
      · rw [eased.created]
        exact inside
      · rw [eased.events]
        exact tokens
    · rw [eased.kvAllocator]
      exact before.kv
    · rw [eased.kvAllocator] at owner
      rw [eased.active]
      exact before.owned id owner

end Eased

section Updates

/-- One sequence changes, and is under way as before. -/
theorem Drains.modified {f : ScheduledSequence → ScheduledSequence}
    (named : ∀ runtime, (f runtime).state.requestId = runtime.state.requestId)
    (cancellation : ∀ runtime, runtime.state.cancellation = true → (f runtime).state.cancellation = true)
    (underway : ∀ runtime, runtime.Underway → (f runtime).Underway) : e.Drains (e.modifySequence r f) := by
  have same : ∀ r', (e.modifySequence r f).requestId r' = e.requestId r' := modifySequence_congr (·.state.requestId) (named _)
  refine ⟨rfl, same, fun _ _ found => found, fun r' set => ?_, fun before => ⟨fun id r' found => ?_, before.kv, before.owned⟩⟩
  · rcases modifySequence_cases (e := e) (r := r) r' f with ⟨-, here⟩ | ⟨-, elsewhere⟩
    · rw [here]
      exact cancellation _ set
    · rw [elsewhere]
      exact set
  · obtain ⟨id', inside, live⟩ := before.underway id r' found
    refine ⟨(same r').trans id', inside, ?_⟩
    rcases modifySequence_cases (e := e) (r := r) r' f with ⟨-, here⟩ | ⟨-, elsewhere⟩
    · rw [here]
      exact underway _ live
    · rw [elsewhere]
      exact live

/-- Only the allocator changes, which holds no more blocks than before. -/
theorem Drains.allocated {kvAllocator : KVBlockAllocator} (consistent : e.kvAllocator.Consistent → kvAllocator.Consistent)
    (owners : e.kvAllocator.Consistent → ∀ id, (kvAllocator.owners.get? id).isSome = true →
      (e.kvAllocator.owners.get? id).isSome = true) : e.Drains { e with kvAllocator } :=
  ⟨rfl, fun _ => rfl, fun _ _ found => found, fun _ set => set, fun before =>
    ⟨before.underway, consistent before.kv, fun id owner => before.owned id (owners before.kv id owner)⟩⟩

/-- A sequence that leaves may change in any way. -/
theorem Drains.retired {event : ScheduledSequence → StreamEvent} {result : Except Raised Unit}
    (run : e.retire r event = (result, e')) : e.Drains e' := by
  have released : e.kvAllocator.Consistent → ∀ id, ((e.kvAllocator.release (e.requestId r)).2.owners.get? id).isSome = true →
      id ≠ e.requestId r ∧ (e.kvAllocator.owners.get? id).isSome = true := by
    intro consistent id owner
    rcases KVBlockAllocator.release_cases consistent (e.requestId r) with ⟨same, unowned⟩ | ⟨table, after, run, freed⟩
    · rw [same] at owner
      refine ⟨?_, owner⟩
      rintro rfl
      rw [unowned] at owner
      cases owner
    · rw [run] at owner
      dsimp only at owner
      rw [freed.owners, Dict.get?_erase] at owner
      split at owner
      · cases owner
      · rename_i other
        exact ⟨other, owner⟩
  unfold retire at run
  split at run <;> rename_i kvAllocator frees
  · cases run
    refine .allocated (fun before => ?_) fun before id owner => ?_
    · have after := KVBlockAllocator.release_consistent before (e.requestId r)
      rw [frees] at after
      exact after
    · have kept := released before id
      rw [frees] at kept
      exact (kept owner).2
  · cases run
    have same : ∀ r', (e.modifySequence r fun runtime =>
        { runtime with events := runtime.events ++ [event runtime], done := true }).requestId r' = e.requestId r' :=
      modifySequence_congr (·.state.requestId) rfl
    have fewer : ∀ id r', (e.active.erase (e.requestId r)).get? id = some r' →
        id ≠ e.requestId r ∧ e.active.get? id = some r' := by
      intro id r' found
      rw [Dict.get?_erase] at found
      split at found
      · cases found
      · rename_i other
        exact ⟨other, found⟩
    refine ⟨rfl, same, fun id r' found => (fewer id r' found).2, fun r' set => ?_, fun before => ⟨fun id r' found => ?_, ?_, fun id owner => ?_⟩⟩
    · have kept := modifySequence_congr (e := e) (r := r) (f := fun runtime =>
        { runtime with events := runtime.events ++ [event runtime], done := true }) (·.state.cancellation) rfl r'
      exact kept.trans set
    · obtain ⟨other, here⟩ := fewer id r' found
      obtain ⟨named, inside, live⟩ := before.underway id r' here
      refine ⟨(same r').trans named, inside, ?_⟩
      have apart : r' ≠ r := by
        rintro rfl
        exact other named.symm
      dsimp only
      rw [modifySequence_of_ne apart]
      exact live
    · have after := KVBlockAllocator.release_consistent before.kv (e.requestId r)
      rw [frees] at after
      exact after
    · have kept := released before.kv id
      rw [frees] at kept
      obtain ⟨other, owner⟩ := kept owner
      dsimp only
      rw [Dict.get?_erase_of_ne other]
      exact before.owned id owner

/-- The blocks of a reservation are resized. -/
theorem Drains.resized {prompt : TokenizedPrompt} {result : Except Raised Unit}
    (run : e.resizeReservation r prompt = (result, e')) : e.Drains e' := by
  have allocated : e.Drains { e with kvAllocator := (e.kvAllocator.resize (e.requestId r) (e.totalTokens r prompt)).2 } := by
    refine .allocated (fun before => ?_) fun before id owner => ?_
    · exact KVBlockAllocator.resize_consistent before _ _
    · obtain ⟨-, -, others, own⟩ := KVBlockAllocator.resize_owners before (e.requestId r) (e.totalTokens r prompt)
      by_cases here : id = e.requestId r
      · rw [here, own] at owner
        rw [here]
        exact owner
      · rw [others id here] at owner
        exact owner
  unfold resizeReservation at run
  rcases outcome : e.kvAllocator.resize (e.requestId r) (e.totalTokens r prompt) with ⟨raised | blocks, kvAllocator⟩
  · rw [outcome] at run allocated
    cases run
    exact allocated
  · rw [outcome] at run allocated
    cases run
    refine allocated.trans ?_
    exact .modified (e := { e with kvAllocator }) (f := fun runtime =>
      { runtime with state := { runtime.state with kvBlockIds := blocks } }) (fun _ => rfl) (fun _ set => set) fun _ live => live

theorem Drains.emitted (e : Engine S) (r : Ref) (token : GeneratedToken) : e.Drains (e.emit r token) := by
  refine .modified (fun _ => rfl) (fun _ set => set) fun runtime live => ⟨live.1, fun event member => ?_⟩
  rcases List.mem_append.mp member with before | here
  · exact live.2 event before
  · exact ⟨token, List.mem_singleton.mp here⟩

theorem Eased.closed (e : Engine S) : e.Eased e.close := by
  have same : ∀ {β : Type} (g : ScheduledSequence → β) (r : Ref),
      g { e.sequences r with state := { (e.sequences r).state with cancellation := true } } = g (e.sequences r) →
        g (e.close.sequences r) = g (e.sequences r) := by
    intro β g r kept
    unfold close
    dsimp only
    split
    · exact kept
    · rfl
  refine ⟨rfl, fun r => same (·.state.requestId) r rfl, rfl, rfl, fun r set => ?_, fun r => same (·.done) r rfl, fun r => same (·.events) r rfl⟩
  unfold close
  dsimp only
  split
  · rfl
  · exact set

/-- One sequence changes, but for its identifier, its end and its queue. -/
theorem Eased.modified {f : ScheduledSequence → ScheduledSequence}
    (named : ∀ runtime, (f runtime).state.requestId = runtime.state.requestId)
    (cancellation : ∀ runtime, runtime.state.cancellation = true → (f runtime).state.cancellation = true)
    (done : ∀ runtime, (f runtime).done = runtime.done) (events : ∀ runtime, (f runtime).events = runtime.events) :
    e.Eased (e.modifySequence r f) := by
  refine ⟨rfl, modifySequence_congr (·.state.requestId) (named _), rfl, rfl, fun r' set => ?_, modifySequence_congr (·.done) (done _),
    modifySequence_congr (·.events) (events _)⟩
  rcases modifySequence_cases (e := e) (r := r) r' f with ⟨-, here⟩ | ⟨-, elsewhere⟩
  · rw [here]
    exact cancellation _ set
  · rw [elsewhere]
    exact set

theorem Eased.setCancellation (e : Engine S) (r : Ref) : e.Eased (e.setCancellation r) :=
  .modified (fun _ => rfl) (fun _ _ => rfl) (fun _ => rfl) fun _ => rfl

theorem Eased.setWake (e : Engine S) : e.Eased e.setWake :=
  ⟨rfl, fun _ => rfl, rfl, rfl, fun _ set => set, fun _ => rfl, fun _ => rfl⟩

theorem Eased.popFinished (e : Engine S) (requestId : String) : e.Eased (e.popFinished requestId) :=
  ⟨rfl, fun _ => rfl, rfl, rfl, fun _ set => set, fun _ => rfl, fun _ => rfl⟩

end Updates

section Reserve

/-- A reservation is added under `id`, and nothing else is. -/
structure Admits (e : Engine S) (id : String) (e' : Engine S) : Prop where
  reserves : e.Reserves → e'.Reserves
  active : e.Reserves → ∀ id' r, e'.active.get? id' = some r → id' = id ∨
    e.active.get? id' = some r ∧ e'.sequences r = e.sequences r

variable {id prompt : String} {sampling : SamplingParameters} {deadline : Seconds} {count : Int} {createdAt : Seconds}

theorem Admits.admitSequence (state : SequenceState) {kvAllocator : KVBlockAllocator} {n : Nat}
    (grown : KVBlockAllocator.Grown e.kvAllocator kvAllocator state.requestId [] n)
    (unowned : e.kvAllocator.owners.get? state.requestId = none) : e.Admits state.requestId (e.admitSequence state kvAllocator) := by
  have new : (e.admitSequence state kvAllocator).sequences e.created = { state } := if_pos rfl
  have old : ∀ r, r < e.created → (e.admitSequence state kvAllocator).sequences r = e.sequences r :=
    fun r earlier => if_neg (Nat.ne_of_lt earlier)
  have found : ∀ id' r, (e.admitSequence state kvAllocator).active.get? id' = some r →
      id' = state.requestId ∧ r = e.created ∨ e.active.get? id' = some r := by
    intro id' r here
    have here : (e.active.insert state.requestId e.created).get? id' = some r := here
    rw [Dict.get?_insert] at here
    split at here
    · rename_i same
      exact Or.inl ⟨same, (Option.some.inj here).symm⟩
    · exact Or.inr here
  refine ⟨fun before => ⟨fun id' r here => ?_, grown.consistent (Or.inr ⟨unowned, rfl⟩) before.kv, fun id' owner => ?_⟩,
    fun before id' r here => ?_⟩
  · rcases found id' r here with ⟨same, rfl⟩ | there
    · unfold requestId
      rw [new]
      exact ⟨same.symm, Nat.lt_succ_self _, rfl, fun event impossible => by cases impossible⟩
    · obtain ⟨named, inside, live⟩ := before.underway id' r there
      unfold requestId at named ⊢
      rw [old r inside]
      exact ⟨named, Nat.lt_succ_of_lt inside, live⟩
  · have owner : (kvAllocator.owners.get? id').isSome = true := owner
    show ((e.active.insert state.requestId e.created).get? id').isSome = true
    rw [grown.owners, Dict.get?_insert] at owner
    rw [Dict.get?_insert]
    split at owner
    · rename_i same
      rw [if_pos same]
      rfl
    · rename_i other
      rw [if_neg other]
      exact before.owned id' owner
  · rcases found id' r here with ⟨same, -⟩ | there
    · exact Or.inl same
    · exact Or.inr ⟨there, old r (before.underway id' r there).2.1⟩

/-- A reservation is refused, and then nothing is held for it, or it is added. -/
theorem reserve_spec (e : Engine S) (id prompt : String) (sampling : SamplingParameters) (deadline : Seconds) (count : Int)
    (createdAt : Seconds) :
    (∃ raised e', e.reserve id prompt sampling deadline count createdAt = (.error raised, e') ∧ e.Drains e') ∨
      ∃ e', e.reserve id prompt sampling deadline count createdAt = (.ok (), e') ∧ e.Admits id e' := by
  rcases e.reserve_cases id prompt sampling deadline count createdAt with
    ⟨raised, kvAllocator, run, same⟩ | ⟨n, kvAllocator, blocks, -, -, -, -, grown, unowned, run⟩
  · refine Or.inl ⟨raised, _, run, .allocated same.consistent fun _ id' owner => ?_⟩
    rw [same.owners] at owner
    exact owner
  · refine Or.inr ⟨_, run, ?_⟩
    exact .admitSequence { requestId := id, prompt, sampling, deadline, createdAt, kvBlockIds := blocks } grown unowned

/-- A new engine has reserved nothing. -/
theorem Reserves.initial (setup : EngineSetup) : (setup.engine : Engine S).Reserves := by
  refine ⟨fun id r impossible => (by cases impossible), KVBlockAllocator.ofDimensions_consistent _, fun id impossible => ?_⟩
  have empty : ((Dict.empty : Dict String (List BlockId)).get? id).isSome = true := impossible
  cases empty

end Reserve

end Engine

theorem Shared.take_eased {backend : InferenceBackend S} (t : Shared backend) (r : Ref) : t.engine.Eased (t.take r).engine :=
  Engine.Eased.modified (e := t.engine) (r := r) (f := fun runtime => { runtime with taken := runtime.taken + 1 }) (fun _ => rfl)
    (fun _ set => set) (fun _ => rfl) fun _ => rfl

end ServingPlatform
