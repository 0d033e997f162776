import ServingPlatform.PrefixCache.RadixCoherence
import ServingPlatform.TokenEngine.EngineSteps

namespace ServingPlatform.Shared

variable {S : Type} {backend : InferenceBackend S} {setup : EngineSetup} {t t' : Shared backend}

/-- The engine's maps, its allocator and its backend agree. -/
structure Sound (setup : EngineSetup) (t : Shared backend) : Prop where
  config : t.engine.config = setup.config
  dimensions : t.engine.kvAllocator.dimensions = setup.dimensions
  kv : t.engine.kvAllocator.Consistent
  cache : t.engine.prefixCache.Coherent
  named : ∀ id r, t.engine.active.get? id = some r → t.engine.requestId r = id ∧ r < t.engine.created
  past : ∀ id r, t.engine.finished.get? id = some r → t.engine.requestId r = id ∧ r < t.engine.created
  apart : ∀ id r, t.engine.active.get? id = some r → t.engine.finished.get? id = none
  owners : ∀ id, (t.engine.kvAllocator.owners.get? id).isSome = (t.engine.active.get? id).isSome
  capacity : t.engine.active.size ≤ t.engine.config.maxActiveSequences
  held : ∀ id, backend.held t.backendState id → ∃ r, t.engine.active.get? id = some r ∧
    (t.engine.sequences r).backendCreated = true
  executor : t.engine.executorClosed = true → t.engine.closed = true ∧ ∀ r, ¬ t.ActiveRef r
  returned : t.engine.schedulerTask = some .returned → t.engine.closed = true ∧ ∀ r, ¬ t.ActiveRef r
  idle : t.engine.schedulerTask = none → ∀ r, t.ActiveRef r → (t.engine.sequences r).backendCreated = false
  mentioned : ∀ c ∈ t.log, ∀ r ∈ c.sequences, r < t.engine.created
  live : ∀ r, r < t.engine.created → ((t.engine.sequences r).done = false ↔ t.ActiveRef r)

theorem Sound.owned (sound : t.Sound setup) {r : Ref} (active : t.ActiveRef r) :
    ∃ table, t.engine.kvAllocator.owners.get? (t.engine.requestId r) = some table := by
  have owner := sound.owners (t.engine.requestId r)
  rw [show t.engine.active.get? (t.engine.requestId r) = some r from active, Option.isSome_some,
    Option.isSome_iff_exists] at owner
  exact owner

theorem Sound.bound (sound : t.Sound setup) {r : Ref} (active : t.ActiveRef r) : r < t.engine.created :=
  (sound.named _ r active).2

theorem Sound.created (sound : t.Sound setup) {r : Ref} (heldId : backend.held t.backendState (t.engine.requestId r))
    (active : t.ActiveRef r) : (t.engine.sequences r).backendCreated = true := by
  obtain ⟨r', found, flag⟩ := sound.held _ heldId
  cases found.symm.trans active
  exact flag

theorem CallGuard.active {command : BackendCall S} {sequences : List Ref} (guard : t.CallGuard command sequences) :
    ∀ r ∈ sequences, t.ActiveRef r := by
  have first : ∀ {R : Type} {P : Ref → R → Prop} {rs : List Ref} {requests : List R},
      List.Forall₂ (fun r request => t.ActiveRef r ∧ P r request) rs requests → ∀ r ∈ rs, t.ActiveRef r := by
    intro R P rs requests all r member
    induction all with
    | nil => cases member
    | cons head tail ih =>
      rcases List.mem_cons.mp member with rfl | later
      · exact head.1
      · exact ih later
  have alone : ∀ r : Ref, t.ActiveRef r → ∀ r' ∈ [r], t.ActiveRef r' :=
    fun r active r' member => List.mem_singleton.mp member ▸ active
  cases guard with
  | tokenize active => exact alone _ active
  | prefillBatch guard => exact first guard.2.2
  | prefillFallback guard => exact first guard.2.2
  | prefillChunk active => exact alone _ active
  | restorePrefix active => exact alone _ active
  | resumePrefix active => exact alone _ active
  | snapshotPrefix active => exact alone _ active
  | decodeBatch guard => exact first guard.2.2
  | decodeFallback guard => exact first guard.2.2
  | eosTokenIds active => exact active
  | releaseSequence active => exact alone _ active

/-- Only sequences with their flag set are created in the backend. -/
theorem CallGuard.creates {command : BackendCall S} {sequences : List Ref} (guard : t.CallGuard command sequences)
    {id : String} (made : id ∈ command.creates) :
    ∃ r, t.ActiveRef r ∧ t.engine.requestId r = id ∧ (t.engine.sequences r).backendCreated = true := by
  have batch : ∀ {rs : List Ref} {requests : List PrefillRequest},
      t.PrefillGuard rs requests → id ∈ requests.map PrefillRequest.sequenceId →
      ∃ r, t.ActiveRef r ∧ t.engine.requestId r = id ∧ (t.engine.sequences r).backendCreated = true := by
    intro rs requests guard member
    obtain ⟨request, listed, rfl⟩ := List.mem_map.mp member
    have all := guard.2.2
    clear guard member made
    induction all with
    | nil => cases listed
    | @cons r other _ _ head tail ih =>
      rcases List.mem_cons.mp listed with rfl | later
      · exact ⟨r, head.1, head.2.2.symm, head.2.1.backendCreated⟩
      · exact ih later
  cases guard with
  | prefillBatch guard => exact batch guard made
  | prefillFallback guard => exact batch guard made
  | prefillChunk active prefilling =>
    exact ⟨_, active, (List.mem_singleton.mp made).symm, prefilling.backendCreated⟩
  | restorePrefix active prefilling =>
    exact ⟨_, active, (List.mem_singleton.mp made).symm, prefilling.backendCreated⟩
  | resumePrefix active prefilling =>
    exact ⟨_, active, (List.mem_singleton.mp made).symm, prefilling.backendCreated⟩
  | tokenize | snapshotPrefix | decodeBatch | decodeFallback | eosTokenIds | releaseSequence => cases made

theorem initial_sound (backend : InferenceBackend S) (setup : EngineSetup) :
    (initial backend setup).Sound setup where
  config := rfl
  dimensions := rfl
  kv := KVBlockAllocator.ofDimensions_consistent _
  cache := PrefixCache.ofLimits_coherent _ _ _
  named _ _ found := by cases found
  past _ _ found := by cases found
  apart _ _ found := by cases found
  owners _ := rfl
  capacity := Nat.zero_le _
  held id held := absurd held (backend.startEmpty id)
  executor closed := by cases closed
  returned task := by cases task
  idle _ _ active := by cases active
  mentioned _ member := by cases member
  live _ below := absurd below (Nat.not_lt_zero _)

section Updates

variable {e : Engine S}

/-- An update of one live sequence that keeps its name, its end and, as far
as the backend holds it, its flag. -/
theorem Sound.modifySequence (before : t.Sound setup) {r : Ref} {f : ScheduledSequence → ScheduledSequence}
    (named : ∀ runtime, (f runtime).state.requestId = runtime.state.requestId)
    (done : ∀ runtime, (f runtime).done = runtime.done)
    (created : backend.held t.backendState (t.engine.requestId r) → t.ActiveRef r →
      (f (t.engine.sequences r)).backendCreated = true)
    (idle : t.engine.schedulerTask = none → (t.engine.sequences r).backendCreated = false →
      (f (t.engine.sequences r)).backendCreated = false) :
    (t.withEngine (t.engine.modifySequence r f)).Sound setup := by
  have sameId : ∀ r', (t.engine.modifySequence r f).requestId r' = t.engine.requestId r' :=
    Engine.modifySequence_congr (fun runtime => runtime.state.requestId) (named _)
  have sameActive : ∀ r', (t.withEngine (t.engine.modifySequence r f)).ActiveRef r' ↔ t.ActiveRef r' := by
    intro r'
    show t.engine.active.get? ((t.engine.modifySequence r f).requestId r') = some r' ↔ _
    rw [sameId]
    rfl
  exact {
    config := before.config
    dimensions := before.dimensions
    kv := before.kv
    cache := before.cache
    named := fun id r' found => (sameId r').symm ▸ before.named id r' found
    past := fun id r' found => (sameId r').symm ▸ before.past id r' found
    apart := before.apart
    owners := before.owners
    capacity := before.capacity
    held := fun id heldId => by
      obtain ⟨r', found, flag⟩ := before.held id heldId
      refine ⟨r', found, ?_⟩
      rcases Engine.modifySequence_cases (e := t.engine) (r := r) r' f with ⟨rfl, here⟩ | ⟨-, elsewhere⟩
      · rw [show (t.withEngine (t.engine.modifySequence r' f)).engine.sequences r' = _ from here]
        obtain ⟨rfl, -⟩ := before.named id r' found
        exact created heldId found
      · rw [show (t.withEngine (t.engine.modifySequence r f)).engine.sequences r' = _ from elsewhere]
        exact flag
    executor := fun closed => ⟨(before.executor closed).1, fun r' active =>
      (before.executor closed).2 r' ((sameActive r').mp active)⟩
    returned := fun task => ⟨(before.returned task).1, fun r' active =>
      (before.returned task).2 r' ((sameActive r').mp active)⟩
    idle := fun task r' active => by
      have flag := before.idle task r' ((sameActive r').mp active)
      rcases Engine.modifySequence_cases (e := t.engine) (r := r) r' f with ⟨rfl, here⟩ | ⟨-, elsewhere⟩
      · rw [show (t.withEngine (t.engine.modifySequence r' f)).engine.sequences r' = _ from here]
        exact idle task flag
      · rw [show (t.withEngine (t.engine.modifySequence r f)).engine.sequences r' = _ from elsewhere]
        exact flag
    mentioned := before.mentioned
    live := fun r' below => by
      rw [sameActive, ← before.live r' below]
      exact iff_of_eq (congrArg (· = false)
        (Engine.modifySequence_congr (fun runtime => runtime.done) (done _) r')) }

theorem vital_requestId {runtime runtime' : ScheduledSequence} (same : runtime'.vital = runtime.vital) :
    runtime'.state.requestId = runtime.state.requestId :=
  congrArg (fun runtime => runtime.state.requestId) same

theorem vital_done {runtime runtime' : ScheduledSequence} (same : runtime'.vital = runtime.vital) :
    runtime'.done = runtime.done :=
  congrArg (fun runtime => runtime.done) same

theorem vital_backendCreated {runtime runtime' : ScheduledSequence} (same : runtime'.vital = runtime.vital) :
    runtime'.backendCreated = runtime.backendCreated :=
  congrArg (fun runtime => runtime.backendCreated) same

theorem Sound.quiet (before : t.Sound setup) (same : t.engine.Quiet e) : (t.withEngine e).Sound setup := by
  have sameId : ∀ r, e.requestId r = t.engine.requestId r := fun r => vital_requestId (same.sequences r)
  have sameActive : ∀ r, (t.withEngine e).ActiveRef r ↔ t.ActiveRef r := by
    intro r
    show e.active.get? (e.requestId r) = some r ↔ _
    rw [sameId, same.active]
    rfl
  exact {
    config := same.config.trans before.config
    dimensions := (congrArg KVBlockAllocator.dimensions same.kvAllocator).trans before.dimensions
    kv := same.kvAllocator.symm ▸ before.kv
    cache := same.prefixCache.symm ▸ before.cache
    named := fun id r found => by
      rw [show (t.withEngine e).engine.active = t.engine.active from same.active] at found
      exact ⟨(sameId r).trans (before.named id r found).1, same.created.symm ▸ (before.named id r found).2⟩
    past := fun id r found => by
      rw [show (t.withEngine e).engine.finished = t.engine.finished from same.finished] at found
      exact ⟨(sameId r).trans (before.past id r found).1, same.created.symm ▸ (before.past id r found).2⟩
    apart := fun id r found => by
      rw [show (t.withEngine e).engine.finished = t.engine.finished from same.finished]
      rw [show (t.withEngine e).engine.active = t.engine.active from same.active] at found
      exact before.apart id r found
    owners := fun id => by
      rw [show (t.withEngine e).engine.active = t.engine.active from same.active,
        show (t.withEngine e).engine.kvAllocator = t.engine.kvAllocator from same.kvAllocator]
      exact before.owners id
    capacity := by
      rw [show (t.withEngine e).engine.active = t.engine.active from same.active,
        show (t.withEngine e).engine.config = t.engine.config from same.config]
      exact before.capacity
    held := fun id heldId => by
      obtain ⟨r, found, flag⟩ := before.held id heldId
      refine ⟨r, ?_, (vital_backendCreated (same.sequences r)).trans flag⟩
      rw [show (t.withEngine e).engine.active = t.engine.active from same.active]
      exact found
    executor := fun closed => by
      have gone := before.executor (same.executorClosed ▸ closed)
      exact ⟨same.closed gone.1, fun r active => gone.2 r ((sameActive r).mp active)⟩
    returned := fun task => by
      have gone := before.returned (same.schedulerTask ▸ task)
      exact ⟨same.closed gone.1, fun r active => gone.2 r ((sameActive r).mp active)⟩
    idle := fun task r active => (vital_backendCreated (same.sequences r)).trans
      (before.idle (same.schedulerTask ▸ task) r ((sameActive r).mp active))
    mentioned := fun c member r listed => same.created.symm ▸ before.mentioned c member r listed
    live := fun r below => by
      rw [sameActive, ← before.live r (same.created ▸ below)]
      exact iff_of_eq (congrArg (· = false) (vital_done (same.sequences r))) }

end Updates

end ServingPlatform.Shared
