import ServingPlatform.TokenEngine.Engine

namespace ServingPlatform

variable {S : Type}

/-- A decision names the first waiting sequences or the first running ones. -/
theorem PrefillDecodePolicy.select_cases (policy : PrefillDecodePolicy) (waiting running : List SequenceState)
    (resources : TokenResourceSnapshot) :
    ((policy.select waiting running resources).1.prefillIds =
        (waiting.take resources.maxBatchSize).map SequenceState.requestId ∧
      (policy.select waiting running resources).1.decodeIds = []) ∨
    ((policy.select waiting running resources).1.prefillIds = [] ∧
      (policy.select waiting running resources).1.decodeIds =
        (running.take resources.maxBatchSize).map SequenceState.requestId) := by
  unfold select
  cases policy.name with
  | prefillFirst | decodeFirst =>
    dsimp only
    split
    · simp
    · simp
  | balanced =>
    dsimp only
    split
    · simp
    · split
      · simp
      · simp

/-- Where something waits or runs, something is selected. -/
theorem PrefillDecodePolicy.select_ne_nil (policy : PrefillDecodePolicy) {waiting running : List SequenceState}
    {resources : TokenResourceSnapshot} (room : 0 < resources.maxBatchSize) (work : waiting ≠ [] ∨ running ≠ []) :
    (policy.select waiting running resources).1.prefillIds ≠ [] ∨
      (policy.select waiting running resources).1.decodeIds ≠ [] := by
  have front : ∀ {states : List SequenceState}, states ≠ [] →
      (states.take resources.maxBatchSize).map SequenceState.requestId ≠ [] := by
    intro states some
    simpa [List.take_eq_nil_iff, Nat.ne_of_gt room] using some
  have back : ∀ {states : List SequenceState}, (states.take resources.maxBatchSize).map SequenceState.requestId = [] →
      states = [] := by
    intro states none
    by_contra some
    exact front some none
  unfold select
  cases policy.name with
  | prefillFirst =>
    dsimp only
    split
    · rename_i waits
      exact Or.inl waits
    · rename_i idle
      exact Or.inr (front (work.resolve_left fun waits => waits (back (not_not.mp idle))))
  | decodeFirst =>
    dsimp only
    split
    · rename_i runs
      exact Or.inr runs
    · rename_i idle
      exact Or.inl (front (work.resolve_right fun runs => runs (back (not_not.mp idle))))
  | balanced =>
    dsimp only
    split
    · rename_i turn
      exact Or.inr turn.2
    · split
      · rename_i waits
        exact Or.inl waits
      · rename_i idle
        exact Or.inr (front (work.resolve_left fun waits => waits (back (not_not.mp idle))))

namespace Engine

variable {e : Engine S}

/-- Active sequences are filed under their own identifiers. -/
def Filed (e : Engine S) : Prop := ∀ id r, e.active.get? id = some r → e.requestId r = id

theorem Filed.get? (filed : e.Filed) {r : Ref} (member : r ∈ e.active.values) :
    e.active.get? (e.requestId r) = some r := by
  obtain ⟨id, found⟩ := Dict.mem_values_iff.mp member
  rw [filed id r found]
  exact found

theorem Filed.values_requestId (filed : e.Filed) : e.active.values.map e.requestId = e.active.keys := by
  rw [Dict.values, Dict.keys, List.map_map]
  refine List.map_congr_left fun entry member => ?_
  exact filed entry.1 entry.2 (Dict.get?_eq_some_iff.mpr member)

theorem mem_sequencesIn {phases : SequencePhase → Bool} {r : Ref} :
    r ∈ e.sequencesIn phases ↔ r ∈ e.active.values ∧ phases (e.sequences r).state.phase = true := by
  rw [sequencesIn, List.mem_insertionSort, List.mem_filter]

theorem Filed.nodup_sequencesIn (filed : e.Filed) (phases : SequencePhase → Bool) :
    ((e.sequencesIn phases).map e.requestId).Nodup := by
  have all : (e.active.values.map e.requestId).Nodup := filed.values_requestId ▸ e.active.nodup
  refine (((List.perm_insertionSort _ _).map e.requestId).nodup_iff).mpr ?_
  exact all.sublist (List.filter_sublist.map e.requestId)

/-- Identifiers of active sequences in some phase, each once. -/
structure Picks (e : Engine S) (phases : SequencePhase → Bool) (ids : List String) : Prop where
  nodup : ids.Nodup
  found : ∀ id ∈ ids, ∃ r, e.active.get? id = some r ∧ phases (e.sequences r).state.phase = true
  bounded : ids.length ≤ e.config.maxBatchSize

theorem Picks.nil {phases : SequencePhase → Bool} : e.Picks phases [] :=
  ⟨List.nodup_nil, fun _ member => absurd member List.not_mem_nil, Nat.zero_le _⟩

/-- The sequences picked are those with the identifiers picked. -/
theorem Picks.refs (filed : e.Filed) {phases : SequencePhase → Bool} {ids : List String} (picks : e.Picks phases ids) :
    (ids.filterMap e.active.get?).map e.requestId = ids := by
  have found := picks.found
  clear picks
  induction ids with
  | nil => rfl
  | cons id rest ih =>
    obtain ⟨r, active, -⟩ := found id (List.mem_cons_self ..)
    rw [List.filterMap_cons_some active, List.map_cons, filed id r active,
      ih fun other member => found other (List.mem_cons_of_mem id member)]

theorem Picks.nodup_refs (filed : e.Filed) {phases : SequencePhase → Bool} {ids : List String}
    (picks : e.Picks phases ids) : (ids.filterMap e.active.get?).Nodup :=
  .of_map e.requestId (by rw [picks.refs filed]; exact picks.nodup)

theorem Picks.sublist {phases : SequencePhase → Bool} {ids ids' : List String} (picks : e.Picks phases ids)
    (fewer : ids'.Sublist ids) : e.Picks phases ids' :=
  ⟨picks.nodup.sublist fewer, fun id member => picks.found id (fewer.subset member),
    fewer.length_le.trans picks.bounded⟩

theorem Filed.picks_take (filed : e.Filed) (phases : SequencePhase → Bool) :
    e.Picks phases ((((e.sequencesIn phases).map fun r => (e.sequences r).state).take
      e.config.maxBatchSize).map SequenceState.requestId) := by
  have same : (((e.sequencesIn phases).map fun r => (e.sequences r).state).take
      e.config.maxBatchSize).map SequenceState.requestId =
        ((e.sequencesIn phases).take e.config.maxBatchSize).map e.requestId := by
    rw [← List.map_take, List.map_map]
    rfl
  rw [same]
  refine ⟨?_, ?_, ?_⟩
  · exact (filed.nodup_sequencesIn phases).sublist ((List.take_sublist _ _).map e.requestId)
  · intro id member
    obtain ⟨r, taken, rfl⟩ := List.mem_map.mp member
    obtain ⟨active, inPhase⟩ := mem_sequencesIn.mp (List.mem_of_mem_take taken)
    exact ⟨r, filed.get? active, inPhase⟩
  · rw [List.length_map]
    exact List.length_take_le _ _

theorem compatible_ne_nil {ids : List String} (some : ids ≠ []) : e.compatible ids ≠ [] := by
  have least := List.min?_eq_some_min (l := ids.map e.cacheTokensOf) (by simpa using some)
  obtain ⟨id, member, shortest⟩ := List.mem_map.mp (List.min?_mem least)
  refine List.ne_nil_of_mem (a := id) (List.mem_filter.mpr ⟨member, ?_⟩)
  rw [least, Option.getD_some, decide_eq_true_eq]
  exact shortest

theorem compatible_equal {ids : List String} :
    ∀ id ∈ e.compatible ids, e.cacheTokensOf id = (ids.map e.cacheTokensOf).min?.getD 0 :=
  fun _ member => of_decide_eq_true (List.mem_filter.mp member).2

/-- What the policy selects in a state of the engine. -/
def selected (e : Engine S) : TokenSchedulingDecision × PrefillDecodePolicy :=
  e.policy.select (e.waiting.map fun r => (e.sequences r).state) (e.running.map fun r => (e.sequences r).state)
    ⟨e.config.maxActiveSequences - e.active.size, e.kvAllocator.free.length, e.config.maxBatchSize⟩

theorem decision_eq (e : Engine S) : e.decision = (.ok (if e.selected.1.decodeIds ≠ [] then
    { decodeIds := e.compatible e.selected.1.decodeIds, reason := e.selected.1.reason } else e.selected.1),
      { e with policy := e.selected.2 }) := rfl

/-- What one decision is about: waiting sequences, or running ones whose
caches have one length. -/
structure Decides (e : Engine S) (d : TokenSchedulingDecision) : Prop where
  prefill : e.Picks (fun phase => phase = .queued ∨ phase = .prefill) d.prefillIds
  decode : e.Picks (fun phase => phase = .decode) d.decodeIds
  equal : ∃ length, ∀ id ∈ d.decodeIds, e.cacheTokensOf id = length
  apart : d.prefillIds = [] ∨ d.decodeIds = []

theorem Filed.decision (filed : e.Filed) : ∃ d, e.decision.1 = .ok d ∧ e.Decides d := by
  rw [decision_eq]
  refine ⟨_, rfl, ?_⟩
  rcases e.policy.select_cases (e.waiting.map fun r => (e.sequences r).state)
    (e.running.map fun r => (e.sequences r).state)
    ⟨e.config.maxActiveSequences - e.active.size, e.kvAllocator.free.length, e.config.maxBatchSize⟩ with
    ⟨prefill, decode⟩ | ⟨prefill, decode⟩
  · have prefill : e.selected.1.prefillIds = _ := prefill
    have decode : e.selected.1.decodeIds = [] := decode
    rw [if_neg (not_not.mpr decode)]
    refine ⟨?_, ?_, ⟨0, ?_⟩, Or.inr decode⟩
    · rw [prefill]
      exact filed.picks_take _
    · rw [decode]
      exact .nil
    · rw [decode]
      exact fun _ member => absurd member List.not_mem_nil
  · have prefill : e.selected.1.prefillIds = [] := prefill
    have decode : e.selected.1.decodeIds = _ := decode
    have picks : e.Picks (fun phase => phase = .decode) e.selected.1.decodeIds := by
      rw [decode]
      exact filed.picks_take _
    by_cases some : e.selected.1.decodeIds ≠ []
    · rw [if_pos some]
      exact ⟨.nil, picks.sublist List.filter_sublist, ⟨_, compatible_equal⟩, Or.inl rfl⟩
    · rw [if_neg some]
      refine ⟨?_, picks, ⟨0, ?_⟩, Or.inl prefill⟩
      · rw [prefill]
        exact .nil
      · rw [not_not.mp some]
        exact fun _ member => absurd member List.not_mem_nil

end Engine

end ServingPlatform
