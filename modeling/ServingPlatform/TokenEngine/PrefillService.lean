import ServingPlatform.TokenEngine.Lasting
import ServingPlatform.TokenEngine.RunSafety
import ServingPlatform.TokenEngine.Scripts
import Mathlib.Tactic.IntervalCases

namespace ServingPlatform

variable {S : Type} {backend : InferenceBackend S} {setup : EngineSetup}

namespace Engine

variable {e e' : Engine S} {r : Ref}

/-- Sequences were created in the order in which they were reserved. -/
def InOrder (e : Engine S) : Prop := ∀ r r', r ≤ r' → r' < e.created →
  (e.sequences r).state.createdAt ≤ (e.sequences r').state.createdAt

/-- The waiting sequences that were reserved before one. -/
def older (e : Engine S) (r : Ref) : List Ref := e.waiting.filter fun r' => r' < r

/-- A state of an engine under the balanced policy whose sequences stand in order. -/
structure Serving (setup : EngineSetup) (e : Engine S) : Prop where
  config : e.config = setup.config
  balanced : e.policy.name = .balanced
  filed : e.Filed
  lined : e.Lined
  order : e.InOrder

theorem Filed.mem_waiting (filed : e.Filed) : r ∈ e.waiting ↔ e.Waits r := by
  constructor
  · intro member
    obtain ⟨listed, phase⟩ := mem_sequencesIn.mp member
    exact ⟨filed.get? listed, of_decide_eq_true phase⟩
  · rintro ⟨active, phase⟩
    exact mem_sequencesIn.mpr ⟨Dict.mem_values_iff.mpr ⟨_, active⟩, decide_eq_true phase⟩

/-- Sorting by creation time changes nothing then. -/
theorem Lined.waiting_sorted (lined : e.Lined) (order : e.InOrder) : e.waiting.Pairwise (· < ·) := by
  have kept := lined.1.sublist (List.filter_sublist (p := fun r =>
    decide ((e.sequences r).state.phase = .queued ∨ (e.sequences r).state.phase = .prefill)))
  have sorted := kept.imp_of_mem (S := fun r r' => (e.sequences r).state.createdAt ≤ (e.sequences r').state.createdAt)
    fun _ member less => order _ _ less.le (lined.2 _ (List.mem_of_mem_filter member))
  unfold waiting sequencesIn
  rw [sorted.insertionSort_eq]
  exact kept

theorem Filed.mem_older (filed : e.Filed) {r' : Ref} : r' ∈ e.older r ↔ e.Waits r' ∧ r' < r := by
  rw [older, List.mem_filter, filed.mem_waiting, decide_eq_true_eq]

theorem Serving.nodup_older (serving : e.Serving setup) (r : Ref) : (e.older r).Nodup :=
  ((serving.lined.waiting_sorted serving.order).imp fun less => Nat.ne_of_lt less).filter _

/-- When it is prefill's turn, the first waiting sequences are chosen. -/
theorem Serving.chosen_eq (serving : e.Serving setup) (turn : e.policy.balancedDecodeTurn = true) :
    e.chosen = e.waiting.take setup.config.maxBatchSize := by
  have listed : ((e.waiting.map fun r => (e.sequences r).state).take e.config.maxBatchSize).map SequenceState.requestId =
      (e.waiting.take e.config.maxBatchSize).map e.requestId := by
    rw [← List.map_take, List.map_map]
    rfl
  have selected : e.selected.1.prefillIds = (e.waiting.take e.config.maxBatchSize).map e.requestId ∧
      (e.selected.1.decodeIds ≠ [] → (e.waiting.take e.config.maxBatchSize).map e.requestId = []) := by
    unfold selected PrefillDecodePolicy.select
    rw [serving.balanced]
    simp only [listed, turn, Bool.not_true, Bool.false_eq_true, false_and, if_false]
    split
    · exact ⟨rfl, fun some => absurd rfl some⟩
    · rename_i none
      exact ⟨(not_not.mp none).symm, fun _ => not_not.mp none⟩
  have found : ((e.waiting.take e.config.maxBatchSize).map e.requestId).filterMap e.active.get? =
      e.waiting.take e.config.maxBatchSize := by
    rw [List.filterMap_map]
    calc (e.waiting.take e.config.maxBatchSize).filterMap (e.active.get? ∘ e.requestId)
        = (e.waiting.take e.config.maxBatchSize).filterMap some :=
          List.filterMap_congr fun r member => (serving.filed.mem_waiting.mp (List.mem_of_mem_take member)).1
      _ = e.waiting.take e.config.maxBatchSize := List.filterMap_some
  rw [← serving.config, ← found]
  unfold chosen
  rw [decision_eq]
  show (if e.selected.1.decodeIds ≠ [] then _ else e.selected.1 : TokenSchedulingDecision).prefillIds.filterMap _ = _
  by_cases decodes : e.selected.1.decodeIds ≠ []
  · rw [if_pos decodes, selected.2 decodes]
  · rw [if_neg decodes, selected.1]

/-- A waiting sequence that a full batch leaves out had a full batch of older ones before it. -/
theorem Serving.passed (serving : e.Serving setup) (turn : e.policy.balancedDecodeTurn = true) (waits : e.Waits r)
    (left : r ∉ e.chosen) : e.chosen.length = setup.config.maxBatchSize ∧ ∀ r' ∈ e.chosen, r' ∈ e.older r := by
  rw [serving.chosen_eq turn] at left ⊢
  have sorted := serving.lined.waiting_sorted serving.order
  have split : e.waiting.take setup.config.maxBatchSize ++ e.waiting.drop setup.config.maxBatchSize = e.waiting :=
    List.take_append_drop _ _
  have later : r ∈ e.waiting.drop setup.config.maxBatchSize := by
    have member := serving.filed.mem_waiting.mpr waits
    rw [← split] at member
    exact (List.mem_append.mp member).resolve_left left
  have full : setup.config.maxBatchSize < e.waiting.length := by
    have some := List.length_pos_of_mem later
    rw [List.length_drop] at some
    omega
  refine ⟨List.length_take_of_le full.le, fun r' first => ?_⟩
  rw [← split, List.pairwise_append] at sorted
  refine List.mem_filter.mpr ⟨List.mem_of_mem_take first, decide_eq_true ?_⟩
  exact sorted.2.2 r' first r later

/-- Nobody comes before a waiting sequence. -/
theorem Succeeds.older (succeeds : e.Succeeds e') (serving : e.Serving setup) (serving' : e'.Serving setup)
    (below : r ≤ e.created) : ∀ r' ∈ e'.older r, r' ∈ e.older r := by
  intro r' member
  obtain ⟨waits, before⟩ := serving'.filed.mem_older.mp member
  exact serving.filed.mem_older.mpr ⟨succeeds.onward.waits r' (Nat.lt_of_lt_of_le before below) waits, before⟩

/-- A prefill decision that leaves a waiting sequence out takes a full batch of older ones. -/
theorem Succeeds.fewer (succeeds : e.Succeeds e') (serving : e.Serving setup) (serving' : e'.Serving setup)
    (whole : setup.config.prefillChunkSizeTokens = 0) (below : r ≤ e.created)
    (turn : e.policy.balancedDecodeTurn = true) (waits : e.Waits r) (left : r ∉ e.chosen) :
    (e'.older r).length + setup.config.maxBatchSize ≤ (e.older r).length := by
  obtain ⟨full, first⟩ := serving.passed turn waits left
  have distinct : e.chosen.Nodup := by
    rw [serving.chosen_eq turn]
    exact ((serving.lined.waiting_sorted serving.order).imp fun less => Nat.ne_of_lt less).sublist (List.take_sublist _ _)
  have apart : (e'.older r ++ e.chosen).Nodup := by
    refine List.nodup_append.mpr ⟨serving'.nodup_older r, distinct, fun r' waiting r'' taken same => ?_⟩
    subst same
    exact succeeds.served (serving.config ▸ whole) r' taken (serving'.filed.mem_older.mp waiting).1
  have inside : e'.older r ++ e.chosen ⊆ e.older r := by
    intro r' member
    rcases List.mem_append.mp member with waiting | taken
    · exact succeeds.older serving serving' below r' waiting
    · exact first r' taken
  have bound := (apart.subperm inside).length_le
  rw [List.length_append, full] at bound
  exact bound

/-- While a sequence waits and is not chosen, every second decision takes a
full batch of older ones. -/
theorem Orderly.older_bound {k : Nat} {old : List (Engine S)} (whole : setup.config.prefillChunkSizeTokens = 0)
    (taken : List (Engine S)) (orderly : Orderly (e :: taken ++ old))
    (each : ∀ d ∈ e :: taken, d.Serving setup ∧ d.Waits r ∧ r ∉ d.chosen ∧ r ≤ d.created ∧ (d.older r).length ≤ k) :
    (e.older r).length + setup.config.maxBatchSize *
      ((taken.length + if e.policy.balancedDecodeTurn then 0 else 1) / 2) ≤ k := by
  induction taken generalizing e with
  | nil =>
    have bound := (each e (List.mem_singleton_self e)).2.2.2.2
    cases e.policy.balancedDecodeTurn <;> simpa using bound
  | cons d earlier ih =>
    obtain ⟨serving', -, -, -, -⟩ := each e (List.mem_cons_self ..)
    obtain ⟨serving, waits, left, below, -⟩ := each d (List.mem_cons_of_mem _ (List.mem_cons_self ..))
    have succeeds : d.Succeeds e := orderly.1.succeeds d rfl
    have before := ih orderly.2 fun d' member => each d' (List.mem_cons_of_mem _ member)
    have turned : e.policy.balancedDecodeTurn = !d.policy.balancedDecodeTurn := by
      rcases d.decision_policy with ⟨-, other⟩ | ⟨turned, -⟩
      · exact absurd serving.balanced other
      · rw [succeeds.policy, turned]
    have length : (d :: earlier).length = earlier.length + 1 := rfl
    have fewer := List.Subperm.length_le ((serving'.nodup_older r).subperm (succeeds.older serving serving' below))
    cases turn : d.policy.balancedDecodeTurn with
    | true =>
      have batch := succeeds.fewer serving serving' whole below turn waits left
      have half : (earlier.length + 1 + 1) / 2 = earlier.length / 2 + 1 := by omega
      rw [turn] at turned before
      rw [turned, length]
      simp only [Bool.not_true, Bool.false_eq_true, if_false, if_true, Nat.add_zero] at before ⊢
      rw [half, Nat.mul_succ]
      omega
    | false =>
      rw [turn] at turned before
      rw [turned, length]
      simp only [Bool.not_false, Bool.false_eq_true, if_false, if_true, Nat.add_zero] at before ⊢
      omega

end Engine

namespace Recorded

variable {c c' : Recorded backend} {r : Ref}

/-- The turn that goes on has chosen the sequence. -/
def Prefills (c : Recorded backend) (r : Ref) : Prop :=
  c.configuration.scheduler ≠ .between ∧ ∃ e ∈ c.decisions.head?, r ∈ e.chosen

/-- What is chosen and still waits is chosen by the turn that goes on. -/
theorem Safe.prefills (safe : c.Safe setup) (whole : setup.config.prefillChunkSizeTokens = 0)
    (onward : ∀ e ∈ c.decisions, e.Onward c.configuration.shared.engine ∧ e.config = setup.config)
    (waits : c.configuration.shared.engine.Waits r) {e : Engine S} (member : e ∈ c.decisions) (chosen : r ∈ e.chosen) :
    c.Prefills r := by
  have gone : ∀ e' : Engine S, e.Succeeds e' → e'.Onward c.configuration.shared.engine → False := by
    intro e' succeeds later
    refine succeeds.served ((onward e member).2 ▸ whole) r chosen (later.waits r ?_ waits)
    exact Nat.lt_of_lt_of_le (succeeds.below r chosen) succeeds.onward.created
  obtain ⟨later, earlier, split⟩ := List.append_of_mem member
  rcases List.eq_nil_or_concat later with rfl | ⟨rest, next, rfl⟩
  · refine ⟨fun between => ?_, e, by rw [split]; rfl, chosen⟩
    have running : c.configuration.shared.engine.schedulerTask = some .running := by
      cases made : c.configuration.shared.engine.schedulerTask with
      | none =>
        rw [(safe.unstarted made).2] at member
        cases member
      | some task =>
        by_cases running : task = .running
        · rw [running]
        · obtain ⟨result, isOver⟩ := safe.isOver task made running
          rw [between] at isOver
          cases isOver
    have holds := safe.scheduler running
    rw [between] at holds
    refine gone _ (holds.2.1.succeeds e ?_) (.refl _)
    show e ∈ c.decisions.head?
    rw [split]
    rfl
  · have listed : next ∈ c.decisions := by
      rw [split]
      simp
    have orderly := safe.orderly
    rw [split, List.concat_eq_append, List.append_assoc] at orderly
    exact (gone next (orderly.suffix.1.succeeds e rfl) (onward next listed).1).elim

/-- The state of a decision on the way to a configuration of a run. -/
theorem serving_of_chain {t t' : Shared backend} (balanced : setup.policy = .balanced) (reach : t.Reach setup)
    (chain : Shared.Chain t t') (order : t'.engine.InOrder) : t.engine.Serving setup := by
  have sound : t.Sound setup := Shared.Chain.sound reach (Shared.initial_sound backend setup)
  have lasts := Shared.Chain.lasts chain
  refine ⟨sound.config, (Shared.Chain.policyName reach).trans balanced, fun id r found => (sound.named id r found).1,
    reach.lined, fun r r' less below => ?_⟩
  rw [← lasts.createdAt r (Nat.lt_of_le_of_lt less below), ← lasts.createdAt r' below]
  exact order r r' less (Nat.lt_of_lt_of_le below lasts.onward.created)

/-- Under the balanced policy and without chunks, a sequence that waits behind
`k` older ones is chosen for prefill by one of the next `2 * (k / batch + 1)`
decisions, unless it is prefilled already or ends before. -/
theorem prefill_within (balanced : setup.policy = .balanced) (whole : setup.config.prefillChunkSizeTokens = 0)
    (before : Runs (initial backend setup) c) (runs : Runs c c')
    (order : c'.configuration.shared.engine.InOrder) (waits : r ∈ c.configuration.shared.engine.waiting)
    (decisions : c'.decisions.length = c.decisions.length +
      2 * ((c.configuration.shared.engine.older r).length / setup.config.maxBatchSize + 1)) :
    (∃ e ∈ c'.decisions.take
      (2 * ((c.configuration.shared.engine.older r).length / setup.config.maxBatchSize + 1)), r ∈ e.chosen) ∨
      c.Prefills r ∨ (c'.configuration.shared.engine.sequences r).done = true := by
  obtain ⟨safe, past⟩ := before.safe (initial_safe backend setup)
  obtain ⟨safe', moves⟩ := runs.safe safe
  obtain ⟨taken, grown, traced⟩ := Chronicle.Moves.traced moves
  obtain ⟨old, all, seen⟩ := Chronicle.Moves.traced past
  have grown : c'.decisions = taken ++ c.decisions := grown
  have all : c.decisions = old := all.trans (List.append_nil old)
  generalize count : (c.configuration.shared.engine.older r).length = k at decisions ⊢
  have size : taken.length = 2 * (k / setup.config.maxBatchSize + 1) := by
    rw [grown, List.length_append] at decisions
    omega
  rw [grown, ← size, List.take_left]
  by_contra none
  obtain ⟨never, notNow, open_⟩ := not_or.mp none |>.imp_right not_or.mp
  have filed : c.configuration.shared.engine.Filed := fun id r found => (safe.ready.sound.named id r found).1
  have waits := filed.mem_waiting.mp waits
  have below : r < c.configuration.shared.engine.created := safe.ready.sound.bound waits.1
  have each : ∀ e ∈ taken, e.Serving setup ∧ e.Waits r ∧ r ∉ e.chosen ∧ r ≤ e.created ∧ (e.older r).length ≤ k := by
    intro e member
    obtain ⟨t, same, first, later⟩ := traced e member
    have reach : t.Reach setup := safe.reach.trans first
    have sound : t.Sound setup := Shared.Chain.sound first safe.ready.sound
    have serving : e.Serving setup := same ▸ serving_of_chain balanced reach later order
    have onward : c.configuration.shared.engine.Onward e := same ▸ (Shared.Chain.lasts first).onward
    have inside : r < e.created := Nat.lt_of_lt_of_le below onward.created
    have active : e.active.get? (e.requestId r) = some r := by
      rw [← same] at inside ⊢
      refine (sound.live r inside).mp (Bool.eq_false_of_not_eq_true fun done => open_ ?_)
      exact (Shared.Chain.lasts later).done r inside done
    obtain ⟨after, earlier, split⟩ := List.append_of_mem member
    have waiting : e.Waits r := by
      have orderly := safe'.orderly
      rw [grown, split, List.append_assoc] at orderly
      rcases orderly.suffix.1.credits serving.balanced r active with waiting | ⟨-, decided, listed, chosen⟩
      · exact waiting
      rcases List.mem_append.mp listed with new | past
      · exact absurd ⟨decided, by rw [split]; simp [new], chosen⟩ never
      · refine absurd (safe.prefills whole (fun e' member' => ?_) waits past chosen) notNow
        obtain ⟨t', same', first', later'⟩ := seen e' (all ▸ member')
        rw [← same']
        exact ⟨(Shared.Chain.lasts later').onward, (Shared.Chain.sound first' (Shared.initial_sound backend setup)).config⟩
    refine ⟨serving, waiting, fun chosen => never ⟨e, member, chosen⟩, inside.le, ?_⟩
    rw [← count]
    refine ((serving.nodup_older r).subperm fun r' listed => ?_).length_le
    obtain ⟨waits', less⟩ := serving.filed.mem_older.mp listed
    exact filed.mem_older.mpr ⟨onward.waits r' (Nat.lt_trans less below) waits', less⟩
  cases taken with
  | nil => cases size
  | cons e rest =>
    have orderly := safe'.orderly
    rw [grown] at orderly
    have bound := orderly.older_bound whole rest each
    obtain ⟨serving, waiting, left, -⟩ := each e (List.mem_cons_self ..)
    have room := Nat.lt_mul_div_succ k setup.config.batchPositive
    have size : rest.length + 1 = 2 * (k / setup.config.maxBatchSize + 1) := size
    cases turn : e.policy.balancedDecodeTurn with
    | true =>
      obtain ⟨full, first⟩ := serving.passed turn waiting left
      have distinct : e.chosen.Nodup := by
        rw [serving.chosen_eq turn]
        exact ((serving.lined.waiting_sorted serving.order).imp fun less => Nat.ne_of_lt less).sublist
          (List.take_sublist _ _)
      have batch := (distinct.subperm first).length_le
      rw [turn] at bound
      have half : (rest.length + 0) / 2 = k / setup.config.maxBatchSize := by omega
      simp only [if_true, half] at bound
      rw [Nat.mul_succ] at room
      omega
    | false =>
      rw [turn] at bound
      have half : (rest.length + 1) / 2 = k / setup.config.maxBatchSize + 1 := by omega
      simp only [Bool.false_eq_true, if_false, half] at bound
      omega

namespace Sample

open Configuration.Sample

theorem four_slots : 0 < 4 := by decide

theorem eight_blocks : 0 < 8 := by decide

theorem watermarks : (0 : Rat) < 1 / 2 ∧ (1 / 2 : Rat) < 9 / 10 ∧ (9 / 10 : Rat) ≤ 1 := by norm_num

theorem limits : 8 = 0 ↔ 64 = 0 := by decide

def oneAtATime : EngineSetup where
  config := ⟨4, 1, 0, ⟨true, true, true, true, true, true⟩, four_slots, Nat.one_pos⟩
  policy := .balanced
  dimensions := ⟨8, 4, 1, 9 / 10, 1 / 2, eight_blocks, four_slots, Nat.one_pos, watermarks⟩
  maxEntries := 8
  maxTokens := 64
  limits := limits

/-- All of a batch are prefilled. -/
def batched : (method : BackendMethod Unit) → Except Raised method.Answer
  | .prefillBatch requests => .ok ⟨.ofValues PrefillRequest.sequenceId (fun _ => ⟨5, "five", 0, 1⟩) requests, .empty⟩
  | method => answer method

/-- Two sequences wait, and the scheduler begins its work. -/
def arrivals : List Move := [.reserve "first" "short" sampling 10 0, .reserve "second" "long" sampling 10 0, .stream "first"]

def twoTurns : List Move :=
  [.schedule 0, .answer, .schedule 0, .answer, .schedule 0, .answer, .schedule 0, .answer, .schedule 0, .answer,
    .schedule 0, .schedule 0]

/-- The first of both waits at first, and two decisions are taken. -/
def shows (c c' : Recorded (.ofAnswers batched)) : Bool :=
  0 ∈ c.configuration.shared.engine.waiting ∧ (c.configuration.shared.engine.older 0).length = 0 ∧
    c'.decisions.length = c.decisions.length + 2 ∧ c'.configuration.shared.engine.created = 2 ∧
    (c'.configuration.shared.engine.sequences 0).state.createdAt = 0 ∧
    (c'.configuration.shared.engine.sequences 1).state.createdAt = 0

theorem played : (plays batched (initial _ oneAtATime) arrivals).any (fun c => (plays batched c twoTurns).any (shows c)) = true := by
  decide +kernel

end Sample

open Configuration.Sample Sample in
theorem prefill_within_sample : ∃ c c' : Recorded (.ofAnswers batched), Runs (initial _ oneAtATime) c ∧ Runs c c' ∧
    ((∃ e ∈ c'.decisions.take (2 * ((c.configuration.shared.engine.older 0).length / 1 + 1)), 0 ∈ e.chosen) ∨
      c.Prefills 0 ∨ (c'.configuration.shared.engine.sequences 0).done = true) := by
  obtain ⟨c, first, rest⟩ := (Option.any_eq_true _ _).mp played
  obtain ⟨c', second, shown⟩ := (Option.any_eq_true _ _).mp rest
  obtain ⟨waits, none, decisions, created, early, late⟩ := of_decide_eq_true shown
  have order : c'.configuration.shared.engine.InOrder := by
    have at_ : ∀ r, r < c'.configuration.shared.engine.created →
        (c'.configuration.shared.engine.sequences r).state.createdAt = 0 := by
      intro r below
      rw [created] at below
      interval_cases r
      · exact early
      · exact late
    intro r r' less below
    rw [at_ r (Nat.lt_of_le_of_lt less below), at_ r' below]
  have before := plays_runs batched first
  have runs := plays_runs batched second
  refine ⟨c, c', before, runs, @prefill_within _ _ oneAtATime c c' 0 rfl rfl before runs order waits ?_⟩
  rw [none]
  exact decisions

end Recorded

end ServingPlatform
