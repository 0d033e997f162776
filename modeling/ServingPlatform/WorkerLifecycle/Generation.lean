import ServingPlatform.WorkerLifecycle.LocalBatches
import ServingPlatform.WorkerLifecycle.Runtime

namespace ServingPlatform

/-- `str.isspace`, for one character. -/
def isSpace (c : Char) : Bool :=
  let code := c.toNat
  (9 ≤ code && code ≤ 13) || (28 ≤ code && code ≤ 32) || code = 133 || code = 160 || code = 5760 ||
    (8192 ≤ code && code ≤ 8202) || code = 8232 || code = 8233 || code = 8239 || code = 8287 || code = 12288

/-- `len(prompt.split())`. -/
def wordCount (prompt : String) : Nat := (prompt.toList.splitOnP isSpace).countP fun word => !word.isEmpty

namespace SimulatedGpuRuntime

def requireLoaded (r : SimulatedGpuRuntime) (modelId : String) : Except Raised ModelDefinition :=
  match r.definition modelId with
  | .error raised => .error raised
  | .ok model => if modelId ∈ r.loaded then .ok model else .error (runtimeError s!"model is not loaded: {modelId}")

/-- `_validate_generation`. -/
def validateGeneration (r : SimulatedGpuRuntime) (modelId : String) (prompts : List String) (maxNewTokens : Nat)
    (temperature : Rat) : Except Raised ModelDefinition :=
  match r.requireLoaded modelId with
  | .error raised => .error raised
  | .ok model =>
    let requestSizes := prompts.map fun prompt => wordCount prompt + maxNewTokens
    if prompts = [] ∨ prompts.any isBlank then .error (valueError "at least one non-empty prompt is required")
    else if maxNewTokens = 0 ∨ temperature < 0 then .error (valueError "generation limits are invalid")
    else if requestSizes.any (model.maxContextTokens < ·) then
      .error (valueError "request exceeds the model context window")
    else if model.maxBatchTokens < requestSizes.sum then .error (valueError "batch exceeds the model token budget")
    else .ok model

variable {r : SimulatedGpuRuntime} {modelId : String} {prompts : List String} {maxNewTokens : Nat} {temperature : Rat}
  {model : ModelDefinition}

theorem validateGeneration_ok_iff : r.validateGeneration modelId prompts maxNewTokens temperature = .ok model ↔
    r.requireLoaded modelId = .ok model ∧ prompts ≠ [] ∧ (∀ prompt ∈ prompts, isBlank prompt = false) ∧
      0 < maxNewTokens ∧ 0 ≤ temperature ∧
      (∀ prompt ∈ prompts, wordCount prompt + maxNewTokens ≤ model.maxContextTokens) ∧
      (prompts.map fun prompt => wordCount prompt + maxNewTokens).sum ≤ model.maxBatchTokens := by
  unfold validateGeneration
  cases loaded : r.requireLoaded modelId with
  | error raised => simp
  | ok known =>
    dsimp only
    constructor
    · intro valid
      split at valid
      · cases valid
      rename_i shown
      split at valid
      · cases valid
      rename_i limits
      split at valid
      · cases valid
      rename_i context
      split at valid
      · cases valid
      rename_i budget
      cases valid
      simp only [not_or, List.any_eq_true, not_exists, not_and, Bool.not_eq_true] at shown
      simp only [List.any_map, List.any_eq_true, Function.comp_apply, decide_eq_true_eq, not_exists, not_and,
        not_lt] at context
      exact ⟨rfl, shown.1, shown.2, by omega, not_lt.mp fun low => limits (Or.inr low), context, not_lt.mp budget⟩
    · rintro ⟨same, some, shown, positive, warm, context, budget⟩
      cases same
      have visible : ¬ (prompts = [] ∨ prompts.any isBlank = true) := by
        simp only [not_or, List.any_eq_true, not_exists, not_and, Bool.not_eq_true]
        exact ⟨some, shown⟩
      have limits : ¬ (maxNewTokens = 0 ∨ temperature < 0) := by
        rintro (zero | low)
        · omega
        · exact absurd low (not_lt.mpr warm)
      have sizes : ¬ ((prompts.map fun prompt => wordCount prompt + maxNewTokens).any
          fun size => decide (model.maxContextTokens < size)) = true := by
        simp only [List.any_map, List.any_eq_true, Function.comp_apply, decide_eq_true_eq, not_exists, not_and, not_lt]
        exact context
      rw [if_neg visible, if_neg limits, if_neg sizes, if_neg (not_lt.mpr budget)]

end SimulatedGpuRuntime

namespace ManagedWorker

variable {runtime : SimulatedGpuRuntime} {p p' : WorkerProcess} {now : Seconds} {selected : List ObjectId}
  {f i : ObjectId}

/-- A request whose tokens were counted by the runtime, and which the runtime accepts on its own. -/
def PassesAlone (runtime : SimulatedGpuRuntime) (r : RequestRecord) : Prop :=
  r.promptTokens = wordCount r.prompt ∧
    ∃ model, runtime.validateGeneration r.modelId [r.prompt] r.maxNewTokens r.temperature = .ok model

/-- What the runtime checks of a batch that `execute_batch` hands to it. -/
def handedOver (runtime : SimulatedGpuRuntime) (objects : Objects) (f : ObjectId) (selected : List ObjectId) :
    Except Raised ModelDefinition :=
  runtime.validateGeneration (objects f).modelId (selected.map fun i => (objects i).prompt) (objects f).maxNewTokens
    (objects f).temperature

/-- The runtime accepts the worker's next batch, unless that streams and is not handed over. -/
def Accepted (runtime : SimulatedGpuRuntime) (now : Seconds) (p : WorkerProcess) : Prop :=
  ∀ selected p' f, beginBatch now p = (.ok selected, p') → selected.head? = some f → (p'.objects f).stream = false →
    ∃ model, handedOver runtime p'.objects f selected = .ok model

/-- The model's token budget would not keep a request out of the worker's next batch. -/
def Unhindered (runtime : SimulatedGpuRuntime) (now : Seconds) (p : WorkerProcess) : Prop :=
  ∀ f model, p.worker.queue.find? (fun i => !(p.objects i).over now) = some f → (p.objects f).stream = false →
    runtime.models.get? (p.objects f).modelId = some model →
    packing now p.objects p.worker.maxBatchSize (min p.worker.maxBatchTokens model.maxBatchTokens) p.worker.queue =
      packing now p.objects p.worker.maxBatchSize p.worker.maxBatchTokens p.worker.queue

theorem requireLoaded_known {model : ModelDefinition} {modelId : String}
    (loaded : runtime.requireLoaded modelId = .ok model) : runtime.models.get? modelId = some model := by
  unfold SimulatedGpuRuntime.requireLoaded SimulatedGpuRuntime.definition at loaded
  cases known : runtime.models.get? modelId with
  | none =>
    rw [known] at loaded
    cases loaded
  | some definition =>
    rw [known] at loaded
    dsimp only at loaded
    split at loaded
    · cases loaded
      rfl
    · cases loaded

theorem compatible_iff {first candidate : RequestRecord} : compatible first candidate = true ↔
    candidate.modelId = first.modelId ∧ candidate.maxNewTokens = first.maxNewTokens ∧
      candidate.temperature = first.temperature ∧ candidate.stream = first.stream := by
  simp [compatible, and_assoc]

/-- The runtime accepts a batch of requests that it accepts alone where they fit its token budget together. -/
theorem handedOver_ok_iff (selects : Selects now p selected p') (head : selected.head? = some f)
    (alone : ∀ i ∈ p.worker.queue, PassesAlone runtime (p.objects i)) {model : ModelDefinition}
    (known : runtime.models.get? (p.objects f).modelId = some model) :
    (∃ model, handedOver runtime p'.objects f selected = .ok model) ↔ tokensOf p.objects selected ≤ model.maxBatchTokens := by
  have leader : f ∈ selected := List.mem_of_mem_head? head
  have record : ∀ i ∈ selected, p'.objects i = (p.objects i).enter .running now := fun i member => by
    rw [selects.records i, if_pos member]
  have like := fun i member => compatible_iff.mp (selects.uniform f head i member)
  -- Every request of the batch passed the same checks of the same model, with the first one's limits.
  have passed : ∀ i ∈ selected, runtime.requireLoaded (p.objects f).modelId = .ok model ∧
      isBlank (p.objects i).prompt = false ∧ 0 < (p.objects f).maxNewTokens ∧ 0 ≤ (p.objects f).temperature ∧
      wordCount (p.objects i).prompt + (p.objects f).maxNewTokens ≤ model.maxContextTokens ∧
      (p.objects i).promptTokens = wordCount (p.objects i).prompt := by
    intro i member
    obtain ⟨counted, other, valid⟩ := alone i (selects.ordered.subset member)
    obtain ⟨sameModel, sameTokens, sameTemperature, -⟩ := like i member
    rw [sameModel, sameTokens, sameTemperature] at valid
    obtain ⟨loaded, -, shown, positive, warm, context, -⟩ := SimulatedGpuRuntime.validateGeneration_ok_iff.mp valid
    have same : other = model := Option.some.inj ((requireLoaded_known loaded).symm.trans known)
    subst same
    exact ⟨loaded, shown _ List.mem_cons_self, positive, warm, context _ List.mem_cons_self, counted⟩
  have sizes : ((selected.map fun i => (p'.objects i).prompt).map
      fun prompt => wordCount prompt + (p'.objects f).maxNewTokens).sum = tokensOf p.objects selected := by
    rw [List.map_map]
    refine congrArg List.sum (List.map_congr_left fun i member => ?_)
    obtain ⟨-, sameTokens, -⟩ := like i member
    obtain ⟨-, -, -, -, -, counted⟩ := passed i member
    rw [Function.comp_apply, record i member, record f leader]
    change wordCount (p.objects i).prompt + (p.objects f).maxNewTokens = (p.objects i).promptTokens + (p.objects i).maxNewTokens
    rw [counted, sameTokens]
  constructor
  · rintro ⟨other, valid⟩
    obtain ⟨loaded, -, -, -, -, -, budget⟩ := SimulatedGpuRuntime.validateGeneration_ok_iff.mp valid
    rw [record f leader] at loaded
    have same : other = model := Option.some.inj ((requireLoaded_known loaded).symm.trans known)
    rw [sizes, same] at budget
    exact budget
  · intro budget
    obtain ⟨loaded, -, positive, warm, -, -⟩ := passed f leader
    refine ⟨model, SimulatedGpuRuntime.validateGeneration_ok_iff.mpr ⟨?_, ?_, ?_, ?_, ?_, ?_, by rw [sizes]; exact budget⟩⟩
    · rw [record f leader]
      exact loaded
    · exact fun none => List.ne_nil_of_mem leader (List.map_eq_nil_iff.mp none)
    · intro prompt member
      obtain ⟨i, inside, rfl⟩ := List.mem_map.mp member
      rw [record i inside]
      exact (passed i inside).2.1
    · rw [record f leader]
      exact positive
    · rw [record f leader]
      exact warm
    · intro prompt member
      obtain ⟨i, inside, rfl⟩ := List.mem_map.mp member
      rw [record i inside, record f leader]
      exact (passed i inside).2.2.2.2.1

/-- The next batch passes the runtime's checks exactly where the model's token
budget would have kept nothing out of it. -/
theorem accepted_iff (queued : LocalQueue p) (alone : ∀ i ∈ p.worker.queue, PassesAlone runtime (p.objects i))
    (now : Seconds) : Accepted runtime now p ↔ Unhindered runtime now p := by
  obtain ⟨selected, p', run, selects, packed, -⟩ := beginBatch_selects queued now
  have shared : ∀ f model, selected.head? = some f → runtime.models.get? (p.objects f).modelId = some model →
      (tokensOf p.objects selected ≤ model.maxBatchTokens ↔
        packing now p.objects p.worker.maxBatchSize (min p.worker.maxBatchTokens model.maxBatchTokens) p.worker.queue =
          packing now p.objects p.worker.maxBatchSize p.worker.maxBatchTokens p.worker.queue) := by
    intro f model head known
    have leads : p.worker.queue.find? (fun i => !(p.objects i).over now) = some f := selects.first.symm.trans head
    have some : selected ≠ [] := List.ne_nil_of_mem (List.mem_of_mem_head? head)
    have budget := selects.budget
    unfold packing at packed ⊢
    rw [leads] at packed ⊢
    dsimp only at packed ⊢
    rw [pack_smaller_iff (min_le_left _ _), ← packed, Nat.zero_add]
    constructor
    · exact fun within => Or.inr (le_min budget within)
    · exact fun within => (within.resolve_left some).trans (min_le_right _ _)
  have record : ∀ f, selected.head? = some f → p'.objects f = (p.objects f).enter .running now := fun f head => by
    rw [selects.records f, if_pos (List.mem_of_mem_head? head)]
  constructor
  · intro accepted f model leads single known
    have head : selected.head? = some f := selects.first.trans leads
    have streams : (p'.objects f).stream = false := by rw [record f head]; exact single
    exact (shared f model head known).mp
      ((handedOver_ok_iff selects head alone known).mp (accepted selected p' f run head streams))
  · intro unhindered other p'' f again head streams
    cases run.symm.trans again
    have single : (p.objects f).stream = false := by
      rw [record f head] at streams
      exact streams
    have leads : p.worker.queue.find? (fun i => !(p.objects i).over now) = some f := selects.first.symm.trans head
    obtain ⟨-, model, valid⟩ := alone f (selects.ordered.subset (List.mem_of_mem_head? head))
    have known := requireLoaded_known (SimulatedGpuRuntime.validateGeneration_ok_iff.mp valid).1
    exact (handedOver_ok_iff selects head alone known).mpr
      ((shared f model head known).mpr (unhindered f model leads single known))

/-- A worker whose budget is not above its models' budgets never hands over too much. -/
theorem unhindered_of_le (small : ∀ model ∈ runtime.models.values, p.worker.maxBatchTokens ≤ model.maxBatchTokens)
    (now : Seconds) : Unhindered runtime now p := by
  intro f model _ _ known
  rw [min_eq_left (small model (Dict.mem_values_iff.mpr ⟨_, known⟩))]

namespace Sample

/-- A runtime that knows one model, with some token budget for a batch. -/
def simulated (maxBatchTokens : Nat) : SimulatedGpuRuntime where
  models := ⟨[("model", ⟨"model", "test", 100, 100, maxBatchTokens⟩)], List.nodup_singleton _⟩
  totalMemoryBytes := 1000
  loaded := ["model"]
  positive := WorkerSystem.Sample.gpu.positive

/-- Two queued requests of three tokens each. -/
def pair : WorkerProcess := ⟨{ Plane.Rejected.worker with queue := [0, 1] }, fun _ => request⟩

theorem pair_queued : LocalQueue pair := ⟨by decide, fun _ _ => Or.inr rfl, fun _ _ => (by decide : 3 ≤ 4096)⟩

theorem passesAlone (maxBatchTokens : Nat) (enough : 3 ≤ maxBatchTokens) : PassesAlone (simulated maxBatchTokens) request := by
  have counted : wordCount "hello" = 1 := by decide
  refine ⟨counted.symm, ⟨"model", "test", 100, 100, maxBatchTokens⟩, ?_⟩
  refine SimulatedGpuRuntime.validateGeneration_ok_iff.mpr ⟨rfl, by decide, ?_, by decide, by decide, ?_, ?_⟩
  · intro prompt member
    rw [List.mem_singleton.mp member]
    decide
  · intro prompt member
    rw [List.mem_singleton.mp member]
    change wordCount "hello" + 2 ≤ 100
    rw [counted]
    decide
  · change wordCount "hello" + 2 + 0 ≤ maxBatchTokens
    rw [counted]
    exact enough

end Sample

open Sample in
theorem accepted_iff_sample : Accepted (simulated 4096) 1 pair := by
  refine (accepted_iff pair_queued (fun _ _ => passesAlone 4096 (by decide)) 1).mpr (unhindered_of_le ?_ 1)
  intro model member
  rw [List.mem_singleton.mp member]
  exact Nat.le_refl _

open Sample in
/-- Two requests that fit the model's budget of five tokens are batched, refused and failed together. -/
theorem oversized_batch_fails : LocalQueue pair ∧ (∀ i ∈ pair.worker.queue, PassesAlone (simulated 5) (pair.objects i)) ∧
    ¬Accepted (simulated 5) 1 pair ∧ ∀ i ∈ pair.worker.queue,
      ((executeBatch ⟨1, (handedOver (simulated 5) pair.objects 0 [0, 1]).map fun _ => [], 2, fun _ => 2⟩ pair).2.objects
        i).status = .failed := by
  refine ⟨pair_queued, fun _ _ => passesAlone 5 (by decide), ?_, by decide⟩
  intro accepted
  obtain ⟨model, valid⟩ := accepted [0, 1] (beginBatch 1 pair).2 0 rfl rfl rfl
  have refused : (handedOver (simulated 5) (beginBatch 1 pair).2.objects 0 [0, 1]).isOk = false := by decide
  rw [valid] at refused
  cases refused

end ManagedWorker

end ServingPlatform
