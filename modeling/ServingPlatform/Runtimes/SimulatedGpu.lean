import ServingPlatform.Runtimes.FaultInjection

namespace ServingPlatform

/-- The parameters of the simulation besides its memory and its timing. -/
structure SimulatedGpuConfig where
  failureEveryNCalls : Option Nat
  seed : Int
  positive : ∀ interval, failureEveryNCalls = some interval → 0 < interval

/-- A simulated GPU with the generations that it has counted. -/
structure SimulatedGpuDevice where
  runtime : SimulatedGpuRuntime
  config : SimulatedGpuConfig
  calls : Nat

/-- The text of a result: it is drawn from the seed, the model, the prompt and the limits. -/
abbrev ResultText := Int → String → String → Nat → Rat → String

namespace SimulatedGpuDevice

variable (text : ResultText) (d : SimulatedGpuDevice)

/-- `__init__`: the models of the registry, none of which is loaded. -/
def init (models : List ModelDefinition) (totalMemoryBytes : Nat) (config : SimulatedGpuConfig)
    (positive : 0 < totalMemoryBytes) : Except Raised SimulatedGpuDevice :=
  if (Dict.ofValues ModelDefinition.modelId id models).size ≠ models.length then
    .error (valueError "simulated model identifiers must be unique")
  else .ok ⟨⟨.ofValues ModelDefinition.modelId id models, totalMemoryBytes, [], positive⟩, config, 0⟩

/-- `_before_generation`. -/
def beforeGeneration : Except Raised Unit × SimulatedGpuDevice :=
  let d := { d with calls := d.calls + 1 }
  match d.config.failureEveryNCalls with
  | none => (.ok (), d)
  | some interval =>
    if d.calls % interval = 0 then (.error (runtimeError "controlled simulated GPU failure"), d)
    else (.ok (), d)

/-- A generation, once it has been found valid. -/
def generation (modelId : String) (prompts : List String) (maxNewTokens : Nat) (temperature : Rat)
    (answer : RuntimeAnswer) : Except Raised RuntimeAnswer × SimulatedGpuDevice :=
  match d.runtime.validateGeneration modelId prompts maxNewTokens temperature with
  | .error raised => (.error raised, d)
  | .ok _ =>
    match d.beforeGeneration with
    | (.error raised, d) => (.error raised, d)
    | (.ok (), d) => (.ok answer, d)

def result (modelId prompt : String) (outputTokens : Nat) (temperature : Rat) : RuntimeResult where
  text := text d.config.seed modelId prompt outputTokens temperature
  inputTokens := wordCount prompt
  outputTokens

def chunks (maxNewTokens : Nat) : List RuntimeStreamChunk :=
  (List.range maxNewTokens).map fun number => ⟨s!"sim-{number + 1} ", number + 1⟩

/-- The simulated GPU as a runtime. -/
def call : Runtime SimulatedGpuDevice
  | .loadModel model, d =>
    match d.runtime.checkLoad model with
    | .error raised => (.error raised, d)
    | .ok false => (.ok .done, d)
    | .ok true => (.ok .done, { d with runtime := d.runtime.addLoaded model.modelId })
  | .unloadModel modelId, d =>
    match d.runtime.unloadModel modelId with
    | .error raised => (.error raised, d)
    | .ok runtime => (.ok .done, { d with runtime })
  | .warmupModel modelId, d => ((d.runtime.warmupModel modelId).map fun _ => .done, d)
  | .isModelLoaded modelId, d => ((d.runtime.isModelLoaded modelId).map .flag, d)
  | .countPromptTokens modelId prompt, d =>
    ((d.runtime.definition modelId).map fun _ => .tokens (wordCount prompt), d)
  | .generate modelId prompts maxNewTokens temperature, d =>
    d.generation modelId prompts maxNewTokens temperature
      (.results (prompts.map fun prompt => d.result text modelId prompt maxNewTokens temperature))
  | .stream modelId prompt maxNewTokens temperature, d =>
    d.generation modelId [prompt] maxNewTokens temperature (.chunks (chunks maxNewTokens))
  | .capacity, d => (.ok (.capacity d.runtime.capacity), d)

/-- Whether a call is a generation that the device accepts. -/
def generates : RuntimeCall → Bool
  | .generate modelId prompts maxNewTokens temperature =>
    (d.runtime.validateGeneration modelId prompts maxNewTokens temperature).isOk
  | .stream modelId prompt maxNewTokens temperature =>
    (d.runtime.validateGeneration modelId [prompt] maxNewTokens temperature).isOk
  | _ => false

/-- The generations among some calls. -/
def generations : List RuntimeCall → SimulatedGpuDevice → Nat
  | [], _ => 0
  | call_ :: rest, d => (if d.generates call_ then 1 else 0) + generations rest (call text call_ d).2

/-- Whether the next generation is one of those that fail. -/
def FailsNext : Prop := ∃ interval ∈ d.config.failureEveryNCalls, (d.calls + 1) % interval = 0

instance : Decidable d.FailsNext :=
  inferInstanceAs (Decidable (∃ interval ∈ d.config.failureEveryNCalls, (d.calls + 1) % interval = 0))

end SimulatedGpuDevice

/-- The models that a simulated GPU has loaded are among those it knows, and fit its memory. -/
structure SimulatedGpuRuntime.Sound (r : SimulatedGpuRuntime) : Prop where
  keyed : ∀ modelId model, r.models.get? modelId = some model → model.modelId = modelId
  distinct : r.loaded.Nodup
  known : ∀ modelId ∈ r.loaded, ∃ model, r.models.get? modelId = some model
  fits : r.used ≤ r.totalMemoryBytes

namespace SimulatedGpuRuntime

variable {r r' : SimulatedGpuRuntime} {modelId : String} {model : ModelDefinition}

theorem memory_nonneg (r : SimulatedGpuRuntime) (modelId : String) :
    0 ≤ (r.models.get? modelId).elim 0 fun model => (model.estimatedMemoryBytes : Int) := by
  cases r.models.get? modelId with
  | none => exact le_refl _
  | some model => exact Int.natCast_nonneg _

theorem used_nonneg (r : SimulatedGpuRuntime) : 0 ≤ r.used :=
  List.sum_nonneg (List.forall_mem_map.mpr fun modelId _ => r.memory_nonneg modelId)

theorem checkLoad_true (checked : r.checkLoad model = .ok true) : r.models.get? model.modelId = some model ∧
    model.modelId ∉ r.loaded ∧ (model.estimatedMemoryBytes : Int) ≤ r.totalMemoryBytes - r.used := by
  unfold checkLoad definition at checked
  cases found : r.models.get? model.modelId with
  | none =>
    rw [found] at checked
    cases checked
  | some registered =>
    rw [found] at checked
    simp only at checked
    split_ifs at checked with differs loaded short
    · cases checked
    · obtain rfl := not_not.mp differs
      exact ⟨rfl, loaded, not_lt.mp short⟩

theorem Sound.addLoaded (sound : r.Sound) (checked : r.checkLoad model = .ok true) :
    (r.addLoaded model.modelId).Sound := by
  obtain ⟨found, absent, fits⟩ := checkLoad_true checked
  have loaded : (r.addLoaded model.modelId).loaded = model.modelId :: r.loaded := List.insert_of_not_mem absent
  refine ⟨sound.keyed, ?_, fun modelId member => ?_, ?_⟩
  · rw [loaded]
    exact List.nodup_cons.mpr ⟨absent, sound.distinct⟩
  · rcases mem_addLoaded.mp member with rfl | before
    · exact ⟨model, found⟩
    · exact sound.known modelId before
  · have used : (r.addLoaded model.modelId).used = model.estimatedMemoryBytes + r.used := by
      unfold SimulatedGpuRuntime.used
      rw [loaded, List.map_cons, List.sum_cons]
      change (r.models.get? model.modelId).elim 0 _ + _ = _
      rw [found]
      rfl
    rw [used]
    show (model.estimatedMemoryBytes : Int) + r.used ≤ r.totalMemoryBytes
    omega

theorem Sound.unloadModel (sound : r.Sound) (unloaded : r.unloadModel modelId = .ok r') : r'.Sound := by
  unfold SimulatedGpuRuntime.unloadModel at unloaded
  split at unloaded
  · cases unloaded
  · cases unloaded
    have fewer : (r.loaded.filter (· ≠ modelId)).Sublist r.loaded := List.filter_sublist
    refine ⟨sound.keyed, sound.distinct.sublist fewer, fun other member => sound.known other (fewer.subset member), ?_⟩
    refine le_trans ?_ sound.fits
    exact (fewer.map _).sum_le_sum (List.forall_mem_map.mpr fun other _ => r.memory_nonneg other)

end SimulatedGpuRuntime

namespace SimulatedGpuDevice

variable {text : ResultText} {d : SimulatedGpuDevice}

/-- The next generation fails, or gets its answer. -/
theorem beforeGeneration_cases (d : SimulatedGpuDevice) :
    (d.FailsNext ∧ d.beforeGeneration =
      (.error (runtimeError "controlled simulated GPU failure"), { d with calls := d.calls + 1 })) ∨
    ¬d.FailsNext ∧ d.beforeGeneration = (.ok (), { d with calls := d.calls + 1 }) := by
  unfold beforeGeneration FailsNext
  cases chosen : d.config.failureEveryNCalls with
  | none =>
    right
    refine ⟨?_, ?_⟩
    · rintro ⟨interval, absent, -⟩
      cases absent
    · simp only [chosen]
  | some interval =>
    by_cases divides : (d.calls + 1) % interval = 0
    · left
      refine ⟨⟨interval, rfl, divides⟩, ?_⟩
      simp only [chosen, if_pos divides]
    · right
      refine ⟨?_, ?_⟩
      · rintro ⟨other, same, divided⟩
        cases same
        exact divides divided
      · simp only [chosen, if_neg divides]

theorem generation_cases (d : SimulatedGpuDevice) (modelId : String) (prompts : List String) (maxNewTokens : Nat)
    (temperature : Rat) (answer : RuntimeAnswer) :
    ((d.runtime.validateGeneration modelId prompts maxNewTokens temperature).isOk = false ∧
      (d.generation modelId prompts maxNewTokens temperature answer).2 = d) ∨
    ((d.runtime.validateGeneration modelId prompts maxNewTokens temperature).isOk = true ∧
      (d.generation modelId prompts maxNewTokens temperature answer).2 = { d with calls := d.calls + 1 } ∧
      (d.generation modelId prompts maxNewTokens temperature answer).1 =
        if d.FailsNext then .error (runtimeError "controlled simulated GPU failure") else .ok answer) := by
  cases valid : d.runtime.validateGeneration modelId prompts maxNewTokens temperature with
  | error raised =>
    left
    refine ⟨rfl, ?_⟩
    rw [generation, valid]
  | ok model =>
    right
    refine ⟨rfl, ?_⟩
    rw [generation, valid]
    rcases d.beforeGeneration_cases with ⟨fails, run⟩ | ⟨succeeds, run⟩
    · rw [run, if_pos fails]
      exact ⟨rfl, rfl⟩
    · rw [run, if_neg succeeds]
      exact ⟨rfl, rfl⟩

/-- What holds of a device whatever it is asked for. -/
structure Kept (start d : SimulatedGpuDevice) : Prop where
  sound : d.runtime.Sound
  models : d.runtime.models = start.runtime.models
  total : d.runtime.totalMemoryBytes = start.runtime.totalMemoryBytes
  config : d.config = start.config

theorem kept_call {start : SimulatedGpuDevice} (call_ : RuntimeCall) (kept : Kept start d) :
    Kept start (call text call_ d).2 := by
  have counted : Kept start { d with calls := d.calls + 1 } := ⟨kept.sound, kept.models, kept.total, kept.config⟩
  cases call_ with
  | loadModel model =>
    cases checked : d.runtime.checkLoad model with
    | error raised =>
      simp only [call, checked]
      exact kept
    | ok new =>
      cases new with
      | false =>
        simp only [call, checked]
        exact kept
      | true =>
        simp only [call, checked]
        exact ⟨kept.sound.addLoaded checked, kept.models, kept.total, kept.config⟩
  | unloadModel modelId =>
    cases unloaded : d.runtime.unloadModel modelId with
    | error raised =>
      simp only [call, unloaded]
      exact kept
    | ok r' =>
      simp only [call, unloaded]
      have same : r'.models = d.runtime.models ∧ r'.totalMemoryBytes = d.runtime.totalMemoryBytes := by
        unfold SimulatedGpuRuntime.unloadModel at unloaded
        split at unloaded
        · cases unloaded
        · cases unloaded
          exact ⟨rfl, rfl⟩
      exact ⟨kept.sound.unloadModel unloaded, same.1.trans kept.models, same.2.trans kept.total, kept.config⟩
  | warmupModel modelId => exact kept
  | isModelLoaded modelId => exact kept
  | countPromptTokens modelId prompt => exact kept
  | generate modelId prompts maxNewTokens temperature =>
    rcases d.generation_cases modelId prompts maxNewTokens temperature (.results (prompts.map fun prompt =>
      d.result text modelId prompt maxNewTokens temperature)) with ⟨-, same⟩ | ⟨-, same, -⟩
    · rw [call, same]
      exact kept
    · rw [call, same]
      exact counted
  | stream modelId prompt maxNewTokens temperature =>
    rcases d.generation_cases modelId [prompt] maxNewTokens temperature (.chunks (chunks maxNewTokens)) with
      ⟨-, same⟩ | ⟨-, same, -⟩
    · rw [call, same]
      exact kept
    · rw [call, same]
      exact counted
  | capacity => exact kept

theorem calls_call (text : ResultText) (call_ : RuntimeCall) (d : SimulatedGpuDevice) :
    (call text call_ d).2.calls = d.calls + if d.generates call_ then 1 else 0 := by
  have counted : ∀ (accepted : Bool) (result : Except Raised RuntimeAnswer × SimulatedGpuDevice) (done : Prop),
      (accepted = false ∧ result.2 = d) ∨
        (accepted = true ∧ result.2 = { d with calls := d.calls + 1 } ∧ done) →
      result.2.calls = d.calls + if accepted then 1 else 0 := by
    rintro accepted result done (⟨refused, same⟩ | ⟨taken, same, -⟩)
    · rw [same, refused]
      rfl
    · rw [same, taken]
      rfl
  have kept : ∀ result : Except Raised RuntimeAnswer × SimulatedGpuDevice,
      result.2.calls = d.calls → result.2.calls = d.calls + if false then 1 else 0 := fun _ same => same
  cases call_ with
  | loadModel model =>
    cases checked : d.runtime.checkLoad model with
    | error raised =>
      rw [call, checked]
      exact kept _ rfl
    | ok new =>
      rw [call, checked]
      cases new <;> exact kept _ rfl
  | unloadModel modelId =>
    cases unloaded : d.runtime.unloadModel modelId with
    | error raised =>
      rw [call, unloaded]
      exact kept _ rfl
    | ok after =>
      rw [call, unloaded]
      exact kept _ rfl
  | warmupModel modelId => rfl
  | isModelLoaded modelId => rfl
  | countPromptTokens modelId prompt => rfl
  | generate modelId prompts maxNewTokens temperature =>
    exact counted _ _ _ (d.generation_cases modelId prompts maxNewTokens temperature (.results (prompts.map
      fun prompt => d.result text modelId prompt maxNewTokens temperature)))
  | stream modelId prompt maxNewTokens temperature =>
    exact counted _ _ _ (d.generation_cases modelId [prompt] maxNewTokens temperature
      (.chunks (chunks maxNewTokens)))
  | capacity => rfl

theorem calls_after (text : ResultText) (calls : List RuntimeCall) (d : SimulatedGpuDevice) :
    (Runtime.after (call text) calls d).calls = d.calls + generations text calls d := by
  induction calls generalizing d with
  | nil => rfl
  | cons first rest ih =>
    have counted := calls_call text first d
    rw [Runtime.after, ih, counted, generations, Nat.add_assoc]

theorem kept_init {models : List ModelDefinition} {totalMemoryBytes : Nat} {config : SimulatedGpuConfig}
    {positive : 0 < totalMemoryBytes} (built : init models totalMemoryBytes config positive = .ok d) :
    Kept d d ∧ d.calls = 0 ∧ d.runtime.totalMemoryBytes = totalMemoryBytes ∧ d.config = config := by
  unfold init at built
  split at built
  · cases built
  · cases built
    refine ⟨⟨⟨?_, List.nodup_nil, ?_, ?_⟩, rfl, rfl, rfl⟩, rfl, rfl, rfl⟩
    · intro modelId model found
      obtain ⟨a, -, named, same⟩ := Dict.get?_ofValues found
      rw [← same]
      exact named
    · intro modelId member
      cases member
    · exact Int.natCast_nonneg totalMemoryBytes

namespace Sample

theorem two_positive : ∀ interval, some 2 = some interval → 0 < interval := by
  intro interval chosen
  cases chosen
  exact Nat.two_pos

theorem memory_positive : 0 < 1000 := by decide

def model : ModelDefinition := ⟨"model", "main", 100, 1024, 2048⟩

def everySecond : SimulatedGpuConfig := ⟨some 2, 0, two_positive⟩

def silent : ResultText := fun _ _ _ _ _ => ""

def drill : List RuntimeCall := [.loadModel model, .generate "model" ["hi"] 4 0]

end Sample

end SimulatedGpuDevice

end ServingPlatform
