import ServingPlatform.WorkerLifecycle.Generation

namespace ServingPlatform

/-- The calls of the runtime interface. -/
inductive RuntimeCall
  | loadModel (model : ModelDefinition)
  | unloadModel (modelId : String)
  | warmupModel (modelId : String)
  | isModelLoaded (modelId : String)
  | countPromptTokens (modelId prompt : String)
  | generate (modelId : String) (prompts : List String) (maxNewTokens : Nat) (temperature : Rat)
  | stream (modelId prompt : String) (maxNewTokens : Nat) (temperature : Rat)
  | capacity

def RuntimeCall.operation : RuntimeCall → String
  | .loadModel _ => "load_model"
  | .unloadModel _ => "unload_model"
  | .warmupModel _ => "warmup_model"
  | .isModelLoaded _ => "is_model_loaded"
  | .countPromptTokens _ _ => "count_prompt_tokens"
  | .generate _ _ _ _ => "generate"
  | .stream _ _ _ _ => "stream"
  | .capacity => "capacity"

structure RuntimeStreamChunk where
  text : String
  outputTokens : Nat
  deriving DecidableEq, Repr

inductive RuntimeAnswer
  | done
  | flag (value : Bool)
  | tokens (count : Nat)
  | results (results : List RuntimeResult)
  | chunks (chunks : List RuntimeStreamChunk)
  | capacity (capacity : RuntimeCapacity)

/-- A runtime: what a call on a state answers, and the state after it. A stream is read to its end. -/
abbrev Runtime (ρ : Type) := RuntimeCall → ρ → Except Raised RuntimeAnswer × ρ

namespace Runtime

variable {ρ : Type}

/-- The state after some calls. -/
def after (runtime : Runtime ρ) : List RuntimeCall → ρ → ρ
  | [], s => s
  | call :: rest, s => after runtime rest (runtime call s).2

theorem after_concat (runtime : Runtime ρ) (calls : List RuntimeCall) (call : RuntimeCall) (s : ρ) :
    runtime.after (calls ++ [call]) s = (runtime call (runtime.after calls s)).2 := by
  induction calls generalizing s with
  | nil => rfl
  | cons first rest ih => exact ih _

/-- What every call preserves holds after any of them. -/
theorem after_keeps {runtime : Runtime ρ} {Kept : ρ → Prop} (step : ∀ call s, Kept s → Kept (runtime call s).2)
    (calls : List RuntimeCall) {s : ρ} (kept : Kept s) : Kept (runtime.after calls s) := by
  induction calls generalizing s with
  | nil => exact kept
  | cons call rest ih => exact ih (step call s kept)

end Runtime

/-- The rule of an operation, with the checks of `__post_init__`. -/
structure FaultRule where
  operation : String
  failOnCalls : List Nat
  delaySeconds : Rat
  code : String
  named : operation ≠ "" ∧ code ≠ ""
  timed : 0 ≤ delaySeconds ∧ ∀ call ∈ failOnCalls, 0 < call
  unique : failOnCalls.Nodup

/-- `InjectedRuntimeFault`. -/
def injectedRuntimeFault (operation : String) (callNumber : Nat) (code : String) : Raised :=
  ⟨.other "InjectedRuntimeFault" true, s!"injected {operation} fault on call {callNumber}: {code}"⟩

/-- A runtime with the rules of its faults, the calls counted by operation and
the delays it has slept. -/
structure FaultInjectingRuntime (ρ : Type) where
  runtime : ρ
  rules : Dict String FaultRule
  calls : Dict String Nat
  slept : List Rat
  keyed : ∀ operation rule, rules.get? operation = some rule → rule.operation = operation

namespace FaultInjectingRuntime

variable {ρ : Type}

/-- `__init__`, with the check that no two rules are for one operation. -/
def init (runtime : ρ) (rules : List FaultRule) : Except Raised (FaultInjectingRuntime ρ) :=
  if ¬(rules.map FaultRule.operation).Nodup then
    .error (valueError "only one fault rule is allowed per operation")
  else .ok ⟨runtime, .ofValues FaultRule.operation id rules, .empty, [], fun operation rule found => by
    obtain ⟨a, -, named, same⟩ := Dict.get?_ofValues found
    rw [← same]
    exact named⟩

def callsOf (f : FaultInjectingRuntime ρ) (operation : String) : Nat := (f.calls.get? operation).getD 0

/-- `_before`: the call is counted, delayed and refused as the rule of its operation says. -/
def before (f : FaultInjectingRuntime ρ) (operation : String) : Except Raised Unit × FaultInjectingRuntime ρ :=
  let f := { f with calls := f.calls.insert operation (f.callsOf operation + 1) }
  match f.rules.get? operation with
  | none => (.ok (), f)
  | some rule =>
    let f := { f with slept := f.slept ++ if rule.delaySeconds = 0 then [] else [rule.delaySeconds] }
    if f.callsOf operation ∈ rule.failOnCalls then
      (.error (injectedRuntimeFault operation (f.callsOf operation) rule.code), f)
    else (.ok (), f)

/-- The wrapper of a call: only what `_before` lets pass gets to the runtime. -/
def perform (base : Runtime ρ) (call : RuntimeCall) (f : FaultInjectingRuntime ρ) :
    Except Raised RuntimeAnswer × FaultInjectingRuntime ρ :=
  match f.before call.operation with
  | (.error raised, f) => (.error raised, f)
  | (.ok (), f) => ((base call f.runtime).1, { f with runtime := (base call f.runtime).2 })

def performAll (base : Runtime ρ) : List RuntimeCall → FaultInjectingRuntime ρ → FaultInjectingRuntime ρ
  | [], f => f
  | call :: rest, f => performAll base rest (f.perform base call).2

/-- How many calls of an operation there have been. -/
def count (history : List RuntimeCall) (operation : String) : Nat :=
  history.countP fun call => call.operation = operation

/-- The rule by which a call fails after some others. -/
def injected (rules : Dict String FaultRule) (history : List RuntimeCall) (call : RuntimeCall) : Option FaultRule :=
  (rules.get? call.operation).filter fun rule => count history call.operation + 1 ∈ rule.failOnCalls

/-- The calls that do not fail by a rule. -/
def survivors (rules : Dict String FaultRule) : List RuntimeCall → List RuntimeCall → List RuntimeCall
  | _, [] => []
  | history, call :: rest =>
    if (injected rules history call).isSome then survivors rules (history ++ [call]) rest
    else call :: survivors rules (history ++ [call]) rest

/-- The delay that the rule of a call asks for. -/
def delay (rules : Dict String FaultRule) (call : RuntimeCall) : Option Rat :=
  ((rules.get? call.operation).map FaultRule.delaySeconds).filter (· ≠ 0)

section Runs

variable {base : Runtime ρ} {f : FaultInjectingRuntime ρ} {rules : Dict String FaultRule} {history : List RuntimeCall}
  {operation : String}

theorem count_concat (history : List RuntimeCall) (call : RuntimeCall) (operation : String) :
    count (history ++ [call]) operation = count history operation + if call.operation = operation then 1 else 0 := by
  simp [count, List.countP_append, List.countP_singleton]

theorem survivors_concat (rules : Dict String FaultRule) (history calls : List RuntimeCall) (call : RuntimeCall) :
    survivors rules history (calls ++ [call]) = survivors rules history calls ++
      if (injected rules (history ++ calls) call).isSome then [] else [call] := by
  induction calls generalizing history with
  | nil =>
    rw [List.nil_append, List.append_nil, survivors, survivors, List.nil_append]
    rfl
  | cons first rest ih =>
    rw [List.cons_append, survivors, survivors, ih, List.append_assoc, List.singleton_append]
    split <;> rfl

/-- What the wrapper knows after some calls. -/
structure Follows (base : Runtime ρ) (start : ρ) (rules : Dict String FaultRule) (history : List RuntimeCall)
    (f : FaultInjectingRuntime ρ) : Prop where
  ruled : f.rules = rules
  counted : ∀ operation, f.callsOf operation = count history operation
  reached : f.runtime = base.after (survivors rules [] history) start
  delayed : f.slept = history.filterMap (delay rules)

/-- The wrapper once a call has been counted and delayed. -/
def noted (f : FaultInjectingRuntime ρ) (call : RuntimeCall) : FaultInjectingRuntime ρ := { f with
  calls := f.calls.insert call.operation (f.callsOf call.operation + 1)
  slept := f.slept ++ (delay f.rules call).toList }

theorem callsOf_noted (f : FaultInjectingRuntime ρ) (call : RuntimeCall) (operation : String) :
    (f.noted call).callsOf operation = f.callsOf operation + if call.operation = operation then 1 else 0 := by
  unfold callsOf noted
  rw [Dict.get?_insert]
  by_cases same : operation = call.operation
  · rw [if_pos same, if_pos same.symm, same]
    rfl
  · rw [if_neg same, if_neg (Ne.symm same), Nat.add_zero]

theorem before_eq {call : RuntimeCall} (counted : f.callsOf call.operation = count history call.operation) :
    f.before call.operation = (match injected f.rules history call with
      | some rule => .error (injectedRuntimeFault call.operation (count history call.operation + 1) rule.code)
      | none => .ok (), f.noted call) := by
  have delays : (delay f.rules call).toList = (f.rules.get? call.operation).elim [] fun rule =>
      if rule.delaySeconds = 0 then [] else [rule.delaySeconds] := by
    unfold delay
    cases f.rules.get? call.operation with
    | none => rfl
    | some rule => by_cases zero : rule.delaySeconds = 0 <;> simp [Option.filter, zero]
  have number : ∀ g : FaultInjectingRuntime ρ, g.calls = (f.noted call).calls →
      g.callsOf call.operation = count history call.operation + 1 := by
    intro g same
    have noted := callsOf_noted f call call.operation
    rw [if_pos rfl, counted] at noted
    rw [callsOf, same]
    exact noted
  cases found : f.rules.get? call.operation with
  | none =>
    rw [found] at delays
    simp only [before, injected, noted, found, delays, Option.elim_none, Option.filter_none, List.append_nil]
  | some rule =>
    rw [found] at delays
    simp only [before, injected, noted, found, delays, Option.elim_some, number]
    by_cases listed : count history call.operation + 1 ∈ rule.failOnCalls
    · have kept := Option.filter_some_pos (p := fun rule : FaultRule =>
        decide (count history call.operation + 1 ∈ rule.failOnCalls)) (a := rule) (decide_eq_true listed)
      rw [if_pos listed, kept]
    · have dropped := Option.filter_some_neg (p := fun rule : FaultRule =>
        decide (count history call.operation + 1 ∈ rule.failOnCalls)) (a := rule) (by simpa using listed)
      rw [if_neg listed, dropped]

theorem perform_of_injected {call : RuntimeCall} {rule : FaultRule}
    (counted : f.callsOf call.operation = count history call.operation)
    (fails : injected f.rules history call = some rule) : f.perform base call =
      (.error (injectedRuntimeFault call.operation (count history call.operation + 1) rule.code), f.noted call) := by
  rw [perform, before_eq counted, fails]

theorem perform_of_passed {call : RuntimeCall} (counted : f.callsOf call.operation = count history call.operation)
    (passes : injected f.rules history call = none) : f.perform base call =
      ((base call f.runtime).1, { f.noted call with runtime := (base call f.runtime).2 }) := by
  rw [perform, before_eq counted, passes]
  rfl

theorem delayed_concat (rules : Dict String FaultRule) (history : List RuntimeCall) (call : RuntimeCall) :
    (history ++ [call]).filterMap (delay rules) = history.filterMap (delay rules) ++ (delay rules call).toList := by
  rw [List.filterMap_append]
  cases asked : delay rules call <;> simp [asked]

/-- A call is refused by its rule, or gets to the runtime. -/
theorem Follows.perform {start : ρ} (follows : Follows base start rules history f) (call : RuntimeCall) :
    Follows base start rules (history ++ [call]) (f.perform base call).2 := by
  have counted := follows.counted call.operation
  have counts : ∀ operation, (f.noted call).callsOf operation = count (history ++ [call]) operation := by
    intro operation
    rw [callsOf_noted, count_concat, follows.counted]
  have delays : (f.noted call).slept = (history ++ [call]).filterMap (delay rules) := by
    rw [delayed_concat, ← follows.delayed, ← follows.ruled]
    rfl
  have outlived := survivors_concat rules [] history call
  rw [List.nil_append] at outlived
  obtain rfl := follows.ruled
  cases fails : injected f.rules history call with
  | some rule =>
    rw [fails] at outlived
    rw [perform_of_injected counted fails]
    refine ⟨rfl, counts, ?_, delays⟩
    rw [outlived, Option.isSome_some, if_pos rfl, List.append_nil]
    exact follows.reached
  | none =>
    rw [fails] at outlived
    rw [perform_of_passed counted fails]
    refine ⟨rfl, counts, ?_, delays⟩
    rw [outlived, Option.isSome_none, if_neg Bool.false_ne_true, base.after_concat, ← follows.reached]

theorem follows_init (base : Runtime ρ) {runtime : ρ} {given : List FaultRule} (built : init runtime given = .ok f) :
    Follows base runtime f.rules [] f := by
  unfold init at built
  split at built
  · cases built
  · cases built
    exact ⟨rfl, fun _ => rfl, rfl, rfl⟩

theorem performAll_follows {start : ρ} (calls : List RuntimeCall) (follows : Follows base start rules history f) :
    Follows base start rules (history ++ calls) (performAll base calls f) := by
  induction calls generalizing history f with
  | nil =>
    rw [List.append_nil]
    exact follows
  | cons call rest ih =>
    have next := ih (follows.perform call)
    rw [List.append_assoc, List.singleton_append] at next
    exact next

theorem Follows.answers {start : ρ} {call : RuntimeCall} (follows : Follows base start rules history f)
    (passes : injected rules history call = none) : (f.perform base call).1 = (base call f.runtime).1 := by
  rw [← follows.ruled] at passes
  rw [perform_of_passed (follows.counted call.operation) passes]

/-- In every run of a wrapped runtime, the calls that fail are those that the
rule of their operation lists, by their numbers; the runtime is in the state
that the others would have left it in without the wrapper, and answers as it
would have then. -/
theorem faults_fall_on_listed_calls (base : Runtime ρ) {runtime : ρ} {given : List FaultRule}
    (built : init runtime given = .ok f) (calls : List RuntimeCall) :
    (∀ operation, (performAll base calls f).callsOf operation = count calls operation) ∧
    (performAll base calls f).slept = calls.filterMap (delay f.rules) ∧
    (performAll base calls f).runtime = base.after (survivors f.rules [] calls) runtime ∧
    ∀ call, ((performAll base calls f).perform base call).1 =
      match injected f.rules calls call with
      | some rule => .error (injectedRuntimeFault call.operation (count calls call.operation + 1) rule.code)
      | none => (base call (base.after (survivors f.rules [] calls) runtime)).1 := by
  have follows := performAll_follows calls (follows_init base built)
  rw [List.nil_append] at follows
  refine ⟨follows.counted, follows.delayed, follows.reached, fun call => ?_⟩
  have counted := follows.counted call.operation
  have ruled := follows.ruled
  cases fails : injected f.rules calls call with
  | some rule =>
    rw [← ruled] at fails
    rw [perform_of_injected counted fails]
  | none => rw [follows.answers fails, follows.reached]

namespace Sample

theorem unloading_named : "unload_model" ≠ "" ∧ "controlled_failure" ≠ "" := by decide

theorem unloading_timed : (0 : Rat) ≤ 0 ∧ ∀ call ∈ [2], 0 < call := by decide

theorem unloading_unique : [2].Nodup := by decide

def unloading : FaultRule :=
  ⟨"unload_model", [2], 0, "controlled_failure", unloading_named, unloading_timed, unloading_unique⟩

def counting : Runtime Nat := fun _ seen => (.ok .done, seen + 1)

def unloads : List RuntimeCall := [.unloadModel "a", .unloadModel "b", .unloadModel "c"]

end Sample

theorem faults_fall_on_listed_calls_pair : ∃ f, init 0 [Sample.unloading] = .ok f ∧
    (performAll Sample.counting Sample.unloads f).callsOf "unload_model" = 3 ∧
    (performAll Sample.counting Sample.unloads f).runtime = 2 := by
  obtain ⟨f, built⟩ : ∃ f, init 0 [Sample.unloading] = .ok f := ⟨_, rfl⟩
  obtain ⟨counted, -, reached, -⟩ := faults_fall_on_listed_calls Sample.counting built Sample.unloads
  cases built
  refine ⟨_, rfl, ?_⟩
  exact ⟨counted "unload_model", reached⟩

end Runs

end FaultInjectingRuntime

end ServingPlatform
