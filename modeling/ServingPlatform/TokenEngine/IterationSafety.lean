import ServingPlatform.TokenEngine.PrefillSafety

namespace ServingPlatform.TokenGenerationEngine

open Shared

variable {S : Type} {backend : InferenceBackend S} {setup : EngineSetup} {t t' : Shared backend} {r : Ref}
  {d : TokenSchedulingDecision}

/-- The rest of a turn of the scheduler loop, after its decision. -/
def act (d : TokenSchedulingDecision) : EngineM S Bool := do
  if d.prefillIds ≠ [] then
    runPrefill d.prefillIds
    return true
  else if d.decodeIds ≠ [] then
    runDecode d.decodeIds
    return true
  else
    Coro.modify Engine.clearWake
    let e ← Coro.read
    if e.closed ∧ e.active.size = 0 then return false
    Coro.request EngineOp.wakeWait
    return true

theorem schedulerIteration_eq : (schedulerIteration : EngineM S Bool) = Coro.read >>= fun e =>
    if e.closed ∧ e.active.size = 0 then pure false
    else finishInterrupted e.active.values >>= fun _ => Coro.sync Engine.decision >>= act := rfl

theorem inactive_of_size (zero : t.engine.active.size = 0) (r : Ref) : ¬ t.ActiveRef r := by
  intro active
  have empty : t.engine.active.entries = [] := List.eq_nil_of_length_eq_zero zero
  have key : t.engine.requestId r ∈ t.engine.active.keys := Dict.mem_keys_iff.mpr ⟨r, active⟩
  rw [Dict.keys, empty] at key
  cases key

/-- Before anything is decided, what was interrupted ends. -/
theorem safe_interruptions (rested : Rested setup t) :
    SchedulerSafe setup (finishInterrupted t.engine.active.values)
      (fun result t' => Progress setup (fun _ => True) t t' ∧ match result with
        | .ok () => Rested setup t' ∧ ∀ r, t'.ActiveRef r → (t'.view r).Fresh ∨ t.ActiveRef r ∧ t'.view r = t.view r
        | .error _ => ¬ Covered t'.log) t := by
  have active : ∀ r ∈ t.engine.active.values, t.ActiveRef r := fun r member => active_of_value rested.live member
  refine (safe_finishInterrupted (values_nodup rested.live) rested.live active fun r member =>
    rested.settled r (active r member)).mono fun result t' handled => ?_
  refine ⟨handled.1.mono fun _ _ => trivial, ?_⟩
  have rest := handled.2
  cases result with
  | error => exact rest
  | ok =>
    refine ⟨rested.handled handled fun r v member same => ?_, fun r stays => ?_⟩
    · exact same ▸ rested.settled r (active r member)
    · rcases handled.1.joined r stays with before | ⟨-, fresh⟩
      · exact Or.inr ⟨before, rest r (Dict.mem_values_iff.mpr ⟨_, before⟩) stays⟩
      · exact Or.inl fresh

theorem Rested.decided (rested : Rested setup t) : Rested setup (t.withEngine t.engine.decision.2) := by
  have sound : (t.withEngine t.engine.decision.2).Sound setup := Step.decided.sound rested.live.sound
  refine @Rested.progress _ _ _ _ _ (fun _ => False) rested ?_ fun _ never => never.elim
  exact .of_same rested.live sound rfl rfl rfl rfl (fun _ known => known) rfl

/-- What is known of a decision when it is acted upon. -/
structure Decided (t : Shared backend) (d : TokenSchedulingDecision) : Prop where
  prefill : t.engine.Picks (fun phase => phase = .queued ∨ phase = .prefill) d.prefillIds
  decode : t.engine.Picks (fun phase => phase = .decode) d.decodeIds
  equal : ∃ length, ∀ id ∈ d.decodeIds, t.engine.cacheTokensOf id = length

theorem Decided.waits (rested : Rested setup t) (decided : Decided t d) :
    ∀ id ∈ d.prefillIds, ∃ r, t.engine.active.get? id = some r ∧ Waiting setup (t.view r) := by
  intro id member
  obtain ⟨r, found, phase⟩ := decided.prefill.found id member
  refine ⟨r, found, ?_⟩
  have active : t.ActiveRef r := by
    rw [ActiveRef, (rested.live.sound.named id r found).1]
    exact found
  rcases rested.settled r active with fresh | prefilling | decoding
  · exact Or.inl fresh
  · exact Or.inr prefilling
  · have decodes : (t.engine.sequences r).state.phase = .decode := decoding.decode
    rw [decodes] at phase
    cases of_decide_eq_true phase with
    | inl queued => cases queued
    | inr prefill => cases prefill

/-- What acting upon a decision leads to. -/
def Acted (setup : EngineSetup) (t : Shared backend) (d : TokenSchedulingDecision) (result : Except Raised Bool)
    (t' : Shared backend) : Prop :=
  Progress setup (· ∈ refs t (d.prefillIds ++ d.decodeIds)) t t' ∧ match result with
    | .ok true => (∀ r ∈ refs t d.prefillIds, t'.ActiveRef r → Prefilled setup (t.view r) (t'.view r)) ∧
      ∀ r ∈ refs t d.decodeIds, d.prefillIds = [] → t'.ActiveRef r →
        (t.view r).Extended setup.dimensions (t'.view r)
    | .ok false => t'.engine.closed = true ∧ ∀ r, ¬ t'.ActiveRef r
    | .error _ => ¬ Covered t'.log

theorem refs_append (ids ids' : List String) : refs t (ids ++ ids') = refs t ids ++ refs t ids' := List.filterMap_append

theorem safe_act (rested : Rested setup t) (decided : Decided t d) :
    SchedulerSafe setup (act d) (Acted setup t d) t := by
  refine Coro.safe_ite (fun prefills => ?_) fun idle => ?_
  · refine Coro.safe_bind.mpr ((safe_runPrefill rested.live decided.prefill.nodup (decided.waits rested)).mono
      fun result t' handled => ?_)
    have progress : Progress setup (· ∈ refs t (d.prefillIds ++ d.decodeIds)) t t' := by
      refine handled.1.mono fun r listed => ?_
      rw [refs_append]
      exact List.mem_append_left _ listed
    have rest := handled.2
    cases result with
    | error => exact ⟨progress, rest⟩
    | ok => exact ⟨progress, rest, fun _ _ none => absurd none prefills⟩
  have none : d.prefillIds = [] := not_not.mp idle
  refine Coro.safe_ite (fun decodes => ?_) fun still => ?_
  · refine Coro.safe_bind.mpr ((safe_runDecode rested decided.decode decided.equal).mono fun result t' handled => ?_)
    have progress : Progress setup (· ∈ refs t (d.prefillIds ++ d.decodeIds)) t t' := by
      refine handled.1.mono fun r listed => ?_
      rw [refs_append]
      exact List.mem_append_right _ listed
    have rest := handled.2
    cases result with
    | error => exact ⟨progress, rest⟩
    | ok =>
      refine ⟨progress, fun r listed => ?_, fun r listed _ still => rest r listed still⟩
      rw [none] at listed
      cases listed
  · have nothing : d.decodeIds = [] := not_not.mp still
    refine safe_quiet rested.live .clearWake fun t₁ rely => ?_
    have progress : Progress setup (· ∈ refs t (d.prefillIds ++ d.decodeIds)) t t₁ :=
      rely.toProgress.mono fun _ never => never.elim
    refine Coro.safe_read.mpr (Coro.safe_ite (fun isOver => ?_) fun _ => ?_)
    · exact ⟨progress, isOver.1, inactive_of_size isOver.2⟩
    · refine Coro.safe_bind.mpr (Coro.safe_request.mpr ⟨trivial, fun result t' answered => ?_⟩)
      obtain ⟨t₂, t₃, before, woken, after⟩ := answered
      cases woken
      have waited : Progress setup (· ∈ refs t (d.prefillIds ++ d.decodeIds)) t t' := by
        refine (rely.trans (before.trans after)).toProgress.mono fun _ never => never.elim
      exact ⟨waited, fun r listed => absurd (List.mem_filterMap.mp listed) (by rw [none]; rintro ⟨_, member, _⟩; cases member),
        fun r listed => absurd (List.mem_filterMap.mp listed) (by rw [nothing]; rintro ⟨_, member, _⟩; cases member)⟩

theorem Prefilled.settled {v v' : RefView S} (prefilled : Prefilled setup v v') :
    v'.Settled setup.config setup.dimensions := by
  cases prefilled with
  | extended extended => exact Or.inr (Or.inr extended.decoding)
  | advanced _ prefilling => exact Or.inr (Or.inl prefilling)

end ServingPlatform.TokenGenerationEngine
