import ServingPlatform.TokenEngine.IterationSafety
import ServingPlatform.TokenEngine.Waiting

namespace ServingPlatform

open TokenGenerationEngine

variable {S : Type} {backend : InferenceBackend S} {setup : EngineSetup}

theorem Shared.Rely.onward {t t' : Shared backend} (rely : Rely setup t t') : t.engine.Onward t'.engine := by
  refine ⟨rely.created, fun r older waits => ?_⟩
  rcases rely.joined r waits.1 with before | ⟨newer, -⟩
  · refine ⟨before, ?_⟩
    have phase : (t'.engine.sequences r).state.phase = (t.engine.sequences r).state.phase :=
      congrArg RefView.phase (rely.kept' before).2
    exact phase ▸ waits.2
  · exact absurd newer (Nat.not_le_of_lt older)

theorem Shared.Progress.keeps {t t' : Shared backend} {R : Ref → Prop} (progress : Progress setup R t t')
    (inside : ∀ r, R r → t'.ActiveRef r → t'.engine.Waits r ∨
      t.ActiveRef r ∧ (t'.engine.sequences r).state.phase = (t.engine.sequences r).state.phase) :
    t.engine.Keeps t'.engine := by
  intro r active
  by_cases touched : R r
  · exact inside r touched active
  · rcases progress.joined r active with before | ⟨-, fresh⟩
    · have phase : (t'.engine.sequences r).state.phase = (t.engine.sequences r).state.phase :=
        congrArg RefView.phase (progress.kept r before touched).2
      exact Or.inr ⟨before, phase⟩
    · exact Or.inl ⟨active, Or.inl fresh.phase⟩

theorem Shared.Rely.keeps {t t' : Shared backend} (rely : Rely setup t t') : t.engine.Keeps t'.engine :=
  rely.toProgress.keeps fun _ never => never.elim

theorem Answers.onward {op : EngineOp S} {t t' : Shared backend} {result : Except Raised op.Answer}
    (answers : Answers backend op t result t') : t.engine.Onward t'.engine := by
  cases answers with
  | event next => exact Shared.onward_modified rfl fun waits => waits
  | _ => exact .of_same rfl rfl fun _ => rfl

theorem Answers.policy {op : EngineOp S} {t t' : Shared backend} {result : Except Raised op.Answer}
    (answers : Answers backend op t result t') : t'.engine.policy = t.engine.policy := by
  cases answers <;> rfl

namespace Chronicle

variable {h h' : Chronicle backend}

/-- The steps of all parties, with the decisions noted. -/
inductive Moves : Chronicle backend → Chronicle backend → Prop
  | step {h : Chronicle backend} {t : Shared backend} (step : Shared.Step h.shared t)
      (policy : t.engine.policy = h.shared.engine.policy) : Moves h ⟨t, h.decisions⟩
  | decided {h : Chronicle backend} : Moves h (h.note h.shared.engine.decision.2)

theorem Moves.chain (moves : Relation.ReflTransGen Moves h h') : Shared.Chain h.shared h'.shared := by
  induction moves with
  | refl => exact .refl
  | tail _ move before =>
    cases move with
    | step step => exact before.tail step
    | decided => exact before.tail .decided

/-- The scheduler's rules, where other parties decide nothing. -/
def turnProtocol (backend : InferenceBackend S) (setup : EngineSetup) :
    Coro.Protocol (Chronicle backend) (EngineOp S) EngineOp.Answer Raised where
  update h h' := Moves h h' ∧ h'.shared.engine.schedulerTask = h.shared.engine.schedulerTask ∧
    h'.shared.log = h.shared.log ∧ (Engine.Orderly h.decisions → Engine.Orderly h'.decisions)
  call op h := (Shared.schedulerProtocol backend setup).call op h.shared
  answer op h result h' := (Shared.schedulerProtocol backend setup).answer op h.shared result h'.shared ∧
    h'.decisions = h.decisions ∧ h'.shared.engine.policy = h.shared.engine.policy

abbrev TurnSafe {α : Type} (setup : EngineSetup) (c : EngineM S α) (Q : Except Raised α → Chronicle backend → Prop)
    (h : Chronicle backend) : Prop :=
  Coro.Safe window (turnProtocol backend setup) c Q h

theorem note_same {engine : Engine S} (same : engine.policy = h.shared.engine.policy) :
    h.note engine = ⟨h.shared.withEngine engine, h.decisions⟩ := by
  unfold note
  rw [same, if_pos rfl]

theorem scheduler_onward (op : EngineOp S) (t : Shared backend) (result : Except Raised op.Answer) (t' : Shared backend)
    (given : (Shared.schedulerProtocol backend setup).answer op t result t') : t.engine.Onward t'.engine := by
  obtain ⟨t₁, t₂, first, answers, second⟩ := given
  exact first.onward.trans (answers.onward.trans second.onward)

/-- What the scheduler does but for its decision. -/
theorem turnSafe {α : Type} {c : EngineM S α} {Q : Except Raised α → Shared backend → Prop}
    (safe : Shared.SchedulerSafe setup c Q h.shared) : TurnSafe setup c (fun result h' =>
      Q result h'.shared ∧ h.shared.engine.Onward h'.shared.engine ∧ h'.decisions = h.decisions ∧
        h'.shared.engine.policy = h.shared.engine.policy) h := by
  have along := safe.along (R := fun t t' : Shared backend => t.engine.Onward t'.engine) (fun _ => .refl _)
    (fun first second => first.trans second) (fun _ _ action => Shared.Action.onward action)
    fun op t result t' _ given => scheduler_onward op t result t' given
  refine (Coro.Safe.lift shared (fun h => (h.decisions, h.shared.engine.policy)) (fun _ => rfl) (fun _ _ => rfl) ?_
    (fun _ _ allowed => allowed) ?_ along).mono fun result h' held => ?_
  · intro u s action
    have same : s.policy = u.shared.engine.policy := Shared.Action.policy action
    have put : window.put u s = ⟨u.shared.withEngine s, u.decisions⟩ := note_same same
    rw [put]
    exact ⟨⟨.step (.scheduler action) same, action.recedes.task, action.log, id⟩, congrArg (Prod.mk u.decisions) same⟩
  · intro op u result u' given
    refine ⟨given.1, ?_⟩
    rw [given.2.1, given.2.2]
  · have kept := Prod.mk.inj held.2
    exact ⟨held.1.1, held.1.2, kept.1, kept.2⟩

/-- The decisions so far, each acted upon before the next. -/
def Orderly (h : Chronicle backend) : Prop := Engine.Orderly (h.shared.engine :: h.decisions)

theorem Orderly.later (orderly : h.Orderly) (onward : h.shared.engine.Onward h'.shared.engine)
    (keeps : h.shared.engine.Keeps h'.shared.engine) (decisions : h'.decisions = h.decisions)
    (policy : h'.shared.engine.policy = h.shared.engine.policy) : h'.Orderly := by
  unfold Orderly
  rw [decisions]
  exact ⟨orderly.1.later onward keeps policy, orderly.2⟩

theorem Orderly.noted (orderly : h.Orderly) (engine : Engine S) : Engine.Orderly (h.note engine).decisions := by
  unfold note
  split
  · exact orderly.2
  · exact orderly

/-- How a turn of the scheduler loop ends. -/
def TurnEnds (setup : EngineSetup) (result : Except Raised Bool) (h : Chronicle backend) : Prop :=
  h.shared.Live setup ∧ match result with
    | .ok true => Rested setup h.shared ∧ h.Orderly
    | .ok false => h.shared.engine.closed = true ∧ ∀ r, ¬ h.shared.ActiveRef r
    | .error _ => ¬ Covered h.shared.log

end Chronicle

namespace TokenGenerationEngine

open Shared Chronicle

variable {h h' : Chronicle backend} {d : TokenSchedulingDecision}

theorem Acted.ends {t t' : Shared backend} (rested : Rested setup t) (apart : d.prefillIds = [] ∨ d.decodeIds = [])
    (acted : Acted setup t d (.ok true) t') : Rested setup t' := by
  obtain ⟨progress, prefilled, decoded⟩ := acted
  refine rested.progress progress fun r listed active => ?_
  rw [refs_append] at listed
  rcases List.mem_append.mp listed with inPrefill | inDecode
  · exact (prefilled r inPrefill active).settled
  · rcases apart with none | none
    · exact Or.inr (Or.inr (decoded r inDecode none active).decoding)
    · rw [none] at inDecode
      cases inDecode

theorem Prefilled.served {v v' : RefView S} (prefilled : Prefilled setup v v')
    (whole : setup.config.prefillChunkSizeTokens = 0) : v'.phase = .decode := by
  cases prefilled with
  | extended extended => exact extended.decoding.decode
  | advanced chunked => exact absurd whole chunked

/-- Who decodes after a turn decoded before it or was chosen in it. -/
theorem Acted.credits {t t' : Shared backend} {decisions : List (Engine S)} {noted : Engine S} (live : t.Live setup)
    (decided : Decided t d) (apart : d.prefillIds = [] ∨ d.decodeIds = []) (acted : Acted setup t d (.ok true) t')
    (before : t.engine.Credits decisions) (listed : ∀ r ∈ refs t d.prefillIds, r ∈ noted.chosen) :
    t'.engine.Credits (noted :: decisions) := by
  obtain ⟨progress, prefilled, decoded⟩ := acted
  intro r active
  by_cases inPrefill : r ∈ refs t d.prefillIds
  · cases prefilled r inPrefill active with
    | extended extended => exact Or.inr ⟨extended.decoding.decode, noted, List.mem_cons_self .., listed r inPrefill⟩
    | advanced _ prefilling =>
      obtain ⟨prompt, prefilling⟩ := prefilling
      exact Or.inl ⟨active, Or.inr prefilling.phase⟩
  by_cases inDecode : r ∈ refs t d.decodeIds
  · obtain ⟨id, member, found⟩ := List.mem_filterMap.mp inDecode
    have none : d.prefillIds = [] := by
      rcases apart with none | none
      · exact none
      · rw [none] at member
        cases member
    have decodes : (t'.engine.sequences r).state.phase = .decode := (decoded r inDecode none active).decoding.decode
    obtain ⟨r', found', phase⟩ := decided.decode.found id member
    cases found.symm.trans found'
    have phase : (t.engine.sequences r).state.phase = .decode := of_decide_eq_true phase
    have was : t.engine.active.get? (t.engine.requestId r) = some r := by
      rw [filed_of_live live id r found]
      exact found
    rcases before r was with waited | ⟨-, earlier, old, chosen⟩
    · rcases waited.2 with is | is
      · cases phase.symm.trans is
      · cases phase.symm.trans is
    · exact Or.inr ⟨decodes, earlier, List.mem_cons_of_mem _ old, chosen⟩
  · have outside : r ∉ refs t (d.prefillIds ++ d.decodeIds) := by
      rw [refs_append]
      intro inside
      exact (List.mem_append.mp inside).elim inPrefill inDecode
    rcases progress.joined r active with was | ⟨-, fresh⟩
    · have phase : (t'.engine.sequences r).state.phase = (t.engine.sequences r).state.phase :=
        congrArg RefView.phase (progress.kept r was outside).2
      rcases before r was with waited | ⟨decodes, earlier, member, chosen⟩
      · exact Or.inl ⟨active, phase ▸ waited.2⟩
      · exact Or.inr ⟨phase.trans decodes, earlier, List.mem_cons_of_mem _ member, chosen⟩
    · exact Or.inl ⟨active, Or.inl fresh.phase⟩

/-- The state after a turn comes after the decision that was taken in it. -/
theorem Acted.succeeds {e : Engine S} {t t' : Shared backend} (live : t.Live setup)
    (acted : Acted setup t d (.ok true) t') (onward : e.Onward t'.engine) (policy : t'.engine.policy = e.decision.2.policy)
    (same : e.created = t.engine.created) (config : e.config = t.engine.config)
    (listed : ∀ r ∈ e.chosen, r ∈ refs t d.prefillIds) : e.Succeeds t'.engine where
  onward := onward
  policy := policy
  below r member := by
    obtain ⟨id, -, found⟩ := List.mem_filterMap.mp (listed r member)
    exact same ▸ (live.sound.named id r found).2
  served whole r member waits := by
    have size : setup.config.prefillChunkSizeTokens = 0 := by
      rw [← live.sound.config, ← config]
      exact whole
    have phase : (t'.engine.sequences r).state.phase = .decode :=
      (acted.2.1 r (listed r member) waits.1).served size
    rcases waits.2 with is | is
    · cases phase.symm.trans is
    · cases phase.symm.trans is

/-- The decision of a turn has been acted upon when the turn ends. -/
theorem orderly_acted (orderly : h.Orderly) (live : h.shared.Live setup) (chosen : h.shared.engine.decision.1 = .ok d)
    (decided : Decided (h.note h.shared.engine.decision.2).shared d) (apart : d.prefillIds = [] ∨ d.decodeIds = [])
    (acted : Acted setup (h.note h.shared.engine.decision.2).shared d (.ok true) h'.shared)
    (onward : h.shared.engine.Onward h'.shared.engine)
    (decisions : h'.decisions = (h.note h.shared.engine.decision.2).decisions)
    (policy : h'.shared.engine.policy = h.shared.engine.decision.2.policy) : h'.Orderly := by
  have listed : h.shared.engine.chosen = refs (h.note h.shared.engine.decision.2).shared d.prefillIds := by
    unfold Engine.chosen
    rw [chosen]
    rfl
  have live₁ : (h.note h.shared.engine.decision.2).shared.Live setup := ⟨Step.decided.sound live.sound, live.running⟩
  unfold Chronicle.Orderly
  rw [decisions]
  rcases h.shared.engine.decision_policy with ⟨kept, other⟩ | ⟨turned, balanced⟩
  · have unnoted : (h.note h.shared.engine.decision.2).decisions = h.decisions := if_pos (by rw [kept])
    rw [unnoted]
    refine ⟨⟨fun e last => (orderly.1.succeeds e last).later onward (policy.trans kept), fun name => ?_⟩, orderly.2⟩
    rw [policy, kept] at name
    exact absurd name other
  · have noted : (h.note h.shared.engine.decision.2).decisions = h.shared.engine :: h.decisions := by
      refine if_neg ?_
      rw [turned]
      exact Bool.not_ne_self _
    rw [noted]
    refine ⟨⟨fun e last => ?_, fun _ => ?_⟩, orderly⟩
    · cases last
      exact Acted.succeeds live₁ acted onward policy rfl rfl fun r member => listed ▸ member
    · exact Acted.credits live₁ decided apart acted (orderly.1.credits balanced) fun r member => listed ▸ member

/-- One turn of the loop, from rest to rest. -/
theorem safe_schedulerIteration (rested : Rested setup h.shared) (orderly : h.Orderly) :
    TurnSafe setup schedulerIteration (TurnEnds setup) h := by
  rw [schedulerIteration_eq]
  refine Coro.safe_read.mpr (Coro.safe_ite (fun isOver => ?_) fun _ => ?_)
  · exact ⟨rested.live, isOver.1, inactive_of_size isOver.2⟩
  refine Coro.safe_bind.mpr ((turnSafe (safe_interruptions rested)).mono fun result h₁ held => ?_)
  obtain ⟨⟨progress, rest⟩, onward, decisions, policy⟩ := held
  cases result with
  | error error => exact ⟨progress.live, rest⟩
  | ok =>
    have keeps : h.shared.engine.Keeps h₁.shared.engine := by
      intro r active
      rcases rest.2 r active with fresh | ⟨before, same⟩
      · exact Or.inl ⟨active, Or.inl fresh.phase⟩
      · exact Or.inr ⟨before, congrArg RefView.phase same⟩
    have orderly₁ := orderly.later onward keeps decisions policy
    have rest := rest.1
    obtain ⟨d, chosen, decides⟩ := (filed_of_live rest.live).decision
    have decided : Decided (h₁.note h₁.shared.engine.decision.2).shared d :=
      ⟨⟨decides.prefill.nodup, decides.prefill.found, decides.prefill.bounded⟩,
        ⟨decides.decode.nodup, decides.decode.found, decides.decode.bounded⟩, decides.equal⟩
    refine Coro.safe_bind.mpr (Coro.safe_sync.mpr ⟨⟨.decided, rfl, rfl, fun _ => orderly₁.noted _⟩, ?_⟩)
    have rested₁ : Rested setup (h₁.note h₁.shared.engine.decision.2).shared := rest.decided
    have viewed : (Chronicle.window.view h₁).decision.1 = .ok d := chosen
    rw [viewed]
    refine (turnSafe (safe_act rested₁ decided)).mono fun result h₂ held => ?_
    obtain ⟨acted, after, noted, kept⟩ := held
    refine ⟨acted.1.live, ?_⟩
    cases result with
    | error => exact acted.2
    | ok goesOn =>
      cases goesOn with
      | false => exact acted.2
      | true =>
        have first : h₁.shared.engine.Onward h₁.shared.engine.decision.2 := .of_same rfl rfl fun _ => rfl
        exact ⟨acted.ends rested₁ decides.apart,
          orderly_acted orderly₁ rest.live chosen decided decides.apart acted (first.trans after) noted kept⟩

end TokenGenerationEngine

end ServingPlatform
