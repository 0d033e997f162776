import ServingPlatform.Gateway.Finalization
import ServingPlatform.Gateway.SlotMoves

namespace ServingPlatform

open Scheduling

variable {S : Type} {backend : InferenceBackend S}

namespace Gateway

variable {settings : GatewaySettings} {g g' g₁ g₂ : Gateway backend} {h h' : Handler} {i : Nat} {l l' : List String}

/-- Reservations are given back at most; handlers and what is stored stay. -/
structure Drains (g g' : Gateway backend) : Prop where
  handlers : g'.handlers = g.handlers
  stored : ∀ id, g.platformRequests.contains id = true → g'.platformRequests.contains id = true
  engine : ∀ c', g'.engine = some c' → ∃ c, g.engine = some c ∧ c.shared.engine.Drains c'.shared.engine ∧ (c.Draining → c'.Draining)

theorem Eases.drains (eases : g.Eases g') : g.Drains g' := by
  refine ⟨eases.handlers, eases.stored, fun c' runs => ?_⟩
  obtain ⟨c, runs, eased, scheduler, clients⟩ := eases.engine c' runs
  exact ⟨c, runs, eased.drains, fun before => before.same scheduler clients⟩

theorem Drains.after (eases : g.Eases g₁) (drains : g₁.Drains g₂) : g.Drains g₂ := by
  refine ⟨drains.handlers.trans eases.handlers, fun id known => drains.stored id (eases.stored id known), fun c₂ runs₂ => ?_⟩
  obtain ⟨c₁, runs₁, later, draining⟩ := drains.engine c₂ runs₂
  obtain ⟨c, runs, eased, scheduler, clients⟩ := eases.engine c₁ runs₁
  exact ⟨c, runs, eased.drains.trans later, fun before => draining (before.same scheduler clients)⟩

/-- A new handler, whose identifier is new too; what is reserved for it is
reserved under its identifier, and then it is the stream of that identifier. -/
structure Enters (g : Gateway backend) (h : Handler) (g' : Gateway backend) : Prop where
  handlers : g'.handlers = g.handlers ++ [h]
  fresh : g.platformRequests.contains h.requestId = false
  stored : ∀ id, g.platformRequests.contains id = true → g'.platformRequests.contains id = true
  known : g'.platformRequests.contains h.requestId = true
  engine : ∀ c', g'.engine = some c' → ∃ c, g.engine = some c ∧ (c.Draining → c'.Draining) ∧
    (c.shared.engine.Reserves → c'.shared.engine.Reserves ∧ ∀ id r, c'.shared.engine.active.get? id = some r →
      id = h.requestId ∧ h.place = .unstarted ∨
        c.shared.engine.active.get? id = some r ∧ ((c.shared.engine.sequences r).state.cancellation = true →
          (c'.shared.engine.sequences r).state.cancellation = true))

section Routes

variable {body : GenerateRequest} {sampling : SamplingParameters} {requestId tenantId : String} {tokens : Int}

theorem Eases.addItem (g : Gateway backend) (item : InferenceRequest) : g.Eases (g.addItem item) :=
  ⟨rfl, fun _ known => known, fun c runs => ⟨c, runs, .refl _, rfl, rfl⟩⟩

theorem enter_spec (g : Gateway backend) (record : RequestRecord) :
    (∃ raised, g.enter record = (.error raised, g) ∧ g.platformRequests.contains record.requestId = true) ∨
      ∃ g', g.enter record = (.ok (), g') ∧ g.platformRequests.contains record.requestId = false ∧
        g'.platformRequests.contains record.requestId = true ∧ g.Eases g' := by
  unfold Gateway.enter RequestStore.create
  by_cases known : g.platformRequests.contains record.requestId = true
  · rw [if_pos known]
    exact Or.inl ⟨_, rfl, known⟩
  · rw [if_neg known]
    exact Or.inr ⟨_, rfl, by simpa using known, RequestStore.contains_insert_self, .saved g⟩

theorem refuse_eases (g : Gateway backend) (raised : Raised) : (∃ answer, (g.refuse raised).1 = .error answer) ∧ g.Eases (g.refuse raised).2 := by
  unfold Gateway.refuse
  split
  · exact ⟨⟨_, rfl⟩, .withShared g _⟩
  · exact ⟨⟨_, rfl⟩, .withShared g _⟩

theorem cancelRequest_eases (g : Gateway backend) (requestId tenantId : String) : g.Eases (g.cancelRequest requestId tenantId).2 := by
  unfold Gateway.cancelRequest
  split
  · exact .refl g
  split
  · exact .refl g
  split
  · exact .refl g
  split
  · exact .refl g
  rename_i item _
  have cancels : g.Eases ((g.onEngine fun e => (e.cancel requestId).2).withShared
      (g.shared.cancel item "cancelled through request API")) :=
    (Eases.onEngine g fun e => cancel_eased e requestId).trans (.withShared _ _)
  exact cancels.trans (finishPlatformRequest_eases _ _ _ _)

/-- A call of `generate` is refused, or a handler waits for it. -/
theorem generate_cases (settings : GatewaySettings) (g : Gateway backend) (body : GenerateRequest) (requestId tenantId : String)
    (tokens : Int) : (∃ raised g', g.generate settings body requestId tenantId tokens = (.error raised, g') ∧ g.Eases g') ∨
      ∃ g' h, g.generate settings body requestId tenantId tokens = (.ok (), g') ∧ Enters g h g' ∧ h.place = .waiting := by
  have added : g.Eases ((g.withShared g.shared.monotonic.2).addItem (.new body tokens (body.deadlineSeconds.map (g.shared.monotonic.1 + ·)))) :=
    (Eases.withShared g _).trans (.addItem _ _)
  unfold Gateway.generate
  dsimp only
  cases asked : platformRequest settings body requestId tenantId tokens g.shared.monotonic.1 with
  | error raised => exact Or.inl ⟨raised, _, rfl, added⟩
  | ok record =>
    dsimp only
    rcases enter_spec ((g.withShared g.shared.monotonic.2).addItem (.new body tokens (body.deadlineSeconds.map (g.shared.monotonic.1 + ·))))
        record with ⟨raised, enters, -⟩ | ⟨g₁, enters, fresh, known, eases⟩
    · rw [enters]
      exact Or.inl ⟨raised, _, rfl, added⟩
    rw [enters]
    dsimp only
    rcases submits : g₁.shared.submit (g₁.created - 1) with ⟨raised | ⟨⟩, shared⟩
    · dsimp only
      have saved := added.trans (eases.trans ((Eases.withShared g₁ shared).trans
        ((g₁.withShared shared).finishPlatformRequest_eases record .rejected 0)))
      rcases finishes : (g₁.withShared shared).finishPlatformRequest record .rejected 0 with ⟨other | record', g₂⟩
      · rw [finishes] at saved
        exact Or.inl ⟨other, g₂, rfl, saved⟩
      · rw [finishes] at saved
        obtain ⟨⟨answer, refused⟩, last⟩ := g₂.refuse_eases raised
        exact Or.inl ⟨answer, _, Prod.ext refused rfl, saved.trans last⟩
    · refine Or.inr ⟨_, ⟨g₁.created - 1, record, .waiting⟩, rfl, ⟨?_, fresh, (added.trans eases).stored, known, fun c' runs => ?_⟩, rfl⟩
      · dsimp only
        rw [eases.handlers]
        rfl
      · obtain ⟨c, before, eased, scheduler, clients⟩ := (added.trans eases).engine c' runs
        refine ⟨c, before, fun draining => draining.same scheduler clients, fun reserves => ?_⟩
        refine ⟨eased.drains.reserves reserves, fun id r found => Or.inr ⟨?_, eased.cancellation r⟩⟩
        rw [← eased.active]
        exact found

/-- The record of a stream can be made, and its identifier is new. -/
structure Records (settings : GatewaySettings) (g : Gateway backend) (body : GenerateRequest) (requestId tenantId : String)
    (tokens : Int) : Prop where
  identified : requestId ≠ "" ∧ tenantId ≠ "" ∧ settings.modelName ≠ ""
  sound : isBlank body.prompt = false ∧ 0 ≤ tokens ∧ 0 < body.maxNewTokens ∧ 0 ≤ body.temperature
  fresh : g.platformRequests.contains requestId = false

theorem Records.platformRequest (records : Records settings g body requestId tenantId tokens) (now : Seconds) :
    ∃ record, ServingPlatform.platformRequest settings body requestId tenantId tokens now = .ok record := by
  have made : ∃ received, Submission.request ⟨tenantId, body.prompt, tokens, body.maxNewTokens, body.temperature, body.priority,
      .finite (body.deadlineSeconds.getD settings.scheduling.requestTimeout)⟩ requestId settings.modelName now = .ok received := by
    unfold Submission.request
    rw [dif_pos records.identified, dif_pos records.sound]
    exact ⟨_, rfl⟩
  obtain ⟨received, made⟩ := made
  exact platformRequest_made made

/-- What is reserved for a stream, if anything is. -/
theorem reserve_cases (settings : GatewaySettings) (g : Gateway backend) (body : GenerateRequest) (sampling : SamplingParameters)
    (requestId : String) (tokens : Int) (deadlineAt : Option Seconds) (now : Seconds) :
    (∃ raised g', g.reserve settings body sampling requestId tokens deadlineAt now = (.error raised, g') ∧ g.Drains g') ∨
      ∃ engine, g.reserve settings body sampling requestId tokens deadlineAt now = (.ok (), { g with engine }) ∧
        engine.isSome = g.engine.isSome ∧ ∀ c', engine = some c' → ∃ c, g.engine = some c ∧ c'.scheduler = c.scheduler ∧
          c'.clients = c.clients ∧ c.shared.engine.Admits requestId c'.shared.engine := by
  unfold Gateway.reserve
  cases runs : g.engine with
  | none =>
    refine Or.inr ⟨none, ?_, rfl, fun c' impossible => by cases impossible⟩
    dsimp only
    rw [← runs]
  | some c =>
    dsimp only
    rcases c.shared.engine.reserve_spec requestId body.prompt sampling
        ((deadlineAt.filter (· ≠ 0)).getD (now + settings.scheduling.requestTimeout)) tokens now with
      ⟨raised, e', run, drains⟩ | ⟨e', run, admits⟩
    · rw [run]
      refine Or.inl ⟨_, _, rfl, rfl, fun _ known => known, fun c' same => ?_⟩
      cases same
      exact ⟨c, runs, drains, fun before => before.same rfl rfl⟩
    · rw [run]
      refine Or.inr ⟨_, rfl, rfl, fun c' same => ?_⟩
      cases same
      exact ⟨c, rfl, rfl, rfl, admits⟩

theorem reserve_congr (same : g₁.engine = g.engine) (deadlineAt : Option Seconds) (now : Seconds) :
    (g₁.reserve settings body sampling requestId tokens deadlineAt now).1 =
      (g.reserve settings body sampling requestId tokens deadlineAt now).1 := by
  unfold Gateway.reserve
  rw [same]
  cases g.engine with
  | none => rfl
  | some c =>
    dsimp only
    rcases c.shared.engine.reserve requestId body.prompt sampling
      ((deadlineAt.filter (· ≠ 0)).getD (now + settings.scheduling.requestTimeout)) tokens now with ⟨raised | ⟨⟩, e'⟩
    · rfl
    · rfl

/-- A new record becomes that of a stream. -/
theorem streamRecord (engine : Bool) {record : RequestRecord} {now : Seconds} (at_ : Seconds)
    (made : platformRequest settings body requestId tenantId tokens now = .ok record) :
    ∃ started, { record with stream := true }.transition (if engine then .prefill else .running) at_ = .ok started ∧
      started.requestId = requestId := by
  obtain ⟨same, queued⟩ := platformRequest_spec made
  refine ⟨_, RequestRecord.transition_ok ?_, same⟩
  dsimp only
  rw [queued]
  cases engine <;> decide

/-- A stream whose record can be made is refused by the engine, or its response is begun. -/
theorem generateStream_cases (records : Records settings g body requestId tenantId tokens) (sampling : SamplingParameters) :
    (∃ raised, g.reserveStream settings body sampling requestId tokens = .error raised ∧
        g.Drains (g.generateStream settings body sampling requestId tenantId tokens).2) ∨
      g.reserveStream settings body sampling requestId tokens = .ok () ∧ ∃ h, h.place = .unstarted ∧
        Enters g h (g.generateStream settings body sampling requestId tenantId tokens).2 := by
  have asked (item : InferenceRequest) : g.reserveStream settings body sampling requestId tokens =
      (((g.withShared g.shared.monotonic.2).addItem item).reserve settings body sampling requestId tokens
        (body.deadlineSeconds.map (g.shared.monotonic.1 + ·)) g.shared.monotonic.1).1 := by
    have same : ((g.withShared g.shared.monotonic.2).addItem item).engine = g.engine := rfl
    exact (reserve_congr same _ _).symm
  unfold Gateway.generateStream
  dsimp only
  generalize { InferenceRequest.new body tokens (body.deadlineSeconds.map (g.shared.monotonic.1 + ·)) with
    queuedAt := g.shared.monotonic.1, startedAt := g.shared.monotonic.1, status := .running } = item
  have added : g.Eases ((g.withShared g.shared.monotonic.2).addItem item) := (Eases.withShared g _).trans (.addItem _ _)
  rcases reserve_cases settings ((g.withShared g.shared.monotonic.2).addItem item) body sampling requestId tokens
      (body.deadlineSeconds.map (g.shared.monotonic.1 + ·)) g.shared.monotonic.1 with
    ⟨raised, g₁, run, drains⟩ | ⟨engine, run, still, admits⟩
  · refine Or.inl ⟨raised, by rw [asked item, run], ?_⟩
    rw [run]
    exact .after added drains
  · refine Or.inr ⟨by rw [asked item, run], ?_⟩
    rw [run]
    dsimp only
    obtain ⟨record, made⟩ := records.platformRequest g.shared.monotonic.1
    rw [made]
    dsimp only
    obtain ⟨started, begins, same⟩ := streamRecord engine.isSome g.shared.monotonic.1 made
    rw [begins]
    dsimp only
    rcases enter_spec { (g.withShared g.shared.monotonic.2).addItem item with engine } started with
      ⟨raised, -, known⟩ | ⟨g₂, enters, -, known, eases⟩
    · rw [same] at known
      exact absurd (known.symm.trans records.fresh) (by simp)
    · rw [enters]
      refine ⟨⟨g₂.created - 1, started, .unstarted⟩, rfl, ?_, ?_, eases.stored, known, fun c₂ runs₂ => ?_⟩
      · dsimp only
        rw [eases.handlers]
        rfl
      · show g.platformRequests.contains started.requestId = false
        rw [same]
        exact records.fresh
      · obtain ⟨c₁, runs₁, eased, scheduler, clients⟩ := eases.engine c₂ runs₂
        obtain ⟨c, runs, scheduler', clients', admits⟩ := admits c₁ runs₁
        refine ⟨c, runs, fun before => (before.same scheduler' clients').same scheduler clients, fun reserves => ?_⟩
        refine ⟨eased.drains.reserves (admits.reserves reserves), fun id r found => ?_⟩
        rw [eased.active] at found
        rcases admits.active reserves id r found with own | ⟨there, sequence⟩
        · exact Or.inl ⟨own.trans same.symm, rfl⟩
        · refine Or.inr ⟨there, fun set => eased.cancellation r ?_⟩
          rw [sequence]
          exact set

end Routes

end Gateway

end ServingPlatform
