import ServingPlatform.Gateway.Finality

namespace ServingPlatform

open Scheduling

variable {S : Type} {backend : InferenceBackend S}

namespace Gateway

variable {settings : GatewaySettings} {g g' g₁ g₂ : Gateway backend} {h h' : Handler} {i : Nat} {requestId : String}

theorem generating_live (generates : h.place.generating = true) : h.live ∧ h.place ≠ .waiting := by
  constructor
  · intro result same
    rw [same] at generates
    cases generates
  · intro same
    rw [same] at generates
    cases generates

/-- Any item but that of a waiting handler is out of the scheduler's reach. -/
theorem Coherent.scheduled (coherent : g.Coherent) {action : SchedulerAction} (lifespan : g.scheduler.Lifespan action)
    (spared : Spares.spared settings g action) (acts : g.onScheduler settings action = some g') : g'.Coherent ∧ g.Kept g' := by
  obtain ⟨scheduler, step, rfl⟩ := Option.map_eq_some_iff.mp acts
  obtain ⟨enlisted, accepted⟩ := coherent.enlisted.step lifespan step
  refine ⟨⟨enlisted, ?_, coherent.made, coherent.distinct, coherent.stored, coherent.active, coherent.owned, coherent.activeMade,
    fun {j k} found => ?_⟩, .of_store rfl⟩
  · intro r member
    dsimp only at member ⊢
    rw [accepted] at member
    exact coherent.accepted r member
  · have own := coherent.own found
    have written : scheduler.shared.status k.item = g.status k.item ∨
        g.scheduler.Writes settings.scheduling action k.item (scheduler.shared.status k.item) :=
      SchedulerSystem.step_status step
    refine ⟨own.alive, fun live other member => ?_, fun generates => ?_, fun live record stored isOver => ?_⟩
    · dsimp only at member
      rw [accepted] at member
      exact own.streaming live other member
    · obtain ⟨live, streams⟩ := generating_live generates
      have same : scheduler.shared.status k.item = g.status k.item :=
        written.resolve_right fun writes => own.streaming live streams (coherent.enlisted.writes lifespan writes)
      exact (own.generating generates).imp same.trans same.trans
    · have same : scheduler.shared.status k.item = g.status k.item :=
        written.elim id fun writes => spared k (List.mem_of_getElem? found) live ⟨record, stored, isOver⟩ _ writes
      exact (congrArg RequestStatus.recordState same).trans (own.agrees live record stored isOver)

/-- A cancelled item is over, or becomes so. -/
theorem status_cancelled (shared : Scheduling) (r q : RequestRef) (reason : String) :
    (shared.cancel r reason).status q = shared.status q ∨ q = r ∧ (shared.cancel r reason).status q = .cancelled := by
  rw [status_cancel]
  split
  · rename_i cancels
    exact Or.inr ⟨cancels.1, rfl⟩
  · exact Or.inl rfl

/-- What a `DELETE` leaves when it gets through to an active request. -/
structure Deletes (g : Gateway backend) (requestId : String) (r : RequestRef) (g₁ : Gateway backend) : Prop where
  enlisted : g₁.scheduler.Enlisted
  accepted : g₁.scheduler.accepted = g.scheduler.accepted
  handlers : g₁.handlers = g.handlers
  created : g₁.created = g.created
  status : ∀ q, g₁.status q = g.status q ∨ q = r ∧ g₁.status q = .cancelled
  stored : ∀ other, g.platformRequests.contains other = true → g₁.platformRequests.contains other = true
  elsewhere : ∀ other, other ≠ requestId → g₁.platformRequests.get? other = g.platformRequests.get? other
  here : ∀ record, g₁.platformRequests.get? requestId = some record → record.terminal = true →
    (g₁.status r).recordState = some record.status
  active : ∀ other q, g₁.activeGatewayRequests.get? other = some q → g.activeGatewayRequests.get? other = some q

theorem Coherent.deleted (coherent : g.Coherent) {record : RequestRecord} {r : RequestRef}
    (stored : g.platformRequests.get? requestId = some record) (alive : record.terminal = false)
    (active : g.activeGatewayRequests.get? requestId = some r) (deletes : Deletes g requestId r g₁) :
    g₁.Coherent ∧ g.Kept g₁ := by
  have before : ∀ {j : Nat} {k : Handler}, g₁.handlers[j]? = some k → g.handlers[j]? = some k := by
    intro j k found
    rw [← deletes.handlers]
    exact found
  refine ⟨⟨deletes.enlisted, ?_, ?_, ?_, ?_, ?_, ?_, ?_, ?_⟩, ?_⟩
  · rw [deletes.accepted, deletes.created]
    exact coherent.accepted
  · intro j k found
    rw [deletes.created]
    exact coherent.made (before found)
  · exact fun found found' => coherent.distinct (before found) (before found')
  · exact fun found => deletes.stored _ (coherent.stored (before found))
  · exact fun found live => coherent.active (before found) (deletes.active _ _ live)
  · exact fun found live => coherent.owned (before found) (deletes.active _ _ live)
  · intro id q live
    rw [deletes.created]
    exact coherent.activeMade (deletes.active _ _ live)
  · intro j k found
    have own := coherent.own (before found)
    refine ⟨own.alive, fun live other => ?_, fun generates => ?_, fun live last there isOver => ?_⟩
    · rw [deletes.accepted]
      exact own.streaming live other
    · rcases deletes.status k.item with same | ⟨-, same⟩
      · rw [same]
        exact own.generating generates
      · exact Or.inr same
    · by_cases same : k.requestId = requestId
      · rw [same] at there
        have item : r = k.item := coherent.active (before found) (same ▸ active)
        rw [← item]
        exact deletes.here last there isOver
      · have untouched : g₁.status k.item = g.status k.item :=
          (deletes.status k.item).resolve_right fun cancels => same (coherent.owned (before found) active cancels.1)
        rw [deletes.elsewhere _ same] at there
        rw [untouched]
        exact own.agrees live last there isOver
  · intro id last there isOver
    have differ : id ≠ requestId := by
      rintro rfl
      cases stored.symm.trans there
      rw [alive] at isOver
      cases isOver
    exact ⟨last, (deletes.elsewhere id differ).trans there, rfl⟩

/-- The item was cancelled unless it was over, and now the stored record is finished. -/
theorem Deletes.finish {r : RequestRef} {record : RequestRecord} (quiet : Quiet r g g₁) (enlisted : g₁.scheduler.Enlisted)
    (status : ∀ q, g₁.status q = g.status q ∨ q = r ∧ g₁.status q = .cancelled)
    (stored : g.platformRequests.get? requestId = some record) (alive : record.terminal = false) (startedAt : Seconds) :
    Deletes g requestId r (g₁.finishPlatformRequest record (g₁.status r) startedAt).2 := by
  have keyed : record.requestId = requestId := g.platformRequests.keyed requestId record stored
  have still : (g₁.withShared g₁.shared.monotonic.2).scheduler.Enlisted := enlisted.calm .monotonic
  rcases g₁.finishPlatformRequest_cases (g₁.status r) startedAt alive with
    ⟨raised, run⟩ | ⟨record', same, unchanged, target, -, run⟩
  · rw [run]
    refine ⟨still, quiet.accepted, quiet.handlers, quiet.created, status, fun other known => ?_, fun other _ => ?_,
      fun last there isOver => ?_, fun other q live => ?_⟩
    · dsimp only [withShared]
      rw [quiet.store]
      exact known
    · dsimp only [withShared]
      rw [quiet.store]
    · dsimp only [withShared] at there
      rw [quiet.store] at there
      cases stored.symm.trans there
      rw [alive] at isOver
      cases isOver
    · rw [← quiet.active]
      exact live
  · rw [run]
    refine ⟨still, quiet.accepted, quiet.handlers, quiet.created, status, fun other known => ?_, fun other differ => ?_,
      fun last there isOver => ?_, fun other q live => ?_⟩
    · dsimp only
      rw [quiet.store]
      exact RequestStore.contains_insert known
    · dsimp only
      rw [RequestStore.get?_insert, quiet.store, if_neg]
      rw [same, keyed]
      exact differ
    · dsimp only at there
      have here : requestId = record'.requestId := (same.trans keyed).symm
      rw [here, RequestStore.get?_insert_self] at there
      cases there
      cases ends : (g₁.status r).recordState with
      | none =>
        rw [unchanged ends, alive] at isOver
        cases isOver
      | some state =>
        have kept : (g₁.status r).recordState = some record'.status := by rw [ends, target state ends]
        exact kept
    · rw [← quiet.active]
      exact get?_active_of_erased live

theorem Coherent.cancelRequest (coherent : g.Coherent) (requestId tenantId : String) :
    (g.cancelRequest requestId tenantId).2.Coherent ∧ g.Kept (g.cancelRequest requestId tenantId).2 := by
  unfold Gateway.cancelRequest
  split
  · exact ⟨coherent, .of_store rfl⟩
  rename_i record stored
  split
  · exact ⟨coherent, .of_store rfl⟩
  split
  · exact ⟨coherent, .of_store rfl⟩
  rename_i isOver
  have alive : record.terminal = false := by simpa using isOver
  split
  · exact ⟨coherent, .of_store rfl⟩
  rename_i r active
  have quiet : Quiet r g ((g.onEngine fun e => (e.cancel requestId).2).withShared
      (g.shared.cancel r "cancelled through request API")) := Quiet.onEngine.trans (.withShared .cancel)
  exact coherent.deleted stored alive active (.finish quiet (coherent.enlisted.calm .cancel)
    (fun q => status_cancelled g.shared r q _) stored alive _)

/-- A new item, whose record may be stored under an identifier that is new, and
may be left to a handler. -/
structure Grows (g : Gateway backend) (requestId : String) (g₁ : Gateway backend) : Prop where
  created : g₁.created = g.created + 1
  enlisted : g₁.scheduler.Enlisted
  accepted : ∀ r ∈ g₁.scheduler.accepted, r ∈ g.scheduler.accepted ∨ r = g.created
  others : ∀ q, q ≠ g.created → g₁.status q = g.status q
  elsewhere : ∀ other, g.platformRequests.contains other = true →
    g₁.platformRequests.get? other = g.platformRequests.get? other
  active : ∀ other r, g₁.activeGatewayRequests.get? other = some r → g.activeGatewayRequests.get? other = some r ∨
    other = requestId ∧ r = g.created ∧ g.platformRequests.contains requestId = false
  handlers : g₁.handlers = g.handlers ∨ ∃ h, g₁.handlers = g.handlers ++ [h] ∧ h.item = g.created ∧ h.requestId = requestId ∧
    g.platformRequests.contains requestId = false ∧ g₁.platformRequests.contains requestId = true ∧
    g₁.activeGatewayRequests.get? requestId = some g.created ∧ g₁.Own h

theorem Coherent.grown (coherent : g.Coherent) (grows : Grows g requestId g₁) : g₁.Coherent ∧ g.Kept g₁ := by
  have before : ∀ {j : Nat} {k : Handler}, g₁.handlers[j]? = some k → g.handlers[j]? = some k ∨
      j = g.handlers.length ∧ k.item = g.created ∧ k.requestId = requestId ∧ g.platformRequests.contains requestId = false ∧
        g₁.platformRequests.contains requestId = true ∧ g₁.activeGatewayRequests.get? requestId = some g.created ∧ g₁.Own k := by
    intro j k found
    rcases grows.handlers with same | ⟨h, more, item, id, fresh, known, active, own⟩
    · rw [same] at found
      exact Or.inl found
    · rw [more] at found
      rcases Nat.lt_or_ge j g.handlers.length with old | new
      · rw [List.getElem?_append_left old] at found
        exact Or.inl found
      · rw [List.getElem?_append_right new] at found
        have first : j - g.handlers.length = 0 := by
          by_contra later
          obtain ⟨n, count⟩ := Nat.exists_eq_succ_of_ne_zero later
          rw [count] at found
          cases found
        rw [first] at found
        cases found
        exact Or.inr ⟨by omega, item, id, fresh, known, active, own⟩
  have stored : ∀ {j : Nat} {k : Handler}, g.handlers[j]? = some k → g.platformRequests.contains requestId = false →
      k.requestId ≠ requestId := by
    intro j k found fresh same
    have known := coherent.stored found
    rw [same, fresh] at known
    cases known
  refine ⟨⟨grows.enlisted, ?_, ?_, ?_, ?_, ?_, ?_, ?_, ?_⟩, ?_⟩
  · intro r member
    rw [grows.created]
    rcases grows.accepted r member with old | rfl
    · exact Nat.lt_succ_of_lt (coherent.accepted r old)
    · exact Nat.lt_succ_self _
  · intro j k found
    rw [grows.created]
    rcases before found with old | ⟨-, item, -⟩
    · exact Nat.lt_succ_of_lt (coherent.made old)
    · rw [item]
      exact Nat.lt_succ_self _
  · intro j j' k k' found found' same
    rcases before found with old | ⟨at_, item, id, fresh, -⟩ <;> rcases before found' with old' | ⟨at', item', id', fresh', -⟩
    · exact coherent.distinct old old' same
    · rcases same with same | same
      · exact absurd (same.trans item') (Nat.ne_of_lt (coherent.made old))
      · exact absurd (same.trans id') (stored old fresh')
    · rcases same with same | same
      · exact absurd (same.symm.trans item) (Nat.ne_of_lt (coherent.made old'))
      · exact absurd (same.symm.trans id) (stored old' fresh)
    · exact at_.trans at'.symm
  · intro j k found
    rcases before found with old | ⟨-, -, id, -, known, -⟩
    · have known := coherent.stored old
      unfold RequestStore.contains Dict.contains
      have same := grows.elsewhere _ known
      unfold RequestStore.get? at same
      rw [same]
      exact known
    · rw [id]
      exact known
  · intro j k r found live
    rcases before found with old | ⟨-, item, id, -, -, active, -⟩
    · rcases grows.active _ _ live with there | ⟨same, -, fresh⟩
      · exact coherent.active old there
      · exact absurd same (stored old fresh)
    · rw [id, active] at live
      exact (Option.some.inj live).symm.trans item.symm
  · intro j k id r found live same
    rcases before found with old | ⟨-, item, mine, -⟩
    · rcases grows.active _ _ live with there | ⟨-, new, -⟩
      · exact coherent.owned old there same
      · exact absurd (same.trans new) (Nat.ne_of_lt (coherent.made old))
    · rcases grows.active _ _ live with there | ⟨theirs, -, -⟩
      · exact absurd (same.symm.trans item) (Nat.ne_of_lt (coherent.activeMade there))
      · exact mine.trans theirs.symm
  · intro id r live
    rw [grows.created]
    rcases grows.active _ _ live with there | ⟨-, new, -⟩
    · exact Nat.lt_succ_of_lt (coherent.activeMade there)
    · rw [new]
      exact Nat.lt_succ_self _
  · intro j k found
    rcases before found with old | ⟨-, -, -, -, -, -, own⟩
    · have other := Nat.ne_of_lt (coherent.made old)
      refine (coherent.own old).frame (grows.others _ other) (grows.elsewhere _ (coherent.stored old)) fun member => ?_
      exact (grows.accepted _ member).resolve_right other
    · exact own
  · intro id record found isOver
    exact ⟨record, (grows.elsewhere id (RequestStore.contains_iff.mpr ⟨record, found⟩)).trans found, rfl⟩

theorem bind_ok {α β : Type} {first : Except Raised α} {next : α → Except Raised β} {b : β}
    (run : (first >>= next) = .ok b) : ∃ a, first = .ok a ∧ next a = .ok b := by
  cases first with
  | error raised => cases run
  | ok a => exact ⟨a, rfl, run⟩

theorem transition_spec {r r' : RequestRecord} {target : RequestState} {now : Seconds}
    (run : r.transition target now = .ok r') : r'.requestId = r.requestId ∧ r'.status = target := by
  rcases r.transition_cases target now with ⟨-, moved⟩ | ⟨-, raised, moved, -⟩
  · rw [moved] at run
    cases run
    exact ⟨rfl, rfl⟩
  · rw [moved] at run
    cases run

/-- A new record waits, under the identifier of its item. -/
theorem platformRequest_spec {body : GenerateRequest} {tenantId : String} {tokens : Int} {now : Seconds} {record : RequestRecord}
    (run : platformRequest settings body requestId tenantId tokens now = .ok record) :
    record.requestId = requestId ∧ record.status = .queued := by
  obtain ⟨received, made, run⟩ := bind_ok run
  obtain ⟨validated, moved, run⟩ := bind_ok run
  obtain ⟨admitted, moved', run⟩ := bind_ok run
  have id : received.requestId = requestId := by
    unfold Submission.request at made
    split at made
    · split at made
      · cases made
        rfl
      · cases made
    · cases made
  obtain ⟨same, -⟩ := transition_spec moved
  obtain ⟨same', -⟩ := transition_spec moved'
  obtain ⟨same'', status⟩ := transition_spec run
  exact ⟨same''.trans (same'.trans (same.trans id)), status⟩

/-- A new item, and nothing else. -/
structure Made (g : Gateway backend) (status : RequestStatus) (g₁ : Gateway backend) : Prop where
  created : g₁.created = g.created + 1
  enlisted : g₁.scheduler.Enlisted
  accepted : g₁.scheduler.accepted = g.scheduler.accepted
  others : ∀ q, q ≠ g.created → g₁.status q = g.status q
  status : g₁.status g.created = status
  store : g₁.platformRequests = g.platformRequests
  active : g₁.activeGatewayRequests = g.activeGatewayRequests
  handlers : g₁.handlers = g.handlers

theorem Made.grows {status : RequestStatus} (made : Made g status g₁) (requestId : String) : Grows g requestId g₁ where
  created := made.created
  enlisted := made.enlisted
  accepted r member := by
    rw [made.accepted] at member
    exact Or.inl member
  others := made.others
  elsewhere other _ := by rw [made.store]
  active other r live := by
    rw [made.active] at live
    exact Or.inl live
  handlers := Or.inl made.handlers

theorem Coherent.unaccepted (coherent : g.Coherent) : g.created ∉ g.scheduler.accepted :=
  fun member => Nat.lt_irrefl _ (coherent.accepted _ member)

theorem Coherent.addItem (coherent : g.Coherent) (item : InferenceRequest) :
    Made g item.status ((g.withShared g.shared.monotonic.2).addItem item) where
  created := rfl
  enlisted := coherent.enlisted.touched (Touches.monotonic.trans .set) coherent.unaccepted
  accepted := rfl
  others q other := by
    have written : ((g.withShared g.shared.monotonic.2).addItem item).status q =
        (g.shared.monotonic.2.set g.created item).status q := rfl
    rw [written, status_set, if_neg other]
    rfl
  status := by
    have written : ((g.withShared g.shared.monotonic.2).addItem item).status g.created =
        (g.shared.monotonic.2.set g.created item).status g.created := rfl
    rw [written, status_set, if_pos rfl]
  store := rfl
  active := rfl
  handlers := rfl

/-- A new item is stored and active, under a new identifier. -/
structure Entered (g : Gateway backend) (record : RequestRecord) (g₁ : Gateway backend) : Prop where
  created : g₁.created = g.created + 1
  enlisted : g₁.scheduler.Enlisted
  accepted : g₁.scheduler.accepted = g.scheduler.accepted
  others : ∀ q, q ≠ g.created → g₁.status q = g.status q
  fresh : g.platformRequests.contains record.requestId = false
  store : g₁.platformRequests = g.platformRequests.insert record
  active : g₁.activeGatewayRequests = g.activeGatewayRequests.insert record.requestId g.created
  handlers : g₁.handlers = g.handlers

theorem Made.enter {status : RequestStatus} (made : Made g status g₁) (record : RequestRecord) :
    (∃ raised, g₁.enter record = (.error raised, g₁)) ∨
      ∃ g₂, g₁.enter record = (.ok (), g₂) ∧ Entered g record g₂ ∧ g₂.status g.created = status ∧
        g₂.scheduler = g₁.scheduler := by
  unfold Gateway.enter RequestStore.create
  rw [made.store]
  cases known : g.platformRequests.contains record.requestId with
  | true => exact Or.inl ⟨_, rfl⟩
  | false =>
    refine Or.inr ⟨_, rfl, ⟨made.created, made.enlisted, made.accepted, made.others, known, rfl, ?_, made.handlers⟩, made.status, rfl⟩
    dsimp only
    rw [made.active, made.created]
    rfl

namespace Entered

variable {record : RequestRecord}

theorem elsewhere (entered : Entered g record g₁) {other : String} (known : g.platformRequests.contains other = true) :
    g₁.platformRequests.get? other = g.platformRequests.get? other := by
  rw [entered.store, RequestStore.get?_insert, if_neg]
  rintro rfl
  rw [entered.fresh] at known
  cases known

theorem get?_active (entered : Entered g record g₁) {other : String} {r : RequestRef}
    (live : g₁.activeGatewayRequests.get? other = some r) : g.activeGatewayRequests.get? other = some r ∨
      other = record.requestId ∧ r = g.created ∧ g.platformRequests.contains record.requestId = false := by
  rw [entered.active, Dict.get?_insert] at live
  split at live
  · rename_i same
    exact Or.inr ⟨same, (Option.some.inj live).symm, entered.fresh⟩
  · exact Or.inl live

/-- The item is left to a handler. -/
theorem handled (entered : Entered g record g₁) {scheduler : SchedulerSystem} (enlisted : scheduler.Enlisted)
    (accepted : ∀ r ∈ scheduler.accepted, r ∈ g.scheduler.accepted ∨ r = g.created)
    (others : ∀ q, q ≠ g.created → scheduler.shared.status q = g.status q) (alive : record.terminal = false)
    {place : HandlerPlace} (streams : place ≠ .waiting → g.created ∉ scheduler.accepted)
    (generates : place.generating = true → scheduler.shared.status g.created = .running) :
    Grows g record.requestId { g₁ with scheduler, handlers := g₁.handlers ++ [⟨g.created, record, place⟩] } where
  created := entered.created
  enlisted := enlisted
  accepted := accepted
  others := others
  elsewhere other known := entered.elsewhere known
  active other r live := entered.get?_active live
  handlers := by
    refine Or.inr ⟨⟨g.created, record, place⟩, ?_, rfl, rfl, entered.fresh, ?_, ?_, ?_⟩
    · rw [entered.handlers]
    · dsimp only
      rw [entered.store]
      exact RequestStore.contains_insert_self
    · dsimp only
      rw [entered.active]
      exact Dict.get?_insert_self
    · refine ⟨fun _ => alive, fun _ other => streams other, fun here => Or.inl (generates here), fun _ last found isOver => ?_⟩
      have stored : (g.platformRequests.insert record).get? record.requestId = some last := by
        rw [← entered.store]
        exact found
      rw [RequestStore.get?_insert_self] at stored
      cases stored
      rw [alive] at isOver
      cases isOver

end Entered

section Routes

variable {body : GenerateRequest} {sampling : SamplingParameters} {tenantId : String} {tokens : Int}

theorem refuse_grows (raised : Raised) (grows : Grows g requestId g₁) : Grows g requestId (g₁.refuse raised).2 := by
  unfold Gateway.refuse
  have enlisted : ∀ f : Metrics → Metrics, (g₁.withShared (g₁.shared.measure f)).scheduler.Enlisted :=
    fun f => grows.enlisted.calm .measure
  split <;> exact ⟨grows.created, enlisted _, grows.accepted, grows.others, grows.elsewhere, grows.active, grows.handlers.imp id
    fun ⟨h, more, item, id, fresh, known, active, own⟩ => ⟨h, more, item, id, fresh, known, active,
      ⟨own.alive, own.streaming, own.generating, own.agrees⟩⟩⟩

/-- A request that the scheduler's queue refuses is saved as rejected. -/
theorem Entered.rejected {record : RequestRecord} (entered : Entered g record g₁) (alive : record.terminal = false)
    {raised : Raised} {shared : Scheduling} (submits : g₁.shared.submit g.created = (.error raised, shared)) :
    Grows g record.requestId ((g₁.withShared shared).finishPlatformRequest record .rejected 0).2 := by
  have refused : (g₁.withShared shared).scheduler.Enlisted := entered.enlisted.refuse submits
  have still : ((g₁.withShared shared).withShared (g₁.withShared shared).shared.monotonic.2).scheduler.Enlisted :=
    refused.calm .monotonic
  have others : ∀ q, q ≠ g.created → shared.status q = g.status q := by
    intro q other
    have written : shared.status q = (g₁.shared.submit g.created).2.status q := by rw [submits]
    rw [written, status_submit, if_neg other]
    exact entered.others q other
  have accepted : ∀ r ∈ g₁.scheduler.accepted, r ∈ g.scheduler.accepted ∨ r = g.created := by
    intro r member
    rw [entered.accepted] at member
    exact Or.inl member
  rcases (g₁.withShared shared).finishPlatformRequest_cases .rejected 0 alive with
    ⟨other, run⟩ | ⟨record', same, -, -, -, run⟩
  · rw [run]
    exact ⟨entered.created, still, accepted, others, fun _ known => entered.elsewhere known, fun _ _ live => entered.get?_active live,
      Or.inl entered.handlers⟩
  · rw [run]
    refine ⟨entered.created, still, accepted, others, fun id known => ?_, fun id r live => ?_, Or.inl entered.handlers⟩
    · dsimp only [withShared]
      rw [RequestStore.get?_insert, if_neg]
      · exact entered.elsewhere known
      · rw [same]
        rintro rfl
        rw [entered.fresh] at known
        cases known
    · exact entered.get?_active (get?_active_of_erased live)

theorem Coherent.generate (coherent : g.Coherent) :
    (g.generate settings body requestId tenantId tokens).2.Coherent ∧
      g.Kept (g.generate settings body requestId tenantId tokens).2 := by
  have made := coherent.addItem (.new body tokens (body.deadlineSeconds.map (g.shared.monotonic.1 + ·)))
  unfold Gateway.generate
  dsimp only
  cases asked : platformRequest settings body requestId tenantId tokens g.shared.monotonic.1 with
  | error raised => exact coherent.grown (made.grows requestId)
  | ok record =>
    obtain ⟨rfl, status⟩ := platformRequest_spec asked
    have alive : record.terminal = false := by
      unfold RequestRecord.terminal
      rw [status]
      rfl
    dsimp only
    rcases made.enter record with ⟨raised, run⟩ | ⟨g₂, run, entered, -, -⟩
    · rw [run]
      exact coherent.grown (made.grows record.requestId)
    rw [run]
    dsimp only
    have item : g₂.created - 1 = g.created := by rw [entered.created, Nat.add_sub_cancel]
    rw [item]
    split
    · rename_i shared submits
      have written : ∀ q, shared.status q = (g₂.shared.submit g.created).2.status q := fun q => by rw [submits]
      refine coherent.grown (entered.handled (entered.enlisted.accept submits) (fun r member => ?_) (fun q other => ?_) alive
        (fun impossible => absurd rfl impossible) fun impossible => by cases impossible)
      · rcases List.mem_cons.mp member with new | old
        · exact Or.inr new
        · rw [entered.accepted] at old
          exact Or.inl old
      · rw [written, status_submit, if_neg other]
        exact entered.others q other
    · rename_i raised shared submits
      have rejected := entered.rejected alive submits
      split
      · rename_i other g₃ finishes
        rw [finishes] at rejected
        exact coherent.grown rejected
      · rename_i record' g₃ finishes
        rw [finishes] at rejected
        exact coherent.grown (refuse_grows raised rejected)

theorem reserve_made (settings : GatewaySettings) (body : GenerateRequest) (sampling : SamplingParameters) (requestId : String)
    (tokens : Int) {status : RequestStatus} (made : Made g status g₁) (deadlineAt : Option Seconds) (now : Seconds) :
    Made g status (g₁.reserve settings body sampling requestId tokens deadlineAt now).2 := by
  unfold Gateway.reserve
  split
  · exact made
  · dsimp only
    split <;> exact ⟨made.created, made.enlisted, made.accepted, made.others, made.status, made.store, made.active, made.handlers⟩

theorem Coherent.generateStream (coherent : g.Coherent) :
    (g.generateStream settings body sampling requestId tenantId tokens).2.Coherent ∧
      g.Kept (g.generateStream settings body sampling requestId tenantId tokens).2 := by
  have added := coherent.addItem { InferenceRequest.new body tokens (body.deadlineSeconds.map (g.shared.monotonic.1 + ·)) with
    queuedAt := g.shared.monotonic.1, startedAt := g.shared.monotonic.1, status := .running }
  have made := reserve_made settings body sampling requestId tokens added
    (body.deadlineSeconds.map (g.shared.monotonic.1 + ·)) g.shared.monotonic.1
  unfold Gateway.generateStream
  dsimp only at made ⊢
  split
  · rename_i raised g₁ reserved
    rw [reserved] at made
    exact coherent.grown (made.grows requestId)
  rename_i g₁ reserved
  rw [reserved] at made
  cases asked : platformRequest settings body requestId tenantId tokens g.shared.monotonic.1 with
  | error raised => exact coherent.grown (made.grows requestId)
  | ok record =>
    obtain ⟨rfl, -⟩ := platformRequest_spec asked
    dsimp only
    split
    · exact coherent.grown (made.grows record.requestId)
    rename_i started moved
    obtain ⟨same, status⟩ := transition_spec moved
    have alive : started.terminal = false := by
      unfold RequestRecord.terminal
      rw [status]
      split <;> rfl
    rcases made.enter started with ⟨raised, run⟩ | ⟨g₂, run, entered, running, -⟩
    · rw [run]
      exact coherent.grown (made.grows record.requestId)
    rw [run]
    dsimp only
    have item : g₂.created - 1 = g.created := by rw [entered.created, Nat.add_sub_cancel]
    rw [item]
    refine coherent.grown (entered.handled entered.enlisted (fun r member => ?_) entered.others alive (fun _ member => ?_)
      fun _ => running)
    · rw [entered.accepted] at member
      exact Or.inl member
    · rw [entered.accepted] at member
      exact coherent.unaccepted member

end Routes

/-- A step whose writes spare what is stored as over keeps it. -/
theorem Coherent.act (coherent : g.Coherent) {action : GatewayAction} (spares : Spares settings g action)
    (acts : g.act settings action = some g') : g'.Coherent ∧ g.Kept g' := by
  have handled : ∀ {j : Nat} {go : Handler → Option (Handler × Gateway backend)},
      (∀ h h' g₁, g.handlers[j]? = some h → go h = some (h', g₁) → Moves g h h' g₁) → g.handle j go = some g' →
        g'.Coherent ∧ g.Kept g' := by
    intro j go moves run
    obtain ⟨h, found, run⟩ := Option.bind_eq_some_iff.mp run
    obtain ⟨⟨h', g₁⟩, goes, run⟩ := Option.bind_eq_some_iff.mp run
    cases run
    exact coherent.handled found (moves h h' g₁ found goes)
  cases action with
  | close =>
    have lifespan : g.scheduler.Lifespan .close := trivial
    exact coherent.scheduled lifespan spares acts
  | schedule resumption =>
    have lifespan : g.scheduler.Lifespan (.resume 0 resumption) := trivial
    exact coherent.scheduled lifespan spares acts
  | interruptScheduler =>
    simp only [Gateway.act] at acts
    split at acts
    · cases acts
    · rename_i closed
      have lifespan : g.scheduler.Lifespan (.interrupt 0) := (Bool.not_eq_true _).mp closed
      exact coherent.scheduled lifespan spares acts
  | generate body requestId tenantId tokens =>
    simp only [Gateway.act] at acts
    split at acts <;> cases acts
    exact coherent.generate
  | generateStream body sampling requestId tenantId tokens =>
    simp only [Gateway.act] at acts
    split at acts <;> cases acts
    exact coherent.generateStream
  | resume handler resumption =>
    simp only [Gateway.act] at acts
    split at acts
    · exact handled (fun h h' g₁ found run => resume_moves coherent found (spares h found) run) acts
    · cases acts
  | interrupt handler =>
    simp only [Gateway.act] at acts
    split at acts
    · exact handled (fun h h' g₁ found run => interrupt_moves coherent found run) acts
    · cases acts
  | abandon handler raised =>
    simp only [Gateway.act] at acts
    split at acts
    · rename_i may
      exact handled (fun h h' g₁ found run => abandon_moves coherent found may.2 run) acts
    · cases acts
  | cancelRequest requestId tenantId =>
    simp only [Gateway.act] at acts
    split at acts <;> cases acts
    exact coherent.cancelRequest requestId tenantId

theorem Coherent.step (coherent : g.Coherent) {action : Option GatewayAction}
    (spares : ∀ a, action = some a → Spares settings g a) (step : Step settings g action g') : g'.Coherent ∧ g.Kept g' := by
  cases step with
  | act acts => exact coherent.act (spares _ rfl) acts
  | engine runs step =>
    exact ⟨⟨coherent.enlisted, coherent.accepted, coherent.made, coherent.distinct, coherent.stored, coherent.active,
      coherent.owned, coherent.activeMade, fun found => (coherent.own found).frame rfl rfl id⟩, .of_store rfl⟩

theorem Coherent.start (fresh : g.Fresh) : g.Coherent := by
  obtain ⟨maximum, requests, clock, scheduler⟩ := fresh.scheduler
  have nobody : ∀ {i : Nat} {h : Handler}, g.handlers[i]? = some h → False := by
    intro i h found
    rw [fresh.handlers] at found
    cases found
  have inactive : ∀ {id : String} {r : RequestRef}, g.activeGatewayRequests.get? id = some r → False := by
    intro id r live
    rw [fresh.activeGatewayRequests] at live
    cases live
  refine ⟨?_, fun r member => ?_, fun found => (nobody found).elim, fun found => (nobody found).elim,
    fun found => (nobody found).elim, fun found => (nobody found).elim, fun found => (nobody found).elim,
    fun live => (inactive live).elim, fun found => (nobody found).elim⟩
  · rw [scheduler]
    exact .init maximum requests clock
  · rw [scheduler] at member
    cases member

theorem Coherent.of_reach (reached : Reach settings Fresh (Spares settings) g) : g.Coherent := by
  induction reached with
  | start fresh => exact .start fresh
  | next before spares step ih => exact (ih.step spares step).1

theorem Coherent.continued (coherent : g.Coherent) (later : Reach settings (· = g) (Spares settings) g') :
    g'.Coherent ∧ g.Kept g' := by
  induction later with
  | start same =>
    subst same
    exact ⟨coherent, .of_store rfl⟩
  | next before spares step ih =>
    obtain ⟨after, kept⟩ := ih.1.step spares step
    exact ⟨after, ih.2.trans kept⟩

/-- In runs where nothing writes another status to an item whose stored record
is over until its handler has returned, what is stored as over stays as it is. -/
theorem stored_terminal_final (reached : Reach settings Fresh (Spares settings) g)
    (later : Reach settings (· = g) (Spares settings) g') {record : RequestRecord}
    (stored : g.platformRequests.get? requestId = some record) (isOver : record.terminal = true) :
    ∃ record', g'.platformRequests.get? requestId = some record' ∧ record'.status = record.status :=
  ((Coherent.of_reach reached).continued later).2 requestId record stored isOver

/-- The state after an action, the same one if the action cannot happen. -/
def after (settings : GatewaySettings) (g : Gateway backend) (action : GatewayAction) : Gateway backend :=
  (g.act settings action).getD g

/-- All actions of a list can happen, and are allowed. -/
def Permits (settings : GatewaySettings) (Allowed : Gateway backend → GatewayAction → Prop) :
    Gateway backend → List GatewayAction → Prop
  | _, [] => True
  | g, action :: rest => Allowed g action ∧ (g.act settings action).isSome = true ∧
      Permits settings Allowed (g.after settings action) rest

theorem Reach.run {Start : Gateway backend → Prop} {Allowed : Gateway backend → GatewayAction → Prop} {actions : List GatewayAction}
    (reached : Reach settings Start Allowed g) (permits : g.Permits settings Allowed actions) :
    Reach settings Start Allowed (actions.foldl (after settings) g) := by
  induction actions generalizing g with
  | nil => exact reached
  | cons action rest ih =>
    obtain ⟨allowed, possible, permits⟩ := permits
    obtain ⟨g', acts⟩ := Option.isSome_iff_exists.mp possible
    have same : g.after settings action = g' := by rw [after, acts, Option.getD_some]
    rw [same] at permits
    rw [List.foldl_cons, same]
    refine ih (reached.next (fun a here => ?_) (.act acts)) permits
    cases here
    exact allowed

namespace Sample

/-- A backend that is never called. -/
def silent : InferenceBackend Unit where
  State := Unit
  start := ()
  held _ _ := False
  perform _ _ _ _ := False
  startEmpty _ held := held
  created impossible := impossible.elim
  released impossible := impossible.elim

def defaults : GatewaySettings := ⟨⟨"dynamic_batch", 8, 10, 100, 1000⟩, "model"⟩

/-- A gateway without a token engine. -/
def new : Gateway silent :=
  ⟨⟨.init 8 (fun _ => SchedulerSystem.Sample.request) (fun n => n + 1), [.gettingFirst], []⟩, none, .empty, .empty, [], 0⟩

theorem new_fresh : new.Fresh := ⟨⟨8, _, _, rfl⟩, rfl, rfl, rfl⟩

def body : GenerateRequest := ⟨"hello", 2, 0, 0, none⟩

def sampling : SamplingParameters := .unstopped 2 Nat.two_pos

/-- A stream of the worker begins, gives a chunk, and is deleted. -/
def deleted : List GatewayAction :=
  [.generateStream body sampling "request" "tenant" 1, .resume 0 .proceed, .resume 0 (.chunk 1), .cancelRequest "request" "tenant"]

/-- The deleted stream goes on to its end. -/
def exhausted : List GatewayAction := [.resume 0 .proceed, .resume 0 .exhausted, .resume 0 .proceed, .resume 0 .proceed]

/-- The client of the deleted stream goes away. -/
def disconnected : List GatewayAction := [.resume 0 .proceed, .interrupt 0, .resume 0 .proceed]

theorem spares_of_quiet {resumption : HandlerResumption}
    (quiet : g.handlers[i]?.all (fun h => (statusWritten settings g h h.place resumption).isNone) = true) :
    Spares settings g (.resume i resumption) := by
  intro h found isOver status written
  rw [found, Option.all_some, written] at quiet
  cases quiet

end Sample

open Sample in
theorem stored_terminal_final_disconnected :
    ∃ record, (disconnected.foldl (after defaults) (deleted.foldl (after defaults) new)).platformRequests.get? "request" =
      some record ∧ record.status = .cancelled := by
  have reached : Reach defaults Fresh (Spares defaults) (deleted.foldl (after defaults) new) := by
    refine .run (.start new_fresh) ⟨trivial, by rfl, spares_of_quiet (by rfl), by rfl, spares_of_quiet (by rfl), by rfl, trivial,
      by rfl, trivial⟩
  have later : Reach defaults (· = deleted.foldl (after defaults) new) (Spares defaults)
      (disconnected.foldl (after defaults) (deleted.foldl (after defaults) new)) := by
    refine .run (.start rfl) ⟨spares_of_quiet (by rfl), by rfl, trivial, by rfl, spares_of_quiet (by rfl), by rfl, trivial⟩
  obtain ⟨record, stored, cancelled⟩ : ∃ record, (deleted.foldl (after defaults) new).platformRequests.get? "request" =
      some record ∧ record.status = .cancelled := ⟨_, by rfl, by rfl⟩
  have isOver : record.terminal = true := by
    unfold RequestRecord.terminal
    rw [cancelled]
    rfl
  obtain ⟨record', found, same⟩ := stored_terminal_final reached later stored isOver
  exact ⟨record', found, same.trans cancelled⟩

open Sample in
/-- A stream that was deleted, and whose `DELETE` answered that it is cancelled, is stored as completed in the end. -/
theorem deleted_stream_completes : ∃ g g' : Gateway silent, ∃ record record',
    Reach defaults Fresh (fun _ _ => True) g ∧ Reach defaults (· = g) (fun _ _ => True) g' ∧
      g.platformRequests.get? "request" = some record ∧ record.status = .cancelled ∧
      g'.platformRequests.get? "request" = some record' ∧ record'.status = .completed := by
  refine ⟨deleted.foldl (after defaults) new, exhausted.foldl (after defaults) (deleted.foldl (after defaults) new), _, _,
    .run (.start new_fresh) ?_, .run (.start rfl) ?_, by rfl, by rfl, by rfl, by rfl⟩
  · exact ⟨trivial, by rfl, trivial, by rfl, trivial, by rfl, trivial, by rfl, trivial⟩
  · exact ⟨trivial, by rfl, trivial, by rfl, trivial, by rfl, trivial, by rfl, trivial⟩

end Gateway

end ServingPlatform
