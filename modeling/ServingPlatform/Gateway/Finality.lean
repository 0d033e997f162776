import ServingPlatform.Gateway.Invariants

namespace ServingPlatform

open Scheduling

variable {S : Type} {backend : InferenceBackend S}

namespace Gateway

/-- The status that the next step of a response body writes to its item, however the item stands. -/
def statusWritten (settings : GatewaySettings) (g : Gateway backend) (h : Handler) :
    HandlerPlace → HandlerResumption → Option RequestStatus
  | .unstarted, .proceed =>
    match g.engine with
    | none => none
    | some c =>
      match (c.shared.engine.openStream h.requestId).1 with
      | .error _ => some .failed
      | .ok _ => none
  | .receiving sequence, .proceed =>
    match g.nextEvent sequence with
    | some (.complete completion, _) => some completion.finishReason.itemStatus
    | some (.failure raised, _) => if raised.kind.isException then some .failed else none
    | _ => none
  | .reading, .exhausted =>
    let shared := g.shared.monotonic.2.set h.item { g.shared.requests h.item with completedAt := g.shared.monotonic.1 }
    some (if (shared.timedOut h.item settings.scheduling.requestTimeout).1 then .timeout else .completed)
  | .reading, .raises raised => if raised.kind.isException then some .failed else none
  | _, _ => none

/-- As long as a handler has not returned, what is written to its item is what
it already was, once its stored record is over. -/
def Spares (settings : GatewaySettings) (g : Gateway backend) : GatewayAction → Prop
  | .close => spared .close
  | .schedule resumption => spared (.resume 0 resumption)
  | .interruptScheduler => spared (.interrupt 0)
  | .resume i resumption => ∀ h, g.handlers[i]? = some h → g.Over h → ∀ status,
      statusWritten settings g h h.place resumption = some status → status = g.status h.item
  | _ => True
where
  spared (action : SchedulerAction) : Prop := ∀ h ∈ g.handlers, h.live → g.Over h → ∀ status,
    g.scheduler.Writes settings.scheduling action h.item status → status = g.status h.item

variable {settings : GatewaySettings} {g g' g₁ g₂ : Gateway backend} {h h' : Handler} {i : Nat} {requestId : String}

section Operations

/-- What `_finish_platform_request` does to a record that is not over. -/
theorem finishPlatformRequest_cases (g : Gateway backend) {record : RequestRecord} (status : RequestStatus) (startedAt : Seconds)
    (alive : record.terminal = false) :
    (∃ raised, g.finishPlatformRequest record status startedAt = (.error raised, g.withShared g.shared.monotonic.2)) ∨
    ∃ record', record'.requestId = record.requestId ∧ (status.recordState = none → record' = record) ∧
      (∀ target, status.recordState = some target → record'.status = target) ∧
      g.platformRequests.contains record.requestId = true ∧
      g.finishPlatformRequest record status startedAt = (.ok record', { g.withShared g.shared.monotonic.2 with
        platformRequests := g.platformRequests.insert record'
        activeGatewayRequests :=
          if record'.terminal then g.activeGatewayRequests.erase record'.requestId else g.activeGatewayRequests }) := by
  unfold finishPlatformRequest
  cases run : record.finished status startedAt g.shared.monotonic.1 with
  | error raised => exact Or.inl ⟨raised, by dsimp only; rw [run]⟩
  | ok record' =>
    obtain ⟨requestId, unchanged, target⟩ := RequestRecord.finished_spec alive run
    dsimp only
    rw [run]
    dsimp only [withShared]
    unfold RequestStore.save
    cases known : g.platformRequests.contains record'.requestId with
    | false => exact Or.inl ⟨_, rfl⟩
    | true => exact Or.inr ⟨record', requestId, unchanged, target, requestId ▸ known, rfl⟩

/-- An erased entry of the active requests is gone, and no other appears. -/
theorem get?_active_of_erased {active : Dict String RequestRef} {record : RequestRecord} {id : String} {r : RequestRef}
    (found : (if record.terminal then active.erase record.requestId else active).get? id = some r) : active.get? id = some r := by
  split at found
  · rw [Dict.get?_erase] at found
    split at found
    · cases found
    · exact found
  · exact found

/-- The last save of a handler, whose stored record agrees with its item if it is over. -/
theorem conclude_moves (enlisted : g.scheduler.Enlisted) (alive : h.record.terminal = false)
    (agrees : ∀ record, g.platformRequests.get? h.requestId = some record → record.terminal = true →
      (g.status h.item).recordState = some record.status) (startedAt : Seconds) (result : Except Raised Unit) :
    Moves g h (g.conclude h startedAt result).1 (g.conclude h startedAt result).2 := by
  have still : (g.withShared g.shared.monotonic.2).scheduler.Enlisted := enlisted.calm .monotonic
  unfold conclude
  rcases g.finishPlatformRequest_cases (g.status h.item) startedAt alive with
    ⟨raised, run⟩ | ⟨record', requestId, unchanged, target, known, run⟩
  · rw [run]
    exact ⟨rfl, rfl, rfl, rfl, rfl, still, fun q _ => rfl, fun _ known => known, fun _ _ => rfl, fun _ _ found => found, .ended,
      fun record found _ => ⟨record, found, rfl⟩⟩
  · rw [run]
    refine ⟨rfl, rfl, rfl, rfl, rfl, still, fun q _ => rfl, fun id there => ?_, fun id differ => ?_,
      fun id r found => get?_active_of_erased found, .ended, fun record found isOver => ⟨record', ?_, ?_⟩⟩
    · exact RequestStore.contains_insert there
    · dsimp only
      rw [RequestStore.get?_insert, if_neg]
      rw [requestId]
      exact differ
    · have here : h.requestId = record'.requestId := requestId.symm
      dsimp only
      rw [here]
      exact RequestStore.get?_insert_self
    · exact target _ (agrees record found isOver)

/-- An item that is cancelled unless it is over. -/
theorem Own.cancelled (own : g.Own h) (reason : String) : (g.withShared (g.shared.cancel h.item reason)).Own h where
  alive := own.alive
  streaming := own.streaming
  generating place := by
    rw [status_withShared, status_cancel]
    split
    · exact Or.inr rfl
    · exact own.generating place
  agrees live record found isOver := by
    have agreed := own.agrees live record found isOver
    have settled : (g.shared.requests h.item).terminal = true := (RequestStatus.isTerminal_of_recordState agreed).1
    rw [status_withShared, status_cancel, if_neg (by simp [settled])]
    exact agreed

theorem leave_moves (enlisted : g.scheduler.Enlisted) (own : g.Own h) (live : h.live) (streams : h.place ≠ .waiting)
    (result : Except Raised Unit) : Moves g h (g.leave h result).1 (g.leave h result).2 := by
  have touches : Touches h.item g.shared (g.leave h result).2.shared := (Touches.set.trans .record).trans .measure
  have quiet : Quiet h.item g (g.leave h result).2 := .withShared touches
  have same : (g.leave h result).2.status h.item = g.status h.item := by
    unfold leave
    dsimp only
    rw [status_withShared, status_measure, status_record, status_set, if_pos rfl]
    rfl
  exact .of_quiet quiet (quiet.enlisted enlisted (own.streaming live streams)) own live streams
    (fun impossible => by cases impossible) fun _ => same

/-- A response body that is left by an exception. -/
theorem except_moves (enlisted : g.scheduler.Enlisted) (own : g.Own h) (live : h.live) (streams : h.place ≠ .waiting)
    (raised : Raised) (spares : g.Over h → raised.kind.isException = true → .failed = g.status h.item) :
    Moves g h (g.except h raised).1 (g.except h raised).2 := by
  unfold except
  split
  · dsimp only
    have onEngine : (g.onEngine fun e => (e.cancel h.requestId).2).Own h := own.frame rfl rfl id
    have cancels : Quiet h.item g ((g.onEngine fun e => (e.cancel h.requestId).2).withShared
        (g.shared.cancel h.item "streaming client disconnected")) := Quiet.onEngine.trans (.withShared .cancel)
    exact .after cancels (leave_moves (cancels.enlisted enlisted (own.streaming live streams)) (onEngine.cancelled _) live streams _)
  · split
    · rename_i caught
      have quiet : Quiet h.item g (g.withShared (g.shared.finish h.item .failed "streaming model generation failed")) :=
        .withShared .finish
      refine .of_quiet quiet (quiet.enlisted enlisted (own.streaming live streams)) own live streams
        (fun impossible => by cases impossible) fun isOver => ?_
      rw [status_withShared, status_finish, if_pos rfl]
      exact spares isOver caught
    · exact leave_moves enlisted own live streams _

/-- Between two waits of a response body that change no status. -/
theorem Moves.goes (enlisted : g.scheduler.Enlisted) (own : g.Own h) (live : h.live) (streams : h.place ≠ .waiting)
    {place : HandlerPlace} (quiet : Quiet h.item g g₁) (same : g₁.status h.item = g.status h.item)
    (generates : place.generating = true → h.place.generating = true) : Moves g h { h with place } g₁ :=
  .of_quiet quiet (quiet.enlisted enlisted (own.streaming live streams)) own live streams
    (fun here => ⟨generates here, same⟩) fun _ => same

theorem beginStream_moves (enlisted : g.scheduler.Enlisted) (own : g.Own h) (here : h.place = .unstarted)
    (spares : g.Over h → ∀ status, statusWritten settings g h .unstarted .proceed = some status → status = g.status h.item) :
    Moves g h (g.beginStream h).1 (g.beginStream h).2 := by
  have live : h.live := not_ended here fun result same => by cases same
  have streams : h.place ≠ .waiting := by simp [here]
  have generates : h.place.generating = true := by simp [here, HandlerPlace.generating]
  have quiet : Quiet h.item g (g.withShared ((g.shared.measure (·.recordModelInvocation)).measure (·.modelExecutionStarted))) :=
    .withShared (Touches.measure.trans .measure)
  unfold beginStream
  dsimp only
  cases engine : g.engine with
  | none =>
    have none : (g.withShared ((g.shared.measure (·.recordModelInvocation)).measure (·.modelExecutionStarted))).engine = none :=
      engine
    rw [none]
    exact .goes enlisted own live streams quiet rfl fun _ => generates
  | some c =>
    have runs : (g.withShared ((g.shared.measure (·.recordModelInvocation)).measure (·.modelExecutionStarted))).engine = some c :=
      engine
    rw [runs]
    dsimp only
    split
    · rename_i raised after opens
      refine .after quiet (except_moves (quiet.enlisted enlisted (own.streaming live streams)) (own.frame rfl rfl id) live streams
        raised fun isOver _ => spares isOver .failed ?_)
      simp only [statusWritten, engine, opens]
    · exact .goes enlisted own live streams (quiet.trans .withEngine) rfl fun _ => generates

/-- A stored record that is over shows in the item, which then neither runs nor is new. -/
theorem Own.not_over_of_running (own : g.Own h) (live : h.live) (running : g.status h.item = .running) : ¬g.Over h := by
  rintro ⟨record, found, isOver⟩
  have agreed := own.agrees live record found isOver
  rw [running] at agreed
  cases agreed

/-- The first token of a stream that runs: its record is saved as decoding. -/
theorem firstToken_moves (enlisted : g.scheduler.Enlisted) (own : g.Own h) {sequence : Ref} (here : h.place = .receiving sequence)
    (running : g.status h.item = .running) {now : Seconds} {shared : Scheduling} (touches : Touches h.item g.shared shared)
    (same : shared.status h.item = g.status h.item) :
    Moves g h { h with record := h.record.enter .decode now, place := .yielding sequence false }
      ({ g with platformRequests := g.platformRequests.insert (h.record.enter .decode now) }.withShared shared) := by
  have live : h.live := not_ended here fun result same => by cases same
  have item := own.streaming live (by simp [here])
  have stored : (g.platformRequests.insert (h.record.enter .decode now)).get? h.requestId =
      some (h.record.enter .decode now) := RequestStore.get?_insert_self
  have saves : ∀ record, (g.platformRequests.insert (h.record.enter .decode now)).get? h.requestId = some record →
      record.terminal = false := by
    intro record found
    rw [stored] at found
    cases found
    rfl
  refine ⟨rfl, rfl, rfl, rfl, rfl, enlisted.touched touches item, fun q other => ?_, fun id there => ?_, fun id differ => ?_,
    fun _ _ found => found, ⟨fun _ => rfl, fun _ _ => item, fun _ => ?_, fun _ record found isOver => ?_⟩, fun record found isOver => ?_⟩
  · unfold status Scheduling.status
    rw [shared_withShared, touches.others q other]
  · obtain ⟨record, found⟩ := RequestStore.contains_iff.mp there
    refine RequestStore.contains_iff.mpr ?_
    dsimp only [withShared]
    rw [RequestStore.get?_insert]
    split
    · exact ⟨_, rfl⟩
    · exact ⟨record, found⟩
  · dsimp only [withShared]
    rw [RequestStore.get?_insert]
    exact if_neg differ
  · exact Or.inl (same.trans running)
  · have alive := saves record found
    rw [isOver] at alive
    cases alive
  · exact absurd ⟨record, found, isOver⟩ (own.not_over_of_running live running)

theorem receive_moves (enlisted : g.scheduler.Enlisted) (own : g.Own h) {sequence : Ref} (here : h.place = .receiving sequence)
    (known : g.platformRequests.contains h.requestId = true) (event : StreamEvent)
    (completes : g.Over h → ∀ completion, event = .complete completion → completion.finishReason.itemStatus = g.status h.item)
    (fails : g.Over h → ∀ raised, event = .failure raised → raised.kind.isException = true → .failed = g.status h.item) :
    Moves g h (g.receive h sequence event).1 (g.receive h sequence event).2 := by
  have live : h.live := not_ended here fun result same => by cases same
  have streams : h.place ≠ .waiting := by simp [here]
  have generates : h.place.generating = true := by simp [here, HandlerPlace.generating]
  cases event with
  | failure raised =>
    have quiet : Quiet h.item g (g.onEngine fun e => e.closeStream h.requestId sequence) := .onEngine
    exact .after quiet (except_moves (quiet.enlisted enlisted (own.streaming live streams)) (own.frame rfl rfl id) live streams
      raised fun isOver caught => fails isOver raised rfl caught)
  | complete completion =>
    refine .of_quiet (.withShared (Touches.monotonic.trans .set)) ?_ own live streams (fun impossible => by cases impossible)
      fun isOver => ?_
    · exact enlisted.touched (Touches.monotonic.trans .set) (own.streaming live streams)
    · rw [status_withShared, status_set, if_pos rfl]
      exact completes isOver completion rfl
  | token token =>
    unfold receive
    dsimp only
    split
    · exact .goes enlisted own live streams .refl rfl fun _ => generates
    rename_i active
    have running : g.status h.item = .running := (own.generating generates).resolve_right active
    have kept : ∀ t : Scheduling, t.requests = g.shared.requests → (t.set h.item { t.requests h.item with
        outputTokens := token.index + 1, resultText := (t.requests h.item).resultText ++ token.text }).status h.item =
        g.status h.item := by
      intro t same
      rw [status_set, if_pos rfl]
      unfold status Scheduling.status
      rw [← same]
    unfold noteToken
    dsimp only
    by_cases first : h.record.status = .prefill
    · rw [if_pos first, RequestRecord.transition_ok (by rw [first]; decide)]
      dsimp only [withShared]
      have contains : g.platformRequests.contains (h.record.enter .decode g.shared.monotonic.1).requestId = true := known
      unfold RequestStore.save
      rw [if_pos contains]
      exact firstToken_moves enlisted own here running (Touches.monotonic.trans .set) (kept g.shared.monotonic.2 rfl)
    · rw [if_neg first]
      exact .goes enlisted own live streams (.withShared .set) (kept g.shared rfl) fun _ => generates

theorem exhaust_moves (enlisted : g.scheduler.Enlisted) (own : g.Own h) (here : h.place = .reading)
    (spares : g.Over h → ∀ status, statusWritten settings g h .reading .exhausted = some status → status = g.status h.item) :
    Moves g h (g.exhaust settings h).1 (g.exhaust settings h).2 := by
  have live : h.live := not_ended here fun result same => by cases same
  have streams : h.place ≠ .waiting := by simp [here]
  have touches : Touches h.item g.shared (g.exhaust settings h).2.shared :=
    (Touches.monotonic.trans .set).trans (Touches.monotonic.trans .set)
  have quiet : Quiet h.item g (g.exhaust settings h).2 := .withShared touches
  refine .of_quiet quiet (quiet.enlisted enlisted (own.streaming live streams)) own live streams
    (fun impossible => by cases impossible) fun isOver => ?_
  unfold exhaust
  dsimp only
  rw [status_withShared, status_set, if_pos rfl]
  exact spares isOver _ rfl

end Operations

section Handlers

theorem Moves.of_eq {next : Handler × Gateway backend} (moves : Moves g h next.1 next.2) (run : some next = some (h', g₁)) :
    Moves g h h' g₁ := by
  cases Option.some.inj run
  exact moves

/-- A handler that goes on keeps what is stored as over. -/
theorem resume_moves (coherent : g.Coherent) (found : g.handlers[i]? = some h) {resumption : HandlerResumption}
    (spares : g.Over h → ∀ status, statusWritten settings g h h.place resumption = some status → status = g.status h.item)
    (run : g.resume settings h h.place resumption = some (h', g₁)) : Moves g h h' g₁ := by
  have own := coherent.own found
  have enlisted := coherent.enlisted
  generalize here : h.place = place at spares run
  cases place with
  | waiting =>
    have live : h.live := not_ended here fun result same => by cases same
    cases resumption <;> try cases run
    simp only [resume] at run
    split at run
    · exact .of_eq (conclude_moves enlisted (own.alive live) (own.agrees live) _ _) run
    · cases run
  | unstarted =>
    cases resumption <;> try cases run
    exact .of_eq (beginStream_moves enlisted own here spares) run
  | receiving sequence =>
    have live : h.live := not_ended here fun result same => by cases same
    have item := own.streaming live (by simp [here])
    cases resumption <;> try cases run
    obtain ⟨⟨event, g₂⟩, next, same⟩ := Option.map_eq_some_iff.mp run
    obtain ⟨c, runs, more⟩ := Option.bind_eq_some_iff.mp next
    obtain ⟨queued, -, taken⟩ := Option.bind_eq_some_iff.mp more
    cases taken
    have quiet : Quiet h.item g { g with engine := some { c with shared := c.shared.take sequence } } := .withEngine
    have moves := receive_moves (quiet.enlisted enlisted item) (own.frame rfl rfl id) here (coherent.stored found) event
      (fun isOver completion ends => spares isOver _ (by simp only [statusWritten]; rw [next, ends]))
      (fun isOver raised ends caught => spares isOver _ (by simp only [statusWritten]; rw [next, ends]; exact if_pos caught))
    exact .after quiet (.of_eq moves (congrArg some same))
  | yielding sequence complete =>
    have live : h.live := not_ended here fun result same => by cases same
    have streams : h.place ≠ .waiting := by simp [here]
    cases complete with
    | false =>
      cases resumption <;> cases run
      exact .goes enlisted own live streams .refl rfl fun _ => by rw [here]; rfl
    | true =>
      cases resumption <;> cases run
      have quiet : Quiet h.item g (g.onEngine fun e => (e.popFinished h.requestId).closeStream h.requestId sequence) := .onEngine
      exact .after quiet (leave_moves (quiet.enlisted enlisted (own.streaming live streams)) (own.frame rfl rfl id) live streams _)
  | draining sequence =>
    have live : h.live := not_ended here fun result same => by cases same
    have streams : h.place ≠ .waiting := by simp [here]
    cases resumption <;> try cases run
    simp only [resume] at run
    split at run
    · have quiet : Quiet h.item g (g.onEngine fun e => (e.popFinished h.requestId).closeStream h.requestId sequence) := .onEngine
      exact .after quiet (.of_eq (except_moves (quiet.enlisted enlisted (own.streaming live streams)) (own.frame rfl rfl id) live
        streams cancelledError fun _ impossible => by cases impossible) run)
    · cases run
  | reading =>
    have live : h.live := not_ended here fun result same => by cases same
    have streams : h.place ≠ .waiting := by simp [here]
    cases resumption with
    | proceed => cases run
    | chunk outputTokens =>
      cases run
      refine .goes enlisted own live streams (.withShared .set) ?_ fun _ => by rw [here]; rfl
      rw [status_withShared, status_set, if_pos rfl]
      rfl
    | exhausted =>
      cases run
      exact exhaust_moves enlisted own here spares
    | raises raised =>
      exact .of_eq (except_moves enlisted own live streams raised fun isOver caught => spares isOver _ (if_pos caught)) run
  | chunkSent =>
    cases resumption <;> cases run
    exact .goes enlisted own (not_ended here fun result same => by cases same) (by simp [here]) .refl rfl
      fun _ => by rw [here]; rfl
  | doneSent =>
    cases resumption <;> cases run
    exact leave_moves enlisted own (not_ended here fun result same => by cases same) (by simp [here]) _
  | errorSent =>
    cases resumption <;> cases run
    exact .goes enlisted own (not_ended here fun result same => by cases same) (by simp [here]) .refl rfl
      fun impossible => by cases impossible
  | failureSent =>
    cases resumption <;> cases run
    exact leave_moves enlisted own (not_ended here fun result same => by cases same) (by simp [here]) _
  | releasing result =>
    have live : h.live := not_ended here fun result same => by cases same
    cases resumption <;> try cases run
    exact .of_eq (conclude_moves enlisted (own.alive live) (own.agrees live) _ _) run
  | ended result => cases run

/-- So does a handler whose task is cancelled. -/
theorem interrupt_moves (coherent : g.Coherent) (found : g.handlers[i]? = some h)
    (run : g.interrupt h h.place = some (h', g₁)) : Moves g h h' g₁ := by
  have own := coherent.own found
  have enlisted := coherent.enlisted
  generalize here : h.place = place at run
  cases place <;> try cases run
  · have live : h.live := not_ended here fun result same => by cases same
    have cancelled := own.cancelled "client disconnected"
    have quiet : Quiet h.item g (g.withShared (g.shared.cancel h.item "client disconnected")) := .withShared .cancel
    have moves := conclude_moves (g := g.withShared (g.shared.cancel h.item "client disconnected")) (enlisted.calm .cancel)
      (cancelled.alive live) (cancelled.agrees live) 0 (.error cancelledError)
    exact .after quiet (.of_eq moves run)
  · exact .goes enlisted own (not_ended here fun result same => by cases same) (by simp [here]) .onEngine rfl
      fun impossible => by cases impossible
  · rename_i sequence
    have live : h.live := not_ended here fun result same => by cases same
    have streams : h.place ≠ .waiting := by simp [here]
    have quiet : Quiet h.item g (g.onEngine fun e => e.closeStream h.requestId sequence) := .onEngine
    exact .after quiet (except_moves (quiet.enlisted enlisted (own.streaming live streams)) (own.frame rfl rfl id) live streams
      cancelledError fun _ impossible => by cases impossible)
  · exact except_moves enlisted own (not_ended here fun result same => by cases same) (by simp [here]) cancelledError
      fun _ impossible => by cases impossible
  · exact .goes enlisted own (not_ended here fun result same => by cases same) (by simp [here]) .refl rfl
      fun impossible => by cases impossible

/-- So does a response body that is given up. -/
theorem abandon_moves (coherent : g.Coherent) (found : g.handlers[i]? = some h) {raised : Raised}
    (uncaught : raised.kind.isException = false) (run : g.abandon h raised h.place = some (h', g₁)) : Moves g h h' g₁ := by
  have own := coherent.own found
  have enlisted := coherent.enlisted
  have never : g.Over h → raised.kind.isException = true → RequestStatus.failed = g.status h.item := by
    intro _ caught
    rw [uncaught] at caught
    cases caught
  generalize here : h.place = place at run
  cases place <;> try cases run
  · exact .goes enlisted own (not_ended here fun result same => by cases same) (by simp [here]) .refl rfl
      fun impossible => by cases impossible
  · rename_i sequence complete
    have live : h.live := not_ended here fun result same => by cases same
    have streams : h.place ≠ .waiting := by simp [here]
    have quiet : Quiet h.item g (g.onEngine fun e => e.closeStream h.requestId sequence) := .onEngine
    exact .after quiet (.of_eq (except_moves (quiet.enlisted enlisted (own.streaming live streams)) (own.frame rfl rfl id) live
      streams raised fun isOver caught => never isOver caught) run)
  · exact .of_eq (except_moves enlisted own (not_ended here fun result same => by cases same) (by simp [here]) raised never) run
  · exact .of_eq (except_moves enlisted own (not_ended here fun result same => by cases same) (by simp [here]) raised never) run
  · exact leave_moves enlisted own (not_ended here fun result same => by cases same) (by simp [here]) _
  · exact leave_moves enlisted own (not_ended here fun result same => by cases same) (by simp [here]) _

end Handlers

end Gateway

end ServingPlatform
