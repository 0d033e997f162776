import ServingPlatform.Gateway.Finality
import ServingPlatform.Gateway.Slots

namespace ServingPlatform

open Scheduling

variable {S : Type} {backend : InferenceBackend S}

namespace HandlerPlace

/-- What a reservation under the handler's identifier has to do with the place of
the handler; `left` says that its stream was given up. -/
def Keeps (left : Prop) (e : Engine S) (r : Ref) : HandlerPlace → Prop
  | .unstarted => True
  | .receiving sequence | .yielding sequence false | .draining sequence => r = sequence
  | .releasing _ | .ended _ => left ∧ (e.sequences r).state.cancellation = true
  | _ => False

/-- The moves between two places, as far as the limits go. -/
inductive Passes : HandlerPlace → HandlerPlace → Prop
  | answered {result : Except Raised Unit} : Passes .waiting (.ended result)
  | returned {result result' : Except Raised Unit} : Passes (.releasing result) (.ended result')
  | goes {place place' : HandlerPlace} (streamed : place.streams = true) (streams : place'.streams = true) : Passes place place'
  | leaves {place : HandlerPlace} {result : Except Raised Unit} (streamed : place.streams = true) : Passes place (.releasing result)

theorem Keeps.mono {left left' : Prop} {e e' : Engine S} {r : Ref} {place : HandlerPlace} (keeps : place.Keeps left e r)
    (leaves : left → left') (cancellation : (e.sequences r).state.cancellation = true → (e'.sequences r).state.cancellation = true) :
    place.Keeps left' e' r := by
  cases place with
  | releasing result => exact ⟨leaves keeps.1, cancellation keeps.2⟩
  | ended result => exact ⟨leaves keeps.1, cancellation keeps.2⟩
  | yielding sequence complete =>
    cases complete with
    | false => exact keeps
    | true => exact keeps
  | waiting => exact keeps
  | unstarted => exact keeps
  | receiving sequence => exact keeps
  | draining sequence => exact keeps
  | reading => exact keeps
  | chunkSent => exact keeps
  | doneSent => exact keeps
  | errorSent => exact keeps
  | failureSent => exact keeps

end HandlerPlace

namespace Gateway

variable {settings : GatewaySettings} {g g' g₁ g₂ : Gateway backend} {h h' : Handler} {left : Prop} {id : String}

/-- All that is reserved under an identifier satisfies `P`. -/
def Reserved (g : Gateway backend) (id : String) (P : Engine S → Ref → Prop) : Prop :=
  ∀ c r, g.engine = some c → c.shared.engine.active.get? id = some r → P c.shared.engine r

/-- The engine of a gateway keeps its reservations in order. -/
def Reserves (g : Gateway backend) : Prop := ∀ c, g.engine = some c → c.shared.engine.Reserves

/-- Reservations, handlers and what is stored stay. -/
structure Eases (g g' : Gateway backend) : Prop where
  handlers : g'.handlers = g.handlers
  stored : ∀ id, g.platformRequests.contains id = true → g'.platformRequests.contains id = true
  engine : ∀ c', g'.engine = some c' → ∃ c, g.engine = some c ∧ c.shared.engine.Eased c'.shared.engine ∧
    c'.scheduler = c.scheduler ∧ c'.clients = c.clients

namespace Eases

theorem refl (g : Gateway backend) : g.Eases g := ⟨rfl, fun _ known => known, fun c runs => ⟨c, runs, .refl _, rfl, rfl⟩⟩

theorem trans (first : g.Eases g₁) (second : g₁.Eases g₂) : g.Eases g₂ := by
  refine ⟨second.handlers.trans first.handlers, fun id known => second.stored id (first.stored id known), fun c₂ runs₂ => ?_⟩
  obtain ⟨c₁, runs₁, eased₁, scheduler₁, clients₁⟩ := second.engine c₂ runs₂
  obtain ⟨c, runs, eased, scheduler, clients⟩ := first.engine c₁ runs₁
  exact ⟨c, runs, eased.trans eased₁, scheduler₁.trans scheduler, clients₁.trans clients⟩

theorem withShared (g : Gateway backend) (shared : Scheduling) : g.Eases (g.withShared shared) :=
  ⟨rfl, fun _ known => known, fun c runs => ⟨c, runs, .refl _, rfl, rfl⟩⟩

theorem onEngine (g : Gateway backend) {f : Engine S → Engine S} (eased : ∀ e : Engine S, e.Eased (f e)) : g.Eases (g.onEngine f) := by
  refine ⟨rfl, fun _ known => known, fun c' runs => ?_⟩
  obtain ⟨c, before, rfl⟩ := Option.map_eq_some_iff.mp runs
  exact ⟨c, before, eased _, rfl, rfl⟩

theorem saved {record : RequestRecord} {active : Dict String RequestRef} (g : Gateway backend) :
    g.Eases { g with platformRequests := g.platformRequests.insert record, activeGatewayRequests := active } :=
  ⟨rfl, fun _ known => RequestStore.contains_insert known, fun c runs => ⟨c, runs, .refl _, rfl, rfl⟩⟩

theorem reserves (eases : g.Eases g') (before : g.Reserves) : g'.Reserves := by
  intro c' runs
  obtain ⟨c, runs, eased, -, -⟩ := eases.engine c' runs
  exact eased.drains.reserves (before c runs)

theorem reserved (eases : g.Eases g') {P Q : Engine S → Ref → Prop} (before : g.Reserved id P)
    (kept : ∀ e e' r, e.Eased e' → P e r → Q e' r) : g'.Reserved id Q := by
  intro c' r runs found
  obtain ⟨c, runs, eased, -, -⟩ := eases.engine c' runs
  rw [eased.active] at found
  exact kept _ _ r eased (before c r runs found)

end Eases

/-- The stream of what is reserved was given up, and its sequence is cancelled. -/
def GivenUp (g : Gateway backend) (id : String) (left : Prop) : Prop :=
  g.Reserved id fun e r => left ∧ (e.sequences r).state.cancellation = true

theorem Eases.givenUp (eases : g.Eases g') (before : g.GivenUp id left) : g'.GivenUp id left :=
  eases.reserved before fun _ _ r eased given => ⟨given.1, eased.cancellation r given.2⟩

theorem Reserved.mono {P Q : Engine S → Ref → Prop} (before : g.Reserved id P) (weaker : ∀ e r, P e r → Q e r) : g.Reserved id Q :=
  fun c r runs found => weaker _ r (before c r runs found)

/-- A sequence that is not under way is not reserved. -/
theorem Reserved.isOver {sequence : Ref} (reserves : g.Reserves) (before : g.Reserved id fun _ r => r = sequence)
    (isOver : ∀ c, g.engine = some c → ¬(c.shared.engine.sequences sequence).Underway) : g.Reserved id fun _ _ => False := by
  intro c r runs found
  have same := before c r runs found
  obtain ⟨-, -, underway⟩ := (reserves c runs).underway id r found
  rw [same] at underway
  exact isOver c runs underway

/-- The reservation of a handler, by its place. -/
def Keeps (g : Gateway backend) (h : Handler) (left : Prop) : Prop := g.Reserved h.requestId fun e r => h.place.Keeps left e r

/-- A handler's move, as far as the limits and the reservations go. -/
structure Shifts (left : Prop) (g : Gateway backend) (h h' : Handler) (g' : Gateway backend) : Prop where
  eases : g.Eases g'
  requestId : h'.requestId = h.requestId
  passes : h.place.Passes h'.place
  keeps : g'.Keeps h' left

theorem Shifts.after (eases : g.Eases g₁) (shifts : Shifts left g₁ h h' g₂) : Shifts left g h h' g₂ :=
  ⟨eases.trans shifts.eases, shifts.requestId, shifts.passes, shifts.keeps⟩

section Operations

/-- A save answers with a record of the same request. -/
theorem finished_requestId {record record' : RequestRecord} {status : RequestStatus} {startedAt now : Seconds}
    (run : record.finished status startedAt now = .ok record') : record'.requestId = record.requestId := by
  cases isOver : record.terminal with
  | false => exact (RequestRecord.finished_spec isOver run).1
  | true =>
    unfold RequestRecord.finished at run
    split at run
    · cases run
      rfl
    · rw [if_pos isOver] at run
      cases run
      rfl

theorem finishPlatformRequest_eases (g : Gateway backend) (record : RequestRecord) (status : RequestStatus) (startedAt : Seconds) :
    g.Eases (g.finishPlatformRequest record status startedAt).2 := by
  unfold finishPlatformRequest
  dsimp only
  split
  · exact .withShared g _
  · rename_i record' run
    split
    · exact .withShared g _
    · rename_i store saves
      unfold RequestStore.save at saves
      split at saves <;> cases saves
      exact (Eases.withShared g _).trans (.saved _)

theorem conclude_shifts (g : Gateway backend) (h : Handler) (startedAt : Seconds) (result : Except Raised Unit) (left : Prop)
    (passes : ∀ answer, h.place.Passes (.ended answer)) (keeps : g.GivenUp h.requestId left) :
    Shifts left g h (g.conclude h startedAt result).1 (g.conclude h startedAt result).2 := by
  have eases := g.finishPlatformRequest_eases h.record (g.status h.item) startedAt
  have after := eases.givenUp keeps
  unfold conclude
  rcases run : g.finishPlatformRequest h.record (g.status h.item) startedAt with ⟨raised | record, g₁⟩
  · rw [run] at eases after
    exact ⟨eases, rfl, passes _, after⟩
  · rw [run] at eases after
    exact ⟨eases, rfl, passes _, after⟩

theorem leave_shifts (g : Gateway backend) (h : Handler) (result : Except Raised Unit) (left : Prop) (streamed : h.place.streams = true)
    (keeps : g.GivenUp h.requestId left) :
    Shifts left g h (g.leave h result).1 (g.leave h result).2 :=
  ⟨.withShared g _, rfl, .leaves streamed, (Eases.withShared g _).givenUp keeps⟩

theorem cancel_eased (e : Engine S) (requestId : String) : e.Eased (e.cancel requestId).2 := by
  unfold Engine.cancel
  split
  · exact .refl e
  · split
    · exact .refl e
    · exact (Engine.Eased.setCancellation e _).trans (.setWake _)

/-- A response body that an exception leaves or goes on with after it; it goes on only if nothing is reserved. -/
theorem except_shifts (g : Gateway backend) (h : Handler) (raised : Raised) (left : Prop) (streamed : h.place.streams = true)
    (keeps : g.Reserved h.requestId fun e r => raised.kind.isException = false ∧ left ∧ (e.sequences r).state.cancellation = true) :
    Shifts left g h (g.except h raised).1 (g.except h raised).2 := by
  have gone : g.GivenUp h.requestId left := keeps.mono fun _ _ given => given.2
  unfold except
  split
  · have eases : g.Eases ((g.onEngine fun e => (e.cancel h.requestId).2).withShared
        (g.shared.cancel h.item "streaming client disconnected")) :=
      (Eases.onEngine g fun e => cancel_eased e _).trans (.withShared _ _)
    exact .after eases (leave_shifts _ h _ left streamed (eases.givenUp gone))
  · split
    · rename_i caught
      refine ⟨.withShared g _, rfl, .goes streamed rfl, (Eases.withShared g _).reserved keeps fun _ _ _ _ given => ?_⟩
      rw [caught] at given
      cases given.1
    · exact leave_shifts g h _ left streamed gone

/-- The end of the engine's stream: what it left of its sequence is cancelled. -/
theorem closeStream_eased (e : Engine S) (requestId : String) (sequence : Ref) : e.Eased (e.closeStream requestId sequence) := by
  unfold Engine.closeStream
  split
  · split
    · exact .popFinished e _
    · exact .refl e
  · exact (Engine.Eased.setCancellation e _).trans (.setWake _)

theorem closeStream_reserved {requestId : String} {sequence : Ref} (reserves : g.Reserves) (before : g.Reserved id fun _ r => r = sequence) :
    (g.onEngine fun e => e.closeStream requestId sequence).Reserved id fun e r => (e.sequences r).state.cancellation = true := by
  intro c' r runs found
  obtain ⟨c, was, rfl⟩ := Option.map_eq_some_iff.mp runs
  have still : c.shared.engine.active.get? id = some r := by
    rw [← (closeStream_eased c.shared.engine requestId sequence).active]
    exact found
  have same := before c r was still
  obtain ⟨-, -, going, -⟩ := (reserves c was).underway id r still
  rw [same] at going ⊢
  have cancels : ((c.shared.engine.setCancellation sequence).sequences sequence).state.cancellation = true := by
    unfold Engine.setCancellation
    rw [Engine.modifySequence_self]
  show ((c.shared.engine.closeStream requestId sequence).sequences sequence).state.cancellation = true
  unfold Engine.closeStream
  rw [if_neg (by simp [going])]
  exact cancels

theorem openStream_cases (e : Engine S) (requestId : String) :
    (e.active.get? requestId = none ∧ ∃ raised, e.openStream requestId = (.error raised, e)) ∨
      ∃ sequence, (∀ r, e.active.get? requestId = some r → r = sequence) ∧
        e.openStream requestId = (.ok sequence, e.ensureScheduler) := by
  unfold Engine.openStream
  cases active : e.active.get? requestId with
  | some sequence =>
    refine Or.inr ⟨sequence, fun r found => ?_, rfl⟩
    cases found
    rfl
  | none =>
    rw [Option.none_or]
    cases finished : e.finished.get? requestId with
    | none => exact Or.inl ⟨rfl, _, rfl⟩
    | some sequence => exact Or.inr ⟨sequence, fun r impossible => (by cases impossible), rfl⟩

theorem beginStream_shifts (g : Gateway backend) (h : Handler) (left : Prop) (here : h.place = .unstarted) :
    Shifts left g h (g.beginStream h).1 (g.beginStream h).2 := by
  have streamed : h.place.streams = true := by
    rw [here]
    rfl
  have measured : g.Eases (g.withShared ((g.shared.measure (·.recordModelInvocation)).measure (·.modelExecutionStarted))) :=
    .withShared g _
  unfold beginStream
  dsimp only
  cases engine : g.engine with
  | none =>
    have none : (g.withShared ((g.shared.measure (·.recordModelInvocation)).measure (·.modelExecutionStarted))).engine = none :=
      engine
    rw [none]
    refine ⟨measured, rfl, .goes streamed rfl, fun c r runs => ?_⟩
    rw [none] at runs
    cases runs
  | some c =>
    have runs : (g.withShared ((g.shared.measure (·.recordModelInvocation)).measure (·.modelExecutionStarted))).engine = some c :=
      engine
    rw [runs]
    dsimp only
    rcases openStream_cases c.shared.engine h.requestId with ⟨absent, raised, opens⟩ | ⟨sequence, own, opens⟩
    · rw [opens]
      refine .after measured (except_shifts _ h raised left streamed fun c' r runs' found => ?_)
      cases runs.symm.trans runs'
      rw [absent] at found
      cases found
    · rw [opens]
      have started : c.shared.engine.Eased c.shared.engine.ensureScheduler :=
        ⟨rfl, fun _ => rfl, rfl, rfl, fun _ set => set, fun _ => rfl, fun _ => rfl⟩
      refine ⟨⟨rfl, fun _ known => known, fun c' runs' => ?_⟩, rfl, .goes streamed rfl, fun c' r runs' found => ?_⟩
      · cases runs'
        exact ⟨c, engine, started, rfl, rfl⟩
      · cases runs'
        exact own r found

theorem nextEvent_spec {sequence : Ref} {event : StreamEvent} (run : g.nextEvent sequence = some (event, g₁)) :
    g.Eases g₁ ∧ ∃ c, g.engine = some c ∧ event ∈ (c.shared.engine.sequences sequence).events := by
  obtain ⟨c, runs, run⟩ := Option.bind_eq_some_iff.mp run
  obtain ⟨event', found, run⟩ := Option.bind_eq_some_iff.mp run
  cases run
  refine ⟨⟨rfl, fun _ known => known, fun c' runs' => ?_⟩, c, runs, List.mem_of_getElem? found⟩
  cases runs'
  exact ⟨c, runs, c.shared.take_eased sequence, rfl, rfl⟩

/-- The first token of a stored record is always noted. -/
theorem noteToken_spec (stored : g.platformRequests.contains h.requestId = true) :
    ∃ record g₁, g.noteToken h = (.ok record, g₁) ∧ record.requestId = h.requestId ∧ g.Eases g₁ := by
  unfold noteToken
  split
  · rename_i prefill
    have moves : h.record.transition .decode g.shared.monotonic.1 = .ok (h.record.enter .decode g.shared.monotonic.1) :=
      RequestRecord.transition_ok (by rw [prefill]; decide)
    dsimp only
    rw [moves]
    dsimp only [withShared]
    unfold RequestStore.save
    rw [if_pos (show g.platformRequests.contains (h.record.enter .decode g.shared.monotonic.1).requestId = true from stored)]
    exact ⟨_, _, rfl, rfl, (Eases.withShared g g.shared.monotonic.2).trans (.saved _)⟩
  · exact ⟨_, g, rfl, rfl, .refl g⟩

theorem receive_shifts (g : Gateway backend) (h : Handler) (left : Prop) {sequence : Ref} (event : StreamEvent)
    (here : h.place = .receiving sequence) (stored : g.platformRequests.contains h.requestId = true)
    (own : g.Reserved h.requestId fun _ r => r = sequence)
    (isOver : (∀ token, event ≠ .token token) → g.Reserved h.requestId fun _ _ => False) :
    Shifts left g h (g.receive h sequence event).1 (g.receive h sequence event).2 := by
  have streamed : h.place.streams = true := by
    rw [here]
    rfl
  cases event with
  | failure raised =>
    have closed : g.Eases (g.onEngine fun e => e.closeStream h.requestId sequence) := .onEngine g fun e => closeStream_eased e _ _
    exact .after closed (except_shifts _ h raised left streamed (closed.reserved (isOver (by simp)) fun _ _ _ _ => False.elim))
  | token token =>
    unfold receive
    dsimp only
    split
    · exact ⟨.refl g, rfl, .goes streamed rfl, own⟩
    · obtain ⟨record, g₁, notes, same, eases⟩ := noteToken_spec stored
      rw [notes]
      have after : g₁.Reserved h.requestId fun _ r => r = sequence := eases.reserved own fun _ _ _ _ given => given
      refine ⟨eases.trans (.withShared g₁ _), same, .goes streamed rfl, ?_⟩
      unfold Keeps Handler.requestId
      rw [same]
      exact after
  | complete completion =>
    exact ⟨.withShared g _, rfl, .goes streamed rfl, isOver (by simp)⟩

end Operations

section Handlers

variable {resumption : HandlerResumption}

theorem Shifts.of_eq {next : Handler × Gateway backend} (shifts : Shifts left g h next.1 next.2) (run : some next = some (h', g')) :
    Shifts left g h h' g' := by
  cases run
  exact shifts

/-- Nothing is reserved. -/
theorem Keeps.vacant {P : Engine S → Ref → Prop} {place : HandlerPlace} (keeps : g.Keeps h left) (here : h.place = place)
    (none : ∀ e r, ¬place.Keeps left (S := S) e r) : g.Reserved h.requestId P := by
  refine Reserved.mono keeps fun e r given => ?_
  rw [here] at given
  exact (none e r given).elim

/-- A handler that goes on. -/
theorem resume_shifts (reserves : g.Reserves) (stored : g.platformRequests.contains h.requestId = true) (keeps : g.Keeps h left)
    (run : g.resume settings h h.place resumption = some (h', g')) : Shifts left g h h' g' := by
  generalize here : h.place = place at run
  have streamed : place.streams = true → h.place.streams = true := by
    rw [here]
    exact id
  cases place with
  | waiting =>
    cases resumption <;> try cases run
    simp only [resume] at run
    split at run
    · refine .of_eq (conclude_shifts g h _ _ left (fun answer => ?_) (keeps.vacant here fun _ _ => id)) run
      rw [here]
      exact .answered
    · cases run
  | unstarted =>
    cases resumption <;> try cases run
    exact .of_eq (beginStream_shifts g h left here) run
  | receiving sequence =>
    cases resumption <;> try cases run
    obtain ⟨⟨event, g₁⟩, next, same⟩ := Option.map_eq_some_iff.mp run
    obtain ⟨eases, c, runs, queued⟩ := nextEvent_spec next
    have own : g.Reserved h.requestId fun _ r => r = sequence := Reserved.mono keeps fun e r given => by
      rw [here] at given
      exact given
    refine .after eases (.of_eq (receive_shifts g₁ h left event here (eases.stored _ stored)
      (eases.reserved own fun _ _ _ _ given => given) fun ends => ?_) (congrArg some same))
    have isOver : g.Reserved h.requestId fun _ _ => False := own.isOver reserves fun c' runs' underway => by
      cases runs.symm.trans runs'
      obtain ⟨token, isToken⟩ := underway.2 event queued
      exact ends token isToken
    exact eases.reserved isOver fun _ _ _ _ => id
  | yielding sequence complete =>
    cases complete with
    | false =>
      cases resumption <;> cases run
      refine ⟨.refl g, rfl, .goes (streamed rfl) rfl, Reserved.mono keeps fun e r given => ?_⟩
      rw [here] at given
      exact given
    | true =>
      cases resumption <;> try cases run
      have closed : g.Eases (g.onEngine fun e => (e.popFinished h.requestId).closeStream h.requestId sequence) :=
        .onEngine g fun e => (Engine.Eased.popFinished e _).trans (closeStream_eased _ _ _)
      exact .after closed (leave_shifts _ h _ left (streamed rfl) (closed.givenUp (keeps.vacant here fun _ _ => id)))
  | draining sequence =>
    cases resumption <;> try cases run
    simp only [resume] at run
    split at run
    · rename_i done
      have closed : g.Eases (g.onEngine fun e => (e.popFinished h.requestId).closeStream h.requestId sequence) :=
        .onEngine g fun e => (Engine.Eased.popFinished e _).trans (closeStream_eased _ _ _)
      have own : g.Reserved h.requestId fun _ r => r = sequence := Reserved.mono keeps fun e r given => by
        rw [here] at given
        exact given
      have isOver : g.Reserved h.requestId fun _ _ => False := own.isOver reserves fun c runs underway => by
        rw [runs, Option.any_some, underway.1] at done
        cases done
      refine .after closed (.of_eq (except_shifts _ h cancelledError left (streamed rfl) ?_) run)
      exact closed.reserved isOver fun _ _ _ _ => False.elim
    · cases run
  | reading =>
    cases resumption with
    | proceed => cases run
    | chunk outputTokens =>
      cases run
      exact ⟨.withShared g _, rfl, .goes (streamed rfl) rfl, (Eases.withShared g _).reserved (keeps.vacant here fun _ _ => id)
        fun _ _ _ _ => id⟩
    | exhausted =>
      cases run
      exact ⟨.withShared g _, rfl, .goes (streamed rfl) rfl, (Eases.withShared g _).reserved (keeps.vacant here fun _ _ => id)
        fun _ _ _ _ => id⟩
    | raises raised => exact .of_eq (except_shifts g h raised left (streamed rfl) (keeps.vacant here fun _ _ => id)) run
  | chunkSent =>
    cases resumption <;> cases run
    exact ⟨.refl g, rfl, .goes (streamed rfl) rfl, keeps.vacant here fun _ _ => id⟩
  | errorSent =>
    cases resumption <;> cases run
    exact ⟨.refl g, rfl, .goes (streamed rfl) rfl, keeps.vacant here fun _ _ => id⟩
  | doneSent =>
    cases resumption <;> try cases run
    exact leave_shifts g h _ left (streamed rfl) (keeps.vacant here fun _ _ => id)
  | failureSent =>
    cases resumption <;> try cases run
    exact leave_shifts g h _ left (streamed rfl) (keeps.vacant here fun _ _ => id)
  | releasing result =>
    cases resumption <;> try cases run
    refine .of_eq (conclude_shifts g h _ _ left (fun answer => ?_) (Reserved.mono keeps fun e r given => ?_)) run
    · rw [here]
      exact .returned
    · rw [here] at given
      exact given
  | ended result => cases run

/-- What is reserved for a stream that is closed is cancelled. -/
theorem closed_givenUp {sequence : Ref} (reserves : g.Reserves) (own : g.Reserved h.requestId fun _ r => r = sequence) (given : left) :
    (g.onEngine fun e => e.closeStream h.requestId sequence).GivenUp h.requestId left :=
  Reserved.mono (closeStream_reserved reserves own) fun _ _ cancelled => ⟨given, cancelled⟩

/-- A handler whose task is cancelled; its stream is given up if it is already cancelled. -/
theorem interrupt_shifts (reserves : g.Reserves) (keeps : g.Keeps h left) (givesUp : ∀ sequence, h.place = .draining sequence → left)
    (run : g.interrupt h h.place = some (h', g')) : Shifts left g h h' g' := by
  generalize here : h.place = place at run givesUp
  have streamed : place.streams = true → h.place.streams = true := by
    rw [here]
    exact id
  cases place <;> try cases run
  case waiting =>
    have cancelled : g.Eases (g.withShared (g.shared.cancel h.item "client disconnected")) := .withShared g _
    refine .after cancelled (.of_eq (conclude_shifts _ h 0 _ left (fun answer => ?_)
      (cancelled.givenUp (keeps.vacant here fun _ _ => id))) run)
    rw [here]
    exact .answered
  case receiving sequence =>
    have eases : g.Eases (g.onEngine fun e => (e.setCancellation sequence).setWake) :=
      .onEngine g fun e => (Engine.Eased.setCancellation e sequence).trans (.setWake _)
    refine ⟨eases, rfl, .goes (streamed rfl) rfl, eases.reserved keeps fun e e' r _ given => ?_⟩
    rw [here] at given
    exact given
  case draining sequence =>
    have own : g.Reserved h.requestId fun _ r => r = sequence := Reserved.mono keeps fun e r given => by
      rw [here] at given
      exact given
    have closed : g.Eases (g.onEngine fun e => e.closeStream h.requestId sequence) := .onEngine g fun e => closeStream_eased e _ _
    refine .after closed (except_shifts _ h cancelledError left (streamed rfl) ?_)
    exact (closed_givenUp reserves own (givesUp sequence rfl)).mono fun _ _ given => ⟨rfl, given⟩
  case reading => exact except_shifts g h cancelledError left (streamed rfl) (keeps.vacant here fun _ _ => id)
  case releasing result =>
    refine ⟨.refl g, rfl, ?_, Reserved.mono keeps fun e r given => ?_⟩
    · rw [here]
      exact .returned
    · rw [here] at given
      exact given

/-- A response body that has begun and is left at a `yield`. -/
theorem abandon_shifts {raised : Raised} (uncaught : raised.kind.isException = false) (reserves : g.Reserves) (keeps : g.Keeps h left)
    (begun : h.place ≠ .unstarted) (givesUp : ∀ sequence complete, h.place = .yielding sequence complete → left)
    (run : g.abandon h raised h.place = some (h', g')) : Shifts left g h h' g' := by
  generalize here : h.place = place at run begun givesUp
  have streamed : place.streams = true → h.place.streams = true := by
    rw [here]
    exact id
  cases place <;> try cases run
  case unstarted => exact (begun rfl).elim
  case yielding sequence complete =>
    have own : g.Reserved h.requestId fun _ r => r = sequence := Reserved.mono keeps fun e r given => by
      rw [here] at given
      cases complete with
      | false => exact given
      | true => exact given.elim
    have closed : g.Eases (g.onEngine fun e => e.closeStream h.requestId sequence) := .onEngine g fun e => closeStream_eased e _ _
    refine .after closed (.of_eq (except_shifts _ h raised left (streamed rfl) ?_) run)
    exact (closed_givenUp reserves own (givesUp sequence complete rfl)).mono fun _ _ given => ⟨uncaught, given⟩
  case chunkSent => exact .of_eq (except_shifts g h raised left (streamed rfl) (keeps.vacant here fun _ _ => id)) run
  case doneSent => exact .of_eq (except_shifts g h raised left (streamed rfl) (keeps.vacant here fun _ _ => id)) run
  case errorSent => exact leave_shifts g h _ left (streamed rfl) (keeps.vacant here fun _ _ => id)
  case failureSent => exact leave_shifts g h _ left (streamed rfl) (keeps.vacant here fun _ _ => id)

end Handlers

end Gateway

end ServingPlatform
