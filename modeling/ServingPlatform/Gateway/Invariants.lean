import ServingPlatform.Gateway.Streams
import ServingPlatform.RequestScheduler.Enlisted

namespace ServingPlatform

open Scheduling

variable {S : Type} {backend : InferenceBackend S}

theorem RequestStatus.isTerminal_of_recordState {status : RequestStatus} {target : RequestState}
    (found : status.recordState = some target) : status.isTerminal = true ∧ target.isTerminal = true := by
  cases status <;> cases found <;> exact ⟨rfl, rfl⟩

/-- What `_finish_platform_request` makes of a record that is not over. -/
theorem RequestRecord.finished_spec {record record' : RequestRecord} {status : RequestStatus} {startedAt now : Seconds}
    (alive : record.terminal = false) (run : record.finished status startedAt now = .ok record') :
    record'.requestId = record.requestId ∧ (status.recordState = none → record' = record) ∧
      ∀ target, status.recordState = some target → record'.status = target := by
  unfold finished at run
  cases found : status.recordState with
  | none =>
    rw [found] at run
    cases run
    exact ⟨rfl, fun _ => rfl, fun target impossible => by cases impossible⟩
  | some target =>
    rw [found] at run
    dsimp only at run
    rw [if_neg (by simp [alive])] at run
    have ends : ∀ r : RequestRecord, r.requestId = record.requestId → r.transition target now = .ok record' →
        record'.requestId = record.requestId ∧ (some target = none → record' = record) ∧
          ∀ other, some target = some other → record'.status = other := by
      intro r same moved
      rcases r.transition_cases target now with ⟨-, run⟩ | ⟨-, raised, run, -⟩
      · rw [run] at moved
        cases moved
        refine ⟨same, fun impossible => (by cases impossible), fun other here => ?_⟩
        cases here
        rfl
      · rw [run] at moved
        cases moved
    split at run
    · rcases record.transition_cases .running startedAt with ⟨-, started⟩ | ⟨-, raised, started, -⟩
      · rw [started] at run
        exact ends (record.enter .running startedAt) rfl run
      · rw [started] at run
        cases run
    · exact ends record rfl run

/-- A place of a response body that still takes what the model generates. -/
def HandlerPlace.generating : HandlerPlace → Bool
  | .unstarted | .receiving _ | .yielding _ false | .reading | .chunkSent => true
  | _ => false

namespace Gateway

variable {settings : GatewaySettings} {g g' g₁ g₂ : Gateway backend} {h h' : Handler} {i : Nat} {requestId : String}

@[simp] theorem shared_withShared {shared : Scheduling} : (g.withShared shared).shared = shared := rfl

@[simp] theorem status_withShared {shared : Scheduling} {q : RequestRef} : (g.withShared shared).status q = shared.status q :=
  rfl

@[simp] theorem status_onEngine {f : Engine S → Engine S} {q : RequestRef} : (g.onEngine f).status q = g.status q := rfl

/-- The stored record of the handler is over. -/
def Over (g : Gateway backend) (h : Handler) : Prop :=
  ∃ record, g.platformRequests.get? h.requestId = some record ∧ record.terminal = true

/-- What holds of each handler: until it returns, its own record is not over, and
if the stored one is, then its item has ended that way. An item of a stream
is no business of the scheduler. -/
structure Own (g : Gateway backend) (h : Handler) : Prop where
  alive : h.live → h.record.terminal = false
  streaming : h.live → h.place ≠ .waiting → h.item ∉ g.scheduler.accepted
  generating : h.place.generating = true → g.status h.item = .running ∨ g.status h.item = .cancelled
  agrees : h.live → ∀ record, g.platformRequests.get? h.requestId = some record → record.terminal = true →
    (g.status h.item).recordState = some record.status

/-- Items and request ids belong to one handler each. -/
structure Coherent (g : Gateway backend) : Prop where
  enlisted : g.scheduler.Enlisted
  accepted : ∀ r ∈ g.scheduler.accepted, r < g.created
  made : ∀ {i : Nat} {h : Handler}, g.handlers[i]? = some h → h.item < g.created
  distinct : ∀ {i j : Nat} {h h' : Handler}, g.handlers[i]? = some h → g.handlers[j]? = some h' →
    h.item = h'.item ∨ h.requestId = h'.requestId → i = j
  stored : ∀ {i : Nat} {h : Handler}, g.handlers[i]? = some h → g.platformRequests.contains h.requestId = true
  active : ∀ {i : Nat} {h : Handler} {r : RequestRef}, g.handlers[i]? = some h →
    g.activeGatewayRequests.get? h.requestId = some r → r = h.item
  owned : ∀ {i : Nat} {h : Handler} {requestId : String} {r : RequestRef}, g.handlers[i]? = some h →
    g.activeGatewayRequests.get? requestId = some r → h.item = r → h.requestId = requestId
  activeMade : ∀ {requestId : String} {r : RequestRef}, g.activeGatewayRequests.get? requestId = some r → r < g.created
  own : ∀ {i : Nat} {h : Handler}, g.handlers[i]? = some h → g.Own h

/-- What is stored as over stays as it is. -/
def Kept (g g' : Gateway backend) : Prop :=
  ∀ requestId record, g.platformRequests.get? requestId = some record → record.terminal = true →
    ∃ record', g'.platformRequests.get? requestId = some record' ∧ record'.status = record.status

theorem Kept.of_store (same : g'.platformRequests = g.platformRequests) : g.Kept g' :=
  fun _ record found _ => ⟨record, by rw [same]; exact found, rfl⟩

theorem Kept.trans (first : g.Kept g₁) (second : g₁.Kept g₂) : g.Kept g₂ := by
  intro requestId record found isOver
  obtain ⟨middle, found, same⟩ := first requestId record found isOver
  have still : middle.terminal = true := by
    unfold RequestRecord.terminal
    rw [same]
    exact isOver
  obtain ⟨last, found, after⟩ := second requestId middle found still
  exact ⟨last, found, after.trans same⟩

theorem recordState_none_of_running {status : RequestStatus} (running : status = .running) : status.recordState = none := by
  rw [running]
  rfl

/-- A handler that nothing touches. -/
theorem Own.frame (own : g.Own h) (status : g'.status h.item = g.status h.item)
    (store : g'.platformRequests.get? h.requestId = g.platformRequests.get? h.requestId)
    (accepted : h.item ∈ g'.scheduler.accepted → h.item ∈ g.scheduler.accepted) : g'.Own h where
  alive := own.alive
  streaming live other member := own.streaming live other (accepted member)
  generating place := by
    rw [status]
    exact own.generating place
  agrees live record found isOver := by
    rw [store] at found
    rw [status]
    exact own.agrees live record found isOver

/-- Only the engine and one item have changed. -/
structure Quiet (item : RequestRef) (g g₁ : Gateway backend) : Prop where
  touches : Touches item g.shared g₁.shared
  tasks : g₁.scheduler.tasks = g.scheduler.tasks
  accepted : g₁.scheduler.accepted = g.scheduler.accepted
  store : g₁.platformRequests = g.platformRequests
  active : g₁.activeGatewayRequests = g.activeGatewayRequests
  handlers : g₁.handlers = g.handlers
  created : g₁.created = g.created

namespace Quiet

variable {item : RequestRef}

theorem refl : Quiet item g g := ⟨.refl, rfl, rfl, rfl, rfl, rfl, rfl⟩

theorem trans (first : Quiet item g g₁) (second : Quiet item g₁ g₂) : Quiet item g g₂ :=
  ⟨first.touches.trans second.touches, second.tasks.trans first.tasks, second.accepted.trans first.accepted,
    second.store.trans first.store, second.active.trans first.active, second.handlers.trans first.handlers,
    second.created.trans first.created⟩

theorem onEngine {f : Engine S → Engine S} : Quiet item g (g.onEngine f) := ⟨.refl, rfl, rfl, rfl, rfl, rfl, rfl⟩

theorem withEngine {engine : Option (Configuration backend)} : Quiet item g { g with engine } :=
  ⟨.refl, rfl, rfl, rfl, rfl, rfl, rfl⟩

theorem withShared {shared : Scheduling} (touches : Touches item g.shared shared) : Quiet item g (g.withShared shared) :=
  ⟨touches, rfl, rfl, rfl, rfl, rfl, rfl⟩

theorem others (quiet : Quiet item g g₁) {q : RequestRef} (other : q ≠ item) : g₁.status q = g.status q := by
  unfold status Scheduling.status
  rw [quiet.touches.others q other]

theorem enlisted (quiet : Quiet item g g₁) (enlisted : g.scheduler.Enlisted) (other : item ∉ g.scheduler.accepted) :
    g₁.scheduler.Enlisted := by
  have after : g₁.scheduler = { g.scheduler with shared := g₁.shared } := by
    have tasks := quiet.tasks
    have accepted := quiet.accepted
    obtain ⟨⟨shared, tasks', accepted'⟩, engine, store, active, handlers, created⟩ := g₁
    dsimp only at tasks accepted
    rw [tasks, accepted]
    rfl
  rw [after]
  exact enlisted.touched quiet.touches other

end Quiet

/-- A handler's part of a step. -/
structure Moves (g : Gateway backend) (h h' : Handler) (g₁ : Gateway backend) : Prop where
  item : h'.item = h.item
  requestId : h'.requestId = h.requestId
  handlers : g₁.handlers = g.handlers
  created : g₁.created = g.created
  accepted : g₁.scheduler.accepted = g.scheduler.accepted
  enlisted : g₁.scheduler.Enlisted
  others : ∀ q, q ≠ h.item → g₁.status q = g.status q
  stored : ∀ requestId, g.platformRequests.contains requestId = true → g₁.platformRequests.contains requestId = true
  elsewhere : ∀ requestId, requestId ≠ h.requestId → g₁.platformRequests.get? requestId = g.platformRequests.get? requestId
  active : ∀ requestId r, g₁.activeGatewayRequests.get? requestId = some r → g.activeGatewayRequests.get? requestId = some r
  own : g₁.Own h'
  kept : ∀ record, g.platformRequests.get? h.requestId = some record → record.terminal = true →
    ∃ record', g₁.platformRequests.get? h.requestId = some record' ∧ record'.status = record.status

namespace Moves

/-- What comes before a handler's move changes its item at most. -/
theorem after (quiet : Quiet h.item g g₁) (moves : Moves g₁ h h' g₂) : Moves g h h' g₂ where
  item := moves.item
  requestId := moves.requestId
  handlers := moves.handlers.trans quiet.handlers
  created := moves.created.trans quiet.created
  accepted := moves.accepted.trans quiet.accepted
  enlisted := moves.enlisted
  others q other := (moves.others q other).trans (quiet.others other)
  stored requestId known := moves.stored requestId (by rw [quiet.store]; exact known)
  elsewhere requestId other := (moves.elsewhere requestId other).trans (by rw [quiet.store])
  active requestId r found := by
    rw [← quiet.active]
    exact moves.active requestId r found
  own := moves.own
  kept record found := moves.kept record (by rw [quiet.store]; exact found)

/-- A move that saves nothing, and writes no status where the stored record is over. -/
theorem of_quiet (quiet : Quiet h.item g g₁) (enlisted : g₁.scheduler.Enlisted) (own : g.Own h) {place : HandlerPlace}
    (live : h.live) (streams : h.place ≠ .waiting)
    (generates : place.generating = true → h.place.generating = true ∧ g₁.status h.item = g.status h.item)
    (keeps : g.Over h → g₁.status h.item = g.status h.item) : Moves g h { h with place } g₁ where
  item := rfl
  requestId := rfl
  handlers := quiet.handlers
  created := quiet.created
  accepted := quiet.accepted
  enlisted := enlisted
  others q other := quiet.others other
  stored requestId known := by
    rw [quiet.store]
    exact known
  elsewhere requestId other := by rw [quiet.store]
  active requestId r found := by
    rw [← quiet.active]
    exact found
  own := {
    alive := fun _ => own.alive live
    streaming := fun _ _ => by
      rw [quiet.accepted]
      exact own.streaming live streams
    generating := fun here => by
      obtain ⟨before, same⟩ := generates here
      have now := own.generating before
      rw [← same] at now
      exact now
    agrees := fun _ record found isOver => by
      rw [quiet.store] at found
      have same := keeps ⟨record, found, isOver⟩
      dsimp only
      rw [same]
      exact own.agrees live record found isOver }
  kept record found isOver := ⟨record, by rw [quiet.store]; exact found, rfl⟩

end Moves

theorem not_ended {place : HandlerPlace} (here : h.place = place) (open_ : ∀ result, place ≠ .ended result) : h.live := by
  intro result same
  exact open_ result (here.symm.trans same)

/-- A handler that has returned promises nothing. -/
theorem Own.ended {result : Except Raised Unit} : g.Own { h with place := .ended result } where
  alive live := (live result rfl).elim
  streaming live := (live result rfl).elim
  generating impossible := by cases impossible
  agrees live := (live result rfl).elim

theorem Coherent.handled (coherent : g.Coherent) (found : g.handlers[i]? = some h) (moves : Moves g h h' g₁) :
    Coherent { g₁ with handlers := g₁.handlers.set i h' } ∧ g.Kept { g₁ with handlers := g₁.handlers.set i h' } := by
  have before : ∀ {j : Nat} {k : Handler}, (g₁.handlers.set i h')[j]? = some k →
      ∃ k₀, g.handlers[j]? = some k₀ ∧ k.item = k₀.item ∧ k.requestId = k₀.requestId ∧ (j = i ∧ k = h' ∨ j ≠ i ∧ k = k₀) := by
    intro j k here
    rw [moves.handlers, List.getElem?_set] at here
    split at here
    · rename_i same
      split at here
      · cases here
        exact ⟨h, same ▸ found, moves.item, moves.requestId, Or.inl ⟨same.symm, rfl⟩⟩
      · cases here
    · rename_i differ
      exact ⟨k, here, rfl, rfl, Or.inr ⟨fun same => differ same.symm, rfl⟩⟩
  refine ⟨⟨moves.enlisted, ?_, ?_, ?_, ?_, ?_, ?_, ?_, ?_⟩, ?_⟩
  · intro r member
    rw [moves.accepted] at member
    rw [moves.created]
    exact coherent.accepted r member
  · intro j k here
    obtain ⟨k₀, there, item, -, -⟩ := before here
    rw [item, moves.created]
    exact coherent.made there
  · intro j j' k k' here here' same
    obtain ⟨k₀, there, item, requestId, -⟩ := before here
    obtain ⟨k₁, there', item', requestId', -⟩ := before here'
    rw [item, item', requestId, requestId'] at same
    exact coherent.distinct there there' same
  · intro j k here
    obtain ⟨k₀, there, -, requestId, -⟩ := before here
    rw [requestId]
    exact moves.stored _ (coherent.stored there)
  · intro j k r here live
    obtain ⟨k₀, there, item, requestId, -⟩ := before here
    rw [requestId] at live
    rw [item]
    exact coherent.active there (moves.active _ r live)
  · intro j k id r here live same
    obtain ⟨k₀, there, item, requestId, -⟩ := before here
    rw [item] at same
    rw [requestId]
    exact coherent.owned there (moves.active _ r live) same
  · intro id r live
    rw [moves.created]
    exact coherent.activeMade (moves.active id r live)
  · intro j k here
    obtain ⟨k₀, there, item, requestId, ⟨rfl, rfl⟩ | ⟨differ, rfl⟩⟩ := before here
    · exact ⟨moves.own.alive, moves.own.streaming, moves.own.generating, moves.own.agrees⟩
    · have otherItem : k.item ≠ h.item := fun same => differ (coherent.distinct there found (Or.inl same))
      have otherId : k.requestId ≠ h.requestId := fun same => differ (coherent.distinct there found (Or.inr same))
      refine (coherent.own there).frame (moves.others _ otherItem) (moves.elsewhere _ otherId) fun member => ?_
      rw [← moves.accepted]
      exact member
  · intro id record stored isOver
    by_cases same : id = h.requestId
    · subst same
      exact moves.kept record stored isOver
    · exact ⟨record, (moves.elsewhere id same).trans stored, rfl⟩

end Gateway

end ServingPlatform
