import ServingPlatform.RequestScheduler.Handles
import ServingPlatform.RequestScheduler.Writes

namespace ServingPlatform

open Scheduling

namespace Accounted

variable {settings : SchedulerSettings} {s s' : Scheduling} {accepted : List RequestRef} {place place' : Place} {r : RequestRef}

/-- A change to a request that was never accepted. -/
theorem touched (a : Accounted s accepted place) (touches : Touches r s s') (other : r ∉ accepted) :
    Accounted s' accepted place := by
  have same : ∀ q ∈ accepted, s'.requests q = s.requests q :=
    fun q member => touches.others q fun here => other (here ▸ member)
  refine ⟨fun q member => ?_, fun q member => ?_, ?_, a.mentioned, ?_, ?_, ?_, a.sound, ?_⟩
  · unfold Tracked
    rw [same q member]
    exact a.tracked q member
  · rw [same q member, touches.queue]
    exact a.covered q member
  · rw [touches.queue]
    exact a.known
  · rw [touches.queue]
    exact a.counted
  · rw [touches.queue, touches.accepting]
    exact a.open_
  · rw [touches.queue, touches.accepting]
    exact a.closed
  · rw [touches.accepting]
    exact a.leaving

/-- Of a scheduler that is cancelled after `close`, what it still mentions stays accounted for. -/
theorem cut (a : Accounted s accepted place) (closed : s.accepting = false) (calm : Calm s s')
    (mentions : ∀ r ∈ place'.mentions, r ∈ place.mentions) (holds : place'.holds = place'.mentions)
    (owes : place'.owes ≤ place.owes) (sound : place'.Sound) :
    ∃ kept, (∀ r ∈ kept, r ∈ accepted) ∧ Accounted s' kept place' := by
  refine ⟨accepted.filter fun r => (s'.requests r).terminal ∨ r ∈ place'.mentions,
    fun r member => (List.mem_filter.mp member).1, fun r member => ?_, fun r member => ?_, fun r waits => ?_,
    fun r mention => ?_, ?_, ?_, ?_, sound, fun _ => ?_⟩
  · exact calm.tracked r (a.tracked r (List.mem_filter.mp member).1)
  · rcases of_decide_eq_true (List.mem_filter.mp member).2 with isOver | mention
    · exact Or.inl isOver
    · exact Or.inr (Or.inr (holds ▸ mention))
  · rw [calm.queue] at waits
    rcases a.closed closed with empty | signal
    · rw [empty] at waits
      cases waits
    · rw [signal] at waits
      simp at waits
  · exact List.mem_filter.mpr ⟨a.mentioned r (mentions r mention), decide_eq_true (Or.inr mention)⟩
  · have counted := a.counted
    rw [calm.queue]
    omega
  · rw [calm.queue, calm.accepting]
    exact a.open_
  · rw [calm.queue, calm.accepting]
    exact a.closed
  · rw [calm.accepting]
    exact closed

/-- The cancellation of a scheduler, whatever it forgets. -/
theorem interrupted (a : Accounted s accepted place) (closed : s.accepting = false)
    (step : place.interrupt s = some (place', s')) :
    ∃ kept, (∀ r ∈ kept, r ∈ accepted) ∧ Accounted s' kept place' := by
  cases place <;> try cases step
  · exact a.cut closed .refl (fun r mention => mention) rfl (le_refl _) (Or.inr rfl)
  · rename_i fromQueue c
    obtain ⟨⟨b, rfl⟩, -⟩ := a.sound
    refine a.cut closed .refl (fun r mention => by cases mention) rfl ?_ ⟨by simp [Caller.ofCollection], Or.inr rfl⟩
    simp only [Place.owes]
    omega
  · rename_i caller queuedItems active
    exact a.cut closed .refl (fun r mention => List.mem_append_left _ mention) rfl (le_refl _) a.sound
  · rename_i caller r
    have ends : Ends r s (((s.finish r .failed "shutdown grace period expired").record r).measure
        (·.modelExecutionFinished)) := (Ends.finish rfl).record.measure
    exact a.cut closed ends.calm (fun q mention => by cases mention) rfl (Nat.zero_add _).le ⟨a.sound, Or.inr rfl⟩

/-- A task writes to requests that it mentions, or that wait in the queue. -/
theorem written_accepted (a : Accounted s accepted place) {resumption : Resumption} {status : RequestStatus}
    (writes : place.written settings s resumption = some (r, status)) : r ∈ accepted := by
  have mentioned := a.mentioned r
  cases place with
  | loopHead deferred =>
    cases deferred with
    | nil => cases writes
    | cons first rest =>
      dsimp only [Place.written] at writes
      split at writes <;> cases writes
      exact mentioned List.mem_cons_self
  | scanning fromQueue c =>
    dsimp only [Place.written] at writes
    split at writes
    · split at writes
      · rename_i candidate rest held
        split at writes <;> cases writes
        refine mentioned (List.mem_append_right _ ?_)
        rw [held]
        exact List.mem_cons_self
      · cases writes
    · cases writes
  | waiting fromQueue c =>
    cases resumption <;> try cases writes
    dsimp only [Place.written] at writes
    split at writes
    · rename_i candidate t next
      split at writes <;> cases writes
      refine a.known r ?_
      unfold Scheduling.get? at next
      split at next
      · cases next
      · rename_i items
        cases next
        rw [items]
        exact List.mem_cons_self
    · cases writes
  | selecting caller queuedItems now rest active =>
    cases rest with
    | nil => cases writes
    | cons first rest =>
      dsimp only [Place.written] at writes
      split at writes <;> cases writes
      exact mentioned (by simp [Place.mentions, Place.holds])
  | starting caller first =>
    dsimp only [Place.written] at writes
    split at writes <;> cases writes
    exact mentioned (by simp [Place.mentions, Place.holds])
  | finishing caller queuedItems completed active rest results =>
    cases rest <;> cases results <;> cases writes
    exact mentioned (by simp [Place.mentions])
  | generatingOne caller first =>
    cases resumption <;> cases writes <;> exact mentioned (by simp [Place.mentions, Place.holds])
  | failing caller queuedItems message rest =>
    cases rest <;> cases writes
    exact mentioned (by simp [Place.mentions, Place.holds])
  | abandoning caller queuedItems rest =>
    cases rest <;> cases writes
    exact mentioned (by simp [Place.mentions, Place.holds])
  | gettingFirst => cases writes
  | gathering fromQueue c => cases writes
  | generatingBatch caller queuedItems active => cases writes
  | returning caller queuedItems result => cases writes
  | ended result => cases writes

end Accounted

namespace SchedulerSystem

variable {settings : SchedulerSettings} {s s' : SchedulerSystem} {shared : Scheduling} {r : RequestRef}

/-- One scheduler, which deals with accepted requests only. -/
def Enlisted (s : SchedulerSystem) : Prop :=
  ∃ place tracked, s.tasks = [place] ∧ (∀ r ∈ tracked, r ∈ s.accepted) ∧ Accounted s.shared tracked place

/-- What the lifespan does to the scheduler: it runs it, closes its queue, and then may cancel it. -/
def Lifespan (s : SchedulerSystem) : SchedulerAction → Prop
  | .close | .resume _ _ => True
  | .interrupt _ => s.shared.accepting = false
  | _ => False

namespace Enlisted

theorem init (maximum : Int) (requests : RequestRef → InferenceRequest) (clock : Nat → Seconds) :
    Enlisted ⟨.init maximum requests clock, [.gettingFirst], []⟩ := by
  obtain ⟨place, only, a⟩ := Handled.init maximum requests clock
  exact ⟨place, [], only, fun r member => (by cases member), a⟩

theorem touched (enlisted : s.Enlisted) (touches : Touches r s.shared shared) (other : r ∉ s.accepted) :
    Enlisted { s with shared } := by
  obtain ⟨place, tracked, only, sub, a⟩ := enlisted
  exact ⟨place, tracked, only, sub, a.touched touches fun member => other (sub r member)⟩

theorem calm (enlisted : s.Enlisted) (calm : Calm s.shared shared) : Enlisted { s with shared } := by
  obtain ⟨place, tracked, only, sub, a⟩ := enlisted
  exact ⟨place, tracked, only, sub, a.moved calm (fun _ member => Or.inr member) (fun _ mention => mention) (le_refl _)
    a.sound a.leaving⟩

theorem accept (enlisted : s.Enlisted) (submits : s.shared.submit r = (.ok (), shared)) :
    Enlisted { s with shared, accepted := r :: s.accepted } := by
  obtain ⟨place, tracked, only, sub, a⟩ := enlisted
  rcases s.shared.submit_cases r with ⟨-, e, t, message, run, -⟩ | ⟨accepting, -, size, run⟩
  · rw [run] at submits
    cases submits
  · rw [run] at submits
    cases submits
    refine ⟨place, r :: tracked, only, fun q member => ?_, a.accept accepting⟩
    rcases List.mem_cons.mp member with rfl | member
    · exact List.mem_cons_self
    · exact List.mem_cons_of_mem _ (sub q member)

theorem refuse (enlisted : s.Enlisted) {raised : Raised} (submits : s.shared.submit r = (.error raised, shared)) :
    Enlisted { s with shared } := by
  obtain ⟨place, tracked, only, sub, a⟩ := enlisted
  rcases s.shared.submit_cases r with ⟨-, e, t, message, run, from_⟩ | ⟨accepting, -, size, run⟩
  · rw [run] at submits
    cases submits
    exact ⟨place, tracked, only, sub, a.refused from_⟩
  · rw [run] at submits
    cases submits

theorem step (enlisted : s.Enlisted) {action : SchedulerAction} (lifespan : s.Lifespan action)
    (step : s.step settings action = some s') : s'.Enlisted ∧ s'.accepted = s.accepted := by
  obtain ⟨place, tracked, only, sub, a⟩ := enlisted
  cases action with
  | submit r => exact lifespan.elim
  | cancel r reason => exact lifespan.elim
  | call call => exact lifespan.elim
  | close =>
    simp only [SchedulerSystem.step] at step
    split at step <;> cases step
    exact ⟨⟨place, tracked, only, sub, a.close⟩, rfl⟩
  | resume task resumption =>
    simp only [SchedulerSystem.step] at step
    split at step
    · cases found : s.tasks[task]? with
      | none =>
        rw [found] at step
        cases step
      | some here =>
        rw [found] at step
        obtain ⟨⟨place', shared⟩, run, rfl⟩ := Option.map_eq_some_iff.mp step
        obtain ⟨rfl, rfl⟩ := sole only found
        refine ⟨⟨place', tracked, ?_, sub, a.advance run⟩, rfl⟩
        dsimp only
        rw [only]
        rfl
    · cases step
  | interrupt task =>
    simp only [SchedulerSystem.step] at step
    split at step
    · cases found : s.tasks[task]? with
      | none =>
        rw [found] at step
        cases step
      | some here =>
        rw [found] at step
        obtain ⟨⟨place', shared⟩, run, rfl⟩ := Option.map_eq_some_iff.mp step
        obtain ⟨rfl, rfl⟩ := sole only found
        obtain ⟨kept, part, b⟩ := a.interrupted lifespan run
        refine ⟨⟨place', kept, ?_, fun r member => sub r (part r member), b⟩, rfl⟩
        dsimp only
        rw [only]
        rfl
    · cases step

/-- The lifespan's steps write to accepted requests only. -/
theorem writes (enlisted : s.Enlisted) {action : SchedulerAction} (lifespan : s.Lifespan action) {status : RequestStatus}
    (writes : s.Writes settings action r status) : r ∈ s.accepted := by
  obtain ⟨place, tracked, only, sub, a⟩ := enlisted
  cases action with
  | submit q => exact lifespan.elim
  | cancel q reason => exact lifespan.elim
  | call call => exact lifespan.elim
  | close => exact sub r (a.known r (List.mem_of_mem_take writes.2.1))
  | resume task resumption =>
    obtain ⟨here, found, written⟩ := writes
    obtain ⟨rfl, rfl⟩ := sole only found
    exact sub r (a.written_accepted written)
  | interrupt task =>
    obtain ⟨⟨caller, found⟩, -⟩ := writes
    obtain ⟨rfl, rfl⟩ := sole only found
    exact sub r (a.mentioned r List.mem_cons_self)

end Enlisted

end SchedulerSystem

end ServingPlatform
