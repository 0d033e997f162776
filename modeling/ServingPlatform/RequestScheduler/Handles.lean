import ServingPlatform.RequestScheduler.Accounts

namespace ServingPlatform

open Scheduling

namespace Accounted

variable {s : Scheduling} {accepted : List RequestRef} {place : Place}

/-- Cancelling is the client's way to end a request. -/
theorem cancel (a : Accounted s accepted place) {r : RequestRef} {reason : String} :
    Accounted (s.cancel r reason) accepted place :=
  a.moved .cancel (fun _ member => Or.inr member) (fun _ mention => mention) (le_refl _) a.sound a.leaving

/-- A request that `submit` refuses is over. -/
theorem refused (a : Accounted s accepted place) {r : RequestRef} {t : Scheduling} {message : String}
    (from_ : t = s.createFuture r ∨ t = (s.createFuture r).markQueued r) :
    Accounted (t.finish r .rejected message) accepted place := by
  have touches : Touches r s t := by
    rcases from_ with rfl | rfl
    · exact .set
    · exact Touches.set.trans (Touches.monotonic.trans .set)
  have pending : (t.requests r).future = .pending := by
    rcases from_ with rfl | rfl
    · exact congrArg InferenceRequest.future requests_set_self
    · have marked : (((s.createFuture r).markQueued r).requests r).future = ((s.createFuture r).requests r).future := by
        unfold markQueued
        dsimp only
        rw [requests_set_self]
        rfl
      rw [marked]
      exact congrArg InferenceRequest.future requests_set_self
  have ends : Ends r t (t.finish r .rejected message) := Ends.finish rfl
  have both : Touches r s (t.finish r .rejected message) := touches.trans ends.toTouches
  have tracked : (t.finish r .rejected message).Tracked r := ends.tracked (by simp [pending])
  refine ⟨fun q member => ?_, fun q member => ?_, ?_, a.mentioned, ?_, ?_, ?_, a.sound, ?_⟩
  · by_cases same : q = r
    · rw [same]
      exact tracked
    · unfold Tracked
      rw [both.others q same]
      exact a.tracked q member
  · by_cases same : q = r
    · rw [same]
      exact Or.inl ends.terminal
    · rw [both.others q same, both.queue]
      exact a.covered q member
  · rw [both.queue]
    exact a.known
  · rw [both.queue]
    exact a.counted
  · rw [both.queue, both.accepting]
    exact a.open_
  · rw [both.queue, both.accepting]
    exact a.closed
  · rw [both.accepting]
    exact a.leaving

/-- A request that `submit` accepts waits in the queue. -/
theorem accept (a : Accounted s accepted place) {r : RequestRef} {size : Nat} (accepting : s.accepting = true) :
    Accounted { (s.createFuture r).markQueued r with
      queue := { s.queue with items := s.queue.items ++ [some r], unfinished := s.queue.unfinished + 1 }
      maxObservedSize := size } (r :: accepted) place := by
  have touches : Touches r s ((s.createFuture r).markQueued r) := Touches.set.trans (Touches.monotonic.trans .set)
  have status : ((s.createFuture r).markQueued r).status r = .queued := by rw [status_markQueued, if_pos rfl]
  have future : (((s.createFuture r).markQueued r).requests r).future = .pending := by
    unfold markQueued
    dsimp only
    rw [requests_set_self]
    exact congrArg InferenceRequest.future requests_set_self
  have tracked : ((s.createFuture r).markQueued r).Tracked r := by
    refine ⟨by simp [future], fun isOver => ?_⟩
    unfold InferenceRequest.terminal at isOver
    unfold Scheduling.status at status
    rw [status] at isOver
    cases isOver
  have counted := a.counted
  refine ⟨fun q member => ?_, fun q member => ?_, fun q waits => ?_, fun q mention => ?_, ?_, fun _ inside => ?_, fun shut => ?_,
    a.sound, fun left => ?_⟩
  · by_cases same : q = r
    · rw [same]
      exact tracked
    · unfold Tracked
      dsimp only
      rw [touches.others q same]
      exact a.tracked q ((List.mem_cons.mp member).resolve_left same)
  · dsimp only
    by_cases same : q = r
    · rw [same]
      exact Or.inr (Or.inl (by simp))
    · rw [touches.others q same]
      rcases a.covered q ((List.mem_cons.mp member).resolve_left same) with isOver | waits | held
      · exact Or.inl isOver
      · exact Or.inr (Or.inl (List.mem_append_left _ waits))
      · exact Or.inr (Or.inr held)
  · rcases List.mem_append.mp waits with waits | new
    · exact List.mem_cons_of_mem _ (a.known q waits)
    · obtain rfl : q = r := by simpa using new
      exact List.mem_cons_self
  · exact List.mem_cons_of_mem _ (a.mentioned q mention)
  · dsimp only
    rw [List.length_append, List.length_singleton]
    omega
  · have before := a.open_ accepting
    rcases List.mem_append.mp inside with inside | new
    · exact before inside
    · simp at new
  · have still : s.accepting = false := shut
    rw [accepting] at still
    cases still
  · have still := a.leaving left
    rw [accepting] at still
    cases still

end Accounted

namespace Scheduling

variable {s s' : Scheduling} {items : List (Option RequestRef)}

theorem turnAway_over {r : RequestRef} : ((s.turnAway (some r)).requests r).terminal = true :=
  (Ends.finish rfl : Ends r s (s.finish r .rejected "server is shutting down")).terminal

/-- `close` empties the queue; whoever waited is over. -/
theorem drain_empties (all : s.queue.items = items) (enough : items.length ≤ s.queue.unfinished) (rejected : Nat) :
    ∃ n s', s.drain rejected items = (.ok n, s') ∧
      s'.queue = ⟨[], s.queue.maxsize, s.queue.unfinished - items.length⟩ ∧ s'.accepting = s.accepting ∧
      (∀ r, s.Tracked r → s'.Tracked r) ∧ (∀ r, (s.requests r).terminal = true → (s'.requests r).terminal = true) ∧
      ∀ r, some r ∈ items → (s'.requests r).terminal = true := by
  induction items generalizing s rejected with
  | nil =>
    refine ⟨rejected, s, rfl, ?_, rfl, fun _ tracked => tracked, fun _ isOver => isOver, fun _ waits => by cases waits⟩
    obtain ⟨requests, ⟨items, maxsize, unfinished⟩, accepting, size, metrics, clock⟩ := s
    dsimp only at all
    subst all
    rfl
  | cons item rest ih =>
    rw [List.length_cons] at enough
    have calm : Calm { s with queue := { s.queue with items := rest } }
        ({ s with queue := { s.queue with items := rest } }.turnAway item) := .turnAway
    have ends : ∀ r, some r = item →
        (({ s with queue := { s.queue with items := rest } }.turnAway item).requests r).terminal = true := by
      rintro r rfl
      exact turnAway_over
    unfold drain
    generalize ({ s with queue := { s.queue with items := rest } } : Scheduling).turnAway item = t at calm ends ⊢
    have queue := calm.queue
    have accepting := calm.accepting
    dsimp only at queue accepting
    rcases t.taskDone_cases with ⟨spent, e, done⟩ | ⟨n, left, done⟩
    · rw [queue] at spent
      dsimp only at spent
      omega
    rw [queue] at left
    dsimp only at left
    obtain ⟨m, s', run, emptied, same, tracked, isOver, rest_over⟩ := ih (s := { t with queue := { t.queue with unfinished := n } })
      (by simp [queue]) (by dsimp only; omega) (rejected + if item.isSome then 1 else 0)
    refine ⟨m, s', ?_, ?_, same.trans accepting, fun r known => tracked r (calm.tracked r known),
      fun r before => isOver r (calm.isOver r before), fun r waits => ?_⟩
    · rw [done]
      exact run
    · rw [emptied, queue, List.length_cons]
      dsimp only
      congr 1
      omega
    · rcases List.mem_cons.mp waits with first | later
      · exact isOver r (ends r first)
      · exact rest_over r later

end Scheduling

namespace Accounted

variable {s : Scheduling} {accepted : List RequestRef} {place : Place}

theorem close (a : Accounted s accepted place) : Accounted s.close.2 accepted place := by
  unfold Scheduling.close
  split
  · exact a
  rename_i accepting
  have enough : s.queue.items.length ≤ s.queue.unfinished := by
    have counted := a.counted
    omega
  obtain ⟨n, t, run, emptied, shut, tracked, isOver, drained⟩ :=
    drain_empties (s := { s with accepting := false }) rfl enough 0
  dsimp only at emptied shut
  have run' : ({ s with accepting := false }.drain 0 s.queue.items) = (.ok n, t) := run
  rw [run']
  dsimp only
  rcases t.putNowait_cases none with ⟨full, -⟩ | ⟨-, put⟩
  · exfalso
    rw [emptied] at full
    simp only [AsyncQueue.full, List.length_nil, Bool.and_eq_true, decide_eq_true_eq] at full
    omega
  rw [put]
  dsimp only
  have counted := a.counted
  refine ⟨fun r member => tracked r (a.tracked r member), fun r member => ?_, fun r waits => ?_, a.mentioned, ?_, ?_,
    fun _ => Or.inr ?_, a.sound, fun _ => shut⟩
  · rcases a.covered r member with before | waits | held
    · exact Or.inl (isOver r before)
    · exact Or.inl (drained r waits)
    · exact Or.inr (Or.inr held)
  · rw [emptied] at waits
    simp at waits
  · rw [emptied]
    simp only [List.nil_append, List.length_singleton]
    omega
  · intro still
    dsimp only at still
    rw [shut] at still
    cases still
  · rw [emptied]
    rfl

/-- When the scheduler has ended, every accepted request is over and its future is done. -/
theorem settled {result : Except Raised Unit} (a : Accounted s accepted (.ended result)) {r : RequestRef}
    (member : r ∈ accepted) : (s.requests r).settled := by
  have isOver : (s.requests r).terminal = true := by
    rcases a.covered r member with isOver | waits | held
    · exact isOver
    · rcases a.closed (a.leaving trivial) with empty | signal
      · rw [empty] at waits
        cases waits
      · rw [signal] at waits
        simp at waits
    · cases held
  exact ⟨isOver, (a.tracked r member).2 isOver⟩

end Accounted

namespace SchedulerSystem

section Steps

variable {settings : SchedulerSettings} {s s' first : SchedulerSystem} {action : SchedulerAction}

/-- One `run_scheduler` task and its clients. The task is cancelled only after `close`. -/
def Shutdown (s : SchedulerSystem) : SchedulerAction → Prop
  | .call _ => False
  | .interrupt _ => s.shared.accepting = false
  | _ => True

/-- If the scheduler is cancelled, the requests that it would forget are over. -/
def ForgetsNothing (s : SchedulerSystem) : SchedulerAction → Prop
  | .interrupt task => ∀ place, s.tasks[task]? = some place → ∀ r ∈ place.forgets, (s.shared.requests r).terminal = true
  | _ => True

/-- The invariant of a system with one scheduler. -/
def Handled (s : SchedulerSystem) : Prop := ∃ place, s.tasks = [place] ∧ Accounted s.shared s.accepted place

theorem Handled.init (maximum : Int) (requests : RequestRef → InferenceRequest) (clock : Nat → Seconds) :
    Handled ⟨.init maximum requests clock, [.gettingFirst], []⟩ := by
  refine ⟨.gettingFirst, rfl, ?_, ?_, ?_, ?_, Nat.zero_le _, ?_, ?_, trivial, fun left => left.elim⟩
  · exact fun r member => by cases member
  · exact fun r member => by cases member
  · exact fun r waits => by cases waits
  · exact fun r mention => by cases mention
  · exact fun _ inside => by cases inside
  · exact fun _ => Or.inl rfl

theorem sole {place here : Place} {task : Nat} (only : s.tasks = [place]) (found : s.tasks[task]? = some here) :
    here = place ∧ task = 0 := by
  rw [only] at found
  cases task with
  | zero => exact ⟨(Option.some.inj found).symm, rfl⟩
  | succ n => cases found

theorem Handled.step (handled : s.Handled) (shutdown : s.Shutdown action) (forgets : s.ForgetsNothing action)
    (step : s.step settings action = some s') : s'.Handled := by
  obtain ⟨place, only, a⟩ := handled
  cases action with
  | submit r =>
    simp only [SchedulerSystem.step] at step
    split at step
    · rcases s.shared.submit_cases r with ⟨-, e, t, message, run, from_⟩ | ⟨accepting, -, size, run⟩
      · rw [run] at step
        cases step
        exact ⟨place, only, a.refused from_⟩
      · rw [run] at step
        cases step
        exact ⟨place, only, a.accept accepting⟩
    · cases step
  | cancel r reason =>
    simp only [SchedulerSystem.step] at step
    split at step <;> cases step
    exact ⟨place, only, a.cancel⟩
  | close =>
    simp only [SchedulerSystem.step] at step
    split at step <;> cases step
    exact ⟨place, only, a.close⟩
  | call call => exact shutdown.elim
  | resume task resumption =>
    simp only [SchedulerSystem.step] at step
    split at step
    · cases found : s.tasks[task]? with
      | none =>
        rw [found] at step
        cases step
      | some here =>
        rw [found] at step
        obtain ⟨⟨place', shared⟩, run, rfl⟩ := Option.map_eq_some_iff.mp step
        obtain ⟨rfl, rfl⟩ := sole only found
        refine ⟨place', ?_, a.advance run⟩
        dsimp only
        rw [only]
        rfl
    · cases step
  | interrupt task =>
    simp only [SchedulerSystem.step] at step
    split at step
    · cases found : s.tasks[task]? with
      | none =>
        rw [found] at step
        cases step
      | some here =>
        rw [found] at step
        obtain ⟨⟨place', shared⟩, run, rfl⟩ := Option.map_eq_some_iff.mp step
        have nothing := forgets here found
        obtain ⟨rfl, rfl⟩ := sole only found
        refine ⟨place', ?_, a.interrupt shutdown nothing run⟩
        dsimp only
        rw [only]
        rfl
    · cases step

theorem resume_allowed (s : SchedulerSystem) (resumption : Resumption) :
    s.Shutdown (.resume 0 resumption) ∧ s.ForgetsNothing (.resume 0 resumption) := ⟨trivial, trivial⟩

theorem Handled.run (handled : first.Handled)
    (run : SchedulerRun settings (fun s action => s.Shutdown action ∧ s.ForgetsNothing action) first s) : s.Handled := by
  induction run with
  | start => exact handled
  | next _ allowed step ih => exact ih.step allowed.1 allowed.2 step

/-- The task is cancelled and will not touch the request again. -/
def Gone (r : RequestRef) : Place → Prop
  | .abandoning _ _ rest => r ∉ rest
  | .returning _ _ (.error _) | .ended _ => True
  | _ => False

theorem Gone.advance {t t' : Scheduling} {place place' : Place} {resumption : Resumption} {r : RequestRef}
    (gone : Gone r place) (step : place.advance settings t resumption = some (place', t')) :
    Gone r place' ∧ t'.requests r = t.requests r := by
  cases place <;> try exact gone.elim
  · rename_i caller queuedItems rest
    cases resumption <;> cases rest <;> try cases step
    · exact ⟨trivial, rfl⟩
    · rename_i q rest
      have other : r ≠ q := fun same => gone (same ▸ List.mem_cons_self)
      exact ⟨fun inside => gone (List.mem_cons_of_mem _ inside), (Touches.finish.trans .record).others r other⟩
  · rename_i caller queuedItems result
    cases result with
    | ok _ => exact gone.elim
    | error e =>
      cases resumption <;> cases caller <;> try cases step
      · exact ⟨trivial, rfl⟩
      rename_i b deferred
      have kept : (t.leave queuedItems b (.error e)).2.requests = t.requests := requests_leave
      have raises : ∀ u, (t.leave queuedItems b (.error e)).1 ≠ .ok u := by
        intro u
        unfold Scheduling.leave
        dsimp only
        split <;> simp
      simp only [Place.advance] at step
      rcases run : t.leave queuedItems b (.error e) with ⟨e' | u, t₁⟩
      · rw [run] at step kept
        cases step
        exact ⟨trivial, congrFun kept r⟩
      · exact absurd (by rw [run]) (raises u)
  · cases step

theorem interrupt_gone {t t' : Scheduling} {place place' : Place} (step : place.interrupt t = some (place', t'))
    {r : RequestRef} (forgotten : r ∈ place.forgets) : Gone r place' ∧ t'.requests r = t.requests r := by
  cases place <;> try cases step
  · cases forgotten
  · exact ⟨trivial, rfl⟩
  · obtain ⟨-, other⟩ := List.mem_filter.mp forgotten
    exact ⟨by simpa [Gone] using other, rfl⟩
  · rename_i caller q
    obtain ⟨-, other⟩ := List.mem_filter.mp forgotten
    exact ⟨trivial, (Touches.finish.trans .record).others r (of_decide_eq_true other)⟩

theorem forgets_sub_mentions {place : Place} {r : RequestRef} (forgotten : r ∈ place.forgets) : r ∈ place.mentions := by
  cases place <;> try cases forgotten
  · exact forgotten
  · exact List.mem_append_right _ (List.mem_filter.mp forgotten).1
  · exact List.mem_cons_of_mem _ (List.mem_filter.mp forgotten).1

/-- What the scheduler forgets stays as it is until the task has ended. -/
theorem gone_run {r : RequestRef}
    (run : SchedulerRun settings (fun _ action => ∃ resumption, action = .resume 0 resumption) first s)
    (gone : ∃ place, first.tasks = [place] ∧ Gone r place) :
    (∃ place, s.tasks = [place] ∧ Gone r place) ∧ s.shared.requests r = first.shared.requests r ∧
      s.accepted = first.accepted := by
  induction run with
  | start => exact ⟨gone, rfl, rfl⟩
  | @next middle last action _ allowed step ih =>
    obtain ⟨⟨place, only, left⟩, same, accepted⟩ := ih
    obtain ⟨resumption, rfl⟩ := allowed
    simp only [SchedulerSystem.step, only, List.getElem?_cons_zero] at step
    split at step
    · obtain ⟨⟨place', shared⟩, advanced, rfl⟩ := Option.map_eq_some_iff.mp step
      obtain ⟨still, kept⟩ := left.advance advanced
      exact ⟨⟨place', rfl, still⟩, kept.trans same, accepted⟩
    · cases step

end Steps

/-- In every run that ends with the scheduler, normally or by cancellation
after `close`, all that `submit` accepted is settled, provided that the
scheduler is only cancelled when what it would forget is over. Where it is
cancelled otherwise, something stays unsettled. -/
theorem accepted_requests_settled (settings : SchedulerSettings) (maximum : Int)
    (requests : RequestRef → InferenceRequest) (clock : Nat → Seconds) (s : SchedulerSystem)
    (run : SchedulerRun settings (fun s action => s.Shutdown action ∧ s.ForgetsNothing action)
      ⟨.init maximum requests clock, [.gettingFirst], []⟩ s) :
    (∀ result, s.tasks = [.ended result] → ∀ r ∈ s.accepted, (s.shared.requests r).settled) ∧
    ∀ s₁ s₂ result, s.shared.accepting = false → s.step settings (.interrupt 0) = some s₁ →
      SchedulerRun settings (fun _ action => ∃ resumption, action = .resume 0 resumption) s₁ s₂ →
      s₂.tasks = [.ended result] →
      ((∀ r ∈ s₂.accepted, (s₂.shared.requests r).settled) ↔ s.ForgetsNothing (.interrupt 0)) := by
  have handled := (Handled.init maximum requests clock).run run
  refine ⟨fun result ended r member => ?_, fun s₁ s₂ result closed interrupted rest ended => ⟨fun settled => ?_, ?_⟩⟩
  · obtain ⟨place, only, a⟩ := handled
    obtain rfl : place = .ended result := by simpa [only] using ended
    exact a.settled member
  · -- What was forgotten unsettled is still unsettled at the end.
    obtain ⟨place, only, a⟩ := handled
    intro here found r forgotten
    obtain ⟨rfl, -⟩ := sole only found
    simp only [SchedulerSystem.step, only, List.getElem?_cons_zero] at interrupted
    split at interrupted
    · obtain ⟨⟨place', shared⟩, cancelled, rfl⟩ := Option.map_eq_some_iff.mp interrupted
      obtain ⟨gone, kept⟩ := interrupt_gone cancelled forgotten
      obtain ⟨-, same, accepted⟩ := gone_run rest ⟨place', rfl, gone⟩
      have member : r ∈ s₂.accepted := accepted ▸ a.mentioned r (forgets_sub_mentions forgotten)
      have isOver := (settled r member).1
      rw [same] at isOver
      dsimp only at isOver
      rw [kept] at isOver
      exact isOver
    · cases interrupted
  · intro forgets r member
    have shutdown : s.Shutdown (.interrupt 0) := closed
    have stopping : s₁.Handled := handled.step shutdown forgets interrupted
    have stopped : s₂.Handled := by
      clear ended member
      induction rest with
      | start => exact stopping
      | next _ allowed step ih =>
        obtain ⟨resumption, rfl⟩ := allowed
        exact ih.step (resume_allowed _ resumption).1 (resume_allowed _ resumption).2 step
    obtain ⟨place, only, a⟩ := stopped
    obtain rfl : place = .ended result := by simpa [only] using ended
    exact a.settled member

open Sample in
/-- A scheduler that is cancelled while it collects a batch forgets the request it began with. -/
theorem collected_request_forgotten :
    ∃ s, start.perform settings [.submit 0, .resume 0 .proceed, .resume 0 .proceed, .resume 0 .proceed, .close,
        .interrupt 0, .resume 0 .proceed] = some s ∧
      s.tasks = [.ended (.error taskCancelled)] ∧ s.accepted = [0] ∧ ¬(s.shared.requests 0).settled := by
  refine ⟨_, by rfl, rfl, rfl, fun settled => ?_⟩
  cases settled.1

open Sample in
theorem accepted_requests_settled_closed :
    ∃ s, start.perform settings [.submit 0, .close, .resume 0 .proceed] = some s ∧ s.tasks = [.ended (.ok ())] ∧
      s.accepted = [0] ∧ (s.shared.requests 0).settled := by
  have submitted : ∀ s, Shutdown s (.submit 0) ∧ ForgetsNothing s (.submit 0) := fun _ => ⟨trivial, trivial⟩
  have closed : ∀ s, Shutdown s .close ∧ ForgetsNothing s .close := fun _ => ⟨trivial, trivial⟩
  refine ⟨_, by rfl, rfl, rfl, ?_⟩
  refine (accepted_requests_settled settings 8 (fun _ => request) (fun n => n + 1) _ ?_).1 (.ok ()) rfl 0
    List.mem_cons_self
  exact .next (.next (.next .start (submitted _) rfl) (closed _) rfl) (resume_allowed _ .proceed) rfl

end SchedulerSystem

end ServingPlatform
