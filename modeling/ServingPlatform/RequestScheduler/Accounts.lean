import ServingPlatform.RequestScheduler.Endings

namespace ServingPlatform

open Scheduling

/-- The deque of the loop that waits for a call to return. -/
def Caller.deferred : Caller → List RequestRef
  | .direct => []
  | .scheduler _ deferred => deferred

/-- Whether the loop owes `queue.task_done()` for the first request. -/
def Caller.owes : Caller → Nat
  | .direct => 0
  | .scheduler fromQueue _ => fromQueue.toNat

namespace Place

/-- The requests that a scheduler at this place will still bring to an end. -/
def holds : Place → List RequestRef
  | .loopHead deferred => deferred
  | .scanning _ c | .gathering _ c | .waiting _ c => c.requests ++ c.deferred.getD []
  | .selecting caller _ _ rest active => rest ++ active ++ caller.deferred
  | .generatingBatch caller _ active => active ++ caller.deferred
  | .finishing caller _ _ _ rest _ => rest ++ caller.deferred
  | .failing caller _ _ rest => rest ++ caller.deferred
  | .abandoning _ _ rest => rest
  | .starting caller r | .generatingOne caller r => r :: caller.deferred
  | .returning caller _ (.ok ()) => caller.deferred
  | .returning _ _ (.error _) | .gettingFirst | .ended _ => []

/-- The requests that it may still write to. -/
def mentions : Place → List RequestRef
  | .finishing caller _ _ active rest _ => rest ++ active ++ caller.deferred
  | place => place.holds

/-- The calls of `queue.task_done()` that it owes. -/
def owes : Place → Nat
  | .scanning fromQueue c | .gathering fromQueue c | .waiting fromQueue c =>
    c.queuedItems + (Caller.ofCollection fromQueue c).owes
  | .selecting caller queuedItems .. | .generatingBatch caller queuedItems _ | .finishing caller queuedItems ..
  | .failing caller queuedItems .. | .abandoning caller queuedItems _ | .returning caller queuedItems _ =>
    queuedItems + caller.owes
  | .starting caller _ | .generatingOne caller _ => caller.owes
  | .loopHead _ | .gettingFirst | .ended _ => 0

/-- The places of `run_scheduler`, whose only exception is its cancellation. -/
def Sound : Place → Prop
  | .scanning fromQueue c => (∃ b, fromQueue = some b) ∧ ∃ deferred, c.deferred = some deferred ∧ c.toScan ≤ deferred.length
  | .gathering fromQueue c | .waiting fromQueue c => (∃ b, fromQueue = some b) ∧ ∃ deferred, c.deferred = some deferred
  | .selecting caller .. | .generatingBatch caller .. | .failing caller .. | .abandoning caller .. | .starting caller _
  | .generatingOne caller _ => caller ≠ .direct
  | .finishing caller _ _ active rest _ => caller ≠ .direct ∧ ∀ r ∈ rest, r ∈ active
  | .returning caller _ result => caller ≠ .direct ∧ (result = .ok () ∨ result = .error taskCancelled)
  | .ended result => result = .ok () ∨ result = .error taskCancelled
  | .loopHead _ | .gettingFirst => True

/-- The task is on its way out. -/
def Leaving : Place → Prop
  | .abandoning .. | .returning _ _ (.error _) | .ended _ => True
  | _ => False

/-- The requests that a cancelled scheduler forgets: those that it has
collected so far, and those that it has deferred. -/
def forgets : Place → List RequestRef
  | .waiting _ c => c.requests ++ c.deferred.getD []
  | .generatingBatch caller _ active => caller.deferred.filter (· ∉ active)
  | .generatingOne caller r => caller.deferred.filter (· ≠ r)
  | _ => []

end Place

/-- Every accepted request is over, in the queue, or held by the scheduler. -/
structure Accounted (s : Scheduling) (accepted : List RequestRef) (place : Place) : Prop where
  tracked : ∀ r ∈ accepted, s.Tracked r
  covered : ∀ r ∈ accepted, (s.requests r).terminal = true ∨ some r ∈ s.queue.items ∨ r ∈ place.holds
  known : ∀ r, some r ∈ s.queue.items → r ∈ accepted
  mentioned : ∀ r ∈ place.mentions, r ∈ accepted
  counted : s.queue.items.length + place.owes ≤ s.queue.unfinished
  open_ : s.accepting = true → none ∉ s.queue.items
  closed : s.accepting = false → s.queue.items = [] ∨ s.queue.items = [none]
  sound : place.Sound
  leaving : place.Leaving → s.accepting = false

namespace Accounted

variable {settings : SchedulerSettings} {s s' : Scheduling} {accepted : List RequestRef} {place place' : Place}

theorem holds_sub_mentions {r : RequestRef} (held : r ∈ place.holds) : r ∈ place.mentions := by
  cases place <;> try exact held
  unfold Place.holds at held
  unfold Place.mentions
  simp only [List.mem_append] at held ⊢
  rcases held with rest | deferred
  · exact Or.inl (Or.inl rest)
  · exact Or.inr deferred

/-- A step that leaves the queue alone. -/
theorem moved (a : Accounted s accepted place) (calm : Calm s s')
    (covered : ∀ r ∈ place.holds, (s'.requests r).terminal = true ∨ r ∈ place'.holds)
    (mentioned : ∀ r ∈ place'.mentions, r ∈ place.mentions) (owes : place'.owes ≤ place.owes) (sound : place'.Sound)
    (leaving : place'.Leaving → s.accepting = false) : Accounted s' accepted place' where
  tracked r member := calm.tracked r (a.tracked r member)
  covered r member := by
    rw [calm.queue]
    rcases a.covered r member with isOver | waits | held
    · exact Or.inl (calm.isOver r isOver)
    · exact Or.inr (Or.inl waits)
    · rcases covered r held with isOver | held
      · exact Or.inl isOver
      · exact Or.inr (Or.inr held)
  known := by
    rw [calm.queue]
    exact a.known
  mentioned r mention := a.mentioned r (mentioned r mention)
  counted := by
    have counted := a.counted
    rw [calm.queue]
    omega
  open_ := by
    rw [calm.queue, calm.accepting]
    exact a.open_
  closed := by
    rw [calm.queue, calm.accepting]
    exact a.closed
  sound := sound
  leaving left := by
    rw [calm.accepting]
    exact leaving left

/-- A request is set to run, whatever it was before. -/
theorem started (a : Accounted s accepted place) {r : RequestRef} (touches : Touches r s s')
    (future : (s'.requests r).future = (s.requests r).future) (running : s'.status r = .running) (held : r ∈ place'.holds)
    (holds : ∀ q ∈ place.holds, q ∈ place'.holds) (mentioned : ∀ q ∈ place'.mentions, q ∈ place.mentions)
    (owes : place'.owes ≤ place.owes) (sound : place'.Sound) (leaving : place'.Leaving → place.Leaving) :
    Accounted s' accepted place' where
  tracked q member := by
    by_cases same : q = r
    · subst same
      refine ⟨?_, fun isOver => ?_⟩
      · rw [future]
        exact (a.tracked q member).1
      · unfold InferenceRequest.terminal at isOver
        unfold status at running
        rw [running] at isOver
        cases isOver
    · unfold Tracked
      rw [touches.others q same]
      exact a.tracked q member
  covered q member := by
    rw [touches.queue]
    by_cases same : q = r
    · rw [same]
      exact Or.inr (Or.inr held)
    · rw [touches.others q same]
      rcases a.covered q member with isOver | waits | inside
      · exact Or.inl isOver
      · exact Or.inr (Or.inl waits)
      · exact Or.inr (Or.inr (holds q inside))
  known := by
    rw [touches.queue]
    exact a.known
  mentioned q mention := a.mentioned q (mentioned q mention)
  counted := by
    have counted := a.counted
    rw [touches.queue]
    omega
  open_ := by
    rw [touches.queue, touches.accepting]
    exact a.open_
  closed := by
    rw [touches.queue, touches.accepting]
    exact a.closed
  sound := sound
  leaving left := by
    rw [touches.accepting]
    exact a.leaving (leaving left)

/-- `queue.task_done()` for one item that is owed. -/
theorem taskDone (a : Accounted s accepted place) (owed : place'.owes + 1 ≤ place.owes) (holds : place'.holds = place.holds)
    (mentions : place'.mentions = place.mentions) (sound : place'.Sound) (leaving : place'.Leaving → place.Leaving) :
    ∃ s', s.taskDone = (.ok (), s') ∧ Accounted s' accepted place' := by
  have counted := a.counted
  rcases s.taskDone_cases with ⟨none, e, done⟩ | ⟨n, some, done⟩
  · omega
  refine ⟨_, done, a.tracked, ?_, a.known, ?_, ?_, a.open_, a.closed, sound, fun left => a.leaving (leaving left)⟩
  · rw [holds]
    exact a.covered
  · rw [mentions]
    exact a.mentioned
  · dsimp only
    omega

/-- The queue delivers a request, which the task then holds. -/
theorem taken (a : Accounted s accepted place) {r : RequestRef} (next : s.get? = some (some r, s'))
    (holds : ∀ q, q ∈ place.holds ∨ q = r → q ∈ place'.holds) (mentions : ∀ q ∈ place'.mentions, q ∈ place.mentions ∨ q = r)
    (owes : place'.owes ≤ place.owes + 1) (sound : place'.Sound) (leaving : place'.Leaving → place.Leaving) :
    Accounted s' accepted place' := by
  unfold Scheduling.get? at next
  cases items : s.queue.items with
  | nil =>
    rw [items] at next
    cases next
  | cons item rest =>
    rw [items] at next
    cases next
    have counted := a.counted
    rw [items, List.length_cons] at counted
    refine ⟨a.tracked, fun q member => ?_, fun q waits => ?_, fun q mention => ?_, ?_, fun accepting => ?_, fun shut => ?_,
      sound, fun left => a.leaving (leaving left)⟩
    · rcases a.covered q member with isOver | waits | held
      · exact Or.inl isOver
      · rw [items] at waits
        rcases List.mem_cons.mp waits with same | waits
        · cases same
          exact Or.inr (Or.inr (holds r (Or.inr rfl)))
        · exact Or.inr (Or.inl waits)
      · exact Or.inr (Or.inr (holds q (Or.inl held)))
    · exact a.known q (items ▸ List.mem_cons_of_mem _ waits)
    · rcases mentions q mention with before | rfl
      · exact a.mentioned q before
      · exact a.known q (items ▸ List.mem_cons_self)
    · dsimp only
      omega
    · exact fun inside => a.open_ accepting (items ▸ List.mem_cons_of_mem _ inside)
    · rcases a.closed shut with empty | signal
      · rw [items] at empty
        cases empty
      · rw [items] at signal
        cases signal

/-- The stop signal comes alone, and only after `close`. -/
theorem signalled (a : Accounted s accepted place) (next : s.get? = some (none, s')) :
    s.accepting = false ∧ s' = { s with queue := { s.queue with items := [] } } ∧ s.queue.items = [none] := by
  unfold Scheduling.get? at next
  cases items : s.queue.items with
  | nil =>
    rw [items] at next
    cases next
  | cons item rest =>
    rw [items] at next
    cases next
    have closed : s.accepting = false := by
      by_contra open_
      exact a.open_ (by simpa using open_) (items ▸ List.mem_cons_self)
    rcases a.closed closed with empty | signal
    · rw [items] at empty
      cases empty
    · rw [items] at signal
      cases signal
      exact ⟨closed, rfl, rfl⟩

end Accounted

namespace Scheduling

variable {settings : SchedulerSettings} {s : Scheduling}

/-- A candidate is over, or put off, or joins the batch. -/
theorem consider_cases (settings : SchedulerSettings) (s : Scheduling) {c : Collecting} (candidate : RequestRef)
    (fromQueue : Bool) {deferred : List RequestRef} (held : c.deferred = some deferred) :
    (∃ c' s', Calm s s' ∧
      ((s'.requests candidate).terminal = true ∧ c' = c ∨ c' = { c with deferred := some (deferred ++ [candidate]) }) ∧
      s.consider settings c candidate fromQueue =
        ((s'.itemDone fromQueue).1.map fun _ => (true, c'), (s'.itemDone fromQueue).2)) ∨
      ∃ total, s.consider settings c candidate fromQueue =
        (.ok (true, { c with
          requests := c.requests ++ [candidate]
          total
          queuedItems := c.queuedItems + if fromQueue then 1 else 0 }), s.monotonic.2) := by
  unfold consider
  dsimp only
  split
  · have ends : Ends candidate s ((s.timedOut candidate settings.requestTimeout).2.finishTimeout candidate) :=
      .monotonic .finishTimeout
    exact Or.inl ⟨c, _, ends.calm, Or.inl ⟨ends.terminal, rfl⟩, rfl⟩
  split
  · rename_i cancelled
    have recorded : ((s.timedOut candidate settings.requestTimeout).2.record candidate).status candidate = .cancelled := by
      rw [status_record]
      exact cancelled
    exact Or.inl ⟨c, _, Calm.monotonic.trans .record, Or.inl ⟨terminal_of_status rfl recorded, rfl⟩, rfl⟩
  split
  · exact Or.inr ⟨_, rfl⟩
  · rw [held]
    exact Or.inl ⟨_, _, .monotonic, Or.inr rfl, rfl⟩

/-- The loop's collection goes on to `process_batch`. -/
theorem endCollection_scheduler {c : Collecting} (fromQueue : Bool) :
    ∃ s' now, Calm s s' ∧ s.endCollection (some fromQueue) c =
      (.selecting (.scheduler fromQueue (c.deferred.getD [])) c.queuedItems now c.requests [], s') :=
  ⟨_, _, (Calm.monotonic.trans .setCollection).trans .monotonic, rfl⟩

end Scheduling

namespace Accounted

variable {settings : SchedulerSettings} {s s' : Scheduling} {accepted : List RequestRef} {place place' : Place}
  {resumption : Resumption}

theorem beginCollection (a : Accounted s accepted place) {first : RequestRef} {fromQueue : Bool} {deferred : List RequestRef}
    (holds : place.holds = first :: deferred) (owes : place.owes = (Caller.scheduler fromQueue deferred).owes) :
    Accounted (s.beginCollection settings first (some deferred)).2 accepted
      (.scanning (some fromQueue) (s.beginCollection settings first (some deferred)).1) := by
  refine a.moved .monotonic (fun r held => Or.inr ?_) (fun r mention => holds_sub_mentions ?_) ?_ ?_ fun left => left.elim
  · rw [holds] at held
    exact held
  · rw [holds]
    exact mention
  · rw [owes]
    exact (Nat.zero_add _).le
  · exact ⟨⟨fromQueue, rfl⟩, deferred, rfl, le_refl _⟩

theorem loopHead {deferred : List RequestRef} (a : Accounted s accepted (.loopHead deferred))
    (step : (Place.loopHead deferred).advance settings s resumption = some (place', s')) : Accounted s' accepted place' := by
  cases resumption <;> cases deferred <;> try cases step
  · exact a.moved .refl (fun r held => Or.inr held) (fun r held => held) (le_refl _) trivial a.leaving
  rename_i first deferred
  simp only [Place.advance] at step
  split at step
  · cases step
    have ends : Ends first s ((s.finish first .rejected "server is shutting down").measure
        (·.rejected "service_shutting_down")) := (Ends.finish rfl).measure
    refine a.moved ends.calm (fun r held => ?_) (fun r held => List.mem_cons_of_mem _ held) (le_refl _) trivial a.leaving
    rcases List.mem_cons.mp held with rfl | held
    · exact Or.inl ends.terminal
    · exact Or.inr held
  split at step <;> cases step
  · exact a.beginCollection rfl rfl
  · exact a.moved .refl (fun r held => Or.inr held) (fun r held => held) (le_refl _) (by simp [Place.Sound]) a.leaving

/-- The loop ends with the stop signal. -/
theorem stopped (a : Accounted s accepted .gettingFirst) (next : s.get? = some (none, s')) :
    ∃ s'', s'.taskDone = (.ok (), s'') ∧ Accounted s'' accepted (.ended (.ok ())) := by
  obtain ⟨closed, rfl, signal⟩ := a.signalled next
  have counted := a.counted
  rw [signal, List.length_singleton] at counted
  rcases Scheduling.taskDone_cases { s with queue := { s.queue with items := [] } } with ⟨spent, e, done⟩ | ⟨n, left, done⟩
  · dsimp only at spent
    omega
  refine ⟨_, done, a.tracked, fun r member => ?_, ?_, ?_, Nat.zero_le _, ?_, fun _ => Or.inl rfl, Or.inl rfl, fun _ => closed⟩
  · rcases a.covered r member with isOver | waits | held
    · exact Or.inl isOver
    · rw [signal] at waits
      simp at waits
    · cases held
  · exact fun r waits => by cases waits
  · exact fun r mention => by cases mention
  · exact fun _ inside => by cases inside

theorem gettingFirst (a : Accounted s accepted .gettingFirst)
    (step : Place.gettingFirst.advance settings s resumption = some (place', s')) : Accounted s' accepted place' := by
  cases resumption <;> try cases step
  simp only [Place.advance] at step
  cases next : s.get? with
  | none =>
    rw [next] at step
    cases step
  | some item =>
    obtain ⟨item, s₁⟩ := item
    rw [next] at step
    cases item with
    | none =>
      obtain ⟨s₂, done, ended⟩ := a.stopped next
      dsimp only at step
      rw [done] at step
      cases step
      exact ended
    | some first =>
      have held : Accounted s₁ accepted (.starting (.scheduler true []) first) := by
        refine a.taken next (fun q held => ?_) (fun q mention => Or.inr (List.mem_singleton.mp mention)) (le_refl _)
          (by simp [Place.Sound]) fun left => left
        rcases held with held | rfl
        · cases held
        · exact List.mem_singleton_self q
      dsimp only at step
      split at step <;> cases step
      · exact held.beginCollection rfl rfl
      · exact held

theorem scanning {fromQueue : Option Bool} {c : Collecting} (a : Accounted s accepted (.scanning fromQueue c))
    (step : (Place.scanning fromQueue c).advance settings s resumption = some (place', s')) :
    Accounted s' accepted place' := by
  cases resumption <;> try cases step
  obtain ⟨⟨b, rfl⟩, deferred, held, scan⟩ := a.sound
  simp only [Place.advance] at step
  split at step
  · rename_i more
    cases deferred with
    | nil => exact absurd (Nat.le_zero.mp scan) more.2
    | cons candidate rest =>
      have holds : (Place.scanning (some b) c).holds = c.requests ++ candidate :: rest := by
        simp only [Place.holds, held, Option.getD_some]
      rw [held] at step
      dsimp only at step
      have cases_ := consider_cases settings s candidate false
        (show ({ c with deferred := some rest, toScan := c.toScan - 1 } : Collecting).deferred = some rest from rfl)
      rcases cases_ with ⟨c', s₁, calm, ⟨isOver, rfl⟩ | rfl, run⟩ | ⟨total, run⟩ <;> (rw [run] at step; cases step)
      · refine a.moved calm (fun r member => ?_) (fun r mention => holds_sub_mentions ?_) (le_refl _)
          ⟨⟨b, rfl⟩, rest, rfl, by simp only [List.length_cons] at scan; dsimp only; omega⟩ a.leaving
        · rw [holds] at member
          by_cases same : r = candidate
          · rw [same]
            exact Or.inl isOver
          · refine Or.inr ?_
            simpa [Place.holds, same] using member
        · rw [holds]
          simp only [Place.mentions, Place.holds, Option.getD_some, List.mem_append, List.mem_cons] at mention ⊢
          tauto
      · refine a.moved calm (fun r member => Or.inr ?_) (fun r mention => holds_sub_mentions ?_) (le_refl _)
          ⟨⟨b, rfl⟩, _, rfl, by simp only [List.length_cons] at scan; simp; omega⟩ a.leaving
        · rw [holds] at member
          simp only [Place.holds, Option.getD_some, List.mem_append, List.mem_cons, List.not_mem_nil, or_false] at member ⊢
          tauto
        · rw [holds]
          simp only [Place.mentions, Place.holds, Option.getD_some, List.mem_append, List.mem_cons, List.not_mem_nil,
            or_false] at mention ⊢
          tauto
      · refine a.moved .monotonic (fun r member => Or.inr ?_) (fun r mention => holds_sub_mentions ?_) (le_refl _)
          ⟨⟨b, rfl⟩, rest, rfl, by simp only [List.length_cons] at scan; dsimp only; omega⟩ a.leaving
        · rw [holds] at member
          simp only [Place.holds, Option.getD_some, List.mem_append, List.mem_cons, List.not_mem_nil, or_false] at member ⊢
          tauto
        · rw [holds]
          simp only [Place.mentions, Place.holds, Option.getD_some, List.mem_append, List.mem_cons, List.not_mem_nil,
            or_false] at mention ⊢
          tauto
  · cases step
    exact a.moved .refl (fun r held => Or.inr held) (fun r held => held) (le_refl _) ⟨⟨b, rfl⟩, deferred, held⟩ a.leaving

theorem endCollection {c : Collecting} {b : Bool} {deferred : List RequestRef} (a : Accounted s accepted place)
    (held : c.deferred = some deferred) (holds : place.holds = c.requests ++ deferred)
    (owes : place.owes = c.queuedItems + b.toNat) :
    Accounted (s.endCollection (some b) c).2 accepted (s.endCollection (some b) c).1 := by
  obtain ⟨s₁, now, calm, run⟩ := endCollection_scheduler (s := s) (c := c) b
  rw [run]
  have same : (Place.selecting (.scheduler b (c.deferred.getD [])) c.queuedItems now c.requests []).holds = place.holds := by
    rw [holds]
    simp [Place.holds, Caller.deferred, held]
  refine a.moved calm (fun r member => Or.inr (same ▸ member)) (fun r mention => holds_sub_mentions (same ▸ mention)) ?_
    (by simp [Place.Sound]) fun left => left.elim
  rw [owes]
  exact le_refl _

theorem gathering {fromQueue : Option Bool} {c : Collecting} (a : Accounted s accepted (.gathering fromQueue c))
    (step : (Place.gathering fromQueue c).advance settings s resumption = some (place', s')) :
    Accounted s' accepted place' := by
  cases resumption <;> try cases step
  obtain ⟨⟨b, rfl⟩, deferred, held⟩ := a.sound
  have holds : (Place.gathering (some b) c).holds = c.requests ++ deferred := by simp [Place.holds, held]
  have read : Accounted s.monotonic.2 accepted (.gathering (some b) c) :=
    a.moved .monotonic (fun r member => Or.inr member) (fun r mention => mention) (le_refl _) a.sound a.leaving
  simp only [Place.advance] at step
  split at step
  · split at step
    · obtain rfl := congrArg Prod.fst (Option.some.inj step)
      obtain rfl := congrArg Prod.snd (Option.some.inj step)
      exact read.endCollection held holds rfl
    · cases step
      exact read.moved .refl (fun r member => Or.inr member) (fun r mention => mention) (le_refl _) a.sound read.leaving
  · obtain rfl := congrArg Prod.fst (Option.some.inj step)
    obtain rfl := congrArg Prod.snd (Option.some.inj step)
    exact a.endCollection held holds rfl

/-- A collected stop signal is put back. -/
theorem putBack (a : Accounted s accepted place) (next : s.get? = some (none, s')) :
    ∃ s₁ s₂, s'.taskDone = (.ok (), s₁) ∧ s₁.putNowait none = (.ok (), s₂) ∧ Accounted s₂ accepted place := by
  obtain ⟨closed, rfl, signal⟩ := a.signalled next
  have counted := a.counted
  rw [signal, List.length_singleton] at counted
  rcases Scheduling.taskDone_cases { s with queue := { s.queue with items := [] } } with ⟨spent, e, done⟩ | ⟨n, left, done⟩
  · dsimp only at spent
    omega
  dsimp only at left
  rcases Scheduling.putNowait_cases { s with queue := ⟨[], s.queue.maxsize, n⟩ } none with ⟨full, -⟩ | ⟨-, put⟩
  · exfalso
    simp only [AsyncQueue.full, List.length_nil, Bool.and_eq_true, decide_eq_true_eq] at full
    omega
  refine ⟨_, _, done, put, a.tracked, ?_, ?_, a.mentioned, ?_, ?_, fun _ => Or.inr rfl, a.sound, a.leaving⟩
  · intro r member
    have covered := a.covered r member
    rw [signal] at covered
    exact covered
  · exact fun r waits => by simp at waits
  · simp only [List.nil_append, List.length_singleton]
    omega
  · intro accepting
    rw [closed] at accepting
    cases accepting

theorem waiting {fromQueue : Option Bool} {c : Collecting} (a : Accounted s accepted (.waiting fromQueue c))
    (step : (Place.waiting fromQueue c).advance settings s resumption = some (place', s')) :
    Accounted s' accepted place' := by
  obtain ⟨⟨b, rfl⟩, deferred, held⟩ := a.sound
  have holds : (Place.waiting (some b) c).holds = c.requests ++ deferred := by simp [Place.holds, held]
  cases resumption with
  | timeout =>
    simp only [Place.advance] at step
    obtain rfl := congrArg Prod.fst (Option.some.inj step)
    obtain rfl := congrArg Prod.snd (Option.some.inj step)
    exact a.endCollection held holds rfl
  | results results => cases step
  | result result => cases step
  | raises message => cases step
  | proceed =>
    simp only [Place.advance] at step
    cases next : s.get? with
    | none =>
      rw [next] at step
      cases step
    | some item =>
      obtain ⟨item, s₁⟩ := item
      rw [next] at step
      cases item with
      | none =>
        obtain ⟨s₂, s₃, done, put, back⟩ := a.putBack next
        dsimp only at step
        rw [done] at step
        dsimp only at step
        rw [put] at step
        obtain rfl := congrArg Prod.fst (Option.some.inj step)
        obtain rfl := congrArg Prod.snd (Option.some.inj step)
        exact back.endCollection held holds rfl
      | some candidate =>
        dsimp only at step
        -- The candidate counts as collected until it is known what becomes of it.
        have joined : Accounted s₁ accepted (.gathering (some b)
            { c with requests := c.requests ++ [candidate], queuedItems := c.queuedItems + 1 }) := by
          refine a.taken next (fun q member => ?_) (fun q mention => ?_) ?_ ⟨⟨b, rfl⟩, deferred, held⟩ fun left => left
          · rw [holds] at member
            simp only [Place.holds, held, Option.getD_some, List.mem_append, List.mem_singleton] at member ⊢
            tauto
          · simp only [Place.mentions, Place.holds, held, Option.getD_some, List.mem_append,
              List.mem_singleton] at mention ⊢
            tauto
          · simp only [Place.owes, Caller.ofCollection, Caller.owes]
            omega
        rcases consider_cases settings s₁ candidate true held with
          ⟨c', s₂, calm, outcome, run⟩ | ⟨total, run⟩
        · -- It is over or deferred, and leaves the queue's books.
          have left : ∃ s₃, s₂.taskDone = (.ok (), s₃) ∧ Accounted s₃ accepted (.gathering (some b) c') := by
            have owed : Accounted s₂ accepted (.gathering (some b) { c' with queuedItems := c'.queuedItems + 1 }) := by
              rcases outcome with ⟨isOver, rfl⟩ | rfl
              · refine joined.moved calm (fun q member => ?_) (fun q mention => ?_) (le_refl _) ⟨⟨b, rfl⟩, deferred, held⟩
                  joined.leaving
                · by_cases same : q = candidate
                  · rw [same]
                    exact Or.inl isOver
                  · refine Or.inr ?_
                    simpa [Place.holds, same] using member
                · simp only [Place.mentions, Place.holds, List.mem_append, List.mem_singleton] at mention ⊢
                  tauto
              · refine joined.moved calm (fun q member => Or.inr ?_) (fun q mention => ?_) (le_refl _)
                  ⟨⟨b, rfl⟩, _, rfl⟩ joined.leaving
                · simp only [Place.holds, held, Option.getD_some, List.mem_append, List.mem_singleton] at member ⊢
                  tauto
                · simp only [Place.mentions, Place.holds, held, Option.getD_some, List.mem_append,
                    List.mem_singleton] at mention ⊢
                  tauto
            refine owed.taskDone ?_ rfl rfl owed.sound fun left => left
            simp only [Place.owes, Caller.ofCollection, Caller.owes]
            omega
          obtain ⟨s₃, done, accounted⟩ := left
          rw [run, itemDone, if_pos rfl, done] at step
          cases step
          exact accounted
        · rw [run] at step
          cases step
          exact joined.moved .monotonic (fun r member => Or.inr member) (fun r mention => mention) (le_refl _)
            ⟨⟨b, rfl⟩, deferred, held⟩ joined.leaving

theorem selecting {caller : Caller} {queuedItems : Nat} {now : Seconds} {rest active : List RequestRef}
    (a : Accounted s accepted (.selecting caller queuedItems now rest active))
    (step : (Place.selecting caller queuedItems now rest active).advance settings s resumption = some (place', s')) :
    Accounted s' accepted place' := by
  have sound : caller ≠ .direct := a.sound
  obtain rfl : resumption = .proceed := by
    cases resumption <;> first | rfl | (cases rest <;> cases active <;> cases step)
  cases rest with
  | nil =>
    cases active with
    | nil =>
      cases step
      exact a.moved .refl (fun r member => Or.inr member) (fun r mention => mention) (le_refl _) ⟨sound, Or.inl rfl⟩
        a.leaving
    | cons first active =>
      cases step
      have calm : Calm s (((s.setBatchSize (first :: active).length (first :: active)).measure
          (·.recordModelInvocation)).measure (·.modelExecutionStarted)) :=
        (Calm.setBatchSize.trans .measure).trans .measure
      exact a.moved calm (fun r member => Or.inr member) (fun r mention => mention) (le_refl _) sound a.leaving
  | cons r rest =>
    have drop : ∀ {t : Scheduling}, Calm s t → (t.requests r).terminal = true →
        Accounted t accepted (.selecting caller queuedItems now rest active) := by
      intro t calm isOver
      refine a.moved calm (fun q member => ?_) (fun q mention => List.mem_cons_of_mem _ mention) (le_refl _) sound
        a.leaving
      rcases List.mem_cons.mp member with rfl | member
      · exact Or.inl isOver
      · exact Or.inr member
    simp only [Place.advance] at step
    split at step
    · rename_i cancelled
      cases step
      exact drop .record (terminal_of_status rfl (status_record.trans cancelled))
    split at step <;> cases step
    · have ends : Ends r s ((s.timedOut r settings.requestTimeout).2.finishTimeout r) := .monotonic .finishTimeout
      exact drop ends.calm ends.terminal
    · have kept : ((s.timedOut r settings.requestTimeout).2.requests r).future = (s.requests r).future := rfl
      refine a.started (Touches.monotonic.trans .set) ?_ ?_ ?_ (fun q member => ?_) (fun q mention => ?_) (le_refl _) sound
        fun left => left
      · rw [requests_set_self]
        exact kept
      · rw [status_set, if_pos rfl]
      · simp [Place.holds]
      · simp only [Place.holds, List.cons_append, List.mem_cons, List.mem_append, List.not_mem_nil, or_false] at member ⊢
        tauto
      · simp only [Place.mentions, Place.holds, List.cons_append, List.mem_cons, List.mem_append, List.not_mem_nil,
          or_false] at mention ⊢
        tauto

theorem starting {caller : Caller} {r : RequestRef} (a : Accounted s accepted (.starting caller r))
    (step : (Place.starting caller r).advance settings s resumption = some (place', s')) : Accounted s' accepted place' := by
  have sound : caller ≠ .direct := a.sound
  cases resumption <;> try cases step
  have drop : ∀ {t : Scheduling}, Calm s t → (t.requests r).terminal = true →
      Accounted t accepted (.returning caller 0 (.ok ())) := by
    intro t calm isOver
    refine a.moved calm (fun q member => ?_) (fun q mention => List.mem_cons_of_mem _ mention) (Nat.zero_add _).le
      ⟨sound, Or.inl rfl⟩ a.leaving
    rcases List.mem_cons.mp member with rfl | member
    · exact Or.inl isOver
    · exact Or.inr member
  simp only [Place.advance] at step
  split at step
  · rename_i cancelled
    cases step
    exact drop .record (terminal_of_status rfl (status_record.trans cancelled))
  split at step <;> cases step
  · have ends : Ends r s ((s.timedOut r settings.requestTimeout).2.finishTimeout r) := .monotonic .finishTimeout
    exact drop ends.calm ends.terminal
  · have touches : Touches r s (s.timedOut r settings.requestTimeout).2.monotonic.2 := Touches.monotonic.trans .monotonic
    refine a.started (((touches.trans .set).trans .measure).trans .measure) ?_ ?_ List.mem_cons_self (fun q member => member)
      (fun q mention => mention) (le_refl _) sound fun left => left
    · have read : ∀ t : Scheduling, ∀ f g, ((t.measure f).measure g).requests = t.requests := fun _ _ _ => rfl
      rw [read, requests_set_self]
      rfl
    · rw [status_measure, status_measure, status_set, if_pos rfl]

/-- A request ends, and what is left to do gets one shorter. -/
theorem ended (a : Accounted s accepted place) {r : RequestRef} (ends : Ends r s s')
    (holds : ∀ q ∈ place.holds, q = r ∨ q ∈ place'.holds) (mentioned : ∀ q ∈ place'.mentions, q ∈ place.mentions)
    (owes : place'.owes ≤ place.owes) (sound : place'.Sound) (leaving : place'.Leaving → place.Leaving) :
    Accounted s' accepted place' := by
  refine a.moved ends.calm (fun q member => ?_) mentioned owes sound fun left => a.leaving (leaving left)
  rcases holds q member with rfl | member
  · exact Or.inl ends.terminal
  · exact Or.inr member

theorem finishing {caller : Caller} {queuedItems : Nat} {completed : Seconds} {active rest : List RequestRef}
    {results : List GenerationResult} (a : Accounted s accepted (.finishing caller queuedItems completed active rest results))
    (step : (Place.finishing caller queuedItems completed active rest results).advance settings s resumption =
      some (place', s')) : Accounted s' accepted place' := by
  obtain ⟨sound, inside⟩ := a.sound
  -- With too few or too many results the whole batch fails.
  have failed : ∀ message, Accounted s accepted (.failing caller queuedItems message active) := by
    intro message
    refine a.moved .refl (fun q member => Or.inr ?_) (fun q mention => ?_) (le_refl _) sound fun left => left.elim
    · rcases List.mem_append.mp member with member | member
      · exact List.mem_append_left _ (inside q member)
      · exact List.mem_append_right _ member
    · rcases List.mem_append.mp mention with mention | mention
      · exact List.mem_append_left _ (List.mem_append_right _ mention)
      · exact List.mem_append_right _ mention
  cases resumption <;> cases rest <;> cases results <;> try cases step
  · exact a.moved .measure (fun q member => Or.inr member)
      (fun q mention => List.mem_append_right _ mention) (le_refl _) ⟨sound, Or.inl rfl⟩ a.leaving
  · exact failed _
  · exact failed _
  · refine a.ended .deliver (fun q member => ?_) (fun q mention => ?_) (le_refl _)
      ⟨sound, fun q member => inside q (List.mem_cons_of_mem _ member)⟩ fun left => left
    · simp only [Place.holds, List.cons_append, List.mem_cons] at member ⊢
      exact member
    · simp only [Place.mentions, List.cons_append, List.mem_cons] at mention ⊢
      exact Or.inr mention

theorem failing {caller : Caller} {queuedItems : Nat} {message : String} {rest : List RequestRef}
    (a : Accounted s accepted (.failing caller queuedItems message rest))
    (step : (Place.failing caller queuedItems message rest).advance settings s resumption = some (place', s')) :
    Accounted s' accepted place' := by
  have sound : caller ≠ .direct := a.sound
  cases resumption <;> cases rest <;> try cases step
  · exact a.moved .measure (fun q member => Or.inr member) (fun q mention => mention) (le_refl _) ⟨sound, Or.inl rfl⟩
      a.leaving
  · exact a.ended .fail (fun q member => List.mem_cons.mp member) (fun q mention => List.mem_cons_of_mem _ mention)
      (le_refl _) sound fun left => left

theorem abandoning {caller : Caller} {queuedItems : Nat} {rest : List RequestRef}
    (a : Accounted s accepted (.abandoning caller queuedItems rest))
    (step : (Place.abandoning caller queuedItems rest).advance settings s resumption = some (place', s')) :
    Accounted s' accepted place' := by
  have sound : caller ≠ .direct := a.sound
  cases resumption <;> cases rest <;> try cases step
  · exact a.moved .measure (fun q member => by cases member) (fun q mention => by cases mention) (le_refl _)
      ⟨sound, Or.inr rfl⟩ a.leaving
  · exact a.ended (Ends.finish rfl).record (fun q member => List.mem_cons.mp member)
      (fun q mention => List.mem_cons_of_mem _ mention) (le_refl _) sound fun left => left

theorem generatingBatch {caller : Caller} {queuedItems : Nat} {active : List RequestRef}
    (a : Accounted s accepted (.generatingBatch caller queuedItems active))
    (step : (Place.generatingBatch caller queuedItems active).advance settings s resumption = some (place', s')) :
    Accounted s' accepted place' := by
  have sound : caller ≠ .direct := a.sound
  cases resumption <;> try cases step
  · refine a.moved .monotonic (fun q member => Or.inr member) (fun q mention => ?_) (le_refl _)
      ⟨sound, fun q member => member⟩ a.leaving
    simp only [Place.mentions, Place.holds, List.mem_append] at mention ⊢
    tauto
  · exact a.moved .refl (fun q member => Or.inr member) (fun q mention => mention) (le_refl _) sound a.leaving

theorem generatingOne {caller : Caller} {r : RequestRef} (a : Accounted s accepted (.generatingOne caller r))
    (step : (Place.generatingOne caller r).advance settings s resumption = some (place', s')) :
    Accounted s' accepted place' := by
  have sound : caller ≠ .direct := a.sound
  have done : ∀ {t : Scheduling}, Ends r s t → Accounted t accepted (.returning caller 0 (.ok ())) := fun ends =>
    a.ended ends (fun q member => List.mem_cons.mp member) (fun q mention => List.mem_cons_of_mem _ mention)
      (Nat.zero_add _).le ⟨sound, Or.inl rfl⟩ fun left => left
  cases resumption with
  | result result =>
    simp only [Place.advance] at step
    by_cases unset : (s.requests r).completedAt = 0
    · rw [if_pos unset] at step
      cases step
      exact done (.monotonic .deliverMeasured)
    · rw [if_neg unset] at step
      cases step
      exact done .deliverMeasured
  | raises message =>
    cases step
    exact done .failMeasured
  | proceed => cases step
  | timeout => cases step
  | results results => cases step

/-- What a call leaves undone for the queue is done when it returns. -/
theorem releaseItems {caller : Caller} {n : Nat} {result : Except Raised Unit}
    (a : Accounted s accepted (.returning caller n result)) :
    ∃ s', s.releaseItems n = (.ok (), s') ∧ Accounted s' accepted (.returning caller 0 result) := by
  induction n generalizing s with
  | zero => exact ⟨s, rfl, a⟩
  | succ n ih =>
    have next : ∃ s', s.taskDone = (.ok (), s') ∧ Accounted s' accepted (.returning caller n result) := by
      refine a.taskDone ?_ ?_ ?_ a.sound fun left => ?_
      · simp only [Place.owes]
        omega
      · cases result <;> rfl
      · cases result <;> rfl
      · cases result with
        | ok _ => exact left
        | error _ => trivial
    obtain ⟨s₁, done, accounted⟩ := next
    obtain ⟨s₂, released, accounted⟩ := ih accounted
    exact ⟨s₂, by rw [Scheduling.releaseItems, done]; exact released, accounted⟩

/-- The loop's `finally` clauses do not raise, and pass the result on. -/
theorem leave {b : Bool} {deferred : List RequestRef} {n : Nat} {result : Except Raised Unit}
    (a : Accounted s accepted (.returning (.scheduler b deferred) n result)) :
    ∃ s', s.leave n b result = (result, s') ∧ Accounted s' accepted (match result with
      | .ok () => .loopHead deferred
      | .error e => .ended (.error e)) := by
  obtain ⟨s₁, released, accounted⟩ := a.releaseItems
  have sound := accounted.sound.2
  unfold Scheduling.leave
  rw [released]
  dsimp only
  cases b with
  | false =>
    refine ⟨s₁, by cases result <;> rfl, ?_⟩
    cases result with
    | ok _ =>
      exact accounted.moved .refl (fun q member => Or.inr member) (fun q mention => mention) (Nat.zero_le _) trivial
        accounted.leaving
    | error e =>
      exact accounted.moved .refl (fun q member => Or.inr member) (fun q mention => mention) (Nat.zero_le _)
        (sound.imp (fun impossible => by cases impossible) id) accounted.leaving
  | true =>
    cases result with
    | ok _ =>
      have done : ∃ s', s₁.taskDone = (.ok (), s') ∧ Accounted s' accepted (.loopHead deferred) :=
        accounted.taskDone (le_refl _) rfl rfl trivial fun left => left
      obtain ⟨s₂, run, accounted⟩ := done
      exact ⟨s₂, by rw [itemDone, if_pos rfl, run], accounted⟩
    | error e =>
      have done : ∃ s', s₁.taskDone = (.ok (), s') ∧ Accounted s' accepted (.ended (.error e)) :=
        accounted.taskDone (le_refl _) rfl rfl sound fun _ => trivial
      obtain ⟨s₂, run, accounted⟩ := done
      exact ⟨s₂, by rw [itemDone, if_pos rfl, run], accounted⟩

theorem returning {caller : Caller} {queuedItems : Nat} {result : Except Raised Unit}
    (a : Accounted s accepted (.returning caller queuedItems result))
    (step : (Place.returning caller queuedItems result).advance settings s resumption = some (place', s')) :
    Accounted s' accepted place' := by
  cases resumption <;> cases caller <;> try cases step
  · exact absurd rfl a.sound.1
  obtain ⟨s₁, run, accounted⟩ := a.leave
  simp only [Place.advance] at step
  rw [run] at step
  cases result <;> (cases step; exact accounted)

/-- A step of `run_scheduler` loses no request. -/
theorem advance (a : Accounted s accepted place) (step : place.advance settings s resumption = some (place', s')) :
    Accounted s' accepted place' := by
  cases place with
  | loopHead deferred => exact a.loopHead step
  | gettingFirst => exact a.gettingFirst step
  | scanning fromQueue c => exact a.scanning step
  | gathering fromQueue c => exact a.gathering step
  | waiting fromQueue c => exact a.waiting step
  | selecting caller queuedItems now rest active => exact a.selecting step
  | generatingBatch caller queuedItems active => exact a.generatingBatch step
  | finishing caller queuedItems completed active rest results => exact a.finishing step
  | failing caller queuedItems message rest => exact a.failing step
  | abandoning caller queuedItems rest => exact a.abandoning step
  | starting caller request => exact a.starting step
  | generatingOne caller request => exact a.generatingOne step
  | returning caller queuedItems result => exact a.returning step
  | ended result => cases step

/-- Neither does its cancellation, where all that it forgets is over. -/
theorem interrupt (a : Accounted s accepted place) (closed : s.accepting = false)
    (forgets : ∀ r ∈ place.forgets, (s.requests r).terminal = true) (step : place.interrupt s = some (place', s')) :
    Accounted s' accepted place' := by
  have forgotten : ∀ {left : List RequestRef}, (∀ r ∈ place.holds, r ∉ left → r ∈ place.forgets) →
      ∀ r ∈ place.holds, (s.requests r).terminal = true ∨ r ∈ left := by
    intro left lost r member
    by_cases kept : r ∈ left
    · exact Or.inr kept
    · exact Or.inl (forgets r (lost r member kept))
  cases place <;> try cases step
  · exact a.moved .refl (fun r member => Or.inr member) (fun r mention => mention) (le_refl _) (Or.inr rfl) fun _ => closed
  · rename_i fromQueue c
    obtain ⟨⟨b, rfl⟩, -⟩ := a.sound
    refine a.moved .refl (forgotten fun r member _ => member) (fun r mention => by cases mention) ?_
      ⟨by simp [Caller.ofCollection], Or.inr rfl⟩ fun _ => closed
    simp only [Place.owes]
    omega
  · rename_i caller queuedItems active
    refine a.moved .refl (forgotten fun r member other => ?_) (fun r mention => List.mem_append_left _ mention) (le_refl _)
      a.sound fun _ => closed
    have held := (List.mem_append.mp member).resolve_left other
    exact List.mem_filter.mpr ⟨held, decide_eq_true other⟩
  · rename_i caller r
    have ends : Ends r s (((s.finish r .failed "shutdown grace period expired").record r).measure
        (·.modelExecutionFinished)) := (Ends.finish rfl).record.measure
    refine a.moved ends.calm (fun q member => ?_) (fun q mention => by cases mention) (Nat.zero_add _).le
      ⟨a.sound, Or.inr rfl⟩ fun _ => closed
    by_cases same : q = r
    · rw [same]
      exact Or.inl ends.terminal
    · have held := (List.mem_cons.mp member).resolve_left same
      exact Or.inl (ends.calm.isOver q (forgets q (List.mem_filter.mpr ⟨held, by simpa using same⟩)))

end Accounted

end ServingPlatform
