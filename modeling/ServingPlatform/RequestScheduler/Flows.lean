import ServingPlatform.RequestScheduler.Conservation
import ServingPlatform.RequestScheduler.Tallies

namespace ServingPlatform

open Scheduling

/-- The requests of the model call that have their results. -/
def Place.finished : Place → List RequestRef
  | .finishing _ _ _ active rest _ => active.filter (· ∉ rest)
  | _ => []

/-- How often a request waits to be started. -/
def Scheduling.line (s : Scheduling) (place : Place) (r : RequestRef) : Nat :=
  s.queue.items.count (some r) + place.pending.count r

section Line

variable {s s' : Scheduling} {place place' : Place} {r q : RequestRef} {items : List (Option RequestRef)}

theorem waits_iff_line : s.Waits place q ↔ 0 < s.line place q := by
  unfold Scheduling.Waits Scheduling.line
  rw [Nat.add_pos_iff_pos_or_pos, List.count_pos_iff, List.count_pos_iff]

theorem count_pool : (s.pool place).count q = s.line place q + place.started.count q := by
  unfold Scheduling.pool Scheduling.line
  rw [List.count_append, count_filterMap_id, List.count_append]
  omega

theorem line_same (queue : s'.queue.items = s.queue.items) (pending : place'.pending.Perm place.pending) :
    s'.line place' q = s.line place q := by
  unfold Scheduling.line
  rw [queue, pending.count_eq]

theorem line_drop (queue : s'.queue.items = s.queue.items) (pending : place.pending.Perm (r :: place'.pending)) :
    s.line place q = [r].count q + s'.line place' q := by
  unfold Scheduling.line
  rw [queue, pending.count_eq, List.count_cons, List.count_cons, List.count_nil]
  omega

theorem line_take (queued : s.queue.items = some r :: items) (left : s'.queue.items = items)
    (pending : place'.pending.Perm (r :: place.pending)) : s'.line place' q = s.line place q := by
  unfold Scheduling.line
  rw [queued, left, pending.count_eq, List.count_cons, List.count_cons]
  simp only [beq_iff_eq, Option.some.injEq]
  omega

theorem line_take_drop (queued : s.queue.items = some r :: items) (left : s'.queue.items = items)
    (pending : place'.pending.Perm place.pending) : s.line place q = [r].count q + s'.line place' q := by
  unfold Scheduling.line
  rw [queued, left, pending.count_eq, List.count_cons, List.count_cons, List.count_nil]
  simp only [beq_iff_eq, Option.some.injEq]
  omega

end Line

/-- Where a step takes the requests of the pool: those that leave it are
recorded, or rejected, or had their results before. -/
structure Flow (s s' : Scheduling) (place place' : Place) (told refused : Option RequestRef) : Prop where
  pool : ∃ out : List RequestRef, (∀ q, (s.pool place).count q = out.count q + (s'.pool place').count q) ∧
    (∀ q ∈ out, told = some q ∨ refused = some q ∨ q ∈ place.finished) ∧
    (∀ q, told = some q → q ∈ out ∨ q ∈ place'.started) ∧ ∀ q, refused = some q → q ∈ out ∧ s.Waits place q
  waits : ∀ q, s'.Waits place' q → s.Waits place q
  finished : ∀ q ∈ place'.finished, q ∈ place.finished ∨ told = some q

namespace Flow

variable {settings : SchedulerSettings} {s s' t : Scheduling} {accepted : List RequestRef} {place place' : Place}
  {resumption : Resumption} {r : RequestRef} {told refused : Option RequestRef}

theorem waits_of_line (line : ∀ q, s'.line place' q ≤ s.line place q) (q : RequestRef) (waits : s'.Waits place' q) :
    s.Waits place q := by
  have bound := line q
  rw [waits_iff_line] at waits ⊢
  omega

/-- The requests stay in the pool. -/
theorem move (line : ∀ q, s'.line place' q ≤ s.line place q)
    (pool : ∀ q, s.line place q + place.started.count q = s'.line place' q + place'.started.count q)
    (finished : place'.finished = []) : Flow s s' place place' none none where
  pool := by
    refine ⟨[], fun q => ?_, fun q member => ?_, fun q same => ?_, fun q same => ?_⟩
    · rw [count_pool, count_pool, pool, List.count_nil, Nat.zero_add]
    · cases member
    · cases same
    · cases same
  waits := waits_of_line line
  finished q member := by
    rw [finished] at member
    cases member

theorem still (line : ∀ q, s'.line place' q = s.line place q) (started : place'.started = place.started)
    (finished : place'.finished = []) : Flow s s' place place' none none :=
  move (fun q => (line q).le) (fun q => by rw [line, started]) finished

/-- A request that waits is started. -/
theorem start (line : ∀ q, s.line place q = [r].count q + s'.line place' q) (started : place'.started = place.started ++ [r])
    (finished : place'.finished = []) : Flow s s' place place' none none := by
  refine move (fun q => ?_) (fun q => ?_) finished
  · have before := line q
    omega
  · rw [line, started, List.count_append]
    omega

/-- A request that waits leaves. -/
theorem drop (line : ∀ q, s.line place q = [r].count q + s'.line place' q) (started : place'.started = place.started)
    (finished : place'.finished = []) (out : told = some r ∧ refused = none ∨ told = none ∧ refused = some r) :
    Flow s s' place place' told refused where
  pool := by
    refine ⟨[r], fun q => ?_, fun q member => ?_, fun q same => ?_, fun q same => ?_⟩
    · rw [count_pool, count_pool, line, started]
      omega
    · obtain rfl := List.mem_singleton.mp member
      exact out.imp And.left fun refused => Or.inl refused.2
    · rcases out with ⟨rfl, -⟩ | ⟨rfl, -⟩ <;> cases same
      exact Or.inl (List.mem_singleton_self _)
    · rcases out with ⟨-, rfl⟩ | ⟨-, rfl⟩ <;> cases same
      have before := line r
      rw [List.count_singleton_self] at before
      exact ⟨List.mem_singleton_self _, waits_iff_line.mpr (by omega)⟩
  waits := waits_of_line fun q => by
    have before := line q
    omega
  finished q member := by
    rw [finished] at member
    cases member

/-- A request that was started leaves with its outcome. -/
theorem finish (line : ∀ q, s'.line place' q = s.line place q) (started : place.started = r :: place'.started)
    (finished : place'.finished = []) : Flow s s' place place' (some r) none where
  pool := by
    refine ⟨[r], fun q => ?_, fun q member => ?_, fun q same => ?_, fun q same => ?_⟩
    · rw [count_pool, count_pool, line, started, List.count_cons, List.count_cons, List.count_nil]
      omega
    · exact Or.inl (congrArg some (List.mem_singleton.mp member).symm)
    · cases same
      exact Or.inl (List.mem_singleton_self _)
    · cases same
  waits := waits_of_line fun q => (line q).le
  finished q member := by
    rw [finished] at member
    cases member

/-- The requests of a batch that has its results leave. -/
theorem depart (line : ∀ q, s'.line place' q = s.line place q) (started : place'.started = [])
    (all : ∀ q ∈ place.started, q ∈ place.finished) (finished : place'.finished = []) :
    Flow s s' place place' none none where
  pool := by
    refine ⟨place.started, fun q => ?_, fun q member => Or.inr (Or.inr (all q member)), fun q same => ?_, fun q same => ?_⟩
    · rw [count_pool, count_pool, line, started, List.count_nil]
      omega
    · cases same
    · cases same
  waits := waits_of_line fun q => (line q).le
  finished q member := by
    rw [finished] at member
    cases member

/-- A started request has its result, and stays with its batch. -/
theorem result (line : ∀ q, s'.line place' q = s.line place q) (started : place'.started = place.started)
    (member : r ∈ place'.started) (finished : ∀ q ∈ place'.finished, q ∈ place.finished ∨ q = r) :
    Flow s s' place place' (some r) none where
  pool := by
    refine ⟨[], fun q => ?_, fun q member => ?_, fun q same => ?_, fun q same => ?_⟩
    · rw [count_pool, count_pool, line, started, List.count_nil, Nat.zero_add]
    · cases member
    · cases same
      exact Or.inr member
    · cases same
  waits := waits_of_line fun q => (line q).le
  finished q inside := (finished q inside).imp id fun same => congrArg some same.symm

section Advance

theorem overdue_cases (settings : SchedulerSettings) (s : Scheduling) (r : RequestRef) :
    s.overdue settings r = some r ∨ s.overdue settings r = none := by
  unfold Scheduling.overdue
  split
  · exact Or.inl rfl
  · exact Or.inr rfl

theorem loopHead {deferred : List RequestRef}
    (step : (Place.loopHead deferred).advance settings s resumption = some (place', s')) :
    Flow s s' (.loopHead deferred) place' none ((Place.loopHead deferred).turnedAway s) := by
  cases resumption <;> cases deferred <;> try cases step
  · exact still (fun q => line_same rfl (.refl _)) rfl rfl
  rename_i first deferred
  simp only [Place.advance] at step
  dsimp only [Place.turnedAway]
  by_cases closed : s.accepting = false
  · rw [if_pos closed] at step ⊢
    cases step
    have queue : (s.finish first .rejected "server is shutting down").queue = s.queue := queue_finish
    exact drop (fun q => line_drop (congrArg AsyncQueue.items queue) (.refl _)) rfl rfl (Or.inr ⟨rfl, rfl⟩)
  · rw [if_neg closed] at step ⊢
    split at step <;> cases step
    · exact still (fun q => line_same rfl (.refl _)) rfl rfl
    · exact still (fun q => line_same rfl (.refl _)) rfl rfl

theorem gettingFirst (step : Place.gettingFirst.advance settings s resumption = some (place', s')) :
    Flow s s' .gettingFirst place' none none := by
  cases resumption <;> try cases step
  simp only [Place.advance, Scheduling.get?] at step
  cases queued : s.queue.items with
  | nil =>
    rw [queued] at step
    cases step
  | cons item rest =>
    rw [queued] at step
    cases item with
    | none =>
      cases step
      have left : ({ s with queue := { s.queue with items := rest } } : Scheduling).taskDone.2.queue.items = rest :=
        Pooled.items_taskDone
      refine still (fun q => ?_) rfl rfl
      unfold Scheduling.line
      rw [left, queued, List.count_cons]
      simp [Place.pending]
    | some first =>
      dsimp only at step
      split at step <;> cases step
      · exact still (fun q => line_take queued rfl (.refl _)) rfl rfl
      · exact still (fun q => line_take queued rfl (.refl _)) rfl rfl

/-- What becomes of a candidate: it is recorded and dropped, or stays in the collection. -/
theorem consider (settings : SchedulerSettings) (s : Scheduling) {c : Collecting} (candidate : RequestRef)
    (fromQueue : Bool) {deferred : List RequestRef} (held : c.deferred = some deferred) :
    (s.consider settings c candidate fromQueue).2.queue.items = s.queue.items ∧
      ∀ goes c', (s.consider settings c candidate fromQueue).1 = .ok (goes, c') → goes = true ∧
        (s.overdue settings candidate = some candidate ∧ c' = c ∨ s.overdue settings candidate = none ∧
          (∃ deferred', c'.deferred = some deferred') ∧
          (c'.requests ++ c'.deferred.getD []).Perm (candidate :: (c.requests ++ deferred))) := by
  have done : ∀ {t : Scheduling} {c₁ c' : Collecting} {goes : Bool},
      ((t.itemDone fromQueue).1.map fun _ => (true, c₁)) = .ok (goes, c') → goes = true ∧ c' = c₁ := by
    intro t c₁ c' goes result
    cases run : (t.itemDone fromQueue).1 with
    | error e =>
      rw [run] at result
      cases result
    | ok _ =>
      rw [run] at result
      cases result
      exact ⟨rfl, rfl⟩
  unfold Scheduling.consider Scheduling.overdue
  dsimp only
  by_cases expired : (s.timedOut candidate settings.requestTimeout).1 = true
  · rw [if_pos expired, if_pos (Or.inl expired)]
    refine ⟨?_, fun goes c' result => ⟨(done result).1, Or.inl ⟨rfl, (done result).2⟩⟩⟩
    exact Pooled.items_itemDone.trans (congrArg AsyncQueue.items queue_finish)
  rw [if_neg expired]
  by_cases cancelled : s.status candidate = .cancelled
  · rw [if_pos (show (s.timedOut candidate settings.requestTimeout).2.status candidate = .cancelled from cancelled),
      if_pos (Or.inr cancelled)]
    exact ⟨Pooled.items_itemDone, fun goes c' result => ⟨(done result).1, Or.inl ⟨rfl, (done result).2⟩⟩⟩
  rw [if_neg (show ¬(s.timedOut candidate settings.requestTimeout).2.status candidate = .cancelled from cancelled),
    if_neg (not_or.mpr ⟨expired, cancelled⟩), held]
  split
  · refine ⟨rfl, fun goes c' result => ?_⟩
    cases result
    refine ⟨rfl, Or.inr ⟨rfl, ⟨deferred, rfl⟩, ?_⟩⟩
    simp only [Option.getD_some, List.append_assoc, List.singleton_append]
    exact List.perm_middle
  · refine ⟨Pooled.items_itemDone, fun goes c' result => ?_⟩
    obtain ⟨rfl, rfl⟩ := done result
    refine ⟨rfl, Or.inr ⟨rfl, ⟨_, rfl⟩, ?_⟩⟩
    simp only [Option.getD_some]
    rw [← List.append_assoc]
    exact List.perm_append_singleton _ _

theorem scanning {fromQueue : Option Bool} {c : Collecting} (a : Accounted s accepted (.scanning fromQueue c))
    (whole : ¬place'.Cut) (step : (Place.scanning fromQueue c).advance settings s resumption = some (place', s')) :
    Flow s s' (.scanning fromQueue c) place' ((Place.scanning fromQueue c).recorded settings s resumption) none := by
  obtain ⟨-, deferred, held, scan⟩ := a.sound
  cases resumption <;> try cases step
  simp only [Place.advance] at step
  dsimp only [Place.recorded]
  by_cases more : c.requests.length < settings.maxBatchSize ∧ c.toScan ≠ 0
  · rw [if_pos more, held] at step ⊢
    cases deferred with
    | nil => exact absurd (Nat.le_zero.mp scan) more.2
    | cons candidate rest =>
      obtain ⟨items, outcome⟩ := consider settings s candidate false
        (show ({ c with deferred := some rest, toScan := c.toScan - 1 } : Collecting).deferred = some rest from rfl)
      dsimp only at step ⊢
      have pending : (Place.scanning fromQueue c).pending.Perm (candidate :: (c.requests ++ rest)) := by
        simp only [Place.pending, held, Option.getD_some]
        exact List.perm_middle
      split at step <;> (rename_i run; rw [run] at items outcome; cases step)
      · exact absurd trivial whole
      · obtain ⟨-, ⟨recorded, rfl⟩ | ⟨kept, -, stays⟩⟩ := outcome _ _ rfl
        · exact drop (fun q => line_drop items pending) rfl rfl (Or.inl ⟨recorded, rfl⟩)
        · rw [kept]
          exact still (fun q => line_same items (stays.trans pending.symm)) rfl rfl
      · obtain ⟨impossible, -⟩ := outcome _ _ rfl
        cases impossible
  · rw [if_neg more] at step ⊢
    cases step
    exact still (fun q => line_same rfl (.refl _)) rfl rfl

/-- A collection that ends goes on with the requests that it has. -/
theorem endCollection {c : Collecting} {b : Bool} (t : Scheduling) :
    (t.endCollection (some b) c).2.queue.items = t.queue.items ∧
      (t.endCollection (some b) c).1.pending = c.requests ++ c.deferred.getD [] ∧
      (t.endCollection (some b) c).1.started = [] ∧ (t.endCollection (some b) c).1.finished = [] := by
  have calm : Calm t (t.endCollection (some b) c).2 := (Calm.monotonic.trans .setCollection).trans .monotonic
  exact ⟨congrArg AsyncQueue.items calm.queue, rfl, rfl, rfl⟩

theorem gathering {fromQueue : Option Bool} {c : Collecting} (a : Accounted s accepted (.gathering fromQueue c))
    (step : (Place.gathering fromQueue c).advance settings s resumption = some (place', s')) :
    Flow s s' (.gathering fromQueue c) place' none none := by
  obtain ⟨⟨b, rfl⟩, -⟩ := a.sound
  have ends : ∀ t : Scheduling, t.queue = s.queue → some (t.endCollection (some b) c) = some (place', s') →
      Flow s s' (.gathering (some b) c) place' none none := by
    intro t queue ends
    obtain ⟨items, pending, started, finished⟩ := endCollection (c := c) (b := b) t
    rw [Option.some.inj ends] at items pending started finished
    rw [queue] at items
    refine still (fun q => line_same items ?_) started finished
    rw [pending]
    exact .refl _
  cases resumption <;> try cases step
  simp only [Place.advance] at step
  split at step
  · split at step
    · exact ends s.monotonic.2 rfl step
    · cases step
      exact still (fun q => line_same rfl (.refl _)) rfl rfl
  · exact ends s rfl step

theorem waiting {fromQueue : Option Bool} {c : Collecting} (a : Accounted s accepted (.waiting fromQueue c))
    (whole : ¬place'.Cut) (step : (Place.waiting fromQueue c).advance settings s resumption = some (place', s')) :
    Flow s s' (.waiting fromQueue c) place' ((Place.waiting fromQueue c).recorded settings s resumption) none := by
  obtain ⟨⟨b, rfl⟩, deferred, held⟩ := a.sound
  have pending : (Place.waiting (some b) c).pending = c.requests ++ deferred := by simp [Place.pending, held]
  cases resumption <;> try cases step
  · simp only [Place.advance, Scheduling.get?] at step
    dsimp only [Place.recorded]
    cases queued : s.queue.items with
    | nil =>
      rw [queued] at step
      cases step
    | cons item rest =>
      rw [queued] at step
      cases item with
      | none =>
        -- The signal to stop is put back.
        dsimp only at step
        split at step
        · cases step
          exact absurd trivial whole
        rename_i t run
        have done : t.queue.items = rest := by
          have same := Pooled.items_taskDone (s := { s with queue := { s.queue with items := rest } })
          rw [run] at same
          exact same
        rcases t.putNowait_cases none with ⟨-, put⟩ | ⟨-, put⟩ <;> rw [put] at step
        · cases step
          exact absurd trivial whole
        obtain ⟨items, ends, started, finished⟩ := endCollection (c := c) (b := b)
          { t with queue := { t.queue with items := t.queue.items ++ [none], unfinished := t.queue.unfinished + 1 } }
        rw [Option.some.inj step] at items ends started finished
        refine still (fun q => ?_) started finished
        unfold Scheduling.line
        rw [items, ends, queued, done, List.count_append, List.count_cons]
        simp [Place.pending]
      | some candidate =>
        have left : ({ s with queue := { s.queue with items := rest } } : Scheduling).overdue settings candidate =
          s.overdue settings candidate := rfl
        obtain ⟨items, outcome⟩ := consider settings { s with queue := { s.queue with items := rest } } candidate true held
        rw [left] at outcome
        dsimp only at step ⊢ items
        split at step <;> (rename_i run; rw [run] at items outcome)
        · cases step
          exact absurd trivial whole
        · cases step
          obtain ⟨-, ⟨recorded, rfl⟩ | ⟨kept, -, stays⟩⟩ := outcome _ _ rfl
          · rw [recorded]
            exact drop (fun q => line_take_drop queued items (.refl _)) rfl rfl (Or.inl ⟨rfl, rfl⟩)
          · rw [kept]
            refine still (fun q => line_take queued items ?_) rfl rfl
            rw [pending]
            exact stays
        · obtain ⟨impossible, -⟩ := outcome _ _ rfl
          cases impossible
  · have items := (endCollection (c := c) (b := b) s).1
    exact still (fun q => line_same items (.refl _)) rfl rfl

theorem selecting {caller : Caller} {queuedItems : Nat} {now : Seconds} {rest active : List RequestRef}
    (step : (Place.selecting caller queuedItems now rest active).advance settings s resumption = some (place', s')) :
    Flow s s' (.selecting caller queuedItems now rest active) place'
      ((Place.selecting caller queuedItems now rest active).recorded settings s resumption) none := by
  obtain rfl : resumption = .proceed := by
    cases resumption <;> first | rfl | (cases rest <;> cases active <;> cases step)
  cases rest with
  | nil =>
    cases active with
    | nil =>
      cases step
      exact still (fun q => line_same rfl (.refl _)) rfl rfl
    | cons first active =>
      cases step
      have calm : Calm s (s.setBatchSize (first :: active).length (first :: active)) := .setBatchSize
      exact still (fun q => line_same (congrArg AsyncQueue.items calm.queue) (.refl _)) rfl rfl
  | cons r rest =>
    simp only [Place.advance] at step
    dsimp only [Place.recorded, Scheduling.overdue]
    by_cases cancelled : s.status r = .cancelled
    · rw [if_pos cancelled] at step
      rw [if_pos (Or.inr cancelled)]
      cases step
      exact drop (fun q => line_drop rfl (.refl _)) rfl rfl (Or.inl ⟨rfl, rfl⟩)
    rw [if_neg cancelled] at step
    split at step <;> (rename_i expired; cases step)
    · rw [if_pos (Or.inl expired)]
      have queue : (s.monotonic.2.finishTimeout r).queue = s.queue := queue_finish
      exact drop (fun q => line_drop (congrArg AsyncQueue.items queue) (.refl _)) rfl rfl (Or.inl ⟨rfl, rfl⟩)
    · rw [if_neg (not_or.mpr ⟨expired, cancelled⟩)]
      exact start (fun q => line_drop rfl (.refl _)) rfl rfl

theorem starting {caller : Caller} (step : (Place.starting caller r).advance settings s resumption = some (place', s')) :
    Flow s s' (.starting caller r) place' ((Place.starting caller r).recorded settings s resumption) none := by
  cases resumption <;> try cases step
  simp only [Place.advance] at step
  dsimp only [Place.recorded, Scheduling.overdue]
  by_cases cancelled : s.status r = .cancelled
  · rw [if_pos cancelled] at step
    rw [if_pos (Or.inr cancelled)]
    cases step
    exact drop (fun q => line_drop rfl (.refl _)) rfl rfl (Or.inl ⟨rfl, rfl⟩)
  rw [if_neg cancelled] at step
  split at step <;> (rename_i expired; cases step)
  · rw [if_pos (Or.inl expired)]
    have queue : (s.monotonic.2.finishTimeout r).queue = s.queue := queue_finish
    exact drop (fun q => line_drop (congrArg AsyncQueue.items queue) (.refl _)) rfl rfl (Or.inl ⟨rfl, rfl⟩)
  · rw [if_neg (not_or.mpr ⟨expired, cancelled⟩)]
    exact start (fun q => line_drop rfl (.refl _)) rfl rfl

theorem generatingOne {caller : Caller}
    (step : (Place.generatingOne caller r).advance settings s resumption = some (place', s')) :
    Flow s s' (.generatingOne caller r) place' ((Place.generatingOne caller r).recorded settings s resumption) none := by
  cases resumption with
  | result result =>
    have items : ∀ (t : Scheduling) (completed : Seconds), (((t.deliver settings r result completed).measure
        (·.modelExecutionFinished)).recordAndFinish r).queue.items = t.queue.items := by
      intro t completed
      have ends : Ends r t (((t.deliver settings r result completed).measure (·.modelExecutionFinished)).recordAndFinish r) :=
        .deliverMeasured
      rw [ends.queue]
    simp only [Place.advance] at step
    split at step <;> cases step
    · exact finish (fun q => line_same (items s.monotonic.2 _) (.refl _)) rfl rfl
    · exact finish (fun q => line_same (items s _) (.refl _)) rfl rfl
  | raises message =>
    cases step
    have ends : Ends r s (((s.fail r message).measure (·.modelExecutionFinished)).recordAndFinish r) := .failMeasured
    exact finish (fun q => line_same (congrArg AsyncQueue.items ends.queue) (.refl _)) rfl rfl
  | proceed => cases step
  | timeout => cases step
  | results results => cases step

theorem finishing {caller : Caller} {queuedItems : Nat} {completed : Seconds} {active rest : List RequestRef}
    {results : List GenerationResult} (a : Accounted s accepted (.finishing caller queuedItems completed active rest results))
    (step : (Place.finishing caller queuedItems completed active rest results).advance settings s resumption =
      some (place', s')) :
    Flow s s' (.finishing caller queuedItems completed active rest results) place'
      ((Place.finishing caller queuedItems completed active rest results).recorded settings s resumption) none := by
  cases resumption <;> cases rest <;> cases results <;> try cases step
  · refine depart (fun q => line_same rfl (.refl _)) rfl (fun q member => ?_) rfl
    simpa [Place.finished, Place.started] using member
  · exact still (fun q => line_same rfl (.refl _)) rfl rfl
  · exact still (fun q => line_same rfl (.refl _)) rfl rfl
  · rename_i r rest generated results
    have ends : Ends r s ((s.deliver settings r generated completed).recordAndFinish r) := .deliver
    refine result (fun q => line_same (congrArg AsyncQueue.items ends.queue) (.refl _)) rfl
      (a.sound.2 r List.mem_cons_self) fun q inside => ?_
    simp only [Place.finished, List.mem_filter, decide_eq_true_eq, List.mem_cons, not_or] at inside ⊢
    by_cases same : q = r
    · exact Or.inr same
    · exact Or.inl ⟨inside.1, same, inside.2⟩

theorem items_releaseItems {n : Nat} : (s.releaseItems n).2.queue.items = s.queue.items := by
  induction n generalizing s with
  | zero => rfl
  | succ n ih =>
    have done : s.taskDone.2.queue.items = s.queue.items := Pooled.items_taskDone
    unfold Scheduling.releaseItems
    split
    · rename_i run
      rw [run] at done
      exact done
    · rename_i run
      rw [run] at done
      exact ih.trans done

/-- Where a step of an uncancelled `run_scheduler` takes the requests. -/
theorem advance (a : Accounted s accepted place) (whole : ¬place'.Cut) (uncut : ¬place.Cut)
    (step : place.advance settings s resumption = some (place', s')) :
    Flow s s' place place' (place.recorded settings s resumption) (place.turnedAway s) := by
  cases place with
  | loopHead deferred => exact loopHead step
  | gettingFirst => exact gettingFirst step
  | scanning fromQueue c => exact scanning a whole step
  | gathering fromQueue c => exact gathering a step
  | waiting fromQueue c => exact waiting a whole step
  | selecting caller queuedItems now rest active => exact selecting step
  | generatingBatch caller queuedItems active =>
    cases resumption <;> cases step
    · refine still (fun q => line_same rfl (.refl _)) rfl ?_
      simp [Place.finished]
    · exact still (fun q => line_same rfl (.refl _)) rfl rfl
  | finishing caller queuedItems completed active rest results => exact finishing a step
  | failing caller queuedItems message rest =>
    cases resumption <;> cases rest <;> cases step
    · exact still (fun q => line_same rfl (.refl _)) rfl rfl
    · rename_i r rest
      have ends : Ends r s ((s.fail r message).recordAndFinish r) := .fail
      exact finish (fun q => line_same (congrArg AsyncQueue.items ends.queue) (.refl _)) rfl rfl
  | abandoning caller queuedItems rest => exact absurd trivial uncut
  | starting caller request => exact starting step
  | generatingOne caller request => exact generatingOne step
  | returning caller queuedItems result =>
    cases result with
    | error e => exact absurd trivial uncut
    | ok _ =>
      cases resumption <;> cases caller <;> try cases step
      · exact absurd rfl a.sound.1
      rename_i fromQueue deferred
      have items : (s.leave queuedItems fromQueue (.ok ())).2.queue.items = s.queue.items :=
        Pooled.items_itemDone.trans items_releaseItems
      simp only [Place.advance] at step
      split at step <;> (rename_i run; rw [run] at items; cases step)
      · exact still (fun q => line_same items (.refl _)) rfl rfl
      · exact absurd trivial whole
  | ended result => cases step

end Advance

end Flow

end ServingPlatform
