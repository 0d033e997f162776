import ServingPlatform.RequestScheduler.Flows

namespace ServingPlatform

open Scheduling

/-- Whoever is brought to an end, but not cancelled, is told to the metrics. -/
theorem Place.written_told {settings : SchedulerSettings} {s : Scheduling} {place : Place} {resumption : Resumption}
    {r : RequestRef} {status : RequestStatus} (written : place.written settings s resumption = some (r, status))
    (isOver : status.isTerminal = true) (uncancelled : status ≠ .cancelled) :
    place.recorded settings s resumption = some r ∨ place.turnedAway s = some r := by
  have looked : ∀ {q : RequestRef}, (if (s.timedOut q settings.requestTimeout).1 = true then some (q, RequestStatus.timeout)
      else none) = some (r, status) → s.overdue settings q = some r := by
    intro q written
    unfold Scheduling.overdue
    split at written
    · rename_i expired
      cases written
      exact if_pos (Or.inl expired)
    · cases written
  have run : ∀ {q : RequestRef}, (if s.status q = .cancelled then none else
      some (q, if (s.timedOut q settings.requestTimeout).1 = true then RequestStatus.timeout else .running)) =
        some (r, status) → s.overdue settings q = some r := by
    intro q written
    unfold Scheduling.overdue
    split at written
    · cases written
    split at written
    · rename_i expired
      cases written
      exact if_pos (Or.inl expired)
    · cases written
      cases isOver
  cases place with
  | loopHead deferred =>
    cases deferred with
    | nil => cases written
    | cons first deferred =>
      dsimp only [Place.written] at written
      split at written
      · rename_i closed
        cases written
        exact Or.inr (if_pos closed)
      · cases written
  | scanning fromQueue c =>
    dsimp only [Place.written] at written
    dsimp only [Place.recorded]
    split at written
    · rename_i more
      rw [if_pos more]
      cases held : c.deferred with
      | none =>
        rw [held] at written
        cases written
      | some deferred =>
        rw [held] at written
        cases deferred with
        | nil => cases written
        | cons candidate rest => exact Or.inl (looked written)
    · cases written
  | waiting fromQueue c =>
    cases resumption <;> try cases written
    dsimp only [Place.written, Scheduling.get?] at written
    dsimp only [Place.recorded]
    cases queued : s.queue.items with
    | nil =>
      rw [queued] at written
      cases written
    | cons item rest =>
      rw [queued] at written
      cases item with
      | none => cases written
      | some candidate => exact Or.inl (looked written)
  | selecting caller queuedItems now rest active =>
    cases rest with
    | nil => cases written
    | cons first rest => exact Or.inl (run written)
  | starting caller request => exact Or.inl (run written)
  | finishing caller queuedItems completed active rest results =>
    cases rest <;> cases results <;> cases written
    exact Or.inl rfl
  | failing caller queuedItems message rest =>
    cases rest <;> cases written
    exact Or.inl rfl
  | abandoning caller queuedItems rest =>
    cases rest <;> cases written
    exact Or.inl rfl
  | generatingOne caller request =>
    cases resumption <;> cases written
    · exact Or.inl rfl
    · exact Or.inl rfl
  | gettingFirst => cases written
  | gathering fromQueue c => cases written
  | generatingBatch caller queuedItems active => cases written
  | returning caller queuedItems result => cases written
  | ended result => cases written

/-- The log holds the requests that the metrics have counted, each once. -/
structure Counted (s : Scheduling) (accepted log : List RequestRef) (place : Place) : Prop where
  total : s.metrics.total = log.length
  calls : s.metrics.activeModelExecutions = place.executing
  nodup : log.Nodup
  known : ∀ r ∈ log, r ∈ accepted
  fresh : ∀ r, r ∉ accepted → s.isRecorded r = false
  recorded : ∀ r ∈ accepted, s.isRecorded r = true → r ∈ log
  isOver : ∀ r ∈ accepted, (s.status r).isTerminal = true → s.status r ≠ .cancelled → r ∈ log
  waiting : ∀ r, s.Waits place r → r ∉ log
  started : ∀ r ∈ place.started, r ∈ log → s.isRecorded r = true
  finished : ∀ r ∈ place.finished, s.isRecorded r = true
  left : ∀ r ∈ accepted, r ∉ s.pool place → r ∈ log

namespace Counted

variable {settings : SchedulerSettings} {s s' : Scheduling} {accepted log : List RequestRef} {place place' : Place}
  {resumption : Resumption} {r : RequestRef}

theorem mem_counted {told : Option RequestRef} {refused : List RequestRef} :
    r ∈ s.counted told refused ↔ told = some r ∧ s.isRecorded r = false ∨ r ∈ refused := by
  unfold Scheduling.counted
  simp [Option.filter_eq_some_iff]

theorem mem_pool_iff : r ∈ s.pool place ↔ s.Waits place r ∨ r ∈ place.started := by
  rw [← List.count_pos_iff, count_pool, waits_iff_line, ← List.count_pos_iff]
  omega

/-- Who is told to the metrics has not been counted before. -/
theorem new (counted : Counted s accepted log place) (inside : r ∈ s.pool place) (unrecorded : s.isRecorded r = false) :
    r ∉ log := by
  rcases mem_pool_iff.mp inside with waits | started
  · exact counted.waiting r waits
  · intro member
    have recorded := counted.started r started member
    rw [unrecorded] at recorded
    cases recorded

theorem recorded_or_refused (settings : SchedulerSettings) (s : Scheduling) (resumption : Resumption) (place : Place) :
    place.recorded settings s resumption = none ∨ place.turnedAway s = none := by
  cases place with
  | loopHead deferred => exact Or.inl rfl
  | _ => exact Or.inr rfl

theorem nodup_counted {told refused : Option RequestRef} (one : told = none ∨ refused = none) :
    (s.counted told refused.toList).Nodup := by
  unfold Scheduling.counted
  rcases one with rfl | rfl
  · cases refused <;> simp
  · cases told with
    | none => simp
    | some r => cases flag : s.isRecorded r <;> simp [Option.filter, flag]

/-- A step of the task counts whom it brings to an end. -/
theorem advance (counted : Counted s accepted log place) (a : Accounted s accepted place) (p : Pooled s [] place)
    (uncut : ¬place.Cut) (step : place.advance settings s resumption = some (place', s')) :
    Counted s' accepted (s.counted (place.recorded settings s resumption) (place.turnedAway s).toList ++ log) place' := by
  have whole := Pooled.uncut a uncut step
  have tally := Tally.advance step
  have flow := Flow.advance a whole uncut step
  have p' := p.advance a step
  have told_over : ∀ q ∈ accepted, (s'.status q).isTerminal = true → s'.status q ≠ .cancelled → q ∈ log ∨
      place.recorded settings s resumption = some q ∨ place.turnedAway s = some q := by
    intro q member isOver uncancelled
    have after := Place.status_advance (q := q) step
    unfold statusAfter at after
    split at after
    · rename_i written
      split at after
      · rename_i same
        rw [after] at isOver uncancelled
        rw [same]
        exact Or.inr (Place.written_told written isOver uncancelled)
      · rw [after] at isOver uncancelled
        exact Or.inl (counted.isOver q member isOver uncancelled)
    · rw [after] at isOver uncancelled
      exact Or.inl (counted.isOver q member isOver uncancelled)
  have one := recorded_or_refused settings s resumption place
  generalize place.recorded settings s resumption = told at tally flow told_over one ⊢
  generalize place.turnedAway s = refused at tally flow told_over one ⊢
  obtain ⟨out, kept, gone, records, refuses⟩ := flow.pool
  have before : ∀ q, q ∈ s.pool place ↔ q ∈ out ∨ q ∈ s'.pool place' := by
    intro q
    have same := kept q
    rw [← List.count_pos_iff, ← List.count_pos_iff, ← List.count_pos_iff]
    omega
  have apart : ∀ q ∈ out, q ∉ s'.pool place' := by
    intro q left stays
    have same := kept q
    have once := List.nodup_iff_count_le_one.mp p.nodup q
    have one := List.count_pos_iff.mpr left
    have other := List.count_pos_iff.mpr stays
    omega
  have told_pool : ∀ q, told = some q → q ∈ s.pool place := fun q same =>
    (before q).mpr ((records q same).imp id fun started => mem_pool_iff.mpr (Or.inr started))
  have told_log : ∀ q, told = some q → q ∈ s.counted told refused.toList ++ log := by
    intro q same
    rw [List.mem_append, mem_counted]
    cases flag : s.isRecorded q with
    | false => exact Or.inl (Or.inl ⟨same, rfl⟩)
    | true => exact Or.inr (counted.recorded q (a.pool_accepted (told_pool q same)) flag)
  have refused_log : ∀ q, refused = some q → q ∈ s.counted told refused.toList ++ log := fun q same =>
    List.mem_append_left _ (mem_counted.mpr (Or.inr (Option.mem_toList.mpr same)))
  have counted_pool : ∀ q ∈ s.counted told refused.toList, q ∈ s.pool place ∧ q ∉ log := by
    intro q member
    rcases mem_counted.mp member with ⟨same, unrecorded⟩ | same
    · exact ⟨told_pool q same, counted.new (told_pool q same) unrecorded⟩
    · have waits := (refuses q (Option.mem_toList.mp same)).2
      exact ⟨mem_pool_iff.mpr (Or.inl waits), counted.waiting q waits⟩
  refine ⟨?_, ?_, ?_, fun q member => ?_, fun q outside => ?_, fun q member flag => ?_, fun q member isOver uncancelled => ?_,
    fun q waits => ?_, fun q started member => ?_, fun q inside => ?_, fun q member outside => ?_⟩
  · rw [tally.total, counted.total, List.length_append]
    omega
  · rw [tally.calls, counted.calls]
    omega
  · refine List.nodup_append.mpr ⟨nodup_counted one, counted.nodup, fun q first q' second same => ?_⟩
    exact (counted_pool q first).2 (same ▸ second)
  · rcases List.mem_append.mp member with new | old
    · exact a.pool_accepted (counted_pool q new).1
    · exact counted.known q old
  · cases flag : s'.isRecorded q with
    | false => rfl
    | true =>
      rcases (tally.flags q).mp flag with old | same
      · rw [counted.fresh q outside] at old
        cases old
      · exact absurd (a.pool_accepted (told_pool q same)) outside
  · rcases (tally.flags q).mp flag with old | same
    · exact List.mem_append_right _ (counted.recorded q member old)
    · exact told_log q same
  · rcases told_over q member isOver uncancelled with old | same | same
    · exact List.mem_append_right _ old
    · exact told_log q same
    · exact refused_log q same
  · have stays : q ∈ s'.pool place' := mem_pool_iff.mpr (Or.inl waits)
    intro member
    rcases List.mem_append.mp member with new | old
    · rcases mem_counted.mp new with ⟨same, -⟩ | same
      · rcases records q same with left | started
        · exact apart q left stays
        · exact p'.not_waits_of_started started waits
      · exact apart q (refuses q (Option.mem_toList.mp same)).1 stays
    · exact counted.waiting q (flow.waits q waits) old
  · have stays : q ∈ s'.pool place' := mem_pool_iff.mpr (Or.inr started)
    rw [tally.flags]
    rcases List.mem_append.mp member with new | old
    · rcases mem_counted.mp new with ⟨same, -⟩ | same
      · exact Or.inr same
      · exact absurd stays (apart q (refuses q (Option.mem_toList.mp same)).1)
    · rcases mem_pool_iff.mp ((before q).mpr (Or.inr stays)) with waits | started
      · exact absurd old (counted.waiting q waits)
      · exact Or.inl (counted.started q started old)
  · rw [tally.flags]
    exact (flow.finished q inside).imp (counted.finished q) id
  · by_cases inside : q ∈ s.pool place
    · rcases gone q (((before q).mp inside).resolve_right outside) with same | same | finished
      · exact told_log q same
      · exact refused_log q same
      · exact List.mem_append_right _ (counted.recorded q member (counted.finished q finished))
    · exact List.mem_append_right _ (counted.left q member inside)

section Clients

theorem line_items (items : s'.queue.items = s.queue.items) : s'.line place r = s.line place r := line_same items (.refl _)

/-- Clients that tell the metrics nothing. -/
theorem untouched (counted : Counted s accepted log place) (tally : Tally none [] 0 s s')
    (items : s'.queue.items = s.queue.items)
    (status : ∀ q ∈ accepted, s'.status q = s.status q ∨ s'.status q = .cancelled) : Counted s' accepted log place := by
  have flags : ∀ q, s'.isRecorded q = true ↔ s.isRecorded q = true := by
    intro q
    rw [tally.flags]
    simp
  have waits : ∀ q, s'.Waits place q ↔ s.Waits place q := fun q => by rw [waits_iff_line, waits_iff_line, line_items items]
  refine ⟨?_, ?_, counted.nodup, counted.known, fun q outside => ?_, fun q member flag => ?_,
    fun q member isOver uncancelled => ?_, fun q waiting => ?_, fun q started member => ?_, fun q inside => ?_,
    fun q member outside => ?_⟩
  · rw [tally.total]
    exact counted.total
  · rw [tally.calls, counted.calls]
    omega
  · rw [Bool.eq_false_iff, Ne, flags, Bool.not_eq_true]
    exact counted.fresh q outside
  · exact counted.recorded q member ((flags q).mp flag)
  · rcases status q member with same | cancelled
    · rw [same] at isOver uncancelled
      exact counted.isOver q member isOver uncancelled
    · exact absurd cancelled uncancelled
  · exact counted.waiting q ((waits q).mp waiting)
  · exact (flags q).mpr (counted.started q started member)
  · exact (flags q).mpr (counted.finished q inside)
  · rw [mem_pool_iff, waits] at outside
    exact counted.left q member (mem_pool_iff.not.mpr outside)

theorem cancel (counted : Counted s accepted log place) {reason : String} :
    Counted (s.cancel r reason) accepted log place := by
  refine counted.untouched .cancel ?_ fun q _ => ?_
  · rw [(Calm.cancel : Calm s (s.cancel r reason)).queue]
  · rw [status_cancel]
    split
    · exact Or.inr rfl
    · exact Or.inl rfl

/-- A refused request leaves the scheduler alone. -/
theorem refused (counted : Counted s accepted log place) (new : r ∉ accepted) {e : Raised}
    (run : s.submit r = (.error e, s')) : Counted s' accepted log place := by
  have tally : Tally none [] 0 s (s.submit r).2 := .submit
  have status := fun q => status_submit (s := s) (r := r) (q := q)
  rcases s.submit_cases r with ⟨-, e', t, message, run', from_⟩ | ⟨-, -, size, run'⟩
  · rw [run] at tally status run'
    obtain ⟨-, rfl⟩ := Prod.mk.inj run'
    refine counted.untouched tally ?_ fun q member => Or.inl ?_
    · rw [queue_finish]
      rcases from_ with rfl | rfl <;> rfl
    · have differ : q ≠ r := fun same => new (same ▸ member)
      rw [status q, if_neg differ]
  · rw [run] at run'
    cases run'

/-- An accepted request waits in the queue, and has not been counted. -/
theorem accept (counted : Counted s accepted log place) (new : r ∉ accepted) (run : s.submit r = (.ok (), s')) :
    Counted s' (r :: accepted) log place := by
  have tally : Tally none [] 0 s (s.submit r).2 := .submit
  have status := fun q => status_submit (s := s) (r := r) (q := q)
  rcases s.submit_cases r with ⟨-, e, t, message, run', -⟩ | ⟨accepting, room, size, run'⟩
  · rw [run] at run'
    cases run'
  rw [run] at tally status run'
  have items : s'.queue.items = s.queue.items ++ [some r] := by
    obtain ⟨-, rfl⟩ := Prod.mk.inj run'
    rfl
  have flags : ∀ q, s'.isRecorded q = true ↔ s.isRecorded q = true := by
    intro q
    rw [tally.flags]
    simp
  have waits : ∀ q, s'.Waits place q ↔ s.Waits place q ∨ q = r := by
    intro q
    unfold Scheduling.Waits
    rw [items, List.mem_append, List.mem_singleton, Option.some.injEq]
    tauto
  have others : ∀ q ∈ r :: accepted, q ≠ r → q ∈ accepted := fun q member differ =>
    (List.mem_cons.mp member).resolve_left differ
  refine ⟨?_, ?_, counted.nodup, fun q member => List.mem_cons_of_mem _ (counted.known q member), fun q outside => ?_,
    fun q member flag => ?_, fun q member isOver uncancelled => ?_, fun q waiting => ?_, fun q started member => ?_,
    fun q inside => ?_, fun q member outside => ?_⟩
  · rw [tally.total]
    exact counted.total
  · rw [tally.calls, counted.calls]
    omega
  · rw [Bool.eq_false_iff, Ne, flags, Bool.not_eq_true]
    exact counted.fresh q fun inside => outside (List.mem_cons_of_mem _ inside)
  · have old := (flags q).mp flag
    refine counted.recorded q (others q member ?_) old
    rintro rfl
    rw [counted.fresh q new] at old
    cases old
  · have open_ : ¬(s.accepting = false ∨ s.queue.full = true) := by
      rw [accepting, room]
      decide
    rw [status q, if_neg open_] at isOver uncancelled
    split at isOver
    · cases isOver
    · rename_i differ
      rw [if_neg differ] at uncancelled
      exact counted.isOver q (others q member differ) isOver uncancelled
  · rcases (waits q).mp waiting with before | rfl
    · exact counted.waiting q before
    · exact fun member => new (counted.known q member)
  · exact (flags q).mpr (counted.started q started member)
  · exact (flags q).mpr (counted.finished q inside)
  · rw [mem_pool_iff, waits] at outside
    refine counted.left q (others q member fun same => outside (Or.inl (Or.inr same))) ?_
    rw [mem_pool_iff]
    exact fun inside => outside (inside.imp Or.inl id)

/-- The queue after `close`. -/
theorem items_close (a : Accounted s accepted place) (accepting : s.accepting = true) : s.close.2.queue.items = [none] := by
  have enough : s.queue.items.length ≤ s.queue.unfinished := by
    have counted := a.counted
    omega
  obtain ⟨n, t, run, emptied, -⟩ := drain_empties (s := { s with accepting := false }) rfl enough 0
  have run' : ({ s with accepting := false }.drain 0 s.queue.items) = (.ok n, t) := run
  unfold Scheduling.close
  rw [if_neg (by simp [accepting]), run']
  dsimp only
  rcases t.putNowait_cases none with ⟨full, -⟩ | ⟨-, put⟩
  · exfalso
    rw [emptied] at full
    simp only [AsyncQueue.full, List.length_nil, Bool.and_eq_true, decide_eq_true_eq] at full
    omega
  · rw [put]
    dsimp only
    rw [emptied]
    rfl

/-- `close` counts whom it rejects. -/
theorem close (counted : Counted s accepted log place) (a : Accounted s accepted place) (p : Pooled s [] place) :
    Counted s.close.2 accepted
      (s.counted none (if s.accepting = true then s.drained.filterMap id else []) ++ log) place := by
  have tally := Tally.close (s := s)
  cases accepting : s.accepting with
  | false =>
    have same : s.close.2 = s := by
      unfold Scheduling.close
      rw [if_pos accepting]
    rw [same]
    exact counted
  | true =>
    have items := items_close a accepting
    have status := fun q => status_close (q := q) accepting
    have all : s.drained = s.queue.items := by
      refine List.take_of_length_le ?_
      have enough := a.counted
      omega
    rw [accepting, if_pos rfl, all] at tally
    simp only [all] at status
    rw [if_pos rfl, all]
    generalize s.close.2 = t at tally items status ⊢
    have queued : ∀ q, q ∈ s.queue.items.filterMap id ↔ some q ∈ s.queue.items := by
      intro q
      rw [← List.count_pos_iff, count_filterMap_id, List.count_pos_iff]
    have rejects : s.counted none (s.queue.items.filterMap id) = s.queue.items.filterMap id := rfl
    rw [rejects]
    have flags : ∀ q, t.isRecorded q = true ↔ s.isRecorded q = true := by
      intro q
      rw [tally.flags]
      simp
    have waits : ∀ q, t.Waits place q → q ∈ place.pending := by
      rintro q (inside | pending)
      · rw [items] at inside
        simp at inside
      · exact pending
    have distinct := List.nodup_append.mp p.nodup
    refine ⟨?_, ?_, ?_, fun q member => ?_, fun q outside => ?_, fun q member flag => ?_,
      fun q member isOver uncancelled => ?_, fun q waiting => ?_, fun q started member => ?_, fun q inside => ?_,
      fun q member outside => ?_⟩
    · rw [tally.total, counted.total, List.length_append, rejects]
      omega
    · rw [tally.calls, counted.calls]
      omega
    · refine List.nodup_append.mpr ⟨distinct.1, counted.nodup, fun q first q' second same => ?_⟩
      exact counted.waiting q (Or.inl ((queued q).mp first)) (same ▸ second)
    · rcases List.mem_append.mp member with waited | old
      · exact a.known q ((queued q).mp waited)
      · exact counted.known q old
    · rw [Bool.eq_false_iff, Ne, flags, Bool.not_eq_true]
      exact counted.fresh q outside
    · exact List.mem_append_right _ (counted.recorded q member ((flags q).mp flag))
    · rw [status q] at isOver uncancelled
      rw [List.mem_append, queued]
      split at isOver
      · rename_i waited
        exact Or.inl waited
      · rename_i apart
        rw [if_neg apart] at uncancelled
        exact Or.inr (counted.isOver q member isOver uncancelled)
    · have pending := waits q waiting
      intro member
      rcases List.mem_append.mp member with waited | old
      · exact distinct.2.2 q waited q (List.mem_append_left _ pending) rfl
      · exact counted.waiting q (Or.inr pending) old
    · rw [flags]
      rcases List.mem_append.mp member with waited | old
      · exact absurd rfl (distinct.2.2 q waited q (List.mem_append_right _ started))
      · exact counted.started q started old
    · exact (flags q).mpr (counted.finished q inside)
    · rw [List.mem_append, queued]
      by_cases waited : some q ∈ s.queue.items
      · exact Or.inl waited
      · refine Or.inr (counted.left q member fun inside => outside ?_)
        rw [mem_pool_iff] at inside ⊢
        exact inside.imp (fun waits => Or.inr (waits.resolve_left waited)) id

end Clients

theorem init (maximum : Int) (requests : RequestRef → InferenceRequest) (clock : Nat → Seconds)
    (unrecorded : ∀ r, (requests r).metricsRecorded = false) :
    Counted (.init maximum requests clock) [] [] .gettingFirst where
  total := rfl
  calls := rfl
  nodup := .nil
  known r member := by cases member
  fresh r _ := unrecorded r
  recorded r member := by cases member
  isOver r member := by cases member
  waiting r _ member := by cases member
  started r member := by cases member
  finished r member := by cases member
  left r member := by cases member

end Counted

namespace SchedulerSystem

variable {settings : SchedulerSettings} {s s' first : SchedulerSystem} {action : SchedulerAction} {place : Place}
  {log : List RequestRef}

/-- A run of one uncancelled `run_scheduler`, with the requests that the metrics count in it. -/
inductive CountedRun (settings : SchedulerSettings) (first : SchedulerSystem) : SchedulerSystem → List RequestRef → Prop
  | start : CountedRun settings first first []
  | next {s s' : SchedulerSystem} {action : SchedulerAction} {log : List RequestRef} : CountedRun settings first s log →
      s.Undisturbed action → s.step settings action = some s' → CountedRun settings first s' (s.counts settings action ++ log)

theorem CountedRun.forget (run : CountedRun settings first s log) : SchedulerRun settings Undisturbed first s := by
  induction run with
  | start => exact .start
  | next _ undisturbed step ih => exact .next ih undisturbed step

theorem counted_of_run (run : SchedulerRun settings Undisturbed first s) : ∃ log, CountedRun settings first s log := by
  induction run with
  | start => exact ⟨[], .start⟩
  | next _ undisturbed step ih =>
    obtain ⟨log, run⟩ := ih
    exact ⟨_, .next run undisturbed step⟩

/-- The invariant of the metrics in such a run. -/
structure Metered (s : SchedulerSystem) (log : List RequestRef) (place : Place) : Prop where
  only : s.tasks = [place]
  accounted : Accounted s.shared s.accepted place
  pooled : Pooled s.shared [] place
  whole : ¬place.Cut
  counted : Counted s.shared s.accepted log place

theorem Metered.step (metered : Metered s log place) (undisturbed : s.Undisturbed action)
    (step : s.step settings action = some s') : ∃ place', Metered s' (s.counts settings action ++ log) place' := by
  obtain ⟨only, a, p, whole, counted⟩ := metered
  cases action with
  | call call => exact undisturbed.elim
  | interrupt task => exact undisturbed.elim
  | submit r =>
    have new : r ∉ s.shared.pool place := fun inside => undisturbed (a.pool_accepted inside)
    simp only [SchedulerSystem.step] at step
    split at step
    · rcases s.shared.submit_cases r with ⟨-, e, t, message, run, from_⟩ | ⟨accepting, -, size, run⟩
      · have kept := counted.refused undisturbed run
        rw [run] at step
        cases step
        exact ⟨place, only, a.refused from_, p.refused List.not_mem_nil from_, whole, kept⟩
      · have kept := counted.accept undisturbed run
        rw [run] at step
        cases step
        have going : place ≠ .ended (.ok ()) := by
          rintro rfl
          have closed := a.leaving trivial
          rw [accepting] at closed
          cases closed
        exact ⟨place, only, a.accept accepting, p.accept new going (fun q member => by cases member), whole, kept⟩
    · cases step
  | cancel r reason =>
    simp only [SchedulerSystem.step] at step
    split at step <;> cases step
    exact ⟨place, only, a.cancel, p.cancel, whole, counted.cancel⟩
  | close =>
    simp only [SchedulerSystem.step] at step
    split at step <;> cases step
    exact ⟨place, only, a.close, p.close a, whole, counted.close a p⟩
  | resume task resumption =>
    simp only [SchedulerSystem.step] at step
    split at step
    · cases found : s.tasks[task]? with
      | none =>
        rw [found] at step
        cases step
      | some here =>
        rw [found] at step
        obtain ⟨⟨place', shared⟩, run, rfl⟩ := Option.map_eq_some_iff.mp step
        obtain ⟨rfl, rfl⟩ := sole only found
        refine ⟨place', ?_, a.advance run, p.advance a run, Pooled.uncut a whole run, ?_⟩
        · dsimp only
          rw [only]
          rfl
        · simp only [counts, found]
          exact counted.advance a p whole run
    · cases step

theorem Metered.run {requests : RequestRef → InferenceRequest} {maximum : Int} {clock : Nat → Seconds}
    (unrecorded : ∀ r, (requests r).metricsRecorded = false)
    (run : CountedRun settings ⟨.init maximum requests clock, [.gettingFirst], []⟩ s log) :
    ∃ place, Metered s log place := by
  induction run with
  | start =>
    obtain ⟨place, only, accounted⟩ := Handled.init maximum requests clock
    obtain rfl : Place.gettingFirst = place := by simpa using only
    exact ⟨_, rfl, accounted, .init maximum requests clock, id, .init maximum requests clock unrecorded⟩
  | next _ undisturbed step ih =>
    obtain ⟨place, metered⟩ := ih
    exact metered.step undisturbed step

/-- What the task has in its hands it will bring to an end, or has its result. -/
theorem held_or_finished {r : RequestRef} (inside : r ∈ place.pending ++ place.started) :
    r ∈ place.holds ∨ r ∈ place.finished := by
  cases place with
  | finishing caller queuedItems completed active rest results =>
    simp only [Place.pending, Place.started, Place.holds, Place.finished, List.mem_append, List.mem_filter,
      decide_eq_true_eq] at inside ⊢
    tauto
  | returning caller queuedItems result =>
    cases result with
    | ok _ => exact Or.inl (by simpa [Place.pending, Place.started, Place.holds] using inside)
    | error e => cases inside
  | gettingFirst => cases inside
  | ended result => cases inside
  | _ =>
    refine Or.inl ?_
    simp only [Place.pending, Place.started, Place.holds, List.mem_append, List.mem_cons, List.not_mem_nil,
      or_false] at inside ⊢
    tauto

/-- In every run of the scheduler that nobody cancels, the counters add up to
the requests of the log, in which no request is twice and each was accepted. A
request is in it once it is over but not cancelled, and also if it was
cancelled, once it is neither in the queue nor in the scheduler's hands. The
active model executions are those that the task is in. -/
theorem requests_counted_once (settings : SchedulerSettings) (maximum : Int) (requests : RequestRef → InferenceRequest)
    (unrecorded : ∀ r, (requests r).metricsRecorded = false) (clock : Nat → Seconds) (s : SchedulerSystem)
    (run : SchedulerRun settings Undisturbed ⟨.init maximum requests clock, [.gettingFirst], []⟩ s) :
    (∃ log, CountedRun settings ⟨.init maximum requests clock, [.gettingFirst], []⟩ s log) ∧
      ∀ log, CountedRun settings ⟨.init maximum requests clock, [.gettingFirst], []⟩ s log →
        ∃ place, s.tasks = [place] ∧ s.shared.metrics.total = log.length ∧
          (∀ r, log.count r ≤ 1 ∧ (r ∈ log → r ∈ s.accepted)) ∧
          (∀ r ∈ s.accepted, ((s.shared.requests r).terminal = true ∧ s.shared.status r ≠ .cancelled ∨
            some r ∉ s.shared.queue.items ∧ r ∉ place.holds) → log.count r = 1) ∧
          s.shared.metrics.activeModelExecutions = place.executing := by
  refine ⟨counted_of_run run, fun log logged => ?_⟩
  obtain ⟨place, metered⟩ := Metered.run unrecorded logged
  have counted := metered.counted
  refine ⟨place, metered.only, counted.total, fun r => ⟨List.nodup_iff_count_le_one.mp counted.nodup r, counted.known r⟩,
    fun r member ends => List.count_eq_one_of_mem counted.nodup ?_, counted.calls⟩
  rcases ends with ⟨isOver, uncancelled⟩ | ⟨unqueued, free⟩
  · exact counted.isOver r member isOver uncancelled
  by_cases finished : r ∈ place.finished
  · exact counted.recorded r member (counted.finished r finished)
  refine counted.left r member fun inside => ?_
  rcases List.mem_append.mp inside with queued | hands
  · rw [← List.count_pos_iff, count_filterMap_id, List.count_pos_iff] at queued
    exact unqueued queued
  · exact (held_or_finished hands).elim free finished

open Sample in
theorem requests_counted_once_closed :
    ∃ s, start.perform Sample.settings
        [.submit 0, .submit 1, .cancel 1 "client disconnected", .close, .resume 0 .proceed] = some s ∧
      ∃ log, CountedRun Sample.settings start s log ∧ s.shared.metrics.total = log.length ∧
        log.count 0 = 1 ∧ log.count 1 = 1 := by
  have first : SchedulerRun Sample.settings Undisturbed start _ :=
    .next .start (show start.Undisturbed (.submit 0) from List.not_mem_nil) rfl
  have other : (1 : RequestRef) ∉ (0 : RequestRef) :: start.accepted := by decide
  have second := first.next (show SchedulerSystem.Undisturbed _ (.submit 1) from other) rfl
  have cancelled := second.next (show SchedulerSystem.Undisturbed _ (.cancel 1 "client disconnected") from trivial) rfl
  have closed := cancelled.next (show SchedulerSystem.Undisturbed _ .close from trivial) rfl
  have resumed := closed.next (show SchedulerSystem.Undisturbed _ (.resume 0 .proceed) from trivial) rfl
  obtain ⟨⟨log, logged⟩, all⟩ :=
    requests_counted_once Sample.settings 8 (fun _ => request) (fun _ => rfl) (fun n => n + 1) _ resumed
  obtain ⟨place, only, total, -, once, -⟩ := all log logged
  obtain rfl : Place.ended (.ok ()) = place := (List.cons.inj only).1
  refine ⟨_, by rfl, log, logged, total, once 0 ?_ (Or.inr ⟨?_, List.not_mem_nil⟩),
    once 1 ?_ (Or.inr ⟨?_, List.not_mem_nil⟩)⟩
  · decide
  · decide
  · decide
  · decide

end SchedulerSystem

end ServingPlatform
