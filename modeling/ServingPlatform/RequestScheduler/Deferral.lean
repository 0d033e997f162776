import ServingPlatform.RequestScheduler.DequeTurns

namespace ServingPlatform

open Scheduling

namespace Place

/-- The deque in the order in which the loop comes to it; a scan that goes through
brings what it passed over back to the front. -/
def line : Place → List RequestRef
  | .scanning _ c => (c.deferred.getD []).drop c.toScan ++ (c.deferred.getD []).take c.toScan
  | place => place.deferred

/-- The batches that a step begins. -/
def begins : Place → Place → Nat
  | .loopHead _, .scanning .. | .loopHead _, .starting .. => 1
  | _, _ => 0

/-- The requests that a step puts ahead of one: where a batch is full before its scan is
through, those not yet scanned go ahead of those passed over. -/
def overtakes (x : RequestRef) : Place → Place → Nat
  | .scanning _ c, .gathering .. => if x ∈ (c.deferred.getD []).drop c.toScan then c.toScan else 0
  | _, _ => 0

end Place

namespace SchedulerSystem

/-- A request waits in a scheduler's deque, from one of its loop heads on: with
the batches begun and the requests put ahead of it since. -/
inductive Deferral (settings : SchedulerSettings) (task : Nat) (x : RequestRef) (first : SchedulerSystem) :
    Nat → Nat → SchedulerSystem → Prop
  | start {deque : List RequestRef} (head : first.tasks[task]? = some (.loopHead deque)) (waits : x ∈ deque) :
      Deferral settings task x first 0 0 first
  | step {batches ahead : Nat} {s s' : SchedulerSystem} {place place' : Place} {action : SchedulerAction}
      (before : Deferral settings task x first batches ahead s) (step : s.step settings action = some s')
      (here : s.tasks[task]? = some place) (there : s'.tasks[task]? = some place') (waits : x ∈ place'.deferred)
      (single : x ∉ place'.batch) (alive : (s'.shared.requests x).terminal = false) :
      Deferral settings task x first (batches + place.begins place') (ahead + place.overtakes x place') s'

/-- The states from the begin of a batch, at a loop head with something behind
it in the deque, until the loop head is reached again; the last state first. -/
inductive Batching (settings : SchedulerSettings) (task : Nat) (first : SchedulerSystem) (deque : List RequestRef) :
    List SchedulerSystem → SchedulerSystem → Prop
  | start {head : RequestRef} {action : SchedulerAction} {s : SchedulerSystem} {fromQueue : Option Bool} {c : Collecting}
      (at_ : first.tasks[task]? = some (.loopHead (head :: deque))) (step : first.step settings action = some s)
      (begun : s.tasks[task]? = some (.scanning fromQueue c)) : Batching settings task first deque [s] s
  | step {past : List SchedulerSystem} {s s' : SchedulerSystem} {action : SchedulerAction}
      (before : Batching settings task first deque past s) (away : ∀ after, s.tasks[task]? ≠ some (.loopHead after))
      (step : s.step settings action = some s') : Batching settings task first deque (s' :: past) s'

/-- At some time a request was in the batch of a task, or over. -/
def Dealt (task : Nat) (past : List SchedulerSystem) (r : RequestRef) : Prop :=
  ∃ s ∈ past, ∃ place, s.tasks[task]? = some place ∧ (r ∈ place.batch ∨ (s.shared.requests r).terminal = true)

/-- At some time the batch of a task was full. -/
def Filled (settings : SchedulerSettings) (task : Nat) (past : List SchedulerSystem) : Prop :=
  ∃ s ∈ past, ∃ place, s.tasks[task]? = some place ∧ settings.maxBatchSize ≤ place.batch.length

/-- A deque of which `unscanned` was not scanned: this comes first, then what
was passed over, both in their old order, and then what was put off anew. -/
def Sorted (task : Nat) (past : List SchedulerSystem) (deque unscanned fresh after : List RequestRef) : Prop :=
  ∃ scanned passed dealt, deque = scanned ++ unscanned ∧ after = unscanned ++ passed ++ fresh ∧
    passed.Sublist scanned ∧ scanned.Perm (passed ++ dealt) ∧ ∀ r ∈ dealt, Dealt task past r

/-- What a batch leaves of the deque behind its first request. The scan goes
through all of it unless the batch is full before; then nothing is put off anew. -/
def Rotated (settings : SchedulerSettings) (task : Nat) (past : List SchedulerSystem) (deque after : List RequestRef) :
    Prop :=
  ∃ unscanned fresh, Sorted task past deque unscanned fresh after ∧
    (unscanned = [] ∨ fresh = [] ∧ Filled settings task past)

/-- What holds of the deque at each place of a batch. -/
def Standing (settings : SchedulerSettings) (task : Nat) (past : List SchedulerSystem) (deque : List RequestRef) :
    Place → Prop
  | .gettingFirst => False
  | .scanning _ c => ∃ unscanned, Sorted task past deque unscanned [] (c.deferred.getD []) ∧ c.toScan = unscanned.length
  | .gathering _ c => ∃ unscanned fresh, Sorted task past deque unscanned fresh (c.deferred.getD []) ∧
      (unscanned = [] ∨ fresh = [] ∧ settings.maxBatchSize ≤ c.requests.length)
  | .waiting _ c => ∃ fresh, Sorted task past deque [] fresh (c.deferred.getD [])
  | place => place.Cut ∨ Rotated settings task past deque place.deferred

end SchedulerSystem

namespace Place.Turn

variable {settings : SchedulerSettings} {s' : Scheduling} {place place' : Place} {x : RequestRef}

theorem idxOf_remove {candidate : RequestRef} (l rest : List RequestRef) (other : x ≠ candidate) :
    (l ++ rest).idxOf x ≤ (l ++ candidate :: rest).idxOf x := by
  induction l with
  | nil =>
    rw [List.nil_append, List.nil_append, List.idxOf_cons_ne rest other.symm]
    omega
  | cons y l ih =>
    by_cases same : y = x
    · subst same
      simp
    · rw [List.cons_append, List.cons_append, List.idxOf_cons_ne _ same, List.idxOf_cons_ne _ same]
      omega

/-- A request that goes on waiting moves up with every batch, unless others are put ahead of it. -/
theorem line_idxOf (turn : Turn settings s' place place') (own : place.Own) (before : x ∈ place.deferred)
    (waits : x ∈ place'.deferred) (single : x ∉ place'.batch) (alive : (s'.requests x).terminal = false) :
    place'.line.idxOf x + place.begins place' ≤ place.line.idxOf x + place.overtakes x place' := by
  cases turn with
  | idles => cases before
  | @rejects head deque isOver =>
    have other : x ≠ head := by
      rintro rfl
      rw [isOver] at alive
      cases alive
    simp only [line, deferred, begins, overtakes, List.idxOf_cons_ne deque other.symm]
    omega
  | @opens head deque c batch held scan =>
    have other : x ≠ head := by
      rintro rfl
      exact single (by simp [Place.batch, batch])
    simp only [line, deferred, begins, overtakes, held, scan, Option.getD_some, List.drop_length, List.take_length,
      List.nil_append, List.idxOf_cons_ne deque other.symm]
    omega
  | @starts head deque =>
    have other : x ≠ head := by
      rintro rfl
      exact single (List.mem_singleton_self _)
    simp only [line, deferred, Caller.deferred, begins, overtakes, List.idxOf_cons_ne deque other.symm]
    omega
  | @drops b c c' candidate rest held scan left batch isOver =>
    have other : x ≠ candidate := by
      rintro rfl
      rw [isOver] at alive
      cases alive
    simp only [line, begins, overtakes, held, left, scan, Option.getD_some, List.drop_succ_cons, List.take_succ_cons]
    exact idxOf_remove _ _ other
  | @passes b c c' candidate rest held scan left batch =>
    obtain ⟨-, deferred, found, within⟩ := own
    rw [held] at found
    cases found
    have short : c'.toScan ≤ rest.length := by
      simp only [List.length_cons] at within
      omega
    simp only [line, begins, overtakes, held, left, scan, Option.getD_some, List.drop_succ_cons, List.take_succ_cons,
      List.drop_append_of_le_length short, List.take_append_of_le_length short, List.append_assoc, List.singleton_append]
    exact le_refl _
  | @takes b c c' candidate rest held scan left batch =>
    have other : x ≠ candidate := by
      rintro rfl
      exact single (by simp [Place.batch, batch])
    simp only [line, begins, overtakes, held, left, scan, Option.getD_some, List.drop_succ_cons, List.take_succ_cons]
    exact idxOf_remove _ _ other
  | @scanned b c enough =>
    have split := List.take_append_drop c.toScan (c.deferred.getD [])
    simp only [line, begins, overtakes]
    change (c.deferred.getD []).idxOf x + 0 ≤ _
    rw [Nat.add_zero]
    by_cases passed : x ∈ (c.deferred.getD []).drop c.toScan
    · rw [if_pos passed, List.idxOf_append_of_mem passed]
      by_cases ahead : x ∈ (c.deferred.getD []).take c.toScan
      · have early := List.idxOf_lt_length_of_mem ahead
        rw [← split, List.idxOf_append_of_mem ahead]
        have most := List.length_take_le c.toScan (c.deferred.getD [])
        rw [split]
        omega
      · have most := List.length_take_le c.toScan (c.deferred.getD [])
        have found : (c.deferred.getD []).idxOf x =
            ((c.deferred.getD []).take c.toScan).length + ((c.deferred.getD []).drop c.toScan).idxOf x := by
          conv_lhs => rw [← split]
          exact List.idxOf_append_of_notMem ahead
        omega
    · have ahead : x ∈ (c.deferred.getD []).take c.toScan := by
        have inside : x ∈ (c.deferred.getD []).take c.toScan ++ (c.deferred.getD []).drop c.toScan := by
          rw [split]
          exact before
        exact (List.mem_append.mp inside).resolve_right passed
      have found : (c.deferred.getD []).idxOf x = ((c.deferred.getD []).take c.toScan).idxOf x := by
        conv_lhs => rw [← split]
        exact List.idxOf_append_of_mem ahead
      rw [if_neg passed, List.idxOf_append_of_notMem passed]
      omega
  | awaits room => exact le_refl _
  | @gathers b c c' deferred more held left =>
    have inside : x ∈ deferred := by simpa [Place.deferred, held] using before
    simp only [line, Place.deferred, begins, overtakes, held, left, Option.getD_some, List.idxOf_append_of_mem inside]
    exact le_refl _
  | closes gathered => rcases gathered with rfl | rfl <;> exact le_refl _
  | @goes place place' unscanned unscanned' started later uncut deque =>
    have here : place.line = place.deferred := by
      cases place <;> first | rfl | cases unscanned
    have there : place'.line = place'.deferred := by
      cases place' <;> first | rfl | cases unscanned'
    have nothing : place.begins place' = 0 := by
      cases place <;> first | rfl | exact absurd rfl (started _)
    have none : place.overtakes x place' = 0 := by
      cases place <;> first | rfl | cases unscanned
    rw [here, there, nothing, none, deque]
  | leaves cut =>
    cases place' with
    | returning caller queuedItems result =>
      cases result with
      | ok _ => exact cut.elim
      | error e => cases waits
    | abandoning caller queuedItems rest => cases waits
    | ended result => cases waits
    | _ => exact cut.elim

/-- A request leaves the deque into the batch, or is over, unless the scheduler gives up. -/
theorem fate (turn : Turn settings s' place place') (before : x ∈ place.deferred) (gone : x ∉ place'.deferred) :
    x ∈ place'.batch ∨ (s'.requests x).terminal = true ∨ place'.Cut := by
  cases turn with
  | idles => cases before
  | @rejects head deque isOver =>
    obtain rfl := (List.mem_cons.mp before).resolve_right gone
    exact Or.inr (Or.inl isOver)
  | @opens head deque c batch held scan =>
    have same : x = head := (List.mem_cons.mp before).resolve_right (by simpa [deferred, held] using gone)
    exact Or.inl (by simp [Place.batch, batch, same])
  | @starts head deque => exact Or.inl (List.mem_singleton.mpr ((List.mem_cons.mp before).resolve_right gone))
  | @drops b c c' candidate rest held scan left batch isOver =>
    simp only [deferred, held, left, Option.getD_some] at before gone
    obtain rfl := (List.mem_cons.mp before).resolve_right gone
    exact Or.inr (Or.inl isOver)
  | @passes b c c' candidate rest held scan left batch =>
    simp only [deferred, held, left, Option.getD_some] at before gone
    exact absurd (List.mem_append.mpr ((List.mem_cons.mp before).symm.imp id List.mem_singleton.mpr)) gone
  | @takes b c c' candidate rest held scan left batch =>
    simp only [deferred, held, left, Option.getD_some] at before gone
    have same := (List.mem_cons.mp before).resolve_right gone
    exact Or.inl (by simp [Place.batch, batch, same])
  | scanned enough => exact absurd before gone
  | awaits room => exact absurd before gone
  | @gathers b c c' deferred more held left =>
    simp only [Place.deferred, held, left, Option.getD_some] at before gone
    exact absurd (List.mem_append_left more before) gone
  | closes gathered => rcases gathered with rfl | rfl <;> exact absurd before gone
  | goes unscanned unscanned' started later uncut deque => exact absurd (deque ▸ before) gone
  | leaves cut => exact Or.inr (Or.inr cut)

end Place.Turn

namespace SchedulerSystem

variable {settings : SchedulerSettings} {task batches ahead : Nat} {x : RequestRef} {first s s' : SchedulerSystem}
  {place place' : Place} {deque unscanned fresh after : List RequestRef} {past : List SchedulerSystem}
  {action : SchedulerAction}

open scoped List

theorem Dealt.later (dealt : Dealt task past x) (s : SchedulerSystem) : Dealt task (s :: past) x := by
  obtain ⟨then_, member, place, here, outcome⟩ := dealt
  exact ⟨then_, List.mem_cons_of_mem _ member, place, here, outcome⟩

theorem Sorted.later (sorted : Sorted task past deque unscanned fresh after) (s : SchedulerSystem) :
    Sorted task (s :: past) deque unscanned fresh after := by
  obtain ⟨scanned, passed, dealt, split, order, sub, perm, known⟩ := sorted
  exact ⟨scanned, passed, dealt, split, order, sub, perm, fun r member => (known r member).later s⟩

theorem Rotated.later (rotated : Rotated settings task past deque after) (s : SchedulerSystem) :
    Rotated settings task (s :: past) deque after := by
  obtain ⟨unscanned, fresh, sorted, full⟩ := rotated
  refine ⟨unscanned, fresh, sorted.later s, full.imp id ?_⟩
  rintro ⟨nothing, then_, member, filled⟩
  exact ⟨nothing, then_, List.mem_cons_of_mem _ member, filled⟩

theorem Standing.later (standing : Standing settings task past deque place) (s : SchedulerSystem) :
    Standing settings task (s :: past) deque place := by
  cases place with
  | gettingFirst => exact standing
  | scanning fromQueue c =>
    obtain ⟨unscanned, sorted, count⟩ := standing
    exact ⟨unscanned, sorted.later s, count⟩
  | gathering fromQueue c =>
    obtain ⟨unscanned, fresh, sorted, full⟩ := standing
    exact ⟨unscanned, fresh, sorted.later s, full⟩
  | waiting fromQueue c =>
    obtain ⟨fresh, sorted⟩ := standing
    exact ⟨fresh, sorted.later s⟩
  | _ => exact standing.imp id fun rotated => rotated.later s

/-- The next request is scanned: it is passed over, or dealt with. -/
theorem Sorted.scan {candidate : RequestRef} {rest : List RequestRef}
    (sorted : Sorted task past deque unscanned [] (candidate :: rest)) (more : unscanned ≠ []) :
    ∃ unscanned', unscanned = candidate :: unscanned' ∧ Sorted task past deque unscanned' [] (rest ++ [candidate]) ∧
      (Dealt task past candidate → Sorted task past deque unscanned' [] rest) := by
  obtain ⟨scanned, passed, dealt, split, order, sub, perm, known⟩ := sorted
  cases unscanned with
  | nil => exact absurd rfl more
  | cons head unscanned' =>
    simp only [List.append_nil, List.cons_append, List.cons.injEq] at order
    obtain ⟨rfl, rfl⟩ := order
    have split' : deque = scanned ++ [candidate] ++ unscanned' := by rw [split, List.append_assoc, List.singleton_append]
    refine ⟨unscanned', rfl, ?_, fun isOver => ?_⟩
    · refine ⟨scanned ++ [candidate], passed ++ [candidate], dealt, split', by simp, sub.append (.refl _), ?_, known⟩
      calc scanned ++ [candidate] ~ passed ++ dealt ++ [candidate] := perm.append_right _
        _ ~ passed ++ ([candidate] ++ dealt) := by
          rw [List.append_assoc]
          exact List.perm_append_comm.append_left _
        _ = passed ++ [candidate] ++ dealt := (List.append_assoc _ _ _).symm
    · refine ⟨scanned ++ [candidate], passed, dealt ++ [candidate], split', by simp, ?_, ?_, fun r member => ?_⟩
      · exact sub.trans (List.sublist_append_left _ _)
      · rw [← List.append_assoc]
        exact perm.append_right _
      · rcases List.mem_append.mp member with old | new
        · exact known r old
        · exact List.mem_singleton.mp new ▸ isOver

theorem Sorted.defer (sorted : Sorted task past deque unscanned fresh after) (more : List RequestRef) :
    Sorted task past deque unscanned (fresh ++ more) (after ++ more) := by
  obtain ⟨scanned, passed, dealt, split, order, sub, perm, known⟩ := sorted
  exact ⟨scanned, passed, dealt, split, by rw [order]; simp, sub, perm, known⟩

theorem standing_iff (unscanned : place.collection = none) (begun : place ≠ .gettingFirst) :
    Standing settings task past deque place ↔ place.Cut ∨ Rotated settings task past deque place.deferred := by
  cases place with
  | gettingFirst => exact absurd rfl begun
  | scanning fromQueue c => cases unscanned
  | gathering fromQueue c => cases unscanned
  | waiting fromQueue c => cases unscanned
  | _ => exact Iff.rfl

/-- A turn of the task keeps what holds of its deque. -/
theorem Standing.turn (standing : Standing settings task past deque place) (current : s ∈ past)
    (here : s.tasks[task]? = some place) (there : s'.tasks[task]? = some place')
    (away : ∀ after, place ≠ .loopHead after) (turn : Place.Turn settings s'.shared place place') :
    Standing settings task (s' :: past) deque place' := by
  cases turn with
  | idles => exact absurd rfl (away _)
  | rejects isOver => exact absurd rfl (away _)
  | opens batch held scan => exact absurd rfl (away _)
  | starts => exact absurd rfl (away _)
  | @drops b c c' candidate rest held scan left batch isOver =>
    obtain ⟨unscanned, sorted, count⟩ := standing
    rw [held, Option.getD_some] at sorted
    obtain ⟨unscanned', rfl, -, dealt⟩ := (sorted.later s').scan (List.ne_nil_of_length_pos (by omega))
    have known : Dealt task (s' :: past) candidate := ⟨s', List.mem_cons_self, _, there, Or.inr isOver⟩
    refine ⟨unscanned', ?_, ?_⟩
    · rw [left]
      exact dealt known
    · simp only [List.length_cons] at count
      omega
  | @passes b c c' candidate rest held scan left batch =>
    obtain ⟨unscanned, sorted, count⟩ := standing
    rw [held, Option.getD_some] at sorted
    obtain ⟨unscanned', rfl, kept, -⟩ := (sorted.later s').scan (List.ne_nil_of_length_pos (by omega))
    refine ⟨unscanned', ?_, ?_⟩
    · rw [left]
      exact kept
    · simp only [List.length_cons] at count
      omega
  | @takes b c c' candidate rest held scan left batch =>
    obtain ⟨unscanned, sorted, count⟩ := standing
    rw [held, Option.getD_some] at sorted
    obtain ⟨unscanned', rfl, -, dealt⟩ := (sorted.later s').scan (List.ne_nil_of_length_pos (by omega))
    have known : Dealt task (s' :: past) candidate :=
      ⟨s', List.mem_cons_self, _, there, Or.inl (by simp [Place.batch, batch])⟩
    refine ⟨unscanned', ?_, ?_⟩
    · rw [left]
      exact dealt known
    · simp only [List.length_cons] at count
      omega
  | @scanned b c enough =>
    obtain ⟨unscanned, sorted, count⟩ := standing
    refine ⟨unscanned, [], sorted.later s', ?_⟩
    rcases enough with full | nothing
    · exact Or.inr ⟨rfl, full⟩
    · exact Or.inl (List.eq_nil_of_length_eq_zero (count.symm.trans nothing))
  | @awaits b c room =>
    obtain ⟨unscanned, fresh, sorted, full⟩ := standing
    obtain rfl := full.resolve_right fun filled => by omega
    exact ⟨fresh, sorted.later s'⟩
  | @gathers b c c' deferred more held left =>
    obtain ⟨fresh, sorted⟩ := standing
    rw [held, Option.getD_some] at sorted
    refine ⟨[], fresh ++ more, ?_, Or.inl rfl⟩
    rw [left]
    exact (sorted.defer more).later s'
  | @closes b c place now gathered =>
    refine Or.inr (Rotated.later ?_ s')
    rcases gathered with rfl | rfl
    · obtain ⟨unscanned, fresh, sorted, full⟩ := standing
      exact ⟨unscanned, fresh, sorted, full.imp id fun both => ⟨both.1, s, current, _, here, both.2⟩⟩
    · obtain ⟨fresh, sorted⟩ := standing
      exact ⟨[], fresh, sorted, Or.inl rfl⟩
  | goes unscanned unscanned' started later uncut deque =>
    rw [standing_iff unscanned (by rintro rfl; exact standing)] at standing
    rw [standing_iff unscanned' later, deque]
    exact Or.inr ((standing.resolve_left uncut).later s')
  | leaves cut =>
    have unscanned : place'.collection = none := by
      cases place' <;> first | rfl | exact cut.elim
    rw [standing_iff unscanned (by rintro rfl; exact cut)]
    exact Or.inl cut

theorem Batching.standing (run : Batching settings task first deque past s) :
    s ∈ past ∧ ∃ place, s.tasks[task]? = some place ∧ place.Own ∧ Standing settings task past deque place := by
  induction run with
  | @start head action s fromQueue c at_ step begun =>
    refine ⟨List.mem_singleton_self _, _, begun, ?_⟩
    rcases step_turn step at_ trivial (by simp) with stays | ⟨place', there, own, turn⟩
    · cases begun.symm.trans stays
    · cases begun.symm.trans there
      refine ⟨own, ?_⟩
      cases turn with
      | opens batch held scan =>
        refine ⟨deque, ?_, scan⟩
        rw [held]
        exact ⟨[], [], [], rfl, by simp, .slnil, .refl _, by simp⟩
      | goes before after started later uncut same => exact absurd rfl (started _)
      | leaves cut => exact cut.elim
  | @step past s s' action before away step ih =>
    obtain ⟨current, place, here, own, standing⟩ := ih
    have begun : place ≠ .gettingFirst := by
      rintro rfl
      exact standing
    refine ⟨List.mem_cons_self, ?_⟩
    rcases step_turn step here own begun with stays | ⟨place', there, own', turn⟩
    · exact ⟨place, stays, own, standing.later s'⟩
    · exact ⟨place', there, own', standing.turn current here there (fun after same => away after (same ▸ here)) turn⟩

/-- The order in which a batch leaves the deque. -/
theorem Batching.rotated (run : Batching settings task first deque past s)
    (isOver : s.tasks[task]? = some (.loopHead after)) : Rotated settings task past deque after := by
  obtain ⟨-, place, here, -, standing⟩ := run.standing
  cases isOver.symm.trans here
  exact standing.resolve_left id

theorem Deferral.bound (run : Deferral settings task x first batches ahead s)
    (head : first.tasks[task]? = some (.loopHead deque)) :
    ∃ place, s.tasks[task]? = some place ∧ place.Own ∧ x ∈ place.deferred ∧
      batches + place.line.idxOf x ≤ deque.idxOf x + ahead := by
  induction run with
  | @start other at_ waits =>
    cases head.symm.trans at_
    exact ⟨_, at_, trivial, waits, Nat.le_of_eq (Nat.add_comm _ _)⟩
  | @step batches ahead s s' place place' action before step here there waits single alive ih =>
    obtain ⟨old, found, own, inside, bound⟩ := ih
    cases here.symm.trans found
    have begun : place ≠ .gettingFirst := by
      rintro rfl
      cases inside
    rcases step_turn step here own begun with stays | ⟨new, taken, own', turn⟩
    · cases there.symm.trans stays
      have nothing : place.begins place = 0 := by cases place <;> rfl
      have none : place.overtakes x place = 0 := by cases place <;> rfl
      exact ⟨place, stays, own, inside, by omega⟩
    · cases there.symm.trans taken
      have moved := turn.line_idxOf own inside waits single alive
      exact ⟨place', there, own', waits, by omega⟩

theorem Deferral.head (run : Deferral settings task x first batches ahead s) :
    ∃ deque, first.tasks[task]? = some (.loopHead deque) := by
  induction run with
  | start at_ waits => exact ⟨_, at_⟩
  | step before step here there waits single alive ih => exact ih

theorem Deferral.fate (run : Deferral settings task x first batches ahead s) (step : s.step settings action = some s')
    (there : s'.tasks[task]? = some place') (gone : x ∉ place'.deferred) :
    x ∈ place'.batch ∨ (s'.shared.requests x).terminal = true ∨ place'.Cut := by
  obtain ⟨deque, head⟩ := run.head
  obtain ⟨place, here, own, inside, -⟩ := run.bound head
  have begun : place ≠ .gettingFirst := by
    rintro rfl
    cases inside
  rcases step_turn step here own begun with stays | ⟨new, taken, -, turn⟩
  · cases there.symm.trans stays
    exact absurd inside gone
  · cases there.symm.trans taken
    exact turn.fate inside gone

/-- Whatever arrives while the scheduler runs: a batch leaves what its scan did
not reach, what it passed over and what it newly puts off in this order, the
first two as they were ordered before. So while a request waits that had some
number of others ahead of it, no more batches begin than these and the ones put
ahead of it by batches that were full before their scan was through; and it
leaves the deque into a batch, unless it is over or the scheduler gives up. -/
theorem deferred_not_overtaken (settings : SchedulerSettings) (task : Nat) (first s : SchedulerSystem)
    (deque : List RequestRef) :
    (∀ past after, Batching settings task first deque past s → s.tasks[task]? = some (.loopHead after) →
      Rotated settings task past deque after) ∧
    ∀ x batches ahead, Deferral settings task x first batches ahead s →
      (first.tasks[task]? = some (.loopHead deque) → batches ≤ deque.idxOf x + ahead) ∧
      ∀ s' action place', s.step settings action = some s' → s'.tasks[task]? = some place' → x ∉ place'.deferred →
        x ∈ place'.batch ∨ (s'.shared.requests x).terminal = true ∨ place'.Cut := by
  refine ⟨fun past after run isOver => run.rotated isOver, fun x batches ahead run => ⟨fun head => ?_, ?_⟩⟩
  · obtain ⟨place, -, -, -, bound⟩ := run.bound head
    omega
  · exact fun s' action place' step there gone => run.fate step there gone

namespace Overtaking

/-- Five requests, of which only 1 and 3 share their temperature. -/
def start : SchedulerSystem :=
  ⟨.init 8 (fun r => { Sample.request with temperature := if r = 3 then 1 else r }) fun n => n + 1, [.gettingFirst], []⟩

/-- Two requests make a batch full. -/
def pairs : SchedulerSettings := ⟨"dynamic_batch", 2, 100, 100, 1000⟩

def proceed (n : Nat) : List SchedulerAction := List.replicate n (.resume 0 .proceed)

/-- The model answers all requests of the batch, and the loop goes on. -/
def serve (results : Nat) : List SchedulerAction :=
  .resume 0 (.results (List.replicate results ⟨"", 1, 1, 0, 0, 0⟩)) :: proceed (results + 2)

/-- The first request is served alone, and the others are put off. -/
def arrivals : List SchedulerAction :=
  [.submit 0, .submit 1, .submit 2, .submit 3, .submit 4] ++ proceed 11 ++ .resume 0 .timeout :: proceed 2 ++ serve 1

end Overtaking

open Overtaking in
/-- The batch of 1 and 3 is full before 4 is scanned, so 4 goes ahead of 2; and
2, with one request ahead of it, is still put off after two batches. -/
theorem deferred_request_overtaken : ∃ first second third,
    start.perform pairs arrivals = some first ∧ first.tasks = [.loopHead [1, 2, 3, 4]] ∧
      first.perform pairs (proceed 8 ++ serve 2) = some second ∧ second.tasks = [.loopHead [4, 2]] ∧
      second.perform pairs (proceed 4 ++ .resume 0 .timeout :: proceed 2 ++ serve 1) = some third ∧
      third.tasks = [.loopHead [2]] ∧ third.shared.status 2 = .queued :=
  ⟨_, _, _, by rfl, rfl, by rfl, rfl, by rfl, rfl, rfl⟩

open Overtaking in
theorem deferred_not_overtaken_begun : ∃ first s, start.perform pairs arrivals = some first ∧
    Deferral pairs 0 2 first 1 0 s ∧ 1 ≤ [1, 2, 3, 4].idxOf 2 + 0 := by
  obtain ⟨first, reached, head, s, batches, ahead, run, rfl, rfl⟩ : ∃ first, start.perform pairs arrivals = some first ∧
      first.tasks[0]? = some (.loopHead [1, 2, 3, 4]) ∧
      ∃ s batches ahead, Deferral pairs 0 2 first batches ahead s ∧ batches = 1 ∧ ahead = 0 := by
    refine ⟨_, by rfl, rfl, _, _, _, .step (.start rfl (by decide : 2 ∈ [1, 2, 3, 4]))
      (show SchedulerSystem.step pairs _ (.resume 0 .proceed) = some _ from rfl) rfl rfl ?_ ?_ rfl, rfl, rfl⟩
    · decide
    · decide
  exact ⟨first, s, reached, run, ((deferred_not_overtaken pairs 0 first s [1, 2, 3, 4]).2 2 1 0 run).1 head⟩

end SchedulerSystem

end ServingPlatform
