import ServingPlatform.ControlPlane.BatchQueues

namespace ServingPlatform.ManagedWorker

variable {now : Seconds} {objects : Objects} {queue selected : List ObjectId} {p : WorkerProcess}
  {w : ManagedWorker} {first : RequestRecord} {tokens : Nat}

/-- The waiting requests that a batch around a first request looks at, and
whether each of them joins it. -/
def lookAt (w : ManagedWorker) (first : RequestRecord) (objects : Objects) :
    Nat → Nat → List ObjectId → List (ObjectId × Bool)
  | _, _, [] => []
  | size, tokens, i :: rest =>
    if w.maxBatchSize ≤ size then []
    else if compatible first (objects i) ∧ tokens + (objects i).estimatedTokens ≤ w.maxBatchTokens then
      (i, true) :: w.lookAt first objects (size + 1) (tokens + (objects i).estimatedTokens) rest
    else (i, false) :: w.lookAt first objects size tokens rest

/-- All that the next batch looks at. -/
def looked (p : WorkerProcess) : List (ObjectId × Bool) :=
  match p.worker.queue with
  | [] => []
  | i :: rest =>
    (i, true) :: p.worker.lookAt (p.objects i) p.objects 1 (p.objects i).estimatedTokens rest

def joining (looked : List (ObjectId × Bool)) : List ObjectId := (looked.filter Prod.snd).map Prod.fst

/-- No request that the next batch looks at is past its deadline. -/
def Punctual (now : Seconds) (p : WorkerProcess) : Prop :=
  ∀ e ∈ looked p, (p.objects e.1).deadline.expired now = false

/-- The next batch completes all that it takes out of the queue. -/
def Completes (inputs : BatchInputs) (p : WorkerProcess) : Prop :=
  p.worker.queue = [] ∨ Punctual inputs.now p ∧ Answered inputs.generated (joining (looked p)) p.objects

/-- Without an expired request a gathering only selects. -/
theorem gather_punctual (queued : ∀ i ∈ queue, (objects i).status = .queued)
    (punctual : ∀ e ∈ w.lookAt first objects selected.length tokens queue, (objects e.1).deadline.expired now = false) :
    ∃ rest, w.gather first now selected tokens queue objects =
      (.ok (selected ++ joining (w.lookAt first objects selected.length tokens queue), rest), objects) := by
  induction queue generalizing selected tokens with
  | nil => exact ⟨[], by simp [gather, lookAt, joining]⟩
  | cons i rest induct =>
    have waits := queued i List.mem_cons_self
    have later := fun selected tokens => @induct selected tokens fun j member => queued j (List.mem_cons_of_mem _ member)
    unfold lookAt at punctual ⊢
    unfold gather
    by_cases full : w.maxBatchSize ≤ selected.length
    · rw [if_pos full, if_pos full]
      exact ⟨i :: rest, by simp [joining]⟩
    rw [if_neg full] at punctual
    rw [if_neg full, if_neg full, if_neg (by simp [RequestRecord.terminal_of_queued waits])]
    by_cases fits : compatible first (objects i) ∧ tokens + (objects i).estimatedTokens ≤ w.maxBatchTokens
    · rw [if_pos fits] at punctual
      have early := punctual (i, true) List.mem_cons_self
      obtain ⟨remaining, run⟩ := later (selected ++ [i]) _
        (by rw [List.length_append]; exact fun e member => punctual e (List.mem_cons_of_mem _ member))
      rw [if_neg (by simp [early]), if_pos fits, if_pos fits, run]
      exact ⟨remaining, by simp [joining]⟩
    · rw [if_neg fits] at punctual
      have early := punctual (i, false) List.mem_cons_self
      obtain ⟨remaining, run⟩ := later _ _
        fun e member => punctual e (List.mem_cons_of_mem _ member)
      rw [if_neg (by simp [early]), if_neg fits, if_neg fits, run]
      exact ⟨i :: remaining, by simp [joining]⟩

/-- A gathering that looks at an expired request times one out. -/
theorem gather_late (queued : ∀ i ∈ queue, (objects i).status = .queued)
    (late : ∃ e ∈ w.lookAt first objects selected.length tokens queue, (objects e.1).deadline.expired now = true) :
    ∃ i ∈ queue, ((w.gather first now selected tokens queue objects).2 i).status = .timedOut := by
  induction queue generalizing selected tokens with
  | nil =>
    obtain ⟨e, member, -⟩ := late
    cases member
  | cons i rest induct =>
    have waits := queued i List.mem_cons_self
    have later := fun selected tokens => @induct selected tokens fun j member => queued j (List.mem_cons_of_mem _ member)
    unfold lookAt at late
    unfold gather
    by_cases full : w.maxBatchSize ≤ selected.length
    · rw [if_pos full] at late
      obtain ⟨e, member, -⟩ := late
      cases member
    rw [if_neg full] at late
    rw [if_neg full, if_neg (by simp [RequestRecord.terminal_of_queued waits])]
    by_cases expired : (objects i).deadline.expired now = true
    · have allowed : RequestState.timedOut ∈ (objects i).status.allowed := by
        rw [waits]
        decide
      rw [if_pos expired, RequestRecord.transition_ok allowed]
      dsimp only
      have skipped := w.gather_skipped first now selected tokens rest (objects.put i ((objects i).enter .timedOut now)) i
      rw [Objects.put_self] at skipped
      exact ⟨i, List.mem_cons_self, congrArg RequestRecord.status (skipped.of_terminal rfl)⟩
    rw [if_neg expired]
    by_cases fits : compatible first (objects i) ∧ tokens + (objects i).estimatedTokens ≤ w.maxBatchTokens
    · rw [if_pos fits] at late ⊢
      obtain ⟨e, member, past⟩ := late
      rcases List.mem_cons.mp member with rfl | member
      · exact absurd past expired
      obtain ⟨j, found, isOver⟩ := later (selected ++ [i]) _
        ⟨e, by rw [List.length_append]; exact member, past⟩
      exact ⟨j, List.mem_cons_of_mem _ found, isOver⟩
    · rw [if_neg fits] at late ⊢
      obtain ⟨e, member, past⟩ := late
      rcases List.mem_cons.mp member with rfl | member
      · exact absurd past expired
      obtain ⟨j, found, isOver⟩ := later _ _ ⟨e, member, past⟩
      refine ⟨j, List.mem_cons_of_mem _ found, ?_⟩
      rcases run : w.gather first now selected tokens rest objects with ⟨raised | ⟨chosen, queue⟩, objects'⟩ <;>
        rw [run] at isOver <;> exact isOver

/-- The records of a batch once it runs. -/
def started (now : Seconds) (selected : List ObjectId) (objects : Objects) : Objects :=
  fun j => if j ∈ selected then (objects j).enter .running now else objects j

theorem startAll_ok (queued : ∀ i ∈ selected, (p.objects i).status = .queued) (distinct : selected.Nodup) :
    ∃ worker, startAll now selected p = (.ok (), ⟨worker, started now selected p.objects⟩) := by
  induction selected generalizing p with
  | nil =>
    have same : started now [] p.objects = p.objects := by
      funext j
      simp [started]
    rw [same]
    exact ⟨p.worker, rfl⟩
  | cons i rest induct =>
    obtain ⟨fresh, distinct⟩ := List.nodup_cons.mp distinct
    have allowed : RequestState.running ∈ (p.objects i).status.allowed := by
      rw [queued i List.mem_cons_self]
      decide
    unfold startAll
    rcases start_cases now i p with ⟨-, worker, run⟩ | ⟨refused, -⟩
    · obtain ⟨worker', later⟩ := induct (p := ⟨worker, p.objects.put i ((p.objects i).enter .running now)⟩)
        (fun j member => by
          have differ : j ≠ i := fun same => fresh (same ▸ member)
          dsimp only
          rw [Objects.put_of_ne differ]
          exact queued j (List.mem_cons_of_mem _ member)) distinct
      refine ⟨worker', ?_⟩
      rw [Attempt.bind_ok run, later]
      congr 2
      funext j
      unfold started
      dsimp only
      rcases eq_or_ne j i with rfl | differ
      · rw [if_neg fresh, if_pos List.mem_cons_self, Objects.put_self]
      · simp only [List.mem_cons, differ, false_or, Objects.put_of_ne differ]
    · exact absurd allowed refused

theorem skipExpired_early {i : ObjectId} (waits : (objects i).status = .queued)
    (early : (objects i).deadline.expired now = false) :
    skipExpired now (i :: queue) objects = (.ok (), i :: queue, objects) := by
  unfold skipExpired
  rw [if_neg (by simp [RequestRecord.terminal_of_queued waits]), if_neg (by simp [early])]

/-- A punctual batch starts all that it looks for. -/
theorem beginBatch_punctual (queued : ∀ i ∈ p.worker.queue, (p.objects i).status = .queued)
    (distinct : p.worker.queue.Nodup) (some : p.worker.queue ≠ []) (punctual : Punctual now p) :
    ∃ p', beginBatch now p = (.ok (joining (looked p)), p') ∧
      p'.objects = started now (joining (looked p)) p.objects := by
  unfold Punctual looked at punctual
  unfold beginBatch looked
  rcases waiting : p.worker.queue with - | ⟨i, rest⟩
  · exact absurd waiting some
  rw [waiting] at queued distinct punctual
  dsimp only at punctual ⊢
  have waits := queued i List.mem_cons_self
  rw [skipExpired_early waits (punctual (i, true) List.mem_cons_self)]
  have fewer := p.worker.gather_subperm (p.objects i) now [i] (p.objects i).estimatedTokens rest p.objects
  obtain ⟨remaining, run⟩ := @gather_punctual now p.objects rest [i] p.worker _ _ (fun j member => queued j (List.mem_cons_of_mem _ member))
    fun e member => punctual e (List.mem_cons_of_mem _ member)
  have batch : joining ((i, true) :: p.worker.lookAt (p.objects i) p.objects 1 (p.objects i).estimatedTokens rest) =
      [i] ++ joining (p.worker.lookAt (p.objects i) p.objects [i].length (p.objects i).estimatedTokens rest) := rfl
  rw [run] at fewer
  dsimp only
  rw [run, batch]
  have within := fewer.subset
  obtain ⟨worker, starts⟩ := startAll_ok (p := ⟨{ p.worker with queue := remaining }, p.objects⟩)
    (fun j member => queued j (within (List.mem_append_left _ member)))
    (List.nodup_append.mp (nodup_of_subperm fewer distinct)).1
  dsimp only
  rw [Attempt.bind_ok starts]
  exact ⟨_, rfl, rfl⟩

theorem answered_congr {generated : Except Raised (List RuntimeResult)} {objects' : Objects}
    (stream : ∀ j, (objects' j).stream = (objects j).stream) :
    Answered generated selected objects' ↔ Answered generated selected objects := by
  unfold Answered
  have same : (selected.head?.elim false fun i => (objects' i).stream) =
      selected.head?.elim false fun i => (objects i).stream := by
    cases selected with
    | nil => rfl
    | cons i rest => exact stream i
  rw [same]

theorem started_stream (j : ObjectId) : (started now selected objects j).stream = (objects j).stream := by
  unfold started
  split <;> rfl

/-- The records of a batch once it has completed. -/
def completed (inputs : BatchInputs) (selected : List ObjectId) (objects : Objects) : Objects :=
  closed .completed inputs.completedAt selected (started inputs.now selected objects)

theorem joining_ne_nil (some : p.worker.queue ≠ []) : joining (looked p) ≠ [] := by
  unfold looked
  rcases waiting : p.worker.queue with - | ⟨i, rest⟩
  · exact absurd waiting some
  · exact List.cons_ne_nil i _

/-- A batch that completes all that it takes out of the queue returns all results. -/
theorem executeBatch_completes {inputs : BatchInputs} (queued : ∀ i ∈ p.worker.queue, (p.objects i).status = .queued)
    (distinct : p.worker.queue.Nodup) (completes : Completes inputs p) :
    ∃ results p', executeBatch inputs p = (.ok (executions p'.objects (joining (looked p)) results), p') ∧
      results.length = (joining (looked p)).length ∧
      p'.objects = completed inputs (joining (looked p)) p.objects := by
  by_cases none : p.worker.queue = []
  · have nothing : looked p = [] := by
      unfold looked
      rw [none]
    have begins : beginBatch inputs.now p = (.ok [], ⟨{ p.worker with queue := [] }, p.objects⟩) := by
      unfold beginBatch
      rw [none]
      rfl
    rw [nothing]
    unfold executeBatch
    rw [Attempt.bind_ok begins, if_pos rfl]
    refine ⟨[], _, rfl, rfl, ?_⟩
    funext j
    simp [completed, closed, started, joining]
  obtain ⟨punctual, answered⟩ := completes.resolve_left none
  obtain ⟨p', run, objects⟩ := beginBatch_punctual queued distinct none punctual
  have running : ∀ i ∈ joining (looked p), (p'.objects i).status = .running := by
    intro i member
    rw [objects, started, if_pos member]
    rfl
  unfold executeBatch
  rw [Attempt.bind_ok run, if_neg (joining_ne_nil none)]
  rcases finishBatch_cases inputs.failedAt inputs.completedAt running with
    ⟨refused, -⟩ | ⟨results, final, -, lengths, run', after⟩
  · rw [objects, answered_congr started_stream] at refused
    exact absurd answered refused
  · refine ⟨results, final, ?_, lengths, ?_⟩
    · rw [run', after]
    · rw [after, objects]
      rfl

/-- What the front of the queue was made of stays so where it is over. -/
theorem beginBatch_opened_skipped (now : Seconds) (p : WorkerProcess) (j : ObjectId) :
    ((skipExpired now p.worker.queue p.objects).2.2 j).Opened now ((beginBatch now p).2.objects j) := by
  unfold beginBatch
  rcases skip : skipExpired now p.worker.queue p.objects with ⟨raised | done, queue, objects⟩
  · exact .skipped .kept
  cases done
  cases queue with
  | nil => exact .skipped .kept
  | cons i rest =>
    have gathers := p.worker.gather_skipped (objects i) now [i] (objects i).estimatedTokens rest objects j
    dsimp only
    rcases gather : p.worker.gather (objects i) now [i] (objects i).estimatedTokens rest objects with
      ⟨⟨raised, queue⟩ | ⟨selected, queue⟩, objects'⟩
    · rw [gather] at gathers
      exact .skipped gathers
    · rw [gather] at gathers
      have opens := startAll_opened (j := j) now selected ⟨{ p.worker with queue := queue }, objects'⟩
      dsimp only
      rcases run : startAll now selected ⟨{ p.worker with queue := queue }, objects'⟩ with ⟨raised | done, p'⟩
      · rw [run] at opens
        rw [Attempt.bind_error run]
        exact gathers.opened opens
      · rw [run] at opens
        rw [Attempt.bind_ok run]
        exact gathers.opened opens

/-- A batch that looks at an expired request times one out. -/
theorem beginBatch_late (queued : ∀ i ∈ p.worker.queue, (p.objects i).status = .queued)
    (late : ¬Punctual now p) : ∃ i ∈ p.worker.queue, ((beginBatch now p).2.objects i).status = .timedOut := by
  unfold Punctual looked at late
  rcases waiting : p.worker.queue with - | ⟨i, rest⟩
  · rw [waiting] at late
    exact absurd (fun e member => absurd member List.not_mem_nil) late
  rw [waiting] at late queued
  have waits := queued i List.mem_cons_self
  by_cases expired : (p.objects i).deadline.expired now = true
  · have allowed : RequestState.timedOut ∈ (p.objects i).status.allowed := by
      rw [waits]
      decide
    have opened := beginBatch_opened_skipped now p i
    have skipped := skipExpired_skipped now rest (p.objects.put i ((p.objects i).enter .timedOut now)) i
    rw [Objects.put_self] at skipped
    have first : (skipExpired now p.worker.queue p.objects).2.2 i = (p.objects i).enter .timedOut now := by
      rw [waiting]
      unfold skipExpired
      rw [if_neg (by simp [RequestRecord.terminal_of_queued waits]), if_pos expired,
        RequestRecord.transition_ok allowed]
      exact skipped.of_terminal rfl
    rw [first] at opened
    exact ⟨i, List.mem_cons_self, congrArg RequestRecord.status (opened.of_terminal rfl)⟩
  · have early : (p.objects i).deadline.expired now = false := by simpa using expired
    obtain ⟨e, member, past⟩ : ∃ e ∈ p.worker.lookAt (p.objects i) p.objects [i].length
        (p.objects i).estimatedTokens rest, (p.objects e.1).deadline.expired now = true := by
      by_contra none
      refine late fun e member => ?_
      rcases List.mem_cons.mp member with rfl | member
      · exact early
      · by_contra past
        exact none ⟨e, member, by simpa using past⟩
    obtain ⟨j, found, isOver⟩ := gather_late (w := p.worker) (fun j member => queued j (List.mem_cons_of_mem _ member))
      ⟨e, member, past⟩
    refine ⟨j, List.mem_cons_of_mem _ found, ?_⟩
    unfold beginBatch
    rw [waiting, skipExpired_early waits early]
    dsimp only
    rcases gather : p.worker.gather (p.objects i) now [i] (p.objects i).estimatedTokens rest p.objects with
      ⟨⟨raised, queue⟩ | ⟨selected, queue⟩, objects'⟩
    · rw [gather] at isOver
      exact isOver
    · rw [gather] at isOver
      have ended : (objects' j).terminal = true := by
        unfold RequestRecord.terminal
        rw [isOver]
        rfl
      have opens := startAll_opened (j := j) now selected ⟨{ p.worker with queue := queue }, objects'⟩
      dsimp only
      rcases run : startAll now selected ⟨{ p.worker with queue := queue }, objects'⟩ with ⟨raised | done, p'⟩
      · rw [run] at opens
        rw [Attempt.bind_error run]
        exact (congrArg RequestRecord.status (opens.of_terminal ended)).trans isOver
      · rw [run] at opens
        rw [Attempt.bind_ok run]
        exact (congrArg RequestRecord.status (opens.of_terminal ended)).trans isOver

end ServingPlatform.ManagedWorker

namespace ServingPlatform.ManagedWorker

variable {inputs : BatchInputs} {selected : List ObjectId} {p : WorkerProcess}

/-- Every request that a batch opens is as it was opened, or closed. -/
theorem executeBatch_opened (inputs : BatchInputs) (p : WorkerProcess) (j : ObjectId) :
    (executeBatch inputs p).2.objects j = (beginBatch inputs.now p).2.objects j ∨
      ((beginBatch inputs.now p).2.objects j).status = .running := by
  unfold executeBatch
  rcases beginBatch_cases inputs.now p with ⟨raised, p', run, -⟩ | ⟨p', run, -⟩ | ⟨selected, p', some, run, -, running⟩
  · rw [Attempt.bind_error run, run]
    exact Or.inl rfl
  · rw [Attempt.bind_ok run, run]
    exact Or.inl rfl
  · rw [Attempt.bind_ok run, run, if_neg some]
    by_cases member : j ∈ selected
    · exact Or.inr (running j member)
    · have outside : ∀ target at_, closed target at_ selected p'.objects j = p'.objects j :=
        fun target at_ => if_neg fun both => member both.1
      rcases finishBatch_cases inputs.failedAt inputs.completedAt running with
        ⟨-, raised, final, run', after⟩ | ⟨results, final, -, -, run', after⟩
      · rw [run', after]
        exact Or.inl (outside _ _)
      · rw [run', after]
        exact Or.inl (outside _ _)

/-- A batch that does not complete all that it takes out of the queue ends a
queued request without completing it. -/
theorem executeBatch_drops (queued : ∀ i ∈ p.worker.queue, (p.objects i).status = .queued)
    (distinct : p.worker.queue.Nodup) (drops : ¬Completes inputs p) :
    ∃ i ∈ p.worker.queue, ((executeBatch inputs p).2.objects i).status = .timedOut ∨
      ((executeBatch inputs p).2.objects i).status = .failed := by
  obtain ⟨some, dropped⟩ := not_or.mp drops
  by_cases punctual : Punctual inputs.now p
  · obtain ⟨p', run, objects⟩ := beginBatch_punctual queued distinct some punctual
    have running : ∀ i ∈ joining (looked p), (p'.objects i).status = .running := by
      intro i member
      rw [objects, started, if_pos member]
      rfl
    have fewer := beginBatch_subperm inputs.now p
    rw [run] at fewer
    obtain ⟨i, member⟩ := List.exists_mem_of_ne_nil _ (joining_ne_nil some)
    have alive : (p'.objects i).terminal = false := by
      unfold RequestRecord.terminal
      rw [running i member]
      rfl
    refine ⟨i, fewer.subset (List.mem_append_left _ member), Or.inr ?_⟩
    unfold executeBatch
    rw [Attempt.bind_ok run, if_neg (joining_ne_nil some)]
    rcases finishBatch_cases inputs.failedAt inputs.completedAt running with
      ⟨-, raised, final, run', after⟩ | ⟨results, final, answered, -, -, -⟩
    · rw [run', after, closed, if_pos ⟨member, alive⟩]
      rfl
    · rw [objects, answered_congr started_stream] at answered
      exact absurd ⟨punctual, answered⟩ dropped
  · obtain ⟨i, member, isOver⟩ := beginBatch_late queued punctual
    refine ⟨i, member, Or.inl ?_⟩
    rcases executeBatch_opened inputs p i with same | running
    · rw [same, isOver]
    · rw [isOver] at running
      cases running

/-- Every execution that a batch returns is of a request that was queued, and completed. -/
theorem executeBatch_reports {executions : List WorkerExecutionResult} {execution : WorkerExecutionResult}
    (run : (executeBatch inputs p).1 = .ok executions) (member : execution ∈ executions) :
    ∃ i ∈ p.worker.queue, (p.objects i).requestId = execution.requestId ∧
      ((executeBatch inputs p).2.objects i).status = .completed := by
  have fewer := beginBatch_subperm inputs.now p
  unfold executeBatch at run ⊢
  rcases beginBatch_cases inputs.now p with ⟨raised, p', begins, -⟩ | ⟨p', begins, -⟩ |
    ⟨selected, p', some, begins, opened, running⟩
  · rw [Attempt.bind_error begins] at run
    cases run
  · rw [Attempt.bind_ok begins, if_pos rfl] at run
    cases run
    cases member
  · rw [begins] at fewer
    rw [Attempt.bind_ok begins, if_neg some] at run ⊢
    rcases finishBatch_cases inputs.failedAt inputs.completedAt running with
      ⟨-, raised, final, run', -⟩ | ⟨results, final, -, -, run', after⟩
    · rw [run'] at run
      cases run
    · rw [run'] at run ⊢
      cases run
      obtain ⟨i, chosen, named⟩ := executions_named member
      refine ⟨i, fewer.subset (List.mem_append_left _ chosen), ?_, ?_⟩
      · rw [closed_requestId, (opened i).requestId] at named
        exact named
      · have alive : (p'.objects i).terminal = false := by
          unfold RequestRecord.terminal
          rw [running i chosen]
          rfl
        rw [after, closed, if_pos ⟨chosen, alive⟩]
        rfl

end ServingPlatform.ManagedWorker
