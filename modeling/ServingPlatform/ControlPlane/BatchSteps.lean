import ServingPlatform.ControlPlane.Batches

namespace ServingPlatform

/-- What looking at a queued request may make of it. -/
inductive RequestRecord.Skipped (now : Seconds) (r : RequestRecord) : RequestRecord → Prop
  | kept : Skipped now r r
  | expired (alive : r.terminal = false) (late : r.deadline.expired now = true) : Skipped now r (r.enter .timedOut now)

/-- What the opening of a batch may make of a request. -/
inductive RequestRecord.Opened (now : Seconds) (r : RequestRecord) : RequestRecord → Prop
  | skipped {r' : RequestRecord} (skipped : r.Skipped now r') : Opened now r r'
  | started (allowed : .running ∈ r.status.allowed) : Opened now r (r.enter .running now)

namespace RequestRecord

variable {now : Seconds} {r r' r'' : RequestRecord}

theorem not_allowed_of_terminal {target : RequestState} (isOver : r.terminal = true) : target ∉ r.status.allowed := by
  rw [RequestState.allowed_of_terminal isOver]
  exact List.not_mem_nil

theorem Skipped.of_terminal (skipped : r.Skipped now r') (isOver : r.terminal = true) : r' = r := by
  cases skipped with
  | kept => rfl
  | expired alive late =>
    rw [isOver] at alive
    cases alive

theorem Skipped.trans (first : r.Skipped now r') (second : r'.Skipped now r'') : r.Skipped now r'' := by
  cases first with
  | kept => exact second
  | expired alive late =>
    rw [second.of_terminal rfl]
    exact .expired alive late

theorem Skipped.opened (first : r.Skipped now r') (second : r'.Opened now r'') : r.Opened now r'' := by
  cases second with
  | skipped second => exact .skipped (first.trans second)
  | started allowed =>
    cases first with
    | kept => exact .started allowed
    | expired alive late => exact absurd allowed (not_allowed_of_terminal rfl)

theorem Opened.requestId (opened : r.Opened now r') : r'.requestId = r.requestId := by
  cases opened with
  | skipped skipped => cases skipped <;> rfl
  | started allowed => rfl

theorem terminal_of_queued (queued : r.status = .queued) : r.terminal = false := by
  unfold terminal
  rw [queued]
  rfl

theorem Opened.of_terminal (opened : r.Opened now r') (isOver : r.terminal = true) : r' = r := by
  cases opened with
  | skipped skipped => exact skipped.of_terminal isOver
  | started allowed => exact absurd allowed (not_allowed_of_terminal isOver)

/-- A request that stays alive is where it was, or runs. -/
theorem Opened.status (opened : r.Opened now r') (alive : r'.terminal = false) :
    r'.status = r.status ∨ r'.status = .running := by
  cases opened with
  | skipped skipped =>
    cases skipped with
    | kept => exact Or.inl rfl
    | expired _ _ => cases alive
  | started _ => exact Or.inr rfl

end RequestRecord

theorem Objects.put_skipped {objects : Objects} {i : ObjectId} {now : Seconds} (alive : (objects i).terminal = false)
    (late : (objects i).deadline.expired now = true) (j : ObjectId) :
    (objects j).Skipped now (objects.put i ((objects i).enter .timedOut now) j) := by
  rcases eq_or_ne j i with rfl | differ
  · rw [Objects.put_self]
    exact .expired alive late
  · rw [Objects.put_of_ne differ]
    exact .kept

namespace ManagedWorker

variable {now : Seconds} {j : ObjectId} {selected : List ObjectId}

theorem skipExpired_skipped (now : Seconds) (queue : List ObjectId) (objects : Objects) (j : ObjectId) :
    (objects j).Skipped now ((skipExpired now queue objects).2.2 j) := by
  induction queue generalizing objects with
  | nil => exact .kept
  | cons i rest induct =>
    unfold skipExpired
    split
    · exact induct objects
    rename_i alive
    split
    · rename_i late
      rcases (objects i).transition_cases .timedOut now with ⟨-, run⟩ | ⟨-, raised, run, -⟩
      · rw [run]
        exact (Objects.put_skipped (by simpa using alive) late j).trans (induct _)
      · rw [run]
        exact .kept
    · exact .kept

theorem gather_skipped (w : ManagedWorker) (first : RequestRecord) (now : Seconds) (selected : List ObjectId)
    (tokens : Nat) (queue : List ObjectId) (objects : Objects) (j : ObjectId) :
    (objects j).Skipped now ((w.gather first now selected tokens queue objects).2 j) := by
  induction queue generalizing selected tokens objects with
  | nil => exact .kept
  | cons i rest induct =>
    unfold gather
    split
    · exact .kept
    split
    · exact induct selected tokens objects
    rename_i alive
    split
    · rename_i late
      rcases (objects i).transition_cases .timedOut now with ⟨-, run⟩ | ⟨-, raised, run, -⟩
      · rw [run]
        exact (Objects.put_skipped (by simpa using alive) late j).trans (induct selected tokens _)
      · rw [run]
        exact .kept
    split
    · exact induct _ _ objects
    · have later := induct selected tokens objects
      split <;> rename_i run <;> rw [run] at later <;> exact later

theorem start_cases (now : Seconds) (i : ObjectId) (p : WorkerProcess) :
    (.running ∈ (p.objects i).status.allowed ∧ ∃ worker, start now i p =
      (.ok (), ⟨worker, p.objects.put i ((p.objects i).enter .running now)⟩)) ∨
      .running ∉ (p.objects i).status.allowed ∧ ∃ raised, start now i p = (.error raised, p) := by
  unfold start
  rcases (p.objects i).transition_cases .running now with ⟨allowed, run⟩ | ⟨refused, raised, run, -⟩
  · rw [run]
    exact Or.inl ⟨allowed, _, rfl⟩
  · rw [run]
    exact Or.inr ⟨refused, raised, rfl⟩

/-- A running request is not started again. -/
theorem startAll_of_running (now : Seconds) (selected : List ObjectId) (p : WorkerProcess)
    (running : (p.objects j).status = .running) : (startAll now selected p).2.objects j = p.objects j := by
  induction selected generalizing p with
  | nil => rfl
  | cons i rest induct =>
    unfold startAll
    rcases start_cases now i p with ⟨allowed, worker, run⟩ | ⟨-, raised, run⟩
    · have differ : j ≠ i := by
        rintro rfl
        rw [running] at allowed
        exact absurd allowed (by decide)
      have kept : (⟨worker, p.objects.put i ((p.objects i).enter .running now)⟩ : WorkerProcess).objects j =
          p.objects j := Objects.put_of_ne differ
      rw [Attempt.bind_ok run, induct _ (by rw [kept]; exact running), kept]
    · rw [Attempt.bind_error run]

theorem startAll_opened (now : Seconds) (selected : List ObjectId) (p : WorkerProcess) (j : ObjectId) :
    (p.objects j).Opened now ((startAll now selected p).2.objects j) := by
  induction selected generalizing p with
  | nil => exact .skipped .kept
  | cons i rest induct =>
    unfold startAll
    rcases start_cases now i p with ⟨allowed, worker, run⟩ | ⟨-, raised, run⟩
    · rw [Attempt.bind_ok run]
      rcases eq_or_ne j i with rfl | differ
      · have started : (p.objects.put j ((p.objects j).enter .running now)) j = (p.objects j).enter .running now :=
          Objects.put_self
        rw [startAll_of_running now rest _ (by dsimp only; rw [started]; rfl)]
        dsimp only
        rw [started]
        exact .started allowed
      · have later := induct ⟨worker, p.objects.put i ((p.objects i).enter .running now)⟩
        dsimp only at later
        rw [Objects.put_of_ne differ] at later
        exact later
    · rw [Attempt.bind_error run]
      exact .skipped .kept

/-- All requests of a batch that was started run. -/
theorem startAll_running {p p' : WorkerProcess} (run : startAll now selected p = (.ok (), p')) :
    ∀ i ∈ selected, (p'.objects i).status = .running := by
  induction selected generalizing p with
  | nil => exact fun _ member => absurd member List.not_mem_nil
  | cons i rest induct =>
    unfold startAll at run
    rcases start_cases now i p with ⟨allowed, worker, first⟩ | ⟨-, raised, first⟩
    · rw [Attempt.bind_ok first] at run
      intro other member
      rcases List.mem_cons.mp member with rfl | later
      · have started : (p.objects.put other ((p.objects other).enter .running now)) other =
            (p.objects other).enter .running now := Objects.put_self
        have kept := startAll_of_running (j := other) now rest
          ⟨worker, p.objects.put other ((p.objects other).enter .running now)⟩ (by dsimp only; rw [started]; rfl)
        rw [run] at kept
        dsimp only at kept
        rw [kept, started]
        rfl
      · exact induct run other later
    · rw [Attempt.bind_error first] at run
      cases run

/-- The ways `execute_batch` opens a batch: it may raise while it looks at the
queue, find nothing to run, or fail to start what it found. -/
theorem beginBatch_cases (now : Seconds) (p : WorkerProcess) :
    (∃ raised p', beginBatch now p = (.error raised, p') ∧ ∀ j, (p.objects j).Opened now (p'.objects j)) ∨
    (∃ p', beginBatch now p = (.ok [], p') ∧ ∀ j, (p.objects j).Opened now (p'.objects j)) ∨
    ∃ selected p', selected ≠ [] ∧ beginBatch now p = (.ok selected, p') ∧
      (∀ j, (p.objects j).Opened now (p'.objects j)) ∧ ∀ i ∈ selected, (p'.objects i).status = .running := by
  unfold beginBatch
  have skipped := skipExpired_skipped now p.worker.queue p.objects
  rcases run : skipExpired now p.worker.queue p.objects with ⟨raised | ⟨⟩, queue, objects⟩
  · rw [run] at skipped
    exact Or.inl ⟨_, _, rfl, fun j => .skipped (skipped j)⟩
  rw [run] at skipped
  cases queue with
  | nil => exact Or.inr (Or.inl ⟨_, rfl, fun j => .skipped (skipped j)⟩)
  | cons i rest =>
    dsimp only
    have gathered := p.worker.gather_skipped (objects i) now [i] (objects i).estimatedTokens rest objects
    rcases run' : p.worker.gather (objects i) now [i] (objects i).estimatedTokens rest objects with
      ⟨⟨raised, queue⟩ | ⟨selected, queue⟩, objects'⟩
    · rw [run'] at gathered
      exact Or.inl ⟨_, _, rfl, fun j => .skipped ((skipped j).trans (gathered j))⟩
    rw [run'] at gathered
    dsimp only
    have opened := startAll_opened now selected ⟨{ p.worker with queue := queue }, objects'⟩
    rcases run'' : startAll now selected ⟨{ p.worker with queue := queue }, objects'⟩ with ⟨raised | ⟨⟩, p'⟩
    · rw [run''] at opened
      rw [Attempt.bind_error run'']
      exact Or.inl ⟨_, _, rfl, fun j => ((skipped j).trans (gathered j)).opened (opened j)⟩
    · rw [run''] at opened
      rw [Attempt.bind_ok run'']
      have running := startAll_running run''
      by_cases none : selected = []
      · rw [none]
        exact Or.inr (Or.inl ⟨_, rfl, fun j => ((skipped j).trans (gathered j)).opened (opened j)⟩)
      · exact Or.inr (Or.inr ⟨selected, _, none, rfl,
          fun j => ((skipped j).trans (gathered j)).opened (opened j), running⟩)

/-- The requests once those of a batch that are not over have taken a last transition. -/
def closed (target : RequestState) (at_ : ObjectId → Seconds) (selected : List ObjectId) (objects : Objects) : Objects :=
  fun j => if j ∈ selected ∧ (objects j).terminal = false then (objects j).enter target (at_ j) else objects j

theorem closeAll_ok {target : RequestState} (at_ : ObjectId → Seconds) (selected : List ObjectId) (p : WorkerProcess)
    (ends : target.isTerminal = true)
    (ready : ∀ i ∈ selected, (p.objects i).terminal = false → target ∈ (p.objects i).status.allowed) :
    closeAll target at_ selected p = (.ok (), { p with objects := closed target at_ selected p.objects }) := by
  induction selected generalizing p with
  | nil =>
    have same : closed target at_ [] p.objects = p.objects := by
      funext j
      simp [closed]
    rw [same]
    rfl
  | cons i rest induct =>
    unfold closeAll
    by_cases isOver : (p.objects i).terminal = true
    · rw [if_pos isOver, induct p fun j member => ready j (List.mem_cons_of_mem _ member)]
      have same : closed target at_ rest p.objects = closed target at_ (i :: rest) p.objects := by
        funext j
        unfold closed
        rcases eq_or_ne j i with rfl | differ
        · simp [isOver]
        · simp [differ]
      rw [same]
    rw [if_neg isOver]
    have alive : (p.objects i).terminal = false := by simpa using isOver
    rw [RequestRecord.transition_ok (ready i List.mem_cons_self alive)]
    dsimp only
    have entered : ((p.objects i).enter target (at_ i)).terminal = true := ends
    rw [induct]
    · have same : closed target at_ rest (p.objects.put i ((p.objects i).enter target (at_ i))) =
          closed target at_ (i :: rest) p.objects := by
        funext j
        unfold closed
        rcases eq_or_ne j i with rfl | differ
        · rw [Objects.put_self, if_neg (by rw [entered]; simp), if_pos ⟨List.mem_cons_self, alive⟩]
        · rw [Objects.put_of_ne differ]
          simp [differ]
      rw [same]
    · intro j member waits
      dsimp only at waits ⊢
      rcases eq_or_ne j i with rfl | differ
      · rw [Objects.put_self, entered] at waits
        cases waits
      · rw [Objects.put_of_ne differ] at waits ⊢
        exact ready j (List.mem_cons_of_mem _ member) waits

/-- Whether a batch that is running returns with its runtime's results. -/
def Answered (generated : Except Raised (List RuntimeResult)) (selected : List ObjectId) (objects : Objects) : Prop :=
  ∃ results, checkResults (selected.head?.elim false fun i => (objects i).stream) selected.length generated = .ok results

theorem checkResults_length {stream : Bool} {size : Nat} {generated : Except Raised (List RuntimeResult)}
    {results : List RuntimeResult} (checked : checkResults stream size generated = .ok results) :
    results.length = size := by
  unfold checkResults at checked
  split at checked
  · cases checked
  split at checked
  · cases checked
  split at checked
  · cases checked
  · rename_i same
    cases checked
    simpa using same

/-- A running batch ends with all its requests failed, or with all completed and their results. -/
theorem finishBatch_cases {generated : Except Raised (List RuntimeResult)} (failedAt : Seconds)
    (completedAt : ObjectId → Seconds) {p : WorkerProcess}
    (running : ∀ i ∈ selected, (p.objects i).status = .running) :
    (¬Answered generated selected p.objects ∧ ∃ raised p', finishBatch selected generated failedAt completedAt p =
        (.error raised, p') ∧ p'.objects = closed .failed (fun _ => failedAt) selected p.objects) ∨
    ∃ results p', Answered generated selected p.objects ∧ results.length = selected.length ∧
      finishBatch selected generated failedAt completedAt p =
        (.ok (executions (closed .completed completedAt selected p.objects) selected results), p') ∧
      p'.objects = closed .completed completedAt selected p.objects := by
  have ready : ∀ target ∈ RequestState.running.allowed, ∀ i ∈ selected, (p.objects i).terminal = false →
      target ∈ (p.objects i).status.allowed := by
    intro target allowed i member _
    rw [running i member]
    exact allowed
  unfold finishBatch Answered
  dsimp only
  cases checked : checkResults (selected.head?.elim false fun i => (p.objects i).stream) selected.length generated with
  | error raised =>
    have closes := closeAll_ok (fun _ => failedAt) selected p rfl (ready .failed (by decide))
    dsimp only [Attempt.ensure]
    rw [Attempt.bind_ok closes]
    exact Or.inl ⟨by simp, raised, _, rfl, rfl⟩
  | ok results =>
    have closes := closeAll_ok completedAt selected (retire selected p) rfl
      (ready .completed (by decide))
    dsimp only
    rw [Attempt.bind_ok closes]
    exact Or.inr ⟨results, _, ⟨results, rfl⟩, checkResults_length checked, rfl, rfl⟩

/-- The opening of a worker's batch, or its runtime, ends a request without a result. -/
def Drops (inputs : BatchInputs) (i : ObjectId) (p : WorkerProcess) : Prop :=
  ((beginBatch inputs.now p).2.objects i).terminal = true ∨
    ∃ selected, (beginBatch inputs.now p).1 = .ok selected ∧ i ∈ selected ∧
      ¬Answered inputs.generated selected (beginBatch inputs.now p).2.objects

theorem executions_found {objects : Objects} {results : List RuntimeResult} {i : ObjectId} (member : i ∈ selected)
    (lengths : results.length = selected.length) (completed : (objects i).status = .completed) :
    ∃ execution ∈ executions objects selected results, execution.requestId = (objects i).requestId := by
  induction selected generalizing results with
  | nil => cases member
  | cons first rest induct =>
    cases results with
    | nil => cases lengths
    | cons result results =>
      rcases List.mem_cons.mp member with rfl | later
      · refine ⟨⟨(objects i).requestId, result⟩, ?_, rfl⟩
        simp [executions, completed]
      · obtain ⟨execution, found, named⟩ := induct later (by simpa using lengths)
        refine ⟨execution, ?_, named⟩
        unfold executions at found ⊢
        rw [List.zip_cons_cons, List.filterMap_cons]
        split
        · exact found
        · exact List.mem_cons_of_mem _ found

theorem executions_named {objects : Objects} {results : List RuntimeResult} {execution : WorkerExecutionResult}
    (member : execution ∈ executions objects selected results) :
    ∃ i ∈ selected, (objects i).requestId = execution.requestId := by
  unfold executions at member
  obtain ⟨⟨i, result⟩, pair, found⟩ := List.mem_filterMap.mp member
  dsimp only at found
  split at found
  · cases found
    exact ⟨i, (List.of_mem_zip pair).1, rfl⟩
  · cases found

theorem closed_requestId {target : RequestState} {at_ : ObjectId → Seconds} {objects : Objects} (j : ObjectId) :
    (closed target at_ selected objects j).requestId = (objects j).requestId := by
  unfold closed
  split <;> rfl

/-- What a batch does for one request of the process: it fails or returns
without a result for it, and then the request is over only if the worker drops
it, or it returns the result of the completed request. -/
theorem executeBatch_cases (inputs : BatchInputs) (p : WorkerProcess) {i : ObjectId}
    (unique : ∀ j, (p.objects j).requestId = (p.objects i).requestId → j = i) :
    ∃ result p', executeBatch inputs p = (result, p') ∧
      (∀ j, (p'.objects j).requestId = (p.objects j).requestId) ∧
      ((∃ executions, result = .ok executions ∧
          (∃ execution ∈ executions, execution.requestId = (p.objects i).requestId) ∧
          (p'.objects i).status = .completed ∧ ¬Drops inputs i p) ∨
        (∀ executions, result = .ok executions →
          ∀ execution ∈ executions, execution.requestId ≠ (p.objects i).requestId) ∧
        ((p'.objects i).terminal = true ↔ Drops inputs i p) ∧
        ((p'.objects i).terminal = false → (p'.objects i).status = (p.objects i).status ∨
          (p'.objects i).status = .running)) := by
  unfold executeBatch
  rcases beginBatch_cases inputs.now p with ⟨raised, p', run, opened⟩ | ⟨p', run, opened⟩ |
    ⟨selected, p', some, run, opened, running⟩
  · have drops : Drops inputs i p ↔ (p'.objects i).terminal = true := by simp [Drops, run]
    rw [Attempt.bind_error run]
    exact ⟨_, _, rfl, fun j => (opened j).requestId, Or.inr ⟨fun _ ok => (by cases ok), drops.symm, (opened i).status⟩⟩
  · have drops : Drops inputs i p ↔ (p'.objects i).terminal = true := by simp [Drops, run]
    rw [Attempt.bind_ok run, if_pos rfl]
    refine ⟨_, _, rfl, fun j => (opened j).requestId, Or.inr ⟨?_, drops.symm, (opened i).status⟩⟩
    rintro _ ⟨⟩ execution member
    cases member
  have drops : Drops inputs i p ↔ (p'.objects i).terminal = true ∨
      i ∈ selected ∧ ¬Answered inputs.generated selected p'.objects := by simp [Drops, run]
  have alive : i ∈ selected → (p'.objects i).terminal = false := by
    intro member
    unfold RequestRecord.terminal
    rw [running i member]
    rfl
  have outside : ∀ target at_, i ∉ selected → closed target at_ selected p'.objects i = p'.objects i :=
    fun target at_ absent => if_neg fun both => absent both.1
  have inside : ∀ target at_, i ∈ selected →
      closed target at_ selected p'.objects i = (p'.objects i).enter target (at_ i) :=
    fun target at_ member => if_pos ⟨member, alive member⟩
  rw [Attempt.bind_ok run, if_neg some]
  rcases finishBatch_cases inputs.failedAt inputs.completedAt running with
    ⟨refused, raised, final, run', after⟩ | ⟨results, final, answered, lengths, run', after⟩
  · refine ⟨_, _, run', fun j => by rw [after, closed_requestId, (opened j).requestId],
      Or.inr ⟨fun _ ok => (by cases ok), ?_⟩⟩
    rw [after, drops]
    by_cases member : i ∈ selected
    · rw [inside _ _ member]
      exact ⟨⟨fun _ => Or.inr ⟨member, refused⟩, fun _ => rfl⟩, fun waits => (by cases waits)⟩
    · rw [outside _ _ member]
      exact ⟨⟨Or.inl, fun cond => cond.resolve_right fun both => member both.1⟩, (opened i).status⟩
  · refine ⟨_, _, run', fun j => by rw [after, closed_requestId, (opened j).requestId], ?_⟩
    by_cases member : i ∈ selected
    · refine Or.inl ⟨_, rfl, ?_, ?_, ?_⟩
      · have completed : (closed .completed inputs.completedAt selected p'.objects i).status = .completed := by
          rw [inside _ _ member]
          rfl
        obtain ⟨execution, found, named⟩ := executions_found member lengths completed
        exact ⟨execution, found, by rw [named, closed_requestId, (opened i).requestId]⟩
      · rw [after, inside _ _ member]
        rfl
      · rw [drops, alive member]
        rintro (isOver | ⟨-, refused⟩)
        · cases isOver
        · exact refused answered
    · refine Or.inr ⟨?_, ?_⟩
      · rintro _ ⟨⟩ execution found named
        obtain ⟨j, chosen, same⟩ := executions_named found
        rw [closed_requestId, (opened j).requestId, named] at same
        exact member (unique j same ▸ chosen)
      · rw [after, drops, outside _ _ member]
        exact ⟨⟨Or.inl, fun cond => cond.resolve_right fun both => member both.1⟩, (opened i).status⟩

end ManagedWorker

end ServingPlatform
