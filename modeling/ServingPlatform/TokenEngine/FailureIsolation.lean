import ServingPlatform.TokenEngine.EventStreams

namespace ServingPlatform

variable {S : Type} {backend : InferenceBackend S} {setup : EngineSetup}

namespace Shared

variable {t t' : Shared backend} {r : Ref} {tokens : List GeneratedToken} {last : Option StreamEvent}

/-- A sequence completes where no exception was met for it, and fails with one that was. -/
def Attributed (t : Shared backend) (r : Ref) : StreamEvent → Prop
  | .token _ => True
  | .complete _ => (t.view r).Clean
  | .failure error => (t.view r).Blames error

/-- No calls are made for a sequence that is not active. -/
theorem Step.records (step : Step t t') (inactive : ¬ t.ActiveRef r) : t'.recordsOf r = t.recordsOf r := by
  have same : t'.log = t.log → t'.recordsOf r = t.recordsOf r := fun same => congrArg (List.filter _) same
  cases step with
  | scheduler action => exact same action.log
  | client action => exact same action.log
  | decided | stop | schedulerReturned | schedulerRaised => rfl
  | call guard run =>
    exact List.filter_cons_of_neg fun listed => inactive (guard.active r (of_decide_eq_true listed))

theorem Attributed.same {event : StreamEvent} (attributed : t.Attributed r event)
    (requestId : t'.engine.requestId r = t.engine.requestId r) (records : t'.recordsOf r = t.recordsOf r) :
    t'.Attributed r event := by
  have met : ∀ c : CallRecord S, c.errorFor (t'.view r).sequence.state.requestId =
      c.errorFor (t.view r).sequence.state.requestId := fun c => congrArg c.errorFor requestId
  have clean : (t.view r).Clean → (t'.view r).Clean := by
    intro clean c member
    have listed : c ∈ t'.recordsOf r := member
    rw [records] at listed
    rw [met]
    exact clean c listed
  cases event with
  | token => trivial
  | complete completion => exact clean attributed
  | failure error =>
    rcases attributed with none | ⟨c, member, blamed⟩
    · exact Or.inl (clean none)
    · have listed : c ∈ t'.recordsOf r := by
        rw [records]
        exact member
      exact Or.inr ⟨c, listed, (met c).trans blamed⟩

theorem FinalEvent.attributed {event : ScheduledSequence → StreamEvent} {phase : SequencePhase}
    (final : t.FinalEvent r phase event) {runtime : ScheduledSequence} : t.Attributed r (event runtime) := by
  cases final with
  | complete reason clean holds => exact clean
  | failure error blames => exact blames

theorem Streamed.attributed_of_open (streamed : t.Streamed r tokens none) {t' : Shared backend} :
    ∀ event ∈ (t.engine.sequences r).events, t'.Attributed r event := by
  intro event member
  rw [streamed.events, Option.toList_none, List.append_nil] at member
  obtain ⟨token, -, rfl⟩ := List.mem_map.mp member
  trivial

theorem Step.attributed (step : Step t t') (sound : t.Sound setup) (below : r < t.engine.created)
    (streamed : t.Streamed r tokens last) (before : ∀ event ∈ (t.engine.sequences r).events, t.Attributed r event) :
    ∀ event ∈ (t'.engine.sequences r).events, t'.Attributed r event := by
  have stream := step.stream sound below
  have requestId := stream.requestId
  by_cases active : t.ActiveRef r
  · cases streamed.open_of_active sound active
    intro event member
    cases stream with
    | same same =>
      rw [show (t'.engine.sequences r).events = _ from congrArg SequenceStory.events same.story] at member
      exact streamed.attributed_of_open event member
    | @emits token _ _ _ _ _ _ _ after =>
      have events : (t'.engine.sequences r).events = (t.engine.sequences r).events ++ [.token token] := by
        rw [after]
        show ((t.engine.emit r token).sequences r).events = _
        rw [Engine.emit, Engine.modifySequence_self]
      rw [events] at member
      rcases List.mem_append.mp member with old | new
      · exact streamed.attributed_of_open event old
      · rw [List.mem_singleton.mp new]
        trivial
    | ends _ final sequence log =>
      rw [sequence] at member
      rcases List.mem_append.mp member with old | new
      · exact streamed.attributed_of_open event old
      · rw [List.mem_singleton.mp new]
        exact final.attributed.same requestId (congrArg (List.filter _) log)
  · intro event member
    have events : (t'.engine.sequences r).events = (t.engine.sequences r).events := by
      cases stream with
      | same same => exact congrArg SequenceStory.events same.story
      | emits active' => exact absurd active' active
      | ends active' => exact absurd active' active
    rw [events] at member
    exact (before event member).same requestId (step.records active)

/-- What the last event of a sequence tells is true of the calls made for it. -/
theorem Reach.attributed (reach : Reach setup t) (below : r < t.engine.created) :
    ∀ event ∈ (t.engine.sequences r).events, t.Attributed r event := by
  induction reach generalizing r with
  | refl => exact absurd below (Nat.not_lt_zero _)
  | tail earlier step before =>
    rcases step.joined below with older | ⟨-, -, state, -, new⟩
    · obtain ⟨tokens, last, streamed⟩ := Reach.streamed earlier older
      exact step.attributed (Reach.sound earlier) older streamed (before older)
    · intro event member
      rw [new] at member
      cases member

/-- A call made for the sequence raised the exception, or reported it for the sequence. -/
def Met (t : Shared backend) (r : Ref) (error : Raised) : Prop :=
  ∃ c ∈ t.log, r ∈ c.sequences ∧ c.errorFor (t.engine.requestId r) = some error

theorem met_iff {error : Raised} : t.Met r error ↔ ∃ c ∈ t.recordsOf r, c.errorFor (t.engine.requestId r) = some error := by
  constructor
  · rintro ⟨c, logged, listed, met⟩
    exact ⟨c, List.mem_filter.mpr ⟨logged, decide_eq_true listed⟩, met⟩
  · rintro ⟨c, member, met⟩
    obtain ⟨logged, listed⟩ := List.mem_filter.mp member
    exact ⟨c, logged, of_decide_eq_true listed, met⟩

theorem clean_iff : (t.view r).Clean ↔ ∀ error, ¬ t.Met r error := by
  constructor
  · intro clean error met
    obtain ⟨c, member, met⟩ := met_iff.mp met
    cases (clean c member).symm.trans met
  · intro unmet c member
    exact Option.eq_none_iff_forall_ne_some.mpr fun error met => unmet error (met_iff.mpr ⟨c, member, met⟩)

/-- A sequence for which an exception was met has failed with one of those, unless it is still active. -/
theorem Reach.failed (reach : Reach setup t) (below : r < t.engine.created) (inactive : ¬ t.ActiveRef r)
    {raised : Raised} (met : t.Met r raised) :
    ∃ error, t.Met r error ∧ (t.engine.sequences r).events.getLast? = some (.failure error) := by
  obtain ⟨tokens, last, streamed⟩ := reach.streamed below
  have attributed := reach.attributed below
  have isOver : (t.engine.sequences r).done = true := by
    by_contra live
    exact inactive ((Reach.sound reach).live r below |>.mp (eq_false_of_ne_true live))
  rw [streamed.done] at isOver
  obtain ⟨event, rfl⟩ := Option.isSome_iff_exists.mp isOver
  rw [streamed.events, Option.toList_some] at attributed ⊢
  have final := attributed event (List.mem_append_right _ (List.mem_singleton_self _))
  cases event with
  | token => exact (streamed.told _ rfl).elim
  | complete completion => exact absurd met (clean_iff.mp final raised)
  | failure error =>
    refine ⟨error, ?_, by rw [List.getLast?_append, List.getLast?_singleton]; rfl⟩
    exact met_iff.mpr (final.resolve_left fun clean => clean_iff.mp clean raised met)

end Shared

namespace Recorded

variable {c c' : Recorded backend}

/-- If the scheduler's loop ended with an exception, some call was not covered. -/
def Blamed (c : Recorded backend) : Prop :=
  ∀ error, c.configuration.scheduler = .isOver (.error error) → ¬ Covered c.configuration.shared.log

theorem blamed_of_ran {outcome : Coro.Outcome (Engine S) (EngineOp S) EngineOp.Answer Raised Bool} {h : Chronicle backend}
    (holds : Coro.Holds Chronicle.window (Chronicle.turnProtocol backend setup) (Chronicle.TurnEnds setup) outcome h) :
    (c.schedulerRan (.ofOutcome outcome) h).Blamed := by
  intro error isOver
  have isOver : TaskStatus.ofOutcome outcome = .isOver (.error error) := isOver
  cases outcome with
  | waiting op k => cases isOver
  | finished result =>
    obtain ⟨-, ends⟩ := holds
    cases result with
    | error other => exact ends
    | ok goesOn => cases goesOn <;> cases isOver

theorem Step.blamed (step : Step c c') (safe : c.Safe setup) (before : c.Blamed) : c'.Blamed := by
  cases step with
  | turn task between run =>
    have holds := safe.scheduler task
    rw [between] at holds
    exact blamed_of_ran ((TokenGenerationEngine.safe_schedulerIteration holds.1 holds.2).advances run).2
  | resume task answered run =>
    have holds := safe.scheduler task
    rw [answered] at holds
    exact blamed_of_ran ((holds.2 c.chronicle (.refl holds.1) rfl rfl).advances run).2
  | @beside configuration step =>
    intro error isOver
    have log := (step.safe safe).2.log
    have same : c.configuration.scheduler = .isOver (.error error) := by
      cases step with
      | answer => cases isOver
      | client | immediate | stream | shutdown => exact isOver
    rcases log with kept | ⟨command, sequences, k, result, waiting, -⟩
    · rw [show ({ c with configuration } : Recorded backend).configuration.shared.log = _ from kept]
      exact before error same
    · cases waiting.symm.trans same

/-- Between two turns of the scheduler every active sequence is settled. -/
theorem Safe.settled (safe : c.Safe setup) (between : c.configuration.scheduler = .between) {r : Ref}
    (active : c.configuration.shared.ActiveRef r) :
    (c.configuration.shared.view r).Settled setup.config setup.dimensions := by
  cases task : c.configuration.shared.engine.schedulerTask with
  | none => exact (safe.ready.startable task).settled r active
  | some made =>
    by_cases running : made = .running
    · subst running
      have holds := safe.scheduler task
      rw [between] at holds
      exact holds.1.settled r active
    · obtain ⟨result, isOver⟩ := safe.isOver made task running
      cases between.symm.trans isOver

end Recorded

namespace Configuration

variable {c : Configuration backend}

theorem Reachable.blamed (reachable : c.Reachable backend setup) :
    ∃ decisions, (⟨c, decisions⟩ : Recorded backend).Safe setup ∧ (⟨c, decisions⟩ : Recorded backend).Blamed := by
  induction reachable with
  | refl => exact ⟨[], Recorded.initial_safe backend setup, fun error isOver => by cases isOver⟩
  | tail _ step before =>
    obtain ⟨decisions, safe, blamed⟩ := before
    obtain ⟨c', rfl, recorded⟩ := Recorded.Step.record (c := ⟨_, decisions⟩) step
    exact ⟨c'.decisions, (recorded.safe safe).1, recorded.blamed safe blamed⟩

/-- As long as its calls are covered the scheduler's loop does not end with an
exception: what a call raises becomes the failure of the sequences the call
was made for, and the others can be scheduled on. -/
theorem scheduler_survives (reachable : c.Reachable backend setup) (covered : Covered c.shared.log) :
    (∀ error, c.scheduler ≠ .isOver (.error error)) ∧
    (∀ r, r < c.shared.engine.created → ¬ c.shared.ActiveRef r → ∀ raised, c.shared.Met r raised →
      ∃ error, c.shared.Met r error ∧ (c.shared.engine.sequences r).events.getLast? = some (.failure error)) ∧
    (c.scheduler = .between → ∀ r, c.shared.ActiveRef r → (∀ raised, ¬ c.shared.Met r raised) ∧
      (r ∈ c.shared.engine.waiting ∨ r ∈ c.shared.engine.running)) := by
  obtain ⟨decisions, safe, blamed⟩ := reachable.blamed
  refine ⟨fun error isOver => blamed error isOver covered,
    fun r below inactive raised met => safe.reach.failed below inactive met, fun between r active => ?_⟩
  have settled := safe.settled between active
  refine ⟨Shared.clean_iff.mp settled.clean, ?_⟩
  have member : r ∈ c.shared.engine.active.values := Dict.mem_values_iff.mpr ⟨_, active⟩
  rcases settled with fresh | ⟨prompt, prefilling⟩ | decoding
  · exact Or.inl (Engine.mem_sequencesIn.mpr ⟨member, decide_eq_true (Or.inl fresh.phase)⟩)
  · exact Or.inl (Engine.mem_sequencesIn.mpr ⟨member, decide_eq_true (Or.inr prefilling.phase)⟩)
  · exact Or.inr (Engine.mem_sequencesIn.mpr ⟨member, decide_eq_true decoding.decode⟩)

namespace Sample

/-- A backend that cannot tokenize. -/
def untokenized : (method : BackendMethod Unit) → Except Raised method.Answer
  | .tokenize _ => .error (runtimeError "tokenizer failed")
  | method => answer method

def isTokenize (record : CallRecord Unit) : Bool :=
  match record.command with
  | .direct (.tokenize _) => true
  | _ => false

theorem covered_of_isTokenize {log : List (CallRecord Unit)} (tokenizes : log.all isTokenize = true) : Covered log := by
  induction log with
  | nil => trivial
  | cons record rest ih =>
    rw [List.all_cons, Bool.and_eq_true] at tokenizes
    obtain ⟨head, tail⟩ := tokenizes
    obtain ⟨command, sequences, result⟩ := record
    unfold isTokenize at head
    dsimp only at head
    split at head
    · refine ⟨trivial, ?_, ih tail⟩
      rintro ⟨id, sequences, error, same⟩
      cases same
    · cases head

/-- The only sequence fails when it is tokenized. -/
def fails (c : Configuration (.ofAnswers untokenized)) : Bool :=
  c.shared.log.all isTokenize ∧ c.shared.log.length = 1 ∧ c.shared.engine.created = 1

theorem tokenizer_fails : ((plays untokenized (initial _ oneToken)
    [.reserve "first" "short" sampling 10 0, .stream "first", .schedule 0, .answer, .schedule 0]).any fails) = true := by
  decide +kernel

/-- A backend whose snapshots fail. -/
def snapshotless : (method : BackendMethod Unit) → Except Raised method.Answer
  | .snapshotPrefix _ => .error (runtimeError "snapshot failed")
  | method => answer method

def raises (c : Configuration (.ofAnswers snapshotless)) : Bool :=
  match c.scheduler with
  | .isOver (.error _) => true
  | _ => false

/-- A prompt of one chunk is prefilled, and its snapshot is asked for. -/
theorem snapshot_raises : ((plays snapshotless (initial _ oneToken)
    [.reserve "first" "short" sampling 10 0, .stream "first", .schedule 0, .answer, .schedule 0, .answer, .schedule 0,
      .answer, .schedule 0, .answer, .schedule 0]).any raises) = true := by decide +kernel

end Sample

open Sample in
theorem scheduler_survives_sample : ∃ c : Configuration (.ofAnswers untokenized), c.Reachable _ oneToken ∧
    c.shared.log.length = 1 ∧ ∀ error, c.scheduler ≠ .isOver (.error error) := by
  obtain ⟨c, reachable, seen⟩ := script_reaches untokenized tokenizer_fails
  obtain ⟨tokenizes, logged, -⟩ := of_decide_eq_true seen
  exact ⟨c, reachable, logged, (scheduler_survives reachable (covered_of_isTokenize tokenizes)).1⟩

open Sample in
/-- A snapshot that fails after a prefill ends the scheduler's loop, though no release raises. -/
theorem failed_snapshot_raises : ∃ (c : Configuration (.ofAnswers snapshotless)) (error : Raised),
    (∀ id before result after, (InferenceBackend.ofAnswers snapshotless).perform (.releaseSequence id) before result after →
      result = .ok ()) ∧ c.Reachable _ oneToken ∧ c.scheduler = .isOver (.error error) := by
  obtain ⟨c, reachable, seen⟩ := script_reaches snapshotless snapshot_raises
  unfold raises at seen
  split at seen
  · rename_i error isOver
    exact ⟨c, error, fun _ _ _ _ run => run, reachable, isOver⟩
  · cases seen

end Configuration

end ServingPlatform
