import Mathlib.Algebra.Order.Field.Rat
import Mathlib.Data.Prod.Lex
import ServingPlatform.FairQueue.Conservation
import ServingPlatform.FairQueue.PiledCredit
import ServingPlatform.Library.StablePriority

namespace ServingPlatform

open WeightedFairRequestQueue

def RequestRecord.queuedAt (r : RequestRecord) : Seconds := (r.transitionTimestamps.get? .queued).getD 0

/-- What the score of a request is without the clock: its priority less the age
of its queued time, then its creation, the earlier first. -/
def WeightedFairRequestQueue.rank (q : WeightedFairRequestQueue) (r : RequestRecord) : Rat ×ₗ Int :=
  toLex (r.priority - r.queuedAt / q.priorityAgingSeconds, -r.createdAt)

namespace FairState

/-- The operations of the queue, with what they hand out, and the changes other
components make: these touch neither priority nor creation time, and do not
queue again what is waiting. -/
inductive Advance (s : FairState) : Option ObjectId → FairState → Prop
  | enqueue (i : ObjectId) (now : Seconds) :
      Advance s none ⟨(s.queue.enqueue s.objects i now).2.1, (s.queue.enqueue s.objects i now).2.2⟩
  | cancel (requestId : String) (now : Seconds) :
      Advance s none ⟨(s.queue.cancel s.objects requestId now).2.1, (s.queue.cancel s.objects requestId now).2.2⟩
  | pop {clock : Nat → Seconds} {result : Option ObjectId} {queue : WeightedFairRequestQueue}
      (run : s.queue.pop s.objects clock = (.ok result, queue)) : Advance s result ⟨queue, s.objects⟩
  | popRaised {clock : Nat → Seconds} {raised : Raised} {queue : WeightedFairRequestQueue}
      (run : s.queue.pop s.objects clock = (.error raised, queue)) : Advance s none ⟨queue, s.objects⟩
  | changed {objects : Objects} (evolves : ∀ i, (s.objects i).Evolves (objects i))
      (fixed : ∀ i, (objects i).priority = (s.objects i).priority ∧ (objects i).createdAt = (s.objects i).createdAt)
      (once : ∀ tenant, ∀ i ∈ s.queue.queueOf tenant, (objects i).queuedAt = (s.objects i).queuedAt) :
      Advance s none ⟨s.queue, objects⟩

inductive Advances (first : FairState) : FairState → Prop
  | start : Advances first first
  | step {s s' : FairState} {result : Option ObjectId} (before : Advances first s) (step : s.Advance result s') :
      Advances first s'

/-- Two requests wait in the queue of a tenant. -/
def Joint (s : FairState) (tenant : String) (i j : ObjectId) : Prop :=
  i ∈ s.queue.queueOf tenant ∧ j ∈ s.queue.queueOf tenant

/-- A stretch of a run throughout which two requests wait together. -/
inductive Together (tenant : String) (i j : ObjectId) (s : FairState) : FairState → Prop
  | start (joint : s.Joint tenant i j) : Together tenant i j s s
  | step {s' s'' : FairState} {result : Option ObjectId} (before : Together tenant i j s s')
      (step : s'.Advance result s'') (joint : s''.Joint tenant i j) : Together tenant i j s s''

/-- The order between waiting requests; no clock takes part in it. -/
def Precedes (s : FairState) (tenant : String) : ObjectId → ObjectId → Prop :=
  StablePriority.Precedes (fun i => s.queue.rank (s.objects i)) (s.queue.queueOf tenant)

/-- While the two wait together, no pop at any time hands out the second before the first, unless that is over. -/
def Yields (s : FairState) (tenant : String) (i j : ObjectId) : Prop :=
  ∀ s', Together tenant i j s s' → ∀ clock queue, s'.queue.pop s'.objects clock = (.ok (some j), queue) →
    (s'.objects i).terminal = true

end FairState

namespace WeightedFairRequestQueue

open StablePriority

variable {q q' : WeightedFairRequestQueue} {objects : Objects} {now : Seconds} {i j : ObjectId} {tenant : String}
  {rest : List String} {visits : Nat}

/-- The score at a time is the rank, moved by the time. -/
theorem urgency_eq_rank {r : RequestRecord} (reached : r.reached .queued = true) :
    q.urgency r now = .ok ((ofLex (q.rank r)).1 + now / q.priorityAgingSeconds, (ofLex (q.rank r)).2) := by
  obtain ⟨queuedAt, found⟩ := Option.isSome_iff_exists.mp reached
  have stamped : r.queuedAt = queuedAt := by rw [RequestRecord.queuedAt, found]; rfl
  unfold urgency rank
  rw [found, stamped]
  simp only [ofLex_toLex, Except.ok.injEq, Prod.mk.injEq, and_true]
  push_cast
  ring

theorem scores_lt_iff (r r' : RequestRecord) (aged : Rat) :
    ((ofLex (q.rank r)).1 + aged < (ofLex (q.rank r')).1 + aged ∨
      (ofLex (q.rank r)).1 + aged = (ofLex (q.rank r')).1 + aged ∧ (ofLex (q.rank r)).2 < (ofLex (q.rank r')).2) ↔
      q.rank r < q.rank r' := by
  rw [Prod.Lex.lt_iff, add_lt_add_iff_right, add_left_inj]

theorem mostUrgent_first {seen late : List ObjectId} {best : ObjectId}
    (reached : ∀ k ∈ late, (objects k).reached .queued = true) (first : First (fun k => q.rank (objects k)) seen best)
    (run : q.mostUrgent objects now best ((ofLex (q.rank (objects best))).1 + now / q.priorityAgingSeconds,
      (ofLex (q.rank (objects best))).2) late = .ok i) : First (fun k => q.rank (objects k)) (seen ++ late) i := by
  induction late generalizing seen best with
  | nil =>
    cases run
    rw [List.append_nil]
    exact first
  | cons k late ih =>
    have later : ∀ k ∈ late, (objects k).reached .queued = true := fun k member =>
      reached k (List.mem_cons_of_mem _ member)
    unfold mostUrgent at run
    rw [urgency_eq_rank (reached k (List.mem_cons_self ..))] at run
    simp only [scores_lt_iff] at run
    rw [List.append_cons]
    split at run
    · exact ih later (first.replace ‹_›) run
    · exact ih later (first.keep (not_lt.mp ‹_›)) run

/-- Whatever the time is, the request chosen is the first of the highest rank. -/
theorem nextForTenant_first {queue : List ObjectId} (reached : ∀ k ∈ queue, (objects k).reached .queued = true)
    (run : q.nextForTenant objects now queue = .ok i) : First (fun k => q.rank (objects k)) queue i := by
  cases queue with
  | nil => cases run
  | cons k rest =>
    simp only [nextForTenant, urgency_eq_rank (reached k (List.mem_cons_self ..))] at run
    exact mostUrgent_first (fun k member => reached k (List.mem_cons_of_mem _ member)) (.singleton _ k) run

theorem visit_first (sound : q.Sound objects) (run : q.visit objects now tenant rest = (.ok (some i), q')) :
    First (fun k => q.rank (objects k)) (q.live objects tenant) i := by
  have reached : ∀ k ∈ q.live objects tenant, (objects k).reached .queued = true := fun k member =>
    (sound.own tenant k (List.mem_of_mem_filter member)).2
  unfold visit at run
  dsimp only at run
  change (if q.live objects tenant = [] then _ else _) = _ at run
  split at run
  · cases run
  cases next : q.nextForTenant objects now (q.live objects tenant) with
  | error raised =>
    rw [show q.nextForTenant objects now (List.filter _ _) = .error raised from next] at run
    cases run
  | ok k =>
    rw [show q.nextForTenant objects now (List.filter _ _) = .ok k from next] at run
    dsimp only at run
    split at run
    · cases run
      exact nextForTenant_first reached next
    · cases run

theorem Visited.priorityAgingSeconds {result : Option ObjectId} (visited : q.Visited objects tenant rest result q') :
    q'.priorityAgingSeconds = q.priorityAgingSeconds := by
  cases visited <;> rfl

theorem Visited.live_eq (visited : q.Visited objects tenant rest none q') (other : String) :
    q'.live objects other = q.live objects other := by
  have pruned : q'.queueOf other = if other = tenant then q.live objects tenant else q.queueOf other := by
    cases visited <;> simp only [queueOf, queueOf_insert]
  unfold live at pruned ⊢
  rw [pruned]
  split
  · rename_i same
    rw [same, List.filter_filter]
    simp only [Bool.and_self]
  · rfl

/-- A pop hands out the first of the highest rank among the requests of a tenant that are not over. -/
theorem popLoop_first (sound : q.Sound objects) (clock : Nat → Seconds)
    (run : popLoop objects clock visits q = (.ok (some i), q')) :
    ∃ tenant, First (fun k => q.rank (objects k)) (q.live objects tenant) i := by
  induction visits generalizing q with
  | zero => cases run
  | succ visits ih =>
    cases front : q.active with
    | nil =>
      simp only [popLoop, front] at run
      cases run
    | cons tenant rest =>
      obtain ⟨found, middle, turn, visited⟩ := visit_cases sound (clock visits) tenant rest
      simp only [popLoop, front, turn] at run
      cases found with
      | some k =>
        cases run
        exact ⟨tenant, visit_first sound turn⟩
      | none =>
        obtain ⟨other, first⟩ := ih (visited.sound sound front) run
        refine ⟨other, ?_⟩
        rw [visited.live_eq] at first
        unfold rank at first
        rw [visited.priorityAgingSeconds] at first
        exact first

end WeightedFairRequestQueue

namespace FairState

open StablePriority

variable {first s s' : FairState} {result : Option ObjectId} {tenant : String} {i j : ObjectId}

/-- What every step keeps: the queues and their requests belong together, and no request waits twice. -/
structure Lined (s : FairState) : Prop where
  sound : s.queue.Sound s.objects
  nodup : ∀ tenant, (s.queue.queueOf tenant).Nodup

/-- What a step may do to a queue: it loses requests, or gets one more at its end. -/
def Edits (s s' : FairState) (tenant : String) : Prop :=
  (s'.queue.queueOf tenant).Sublist (s.queue.queueOf tenant) ∨
    ∃ k ∉ s.queue.queueOf tenant, s'.queue.queueOf tenant = s.queue.queueOf tenant ++ [k]

theorem Advance.edits (step : s.Advance result s') (sound : s.queue.Sound s.objects) (tenant : String) :
    s.Edits s' tenant := by
  cases step with
  | enqueue k now =>
    cases outcome : (s.queue.enqueue s.objects k now).1 with
    | error raised =>
      rcases s.queue.enqueue_cases s.objects k now with ⟨_, run, -⟩ | ⟨_, -, -, ⟨-, run⟩ | ⟨-, run⟩⟩
      · rw [run]
        exact Or.inl (.refl _)
      · rw [run] at outcome
        cases outcome
      · rw [run] at outcome
        cases outcome
    | ok _ =>
      have run : s.queue.enqueue s.objects k now = (.ok (), (s.queue.enqueue s.objects k now).2) := by
        rw [← outcome]
      obtain ⟨queues, fresh, -, -⟩ := enqueue_joins run
      by_cases own : tenant = (s.objects k).tenantId
      · subst own
        exact Or.inr ⟨k, fun member => fresh k member rfl, by rw [queues, if_pos rfl]⟩
      · refine Or.inl ?_
        rw [queues, if_neg own]
  | cancel requestId now =>
    obtain ⟨-, ⟨_, -, -, -, takes⟩ | ⟨-, -, takes⟩⟩ := s.queue.cancel_takes s.objects requestId now
    · exact Or.inl (takes.sublist tenant)
    · exact Or.inl (takes.sublist tenant)
  | pop run => exact Or.inl ((popLoop_takes sound _ run).sublist tenant)
  | @popRaised clock raised queue run =>
    obtain ⟨_, q', run', -⟩ := popLoop_induct (P := fun _ => True) (fun _ _ _ _ => trivial) sound trivial
      clock s.queue.active.length
    cases run.symm.trans run'
  | changed evolves fixed once => exact Or.inl (.refl _)

theorem Advance.aging (step : s.Advance result s') (sound : s.queue.Sound s.objects) :
    s'.queue.priorityAgingSeconds = s.queue.priorityAgingSeconds := by
  cases step with
  | enqueue k now =>
    rcases s.queue.enqueue_cases s.objects k now with ⟨_, run, -⟩ | ⟨_, -, -, ⟨-, run⟩ | ⟨-, run⟩⟩
    · rw [run]
    · rw [run]
      rfl
    · rw [run]
      rfl
  | cancel requestId now =>
    rcases s.queue.cancel_cases s.objects requestId now with run | ⟨_, _, _, -, -, -, after, -⟩
    · rw [run]
    · rw [after]
  | @pop clock result queue run =>
    obtain ⟨_, q', run', -, kept⟩ := popLoop_induct
      (P := fun q => q.priorityAgingSeconds = s.queue.priorityAgingSeconds)
      (fun _ _ visited kept => visited.priorityAgingSeconds.trans kept) sound rfl clock s.queue.active.length
    cases run.symm.trans run'
    exact kept
  | @popRaised clock raised queue run =>
    obtain ⟨_, q', run', -⟩ := popLoop_induct (P := fun _ => True) (fun _ _ _ _ => trivial) sound trivial
      clock s.queue.active.length
    cases run.symm.trans run'
  | changed evolves fixed once => rfl

theorem Advance.lined (step : s.Advance result s') (lined : s.Lined) : s'.Lined := by
  refine ⟨?_, fun tenant => ?_⟩
  · cases step with
    | enqueue k now => exact lined.sound.enqueue k now
    | cancel requestId now => exact lined.sound.cancel requestId now
    | pop run => exact (Step.pop run).sound lined.sound
    | popRaised run => exact (Step.popRaised run).sound lined.sound
    | changed evolves fixed once => exact lined.sound.evolves evolves
  · rcases step.edits lined.sound tenant with fewer | ⟨k, fresh, more⟩
    · exact (lined.nodup tenant).sublist fewer
    · rw [more]
      exact (List.perm_append_singleton _ _).nodup_iff.mpr (List.nodup_cons.mpr ⟨fresh, lined.nodup tenant⟩)

/-- The rank of a request does not change while it waits. -/
theorem Advance.rank (step : s.Advance result s') (sound : s.queue.Sound s.objects)
    (waits : i ∈ s.queue.queueOf tenant) : s'.queue.rank (s'.objects i) = s.queue.rank (s.objects i) := by
  have parts : (s'.objects i).priority = (s.objects i).priority ∧ (s'.objects i).createdAt = (s.objects i).createdAt ∧
      (s'.objects i).queuedAt = (s.objects i).queuedAt := by
    cases step with
    | enqueue k now =>
      rcases s.queue.enqueue_cases s.objects k now with ⟨_, run, -⟩ | ⟨queue, found, fresh, ⟨-, run⟩ | ⟨-, run⟩⟩
      · rw [run]
        exact ⟨rfl, rfl, rfl⟩
      · have other : i ≠ k := by
          rintro rfl
          refine fresh i ?_ rfl
          have own := (sound.own tenant i waits).1
          rw [← own, queueOf, found] at waits
          exact waits
        rw [run]
        dsimp only
        rw [Objects.put_of_ne other]
        exact ⟨rfl, rfl, rfl⟩
      · rw [run]
        exact ⟨rfl, rfl, rfl⟩
    | cancel requestId now =>
      rcases s.queue.cancel_cases s.objects requestId now with run | ⟨_, _, k, -, -, -, -, after | after⟩
      · rw [run]
        exact ⟨rfl, rfl, rfl⟩
      · rw [after]
        exact ⟨rfl, rfl, rfl⟩
      · rw [after]
        rcases eq_or_ne i k with rfl | other
        · dsimp only
          rw [Objects.put_self]
          refine ⟨rfl, rfl, ?_⟩
          unfold RequestRecord.queuedAt RequestRecord.enter
          dsimp only
          rw [Dict.get?_insert_of_ne (by decide)]
        · dsimp only
          rw [Objects.put_of_ne other]
          exact ⟨rfl, rfl, rfl⟩
    | pop run => exact ⟨rfl, rfl, rfl⟩
    | popRaised run => exact ⟨rfl, rfl, rfl⟩
    | changed evolves fixed once => exact ⟨(fixed i).1, (fixed i).2, once tenant i waits⟩
  unfold WeightedFairRequestQueue.rank
  rw [step.aging sound, parts.1, parts.2.1, parts.2.2]

/-- The order of two requests does not change while both wait. -/
theorem Advance.precedes (step : s.Advance result s') (lined : s.Lined) (before : s.Joint tenant i j)
    (after : s'.Joint tenant i j) (precedes : s.Precedes tenant i j) : s'.Precedes tenant i j := by
  have ordered : StablePriority.Precedes (fun k => s.queue.rank (s.objects k)) (s'.queue.queueOf tenant) i j := by
    rcases step.edits lined.sound tenant with fewer | ⟨k, -, more⟩
    · exact precedes.restrict fewer (lined.nodup tenant) after.1 after.2
    · rw [more]
      exact precedes.extend (List.sublist_append_left _ _)
  exact ordered.rerank (step.rank lined.sound before.1) (step.rank lined.sound before.2)

theorem Together.kept (together : Together tenant i j s s') (lined : s.Lined) (precedes : s.Precedes tenant i j) :
    s'.Lined ∧ s'.Joint tenant i j ∧ s'.Precedes tenant i j := by
  induction together with
  | start joint => exact ⟨lined, joint, precedes⟩
  | step before step joint ih =>
    obtain ⟨lined', joint', precedes'⟩ := ih
    exact ⟨step.lined lined', joint, step.precedes lined' joint' joint precedes'⟩

theorem Lined.pop_first (lined : s.Lined) (joint : s.Joint tenant i j) (precedes : s.Precedes tenant i j)
    {clock : Nat → Seconds} {queue : WeightedFairRequestQueue}
    (run : s.queue.pop s.objects clock = (.ok (some j), queue)) : (s.objects i).terminal = true := by
  by_contra alive
  obtain ⟨other, first⟩ := popLoop_first lined.sound clock run
  have same : other = tenant := by
    have here := (lined.sound.own other j (mem_live.mp first.mem).1).1
    exact here.symm.trans (lined.sound.own tenant j joint.2).1
  subst same
  have waits : i ∈ s.queue.live s.objects other := mem_live.mpr ⟨joint.1, by simpa using alive⟩
  have sublist : (s.queue.live s.objects other).Sublist (s.queue.queueOf other) := List.filter_sublist
  exact first.not_preceded ((lined.nodup other).sublist sublist) waits
    (precedes.restrict sublist (lined.nodup other) waits first.mem)

theorem Lined.yields (lined : s.Lined) (precedes : s.Precedes tenant i j) : s.Yields tenant i j := by
  intro s' together clock queue run
  obtain ⟨lined', joint, precedes'⟩ := together.kept lined precedes
  exact lined'.pop_first joint precedes' run

theorem Advances.lined (advances : Advances first s) (lined : first.Lined) :
    s.Lined ∧ s.queue.priorityAgingSeconds = first.queue.priorityAgingSeconds := by
  induction advances with
  | start => exact ⟨lined, rfl⟩
  | step before step ih => exact ⟨step.lined ih.1, (step.aging ih.1.sound).trans ih.2⟩

end FairState

namespace WeightedFairRequestQueue

/-- A request queued long enough before another ranks above it. -/
theorem rank_lt (q : WeightedFairRequestQueue) {r r' : RequestRecord}
    (older : ((r'.priority : Rat) - r.priority) * q.priorityAgingSeconds < r'.queuedAt - r.queuedAt) :
    q.rank r' < q.rank r := by
  have positive := q.agingPositive
  refine Prod.Lex.lt_iff.mpr (Or.inl ?_)
  have apart : (r'.priority : Rat) - r.priority < (r'.queuedAt - r.queuedAt) / q.priorityAgingSeconds :=
    (lt_div_iff₀ positive).mpr older
  rw [sub_div] at apart
  simp only [rank, ofLex_toLex]
  linarith

/-- In every run of a queue and of the changes others make to its requests,
whatever the clocks read: of two requests that wait together one precedes the
other, by priority less queued time over the aging seconds, then by creation,
then by the order of the queue; and while they wait together only that one is
handed out. So a request is not overtaken by one queued more than the aged
difference of the priorities later, nor, for priorities up to 100, by one queued
more than 100 times the aging seconds later. -/
theorem pops_follow_rank {tenants : List TenantLimits} {quantum : Int} {aging : Rat} {q : WeightedFairRequestQueue}
    {requests : Objects} {s : FairState} {tenant : String} {i j : ObjectId} (built : init tenants quantum aging = .ok q)
    (advances : FairState.Advances ⟨q, requests⟩ s) (differ : i ≠ j) (joint : s.Joint tenant i j) :
    (s.Precedes tenant j i ↔ ¬s.Precedes tenant i j) ∧ (s.Precedes tenant i j → s.Yields tenant i j) ∧
    (((s.objects j).priority - (s.objects i).priority : Rat) * aging < (s.objects j).queuedAt - (s.objects i).queuedAt →
      s.Yields tenant i j) ∧
    (0 ≤ (s.objects i).priority → (s.objects j).priority ≤ 100 →
      100 * aging < (s.objects j).queuedAt - (s.objects i).queuedAt → s.Yields tenant i j) := by
  have start : FairState.Lined ⟨q, requests⟩ :=
    ⟨init_sound built requests, fun tenant => by rw [init_queueOf built]; exact List.nodup_nil⟩
  obtain ⟨lined, kept⟩ := advances.lined start
  have constant : s.queue.priorityAgingSeconds = aging := by
    rw [kept]
    unfold init at built
    split at built
    · cases built
      rfl
    · cases built
  have positive : 0 < aging := constant ▸ s.queue.agingPositive
  have later : ((s.objects j).priority - (s.objects i).priority : Rat) * aging <
      (s.objects j).queuedAt - (s.objects i).queuedAt → s.Yields tenant i j := by
    intro older
    rw [← constant] at older
    exact lined.yields (Or.inl (s.queue.rank_lt older))
  refine ⟨⟨fun back forth => back.asymm (lined.nodup tenant) forth, fun other => ?_⟩, lined.yields, later, ?_⟩
  · exact (StablePriority.Precedes.total _ differ joint.1 joint.2).resolve_left other
  · intro least most older
    have low : (0 : Rat) ≤ (s.objects i).priority := by exact_mod_cast least
    have high : ((s.objects j).priority : Rat) ≤ 100 := by exact_mod_cast most
    have apart : ((s.objects j).priority - (s.objects i).priority : Rat) * aging ≤ 100 * aging :=
      mul_le_mul_of_nonneg_right (by linarith) positive.le
    exact later (apart.trans_lt older)

namespace Aged

/-- Two requests of one tenant, the second of the highest priority. -/
def requests : Objects := fun k => { PiledCredit.request (2 * k) with priority := if k = 0 then 0 else 100 }

/-- The first is queued at 0, the second at 101. -/
def waiting : FairState :=
  let first := (PiledCredit.queue [] [] 0 []).enqueue requests 0 0
  let second := first.2.1.enqueue first.2.2 1 101
  ⟨second.2.1, second.2.2⟩

theorem advances_waiting : FairState.Advances ⟨PiledCredit.queue [] [] 0 [], requests⟩ waiting :=
  .step (.step .start (.enqueue 0 0)) (.enqueue 1 101)

end Aged

theorem pops_follow_rank_aged : Aged.waiting.Yields "cheap" 0 1 := by
  have joint : Aged.waiting.Joint "cheap" 0 1 := ⟨by decide, by decide⟩
  refine (pops_follow_rank PiledCredit.built Aged.advances_waiting (by decide) joint).2.2.2 (by decide) (by decide) ?_
  have first : (Aged.waiting.objects 0).queuedAt = 0 := by decide
  have second : (Aged.waiting.objects 1).queuedAt = 101 := by decide
  rw [first, second]
  norm_num

end WeightedFairRequestQueue

end ServingPlatform
