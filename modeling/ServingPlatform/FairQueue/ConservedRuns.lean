import ServingPlatform.FairQueue.Conservation
import ServingPlatform.FairQueue.PiledCredit

namespace ServingPlatform

open WeightedFairRequestQueue

/-- The fair queue and its requests, with the deficits as integers. -/
structure FairLedger where
  queue : WeightedFairRequestQueue
  objects : Objects
  deficits : String → Int

namespace FairLedger

/-- The operations of the queue, and the transitions other components make. -/
inductive Step (s : FairLedger) : Option (WaitingEvent ObjectId) → FairLedger → Prop
  | enqueued {i : ObjectId} {now : Seconds} {queue : WeightedFairRequestQueue} {objects : Objects}
      (run : s.queue.enqueue s.objects i now = (.ok (), queue, objects)) :
      Step s (some (.enqueued i)) ⟨queue, objects, s.deficits⟩
  | refused {i : ObjectId} {now : Seconds} {raised : Raised} {queue : WeightedFairRequestQueue} {objects : Objects}
      (run : s.queue.enqueue s.objects i now = (.error raised, queue, objects)) :
      Step s none ⟨queue, objects, s.deficits⟩
  | popped {clock : Nat → Seconds} {result : Option ObjectId} {queue : WeightedFairRequestQueue}
      (run : s.queue.pop s.objects clock = (.ok result, queue)) :
      Step s (result.map .returned)
        ⟨queue, s.objects, signedDeficits s.objects clock s.queue.active.length s.queue s.deficits⟩
  | popRaised {clock : Nat → Seconds} {raised : Raised} {queue : WeightedFairRequestQueue}
      (run : s.queue.pop s.objects clock = (.error raised, queue)) :
      Step s none ⟨queue, s.objects, signedDeficits s.objects clock s.queue.active.length s.queue s.deficits⟩
  | cancelled {requestId : String} {now : Seconds} {i : ObjectId} {tenant : String} {queue : WeightedFairRequestQueue}
      {objects : Objects} (run : s.queue.cancel s.objects requestId now = (.ok true, queue, objects))
      (waits : i ∈ s.queue.queueOf tenant) (named : (s.objects i).requestId = requestId) :
      Step s (some (.cancelled i)) ⟨queue, objects, s.deficits⟩
  | uncancelled {requestId : String} {now : Seconds} {result : Except Raised Bool} {queue : WeightedFairRequestQueue}
      {objects : Objects} (run : s.queue.cancel s.objects requestId now = (result, queue, objects))
      (failed : result ≠ .ok true) : Step s none ⟨queue, objects, s.deficits⟩
  | changed {i : ObjectId} {target : RequestState} {now : Seconds} {r : RequestRecord}
      (run : (s.objects i).transition target now = .ok r) :
      Step s (if r.terminal then some (.ended i) else none) ⟨s.queue, s.objects.put i r, s.deficits⟩

/-- The runs of a queue, with all that happened, the last event first. -/
inductive Run (first : FairLedger) : FairLedger → List (WaitingEvent ObjectId) → Prop
  | start : Run first first []
  | step {s s' : FairLedger} {event : Option (WaitingEvent ObjectId)} {history : List (WaitingEvent ObjectId)}
      (before : Run first s history) (step : s.Step event s') : Run first s' (event.toList ++ history)

/-- What holds throughout a run: nothing is handed out more often than it was
enqueued, nor once it is over; a request that is still awaited is in exactly one
queue; the ring covers the waiting requests; no deficit is negative; and a pop
leaves the tenants it does not visit alone. -/
structure Conserves (s : FairLedger) (history : List (WaitingEvent ObjectId)) : Prop where
  matched : ∀ i, history.count (.returned i) ≤ history.count (.enqueued i)
  final : WaitingEvent.Final history
  placed : ∀ i, WaitingEvent.awaited i history = true → (s.objects i).terminal = false →
    ∃ tenant, (s.queue.queueOf tenant).count i = 1 ∧ ∀ other, i ∈ s.queue.queueOf other → other = tenant
  distinct : s.queue.active.Nodup
  waiting : ∀ tenant, s.queue.queueOf tenant ≠ [] → tenant ∈ s.queue.active
  deficit : ∀ tenant, s.deficits tenant = s.queue.deficitOf tenant
  solvent : ∀ tenant, 0 ≤ s.deficits tenant
  untouched : ∀ clock tenant, tenant ∉ visitedTenants s.objects clock s.queue.active.length s.queue →
    s.queue.Untouched (s.queue.pop s.objects clock).2 tenant
  order : ∀ clock, (s.queue.pop s.objects clock).2.active.filter
      (fun tenant => tenant ∉ visitedTenants s.objects clock s.queue.active.length s.queue) =
    s.queue.active.filter fun tenant => tenant ∉ visitedTenants s.objects clock s.queue.active.length s.queue

variable {s s' : FairLedger} {event : Option (WaitingEvent ObjectId)} {history : List (WaitingEvent ObjectId)}

/-- A request waits in the queue of its tenant. -/
def Waits (s : FairLedger) (i : ObjectId) : Prop := i ∈ s.queue.queueOf (s.objects i).tenantId

/-- The invariant of the runs. -/
structure Kept (s : FairLedger) (history : List (WaitingEvent ObjectId)) : Prop where
  sound : s.queue.Sound s.objects
  named : ∀ tenant, ((s.queue.queueOf tenant).map fun i => (s.objects i).requestId).Nodup
  across : ∀ i j, (s.objects i).requestId = (s.objects j).requestId → (s.objects i).tenantId = (s.objects j).tenantId
  deficit : ∀ tenant, s.deficits tenant = s.queue.deficitOf tenant
  books : WaitingBooks s.Waits (fun i => (s.objects i).terminal = true) history

namespace Kept

theorem nodup (kept : s.Kept history) (tenant : String) : (s.queue.queueOf tenant).Nodup := .of_map _ (kept.named tenant)

theorem waits (kept : s.Kept history) {tenant : String} {i : ObjectId} (inside : i ∈ s.queue.queueOf tenant) : s.Waits i := by
  rw [Waits, (kept.sound.own tenant i inside).1]
  exact inside

/-- A request id names at most one waiting request. -/
theorem unique (kept : s.Kept history) {i j : ObjectId} (first : s.Waits i) (second : s.Waits j)
    (same : (s.objects i).requestId = (s.objects j).requestId) : i = j := by
  rw [Waits, kept.across i j same] at first
  exact List.inj_on_of_nodup_map (kept.named _) first second same

theorem placed (kept : s.Kept history) {i : ObjectId} (awaited : WaitingEvent.awaited i history = true)
    (alive : (s.objects i).terminal = false) :
    ∃ tenant, (s.queue.queueOf tenant).count i = 1 ∧ ∀ other, i ∈ s.queue.queueOf other → other = tenant := by
  have inside := kept.books.held i awaited (by simp [alive])
  refine ⟨(s.objects i).tenantId, List.count_eq_one_of_mem (kept.nodup _) inside, fun other member => ?_⟩
  exact (kept.sound.own other i member).1.symm

theorem conserving (kept : s.Kept history) : s.Conserves history where
  matched := kept.books.count_le
  final := kept.books.final
  placed := fun i => kept.placed
  distinct := kept.sound.distinct
  waiting := kept.sound.waiting
  deficit := kept.deficit
  solvent := fun tenant => by
    rw [kept.deficit]
    omega
  untouched := fun clock tenant => popLoop_untouched kept.sound clock
  order := fun clock => popLoop_order kept.sound clock fun tenant member => by simpa using member

theorem across_evolves (kept : s.Kept history) {objects : Objects} (evolves : ∀ i, (s.objects i).Evolves (objects i))
    (i j : ObjectId) (same : (objects i).requestId = (objects j).requestId) :
    (objects i).tenantId = (objects j).tenantId := by
  rw [(evolves i).requestId, (evolves j).requestId] at same
  rw [(evolves i).tenantId, (evolves j).tenantId]
  exact kept.across i j same

section Takes

variable {result : Option ObjectId} {queue : WeightedFairRequestQueue} {objects : Objects} {deficits : String → Int}

theorem named_takes (kept : s.Kept history) (takes : Takes s.objects s.queue result queue)
    (evolves : ∀ i, (s.objects i).Evolves (objects i)) (tenant : String) :
    ((queue.queueOf tenant).map fun i => (objects i).requestId).Nodup := by
  rw [List.map_congr_left fun i _ => (evolves i).requestId]
  exact (kept.named tenant).sublist ((takes.sublist tenant).map _)

/-- Who waits once a request, or none, was taken. -/
theorem waits_takes (kept : s.Kept history) (takes : Takes s.objects s.queue result queue)
    (evolves : ∀ i, (s.objects i).Evolves (objects i)) {j : ObjectId} (inside : Waits ⟨queue, objects, deficits⟩ j) :
    s.Waits j ∧ result ≠ some j := by
  unfold Waits at inside
  dsimp only at inside
  rw [(evolves j).tenantId] at inside
  refine ⟨(takes.sublist _).subset inside, ?_⟩
  rintro rfl
  obtain ⟨tenant, member, -, gone⟩ := takes.taken j rfl
  rw [(kept.sound.own tenant j member).1] at inside
  exact gone (kept.nodup tenant) inside

theorem waits_kept (takes : Takes s.objects s.queue result queue) (evolves : ∀ i, (s.objects i).Evolves (objects i))
    {j : ObjectId} (waits : s.Waits j) (alive : (s.objects j).terminal = false) (other : result ≠ some j) :
    Waits ⟨queue, objects, deficits⟩ j := by
  unfold Waits
  dsimp only
  rw [(evolves j).tenantId]
  exact takes.kept _ j waits alive other

end Takes

theorem enqueued (kept : s.Kept history) {i : ObjectId} {now : Seconds} {queue : WeightedFairRequestQueue}
    {objects : Objects} (run : s.queue.enqueue s.objects i now = (.ok (), queue, objects)) :
    Kept ⟨queue, objects, s.deficits⟩ (.enqueued i :: history) := by
  obtain ⟨queues, fresh, terminal, deficits⟩ := enqueue_joins run
  have evolves := s.queue.enqueue_evolves s.objects i now
  have sound := kept.sound.enqueue i now
  rw [run] at evolves sound
  dsimp only at evolves sound
  refine ⟨sound, fun tenant => ?_, kept.across_evolves evolves, fun tenant => ?_, ?_⟩
  · rw [List.map_congr_left fun j _ => (evolves j).requestId]
    dsimp only
    rw [queues]
    split
    · rw [List.map_append, List.map_singleton]
      refine (List.perm_append_singleton _ _).nodup_iff.mpr (List.nodup_cons.mpr ⟨?_, kept.named _⟩)
      intro member
      obtain ⟨j, inside, same⟩ := List.mem_map.mp member
      exact fresh j inside same
    · exact kept.named tenant
  · rw [kept.deficit]
    unfold deficitOf
    dsimp only
    rw [deficits]
  · have entered : WaitingBooks (Waits ⟨queue, objects, s.deficits⟩) (fun j => (s.objects j).terminal = true)
        (.enqueued i :: history) := by
      refine kept.books.enqueue fun j => ?_
      unfold Waits
      dsimp only
      rw [(evolves j).tenantId, queues]
      by_cases own : (s.objects j).tenantId = (s.objects i).tenantId
      · rw [if_pos own, List.mem_append, List.mem_singleton, own]
        exact Or.comm
      · rw [if_neg own]
        exact ⟨Or.inr, fun cond => cond.resolve_left fun same => own (by rw [same])⟩
    exact entered.keep (fun _ inside => inside) (fun _ inside _ => inside) fun j isOver => by
      dsimp only
      rw [terminal]
      exact isOver

theorem refused (kept : s.Kept history) {i : ObjectId} {now : Seconds} {raised : Raised}
    {queue : WeightedFairRequestQueue} {objects : Objects}
    (run : s.queue.enqueue s.objects i now = (.error raised, queue, objects)) :
    Kept ⟨queue, objects, s.deficits⟩ history := by
  rcases s.queue.enqueue_cases s.objects i now with ⟨raised', refused, -⟩ | ⟨_, -, -, ⟨-, joined⟩ | ⟨-, joined⟩⟩
  · cases run.symm.trans refused
    exact kept
  · cases run.symm.trans joined
  · cases run.symm.trans joined

theorem popped (kept : s.Kept history) {clock : Nat → Seconds} {result : Option ObjectId}
    {queue : WeightedFairRequestQueue} (run : s.queue.pop s.objects clock = (.ok result, queue)) :
    Kept ⟨queue, s.objects, signedDeficits s.objects clock s.queue.active.length s.queue s.deficits⟩
      ((result.map WaitingEvent.returned).toList ++ history) := by
  have takes := popLoop_takes kept.sound clock run
  have evolves : ∀ i, (s.objects i).Evolves (s.objects i) := fun i => .refl _
  obtain ⟨_, queue', run', sound, -⟩ := popLoop_induct (P := fun _ => True) (fun _ _ _ _ => trivial) kept.sound trivial
    clock s.queue.active.length
  cases run.symm.trans run'
  refine ⟨sound, kept.named_takes takes evolves, kept.across, fun tenant => ?_, ?_⟩
  · have books := popLoop_deficitOf s.objects clock s.queue.active.length s.queue tenant
    rw [show (popLoop s.objects clock s.queue.active.length s.queue).2 = queue from congrArg Prod.snd run] at books
    rw [funext kept.deficit]
    exact books.symm
  · cases result with
    | none =>
      refine kept.books.keep (fun j inside => (kept.waits_takes takes evolves inside).1) (fun j waits alive => ?_)
        fun _ isOver => isOver
      exact waits_kept takes evolves waits (by simpa using alive) (by simp)
    | some i =>
      obtain ⟨tenant, member, alive, -⟩ := takes.taken i rfl
      refine kept.books.leave (x := i) (kept.waits member) (fun j inside => ?_) (fun j waits alive other => ?_)
        (fun _ isOver => isOver) (Or.inl ⟨rfl, by simp [alive]⟩)
      · obtain ⟨waits, other⟩ := kept.waits_takes takes evolves inside
        exact ⟨waits, fun same => other (by rw [same])⟩
      · exact waits_kept takes evolves waits (by simpa using alive) fun same => other (Option.some.inj same).symm

theorem cancelled (kept : s.Kept history) {requestId tenant : String} {now : Seconds} {i : ObjectId}
    {queue : WeightedFairRequestQueue} {objects : Objects}
    (run : s.queue.cancel s.objects requestId now = (.ok true, queue, objects)) (inside : i ∈ s.queue.queueOf tenant)
    (named : (s.objects i).requestId = requestId) :
    Kept ⟨queue, objects, s.deficits⟩ (.cancelled i :: history) := by
  obtain ⟨deficits, effect⟩ := s.queue.cancel_takes s.objects requestId now
  have evolves := s.queue.cancel_evolves s.objects requestId now
  have sound := kept.sound.cancel requestId now
  rw [run] at deficits effect evolves sound
  dsimp only at deficits effect evolves sound
  rcases effect with ⟨j, other, -, after, takes⟩ | ⟨failed, -, -⟩
  · obtain ⟨own, member, -, -⟩ := takes.taken j rfl
    have same : j = i := kept.unique (kept.waits member) (kept.waits inside) (other.trans named.symm)
    subst same
    have isOver : (objects j).terminal = true := by
      rw [after, Objects.put_self]
      rfl
    have others : ∀ k, k ≠ j → objects k = s.objects k := fun k differ => by rw [after, Objects.put_of_ne differ]
    refine ⟨sound, kept.named_takes takes evolves, kept.across_evolves evolves, fun tenant => ?_, ?_⟩
    · rw [kept.deficit]
      unfold deficitOf
      dsimp only
      rw [deficits]
    · refine kept.books.leave (x := j) (kept.waits inside) (fun k inside => ?_) (fun k waits alive differ => ?_)
        (fun k done => ?_) (Or.inr ⟨rfl, isOver⟩)
      · obtain ⟨waits, differ⟩ := kept.waits_takes takes evolves inside
        exact ⟨waits, fun same => differ (by rw [same])⟩
      · refine waits_kept takes evolves waits ?_ fun same => differ (Option.some.inj same).symm
        dsimp only at alive
        rw [others k differ] at alive
        simpa using alive
      · rcases eq_or_ne k j with rfl | differ
        · exact isOver
        · dsimp only
          rw [others k differ]
          exact done
  · exact absurd rfl failed

theorem uncancelled (kept : s.Kept history) {requestId : String} {now : Seconds} {result : Except Raised Bool}
    {queue : WeightedFairRequestQueue} {objects : Objects}
    (run : s.queue.cancel s.objects requestId now = (result, queue, objects)) (failed : result ≠ .ok true) :
    Kept ⟨queue, objects, s.deficits⟩ history := by
  obtain ⟨deficits, effect⟩ := s.queue.cancel_takes s.objects requestId now
  have evolves := s.queue.cancel_evolves s.objects requestId now
  have sound := kept.sound.cancel requestId now
  rw [run] at deficits effect evolves sound
  dsimp only at deficits effect evolves sound
  rcases effect with ⟨j, -, done, -⟩ | ⟨-, rfl, takes⟩
  · exact absurd done failed
  refine ⟨sound, kept.named_takes takes evolves, kept.across, fun tenant => ?_, ?_⟩
  · rw [kept.deficit]
    unfold deficitOf
    dsimp only
    rw [deficits]
  · refine kept.books.keep (fun j inside => (kept.waits_takes takes evolves inside).1) (fun j waits alive => ?_)
      fun _ isOver => isOver
    exact waits_kept takes evolves waits (by simpa using alive) (by simp)

theorem changed (kept : s.Kept history) {i : ObjectId} {target : RequestState} {now : Seconds} {r : RequestRecord}
    (run : (s.objects i).transition target now = .ok r) :
    Kept ⟨s.queue, s.objects.put i r, s.deficits⟩
      ((if r.terminal then some (WaitingEvent.ended i) else none).toList ++ history) := by
  rcases (s.objects i).transition_cases target now with ⟨allowed, entered⟩ | ⟨-, raised, refused, -⟩
  · cases run.symm.trans entered
    have evolves : ∀ j, (s.objects j).Evolves (s.objects.put i ((s.objects i).enter target now) j) :=
      .put (.enter (s.objects i) target now)
    -- A request that is over has no transition left.
    have later : ∀ j, (s.objects j).terminal = true →
        (s.objects.put i ((s.objects i).enter target now) j).terminal = true := by
      intro j isOver
      rcases eq_or_ne j i with rfl | differ
      · rw [RequestState.allowed_of_terminal isOver] at allowed
        cases allowed
      · rw [Objects.put_of_ne differ]
        exact isOver
    have books : WaitingBooks (Waits ⟨s.queue, s.objects.put i ((s.objects i).enter target now), s.deficits⟩)
        (fun j => (s.objects.put i ((s.objects i).enter target now) j).terminal = true) history := by
      refine kept.books.keep (fun j inside => ?_) (fun j inside _ => ?_) later
      · rw [Waits, (evolves j).tenantId] at inside
        exact inside
      · rw [Waits, (evolves j).tenantId]
        exact inside
    refine ⟨kept.sound.evolves evolves, kept.named_takes (.refl _ _) evolves, kept.across_evolves evolves, kept.deficit, ?_⟩
    split
    · rename_i isOver
      refine books.finish ?_
      rw [Objects.put_self]
      exact isOver
    · exact books
  · cases run.symm.trans refused

theorem step (kept : s.Kept history) (step : s.Step event s') : s'.Kept (event.toList ++ history) := by
  cases step with
  | enqueued run => exact kept.enqueued run
  | refused run => exact kept.refused run
  | popped run => exact kept.popped run
  | @popRaised clock raised queue run =>
    obtain ⟨_, queue', run', -⟩ := popLoop_induct (P := fun _ => True) (fun _ _ _ _ => trivial) kept.sound trivial
      clock s.queue.active.length
    cases run.symm.trans run'
  | cancelled run waits named => exact kept.cancelled run waits named
  | uncancelled run failed => exact kept.uncancelled run failed
  | changed run => exact kept.changed run

theorem start {tenants : List TenantLimits} {quantum : Int} {aging : Rat} {q : WeightedFairRequestQueue} {objects : Objects}
    (built : init tenants quantum aging = .ok q)
    (across : ∀ i j, (objects i).requestId = (objects j).requestId → (objects i).tenantId = (objects j).tenantId) :
    Kept ⟨q, objects, fun _ => 0⟩ [] := by
  have empty : ∀ tenant, q.queueOf tenant = [] := init_queueOf built
  refine ⟨init_sound built objects, fun tenant => ?_, across, fun tenant => ?_, .start fun i inside => ?_⟩
  · dsimp only
    rw [empty]
    exact List.nodup_nil
  · dsimp only
    rw [init_deficitOf built]
    rfl
  · rw [Waits, empty] at inside
    cases inside

end Kept

/-- In every run of a queue, from its creation, requests are conserved. -/
theorem Run.conserves {tenants : List TenantLimits} {quantum : Int} {aging : Rat} {q : WeightedFairRequestQueue}
    {objects : Objects} (built : init tenants quantum aging = .ok q)
    (across : ∀ i j, (objects i).requestId = (objects j).requestId → (objects i).tenantId = (objects j).tenantId)
    (run : Run ⟨q, objects, fun _ => 0⟩ s history) : s.Conserves history := by
  have kept : s.Kept history := by
    induction run with
    | start => exact .start built across
    | step before step ih => exact ih.step step
  exact kept.conserving

open PiledCredit in
/-- One request comes and goes. -/
theorem Run.conserves_served : ∃ s, Run ⟨PiledCredit.queue [] [] 0 [], PiledCredit.objects 0, fun _ => 0⟩ s [.returned 0, .enqueued 0] ∧
    s.Conserves [.returned 0, .enqueued 0] := by
  have across : ∀ i j, (PiledCredit.objects 0 i).requestId = (PiledCredit.objects 0 j).requestId →
      (PiledCredit.objects 0 i).tenantId = (PiledCredit.objects 0 j).tenantId := by
    intro i j same
    rcases eq_or_ne i j with rfl | differ
    · rfl
    · exact absurd same (objects_requestId_ne 0 differ)
  have first := @Step.enqueued ⟨PiledCredit.queue [] [] 0 [], PiledCredit.objects 0, fun _ => 0⟩ 0 0 _ _
    (@enqueue_next (PiledCredit.queue [] [] 0 []) 0 _ _ rfl rfl (by simp))
  have second := @Step.popped ⟨PiledCredit.queue [0] [] 0 ["cheap"], PiledCredit.objects 1, fun _ => 0⟩ (fun _ => 0) (some 0) _ rfl
  have run : Run ⟨PiledCredit.queue [] [] 0 [], PiledCredit.objects 0, fun _ => 0⟩ _ [.returned 0, .enqueued 0] :=
    .step (.step .start first) second
  exact ⟨_, run, Run.conserves PiledCredit.built across run⟩

end FairLedger

end ServingPlatform
