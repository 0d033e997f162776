import Mathlib.Data.List.Perm.Subperm
import ServingPlatform.RequestScheduler.Accounts
import ServingPlatform.RequestScheduler.ItemViews

namespace ServingPlatform

open Scheduling

namespace Place

/-- The requests that the task has taken and not yet started. -/
def pending : Place → List RequestRef
  | .loopHead deferred => deferred
  | .scanning _ c | .gathering _ c | .waiting _ c => c.requests ++ c.deferred.getD []
  | .selecting caller _ _ rest _ => rest ++ caller.deferred
  | .starting caller r => r :: caller.deferred
  | .generatingBatch caller .. | .finishing caller .. | .failing caller .. | .generatingOne caller _
  | .returning caller _ (.ok ()) => caller.deferred
  | .abandoning .. | .returning _ _ (.error _) | .gettingFirst | .ended _ => []

/-- The requests of the model call. -/
def started : Place → List RequestRef
  | .selecting _ _ _ _ active | .generatingBatch _ _ active | .finishing _ _ _ active _ _ => active
  | .failing _ _ _ rest | .abandoning _ _ rest => rest
  | .generatingOne _ r => [r]
  | _ => []

/-- The task was cancelled. -/
def Cut : Place → Prop
  | .abandoning .. | .returning _ _ (.error _) | .ended (.error _) => True
  | _ => False

theorem pool_mentioned {place : Place} {r : RequestRef} (inside : r ∈ place.pending ++ place.started) :
    r ∈ place.mentions := by
  cases place with
  | gettingFirst => cases inside
  | ended result => cases inside
  | returning caller queuedItems result =>
    cases result with
    | ok _ =>
      rw [List.mem_append] at inside
      exact inside.resolve_right List.not_mem_nil
    | error e => cases inside
  | _ =>
    simp only [pending, started, mentions, holds, List.mem_append, List.mem_cons, List.not_mem_nil, or_false] at inside ⊢
    tauto

end Place

namespace RequestView

/-- A request before it starts. -/
def Fresh (v : RequestView) : Prop := v.startedAt = 0 ∧ (v.status = .queued ∨ v.status = .cancelled)

/-- Nobody is told of a request that is not over, and no request is rejected once it started. -/
def Sane (v : RequestView) : Prop :=
  (v.future = .resolved → v.status.isTerminal = true) ∧ (v.status = .rejected → v.startedAt = 0)

theorem sane_ended {v : RequestView} {status : RequestStatus} (terminal : status.isTerminal = true)
    (started : status = .rejected → v.startedAt = 0) : (v.ended status).Sane := ⟨fun _ => terminal, started⟩

end RequestView

/-- The requests in the queue and in the task's hands. -/
def Scheduling.pool (s : Scheduling) (place : Place) : List RequestRef :=
  s.queue.items.filterMap id ++ (place.pending ++ place.started)

/-- The request still waits to be started. -/
def Scheduling.Waits (s : Scheduling) (place : Place) (r : RequestRef) : Prop := some r ∈ s.queue.items ∨ r ∈ place.pending

/-- No request is twice in the queue or in the task's hands, and the queue
counts what it holds and what the task has taken. The `fresh` requests are
those that had not been started before they were submitted. -/
structure Pooled (s : Scheduling) (fresh : List RequestRef) (place : Place) : Prop where
  nodup : (s.pool place).Nodup
  counted : ¬place.Cut → s.queue.unfinished = s.queue.items.length + place.owes
  ended : place = .ended (.ok ()) → s.queue.items = []
  waiting : ∀ r ∈ fresh, s.Waits place r → (s.view r).Fresh
  sane : ∀ r ∈ fresh, (s.view r).Sane

namespace Pooled

variable {settings : SchedulerSettings} {s s' : Scheduling} {accepted fresh : List RequestRef} {place place' : Place}
  {resumption : Resumption} {r : RequestRef}

theorem waits_mem_pool (waits : s.Waits place r) : r ∈ s.pool place := by
  rcases waits with queued | pending
  · exact List.mem_append_left _ (List.mem_filterMap.mpr ⟨some r, queued, rfl⟩)
  · exact List.mem_append_right _ (List.mem_append_left _ pending)

theorem started_mem_pool (started : r ∈ place.started) : r ∈ s.pool place :=
  List.mem_append_right _ (List.mem_append_right _ started)

/-- What runs does not wait. -/
theorem not_waits_of_started (p : Pooled s fresh place) (started : r ∈ place.started) : ¬s.Waits place r := by
  obtain ⟨-, hands, apart⟩ := List.nodup_append.mp p.nodup
  rintro (queued | pending)
  · exact apart r (List.mem_filterMap.mpr ⟨some r, queued, rfl⟩) r (List.mem_append_right _ started) rfl
  · exact (List.nodup_append.mp hands).2.2 r pending r started rfl

/-- Requests move between the queue and the task, or leave both. -/
theorem shift (p : Pooled s fresh place) (view : ∀ q, s'.view q = s.view q)
    (pool : (s'.pool place').Subperm (s.pool place)) (waits : ∀ q, s'.Waits place' q → s.Waits place q)
    (counted : ¬place'.Cut → s'.queue.unfinished = s'.queue.items.length + place'.owes)
    (ended : place' = .ended (.ok ()) → s'.queue.items = []) : Pooled s' fresh place' where
  nodup := by
    obtain ⟨l, perm, sublist⟩ := pool
    exact perm.nodup_iff.mp (p.nodup.sublist sublist)
  counted := counted
  ended := ended
  waiting q member inside := by
    rw [view]
    exact p.waiting q member (waits q inside)
  sane q member := by
    rw [view]
    exact p.sane q member

/-- What a step of the task does with what it has in its hands. -/
structure Hands (place place' : Place) : Prop where
  subperm : (place'.pending ++ place'.started).Subperm (place.pending ++ place.started)
  pending : ∀ q ∈ place'.pending, q ∈ place.pending
  owes : ¬place'.Cut → ¬place.Cut ∧ place'.owes = place.owes
  ended : place' ≠ .ended (.ok ())

theorem Hands.pool (hands : Hands place place') (queue : s'.queue = s.queue) :
    (s'.pool place').Subperm (s.pool place) := by
  unfold Scheduling.pool
  rw [queue]
  exact (List.subperm_append_left _).mpr hands.subperm

theorem Hands.waits (hands : Hands place place') (queue : s'.queue = s.queue) {q : RequestRef} (waits : s'.Waits place' q) :
    s.Waits place q := by
  unfold Scheduling.Waits at waits ⊢
  rw [queue] at waits
  exact waits.imp id (hands.pending q)

theorem Hands.counted (hands : Hands place place') (p : Pooled s fresh place) (queue : s'.queue = s.queue)
    (uncut : ¬place'.Cut) : s'.queue.unfinished = s'.queue.items.length + place'.owes := by
  obtain ⟨before, owes⟩ := hands.owes uncut
  rw [queue, owes]
  exact p.counted before

theorem moved (p : Pooled s fresh place) (view : ∀ q, s'.view q = s.view q) (queue : s'.queue = s.queue)
    (hands : Hands place place') : Pooled s' fresh place' :=
  p.shift view (hands.pool queue) (fun _ => hands.waits queue) (hands.counted p queue)
    fun same => absurd same hands.ended

/-- One request changes, which then waits no more. -/
theorem touched (p : Pooled s fresh place) (others : ∀ q, q ≠ r → s'.view q = s.view q) (queue : s'.queue = s.queue)
    (hands : Hands place place') (known : r ∈ place.pending ++ place.started) (gone : r ∉ place'.pending)
    (sane : r ∈ fresh → (s'.view r).Sane) : Pooled s' fresh place' where
  nodup := by
    obtain ⟨l, perm, sublist⟩ := hands.pool queue
    exact perm.nodup_iff.mp (p.nodup.sublist sublist)
  counted := hands.counted p queue
  ended same := absurd same hands.ended
  waiting q member inside := by
    have other : q ≠ r := by
      rintro rfl
      refine inside.elim (fun queued => ?_) gone
      rw [queue] at queued
      exact (List.nodup_append.mp p.nodup).2.2 q (List.mem_filterMap.mpr ⟨some q, queued, rfl⟩) q known rfl
    rw [others q other]
    exact p.waiting q member (hands.waits queue inside)
  sane q member := by
    by_cases same : q = r
    · rw [same]
      exact sane (same ▸ member)
    · rw [others q same]
      exact p.sane q member

theorem nodup_hands (p : Pooled s fresh place) : (place.pending ++ place.started).Nodup := (List.nodup_append.mp p.nodup).2.1

theorem nodup_pending (p : Pooled s fresh place) : place.pending.Nodup := (List.nodup_append.mp p.nodup_hands).1

/-- One by one, what the task has in its hands stays in order. -/
theorem Hands.of_perm (pending : place'.pending.Perm place.pending) (started : place'.started = place.started)
    (owes : ¬place'.Cut → ¬place.Cut ∧ place'.owes = place.owes) (ended : place' ≠ .ended (.ok ())) : Hands place place' where
  subperm := by
    rw [started]
    exact (pending.append_right _).subperm
  pending q inside := pending.subset inside
  owes := owes
  ended := ended

/-- The next pending request is dropped. -/
theorem Hands.drop (pending : place.pending.Perm (r :: place'.pending)) (started : place'.started = place.started)
    (owes : ¬place'.Cut → ¬place.Cut ∧ place'.owes = place.owes) (ended : place' ≠ .ended (.ok ())) : Hands place place' where
  subperm := by
    rw [started]
    exact ((List.sublist_cons_self r _).append_right _).subperm.trans (pending.symm.append_right _).subperm
  pending q inside := pending.symm.subset (List.mem_cons_of_mem _ inside)
  owes := owes
  ended := ended

theorem gone_of_drop (p : Pooled s fresh place) (pending : place.pending.Perm (r :: place'.pending)) :
    r ∈ place.pending ++ place.started ∧ r ∉ place'.pending := by
  have distinct := pending.nodup_iff.mp p.nodup_pending
  exact ⟨List.mem_append_left _ (pending.symm.subset List.mem_cons_self), (List.nodup_cons.mp distinct).1⟩

/-- The next pending request is over by the time it is looked at, or becomes so. -/
theorem dropped (p : Pooled s fresh place) (others : ∀ q, q ≠ r → s'.view q = s.view q) (queue : s'.queue = s.queue)
    (pending : place.pending.Perm (r :: place'.pending)) (started : place'.started = place.started)
    (owes : ¬place'.Cut → ¬place.Cut ∧ place'.owes = place.owes) (ended : place' ≠ .ended (.ok ()))
    (sane : r ∈ fresh → (s'.view r).Sane) : Pooled s' fresh place' :=
  p.touched others queue (.drop pending started owes ended) (p.gone_of_drop pending).1 (p.gone_of_drop pending).2 sane

theorem view_of_ne {v : RequestView} (changed : ∀ q, s'.view q = if q = r then v else s.view q) (q : RequestRef) (other : q ≠ r) :
    s'.view q = s.view q := by rw [changed, if_neg other]

theorem fresh_of_pending (p : Pooled s fresh place) (pending : r ∈ place.pending) (member : r ∈ fresh) : (s.view r).Fresh :=
  p.waiting r member (Or.inr pending)

section Steps

theorem beginCollection (p : Pooled s fresh place) {first : RequestRef} {fromQueue : Bool} {deferred : List RequestRef}
    (pending : place.pending = first :: deferred) (started : place.started = []) (uncut : ¬place.Cut)
    (owes : place.owes = (Caller.scheduler fromQueue deferred).owes) :
    Pooled (s.beginCollection settings first (some deferred)).2 fresh
      (.scanning (some fromQueue) (s.beginCollection settings first (some deferred)).1) := by
  refine p.moved (fun q => rfl) rfl (.of_perm ?_ started.symm (fun _ => ⟨uncut, ?_⟩) (by simp))
  · rw [pending]
    exact .refl _
  · rw [owes]
    exact Nat.zero_add _

theorem loopHead {deferred : List RequestRef} (p : Pooled s fresh (.loopHead deferred))
    (step : (Place.loopHead deferred).advance settings s resumption = some (place', s')) : Pooled s' fresh place' := by
  have uncut : ¬(Place.loopHead deferred).Cut := id
  cases resumption <;> cases deferred <;> try cases step
  · exact p.moved (fun q => rfl) rfl (.of_perm (.refl _) rfl (fun _ => ⟨uncut, rfl⟩) (by simp))
  rename_i first deferred
  simp only [Place.advance] at step
  split at step
  · cases step
    have order : (Place.loopHead (first :: deferred)).pending.Perm (first :: (Place.loopHead deferred).pending) := .refl _
    refine p.dropped (view_of_ne fun q => view_finish) queue_finish order rfl (fun _ => ⟨uncut, rfl⟩) (by simp)
      fun member => ?_
    rw [view_measure, view_finish, if_pos rfl]
    exact RequestView.sane_ended rfl fun _ => (p.fresh_of_pending List.mem_cons_self member).1
  split at step <;> cases step
  · exact p.beginCollection rfl rfl uncut rfl
  · exact p.moved (fun q => rfl) rfl (.of_perm (.refl _) rfl (fun _ => ⟨uncut, rfl⟩) (by simp))

/-- The queue delivers a request, which the task then has in its hands. -/
theorem taken (p : Pooled s fresh place) (next : s.get? = some (some r, s'))
    (hands : (place'.pending ++ place'.started).Perm (r :: (place.pending ++ place.started)))
    (pending : ∀ q ∈ place'.pending, q ∈ place.pending ∨ q = r)
    (owes : ¬place'.Cut → ¬place.Cut ∧ place'.owes = place.owes + 1) (ended : place' ≠ .ended (.ok ())) :
    Pooled s' fresh place' := by
  unfold Scheduling.get? at next
  cases items : s.queue.items with
  | nil =>
    rw [items] at next
    cases next
  | cons item rest =>
    rw [items] at next
    cases next
    refine p.shift (fun q => rfl) ?_ (fun q waits => ?_) (fun uncut => ?_) fun same => absurd same ended
    · unfold Scheduling.pool
      dsimp only
      rw [items, show (some r :: rest).filterMap id = r :: rest.filterMap id from rfl]
      exact ((hands.append_left _).trans List.perm_middle).subperm
    · rcases waits with queued | inside
      · exact Or.inl (items ▸ List.mem_cons_of_mem _ queued)
      · rcases pending q inside with before | rfl
        · exact Or.inr before
        · exact Or.inl (items ▸ List.mem_cons_self)
    · obtain ⟨before, owed⟩ := owes uncut
      have counted := p.counted before
      rw [items, List.length_cons] at counted
      dsimp only
      omega

theorem gettingFirst (a : Accounted s accepted .gettingFirst) (p : Pooled s fresh .gettingFirst)
    (step : Place.gettingFirst.advance settings s resumption = some (place', s')) : Pooled s' fresh place' := by
  cases resumption <;> try cases step
  simp only [Place.advance] at step
  cases next : s.get? with
  | none =>
    rw [next] at step
    cases step
  | some item =>
    obtain ⟨item, s₁⟩ := item
    rw [next] at step
    cases item with
    | none =>
      obtain ⟨-, rfl, signal⟩ := a.signalled next
      have counted := p.counted id
      rw [signal] at counted
      dsimp only at step
      rcases Scheduling.taskDone_cases { s with queue := { s.queue with items := [] } } with ⟨spent, -⟩ | ⟨n, left, done⟩
      · dsimp only at spent
        simp only [List.length_singleton, Place.owes] at counted
        omega
      · rw [done] at step
        cases step
        dsimp only at left
        simp only [List.length_singleton, Place.owes] at counted
        refine p.shift (fun q => rfl) (List.nil_subperm) (fun q waits => ?_) (fun _ => ?_) fun _ => rfl
        · rcases waits with queued | inside
          · cases queued
          · cases inside
        · simp only [List.length_nil, Place.owes]
          omega
    | some first =>
      have held : Pooled s₁ fresh (.starting (.scheduler true []) first) := by
        refine p.taken next (.refl _) (fun q inside => Or.inr ?_) (fun _ => ⟨id, rfl⟩) (by simp)
        simpa [Place.pending, Caller.deferred] using inside
      dsimp only at step
      split at step <;> cases step
      · exact held.beginCollection rfl rfl id rfl
      · exact held

/-- A request that is dropped has timed out, or had been cancelled before. -/
structure Drops (r : RequestRef) (s s' : Scheduling) : Prop where
  others : ∀ q, q ≠ r → s'.view q = s.view q
  queue : s'.queue = s.queue
  shape : ∀ q, s'.shape q = s.shape q
  sane : (s.view r).Sane → (s'.view r).Sane

theorem Drops.record : Drops r s (s.record r) :=
  ⟨fun q _ => view_record, rfl, fun q => shape_record, fun sane => by rw [view_record]; exact sane⟩

theorem Drops.finishTimeout : Drops r s (s.finishTimeout r) where
  others := view_of_ne fun q => view_finishTimeout
  queue := queue_finish
  shape q := shape_finishTimeout
  sane _ := by
    rw [view_finishTimeout, if_pos rfl]
    exact RequestView.sane_ended rfl fun impossible => by cases impossible

/-- What becomes of a candidate, and of the collection. -/
theorem consider_spec (settings : SchedulerSettings) (s : Scheduling) {c : Collecting} (candidate : RequestRef)
    (fromQueue : Bool) {deferred : List RequestRef} (held : c.deferred = some deferred) :
    (∃ c' s', (c' = c ∧ Drops candidate s s' ∨
        c' = { c with deferred := some (deferred ++ [candidate]) } ∧ s' = s.monotonic.2) ∧
      s.consider settings c candidate fromQueue =
        ((s'.itemDone fromQueue).1.map fun _ => (true, c'), (s'.itemDone fromQueue).2)) ∨
      (s.compatible candidate c.first = true ∧ c.total + s.cost candidate ≤ settings.maxTotalBatchTokens) ∧
      s.consider settings c candidate fromQueue =
        (.ok (true, { c with
          requests := c.requests ++ [candidate]
          total := c.total + s.cost candidate
          queuedItems := c.queuedItems + if fromQueue then 1 else 0 }), s.monotonic.2) := by
  have read : ∀ {t}, Drops candidate s.monotonic.2 t → Drops candidate s t := fun drops => ⟨drops.others, drops.queue, drops.shape, drops.sane⟩
  unfold consider
  dsimp only
  split
  · exact Or.inl ⟨c, _, Or.inl ⟨rfl, read .finishTimeout⟩, rfl⟩
  split
  · exact Or.inl ⟨c, _, Or.inl ⟨rfl, read .record⟩, rfl⟩
  split
  · rename_i fits
    exact Or.inr ⟨⟨fits.1, fits.2⟩, rfl⟩
  · rw [held]
    exact Or.inl ⟨_, _, Or.inr ⟨rfl, rfl⟩, rfl⟩

theorem scanning {fromQueue : Option Bool} {c : Collecting} (a : Accounted s accepted (.scanning fromQueue c))
    (p : Pooled s fresh (.scanning fromQueue c))
    (step : (Place.scanning fromQueue c).advance settings s resumption = some (place', s')) : Pooled s' fresh place' := by
  cases resumption <;> try cases step
  obtain ⟨⟨b, rfl⟩, deferred, held, scan⟩ := a.sound
  have uncut : ¬(Place.scanning (some b) c).Cut := id
  simp only [Place.advance] at step
  split at step
  · rename_i more
    cases deferred with
    | nil => exact absurd (Nat.le_zero.mp scan) more.2
    | cons candidate rest =>
      have pending : (Place.scanning (some b) c).pending = c.requests ++ candidate :: rest := by
        simp only [Place.pending, held, Option.getD_some]
      rw [held] at step
      dsimp only at step
      have cases_ := consider_spec settings s candidate false
        (show ({ c with deferred := some rest, toScan := c.toScan - 1 } : Collecting).deferred = some rest from rfl)
      rcases cases_ with ⟨c', s₁, ⟨rfl, drops⟩ | ⟨rfl, rfl⟩, run⟩ | ⟨-, run⟩ <;> (rw [run] at step; cases step)
      · refine p.dropped (r := candidate) drops.others drops.queue ?_ rfl (fun _ => ⟨uncut, rfl⟩) (by simp)
          fun member => drops.sane (p.sane candidate member)
        rw [pending]
        exact List.perm_middle
      · refine p.moved (fun q => rfl) rfl (.of_perm ?_ rfl (fun _ => ⟨uncut, rfl⟩) (by simp))
        rw [pending]
        exact (List.perm_append_singleton _ _).append_left _
      · refine p.moved (fun q => rfl) rfl (.of_perm ?_ rfl (fun _ => ⟨uncut, rfl⟩) (by simp))
        rw [pending]
        simp only [Place.pending, Option.getD_some, List.append_assoc, List.singleton_append]
        exact .refl _
  · cases step
    exact p.moved (fun q => rfl) rfl (.of_perm (.refl _) rfl (fun _ => ⟨uncut, rfl⟩) (by simp))

theorem endCollection {c : Collecting} {b : Bool} {deferred : List RequestRef} (p : Pooled s fresh place)
    (held : c.deferred = some deferred) (pending : place.pending = c.requests ++ deferred) (started : place.started = [])
    (uncut : ¬place.Cut) (owes : place.owes = c.queuedItems + b.toNat) :
    Pooled (s.endCollection (some b) c).2 fresh (s.endCollection (some b) c).1 := by
  have queue : (s.endCollection (some b) c).2.queue = s.queue :=
    ((Calm.monotonic.trans .setCollection).trans .monotonic : Calm s (s.endCollection (some b) c).2).queue
  refine p.moved (fun q => view_endCollection) queue (.of_perm ?_ started.symm (fun _ => ⟨uncut, owes.symm⟩) (by simp [Scheduling.endCollection]))
  rw [pending]
  simp only [Scheduling.endCollection, Caller.ofCollection, Place.pending, Caller.deferred, held, Option.getD_some]
  exact .refl _

theorem gathering {fromQueue : Option Bool} {c : Collecting} (a : Accounted s accepted (.gathering fromQueue c))
    (p : Pooled s fresh (.gathering fromQueue c))
    (step : (Place.gathering fromQueue c).advance settings s resumption = some (place', s')) : Pooled s' fresh place' := by
  cases resumption <;> try cases step
  obtain ⟨⟨b, rfl⟩, deferred, held⟩ := a.sound
  have uncut : ¬(Place.gathering (some b) c).Cut := id
  have pending : (Place.gathering (some b) c).pending = c.requests ++ deferred := by simp [Place.pending, held]
  have read : Pooled s.monotonic.2 fresh (.gathering (some b) c) :=
    p.moved (fun q => rfl) rfl (.of_perm (.refl _) rfl (fun _ => ⟨uncut, rfl⟩) (by simp))
  simp only [Place.advance] at step
  split at step
  · split at step
    · obtain rfl := congrArg Prod.fst (Option.some.inj step)
      obtain rfl := congrArg Prod.snd (Option.some.inj step)
      exact read.endCollection held pending rfl uncut rfl
    · cases step
      exact read.moved (fun q => rfl) rfl (.of_perm (.refl _) rfl (fun _ => ⟨uncut, rfl⟩) (by simp))
  · obtain rfl := congrArg Prod.fst (Option.some.inj step)
    obtain rfl := congrArg Prod.snd (Option.some.inj step)
    exact p.endCollection held pending rfl uncut rfl

/-- `queue.task_done()` for one item that is owed. -/
theorem taskDone (p : Pooled s fresh place) (uncut : ¬place.Cut) (owed : place'.owes + 1 = place.owes)
    (pending : place'.pending = place.pending) (started : place'.started = place.started) (ended : place' ≠ .ended (.ok ())) :
    ∃ s', s.taskDone = (.ok (), s') ∧ Pooled s' fresh place' := by
  have counted := p.counted uncut
  rcases s.taskDone_cases with ⟨spent, e, done⟩ | ⟨n, left, done⟩
  · omega
  refine ⟨_, done, p.shift (fun q => rfl) ?_ (fun q waits => ?_) (fun _ => ?_) fun same => absurd same ended⟩
  · unfold Scheduling.pool
    rw [pending, started]
  · unfold Scheduling.Waits at waits ⊢
    rw [pending] at waits
    exact waits
  · dsimp only
    omega

/-- A collected stop signal is put back. -/
theorem putBack (a : Accounted s accepted place) (p : Pooled s fresh place) (uncut : ¬place.Cut)
    (going : place ≠ .ended (.ok ())) (next : s.get? = some (none, s')) :
    ∃ s₁ s₂, s'.taskDone = (.ok (), s₁) ∧ s₁.putNowait none = (.ok (), s₂) ∧ Pooled s₂ fresh place := by
  obtain ⟨-, rfl, signal⟩ := a.signalled next
  have counted := p.counted uncut
  rw [signal, List.length_singleton] at counted
  rcases Scheduling.taskDone_cases { s with queue := { s.queue with items := [] } } with ⟨spent, e, done⟩ | ⟨n, left, done⟩
  · dsimp only at spent
    omega
  dsimp only at left
  rcases Scheduling.putNowait_cases { s with queue := ⟨[], s.queue.maxsize, n⟩ } none with ⟨full, -⟩ | ⟨-, put⟩
  · exfalso
    simp only [AsyncQueue.full, List.length_nil, Bool.and_eq_true, decide_eq_true_eq] at full
    omega
  refine ⟨_, _, done, put, p.shift (fun q => rfl) ?_ (fun q waits => ?_) (fun _ => ?_) fun same => absurd same going⟩
  · unfold Scheduling.pool
    rw [signal]
    exact .refl _
  · unfold Scheduling.Waits at waits ⊢
    rw [signal]
    exact waits
  · simp only [List.nil_append, List.length_singleton]
    omega

theorem awaiting {fromQueue : Option Bool} {c : Collecting} (a : Accounted s accepted (.waiting fromQueue c)) (p : Pooled s fresh (.waiting fromQueue c))
    (step : (Place.waiting fromQueue c).advance settings s resumption = some (place', s')) : Pooled s' fresh place' := by
  obtain ⟨⟨b, rfl⟩, deferred, held⟩ := a.sound
  have uncut : ¬(Place.waiting (some b) c).Cut := id
  have pending : (Place.waiting (some b) c).pending = c.requests ++ deferred := by simp [Place.pending, held]
  cases resumption with
  | timeout =>
    simp only [Place.advance] at step
    obtain rfl := congrArg Prod.fst (Option.some.inj step)
    obtain rfl := congrArg Prod.snd (Option.some.inj step)
    exact p.endCollection held pending rfl uncut rfl
  | results results => cases step
  | result result => cases step
  | raises message => cases step
  | proceed =>
    simp only [Place.advance] at step
    cases next : s.get? with
    | none =>
      rw [next] at step
      cases step
    | some item =>
      obtain ⟨item, s₁⟩ := item
      rw [next] at step
      cases item with
      | none =>
        obtain ⟨s₂, s₃, done, put, back⟩ := p.putBack a uncut (by simp) next
        dsimp only at step
        rw [done] at step
        dsimp only at step
        rw [put] at step
        obtain rfl := congrArg Prod.fst (Option.some.inj step)
        obtain rfl := congrArg Prod.snd (Option.some.inj step)
        exact back.endCollection held pending rfl uncut rfl
      | some candidate =>
        dsimp only at step
        -- The candidate counts as collected until it is known what becomes of it.
        have joined : Pooled s₁ fresh (.gathering (some b)
            { c with requests := c.requests ++ [candidate], queuedItems := c.queuedItems + 1 }) := by
          refine p.taken next ?_ (fun q inside => ?_) (fun _ => ⟨uncut, ?_⟩) (by simp)
          · rw [pending]
            simp only [Place.pending, Place.started, held, Option.getD_some, List.append_nil, List.append_assoc,
              List.singleton_append]
            exact List.perm_middle
          · rw [pending]
            simp only [Place.pending, held, Option.getD_some, List.mem_append, List.mem_singleton] at inside ⊢
            tauto
          · simp only [Place.owes, Caller.ofCollection, Caller.owes]
            omega
        have uncut' : ¬(Place.gathering (some b)
            { c with requests := c.requests ++ [candidate], queuedItems := c.queuedItems + 1 }).Cut := id
        rcases consider_spec settings s₁ candidate true held with ⟨c', s₂, outcome, run⟩ | ⟨-, run⟩
        · -- It is over or deferred, and leaves the queue's books.
          have owed : Pooled s₂ fresh (.gathering (some b) { c' with queuedItems := c'.queuedItems + 1 }) := by
            rcases outcome with ⟨rfl, drops⟩ | ⟨rfl, rfl⟩
            · refine joined.dropped drops.others drops.queue ?_ rfl (fun _ => ⟨uncut', rfl⟩) (by simp)
                fun member => drops.sane (joined.sane candidate member)
              simp only [Place.pending, List.append_assoc, List.singleton_append]
              exact List.perm_middle
            · refine joined.moved (fun q => rfl) rfl (.of_perm ?_ rfl (fun _ => ⟨uncut', rfl⟩) (by simp))
              simp only [Place.pending, held, Option.getD_some, List.append_assoc, List.singleton_append]
              exact (List.perm_append_singleton _ _).append_left _
          have left : ∃ s₃, s₂.taskDone = (.ok (), s₃) ∧ Pooled s₃ fresh (.gathering (some b) c') := by
            refine owed.taskDone id ?_ rfl rfl (by simp)
            simp only [Place.owes, Caller.ofCollection, Caller.owes]
            omega
          obtain ⟨s₃, done, after⟩ := left
          rw [run, itemDone, if_pos rfl, done] at step
          cases step
          exact after
        · rw [run] at step
          cases step
          exact joined.moved (fun q => rfl) rfl (.of_perm (.refl _) rfl (fun _ => ⟨uncut', rfl⟩) (by simp))

theorem selecting {caller : Caller} {queuedItems : Nat} {now : Seconds} {rest active : List RequestRef}
    (p : Pooled s fresh (.selecting caller queuedItems now rest active))
    (step : (Place.selecting caller queuedItems now rest active).advance settings s resumption = some (place', s')) :
    Pooled s' fresh place' := by
  have uncut : ¬(Place.selecting caller queuedItems now rest active).Cut := id
  obtain rfl : resumption = .proceed := by
    cases resumption <;> first | rfl | (cases rest <;> cases active <;> cases step)
  cases rest with
  | nil =>
    cases active with
    | nil =>
      cases step
      exact p.moved (fun q => rfl) rfl (.of_perm (.refl _) rfl (fun _ => ⟨uncut, rfl⟩) (by simp))
    | cons first active =>
      cases step
      have queue : (s.setBatchSize (first :: active).length (first :: active)).queue = s.queue :=
        (Calm.setBatchSize : Calm s (s.setBatchSize (first :: active).length (first :: active))).queue
      refine p.moved (fun q => ?_) queue (.of_perm (.refl _) rfl (fun _ => ⟨uncut, rfl⟩) (by simp))
      rw [view_measure, view_measure, view_setBatchSize]
  | cons r rest =>
    simp only [Place.advance] at step
    have drop : ∀ {t}, Drops r s t → Pooled t fresh (.selecting caller queuedItems now rest active) := fun drops =>
      p.dropped drops.others drops.queue (.refl _) rfl (fun _ => ⟨uncut, rfl⟩) (by simp)
        fun member => drops.sane (p.sane r member)
    split at step
    · cases step
      exact drop .record
    split at step <;> cases step
    · have drops : Drops r s.monotonic.2 (s.monotonic.2.finishTimeout r) := .finishTimeout
      exact drop ⟨drops.others, drops.queue, drops.shape, drops.sane⟩
    · rename_i alive _
      have changed : ∀ q, ((s.timedOut r settings.requestTimeout).2.set r
          { (s.timedOut r settings.requestTimeout).2.requests r with
            status := .running, startedAt := now, batchSize := 0 }).view q =
          if q = r then ⟨.running, now, (s.view r).future⟩ else s.view q := fun q => view_set
      have pending : (Place.selecting caller queuedItems now (r :: rest) active).pending = r :: (rest ++ caller.deferred) := rfl
      have distinct := p.nodup_pending
      rw [pending] at distinct
      refine p.touched (r := r) (view_of_ne changed) rfl ⟨?_, fun q inside => ?_, fun _ => ⟨uncut, rfl⟩, by simp⟩
        (List.mem_append_left _ List.mem_cons_self) (List.nodup_cons.mp distinct).1 fun member => ?_
      · have moved : ((rest ++ caller.deferred) ++ (active ++ [r])).Perm (r :: ((rest ++ caller.deferred) ++ active)) := by
          rw [← List.append_assoc]
          exact List.perm_append_singleton _ _
        exact moved.subperm
      · exact List.mem_cons_of_mem _ inside
      · -- A request that is not over has nobody told of it.
        have waited := p.fresh_of_pending (r := r) List.mem_cons_self member
        have queued : (s.view r).status = .queued := waited.2.resolve_right alive
        rw [changed, if_pos rfl]
        refine ⟨fun told => ?_, fun impossible => by cases impossible⟩
        have isOver := (p.sane r member).1 told
        rw [queued] at isOver
        cases isOver

end Steps

end Pooled

end ServingPlatform
