import ServingPlatform.ControlPlane.RecoveryOutcomes
import ServingPlatform.ControlPlane.Reservations

namespace ServingPlatform

theorem mem_sortedKeys {ν : Type} {d : Dict String ν} {k : String} : k ∈ sortedKeys d ↔ k ∈ d.keys :=
  (List.perm_insertionSort _ d.keys).mem_iff

theorem nodup_sortedKeys {ν : Type} (d : Dict String ν) : (sortedKeys d).Nodup :=
  (List.perm_insertionSort _ d.keys).nodup_iff.mpr d.nodup

theorem WeightedFairRequestQueue.occurrences_congr_of_mem {q : WeightedFairRequestQueue} {objects objects' : Objects}
    (same : ∀ tenant, ∀ i ∈ q.queueOf tenant, objects' i = objects i) (requestId : String) :
    q.occurrences objects' requestId = q.occurrences objects requestId := by
  unfold occurrences
  congr 1
  refine List.map_congr_left fun queue member => ?_
  obtain ⟨tenant, found⟩ := Dict.mem_values_iff.mp member
  refine List.countP_congr fun i inside => ?_
  rw [same tenant i (by unfold WeightedFairRequestQueue.queueOf; rw [found]; exact inside)]

namespace Plane

variable {inputs : RecoveryReadings} {maxAttempts : Int} {p p' p'' : Plane} {r : RequestRecord}
  {store : RequestStore} {workerId requestId other : String}

/-- A record that a worker takes with it when it is lost. -/
def LostWith (workerId : String) (r : RequestRecord) : Prop :=
  r.assignedWorkerId = some workerId ∧ r.terminal = false

theorem recoverRequest_untouched (listed : Listed inputs p requestId r) (kept : ¬LostWith workerId r) :
    recoverRequest inputs workerId maxAttempts requestId p = (.ok .untouched, p) := by
  have untouched : r.assignedWorkerId ≠ some workerId ∨ r.terminal = true := by
    unfold LostWith at kept
    rw [not_and_or, Bool.not_eq_false] at kept
    exact kept
  unfold recoverRequest
  rw [Attempt.bind_ok current_run, listed.copied, if_pos untouched]
  rfl

/-- One step of the loop: the request is settled exactly if it was recoverable, and no other is touched. -/
theorem recoverRequest_cases (listed : Listed inputs p requestId r) :
    (∃ raised p', recoverRequest inputs workerId maxAttempts requestId p = (.error raised, p') ∧
      LostWith workerId r ∧ ¬r.Recoverable inputs maxAttempts p) ∨
    ∃ outcome p', recoverRequest inputs workerId maxAttempts requestId p = (.ok outcome, p') ∧
      Apart inputs requestId p p' ∧
      (LostWith workerId r → (p'.Settled requestId ↔ r.Recoverable inputs maxAttempts p)) := by
  by_cases lost : LostWith workerId r
  · rcases recoverRequest_lost listed lost.1 lost.2 with
      ⟨raised, p', run, refused, -⟩ | ⟨outcome, p', run, apart, settled⟩
    · exact Or.inl ⟨raised, p', run, lost, refused⟩
    · exact Or.inr ⟨outcome, p', run, apart, fun _ => settled⟩
  · exact Or.inr ⟨_, p, recoverRequest_untouched listed lost, .refl p, fun other => absurd other lost⟩

theorem Listed.apart (listed : Listed inputs p other r) (apart : Apart inputs requestId p p')
    (differ : other ≠ requestId) (copies : inputs.copies other ≠ inputs.copies requestId) :
    Listed inputs p' other r :=
  ⟨(apart.stored other differ).trans listed.stored, (apart.objects _ copies).trans listed.copied⟩

theorem Listed.apart_rest {requestIds : List String} (fresh : requestId ∉ requestIds)
    (injective : ∀ a ∈ requestId :: requestIds, ∀ b ∈ requestId :: requestIds, inputs.copies a = inputs.copies b → a = b)
    (listed : ∀ other ∈ requestId :: requestIds, ∃ r, Listed inputs p other r) (apart : Apart inputs requestId p p') :
    ∀ other ∈ requestIds, ∃ r, Listed inputs p' other r := by
  intro other member
  have differ : other ≠ requestId := fun same => fresh (same ▸ member)
  obtain ⟨r', found'⟩ := listed other (List.mem_cons_of_mem _ member)
  refine ⟨r', found'.apart apart differ fun same => differ ?_⟩
  exact injective other (List.mem_cons_of_mem _ member) requestId List.mem_cons_self same

/-- The loop over a listing: it raises at a request that was lost and cannot be
settled, or it settles the lost requests that were recoverable. -/
theorem recoverAll_cases (counts : RecoveryCounts) (requestIds : List String) (distinct : requestIds.Nodup)
    (injective : ∀ a ∈ requestIds, ∀ b ∈ requestIds, inputs.copies a = inputs.copies b → a = b)
    (listed : ∀ requestId ∈ requestIds, ∃ r, Listed inputs p requestId r) :
    (∃ raised p', recoverAll inputs workerId maxAttempts counts requestIds p = (.error raised, p') ∧
      ∃ requestId ∈ requestIds, ∃ r, p.stored requestId = some r ∧ LostWith workerId r ∧
        ¬r.Recoverable inputs maxAttempts p) ∨
    ∃ counts' p', recoverAll inputs workerId maxAttempts counts requestIds p = (.ok counts', p') ∧
      (∀ other, other ∉ requestIds → (p'.Settled other ↔ p.Settled other)) ∧
      ∀ requestId ∈ requestIds, ∀ r, p.stored requestId = some r → LostWith workerId r →
        (p'.Settled requestId ↔ r.Recoverable inputs maxAttempts p) := by
  induction requestIds generalizing counts p with
  | nil => exact Or.inr ⟨counts, p, rfl, fun _ _ => Iff.rfl, fun _ member => absurd member List.not_mem_nil⟩
  | cons first rest induct =>
    obtain ⟨fresh, distinct⟩ := List.nodup_cons.mp distinct
    obtain ⟨r, found⟩ := listed first List.mem_cons_self
    have differs : ∀ other ∈ rest, other ≠ first := fun other member same => fresh (same ▸ member)
    unfold recoverAll
    rcases recoverRequest_cases found with
      ⟨raised, p', run, lost, refused⟩ | ⟨outcome, p', run, apart, settled⟩
    · rw [Attempt.bind_error run]
      exact Or.inl ⟨raised, p', rfl, first, List.mem_cons_self, r, found.stored, lost, refused⟩
    rw [Attempt.bind_ok run]
    have remaining := Listed.apart_rest fresh injective listed apart
    -- what the first step did to its own request does not change what the others need
    have unchanged : ∀ other ∈ rest, ∀ r', p.stored other = some r' →
        (r'.Recoverable inputs maxAttempts p' ↔ r'.Recoverable inputs maxAttempts p) := by
      intro other member r' found'
      obtain ⟨store, held, shown⟩ := Option.bind_eq_some_iff.mp found'
      have named : r'.requestId = other := store.keyed other r' shown
      exact recoverable_congr (apart.waiting _ (named ▸ differs other member)) (apart.serves _)
    rcases induct (counts.count outcome) distinct
        (fun a inA b inB => injective a (List.mem_cons_of_mem _ inA) b (List.mem_cons_of_mem _ inB)) remaining with
      ⟨raised, p'', run', other, member, r', found', lost, refused⟩ | ⟨counts', p'', run', frame, settles⟩
    · rw [apart.stored other (differs other member)] at found'
      exact Or.inl ⟨raised, p'', run', other, List.mem_cons_of_mem _ member, r', found', lost,
        fun fine => refused ((unchanged other member r' found').mpr fine)⟩
    · refine Or.inr ⟨counts', p'', run', fun other outside => ?_, fun other member r' found' lost => ?_⟩
      · obtain ⟨differ, outside⟩ := not_or.mp (mt List.mem_cons.mpr outside)
        exact (frame other outside).trans (settled_congr (apart.stored other differ) (apart.waiting other differ))
      · rcases List.mem_cons.mp member with rfl | member
        · cases found.stored.symm.trans found'
          exact (frame other fresh).trans (settled lost)
        · rw [settles other member r' ((apart.stored other (differs other member)).trans found') lost]
          exact unchanged other member r' found'

theorem copyAll_of_forall_ne {copies : String → ObjectId} {j : ObjectId} (requestIds : List String)
    (objects : Objects) (apart : ∀ requestId ∈ requestIds, copies requestId ≠ j) :
    copyAll store copies requestIds objects j = objects j := by
  induction requestIds generalizing objects with
  | nil => rfl
  | cons first rest induct =>
    have differ : j ≠ copies first := Ne.symm (apart first List.mem_cons_self)
    unfold copyAll at induct ⊢
    rw [List.foldl_cons, induct _ fun other member => apart other (List.mem_cons_of_mem _ member)]
    cases store.get? first with
    | none => rfl
    | some r => exact Objects.put_of_ne differ

theorem copyAll_found {copies : String → ObjectId} (requestIds : List String) (objects : Objects)
    (injective : ∀ a ∈ requestIds, ∀ b ∈ requestIds, copies a = copies b → a = b) (distinct : requestIds.Nodup)
    (member : requestId ∈ requestIds) (found : store.get? requestId = some r) :
    copyAll store copies requestIds objects (copies requestId) = r := by
  induction requestIds generalizing objects with
  | nil => cases member
  | cons first rest induct =>
    obtain ⟨fresh, distinct⟩ := List.nodup_cons.mp distinct
    rcases List.mem_cons.mp member with rfl | inside
    · have apart : ∀ other ∈ rest, copies other ≠ copies requestId := by
        intro other inside same
        exact fresh (injective other (List.mem_cons_of_mem _ inside) requestId List.mem_cons_self same ▸ inside)
      have kept := @copyAll_of_forall_ne store _ _ rest (objects.put (copies requestId) r) apart
      unfold copyAll at kept ⊢
      rw [List.foldl_cons, found]
      dsimp only
      rw [kept, Objects.put_self]
    · have rest_injective := fun a inA b inB =>
        injective a (List.mem_cons_of_mem _ inA) b (List.mem_cons_of_mem _ inB)
      unfold copyAll at induct ⊢
      rw [List.foldl_cons]
      exact induct _ rest_injective distinct inside

/-- The listing of a recovery: each stored request has its own copy. -/
theorem listing_facts (inputs : RecoveryInputs p) (workerId : String) (held : p.store = some store) :
    (∀ a ∈ sortedKeys store.requests, ∀ b ∈ sortedKeys store.requests, inputs.copies a = inputs.copies b → a = b) ∧
      (∀ requestId, (p.listed inputs.toRecoveryReadings workerId store).stored requestId = store.get? requestId) ∧
      (∀ requestId r, store.get? requestId = some r → requestId ∈ sortedKeys store.requests) ∧
      ∀ requestId ∈ sortedKeys store.requests, ∃ r,
        Listed inputs.toRecoveryReadings (p.listed inputs.toRecoveryReadings workerId store) requestId r := by
  have contained : ∀ requestId, requestId ∈ sortedKeys store.requests ↔ store.contains requestId = true := fun _ =>
    mem_sortedKeys.trans Dict.contains_iff.symm
  have injective : ∀ a ∈ sortedKeys store.requests, ∀ b ∈ sortedKeys store.requests,
      inputs.copies a = inputs.copies b → a = b := fun a inA b inB =>
    inputs.distinct store held a b ((contained a).mp inA) ((contained b).mp inB)
  have stored : ∀ requestId, (p.listed inputs.toRecoveryReadings workerId store).stored requestId =
      store.get? requestId := by
    intro requestId
    unfold Plane.stored listed
    rw [held, Option.bind_some]
  refine ⟨injective, stored, fun requestId r found => ?_, fun requestId member => ?_⟩
  · exact (contained requestId).mpr (RequestStore.contains_iff.mpr ⟨r, found⟩)
  · obtain ⟨r, found⟩ := RequestStore.contains_iff.mp ((contained requestId).mp member)
    exact ⟨r, (stored requestId).trans found, copyAll_found _ _ injective (nodup_sortedKeys _) member found⟩

/-- `recover_failed_worker` returns with every request of the lost worker settled
exactly when each of them could be settled: the first that could not ends the loop,
and one that is queued already is queued again. -/
theorem recoverFailedWorker_settles_iff (inputs : RecoveryInputs p) (workerId : String) (positive : 0 < maxAttempts)
    (held : p.store = some store) :
    ((∃ counts, (recoverFailedWorker inputs.toRecoveryReadings workerId maxAttempts p).1 = .ok counts) ∧
        ∀ requestId r, store.get? requestId = some r → LostWith workerId r →
          (recoverFailedWorker inputs.toRecoveryReadings workerId maxAttempts p).2.Settled requestId) ↔
      ∀ requestId r, store.get? requestId = some r → LostWith workerId r →
        r.Recoverable inputs.toRecoveryReadings maxAttempts p := by
  obtain ⟨injective, stored, member, listing⟩ := listing_facts inputs workerId held
  have waits : ∀ requestId, (p.listed inputs.toRecoveryReadings workerId store).waiting requestId =
      p.waiting requestId := by
    intro requestId
    unfold Plane.waiting listed
    cases queue : p.globalQueue with
    | none => rfl
    | some q =>
      rw [Option.map_some, Option.map_some]
      refine congrArg some (WeightedFairRequestQueue.occurrences_congr_of_mem ?_ requestId)
      exact fun tenant i inside => copyAll_of_forall_ne _ _ fun other _ => inputs.new q queue tenant i inside other
  have same : ∀ r : RequestRecord, r.Recoverable inputs.toRecoveryReadings maxAttempts
      (p.listed inputs.toRecoveryReadings workerId store) ↔ r.Recoverable inputs.toRecoveryReadings maxAttempts p :=
    fun r => recoverable_congr (waits _) rfl
  unfold recoverFailedWorker
  rw [if_neg (by omega), held]
  dsimp only
  rcases recoverAll_cases ⟨0, 0, 0⟩ _ (nodup_sortedKeys _)
    injective listing with
    ⟨raised, p', run, requestId, -, r, found, lost, refused⟩ | ⟨counts, p', run, -, settles⟩
  · rw [run]
    refine ⟨?_, fun fine => ?_⟩
    · rintro ⟨⟨counts, ok⟩, -⟩
      cases ok
    · rw [stored] at found
      exact absurd ((same r).mpr (fine requestId r found lost)) refused
  · rw [run]
    have settled : ∀ requestId r, store.get? requestId = some r → LostWith workerId r →
        (p'.Settled requestId ↔ r.Recoverable inputs.toRecoveryReadings maxAttempts p) := by
      intro requestId r found lost
      rw [settles requestId (member requestId r found) r ((stored requestId).trans found) lost]
      exact same r
    constructor
    · rintro ⟨-, all⟩ requestId r found lost
      exact (settled requestId r found lost).mp (all requestId r found lost)
    · intro fine
      exact ⟨⟨counts, rfl⟩, fun requestId r found lost =>
        (settled requestId r found lost).mpr (fine requestId r found lost)⟩

namespace Lost

/-- A request that its worker took, under a request id. -/
def assigned (requestId : String) (named : requestId ≠ "") : RequestRecord :=
  { Rejected.request.assignedTo "worker" 1 with
    requestId := requestId
    identified := ⟨named, by decide, by decide⟩ }

def stored : RequestStore :=
  (RequestStore.empty.insert (assigned "first" (by decide))).insert (assigned "second" (by decide))

/-- The first of two stored requests went back to the global queue after a
rejected handoff, which the store does not show. -/
def plane : Plane :=
  { Rejected.plane stored [] with
    objects := fun _ => ((assigned "first" (by decide)).assign none).enter .queued 1
    globalQueue := some { Rejected.globalQueue with queues := ⟨[("tenant", [0])], by decide⟩, active := ["tenant"] } }

def readings : RecoveryReadings where
  copies := fun requestId => if requestId = "first" then 1 else 2
  checkedAt := fun _ => 2
  decidedAt := fun _ => 2
  changedAt := fun _ => 2

/-- Only object 0 waits in the queue; the copies are objects 1 and 2. -/
def recovery : RecoveryInputs plane :=
  { readings with
    distinct := by
      intro store held a b inA inB same
      cases held
      have first : a ∈ ["first", "second"] := Dict.contains_iff.mp inA
      have second : b ∈ ["first", "second"] := Dict.contains_iff.mp inB
      rw [List.mem_pair] at first second
      rcases first with rfl | rfl <;> rcases second with rfl | rfl <;> first | rfl | cases same
    new := by
      intro q held tenant i inside requestId same
      cases held
      obtain ⟨queue, entry, member⟩ := WeightedFairRequestQueue.queueOf_entry inside
      cases List.mem_singleton.mp entry
      rw [List.mem_singleton.mp member] at same
      unfold readings at same
      dsimp only at same
      split at same <;> cases same }

end Lost

/-- A stored request that is queued already ends the recovery: it raises, and the
next request of the lost worker stays assigned to it. -/
theorem duplicate_ends_recovery : ∃ raised r,
    (recoverFailedWorker Lost.recovery.toRecoveryReadings "worker" 3 Lost.plane).1 = .error raised ∧
      Lost.plane.stored "second" = some r ∧ LostWith "worker" r ∧
      ¬(recoverFailedWorker Lost.recovery.toRecoveryReadings "worker" 3 Lost.plane).2.Settled "second" := by
  refine ⟨_, Lost.assigned "second" (by decide), rfl, rfl, ⟨rfl, rfl⟩, ?_⟩
  rintro ⟨store, r, held, found, rest⟩
  have shown : (recoverFailedWorker Lost.recovery.toRecoveryReadings "worker" 3 Lost.plane).2.store.map (fun store =>
      (store.get? "second").map RequestRecord.status) = some (some .assigned) := rfl
  rw [held, Option.map_some, found, Option.map_some] at shown
  have status : r.status = .assigned := Option.some.inj (Option.some.inj shown)
  rcases rest with isOver | ⟨queued, -⟩
  · unfold RequestRecord.terminal at isOver
    rw [status] at isOver
    cases isOver
  · rw [status] at queued
    cases queued

theorem recoverFailedWorker_settles_iff_duplicate :
    ((∃ counts, (recoverFailedWorker Lost.recovery.toRecoveryReadings "worker" 3 Lost.plane).1 = .ok counts) ∧
        ∀ requestId r, Lost.stored.get? requestId = some r → LostWith "worker" r →
          (recoverFailedWorker Lost.recovery.toRecoveryReadings "worker" 3 Lost.plane).2.Settled requestId) ↔
      ∀ requestId r, Lost.stored.get? requestId = some r → LostWith "worker" r →
        r.Recoverable Lost.recovery.toRecoveryReadings 3 Lost.plane :=
  recoverFailedWorker_settles_iff Lost.recovery "worker" (by decide) rfl

end Plane

end ServingPlatform

namespace ServingPlatform.Plane

variable {inputs : RecoveryReadings} {maxAttempts : Int} {p p' : Plane} {r r' : RequestRecord}
  {store : RequestStore} {workerId requestId other : String}

/-- A step of the loop does not touch what is over in the store. -/
theorem recoverRequest_over (listed : Listed inputs p requestId r) (found : p.stored other = some r')
    (isOver : r'.terminal = true) :
    (recoverRequest inputs workerId maxAttempts requestId p).2.stored other = some r' := by
  by_cases lost : LostWith workerId r
  · have differ : other ≠ requestId := by
      rintro rfl
      cases listed.stored.symm.trans found
      rw [lost.2] at isOver
      cases isOver
    rcases recoverRequest_lost listed lost.1 lost.2 with
      ⟨raised, p', run, -, kept⟩ | ⟨outcome, p', run, apart, -⟩
    · rw [run]
      exact (congrArg (fun store : Option RequestStore => store.bind fun store => store.get? other) kept).trans found
    · rw [run]
      exact (apart.stored other differ).trans found
  · rw [recoverRequest_untouched listed lost]
    exact found

theorem recoverAll_over (counts : RecoveryCounts) (requestIds : List String) (distinct : requestIds.Nodup)
    (injective : ∀ a ∈ requestIds, ∀ b ∈ requestIds, inputs.copies a = inputs.copies b → a = b)
    (listed : ∀ requestId ∈ requestIds, ∃ r, Listed inputs p requestId r) (found : p.stored other = some r')
    (isOver : r'.terminal = true) :
    (recoverAll inputs workerId maxAttempts counts requestIds p).2.stored other = some r' := by
  induction requestIds generalizing counts p with
  | nil => exact found
  | cons first rest induct =>
    obtain ⟨fresh, distinct⟩ := List.nodup_cons.mp distinct
    obtain ⟨r, here⟩ := listed first List.mem_cons_self
    have kept := @recoverRequest_over _ maxAttempts _ _ _ workerId _ _ here found isOver
    unfold recoverAll
    rcases recoverRequest_cases here with
      ⟨raised, p', run, -⟩ | ⟨outcome, p', run, apart, -⟩
    · rw [run] at kept
      rw [Attempt.bind_error run]
      exact kept
    · rw [run] at kept
      rw [Attempt.bind_ok run]
      exact induct (counts.count outcome) distinct
        (fun a inA b inB => injective a (List.mem_cons_of_mem _ inA) b (List.mem_cons_of_mem _ inB))
        (Listed.apart_rest fresh injective listed apart) kept

/-- A recovery leaves the stored requests that are over as they are. -/
theorem recoverFailedWorker_over (inputs : RecoveryInputs p) (workerId : String) (maxAttempts : Int)
    (found : p.stored other = some r') (isOver : r'.terminal = true) :
    (recoverFailedWorker inputs.toRecoveryReadings workerId maxAttempts p).2.stored other = some r' := by
  unfold recoverFailedWorker
  split
  · exact found
  obtain ⟨store, held, shown⟩ := Option.bind_eq_some_iff.mp found
  rw [held]
  obtain ⟨injective, stored, -, listing⟩ := listing_facts inputs workerId held
  exact recoverAll_over _ _ (nodup_sortedKeys _) injective listing ((stored other).trans shown) isOver

section Objects

variable {j : ObjectId}

theorem transition_keeps {i : ObjectId} (differ : j ≠ i) (target : RequestState) (now : Seconds) :
    (transition i target now).Keeps fun p => p.objects j := by
  intro p
  rcases transition_cases i target now p with ⟨-, run⟩ | ⟨-, raised, run⟩
  · rw [run]
    exact Objects.put_of_ne differ
  · rw [run]

theorem requeue_keeps {i : ObjectId} (differ : j ≠ i) (now : Seconds) : (requeue i now).Keeps fun p => p.objects j := by
  intro p
  have modified : (modify i fun r => r.addReason "global_retry_queue_unavailable").Keeps fun p => p.objects j :=
    fun p => Objects.put_of_ne differ
  rcases Option.eq_none_or_eq_some p.globalQueue with held | ⟨q, held⟩
  · unfold requeue
    rw [held]
    exact (transition_keeps differ .failed now).bind (fun _ => modified.bind fun _ => Attempt.keeps_pure _) p
  · unfold requeue
    rw [held]
    dsimp only
    rcases q.enqueue_cases p.objects i now with ⟨raised, run, -⟩ | ⟨queue, -, -, ⟨-, run⟩ | ⟨-, run⟩⟩
    · rw [run]
    · rw [run]
      exact Objects.put_of_ne differ
    · rw [run]

/-- A recovery changes copies only. -/
theorem settle_keeps (apart : ∀ requestId, inputs.copies requestId ≠ j) (r : RequestRecord) :
    (settle inputs maxAttempts r).Keeps fun p => p.objects j := by
  have differ : j ≠ inputs.copies r.requestId := Ne.symm (apart r.requestId)
  have modified : ∀ change, (modify (inputs.copies r.requestId) change).Keeps fun p => p.objects j :=
    fun change p => Objects.put_of_ne differ
  unfold settle
  dsimp only
  split
  · exact (transition_keeps differ _ _).bind fun _ => (modified _).bind fun _ => Attempt.keeps_pure _
  · refine .bind ?_ fun _ => (modified _).bind fun _ => requeue_keeps differ _
    split
    · exact transition_keeps differ _ _
    · exact Attempt.keeps_pure _

theorem save_keeps (fault : Option Raised) (i : ObjectId) : (save fault i).Keeps fun p => p.objects j := by
  intro p
  rcases save_cases fault i p with ⟨raised, -, -, run, -⟩ | ⟨store, run, -⟩ <;> rw [run]

theorem recoverAll_keeps (apart : ∀ requestId, inputs.copies requestId ≠ j) (counts : RecoveryCounts)
    (requestIds : List String) :
    (recoverAll inputs workerId maxAttempts counts requestIds).Keeps fun p => p.objects j := by
  have step : ∀ requestId, (recoverRequest inputs workerId maxAttempts requestId).Keeps fun p => p.objects j := by
    intro requestId
    refine .bind (fun _ => rfl) fun r => ?_
    split
    · exact Attempt.keeps_pure _
    · exact (settle_keeps apart r).bind fun _ => (save_keeps none _).bind fun _ => Attempt.keeps_pure _
  induction requestIds generalizing counts with
  | nil => exact Attempt.keeps_pure _
  | cons first rest induct => exact (step first).bind fun outcome => induct (counts.count outcome)

theorem recoverFailedWorker_objects (apart : ∀ requestId, inputs.copies requestId ≠ j) (workerId : String)
    (maxAttempts : Int) (p : Plane) :
    (recoverFailedWorker inputs workerId maxAttempts p).2.objects j = p.objects j := by
  unfold recoverFailedWorker
  split
  · rfl
  split
  · rfl
  · rename_i store held
    exact (recoverAll_keeps apart _ _ (p.listed inputs workerId store)).trans
      (copyAll_of_forall_ne _ _ fun requestId _ => apart requestId)

end Objects

end ServingPlatform.Plane
