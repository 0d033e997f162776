import ServingPlatform.FairQueue.Accounts

namespace ServingPlatform

/-- What may happen to a request: it keeps its identity, its tenant, its cost
and the record of the states it went through. -/
structure RequestRecord.Evolves (r r' : RequestRecord) : Prop where
  requestId : r'.requestId = r.requestId
  tenantId : r'.tenantId = r.tenantId
  estimatedTokens : r'.estimatedTokens = r.estimatedTokens
  reached : ∀ state, r.reached state = true → r'.reached state = true

namespace RequestRecord.Evolves

variable {r r' r'' : RequestRecord}

theorem refl (r : RequestRecord) : r.Evolves r := ⟨rfl, rfl, rfl, fun _ kept => kept⟩

theorem trans (first : r.Evolves r') (second : r'.Evolves r'') : r.Evolves r'' where
  requestId := second.requestId.trans first.requestId
  tenantId := second.tenantId.trans first.tenantId
  estimatedTokens := second.estimatedTokens.trans first.estimatedTokens
  reached := fun state kept => second.reached state (first.reached state kept)

theorem enter (r : RequestRecord) (target : RequestState) (at_ : Seconds) : r.Evolves (r.enter target at_) where
  requestId := rfl
  tenantId := rfl
  estimatedTokens := rfl
  reached := by
    intro state kept
    simp only [RequestRecord.reached, RequestRecord.enter, Dict.contains, Dict.get?_insert]
    split
    · rfl
    · exact kept

theorem put {objects : Objects} {i : ObjectId} {r : RequestRecord} (evolves : (objects i).Evolves r) (j : ObjectId) :
    (objects j).Evolves (objects.put i r j) := by
  rcases eq_or_ne j i with rfl | differ
  · rw [Objects.put_self]
    exact evolves
  · rw [Objects.put_of_ne differ]
    exact refl _

end RequestRecord.Evolves

namespace WeightedFairRequestQueue

variable {q q' : WeightedFairRequestQueue} {objects objects' : Objects} {now : Seconds} {i : ObjectId}
  {requestId : String}

theorem Sound.evolves (sound : q.Sound objects) (evolves : ∀ i, (objects i).Evolves (objects' i)) :
    q.Sound objects' where
  distinct := sound.distinct
  waiting := sound.waiting
  own := fun tenant i member =>
    ⟨(evolves i).tenantId.trans (sound.own tenant i member).1, (evolves i).reached _ (sound.own tenant i member).2⟩

/-- An enqueue is refused without effect, or its request, now queued, joins its tenant's queue. -/
theorem enqueue_cases (q : WeightedFairRequestQueue) (objects : Objects) (i : ObjectId) (now : Seconds) :
    (∃ raised, q.enqueue objects i now = (.error raised, q, objects) ∧ raised.kind = .valueError) ∨
      ∃ queue, q.queues.get? (objects i).tenantId = some queue ∧
        (∀ j ∈ queue, (objects j).requestId ≠ (objects i).requestId) ∧
        (((objects i).status = .admitted ∧
          q.enqueue objects i now = (.ok (), q.join objects i queue, objects.put i ((objects i).enter .queued now))) ∨
        ((objects i).status = .queued ∧ q.enqueue objects i now = (.ok (), q.join objects i queue, objects))) := by
  unfold enqueue
  cases found : q.queues.get? (objects i).tenantId with
  | none => exact Or.inl ⟨_, rfl, rfl⟩
  | some queue =>
    dsimp only
    by_cases wrong : (objects i).status ≠ .admitted ∧ (objects i).status ≠ .queued
    · rw [if_pos wrong]
      exact Or.inl ⟨_, rfl, rfl⟩
    rw [if_neg wrong]
    by_cases twice : queue.any (fun j => (objects j).requestId = (objects i).requestId) = true
    · rw [if_pos twice]
      exact Or.inl ⟨_, rfl, rfl⟩
    rw [if_neg twice]
    refine Or.inr ⟨queue, rfl, fun j member same => twice (List.any_eq_true.mpr ⟨j, member, by simp [same]⟩), ?_⟩
    by_cases admitted : (objects i).status = .admitted
    · rw [if_pos admitted]
      exact Or.inl ⟨admitted, rfl⟩
    · rw [if_neg admitted]
      exact Or.inr ⟨not_not.mp fun other => wrong ⟨admitted, other⟩, rfl⟩

theorem Sound.join (sound : q.Sound objects) {queue : List ObjectId}
    (found : q.queues.get? (objects i).tenantId = some queue) (reached : (objects i).reached .queued = true) :
    (q.join objects i queue).Sound objects := by
  have current : q.queueOf (objects i).tenantId = queue := by rw [queueOf, found]; rfl
  have queues : ∀ tenant, (q.join objects i queue).queueOf tenant =
      if tenant = (objects i).tenantId then queue ++ [i] else q.queueOf tenant := fun _ => queueOf_insert
  have grows : ∀ tenant ∈ q.active, tenant ∈ (q.join objects i queue).active := by
    intro tenant member
    unfold WeightedFairRequestQueue.join
    dsimp only
    split
    · exact member
    · exact List.mem_append_left _ member
  refine ⟨?_, fun tenant waits => ?_, fun tenant j member => ?_⟩
  · unfold WeightedFairRequestQueue.join
    dsimp only
    split
    · exact sound.distinct
    · rename_i fresh
      exact (List.perm_append_singleton _ _).nodup_iff.mpr (List.nodup_cons.mpr ⟨fresh, sound.distinct⟩)
  · rw [queues] at waits
    split at waits
    · rename_i same
      rw [same]
      unfold WeightedFairRequestQueue.join
      dsimp only
      split
      · assumption
      · exact List.mem_append_right _ (List.mem_singleton_self _)
    · exact grows tenant (sound.waiting tenant waits)
  · rw [queues] at member
    split at member
    · rename_i same
      rcases List.mem_append.mp member with old | new
      · exact sound.own tenant j (by rw [same, current]; exact old)
      · cases List.mem_singleton.mp new
        exact ⟨same.symm, reached⟩
    · exact sound.own tenant j member

theorem enqueue_evolves (q : WeightedFairRequestQueue) (objects : Objects) (i : ObjectId) (now : Seconds)
    (j : ObjectId) : (objects j).Evolves ((q.enqueue objects i now).2.2 j) := by
  rcases q.enqueue_cases objects i now with ⟨raised, run, -⟩ | ⟨queue, -, -, ⟨-, run⟩ | ⟨-, run⟩⟩
  · rw [run]
    exact .refl _
  · rw [run]
    exact .put (.enter _ _ _) j
  · rw [run]
    exact .refl _

theorem Sound.enqueue (sound : q.Sound objects) (i : ObjectId) (now : Seconds) :
    (q.enqueue objects i now).2.1.Sound (q.enqueue objects i now).2.2 := by
  rcases q.enqueue_cases objects i now with ⟨raised, run, -⟩ | ⟨queue, found, -, ⟨-, run⟩ | ⟨status, run⟩⟩
  · rw [run]
    exact sound
  · rw [run]
    have entered := sound.evolves (fun j => .put (.enter (objects i) .queued now) j)
    have reached : ((objects i).enter .queued now).reached .queued = true :=
      ((objects i).enter .queued now).stamped
    have joined := entered.join (i := i)
      (by rw [Objects.put_self]; exact found) (by rw [Objects.put_self]; exact reached)
    unfold WeightedFairRequestQueue.join at joined
    rw [Objects.put_self] at joined
    exact joined
  · rw [run]
    refine sound.join found ?_
    have stamped := (objects i).stamped
    rw [status] at stamped
    exact stamped

/-- A cancellation at most takes one request out of a queue and marks it cancelled. -/
theorem cancel_cases (q : WeightedFairRequestQueue) (objects : Objects) (requestId : String) (now : Seconds) :
    q.cancel objects requestId now = (.ok false, q, objects) ∨
      ∃ tenant queue i, q.queues.get? tenant = some queue ∧ i ∈ queue ∧ (objects i).requestId = requestId ∧
        (q.cancel objects requestId now).2.1 = { q with queues := q.queues.insert tenant (queue.erase i) } ∧
        ((q.cancel objects requestId now).2.2 = objects ∨
          (q.cancel objects requestId now).2.2 = objects.put i ((objects i).enter .cancelled now)) := by
  unfold cancel
  dsimp only
  split
  · exact Or.inl rfl
  rename_i tenant queue found
  split
  · exact Or.inl rfl
  rename_i i chosen
  have entry := Dict.get?_eq_some_iff.mpr (List.mem_of_find?_eq_some found)
  have named : (objects i).requestId = requestId := by simpa using List.find?_some chosen
  refine Or.inr ⟨tenant, queue, i, entry, List.mem_of_find?_eq_some chosen, named, ?_⟩
  rcases (objects i).transition_cases .cancelled now with ⟨-, run⟩ | ⟨-, raised, run, -⟩
  · rw [run]
    exact ⟨rfl, Or.inr rfl⟩
  · rw [run]
    exact ⟨rfl, Or.inl rfl⟩

theorem cancel_evolves (q : WeightedFairRequestQueue) (objects : Objects) (requestId : String) (now : Seconds)
    (j : ObjectId) : (objects j).Evolves ((q.cancel objects requestId now).2.2 j) := by
  rcases q.cancel_cases objects requestId now with run | ⟨tenant, queue, i, -, -, -, -, after | after⟩
  · rw [run]
    exact .refl _
  · rw [after]
    exact .refl _
  · rw [after]
    exact .put (.enter _ _ _) j

theorem Sound.cancel (sound : q.Sound objects) (requestId : String) (now : Seconds) :
    (q.cancel objects requestId now).2.1.Sound (q.cancel objects requestId now).2.2 := by
  refine Sound.evolves ?_ (q.cancel_evolves objects requestId now)
  rcases q.cancel_cases objects requestId now with run | ⟨tenant, queue, i, found, member, -, after, -⟩
  · rw [run]
    exact sound
  rw [after]
  have current : q.queueOf tenant = queue := by rw [queueOf, found]; rfl
  refine ⟨sound.distinct, fun other waits => ?_, fun other j held => ?_⟩
  · simp only [queueOf, queueOf_insert] at waits
    split at waits
    · rename_i same
      exact sound.waiting other (by rw [same, current]; exact List.ne_nil_of_mem member)
    · exact sound.waiting other waits
  · simp only [queueOf, queueOf_insert] at held
    split at held
    · rename_i same
      exact sound.own other j (by rw [same, current]; exact List.mem_of_mem_erase held)
    · exact sound.own other j held

end WeightedFairRequestQueue

end ServingPlatform
