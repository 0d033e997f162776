import ServingPlatform.FairQueue.Fairness
import ServingPlatform.FairQueue.PopUntil
import ServingPlatform.Library.WaitingList

namespace ServingPlatform

open WeightedFairRequestQueue

namespace WeightedFairRequestQueue

variable {q q' q'' : WeightedFairRequestQueue} {objects objects' : Objects} {now : Seconds} {i : ObjectId}
  {tenant requestId : String} {rest : List String} {result : Option ObjectId} {visits : Nat}

/-- What an operation takes out of the queues: requests that are over, and at most one other. -/
structure Takes (objects : Objects) (q : WeightedFairRequestQueue) (result : Option ObjectId)
    (q' : WeightedFairRequestQueue) : Prop where
  sublist : ∀ tenant, (q'.queueOf tenant).Sublist (q.queueOf tenant)
  kept : ∀ tenant, ∀ j ∈ q.queueOf tenant, (objects j).terminal = false → result ≠ some j → j ∈ q'.queueOf tenant
  taken : ∀ i, result = some i → ∃ tenant, i ∈ q.queueOf tenant ∧ (objects i).terminal = false ∧
    ((q.queueOf tenant).Nodup → i ∉ q'.queueOf tenant)

theorem Takes.refl (objects : Objects) (q : WeightedFairRequestQueue) : Takes objects q none q where
  sublist := fun _ => .refl _
  kept := fun _ _ member _ _ => member
  taken := fun i taken => by cases taken

theorem Takes.trans (first : Takes objects q none q') (second : Takes objects q' result q'') :
    Takes objects q result q'' where
  sublist := fun tenant => (second.sublist tenant).trans (first.sublist tenant)
  kept := fun tenant j member alive other =>
    second.kept tenant j (first.kept tenant j member alive (by simp)) alive other
  taken := by
    intro i taken
    obtain ⟨tenant, member, alive, gone⟩ := second.taken i taken
    exact ⟨tenant, (first.sublist tenant).subset member, alive, fun nodup => gone (nodup.sublist (first.sublist tenant))⟩

theorem Takes.of_insert {queue : List ObjectId} (queues : ∀ other, q'.queueOf other =
      if other = tenant then queue else q.queueOf other) (sublist : queue.Sublist (q.queueOf tenant))
    (kept : ∀ j ∈ q.queueOf tenant, (objects j).terminal = false → result ≠ some j → j ∈ queue)
    (taken : ∀ i, result = some i → i ∈ q.queueOf tenant ∧ (objects i).terminal = false ∧
      ((q.queueOf tenant).Nodup → i ∉ queue)) : Takes objects q result q' where
  sublist := by
    intro other
    rw [queues]
    split
    · rename_i same
      exact same ▸ sublist
    · exact .refl _
  kept := by
    intro other j member alive differs
    rw [queues]
    split
    · rename_i same
      exact kept j (same ▸ member) alive differs
    · exact member
  taken := by
    intro i chosen
    obtain ⟨member, alive, gone⟩ := taken i chosen
    exact ⟨tenant, member, alive, by rw [queues, if_pos rfl]; exact gone⟩

theorem mem_live {j : ObjectId} : j ∈ q.live objects tenant ↔ j ∈ q.queueOf tenant ∧ (objects j).terminal = false := by
  rw [live, List.mem_filter, Bool.not_eq_true']

theorem Visited.takes (visited : q.Visited objects tenant rest result q') : Takes objects q result q' := by
  have sublist : (q.live objects tenant).Sublist (q.queueOf tenant) := List.filter_sublist
  cases visited with
  | dropped empty =>
    refine .of_insert (fun _ => queueOf_insert) sublist (fun j member alive _ => mem_live.mpr ⟨member, alive⟩) ?_
    exact fun i taken => by cases taken
  | @served i member affordable =>
    refine .of_insert (fun _ => queueOf_insert) (List.erase_sublist.trans sublist) ?_ ?_
    · intro j waits alive other
      exact (List.mem_erase_of_ne fun same => other (by rw [same])).mpr (mem_live.mpr ⟨waits, alive⟩)
    · intro j taken
      cases taken
      obtain ⟨waits, alive⟩ := mem_live.mp member
      exact ⟨waits, alive, fun nodup => (nodup.sublist sublist).not_mem_erase⟩
  | passed member short =>
    refine .of_insert (fun _ => queueOf_insert) sublist (fun j waits alive _ => mem_live.mpr ⟨waits, alive⟩) ?_
    exact fun i taken => by cases taken

theorem popLoop_takes (sound : q.Sound objects) (clock : Nat → Seconds)
    (run : popLoop objects clock visits q = (.ok result, q')) : Takes objects q result q' := by
  induction visits generalizing q with
  | zero =>
    cases run
    exact .refl _ _
  | succ visits induct =>
    cases front : q.active with
    | nil =>
      simp only [popLoop, front] at run
      cases run
      exact .refl _ _
    | cons tenant rest =>
      obtain ⟨found, middle, turn, visited⟩ := visit_cases sound (clock visits) tenant rest
      simp only [popLoop, front, turn] at run
      cases found with
      | some i =>
        cases run
        exact visited.takes
      | none => exact visited.takes.trans (induct (visited.sound sound front) run)

/-- A request that is enqueued comes last in its tenant's queue, which has no other of its id. -/
theorem enqueue_joins (run : q.enqueue objects i now = (.ok (), q', objects')) :
    (∀ tenant, q'.queueOf tenant = if tenant = (objects i).tenantId then q.queueOf (objects i).tenantId ++ [i]
      else q.queueOf tenant) ∧
    (∀ j ∈ q.queueOf (objects i).tenantId, (objects j).requestId ≠ (objects i).requestId) ∧
    (∀ j, (objects' j).terminal = (objects j).terminal) ∧ q'.deficits = q.deficits := by
  rcases q.enqueue_cases objects i now with ⟨raised, refused, -⟩ | ⟨queue, found, fresh, entered⟩
  · rw [refused] at run
    cases run
  have current : q.queueOf (objects i).tenantId = queue := by rw [queueOf, found]; rfl
  rw [current]
  rcases entered with ⟨status, joined⟩ | ⟨status, joined⟩
  · rw [joined] at run
    cases run
    refine ⟨fun _ => queueOf_insert, fresh, fun j => ?_, rfl⟩
    rcases eq_or_ne j i with rfl | differ
    · rw [Objects.put_self, RequestRecord.terminal, RequestRecord.terminal, status]
      rfl
    · rw [Objects.put_of_ne differ]
  · rw [joined] at run
    cases run
    exact ⟨fun _ => queueOf_insert, fresh, fun _ => rfl, rfl⟩

theorem cancelled_allowed {r : RequestRecord} : RequestState.cancelled ∈ r.status.allowed ↔ r.terminal = false := by
  unfold RequestRecord.terminal
  cases r.status <;> decide

/-- A cancellation that succeeds takes a request that is not over, and ends it;
one that does not takes at most a request that is over. -/
theorem cancel_takes (q : WeightedFairRequestQueue) (objects : Objects) (requestId : String) (now : Seconds) :
    (q.cancel objects requestId now).2.1.deficits = q.deficits ∧
    ((∃ i, (objects i).requestId = requestId ∧ (q.cancel objects requestId now).1 = .ok true ∧
        (q.cancel objects requestId now).2.2 = objects.put i ((objects i).enter .cancelled now) ∧
        Takes objects q (some i) (q.cancel objects requestId now).2.1) ∨
      ((q.cancel objects requestId now).1 ≠ .ok true ∧ (q.cancel objects requestId now).2.2 = objects ∧
        Takes objects q none (q.cancel objects requestId now).2.1)) := by
  unfold cancel
  dsimp only
  split
  · exact ⟨rfl, Or.inr ⟨by simp, rfl, .refl _ _⟩⟩
  rename_i tenant queue found
  split
  · exact ⟨rfl, Or.inr ⟨by simp, rfl, .refl _ _⟩⟩
  rename_i i chosen
  have entry := Dict.get?_eq_some_iff.mpr (List.mem_of_find?_eq_some found)
  have named : (objects i).requestId = requestId := by simpa using List.find?_some chosen
  have current : q.queueOf tenant = queue := by rw [queueOf, entry]; rfl
  have member : i ∈ q.queueOf tenant := current ▸ List.mem_of_find?_eq_some chosen
  subst current
  rcases (objects i).transition_cases .cancelled now with ⟨allowed, run⟩ | ⟨refused, raised, run, -⟩
  · rw [run]
    refine ⟨rfl, Or.inl ⟨i, named, rfl, rfl, .of_insert (fun _ => queueOf_insert) List.erase_sublist ?_ ?_⟩⟩
    · exact fun j waits _ other => (List.mem_erase_of_ne fun same => other (by rw [same])).mpr waits
    · intro j taken
      cases taken
      exact ⟨member, cancelled_allowed.mp allowed, fun nodup => nodup.not_mem_erase⟩
  · rw [run]
    refine ⟨rfl, Or.inr ⟨by simp, rfl, .of_insert (fun _ => queueOf_insert) List.erase_sublist ?_ ?_⟩⟩
    · intro j waits alive _
      refine (List.mem_erase_of_ne ?_).mpr waits
      rintro rfl
      exact refused (cancelled_allowed.mpr alive)
    · exact fun j taken => by cases taken

end WeightedFairRequestQueue

end ServingPlatform
