import ServingPlatform.ControlPlane.Submissions
import ServingPlatform.ControlPlane.StartedWork

namespace ServingPlatform.Cluster

open Plane

section

variable {s s' : Cluster} {recovery : Recovery} {requestId : String}

/-- The next request of a recovery is not tried again if its worker has begun it. -/
def Cautious (recovery : Recovery) (requestId : String) (s : Cluster) : Prop :=
  s.begun recovery.workerId requestId →
    ¬Retries recovery.readings recovery.workerId recovery.maxAttempts s.plane (s.plane.objects (recovery.copy requestId))

/-- No recovery has queued a request that its worker had begun. -/
def NothingRestarted (s : Cluster) : Prop := ∀ workerId requestId, ¬s.restarted workerId requestId

/-- A round of a recovery restarts nothing exactly if it is cautious. -/
theorem recovered_iff {before after : List Recovery} {rest : List String}
    (named : (s.plane.objects (recovery.copy requestId)).requestId = requestId) :
    (s.recovered before after recovery requestId rest).NothingRestarted ↔
      s.NothingRestarted ∧ Cautious recovery requestId s := by
  have waits := @recoverRequest_waits_iff _ recovery.maxAttempts _ recovery.workerId _ named
  constructor
  · intro nothing
    refine ⟨fun workerId other restarted => nothing workerId other (Or.inl restarted), fun begun retries => ?_⟩
    exact nothing recovery.workerId requestId (Or.inr ⟨rfl, rfl, begun, waits.mpr retries⟩)
  · rintro ⟨nothing, cautious⟩ workerId other (restarted | ⟨rfl, rfl, begun, queued⟩)
    · exact nothing workerId other restarted
    · exact cautious begun (waits.mp queued)

/-- A step that restarts nothing is one that may be taken cautiously. -/
theorem Named.step_iff (named : s.Named) :
    (Step (fun _ _ _ => True) s s' ∧ s'.NothingRestarted) ↔ Step Cautious s s' ∧ s.NothingRestarted := by
  have round : ∀ {before after recovery requestId rest}, s.recoveries = before ++ recovery :: after →
      recovery.remaining = requestId :: rest → ((s.recovered before after recovery requestId rest).NothingRestarted ↔
        s.NothingRestarted ∧ Cautious recovery requestId s) := by
    intro before after recovery requestId rest running next
    exact recovered_iff (named recovery (running ▸ List.mem_append_right _ List.mem_cons_self) requestId
      (next ▸ List.mem_cons_self))
  constructor
  · rintro ⟨step, nothing⟩
    cases step with
    | dispatched i inputs => exact ⟨.dispatched i inputs, nothing⟩
    | saved fault i => exact ⟨.saved fault i, nothing⟩
    | began workerId now => exact ⟨.began workerId now, nothing⟩
    | finished open_ generated failedAt completedAt => exact ⟨.finished open_ generated failedAt completedAt, nothing⟩
    | expired now => exact ⟨.expired now, nothing⟩
    | listed inputs workerId positive held fresh => exact ⟨.listed inputs workerId positive held fresh, nothing⟩
    | recovered running next _ =>
      obtain ⟨before, cautious⟩ := (round running next).mp nothing
      exact ⟨.recovered running next cautious, before⟩
  · rintro ⟨step, nothing⟩
    cases step with
    | dispatched i inputs => exact ⟨.dispatched i inputs, nothing⟩
    | saved fault i => exact ⟨.saved fault i, nothing⟩
    | began workerId now => exact ⟨.began workerId now, nothing⟩
    | finished open_ generated failedAt completedAt => exact ⟨.finished open_ generated failedAt completedAt, nothing⟩
    | expired now => exact ⟨.expired now, nothing⟩
    | listed inputs workerId positive held fresh => exact ⟨.listed inputs workerId positive held fresh, nothing⟩
    | recovered running next cautious =>
      exact ⟨.recovered running next trivial, (round running next).mpr ⟨nothing, cautious⟩⟩

/-- A run restarts nothing exactly when each round of its recoveries is cautious:
what it reads of a request that its worker has begun keeps it from queuing it again. -/
theorem run_restarts_nothing_iff (p : Plane) (s : Cluster) :
    (Run (fun _ _ _ => True) (start p) s ∧ s.NothingRestarted) ↔ Run Cautious (start p) s := by
  constructor
  · rintro ⟨run, nothing⟩
    induction run with
    | refl => exact .refl
    | tail before step induct =>
      obtain ⟨cautious, earlier⟩ := (Named.run before).step_iff.mp ⟨step, nothing⟩
      exact (induct earlier).tail cautious
  · intro run
    induction run with
    | refl => exact ⟨.refl, fun _ _ restarted => restarted⟩
    | tail before step induct =>
      obtain ⟨any, earlier⟩ := induct
      obtain ⟨free, nothing⟩ := (Named.run before).step_iff.mpr ⟨step, earlier⟩
      exact ⟨any.tail free, nothing⟩

end

namespace Restarted

/-- An admitted and stored request, and a warm worker. -/
def plane : Plane := { Pipeline.Unanswered.pipeline.plane with store := some Rejected.known }

/-- The worker has taken the request. -/
def taken : Cluster := { start plane with plane := (dispatch (Rejected.readings 0 none) plane).2 }

/-- The worker runs it. -/
def running : Cluster := taken.began "worker" 2

theorem running_keys : running.plane.store.map (fun store => sortedKeys store.requests) = some ["request"] := by
  decide +kernel

theorem running_queues : running.plane.globalQueue.map (fun q => q.queues.entries) = some [("tenant", [])] := by
  decide +kernel

def inputs : RecoveryInputs running.plane where
  copies := fun _ => 1
  checkedAt := fun _ => 3
  decidedAt := fun _ => 3
  changedAt := fun _ => 3
  distinct := by
    intro store held a b inA inB _
    have keys := running_keys
    rw [held, Option.map_some] at keys
    have known : ∀ requestId, store.contains requestId = true → requestId = "request" := by
      intro requestId inside
      have member := mem_sortedKeys.mpr (Dict.contains_iff.mp inside)
      rw [Option.some.inj keys] at member
      exact List.mem_singleton.mp member
    rw [known a inA, known b inB]
  new := by
    intro q held tenant i waits
    have queues := running_queues
    rw [held, Option.map_some] at queues
    obtain ⟨queue, entry, member⟩ := WeightedFairRequestQueue.queueOf_entry waits
    rw [Option.some.inj queues] at entry
    cases List.mem_singleton.mp entry
    cases member

def recovery : Recovery := ⟨inputs.toRecoveryReadings, "worker", 3, ["request"]⟩

/-- A recovery of the worker has taken its listing. -/
def listed : Cluster :=
  { running with
    plane := running.plane.listed inputs.toRecoveryReadings "worker" (running.plane.store.getD .empty)
    recoveries := [recovery] }

/-- The recovery has queued the request again. -/
def requeued : Cluster := listed.recovered [] [] recovery "request" []

theorem requeued_run : Run (fun _ _ _ => True) (start plane) requeued := by
  obtain ⟨store, held, keys⟩ := Option.map_eq_some_iff.mp running_keys
  have listing : Step (fun _ _ _ => True) running listed := by
    have step : Step (fun _ _ _ => True) running _ := .listed inputs "worker" (by decide : (0 : Int) < 3) held
      fun _ member => absurd member List.not_mem_nil
    rw [keys] at step
    unfold listed
    rw [held]
    exact step
  have round : Step (fun _ _ _ => True) listed requeued := .recovered rfl rfl trivial
  exact .tail (.tail (.tail (.single (.dispatched 0 (Rejected.readings 0 none))) (.began "worker" 2)) listing) round

end Restarted

/-- A worker takes a request and begins it; the store still shows it queued, and
a recovery of the worker queues it again. -/
theorem begun_request_restarted : ∃ p s, Run (fun _ _ _ => True) (start p) s ∧ ¬s.NothingRestarted := by
  refine ⟨Restarted.plane, Restarted.requeued, Restarted.requeued_run, fun nothing => ?_⟩
  have begun : Begins Restarted.taken.plane Restarted.running.plane "request" :=
    ⟨0, by decide +kernel, by decide +kernel, by decide +kernel⟩
  have queues : Restarted.requeued.plane.globalQueue.map (fun q => q.queueOf "tenant") = some [1] := by decide +kernel
  have before : Restarted.listed.plane.globalQueue.map (fun q => q.queueOf "tenant") = some [] := by decide +kernel
  have tenant : (Restarted.requeued.plane.objects 1).tenantId = "tenant" ∧
      (Restarted.listed.plane.objects 1).tenantId = "tenant" := by decide +kernel
  refine nothing "worker" "request" (Or.inr ⟨rfl, rfl, Or.inr ⟨rfl, begun⟩, ?_, ?_⟩)
  · obtain ⟨q, held, waiting⟩ := Option.map_eq_some_iff.mp queues
    refine ⟨q, held, ?_⟩
    change 1 ∈ q.queueOf (Restarted.requeued.plane.objects 1).tenantId
    rw [tenant.1, waiting]
    exact List.mem_singleton_self 1
  · rintro ⟨q, held, waits⟩
    change 1 ∈ q.queueOf (Restarted.listed.plane.objects 1).tenantId at waits
    rw [held, Option.map_some] at before
    rw [tenant.2, Option.some.inj before] at waits
    cases waits

end ServingPlatform.Cluster
