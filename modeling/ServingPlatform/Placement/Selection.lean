import Mathlib.Data.String.Basic
import ServingPlatform.Admission.Counters
import ServingPlatform.Placement.Decisions

namespace ServingPlatform

/-- What a worker is compared by: its score, its queue where the policy asks for it, and its id. -/
abbrev Standing := Rat ×ₗ Nat ×ₗ String

def standing (score : WorkerState → Rat) (queue : WorkerState → Nat) (worker : WorkerState) : Standing :=
  toLex (score worker, toLex (queue worker, worker.workerId))

/-- A worker that is up, takes work and has room for another batch. -/
structure WorkerState.Accepting (worker : WorkerState) : Prop where
  healthy : worker.healthStatus = .healthy
  staying : worker.draining = false
  room : worker.activeBatchCount < worker.maxConcurrency

/-- A worker that a request can be placed on. -/
structure PlacementPolicy.Suits (p : PlacementPolicy) (r : RequestRecord) (model : ModelDefinition)
    (worker : WorkerState) : Prop where
  accepting : worker.Accepting
  compatible : p.runtimeCompatible model worker = true
  context : r.estimatedTokens ≤ model.maxContextTokens
  memory : model.modelId ∈ worker.residentModels ∨ ∃ available, worker.availableMemoryBytes = some available ∧
    (model.estimatedMemoryBytes : Int) ≤ available - p.memorySafetyReserveBytes

namespace PlacementChoice

/-- The deadline that `EstimatedCompletionTimePolicy` wants to be met. -/
def Timely (choice : PlacementChoice) (p : PlacementPolicy) (r : RequestRecord) (model : ModelDefinition)
    (worker : WorkerState) : Prop :=
  match choice with
  | .estimatedCompletionTime e clock => ∀ deadline, r.deadline = .finite deadline →
      p.rounded (clock worker.workerId + e.seconds p r model worker) ≤ deadline
  | _ => True

/-- What the workers that fit a request are compared by. Only the replicas
of a model depend on all of them. -/
def key (choice : PlacementChoice) (p : PlacementPolicy) (r : RequestRecord) (model : ModelDefinition)
    (eligible : List WorkerState) : WorkerState → Standing :=
  match choice with
  | .modelResidencyAware => standing (fun worker => if model.modelId ∈ worker.residentModels then 0 else 1)
      WorkerState.queueDepth
  | .memoryAwareLeastLoaded => standing (MemoryAwareLeastLoadedPolicy.score p model) fun _ => 0
  | .estimatedCompletionTime e _ => standing (e.seconds p r model) fun _ => 0
  | .demandAware d => standing (d.score p model (d.scaleOut p model eligible)) fun _ => 0

end PlacementChoice

namespace RoutingChoice

/-- The model that a placement policy looks up; `LeastQueueDepthPolicy` looks up none. -/
def Registered (choice : RoutingChoice) (r : RequestRecord) : Prop :=
  match choice with
  | .leastQueueDepth _ => True
  | .placement _ p => ∃ model, p.models.definitions.get? r.modelId = some model

/-- The eligibility conditions of each policy. -/
def Eligible (choice : RoutingChoice) (r : RequestRecord) (worker : WorkerState) : Prop :=
  match choice with
  | .leastQueueDepth _ => worker.Accepting ∧ r.modelId ∈ worker.residentModels
  | .placement choice p => ∃ model, p.models.definitions.get? r.modelId = some model ∧ p.Suits r model worker ∧
      choice.Timely p r model worker

/-- What the candidates of a decision are compared by. -/
def key (choice : RoutingChoice) (r : RequestRecord) (eligible : List WorkerState) : WorkerState → Standing :=
  match choice with
  | .leastQueueDepth rounded => standing (fun worker => rounded worker.queueDepth) fun _ => 0
  | .placement choice p => match p.models.definitions.get? r.modelId with
    | some model => choice.key p r model eligible
    | none => standing (fun _ => 0) fun _ => 0

end RoutingChoice

/-- A decision takes the least of the workers that are eligible, and accounts for all of them. -/
structure Settles (choice : RoutingChoice) (r : RequestRecord) (workers : List WorkerState) (d : ScoredDecision) :
    Prop where
  selects : ∃ eligible, (∀ worker, worker ∈ eligible ↔ worker ∈ workers ∧ choice.Eligible r worker) ∧
    d.candidates = eligible.map WorkerState.workerId ∧
    ∃ selected ∈ eligible, selected.workerId = d.selectedWorkerId ∧
      ∀ worker ∈ eligible, choice.key r eligible selected ≤ choice.key r eligible worker ∧
        d.scores.get? worker.workerId = some (ofLex (choice.key r eligible worker)).1
  accounts : (d.candidates ++ d.rejected.keys).Perm (workers.map WorkerState.workerId)

section Sifting

variable {p : PlacementPolicy} {r : RequestRecord} {model : ModelDefinition} {worker : WorkerState}
  {workers workers' : List WorkerState}

theorem warmRejection_eq_none_iff : warmRejection r worker = none ↔ worker.Accepting ∧ r.modelId ∈ worker.residentModels := by
  unfold warmRejection
  constructor
  · intro none
    split_ifs at none with sick draining cold full
    exact ⟨⟨not_not.mp sick, by simpa using draining, by omega⟩, cold⟩
  · rintro ⟨⟨healthy, staying, room⟩, warm⟩
    rw [if_neg (not_not.mpr healthy), if_neg (by simpa using staying), if_neg (not_not.mpr warm), if_neg (by omega)]

theorem rejection_eq_none_iff : p.rejection r model worker = none ↔ p.Suits r model worker := by
  unfold PlacementPolicy.rejection
  constructor
  · intro none
    split_ifs at none with sick draining full foreign long cold
    · exact ⟨⟨not_not.mp sick, by simpa using draining, by omega⟩, by simpa using foreign, by omega, Or.inl cold⟩
    · refine ⟨⟨not_not.mp sick, by simpa using draining, by omega⟩, by simpa using foreign, by omega, ?_⟩
      split at none
      · cases none
      · rename_i available known
        split_ifs at none with short
        exact Or.inr ⟨available, known, by omega⟩
  · rintro ⟨⟨healthy, staying, room⟩, compatible, context, memory⟩
    rw [if_neg (not_not.mpr healthy), if_neg (by simpa using staying), if_neg (by omega),
      if_neg (by simpa using compatible), if_neg (by omega)]
    rcases memory with warm | ⟨available, known, fits⟩
    · rw [if_neg (not_not.mpr warm)]
    · split
      · rw [known]
        exact if_neg (by omega)
      · exact rfl

theorem mem_byId : worker ∈ byId workers ↔ worker ∈ workers := List.mem_insertionSort _

theorem byId_perm (workers : List WorkerState) : (byId workers).Perm workers := List.perm_insertionSort _ workers

/-- Where no two workers share an id, the order they are listed in does not matter. -/
theorem byId_eq (same : workers.Perm workers') (distinct : (workers.map WorkerState.workerId).Nodup) :
    byId workers = byId workers' := by
  have ids : (byId workers).map WorkerState.workerId = (byId workers').map WorkerState.workerId := by
    have perm := (byId_perm workers).trans (same.trans (byId_perm workers').symm)
    have sorted : ∀ l : List WorkerState, ((byId l).map WorkerState.workerId).Pairwise (· ≤ ·) := fun l =>
      List.pairwise_map.mpr (List.pairwise_insertionSort _ l)
    exact List.Perm.eq_of_pairwise' (sorted workers) (sorted workers') (perm.map WorkerState.workerId)
  have perm := (byId_perm workers).trans (same.trans (byId_perm workers').symm)
  have apart : ((byId workers).map WorkerState.workerId).Nodup :=
    ((byId_perm workers).map WorkerState.workerId).nodup_iff.mpr distinct
  have injective := List.inj_on_of_nodup_map apart
  refine List.ext_getElem (by simpa using congrArg List.length ids) fun i inside inside' => ?_
  refine injective (List.getElem_mem _) (perm.mem_iff.mpr (List.getElem_mem _)) ?_
  have at_i := congrArg (fun ids : List String => ids[i]?) ids
  simpa [inside, inside'] using at_i

theorem keys_reasons (rejection : WorkerState → Option String)
    (distinct : (workers.map WorkerState.workerId).Nodup) : (reasons rejection workers).keys =
    (workers.filter fun worker => (rejection worker).isSome).map WorkerState.workerId := by
  have kept := Dict.keys_foldl_notes (d := .empty) rejection distinct fun _ _ => List.not_mem_nil
  refine Eq.trans ?_ (kept.trans (List.nil_append _))
  unfold reasons
  congr 2
  funext rejected worker
  cases noted : rejection worker with
  | none => exact rfl
  | some reason => exact rfl

/-- Those a filter keeps and those it gives a reason for are all. -/
theorem sifted_perm (rejection : WorkerState → Option String)
    (distinct : (workers.map WorkerState.workerId).Nodup) :
    ((workers.filter fun worker => (rejection worker).isNone).map WorkerState.workerId ++
      (reasons rejection workers).keys).Perm (workers.map WorkerState.workerId) := by
  rw [keys_reasons rejection distinct, ← List.map_append]
  refine List.Perm.map _ ?_
  have parts := List.filter_append_perm (fun worker => (rejection worker).isNone) workers
  simpa using parts

end Sifting

namespace PlacementPolicy

variable {p : PlacementPolicy} {r : RequestRecord} {model : ModelDefinition} (workers : List WorkerState)

theorem sift_unregistered (missing : p.models.definitions.get? r.modelId = none) :
    p.sift r workers = .error (.notRegistered r.modelId) := by
  unfold sift filter
  rw [missing]

theorem sift_registered (found : p.models.definitions.get? r.modelId = some model) : p.sift r workers =
    .ok (model, (byId workers).filter fun worker => (p.rejection r model worker).isNone,
      reasons (p.rejection r model) (byId workers)) := by
  unfold sift filter
  rw [found]
  rfl

end PlacementPolicy

namespace Ranking

variable {ranking : Ranking} {key : WorkerState → Standing}

theorem byScore_iff (score : WorkerState → Rat) (a b : WorkerState) :
    PlacementPolicy.byScore score a b = true ↔ standing score (fun _ => 0) a < standing score (fun _ => 0) b := by
  simp [PlacementPolicy.byScore, standing, Prod.Lex.lt_iff]

theorem least_le {before : WorkerState → WorkerState → Bool} (faithful : ∀ a b, before a b = true ↔ key a < key b)
    (best : WorkerState) (rest : List WorkerState) :
    ∀ worker ∈ best :: rest, key (PlacementPolicy.least before best rest) ≤ key worker := by
  induction rest generalizing best with
  | nil =>
    intro worker member
    rw [List.mem_singleton.mp member]
    exact le_refl _
  | cons next rest ih =>
    intro worker member
    unfold PlacementPolicy.least
    split
    · rename_i sooner
      rcases List.mem_cons.mp member with rfl | later
      · exact (ih next next List.mem_cons_self).trans ((faithful _ _).mp sooner).le
      · exact ih next worker later
    · rename_i notSooner
      have atMost : key best ≤ key next := not_lt.mp fun less => notSooner ((faithful _ _).mpr less)
      rcases List.mem_cons.mp member with rfl | later
      · exact ih _ _ List.mem_cons_self
      · rcases List.mem_cons.mp later with rfl | later
        · exact (ih best best List.mem_cons_self).trans atMost
        · exact ih best worker (List.mem_cons_of_mem _ later)

/-- A ranking that goes by the conditions and the key of a policy. -/
structure Ranks (ranking : Ranking) (workers : List WorkerState) (Eligible : WorkerState → Prop)
    (key : WorkerState → Standing) : Prop where
  exact_ : ∀ worker, worker ∈ ranking.eligible ↔ worker ∈ workers ∧ Eligible worker
  faithful : ∀ a b, ranking.before a b = true ↔ key a < key b
  scored : ∀ worker, ranking.score worker = (ofLex (key worker)).1
  accounts : (ranking.eligible.map WorkerState.workerId ++ ranking.rejected.keys).Perm
    (workers.map WorkerState.workerId)

theorem decide_none (nothing : ranking.eligible = []) : ranking.decide = .error (.noneEligible ranking.rejected) := by
  unfold decide
  rw [nothing]

theorem decide_some (something : ranking.eligible ≠ []) : ∃ d, ranking.decide = .ok d ∧
    d.candidates = ranking.eligible.map WorkerState.workerId ∧ d.rejected = ranking.rejected ∧
    d.scores = .ofValues WorkerState.workerId ranking.score ranking.eligible ∧
    ∃ first rest, ranking.eligible = first :: rest ∧
      d.selectedWorkerId = (PlacementPolicy.least ranking.before first rest).workerId := by
  unfold decide
  cases listed : ranking.eligible with
  | nil => exact absurd listed something
  | cons first rest => exact ⟨_, rfl, rfl, rfl, rfl, first, rest, rfl, rfl⟩

end Ranking

namespace RoutingChoice

variable {choice : RoutingChoice} {r : RequestRecord} {workers workers' : List WorkerState} {ranking : Ranking}
  {d : ScoredDecision}

theorem distinct_byId (distinct : (workers.map WorkerState.workerId).Nodup) :
    ((byId workers).map WorkerState.workerId).Nodup :=
  ((byId_perm workers).map WorkerState.workerId).nodup_iff.mpr distinct

theorem leastQueueDepth_ranks (rounded : Rat → Rat) (distinct : (workers.map WorkerState.workerId).Nodup) :
    (LeastQueueDepthPolicy.rank rounded r workers).Ranks workers ((leastQueueDepth rounded).Eligible r)
      ((leastQueueDepth rounded).key r (LeastQueueDepthPolicy.rank rounded r workers).eligible) where
  exact_ worker := by
    simp [LeastQueueDepthPolicy.rank, filterWorkers, Eligible, mem_byId, warmRejection_eq_none_iff]
  faithful := Ranking.byScore_iff _
  scored _ := rfl
  accounts := (sifted_perm (warmRejection r) (distinct_byId distinct)).trans ((byId_perm workers).map _)

/-- A placement policy whose deadlines all workers meet takes what `_filter` lets through. -/
theorem placement_exact {choice : PlacementChoice} {p : PlacementPolicy} {model : ModelDefinition}
    (found : p.models.definitions.get? r.modelId = some model) (timely : ∀ worker, choice.Timely p r model worker)
    (worker : WorkerState) : worker ∈ (byId workers).filter (fun worker => (p.rejection r model worker).isNone) ↔
      worker ∈ workers ∧ (placement choice p).Eligible r worker := by
  simp [Eligible, mem_byId, rejection_eq_none_iff, found, timely]

theorem placement_key {choice : PlacementChoice} {p : PlacementPolicy} {model : ModelDefinition}
    (found : p.models.definitions.get? r.modelId = some model) (eligible : List WorkerState) :
    (placement choice p).key r eligible = choice.key p r model eligible := by
  simp only [key, found]

/-- What meets no deadline joins what the filter rejected. -/
theorem late_perm {rejected : Dict String String} {filtered : List WorkerState} {feasible : WorkerState → Bool}
    (distinct : (filtered.map WorkerState.workerId).Nodup)
    (apart : ∀ worker ∈ filtered, worker.workerId ∉ rejected.keys) :
    ((filtered.filter feasible).map WorkerState.workerId ++
      ((filtered.filter fun worker => feasible worker = false).foldl
        (fun rejected worker => rejected.insert worker.workerId "deadline_not_feasible") rejected).keys).Perm
      (filtered.map WorkerState.workerId ++ rejected.keys) := by
  have late : ((filtered.filter fun worker => feasible worker = false).foldl
      (fun rejected worker => rejected.insert worker.workerId "deadline_not_feasible") rejected).keys =
      rejected.keys ++ (filtered.filter fun worker => feasible worker = false).map WorkerState.workerId := by
    have kept := Dict.keys_foldl_notes (fun _ => some "deadline_not_feasible")
      (distinct.sublist (List.filter_sublist.map WorkerState.workerId) :
        ((filtered.filter fun worker => feasible worker = false).map WorkerState.workerId).Nodup)
      fun worker member => apart worker (List.mem_filter.mp member).1
    simpa using kept
  have parts : ((filtered.filter feasible).map WorkerState.workerId ++
      (filtered.filter fun worker => feasible worker = false).map WorkerState.workerId).Perm
      (filtered.map WorkerState.workerId) := by
    rw [← List.map_append]
    refine List.Perm.map _ ?_
    simpa using List.filter_append_perm feasible filtered
  rw [late]
  refine ((@List.perm_append_comm _ rejected.keys _).append_left _).trans ?_
  rw [← List.append_assoc]
  exact parts.append_right _

theorem estimatedCompletionTime_ranks {e : CompletionEstimate} {clock : String → Seconds} {p : PlacementPolicy}
    {model : ModelDefinition} (found : p.models.definitions.get? r.modelId = some model)
    (distinct : (workers.map WorkerState.workerId).Nodup) :
    ∃ ranking, EstimatedCompletionTimePolicy.rank e p clock r workers = .ok ranking ∧
      ranking.Ranks workers ((placement (.estimatedCompletionTime e clock) p).Eligible r)
        ((placement (.estimatedCompletionTime e clock) p).key r ranking.eligible) := by
  have sifted := PlacementPolicy.sift_registered workers found
  have perm := sifted_perm (p.rejection r model) (distinct_byId distinct)
  refine ⟨_, by rw [EstimatedCompletionTimePolicy.rank, sifted], ?_⟩
  rw [placement_key found]
  have apart := List.nodup_append.mp (perm.nodup_iff.mpr (distinct_byId distinct))
  constructor
  · intro worker
    have timely : e.feasible p r model worker (clock worker.workerId) = true ↔
        (PlacementChoice.estimatedCompletionTime e clock).Timely p r model worker := by
      unfold CompletionEstimate.feasible PlacementChoice.Timely
      cases r.deadline with
      | infinite => simp
      | finite deadline => simp
    simp [Eligible, mem_byId, rejection_eq_none_iff, found, timely, and_comm]
  · exact Ranking.byScore_iff _
  · exact fun _ => rfl
  · refine (late_perm apart.1 fun worker member inside => ?_).trans (perm.trans ((byId_perm workers).map _))
    exact apart.2.2 _ (List.mem_map_of_mem member) _ inside rfl

/-- With the model registered, every policy ranks the workers by its conditions and its key. -/
theorem registered_ranks (registered : choice.Registered r) (distinct : (workers.map WorkerState.workerId).Nodup) :
    ∃ ranking, choice.rank r workers = .ok ranking ∧
      ranking.Ranks workers (choice.Eligible r) (choice.key r ranking.eligible) := by
  cases choice with
  | leastQueueDepth rounded => exact ⟨_, rfl, leastQueueDepth_ranks rounded distinct⟩
  | placement choice p =>
    obtain ⟨model, found⟩ := registered
    have sifted := PlacementPolicy.sift_registered workers found
    have perm := (sifted_perm (p.rejection r model) (distinct_byId distinct)).trans
      ((byId_perm workers).map WorkerState.workerId)
    cases choice with
    | modelResidencyAware =>
      refine ⟨_, by rw [rank, PlacementChoice.rank, ModelResidencyAwarePolicy.rank, sifted], ?_⟩
      refine ⟨placement_exact found fun _ => trivial, fun a b => ?_, fun worker => ?_, perm⟩
      · rw [placement_key found]
        simp only [PlacementChoice.key, standing, Prod.Lex.lt_iff]
        split_ifs <;> simp
      · rw [placement_key found]
        simp only [PlacementChoice.key, standing]
        split_ifs <;> rfl
    | memoryAwareLeastLoaded =>
      refine ⟨_, by rw [rank, PlacementChoice.rank, MemoryAwareLeastLoadedPolicy.rank, sifted], ?_⟩
      rw [placement_key found]
      exact ⟨placement_exact found fun _ => trivial, Ranking.byScore_iff _, fun _ => rfl, perm⟩
    | estimatedCompletionTime e clock => exact estimatedCompletionTime_ranks found distinct
    | demandAware d =>
      refine ⟨_, by rw [rank, PlacementChoice.rank, DemandAwarePlacementPolicy.rank, sifted], ?_⟩
      rw [placement_key found]
      exact ⟨placement_exact found fun _ => trivial, Ranking.byScore_iff _, fun _ => rfl, perm⟩

theorem unregistered_rank (missing : ¬choice.Registered r) : choice.rank r workers = .error (.notRegistered r.modelId) := by
  cases choice with
  | leastQueueDepth rounded => exact absurd trivial missing
  | placement choice p =>
    have unknown : p.models.definitions.get? r.modelId = none :=
      Option.eq_none_iff_forall_ne_some.mpr fun model found => missing ⟨model, found⟩
    have sifted := PlacementPolicy.sift_unregistered workers unknown
    cases choice with
    | modelResidencyAware => rw [rank, PlacementChoice.rank, ModelResidencyAwarePolicy.rank, sifted]
    | memoryAwareLeastLoaded => rw [rank, PlacementChoice.rank, MemoryAwareLeastLoadedPolicy.rank, sifted]
    | estimatedCompletionTime e clock => rw [rank, PlacementChoice.rank, EstimatedCompletionTimePolicy.rank, sifted]
    | demandAware d => rw [rank, PlacementChoice.rank, DemandAwarePlacementPolicy.rank, sifted]

/-- The workers are looked at in the order of their ids, whatever the order they are listed in. -/
theorem rank_perm (same : workers.Perm workers') (distinct : (workers.map WorkerState.workerId).Nodup) :
    choice.rank r workers' = choice.rank r workers := by
  have sorted := byId_eq same distinct
  have filtered : filterWorkers r workers' = filterWorkers r workers := by
    unfold filterWorkers
    rw [sorted]
  have sifted : ∀ p : PlacementPolicy, p.sift r workers' = p.sift r workers := by
    intro p
    cases found : p.models.definitions.get? r.modelId with
    | none => rw [PlacementPolicy.sift_unregistered workers' found, PlacementPolicy.sift_unregistered workers found]
    | some model => rw [PlacementPolicy.sift_registered workers' found, PlacementPolicy.sift_registered workers found, sorted]
  cases choice with
  | leastQueueDepth rounded => simp only [rank, LeastQueueDepthPolicy.rank, filtered]
  | placement choice p =>
    cases choice with
    | modelResidencyAware => simp only [rank, PlacementChoice.rank, ModelResidencyAwarePolicy.rank, sifted]
    | memoryAwareLeastLoaded => simp only [rank, PlacementChoice.rank, MemoryAwareLeastLoadedPolicy.rank, sifted]
    | estimatedCompletionTime e clock =>
      simp only [rank, PlacementChoice.rank, EstimatedCompletionTimePolicy.rank, sifted]
    | demandAware d => simp only [rank, PlacementChoice.rank, DemandAwarePlacementPolicy.rank, sifted]

/-- A ranking decides for the least of its workers. -/
theorem settles_of_ranks (ranked : choice.rank r workers = .ok ranking)
    (ranks : ranking.Ranks workers (choice.Eligible r) (choice.key r ranking.eligible))
    (distinct : (workers.map WorkerState.workerId).Nodup) (something : ranking.eligible ≠ []) :
    ∃ d, choice.select r workers = .ok d ∧ Settles choice r workers d := by
  obtain ⟨d, decided, candidates, rejected, scores, first, rest, listed, selected⟩ := ranking.decide_some something
  refine ⟨d, by rw [select, ranked]; exact decided, ⟨ranking.eligible, ranks.exact_, candidates, ?_⟩, ?_⟩
  · have apart : (ranking.eligible.map WorkerState.workerId).Nodup :=
      (List.nodup_append.mp (ranks.accounts.nodup_iff.mpr distinct)).1
    refine ⟨PlacementPolicy.least ranking.before first rest, ?_, selected.symm, fun worker member => ⟨?_, ?_⟩⟩
    · rw [listed]
      exact PlacementPolicy.least_mem _ _ _
    · exact Ranking.least_le ranks.faithful first rest worker (listed ▸ member)
    · rw [scores, Dict.get?_ofValues_of_mem apart member, ranks.scored]
  · rw [candidates, rejected]
    exact ranks.accounts

/-- A placement policy knows only registered models. With one, it selects
the least eligible worker of all or, where there is none, says why not; the
order in which the workers are listed does not matter. -/
theorem selects_least_eligible (choice : RoutingChoice) (r : RequestRecord) {workers : List WorkerState}
    (distinct : (workers.map WorkerState.workerId).Nodup) :
    (¬choice.Registered r → choice.select r workers = .error (.notRegistered r.modelId)) ∧
    (choice.Registered r →
      ((∃ rejected, choice.select r workers = .error (.noneEligible rejected)) ↔
        ∀ worker ∈ workers, ¬choice.Eligible r worker) ∧
      ((∃ worker ∈ workers, choice.Eligible r worker) →
        ∃ d, choice.select r workers = .ok d ∧ Settles choice r workers d)) ∧
    ∀ workers', workers.Perm workers' → choice.select r workers' = choice.select r workers := by
  refine ⟨fun missing => ?_, fun registered => ?_, fun workers' same => ?_⟩
  · rw [select, unregistered_rank missing]
    rfl
  · obtain ⟨ranking, ranked, ranks⟩ := registered_ranks registered distinct
    refine ⟨⟨?_, fun none => ?_⟩, ?_⟩
    · rintro ⟨rejected, refused⟩ worker member eligible
      have something : ranking.eligible ≠ [] := List.ne_nil_of_mem ((ranks.exact_ worker).mpr ⟨member, eligible⟩)
      obtain ⟨d, decided, -⟩ := settles_of_ranks ranked ranks distinct something
      rw [decided] at refused
      cases refused
    · have nothing : ranking.eligible = [] := List.eq_nil_iff_forall_not_mem.mpr fun worker member =>
        none worker ((ranks.exact_ worker).mp member).1 ((ranks.exact_ worker).mp member).2
      exact ⟨ranking.rejected, by rw [select, ranked]; exact ranking.decide_none nothing⟩
    · rintro ⟨worker, member, eligible⟩
      exact settles_of_ranks ranked ranks distinct (List.ne_nil_of_mem ((ranks.exact_ worker).mpr ⟨member, eligible⟩))
  · rw [select, select, rank_perm same distinct]

namespace Sample

open TenantAdmissionController.Sample

def warm : WorkerState := { worker with
  workerId := "warm"
  residentModels := ["model"] }

/-- No model is registered yet. -/
def policy : PlacementPolicy :=
  ⟨⟨.empty, fun _ => ⟨.simulated, 30⟩, fun _ _ found => (nomatch found),
      fun _ _ found => (nomatch found)⟩,
    fun _ => ⟨.simulatedGpu, 0⟩, 50, id⟩

end Sample

open Sample TenantAdmissionController.Sample in
theorem selects_least_eligible_warm : ∃ d, (leastQueueDepth id).select request [worker, warm] = .ok d ∧
    Settles (leastQueueDepth id) request [worker, warm] d := by
  have fits : (leastQueueDepth id).Eligible request warm := ⟨⟨rfl, rfl, by decide⟩, by decide⟩
  exact ((selects_least_eligible (leastQueueDepth id) request (by decide)).2.1 trivial).2
    ⟨warm, List.mem_cons_of_mem _ List.mem_cons_self, fits⟩

open Sample TenantAdmissionController.Sample in
/-- `LeastQueueDepthPolicy` wants the model to be resident as well, and a
placement policy raises another error where the model is not registered. -/
theorem accepting_worker_rejected : worker.Accepting ∧
    (∃ rejected, (leastQueueDepth id).select request [worker] = .error (.noneEligible rejected) ∧
      rejected.get? "worker" = some "model_not_resident") ∧
    (placement .modelResidencyAware policy).select request [] = .error (.notRegistered "model") :=
  ⟨⟨rfl, rfl, by decide⟩, ⟨_, rfl, rfl⟩, rfl⟩

end RoutingChoice

theorem Ranking.decision_eq (ranking : Ranking) :
    PlacementPolicy.decision ranking.policy ranking.eligible ranking.rejected ranking.before =
      match ranking.decide with
      | .ok d => .ok d.toRoutingDecision
      | .error refusal => .error refusal.raised := by
  unfold PlacementPolicy.decision decide
  cases ranking.eligible <;> rfl

/-- `select` decides by the ranking that the whole decision is made from. -/
theorem PlacementChoice.select_cases (choice : PlacementChoice) (p : PlacementPolicy) (r : RequestRecord)
    (workers : List WorkerState) :
    (choice.rank p r workers = .error (.notRegistered r.modelId) ∧
      choice.select p r workers = .error (unknownModel r.modelId)) ∨
    ∃ ranking, choice.rank p r workers = .ok ranking ∧ choice.select p r workers =
      PlacementPolicy.decision ranking.policy ranking.eligible ranking.rejected ranking.before := by
  rcases p.filter_cases r workers with ⟨raised, refused⟩ | ⟨model, eligible, rejected, filtered, -⟩
  · have named : raised = unknownModel r.modelId := by
      unfold PlacementPolicy.filter at refused
      split at refused
      · exact (Except.error.inj refused).symm
      · cases refused
    have sifted : p.sift r workers = .error (.notRegistered r.modelId) := by rw [PlacementPolicy.sift, refused]
    subst named
    refine Or.inl ?_
    cases choice with
    | modelResidencyAware =>
      exact ⟨by rw [rank, ModelResidencyAwarePolicy.rank, sifted], by rw [select, ModelResidencyAwarePolicy.select, refused]⟩
    | memoryAwareLeastLoaded =>
      exact ⟨by rw [rank, MemoryAwareLeastLoadedPolicy.rank, sifted],
        by rw [select, MemoryAwareLeastLoadedPolicy.select, refused]⟩
    | estimatedCompletionTime e clock =>
      exact ⟨by rw [rank, EstimatedCompletionTimePolicy.rank, sifted],
        by rw [select, EstimatedCompletionTimePolicy.select, refused]⟩
    | demandAware d =>
      exact ⟨by rw [rank, DemandAwarePlacementPolicy.rank, sifted], by rw [select, DemandAwarePlacementPolicy.select, refused]⟩
  · have sifted : p.sift r workers = .ok (model, eligible, rejected) := by rw [PlacementPolicy.sift, filtered]
    refine Or.inr ?_
    cases choice with
    | modelResidencyAware =>
      exact ⟨_, by rw [rank, ModelResidencyAwarePolicy.rank, sifted],
        by rw [select, ModelResidencyAwarePolicy.select, filtered]⟩
    | memoryAwareLeastLoaded =>
      exact ⟨_, by rw [rank, MemoryAwareLeastLoadedPolicy.rank, sifted],
        by rw [select, MemoryAwareLeastLoadedPolicy.select, filtered]⟩
    | estimatedCompletionTime e clock =>
      exact ⟨_, by rw [rank, EstimatedCompletionTimePolicy.rank, sifted],
        by rw [select, EstimatedCompletionTimePolicy.select, filtered]⟩
    | demandAware d =>
      exact ⟨_, by rw [rank, DemandAwarePlacementPolicy.rank, sifted],
        by rw [select, DemandAwarePlacementPolicy.select, filtered]; rfl⟩

/-- What a placement policy decides is what the control plane acts on. -/
theorem PlacementChoice.select_eq (choice : PlacementChoice) (p : PlacementPolicy) (r : RequestRecord)
    (workers : List WorkerState) : choice.select p r workers =
      match (RoutingChoice.placement choice p).select r workers with
      | .ok d => .ok d.toRoutingDecision
      | .error refusal => .error refusal.raised := by
  rcases choice.select_cases p r workers with ⟨ranked, selected⟩ | ⟨ranking, ranked, selected⟩
  · rw [selected, RoutingChoice.select, RoutingChoice.rank, ranked]
    rfl
  · rw [selected, RoutingChoice.select, RoutingChoice.rank, ranked]
    exact ranking.decision_eq

end ServingPlatform
