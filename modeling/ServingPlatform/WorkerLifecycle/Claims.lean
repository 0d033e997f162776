import ServingPlatform.Library.Ownership
import ServingPlatform.WorkerLifecycle.Sections

namespace ServingPlatform

namespace CallPlace

/-- The model that a call is loading and has not published or given up. -/
def bringing : CallPlace → List String
  | .evicting load .. | .checking load | .adding load | .warming load | .publishing load | .recovering load ..
  | .restoring load .. => [load.model.modelId]
  | _ => []

/-- The models that a call has withdrawn, and has neither unloaded nor put back. -/
def removing : CallPlace → List String
  | .evicting _ _ rest => rest.map Prod.fst
  | .recovering load unloaded _ => (load.evictions.map Prod.fst).filter (· ∉ unloaded.map Prod.fst)
  | .restoring _ unloaded rest _ => (rest.map Prod.fst).filter (· ∉ unloaded.map Prod.fst)
  | .unloading modelId _ | .puttingBack modelId _ => [modelId]
  | _ => []

def owned (place : CallPlace) : List String := place.bringing ++ place.removing

/-- The model for which a call has an entry among the models being loaded. -/
def loads : CallPlace → Option String
  | .evicting load .. | .checking load | .adding load | .warming load | .publishing load | .recovering load ..
  | .restoring load .. | .closing load _ => some load.model.modelId
  | _ => none

/-- The models of a load are all different. -/
def distinctModels (load : ModelLoad) (evictions : List (String × ModelDefinition)) : Prop :=
  (load.model.modelId :: evictions.map Prod.fst).Nodup

/-- What a place's own data say; `shutdown` has not begun. -/
def Coherent : CallPlace → Prop
  | .waiting model entered => entered.accepting = true ∧ model.modelId ∉ entered.residentModels ∧
      model.modelId ∈ entered.loadingModels
  | .evicting load unloaded rest => load.evictions = unloaded ++ rest ∧ distinctModels load load.evictions
  | .checking load | .adding load | .warming load | .publishing load | .recovering load .. =>
      distinctModels load load.evictions
  | .restoring load _ rest _ => distinctModels load rest
  | .stopping .. | .unregistering .. => False
  | _ => True

theorem loads_of_bringing {place : CallPlace} {modelId : String} (brings : modelId ∈ place.bringing) :
    place.loads = some modelId := by
  cases place <;> first | exact absurd brings List.not_mem_nil | exact congrArg some (List.mem_singleton.mp brings).symm

theorem filter_unloaded {unloaded rest : List (String × ModelDefinition)}
    (distinct : ((unloaded ++ rest).map Prod.fst).Nodup) :
    ((unloaded ++ rest).map Prod.fst).filter (· ∉ unloaded.map Prod.fst) = rest.map Prod.fst := by
  rw [List.map_append] at distinct ⊢
  obtain ⟨-, -, apart⟩ := List.nodup_append.mp distinct
  have gone : (unloaded.map Prod.fst).filter (· ∉ unloaded.map Prod.fst) = [] :=
    List.filter_eq_nil_iff.mpr fun x member => by simpa using member
  have kept : (rest.map Prod.fst).filter (· ∉ unloaded.map Prod.fst) = rest.map Prod.fst :=
    List.filter_eq_self.mpr fun x member => by
      simp only [decide_not, Bool.not_eq_eq_eq_not, Bool.not_true, decide_eq_false_iff_not]
      exact fun inside => apart x inside x member rfl
  rw [List.filter_append, gone, kept, List.nil_append]

end CallPlace

namespace WorkerHost

variable {ρ : Type} {runtime : ModelRuntime ρ} {h : WorkerHost ρ} {entered : ManagedWorker} {model : ModelDefinition}
  {readings : WorkerReadings}

/-- What a section leaves alone of a worker's requests. -/
def requestState (h : WorkerHost ρ) : List ObjectId × Dict String Int × Objects :=
  (h.worker.queue, h.worker.activeRequestsByModel, h.objects)

/-- A load goes ahead with evictions planned on the worker as it is, or ends at once. -/
theorem goAhead_cases (runtime : ModelRuntime ρ) (readings : WorkerReadings) (joins : entered = h.worker ∨
      entered.accepting = true ∧ model.modelId ∉ entered.residentModels ∧ model.modelId ∈ entered.loadingModels) :
    (∃ outcome w, h.goAhead runtime entered model readings = (outcome, h.setWorker w) ∧
        (∀ place, outcome ≠ .proceeds place) ∧ w.modelState = h.worker.modelState ∧
        (h.setWorker w).requestState = h.requestState ∧ w.health = h.worker.health) ∨
      ∃ evictions attempt w capacity,
        h.goAhead runtime entered model readings = (.proceeds (.evicting ⟨model, evictions, attempt⟩ [] evictions), h.setWorker w) ∧
        entered.accepting = true ∧ model.modelId ∉ h.worker.residentModels ∧
        h.worker.planEvictions h.objects model capacity = .ok evictions ∧
        w.residentModels = (h.worker.residentModels.filter fun modelId => evictions.all fun e => modelId ≠ e.1) ∧
        w.loadingModels = h.worker.loadingModels.insert model.modelId ∧
        (h.setWorker w).requestState = h.requestState ∧ w.health = h.worker.health := by
  unfold goAhead
  rcases ManagedWorker.beginLoad_cases h.objects (h.loadAnswers runtime readings) joins with ⟨raised, run⟩ | ⟨-, run⟩ |
    ⟨capacity, evictions, accepts, absent, -, planned, run⟩
  · rw [run]
    exact Or.inl ⟨_, _, rfl, fun _ same => (by cases same), rfl, rfl, rfl⟩
  · rw [run]
    exact Or.inl ⟨_, _, rfl, fun _ same => (by cases same), rfl, rfl, rfl⟩
  · rw [run]
    exact Or.inr ⟨_, _, _, capacity, rfl, accepts, absent, planned, rfl, rfl, rfl, rfl⟩

end WorkerHost

namespace WorkerSystem

open CallPlace Exclusive

variable {ρ : Type} {runtime : ModelRuntime ρ} {idleEvictionSeconds : ModelDefinition → Seconds} {s s' : WorkerSystem ρ}
  {call : Nat} {h : WorkerHost ρ} {outcome : CallOutcome} {place old : CallPlace} {readings : WorkerReadings}
  {action : WorkerAction}

/-- No call in flight has withdrawn the model and still has to unload it or put it back. -/
def NotRemoved (s : WorkerSystem ρ) (modelId : String) : Prop :=
  ∀ c place, s.calls.get? c = some place → modelId ∉ place.removing

/-- Loads keep away from models in other hands: none goes ahead for a model that
is being removed, and the handler of a failed load puts back no model that
another call is loading or removing. -/
def Careful (runtime : ModelRuntime ρ) (s : WorkerSystem ρ) : WorkerAction → Prop
  | .start _ (.loadModel model) _ => s.host.worker.accepting = true → model.modelId ∉ s.host.worker.residentModels →
      model.modelId ∉ s.host.worker.loadingModels → s.NotRemoved model.modelId
  | .advance call readings => ∀ place, s.calls.get? call = some place →
    match place with
    | .waiting model _ => model.modelId ∉ s.host.worker.residentModels → model.modelId ∉ s.host.worker.loadingModels →
        s.NotRemoved model.modelId
    | .restoring _ _ (e :: _) _ => readings.call (runtime.isModelLoaded s.host.runtime e.1) = .ok true →
        OnlyBy owned s.calls call e.1
    | _ => True
  | _ => True

/-- The worker is not shut down. -/
def Serving : WorkerAction → Prop
  | .start _ .shutdown _ => False
  | _ => True

/-- Every model is in the hands of one call at most, and a resident model in none. -/
structure Claims (s : WorkerSystem ρ) : Prop where
  exclusive : Exclusive owned s.calls s.host.worker.residentModels
  distinct : s.host.worker.residentModels.Nodup
  coherent : ∀ {c place}, s.calls.get? c = some place → place.Coherent
  loading : ∀ {c place modelId}, s.calls.get? c = some place → place.loads = some modelId →
    modelId ∈ s.host.worker.loadingModels
  single : ∀ {c d place place' modelId}, s.calls.get? c = some place → s.calls.get? d = some place' →
    place.loads = some modelId → place'.loads = some modelId → c = d

/-- A place at which a call may stand next. -/
structure Placed (s : WorkerSystem ρ) (call : Nat) (h : WorkerHost ρ) (place : CallPlace) : Prop where
  coherent : place.Coherent
  nodup : place.owned.Nodup
  owned : ∀ x ∈ place.owned, OnlyBy owned s.calls call x ∧ x ∉ h.worker.residentModels
  loads : ∀ {modelId}, place.loads = some modelId → modelId ∈ h.worker.loadingModels ∧
    ∀ d place', s.calls.get? d = some place' → d ≠ call → place'.loads ≠ some modelId

/-- What a section of a call may leave behind. -/
structure Sound (s : WorkerSystem ρ) (call : Nat) (result : CallOutcome × WorkerHost ρ) : Prop where
  distinct : result.2.worker.residentModels.Nodup
  free : ∀ x ∈ result.2.worker.residentModels, OnlyBy CallPlace.owned s.calls call x
  loading : ∀ {d place modelId}, s.calls.get? d = some place → d ≠ call → place.loads = some modelId →
    modelId ∈ result.2.worker.loadingModels
  place : ∀ {place}, result.1 = .proceeds place → Placed s call result.2 place

theorem Claims.start (fresh : s.Fresh) : Claims s where
  exclusive := by
    rw [fresh.calls]
    exact Exclusive.start
  distinct := by
    rw [fresh.residentModels]
    exact List.nodup_nil
  coherent found := by
    rw [fresh.calls] at found
    cases found
  loading found := by
    rw [fresh.calls] at found
    cases found
  single found := by
    rw [fresh.calls] at found
    cases found

theorem Claims.settle (claims : s.Claims) {result : CallOutcome × WorkerHost ρ} (sound : Sound s call result) :
    (s.settle call result).Claims := by
  have ended : Claims ⟨result.2, s.calls.erase call⟩ := by
    have found_erase : ∀ {c place}, (s.calls.erase call).get? c = some place → c ≠ call ∧ s.calls.get? c = some place := by
      intro c place found
      rw [Dict.get?_erase] at found
      split at found
      · cases found
      · rename_i differ
        exact ⟨differ, found⟩
    refine ⟨claims.exclusive.drop sound.free, sound.distinct, ?_, ?_, ?_⟩
    · exact fun found => claims.coherent (found_erase found).2
    · exact fun found => sound.loading (found_erase found).2 (found_erase found).1
    · exact fun first second => claims.single (found_erase first).2 (found_erase second).2
  obtain ⟨outcome, h⟩ := result
  cases outcome with
  | returns => exact ended
  | raises raised => exact ended
  | proceeds place =>
    have placed := sound.place rfl
    refine ⟨claims.exclusive.put placed.nodup (fun x inside => (placed.owned x inside).1) fun x unowned =>
      ⟨fun inside => (placed.owned x inside).2 unowned, sound.free x unowned⟩, sound.distinct, ?_, ?_, ?_⟩
    · intro c place' found
      change (s.calls.insert call place).get? c = some place' at found
      rw [Dict.get?_insert] at found
      split at found
      · cases found
        exact placed.coherent
      · exact claims.coherent found
    · intro c place' modelId found loads
      change (s.calls.insert call place).get? c = some place' at found
      rw [Dict.get?_insert] at found
      split at found
      · cases found
        exact (placed.loads loads).1
      · rename_i differ
        exact sound.loading found differ loads
    · intro c d first second modelId found found' loads loads'
      change (s.calls.insert call place).get? c = some first at found
      change (s.calls.insert call place).get? d = some second at found'
      rw [Dict.get?_insert] at found found'
      split at found <;> split at found'
      · rename_i here there
        exact here.trans there.symm
      · rename_i there
        cases found
        exact absurd loads' ((placed.loads loads).2 d second found' there)
      · rename_i here _
        cases found'
        exact absurd loads ((placed.loads loads').2 c first found here)
      · exact claims.single found found' loads loads'

section Sections

variable (claims : s.Claims)

include claims

/-- A section that changes nothing about the models, and a place that owns none. -/
theorem Sound.of_calm {result : CallOutcome × WorkerHost ρ} (same : result.2.worker.modelState = s.host.worker.modelState)
    (idle : ∀ {place}, result.1 = .proceeds place → place.Coherent ∧ place.owned = [] ∧ place.loads = none) :
    Sound s call result := by
  have resident : result.2.worker.residentModels = s.host.worker.residentModels := congrArg Prod.fst same
  have loading : result.2.worker.loadingModels = s.host.worker.loadingModels := congrArg Prod.snd same
  refine ⟨?_, ?_, ?_, ?_⟩
  · rw [resident]
    exact claims.distinct
  · rw [resident]
    exact fun x unowned => claims.exclusive.onlyBy_of_free unowned
  · rw [loading]
    exact fun found _ loads => claims.loading found loads
  · intro place proceeds
    obtain ⟨coherent, none, quiet⟩ := idle proceeds
    refine ⟨coherent, ?_, ?_, ?_⟩
    · rw [none]
      exact List.nodup_nil
    · rw [none]
      exact fun x inside => by cases inside
    · intro modelId loads
      rw [quiet] at loads
      cases loads

/-- A call goes on with what it owns, or with less; what becomes resident was its own or in nobody's hands. -/
theorem Sound.of_fewer (found : s.calls.get? call = some old) (coherent : place.Coherent)
    (fewer : place.owned.Sublist old.owned) (loads : place.loads = old.loads) (distinct : h.worker.residentModels.Nodup)
    (free : ∀ x ∈ h.worker.residentModels, OnlyBy owned s.calls call x ∧ x ∉ place.owned)
    (loading : h.worker.loadingModels = s.host.worker.loadingModels) : Sound s call (.proceeds place, h) := by
  refine ⟨distinct, fun x unowned => (free x unowned).1, ?_, ?_⟩
  · rw [loading]
    exact fun known _ others => claims.loading known others
  · rintro _ ⟨⟩
    refine ⟨coherent, (claims.exclusive.nodup found).sublist fewer, ?_, ?_⟩
    · exact fun x inside => ⟨claims.exclusive.onlyBy_of_owned found (fewer.subset inside), fun unowned =>
        (free x unowned).2 inside⟩
    · intro modelId own
      rw [loads] at own
      refine ⟨?_, fun d place' known differ others => differ (claims.single known found others own)⟩
      rw [loading]
      exact claims.loading found own

/-- A call goes on, and the models stay as they are. -/
theorem Sound.of_kept (found : s.calls.get? call = some old) (coherent : place.Coherent)
    (fewer : place.owned.Sublist old.owned) (loads : place.loads = old.loads)
    (same : h.worker.modelState = s.host.worker.modelState) : Sound s call (.proceeds place, h) := by
  have resident : h.worker.residentModels = s.host.worker.residentModels := congrArg Prod.fst same
  have loading : h.worker.loadingModels = s.host.worker.loadingModels := congrArg Prod.snd same
  refine Sound.of_fewer claims found coherent fewer loads (by rw [resident]; exact claims.distinct) ?_ loading
  intro x unowned
  rw [resident] at unowned
  exact ⟨claims.exclusive.onlyBy_of_free unowned, fun inside => claims.exclusive.free found x (fewer.subset inside) unowned⟩

/-- A load that goes ahead for a model that is in nobody's hands. -/
theorem Sound.goAhead {entered : ManagedWorker} {model : ModelDefinition} (joins : entered = s.host.worker ∨
      entered.accepting = true ∧ model.modelId ∉ entered.residentModels ∧ model.modelId ∈ entered.loadingModels)
    (unloaded : entered.accepting = true → model.modelId ∉ s.host.worker.residentModels →
      model.modelId ∉ s.host.worker.loadingModels ∧ s.NotRemoved model.modelId) :
    Sound s call (s.host.goAhead runtime entered model readings) := by
  rcases s.host.goAhead_cases runtime readings joins with
    ⟨outcome, w, run, ends, same, -⟩ | ⟨evictions, attempt, w, capacity, run, accepts, absent, planned, resident, loading, -⟩
  · rw [run]
    exact Sound.of_calm claims same fun proceeds => absurd proceeds (ends _)
  obtain ⟨quiet, apart⟩ := unloaded accepts absent
  obtain ⟨distinct, chosen⟩ := ManagedWorker.planEvictions_spec planned claims.distinct
  rw [run]
  have fewer : ∀ x ∈ w.residentModels, x ∈ s.host.worker.residentModels ∧ ∀ e ∈ evictions, x ≠ e.1 := by
    intro x member
    rw [resident] at member
    obtain ⟨inside, kept⟩ := List.mem_filter.mp member
    exact ⟨inside, by simpa using kept⟩
  have own : ∀ x ∈ evictions.map Prod.fst, x ∈ s.host.worker.residentModels ∧ x ∉ w.residentModels := by
    intro x member
    obtain ⟨e, inside, rfl⟩ := List.mem_map.mp member
    exact ⟨(chosen e inside).1, fun still => (fewer e.1 still).2 e inside rfl⟩
  have models : distinctModels ⟨model, evictions, attempt⟩ evictions :=
    List.nodup_cons.mpr ⟨fun inside => absent (own _ inside).1, distinct⟩
  refine ⟨?_, fun x unowned => claims.exclusive.onlyBy_of_free (fewer x unowned).1, ?_, ?_⟩
  · change w.residentModels.Nodup
    rw [resident]
    exact claims.distinct.filter _
  · intro d place modelId found _ loads
    change modelId ∈ w.loadingModels
    rw [loading]
    exact List.mem_insert_of_mem (claims.loading found loads)
  · rintro _ ⟨⟩
    refine ⟨⟨rfl, models⟩, models, ?_, ?_⟩
    · intro x inside
      rcases List.mem_cons.mp inside with rfl | evicted
      · refine ⟨fun d place found _ owns => ?_, fun still => absent (fewer _ still).1⟩
        rcases List.mem_append.mp owns with brings | removes
        · exact quiet (claims.loading found (loads_of_bringing brings))
        · exact apart d place found removes
      · exact ⟨claims.exclusive.onlyBy_of_free (own x evicted).1, (own x evicted).2⟩
    · rintro _ ⟨⟩
      refine ⟨?_, fun d place found _ loads => quiet (claims.loading found loads)⟩
      change model.modelId ∈ w.loadingModels
      rw [loading]
      exact List.mem_insert_self

/-- The locked part of `unload_model`. -/
theorem Sound.beginUnload (modelId : String) (later : Option (List String)) :
    Sound s call (s.host.beginUnload modelId later) := by
  unfold WorkerHost.beginUnload
  split
  · exact Sound.of_calm claims rfl fun same => by cases same
  split
  · refine Sound.of_calm claims rfl fun same => ?_
    cases later with
    | none => cases same
    | some rest =>
      cases same
      exact ⟨trivial, rfl, rfl⟩
  rename_i resident
  rw [not_not] at resident
  refine ⟨claims.distinct.filter _, ?_, fun found _ loads => claims.loading found loads, ?_⟩
  · exact fun x member => claims.exclusive.onlyBy_of_free (List.mem_filter.mp member).1
  · rintro _ ⟨⟩
    refine ⟨trivial, List.nodup_singleton _, ?_, fun loads => by cases loads⟩
    intro x inside
    obtain rfl := List.mem_singleton.mp inside
    exact ⟨claims.exclusive.onlyBy_of_free resident, fun still => by
      have differ := (List.mem_filter.mp still).2
      simp at differ⟩

/-- A section of a call that loads, unloads or evicts nothing. -/
theorem Sound.atOnce {α : Type} {m : Attempt Raised WorkerProcess α}
    (same : (m s.host.process).2.worker.modelState = s.host.worker.modelState) : Sound s call (s.host.atOnce m) := by
  unfold WorkerHost.atOnce
  rcases run : m s.host.process with ⟨raised | done, process⟩ <;> rw [run] at same <;>
    exact Sound.of_calm claims same fun proceeds => by cases proceeds

theorem Sound.begin {request : WorkerRequest} (careful : Careful runtime s (.start call request readings))
    (serving : Serving (.start call request readings)) :
    Sound s call (s.host.begin runtime idleEvictionSeconds readings request) := by
  cases request with
  | loadModel model =>
    unfold WorkerHost.begin
    dsimp only
    split
    · rename_i joins
      exact Sound.of_calm claims rfl fun same => by
        cases same
        exact ⟨joins, rfl, rfl⟩
    · rename_i alone
      refine Sound.goAhead claims (Or.inl rfl) fun accepts absent => ?_
      have quiet : model.modelId ∉ s.host.worker.loadingModels := fun joined => alone ⟨accepts, absent, joined⟩
      exact ⟨quiet, careful accepts absent quiet⟩
  | unloadModel modelId => exact Sound.beginUnload claims modelId none
  | evictIdleModels =>
    unfold WorkerHost.begin
    dsimp only
    split
    · exact Sound.of_calm claims rfl fun same => by cases same
    · exact Sound.of_calm claims rfl fun same => by
        cases same
        exact ⟨trivial, rfl, rfl⟩
  | enqueueRequest i => exact Sound.atOnce claims (ManagedWorker.enqueueRequest_frame i _ _).1
  | cancelRequest requestId => exact Sound.atOnce claims (ManagedWorker.cancelRequest_frame requestId _ _).1
  | executeBatch =>
    have same := (ManagedWorker.beginBatch_modelState readings.now s.host.process).1
    unfold WorkerHost.begin
    dsimp only
    split
    · rename_i run
      rw [run] at same
      exact Sound.of_calm claims same fun proceeds => by cases proceeds
    · rename_i run
      rw [run] at same
      exact Sound.of_calm claims same fun proceeds => by cases proceeds
    · rename_i run
      rw [run] at same
      exact Sound.of_calm claims same fun proceeds => by
        cases proceeds
        exact ⟨trivial, rfl, rfl⟩
  | register =>
    unfold WorkerHost.begin
    dsimp only
    split
    · exact Sound.of_calm claims rfl fun same => by cases same
    split
    · exact Sound.of_calm claims rfl fun same => by cases same
    · exact Sound.of_calm claims rfl fun same => by cases same
  | drain =>
    unfold WorkerHost.begin
    dsimp only
    split
    · exact Sound.of_calm claims rfl fun same => by cases same
    · exact Sound.of_calm claims rfl fun same => by cases same
  | shutdown => exact serving.elim

/-- The handler of a failed load, for one of the models that were to be evicted. -/
theorem Sound.restore {load : ModelLoad} {unloaded rest : List (String × ModelDefinition)} {e : String × ModelDefinition}
    {raised : Raised} (found : s.calls.get? call = some (.restoring load unloaded (e :: rest) raised))
    (unclaimed : readings.call (runtime.isModelLoaded s.host.runtime e.1) = .ok true → OnlyBy owned s.calls call e.1) :
    Sound s call (s.host.advance runtime readings (.restoring load unloaded (e :: rest) raised)) := by
  have distinct : (load.model.modelId :: e.1 :: rest.map Prod.fst).Nodup := claims.coherent found
  obtain ⟨fresh, once⟩ := List.nodup_cons.mp distinct
  rw [List.mem_cons, not_or] at fresh
  have shorter : distinctModels load rest := List.nodup_cons.mpr ⟨fresh.2, (List.nodup_cons.mp once).2⟩
  have fewer : (CallPlace.restoring load unloaded rest raised).owned.Sublist
      (CallPlace.restoring load unloaded (e :: rest) raised).owned :=
    List.Sublist.append_left ((List.sublist_cons_self e.1 (rest.map Prod.fst)).filter _) _
  unfold WorkerHost.advance
  dsimp only
  split
  · exact Sound.of_kept claims found trivial (List.nil_sublist _) rfl rfl
  · rename_i loaded
    refine Sound.of_fewer claims found shorter fewer rfl (claims.distinct.insert) ?_ rfl
    intro x member
    rcases List.mem_insert_iff.mp member with rfl | before
    · refine ⟨unclaimed loaded, fun inside => ?_⟩
      rcases List.mem_append.mp inside with brings | removes
      · exact fresh.1 (List.mem_singleton.mp brings).symm
      · exact (List.nodup_cons.mp once).1 (List.mem_filter.mp removes).1
    · exact ⟨claims.exclusive.onlyBy_of_free before, fun inside =>
        claims.exclusive.free found x (fewer.subset inside) before⟩
  · exact Sound.of_kept claims found shorter fewer rfl rfl

/-- A model that a call owns becomes resident, and the call owns nothing any more. -/
theorem Sound.publish {modelId : String} (found : s.calls.get? call = some old) (owns : modelId ∈ old.owned)
    (resident : h.worker.residentModels = s.host.worker.residentModels.insert modelId)
    (loading : h.worker.loadingModels = s.host.worker.loadingModels)
    (next : ∀ {place}, outcome = .proceeds place → place.Coherent ∧ place.owned = [] ∧ place.loads = old.loads) :
    Sound s call (outcome, h) := by
  have free : ∀ x ∈ h.worker.residentModels, OnlyBy owned s.calls call x := by
    intro x member
    rw [resident] at member
    rcases List.mem_insert_iff.mp member with rfl | before
    · exact claims.exclusive.onlyBy_of_owned found owns
    · exact claims.exclusive.onlyBy_of_free before
  have distinct : h.worker.residentModels.Nodup := by
    rw [resident]
    exact claims.distinct.insert
  cases outcome with
  | proceeds place =>
    obtain ⟨coherent, none, loads⟩ := next rfl
    refine Sound.of_fewer claims found coherent ?_ loads distinct (fun x member => ⟨free x member, ?_⟩) loading
    · rw [none]
      exact List.nil_sublist _
    · rw [none]
      exact List.not_mem_nil
  | returns =>
    refine ⟨distinct, free, ?_, fun same => by cases same⟩
    rw [loading]
    exact fun known _ loads => claims.loading known loads
  | raises raised =>
    refine ⟨distinct, free, ?_, fun same => by cases same⟩
    rw [loading]
    exact fun known _ loads => claims.loading known loads

/-- A call lets go of all that it owns, after its model is no longer among those being loaded, if it was. -/
theorem Sound.ended (resident : h.worker.residentModels = s.host.worker.residentModels)
    (loading : ∀ {d place modelId}, s.calls.get? d = some place → d ≠ call → place.loads = some modelId →
      modelId ∈ h.worker.loadingModels)
    (next : ∀ {place}, outcome = .proceeds place → place.Coherent ∧ place.owned = [] ∧ place.loads = none) :
    Sound s call (outcome, h) := by
  refine ⟨?_, ?_, loading, ?_⟩
  · rw [resident]
    exact claims.distinct
  · rw [resident]
    exact fun x unowned => claims.exclusive.onlyBy_of_free unowned
  · intro place proceeds
    obtain ⟨coherent, none, quiet⟩ := next proceeds
    refine ⟨coherent, ?_, ?_, ?_⟩
    · rw [none]
      exact List.nodup_nil
    · rw [none]
      exact fun x inside => by cases inside
    · intro modelId loads
      rw [quiet] at loads
      cases loads

theorem Sound.advance (found : s.calls.get? call = some old) (careful : Careful runtime s (.advance call readings)) :
    Sound s call (s.host.advance runtime readings old) := by
  have coherent := claims.coherent found
  have known : ∀ {d place modelId}, s.calls.get? d = some place → d ≠ call → place.loads = some modelId →
      modelId ∈ s.host.worker.loadingModels := fun other _ loads => claims.loading other loads
  cases old with
  | waiting model entered =>
    unfold WorkerHost.advance
    dsimp only
    split
    · exact Sound.of_kept claims found coherent (List.Sublist.refl _) rfl rfl
    · rename_i quiet
      exact Sound.goAhead claims (Or.inr coherent) fun _ absent => ⟨quiet, careful _ found absent quiet⟩
  | evicting load unloaded rest =>
    obtain ⟨split, distinct⟩ := coherent
    cases rest with
    | nil => exact Sound.of_kept claims found distinct (List.Sublist.refl _) rfl rfl
    | cons e rest =>
      have models : ((unloaded ++ e :: rest).map Prod.fst).Nodup := by
        rw [← split]
        exact (List.nodup_cons.mp distinct).2
      unfold WorkerHost.advance
      dsimp only
      split
      · refine Sound.of_kept claims found distinct ?_ rfl rfl
        unfold owned bringing removing
        dsimp only
        rw [split, filter_unloaded models]
      · refine Sound.of_kept claims found ⟨?_, distinct⟩ ?_ rfl rfl
        · rw [split, List.append_assoc]
          rfl
        · exact List.Sublist.append_left (List.sublist_cons_self e.1 (rest.map Prod.fst)) _
  | checking load =>
    unfold WorkerHost.advance
    dsimp only
    split
    · refine Sound.of_kept claims found coherent ?_ rfl rfl
      unfold owned bringing removing
      have gone : (load.evictions.map Prod.fst).filter (· ∉ load.evictions.map Prod.fst) = [] :=
        List.filter_eq_nil_iff.mpr fun x member => by simpa using member
      dsimp only
      rw [gone]
    · exact Sound.of_kept claims found coherent (List.Sublist.refl _) rfl rfl
    · exact Sound.of_kept claims found coherent (List.Sublist.refl _) rfl rfl
  | adding load => exact Sound.of_kept claims found coherent (List.Sublist.refl _) rfl rfl
  | warming load =>
    unfold WorkerHost.advance
    dsimp only
    split
    · refine Sound.of_kept claims found coherent ?_ rfl rfl
      unfold owned bringing removing
      have gone : (load.evictions.map Prod.fst).filter (· ∉ load.evictions.map Prod.fst) = [] :=
        List.filter_eq_nil_iff.mpr fun x member => by simpa using member
      dsimp only
      rw [gone]
    · exact Sound.of_kept claims found coherent (List.Sublist.refl _) rfl rfl
  | publishing load =>
    refine Sound.publish claims found (List.mem_singleton_self _) rfl rfl fun same => ?_
    cases same
    exact ⟨trivial, rfl, rfl⟩
  | recovering load unloaded raised => exact Sound.of_kept claims found coherent (List.Sublist.refl _) rfl rfl
  | restoring load unloaded rest raised =>
    cases rest with
    | nil => exact Sound.of_kept claims found trivial (List.nil_sublist _) rfl rfl
    | cons e rest => exact Sound.restore claims found (careful _ found)
  | closing load failure =>
    refine Sound.ended claims rfl (fun {d place modelId} other differ loads => ?_) fun same => ?_
    · refine (List.mem_erase_of_ne ?_).mpr (claims.loading other loads)
      rintro rfl
      exact differ (claims.single other found loads rfl)
    · cases failure <;> cases same
  | unloading modelId later =>
    unfold WorkerHost.advance
    dsimp only
    split
    · exact Sound.of_kept claims found trivial (List.Sublist.refl _) rfl rfl
    · refine Sound.ended claims rfl known fun same => ?_
      cases later with
      | none => cases same
      | some rest =>
        cases same
        exact ⟨trivial, rfl, rfl⟩
  | puttingBack modelId raised =>
    exact Sound.publish claims found (List.mem_singleton_self _) rfl rfl fun same => by cases same
  | sorting eligible =>
    unfold WorkerHost.advance
    dsimp only
    split
    · exact Sound.of_calm claims rfl fun same => by cases same
    · exact Sound.of_kept claims found trivial (List.Sublist.refl _) rfl rfl
  | sweeping rest =>
    cases rest with
    | nil => exact Sound.of_calm claims rfl fun same => by cases same
    | cons modelId rest => exact Sound.beginUnload claims modelId (some rest)
  | running selected =>
    unfold WorkerHost.advance
    dsimp only
    split <;> exact Sound.of_kept claims found trivial (List.Sublist.refl _) rfl rfl
  | failing selected raised =>
    have same := congrArg (fun state => state.1.modelState)
      (ManagedWorker.closeAll_worker .failed (fun _ => readings.now) selected s.host.process)
    unfold WorkerHost.advance
    dsimp only
    split <;> rename_i run <;> rw [run] at same <;>
      exact Sound.of_kept claims found trivial (List.Sublist.refl _) rfl same
  | retiring selected failure =>
    refine Sound.of_calm claims (ManagedWorker.retire_frame selected s.host.process).2.2.1 fun same => ?_
    cases failure with
    | none =>
      cases same
      exact ⟨trivial, rfl, rfl⟩
    | some raised => cases same
  | completing selected =>
    exact Sound.atOnce claims (congrArg (fun state => state.1.modelState)
      (ManagedWorker.closeAll_worker .completed readings.closedAt selected s.host.process))
  | stopping rest => exact coherent.elim
  | unregistering raised => exact coherent.elim

end Sections

/-- What an action does: one section of a call that may run, or a transition of a request. -/
theorem act_cases (acts : s.act runtime idleEvictionSeconds action = some s') :
    (∃ call request readings, action = .start call request readings ∧ s.calls.get? call = none ∧
        s' = s.settle call (s.host.begin runtime idleEvictionSeconds readings request)) ∨
      (∃ call readings place, action = .advance call readings ∧ s.calls.get? call = some place ∧
        s' = s.settle call (s.host.advance runtime readings place)) ∨
      ∃ i target at_ objects, action = .outside i target at_ ∧ Objects.transition i target at_ s.host.objects = (.ok (), objects) ∧
        s' = { s with host := { s.host with process := ⟨s.host.worker, objects⟩ } } := by
  unfold act at acts
  split at acts
  · rename_i call request readings
    split at acts
    · cases acts
    rename_i free
    cases acts
    simp only [Bool.or_eq_true, not_or, Bool.not_eq_true] at free
    exact Or.inl ⟨call, request, readings, rfl, Dict.contains_eq_false_iff.mp free.1, rfl⟩
  · rename_i call readings
    split at acts
    · cases acts
    rename_i place found
    split at acts
    · cases acts
    cases acts
    exact Or.inr (Or.inl ⟨call, readings, place, rfl, found, rfl⟩)
  · rename_i i target at_
    split at acts
    · rename_i objects run
      cases acts
      exact Or.inr (Or.inr ⟨i, target, at_, objects, rfl, run, rfl⟩)
    · cases acts

theorem Claims.act (claims : s.Claims) (careful : Careful runtime s action) (serving : Serving action)
    (acts : s.act runtime idleEvictionSeconds action = some s') : s'.Claims := by
  rcases act_cases acts with ⟨call, request, readings, rfl, -, rfl⟩ | ⟨call, readings, place, rfl, found, rfl⟩ |
    ⟨i, target, at_, objects, rfl, -, rfl⟩
  · exact claims.settle (Sound.begin claims careful serving)
  · exact claims.settle (Sound.advance claims found careful)
  · exact ⟨claims.exclusive, claims.distinct, claims.coherent, claims.loading, claims.single⟩

namespace Sample

/-- A place whose next step has nothing to be careful about. -/
def plain : CallPlace → Bool
  | .waiting .. | .restoring .. | .sweeping .. => false
  | _ => true

theorem careful_of_plain (moves : (s.calls.get? call).all plain = true) : Careful runtime s (.advance call readings) := by
  intro place found
  rw [found] at moves
  cases place <;> first | exact trivial | cases moves

theorem notRemoved_of_empty {modelId : String} (empty : s.calls = .empty) : s.NotRemoved modelId := by
  intro c place found
  rw [empty] at found
  cases found

end Sample

end WorkerSystem

end ServingPlatform
