import Mathlib.Algebra.BigOperators.Group.List.Basic
import Mathlib.Algebra.Ring.Int.Defs
import ServingPlatform.RequestScheduler.PoolSteps

namespace ServingPlatform

open Scheduling

namespace Place

/-- The deque of the scheduler's loop. -/
def deferred : Place → List RequestRef
  | .loopHead deferred => deferred
  | .scanning _ c | .gathering _ c | .waiting _ c => c.deferred.getD []
  | .selecting caller .. | .starting caller _ | .generatingBatch caller .. | .finishing caller .. | .failing caller ..
  | .generatingOne caller _ | .returning caller _ (.ok ()) => caller.deferred
  | .abandoning .. | .returning _ _ (.error _) | .gettingFirst | .ended _ => []

/-- The requests of the current batch that are still to be dealt with. -/
def batch : Place → List RequestRef
  | .scanning _ c | .gathering _ c | .waiting _ c => c.requests
  | .selecting _ _ _ rest active => rest ++ active
  | .generatingBatch _ _ active | .finishing _ _ _ active _ _ => active
  | .failing _ _ _ rest | .abandoning _ _ rest => rest
  | .starting _ r | .generatingOne _ r => [r]
  | .loopHead _ | .returning .. | .gettingFirst | .ended _ => []

theorem deferred_batch_perm (place : Place) : (place.deferred ++ place.batch).Perm (place.pending ++ place.started) := by
  cases place with
  | returning caller queuedItems result => cases result <;> exact .refl _
  | selecting caller queuedItems now rest active =>
    simp only [deferred, batch, pending, started, ← List.append_assoc]
    exact List.perm_append_comm.append_right _
  | scanning fromQueue c => exact List.perm_append_comm.trans (by simp [pending, started, batch, deferred])
  | gathering fromQueue c => exact List.perm_append_comm.trans (by simp [pending, started, batch, deferred])
  | waiting fromQueue c => exact List.perm_append_comm.trans (by simp [pending, started, batch, deferred])
  | starting caller r => exact List.perm_append_comm.trans (by simp [pending, started, batch, deferred])
  | _ => exact .refl _

/-- `collect_batch` is at work. -/
def collection : Place → Option Collecting
  | .scanning _ c | .gathering _ c | .waiting _ c => some c
  | _ => none

end Place

/-- A batch of requests of one kind, within the limits; the first one may be too expensive, alone. -/
def Scheduling.Bounded (settings : SchedulerSettings) (s : Scheduling) (batch : List RequestRef) : Prop :=
  ∃ first rest, batch = first :: rest ∧
    (∀ r ∈ batch, (s.requests r).maxNewTokens = (s.requests first).maxNewTokens ∧
      (s.requests r).temperature = (s.requests first).temperature) ∧
    (batch.length : Int) ≤ settings.maxBatchSize ∧
    (rest = [] ∨ (batch.map s.cost).sum ≤ settings.maxTotalBatchTokens)

/-- The local variables of a collection say what its batch is like. -/
structure Collecting.Fits (settings : SchedulerSettings) (s : Scheduling) (c : Collecting) : Prop where
  first : ∃ rest, c.requests = c.first :: rest
  compatible : ∀ r ∈ c.requests, s.compatible r c.first = true
  size : (c.requests.length : Int) ≤ settings.maxBatchSize
  total : c.total = (c.requests.map s.cost).sum
  budget : c.requests = [c.first] ∨ c.total ≤ settings.maxTotalBatchTokens

/-- A collection fits, and while it waits for the queue there is room for one more request. -/
def Place.Fits (settings : SchedulerSettings) (s : Scheduling) (place : Place) : Prop :=
  ∀ c, place.collection = some c → c.Fits settings s ∧
    ∀ fromQueue, place = .waiting fromQueue c → (c.requests.length : Int) < settings.maxBatchSize

namespace Collecting.Fits

variable {settings : SchedulerSettings} {s s' : Scheduling} {c : Collecting} {r : RequestRef}

theorem cost_congr (shape : ∀ q, s'.shape q = s.shape q) (q : RequestRef) : s'.cost q = s.cost q := by
  have same := shape q
  unfold Scheduling.shape InferenceRequest.shape at same
  obtain ⟨tokens, -, estimated⟩ := RequestShape.mk.inj same
  unfold cost
  rw [tokens, estimated]

theorem compatible_congr (shape : ∀ q, s'.shape q = s.shape q) (q first : RequestRef) :
    s'.compatible q first = s.compatible q first := by
  have here := shape q
  have there := shape first
  unfold Scheduling.shape InferenceRequest.shape at here there
  obtain ⟨tokens, temperature, -⟩ := RequestShape.mk.inj here
  obtain ⟨tokens', temperature', -⟩ := RequestShape.mk.inj there
  unfold Scheduling.compatible
  rw [tokens, temperature, tokens', temperature']

theorem congr (fits : c.Fits settings s) (shape : ∀ q, s'.shape q = s.shape q) : c.Fits settings s' where
  first := fits.first
  compatible q member := by
    rw [compatible_congr shape]
    exact fits.compatible q member
  size := fits.size
  total := by
    rw [List.map_congr_left fun q _ => cost_congr shape q]
    exact fits.total
  budget := fits.budget

/-- The deque and the counts are no part of the batch. -/
theorem of_same (fits : c.Fits settings s) {c' : Collecting} (first : c'.first = c.first) (requests : c'.requests = c.requests)
    (total : c'.total = c.total) : c'.Fits settings s := by
  refine ⟨?_, ?_, ?_, ?_, ?_⟩
  · rw [first, requests]
    exact fits.first
  · rw [first, requests]
    exact fits.compatible
  · rw [requests]
    exact fits.size
  · rw [requests, total]
    exact fits.total
  · rw [first, requests, total]
    exact fits.budget

theorem start (first : RequestRef) (deferred : Option (List RequestRef)) (room : 0 < settings.maxBatchSize) :
    (s.beginCollection settings first deferred).1.Fits settings (s.beginCollection settings first deferred).2 where
  first := ⟨[], rfl⟩
  compatible q member := by
    obtain rfl : q = first := List.mem_singleton.mp member
    simp [Scheduling.compatible, beginCollection]
  size := by
    simp only [beginCollection, List.length_singleton]
    omega
  total := (List.sum_singleton).symm
  budget := Or.inl rfl

/-- A request joins. -/
theorem join (fits : c.Fits settings s) (room : (c.requests.length : Int) < settings.maxBatchSize)
    (compatible : s.compatible r c.first = true) (cheap : c.total + s.cost r ≤ settings.maxTotalBatchTokens) {n : Nat} :
    Fits settings s { c with requests := c.requests ++ [r], total := c.total + s.cost r, queuedItems := n } where
  first := by
    obtain ⟨rest, requests⟩ := fits.first
    exact ⟨rest ++ [r], by rw [requests]; rfl⟩
  compatible q member := by
    rcases List.mem_append.mp member with before | new
    · exact fits.compatible q before
    · rw [List.mem_singleton.mp new]
      exact compatible
  size := by
    rw [List.length_append, List.length_singleton]
    push_cast
    omega
  total := by
    rw [List.map_append, List.sum_append, ← fits.total, List.map_singleton, List.sum_singleton]
  budget := Or.inr cheap

theorem bounded (fits : c.Fits settings s) : s.Bounded settings c.requests := by
  obtain ⟨rest, requests⟩ := fits.first
  refine ⟨c.first, rest, requests, fun r member => ?_, fits.size, ?_⟩
  · have alike := fits.compatible r member
    simpa [Scheduling.compatible] using alike
  · rcases fits.budget with alone | cheap
    · rw [requests] at alone
      exact Or.inl (List.cons.inj alone).2
    · rw [fits.total] at cheap
      exact Or.inr cheap

end Collecting.Fits

namespace Place

variable {settings : SchedulerSettings} {s s' : Scheduling} {accepted : List RequestRef} {place place' : Place}
  {resumption : Resumption} {c c' : Collecting} {r : RequestRef}

theorem Fits.of_none (isOver : place.collection = none) : place.Fits settings s := by
  intro c here
  rw [isOver] at here
  cases here

theorem Fits.scanning {fromQueue : Option Bool} (fits : c.Fits settings s) : (Place.scanning fromQueue c).Fits settings s := by
  intro c' here
  cases here
  exact ⟨fits, fun b impossible => by cases impossible⟩

theorem Fits.gathering {fromQueue : Option Bool} (fits : c.Fits settings s) : (Place.gathering fromQueue c).Fits settings s := by
  intro c' here
  cases here
  exact ⟨fits, fun b impossible => by cases impossible⟩

/-- The batch that a collection hands on is the one it collected. -/
structure HandsOn (settings : SchedulerSettings) (s' : Scheduling) (place' : Place) : Prop where
  fits : place'.Fits settings s'
  bounded : ∀ caller n now batch active, place' = .selecting caller n now batch active →
    active = [] ∧ s'.Bounded settings batch

theorem HandsOn.of_collection (fits : place'.Fits settings s') (going : place'.collection.isSome = true) :
    HandsOn settings s' place' where
  fits := fits
  bounded := by
    intro caller n now batch active same
    rw [same] at going
    cases going

theorem HandsOn.endCollection {b : Bool} (fits : c.Fits settings s) :
    HandsOn settings (s.endCollection (some b) c).2 (s.endCollection (some b) c).1 where
  fits := .of_none rfl
  bounded := by
    intro caller n now batch active same
    have after : c.Fits settings (s.endCollection (some b) c).2 := fits.congr fun q => shape_endCollection
    unfold Scheduling.endCollection at same
    cases same
    exact ⟨rfl, after.bounded⟩

/-- A candidate leaves the collection fitting, if there is room for it. -/
theorem consider_fits {deferred : List RequestRef} {fromQueue : Bool} {goes : Bool} (held : c.deferred = some deferred)
    (fits : c.Fits settings s) (room : (c.requests.length : Int) < settings.maxBatchSize)
    (run : s.consider settings c r fromQueue = (.ok (goes, c'), s')) : goes = true ∧ c'.Fits settings s' := by
  rcases Pooled.consider_spec settings s r fromQueue held with ⟨d, t, outcome, spec⟩ | ⟨joins, spec⟩
  · have after : d.Fits settings (t.itemDone fromQueue).2 := by
      have shape : ∀ q, (t.itemDone fromQueue).2.shape q = t.shape q := fun q => shape_congr requests_itemDone
      rcases outcome with ⟨rfl, drops⟩ | ⟨rfl, rfl⟩
      · exact fits.congr fun q => (shape q).trans (drops.shape q)
      · exact (fits.congr shape).of_same rfl rfl rfl
    rw [spec] at run
    obtain ⟨first, rfl⟩ := Prod.mk.inj run
    cases done : (t.itemDone fromQueue).1 with
    | error raised =>
      rw [done] at first
      cases first
    | ok _ =>
      rw [done] at first
      cases first
      exact ⟨rfl, after⟩
  · rw [spec] at run
    cases run
    have read : c.Fits settings s.monotonic.2 := fits.congr fun q => rfl
    exact ⟨rfl, read.join room joins.1 joins.2⟩

theorem scanning_handsOn {fromQueue : Option Bool} (a : Accounted s accepted (.scanning fromQueue c))
    (fits : (Place.scanning fromQueue c).Fits settings s)
    (step : (Place.scanning fromQueue c).advance settings s resumption = some (place', s')) : HandsOn settings s' place' := by
  cases resumption <;> try cases step
  obtain ⟨⟨b, rfl⟩, deferred, held, scan⟩ := a.sound
  have fits := (fits c rfl).1
  simp only [Place.advance] at step
  split at step
  · rename_i more
    cases deferred with
    | nil => exact absurd (Nat.le_zero.mp scan) more.2
    | cons candidate rest =>
      rw [held] at step
      dsimp only at step
      have before : ({ c with deferred := some rest, toScan := c.toScan - 1 } : Collecting).Fits settings s :=
        fits.of_same rfl rfl rfl
      split at step
      · cases step
        exact ⟨.of_none rfl, fun _ _ _ _ _ impossible => by cases impossible⟩
      · rename_i run
        cases step
        exact .of_collection (.scanning (consider_fits rfl before more.1 run).2) rfl
      · rename_i run
        cases step
        exact .of_collection (.gathering (consider_fits rfl before more.1 run).2) rfl
  · cases step
    exact .of_collection (.gathering fits) rfl

theorem gathering_handsOn {fromQueue : Option Bool} (a : Accounted s accepted (.gathering fromQueue c))
    (fits : (Place.gathering fromQueue c).Fits settings s)
    (step : (Place.gathering fromQueue c).advance settings s resumption = some (place', s')) : HandsOn settings s' place' := by
  cases resumption <;> try cases step
  obtain ⟨⟨b, rfl⟩, -⟩ := a.sound
  have fits := (fits c rfl).1
  have read : c.Fits settings s.monotonic.2 := fits.congr fun q => rfl
  simp only [Place.advance] at step
  split at step
  · rename_i room
    split at step
    · obtain rfl := congrArg Prod.fst (Option.some.inj step)
      obtain rfl := congrArg Prod.snd (Option.some.inj step)
      exact .endCollection read
    · cases step
      refine .of_collection (fun c' here => ?_) rfl
      cases here
      exact ⟨read, fun _ _ => room⟩
  · obtain rfl := congrArg Prod.fst (Option.some.inj step)
    obtain rfl := congrArg Prod.snd (Option.some.inj step)
    exact .endCollection fits

theorem waiting_handsOn {fromQueue : Option Bool} (a : Accounted s accepted (.waiting fromQueue c))
    (fits : (Place.waiting fromQueue c).Fits settings s)
    (step : (Place.waiting fromQueue c).advance settings s resumption = some (place', s')) : HandsOn settings s' place' := by
  obtain ⟨⟨b, rfl⟩, deferred, held⟩ := a.sound
  obtain ⟨fits, room⟩ := fits c rfl
  have room := room (some b) rfl
  have raised : ∀ {e}, HandsOn settings s' (.returning (Caller.ofCollection (some b) c) 0 (.error e)) := fun {e} =>
    ⟨.of_none rfl, fun _ _ _ _ _ impossible => by cases impossible⟩
  cases resumption with
  | timeout =>
    simp only [Place.advance] at step
    obtain rfl := congrArg Prod.fst (Option.some.inj step)
    obtain rfl := congrArg Prod.snd (Option.some.inj step)
    exact .endCollection fits
  | results results => cases step
  | result result => cases step
  | raises message => cases step
  | proceed =>
    simp only [Place.advance] at step
    split at step
    · cases step
    · rename_i t next
      have taken := requests_get? next
      split at step
      · cases step
        exact raised
      · rename_i t₁ done
        have first : t₁.requests = t.requests := by
          have kept := t.requests_taskDone
          rw [done] at kept
          exact kept
        split at step
        · cases step
          exact raised
        · rename_i t₂ put
          have second : t₂.requests = t₁.requests := by
            have kept := @requests_putNowait t₁ none
            rw [put] at kept
            exact kept
          obtain rfl := congrArg Prod.fst (Option.some.inj step)
          obtain rfl := congrArg Prod.snd (Option.some.inj step)
          exact .endCollection (fits.congr fun q => shape_congr (second.trans (first.trans taken)))
    · rename_i candidate t next
      have before : c.Fits settings t := fits.congr fun q => shape_congr (requests_get? next)
      split at step
      · cases step
        exact raised
      · rename_i run
        cases step
        exact .of_collection (.gathering (consider_fits held before room run).2) rfl
      · rename_i run
        obtain ⟨impossible, -⟩ := consider_fits held before room run
        cases impossible

/-- Collections fit, from their beginning to the batch that they hand on. -/
theorem fits_advance (room : 0 < settings.maxBatchSize) (a : Accounted s accepted place) (fits : place.Fits settings s)
    (step : place.advance settings s resumption = some (place', s')) :
    place'.Fits settings s' ∧ (place.collection.isSome = true → HandsOn settings s' place') := by
  have none_ : place'.collection = none → place.collection.isSome = false →
      place'.Fits settings s' ∧ (place.collection.isSome = true → HandsOn settings s' place') := by
    intro isOver idle
    refine ⟨.of_none isOver, fun going => ?_⟩
    rw [idle] at going
    cases going
  have hands : HandsOn settings s' place' →
      place'.Fits settings s' ∧ (place.collection.isSome = true → HandsOn settings s' place') := fun on => ⟨on.fits, fun _ => on⟩
  cases place with
  | scanning fromQueue c => exact hands (scanning_handsOn a fits step)
  | gathering fromQueue c => exact hands (gathering_handsOn a fits step)
  | waiting fromQueue c => exact hands (waiting_handsOn a fits step)
  | loopHead deferred =>
    cases resumption <;> cases deferred <;> try cases step
    · exact none_ rfl rfl
    · simp only [Place.advance] at step
      split at step
      · cases step
        exact none_ rfl rfl
      · split at step <;> cases step
        · exact ⟨.scanning (.start _ _ room), fun going => by cases going⟩
        · exact none_ rfl rfl
  | gettingFirst =>
    cases resumption <;> try cases step
    simp only [Place.advance] at step
    split at step
    · cases step
    · cases step
      exact none_ rfl rfl
    · split at step <;> cases step
      · exact ⟨.scanning (.start _ _ room), fun going => by cases going⟩
      · exact none_ rfl rfl
  | selecting caller queuedItems now rest active =>
    cases resumption <;> cases rest <;> try (cases active <;> cases step)
    · exact none_ rfl rfl
    · exact none_ rfl rfl
    · simp only [Place.advance] at step
      split at step
      · cases step
        exact none_ rfl rfl
      · split at step <;> cases step <;> exact none_ rfl rfl
  | generatingBatch caller queuedItems active => cases resumption <;> cases step <;> exact none_ rfl rfl
  | finishing caller queuedItems completed active rest results =>
    cases resumption <;> cases rest <;> cases results <;> cases step <;> exact none_ rfl rfl
  | failing caller queuedItems message rest => cases resumption <;> cases rest <;> cases step <;> exact none_ rfl rfl
  | abandoning caller queuedItems rest => cases resumption <;> cases rest <;> cases step <;> exact none_ rfl rfl
  | starting caller request =>
    cases resumption <;> try cases step
    simp only [Place.advance] at step
    split at step
    · cases step
      exact none_ rfl rfl
    · split at step <;> cases step <;> exact none_ rfl rfl
  | generatingOne caller request => cases resumption <;> cases step <;> exact none_ rfl rfl
  | returning caller queuedItems result =>
    cases resumption <;> cases caller <;> try cases step
    · exact none_ rfl rfl
    · simp only [Place.advance] at step
      split at step <;> cases step <;> exact none_ rfl rfl
  | ended result => cases step

end Place

end ServingPlatform
