import ServingPlatform.RequestScheduler.Batches

namespace ServingPlatform

open Scheduling

namespace Place

/-- The places of a task that runs `run_scheduler`. -/
def Own : Place → Prop
  | .scanning fromQueue c => (∃ b, fromQueue = some b) ∧ ∃ deferred, c.deferred = some deferred ∧ c.toScan ≤ deferred.length
  | .gathering fromQueue c | .waiting fromQueue c => (∃ b, fromQueue = some b) ∧ ∃ deferred, c.deferred = some deferred
  | .selecting caller .. | .generatingBatch caller .. | .finishing caller .. | .failing caller .. | .abandoning caller ..
  | .starting caller _ | .generatingOne caller _ | .returning caller .. => caller ≠ .direct
  | .loopHead _ | .gettingFirst | .ended _ => True

/-- What one step of a scheduler makes of its deque and its batch. -/
inductive Turn (settings : SchedulerSettings) (s' : Scheduling) : Place → Place → Prop
  | idles : Turn settings s' (.loopHead []) .gettingFirst
  | rejects {head : RequestRef} {deque : List RequestRef} (isOver : (s'.requests head).terminal = true) :
      Turn settings s' (.loopHead (head :: deque)) (.loopHead deque)
  | opens {head : RequestRef} {deque : List RequestRef} {c : Collecting} (batch : c.requests = [head])
      (held : c.deferred = some deque) (scan : c.toScan = deque.length) :
      Turn settings s' (.loopHead (head :: deque)) (.scanning (some false) c)
  | starts {head : RequestRef} {deque : List RequestRef} :
      Turn settings s' (.loopHead (head :: deque)) (.starting (.scheduler false deque) head)
  | drops {b : Bool} {c c' : Collecting} {candidate : RequestRef} {rest : List RequestRef}
      (held : c.deferred = some (candidate :: rest)) (scan : c.toScan = c'.toScan + 1)
      (left : c'.deferred = some rest) (batch : c'.requests = c.requests)
      (isOver : (s'.requests candidate).terminal = true) : Turn settings s' (.scanning (some b) c) (.scanning (some b) c')
  | passes {b : Bool} {c c' : Collecting} {candidate : RequestRef} {rest : List RequestRef}
      (held : c.deferred = some (candidate :: rest)) (scan : c.toScan = c'.toScan + 1)
      (left : c'.deferred = some (rest ++ [candidate])) (batch : c'.requests = c.requests) :
      Turn settings s' (.scanning (some b) c) (.scanning (some b) c')
  | takes {b : Bool} {c c' : Collecting} {candidate : RequestRef} {rest : List RequestRef}
      (held : c.deferred = some (candidate :: rest)) (scan : c.toScan = c'.toScan + 1)
      (left : c'.deferred = some rest) (batch : c'.requests = c.requests ++ [candidate]) :
      Turn settings s' (.scanning (some b) c) (.scanning (some b) c')
  | scanned {b : Bool} {c : Collecting} (enough : settings.maxBatchSize ≤ c.requests.length ∨ c.toScan = 0) :
      Turn settings s' (.scanning (some b) c) (.gathering (some b) c)
  | awaits {b : Bool} {c : Collecting} (room : c.requests.length < settings.maxBatchSize) :
      Turn settings s' (.gathering (some b) c) (.waiting (some b) c)
  | gathers {b : Bool} {c c' : Collecting} {deferred more : List RequestRef} (held : c.deferred = some deferred)
      (left : c'.deferred = some (deferred ++ more)) : Turn settings s' (.waiting (some b) c) (.gathering (some b) c')
  | closes {b : Bool} {c : Collecting} {place : Place} {now : Seconds}
      (gathered : place = .gathering (some b) c ∨ place = .waiting (some b) c) :
      Turn settings s' place (.selecting (.scheduler b (c.deferred.getD [])) c.queuedItems now c.requests [])
  | goes {place place' : Place} (before : place.collection = none) (after : place'.collection = none)
      (started : ∀ deque, place ≠ .loopHead deque) (later : place' ≠ .gettingFirst) (uncut : ¬place.Cut)
      (deque : place'.deferred = place.deferred) : Turn settings s' place place'
  | leaves {place place' : Place} (cut : place'.Cut) : Turn settings s' place place'

variable {settings : SchedulerSettings} {s s' : Scheduling} {place place' : Place} {resumption : Resumption}

theorem turn_loopHead {deque : List RequestRef}
    (step : (Place.loopHead deque).advance settings s resumption = some (place', s')) :
    place'.Own ∧ Turn settings s' (.loopHead deque) place' := by
  cases resumption <;> cases deque <;> try cases step
  · exact ⟨trivial, .idles⟩
  · rename_i head deque
    simp only [Place.advance] at step
    split at step
    · cases step
      refine ⟨trivial, .rejects ?_⟩
      exact terminal_of_status rfl (by rw [status_measure, status_finish, if_pos rfl])
    split at step
    · cases step
      exact ⟨⟨⟨_, rfl⟩, deque, rfl, le_refl _⟩, .opens rfl rfl rfl⟩
    · cases step
      exact ⟨by simp [Own], .starts⟩

theorem turn_scanning {fromQueue : Option Bool} {c : Collecting} (own : (Place.scanning fromQueue c).Own)
    (step : (Place.scanning fromQueue c).advance settings s resumption = some (place', s')) :
    place'.Own ∧ Turn settings s' (.scanning fromQueue c) place' := by
  cases resumption <;> try cases step
  obtain ⟨⟨b, rfl⟩, deferred, held, scan⟩ := own
  simp only [Place.advance] at step
  split at step
  · rename_i more
    cases deferred with
    | nil => exact absurd (Nat.le_zero.mp scan) more.2
    | cons candidate rest =>
      have counted : c.toScan = c.toScan - 1 + 1 := by omega
      have within : c.toScan - 1 ≤ rest.length := by
        simp only [List.length_cons] at scan
        omega
      rw [held] at step
      dsimp only at step
      have cases_ := consider_cases settings s candidate false
        (show ({ c with deferred := some rest, toScan := c.toScan - 1 } : Collecting).deferred = some rest from rfl)
      rcases cases_ with ⟨c', s₁, -, ⟨isOver, rfl⟩ | rfl, run⟩ | ⟨total, run⟩ <;> (rw [run] at step; cases step)
      · exact ⟨⟨⟨b, rfl⟩, rest, rfl, within⟩, .drops held counted rfl rfl isOver⟩
      · refine ⟨⟨⟨b, rfl⟩, rest ++ [candidate], rfl, ?_⟩, .passes held counted rfl rfl⟩
        simp only [List.length_append]
        omega
      · exact ⟨⟨⟨b, rfl⟩, rest, rfl, within⟩, .takes held counted rfl rfl⟩
  · rename_i enough
    cases step
    exact ⟨⟨⟨b, rfl⟩, deferred, held⟩, .scanned (by omega)⟩

theorem turn_endCollection {b : Bool} {c : Collecting} (gathered : place = .gathering (some b) c ∨ place = .waiting (some b) c)
    (step : some (s.endCollection (some b) c) = some (place', s')) : place'.Own ∧ Turn settings s' place place' := by
  obtain rfl := congrArg Prod.fst (Option.some.inj step)
  exact ⟨by simp [Scheduling.endCollection, Caller.ofCollection, Own], .closes gathered⟩

theorem turn_gathering {fromQueue : Option Bool} {c : Collecting} (own : (Place.gathering fromQueue c).Own)
    (step : (Place.gathering fromQueue c).advance settings s resumption = some (place', s')) :
    place'.Own ∧ Turn settings s' (.gathering fromQueue c) place' := by
  cases resumption <;> try cases step
  obtain ⟨⟨b, rfl⟩, deferred, held⟩ := own
  simp only [Place.advance] at step
  split at step
  · rename_i room
    split at step
    · exact turn_endCollection (Or.inl rfl) step
    · cases step
      exact ⟨⟨⟨b, rfl⟩, deferred, held⟩, .awaits room⟩
  · exact turn_endCollection (Or.inl rfl) step

theorem turn_raise {b : Bool} {deferred : List RequestRef} {queuedItems : Nat} {e : Raised} :
    (Place.returning (.scheduler b deferred) queuedItems (.error e)).Own ∧
      Turn settings s' place (.returning (.scheduler b deferred) queuedItems (.error e)) :=
  ⟨by simp [Own], .leaves trivial⟩

theorem turn_waiting {fromQueue : Option Bool} {c : Collecting} (own : (Place.waiting fromQueue c).Own)
    (step : (Place.waiting fromQueue c).advance settings s resumption = some (place', s')) :
    place'.Own ∧ Turn settings s' (.waiting fromQueue c) place' := by
  obtain ⟨⟨b, rfl⟩, deferred, held⟩ := own
  cases resumption <;> try cases step
  · simp only [Place.advance] at step
    cases next : s.get? with
    | none =>
      rw [next] at step
      cases step
    | some taken =>
      obtain ⟨item, s₁⟩ := taken
      rw [next] at step
      cases item with
      | none =>
        dsimp only at step
        rcases done : s₁.taskDone with ⟨e | _, s₂⟩
        · rw [done] at step
          cases step
          exact turn_raise
        rw [done] at step
        dsimp only at step
        rcases put : s₂.putNowait none with ⟨e | _, s₃⟩
        · rw [put] at step
          cases step
          exact turn_raise
        · rw [put] at step
          exact turn_endCollection (Or.inr rfl) step
      | some candidate =>
        dsimp only at step
        rcases consider_cases settings s₁ candidate true held with ⟨c', s₂, -, change, run⟩ | ⟨total, run⟩
        · have left : ∃ more, c'.deferred = some (deferred ++ more) := by
            rcases change with ⟨-, rfl⟩ | rfl
            · exact ⟨[], by rw [List.append_nil]; exact held⟩
            · exact ⟨[candidate], rfl⟩
          obtain ⟨more, left⟩ := left
          rw [run] at step
          rcases done : s₂.itemDone true with ⟨e | _, s₃⟩
          · rw [done] at step
            cases step
            exact turn_raise
          · rw [done] at step
            cases step
            exact ⟨⟨⟨b, rfl⟩, _, left⟩, .gathers held left⟩
        · rw [run] at step
          cases step
          have left : c.deferred = some (deferred ++ []) := by
            rw [List.append_nil]
            exact held
          exact ⟨⟨⟨b, rfl⟩, deferred, held⟩, .gathers held left⟩
  · exact turn_endCollection (Or.inr rfl) rfl

theorem turn_returning {caller : Caller} {queuedItems : Nat} {result : Except Raised Unit} (own : caller ≠ .direct)
    (step : (Place.returning caller queuedItems result).advance settings s resumption = some (place', s')) :
    place'.Own ∧ Turn settings s' (.returning caller queuedItems result) place' := by
  cases resumption <;> cases caller <;> try cases step
  · exact absurd rfl own
  rename_i b deferred
  simp only [Place.advance] at step
  cases result with
  | error e =>
    rcases run : s.leave queuedItems b (.error e) with ⟨e' | u, t⟩
    · rw [run] at step
      cases step
      exact ⟨trivial, .leaves trivial⟩
    · have raises : ∀ u, (s.leave queuedItems b (.error e)).1 ≠ .ok u := by
        intro u
        unfold Scheduling.leave
        dsimp only
        split <;> simp
      exact absurd (by rw [run]) (raises u)
  | ok _ =>
    rcases run : s.leave queuedItems b (.ok _) with ⟨e' | u, t⟩
    · rw [run] at step
      cases step
      exact ⟨trivial, .leaves trivial⟩
    · rw [run] at step
      cases step
      exact ⟨trivial, .goes rfl rfl (by simp) (by simp) id rfl⟩

/-- One step of a scheduler that has begun a round of its loop. -/
theorem advance_turn (own : place.Own) (begun : place ≠ .gettingFirst)
    (step : place.advance settings s resumption = some (place', s')) : place'.Own ∧ Turn settings s' place place' := by
  cases place with
  | loopHead deque => exact turn_loopHead step
  | gettingFirst => exact absurd rfl begun
  | scanning fromQueue c => exact turn_scanning own step
  | gathering fromQueue c => exact turn_gathering own step
  | waiting fromQueue c => exact turn_waiting own step
  | returning caller queuedItems result => exact turn_returning own step
  | ended result => cases resumption <;> cases step
  | abandoning caller queuedItems rest =>
    cases resumption <;> cases rest <;> cases step
    · exact ⟨own, .leaves trivial⟩
    · exact ⟨own, .leaves trivial⟩
  | selecting caller queuedItems now rest active =>
    cases rest with
    | nil => cases resumption <;> cases active <;> cases step <;> exact ⟨own, .goes rfl rfl (by simp) (by simp) id rfl⟩
    | cons r rest =>
      cases resumption <;> try cases step
      simp only [Place.advance] at step
      split at step
      · cases step
        exact ⟨own, .goes rfl rfl (by simp) (by simp) id rfl⟩
      · split at step <;> cases step <;> exact ⟨own, .goes rfl rfl (by simp) (by simp) id rfl⟩
  | generatingBatch caller queuedItems active =>
    cases resumption <;> cases step <;> exact ⟨own, .goes rfl rfl (by simp) (by simp) id rfl⟩
  | finishing caller queuedItems completed active rest results =>
    cases resumption <;> cases rest <;> cases results <;> cases step <;> exact ⟨own, .goes rfl rfl (by simp) (by simp) id rfl⟩
  | failing caller queuedItems message rest =>
    cases resumption <;> cases rest <;> cases step <;> exact ⟨own, .goes rfl rfl (by simp) (by simp) id rfl⟩
  | starting caller r =>
    cases resumption <;> try cases step
    simp only [Place.advance] at step
    split at step
    · cases step
      exact ⟨own, .goes rfl rfl (by simp) (by simp) id rfl⟩
    · split at step <;> cases step <;> exact ⟨own, .goes rfl rfl (by simp) (by simp) id rfl⟩
  | generatingOne caller r =>
    cases resumption <;> cases step <;> exact ⟨own, .goes rfl rfl (by simp) (by simp) id rfl⟩

theorem interrupt_turn (own : place.Own) (step : place.interrupt s = some (place', s')) :
    place'.Own ∧ Turn settings s' place place' := by
  cases place with
  | gettingFirst =>
    cases step
    exact ⟨trivial, .leaves trivial⟩
  | waiting fromQueue c =>
    obtain ⟨⟨b, rfl⟩, -⟩ := own
    cases step
    exact turn_raise
  | generatingBatch caller queuedItems active =>
    cases step
    exact ⟨own, .leaves trivial⟩
  | generatingOne caller r =>
    cases step
    exact ⟨own, .leaves trivial⟩
  | _ => cases step

end Place

namespace SchedulerSystem

variable {settings : SchedulerSettings} {s s' : SchedulerSystem} {action : SchedulerAction} {task : Nat} {place : Place}

/-- A step takes a turn of a task, or leaves it where it is. -/
theorem step_turn (step : s.step settings action = some s') (here : s.tasks[task]? = some place) (own : place.Own)
    (begun : place ≠ .gettingFirst) : s'.tasks[task]? = some place ∨
      ∃ place', s'.tasks[task]? = some place' ∧ place'.Own ∧ Place.Turn settings s'.shared place place' := by
  have bound : task < s.tasks.length := by
    by_contra beyond
    rw [List.getElem?_eq_none (by omega)] at here
    cases here
  have others : ∀ {t : Nat} (place' : Place), t ≠ task → (s.tasks.set t place')[task]? = some place := by
    intro t place' other
    rw [List.getElem?_set_ne other]
    exact here
  cases action with
  | submit r =>
    simp only [SchedulerSystem.step] at step
    split at step
    · split at step <;> cases step <;> exact Or.inl here
    · cases step
  | cancel r reason =>
    simp only [SchedulerSystem.step] at step
    split at step <;> cases step
    exact Or.inl here
  | close =>
    simp only [SchedulerSystem.step] at step
    split at step <;> cases step
    exact Or.inl here
  | call call =>
    simp only [SchedulerSystem.step] at step
    split at step <;> cases step
    refine Or.inl ?_
    dsimp only
    rw [List.getElem?_append_left bound]
    exact here
  | resume t resumption =>
    simp only [SchedulerSystem.step] at step
    split at step
    · split at step
      · cases step
      rename_i held found
      obtain ⟨⟨place', shared⟩, advanced, rfl⟩ := Option.map_eq_some_iff.mp step
      by_cases same : t = task
      · subst same
        cases here.symm.trans found
        obtain ⟨own', turn⟩ := Place.advance_turn own begun advanced
        exact Or.inr ⟨place', by rw [List.getElem?_set_self bound], own', turn⟩
      · exact Or.inl (others place' same)
    · cases step
  | interrupt t =>
    simp only [SchedulerSystem.step] at step
    split at step
    · split at step
      · cases step
      rename_i held found
      obtain ⟨⟨place', shared⟩, interrupted, rfl⟩ := Option.map_eq_some_iff.mp step
      by_cases same : t = task
      · subst same
        cases here.symm.trans found
        obtain ⟨own', turn⟩ : place'.Own ∧ Place.Turn settings shared place place' := Place.interrupt_turn own interrupted
        exact Or.inr ⟨place', by rw [List.getElem?_set_self bound], own', turn⟩
      · exact Or.inl (others place' same)
    · cases step

end SchedulerSystem

end ServingPlatform
