import ServingPlatform.ControlPlane.BatchPlans

namespace ServingPlatform

/-- A queued request that can no longer run. -/
def RequestRecord.over (now : Seconds) (r : RequestRecord) : Bool := r.terminal || r.deadline.expired now

namespace ManagedWorker

variable {now : Seconds} {w : ManagedWorker} {first : RequestRecord} {objects current objects' : Objects}
  {queue chosen rest selected : List ObjectId} {size tokens : Nat} {i j : ObjectId}

/-- A local queue as `enqueue_request` fills it: its requests wait, or have ended since. -/
structure LocalQueue (p : WorkerProcess) : Prop where
  distinct : p.worker.queue.Nodup
  waiting : ∀ i ∈ p.worker.queue, (p.objects i).terminal = true ∨ (p.objects i).status = .queued
  fitting : ∀ i ∈ p.worker.queue, (p.objects i).estimatedTokens ≤ p.worker.maxBatchTokens

def tokensOf (objects : Objects) (l : List ObjectId) : Nat := (l.map fun i => (objects i).estimatedTokens).sum

/-- The chosen requests that stand before a request in the queue. -/
def ahead (queue chosen : List ObjectId) (i : ObjectId) : List ObjectId :=
  (queue.takeWhile (· ≠ i)).filter (· ∈ chosen)

/-- What a scan makes of a request that it does not choose. -/
def scanned (now : Seconds) (reached : Bool) (r : RequestRecord) : RequestRecord :=
  if reached && !r.terminal && r.deadline.expired now then r.enter .timedOut now else r

section Ahead

theorem ahead_self : ahead (i :: queue) chosen i = [] := by simp [ahead]

theorem ahead_absent (differ : j ≠ i) (absent : i ∉ chosen) : ahead (i :: queue) chosen j = ahead queue chosen j := by
  simp [ahead, Ne.symm differ, absent]

theorem ahead_chosen (differ : j ≠ i) (fresh : i ∉ queue) :
    ahead (i :: queue) (i :: chosen) j = i :: ahead queue chosen j := by
  unfold ahead
  rw [List.takeWhile_cons_of_pos (by simpa using Ne.symm differ), List.filter_cons_of_pos (by simp)]
  congr 1
  refine List.filter_congr fun k member => ?_
  have inside := (List.takeWhile_prefix _).subset member
  have other : k ≠ i := fun same => fresh (same ▸ inside)
  simp [other]

theorem tokensOf_cons : tokensOf objects (i :: chosen) = (objects i).estimatedTokens + tokensOf objects chosen := by
  simp [tokensOf]

end Ahead

theorem scanned_of_alive {r : RequestRecord} (alive : r.over now = false) (reached : Bool) : scanned now reached r = r := by
  unfold RequestRecord.over at alive
  rw [Bool.or_eq_false_iff] at alive
  simp [scanned, alive.2]

theorem scanned_of_terminal {r : RequestRecord} (ended : r.terminal = true) (reached : Bool) :
    scanned now reached r = r := by
  simp [scanned, ended]

theorem scanned_unreached {r : RequestRecord} : scanned now false r = r := rfl

/-- What a scan of the queue after a first request chooses and leaves, where a
batch of some size and tokens is chosen already. -/
structure Gathered (w : ManagedWorker) (first : RequestRecord) (now : Seconds) (objects : Objects) (size tokens : Nat)
    (queue chosen rest : List ObjectId) (objects' : Objects) : Prop where
  ordered : chosen.Sublist queue
  remaining : rest.Sublist queue
  sized : chosen = [] ∨ size + chosen.length ≤ w.maxBatchSize
  within : chosen = [] ∨ tokens + tokensOf objects chosen ≤ w.maxBatchTokens
  joins : ∀ i ∈ queue, (i ∈ chosen ↔ size + (ahead queue chosen i).length < w.maxBatchSize ∧
    (objects i).over now = false ∧ compatible first (objects i) = true ∧
    tokens + tokensOf objects (ahead queue chosen i) + (objects i).estimatedTokens ≤ w.maxBatchTokens)
  stays : ∀ i ∈ queue, (i ∈ rest ↔ i ∉ chosen ∧
    ¬(size + (ahead queue chosen i).length < w.maxBatchSize ∧ (objects i).over now = true))
  looks : ∀ i ∈ queue, objects' i =
    scanned now (decide (size + (ahead queue chosen i).length < w.maxBatchSize)) (objects i)

namespace Gathered

theorem full (reached : w.maxBatchSize ≤ size) (same : ∀ i ∈ queue, objects' i = objects i) :
    Gathered w first now objects size tokens queue [] queue objects' := by
  have beyond : ∀ i, ¬ size + (ahead queue [] i).length < w.maxBatchSize := fun i => by omega
  refine ⟨List.nil_sublist _, List.Sublist.refl _, Or.inl rfl, Or.inl rfl, ?_, ?_, ?_⟩
  · exact fun i _ => ⟨fun member => absurd member List.not_mem_nil, fun both => absurd both.1 (beyond i)⟩
  · exact fun i member => ⟨fun _ => ⟨List.not_mem_nil, fun both => beyond i both.1⟩, fun _ => member⟩
  · intro i member
    rw [same i member, decide_eq_false (beyond i), scanned_unreached]

theorem nil : Gathered w first now objects size tokens [] [] [] objects' :=
  ⟨List.Sublist.refl _, List.Sublist.refl _, Or.inl rfl, Or.inl rfl, fun _ member => absurd member List.not_mem_nil,
    fun _ member => absurd member List.not_mem_nil, fun _ member => absurd member List.not_mem_nil⟩

/-- A request that is over is dropped. -/
theorem drop (tail : Gathered w first now objects size tokens queue chosen rest objects') (fresh : i ∉ queue)
    (room : size < w.maxBatchSize) (isOver : (objects i).over now = true)
    (looked : objects' i = scanned now true (objects i)) :
    Gathered w first now objects size tokens (i :: queue) chosen rest objects' := by
  have absent : i ∉ chosen := fun member => fresh (tail.ordered.subset member)
  have others : ∀ j ∈ queue, ahead (i :: queue) chosen j = ahead queue chosen j := fun j member =>
    ahead_absent (fun same => fresh (same ▸ member)) absent
  refine ⟨tail.ordered.cons i, tail.remaining.cons i, tail.sized, tail.within, ?_, ?_, ?_⟩
  · intro j member
    rcases List.mem_cons.mp member with rfl | member
    · exact ⟨fun inside => absurd inside absent, fun both => by rw [isOver] at both; exact absurd both.2.1 (by decide)⟩
    · rw [others j member]
      exact tail.joins j member
  · intro j member
    rcases List.mem_cons.mp member with rfl | member
    · have gone : j ∉ rest := fun inside => fresh (tail.remaining.subset inside)
      rw [ahead_self]
      exact ⟨fun inside => absurd inside gone, fun both => absurd ⟨room, isOver⟩ both.2⟩
    · rw [others j member]
      exact tail.stays j member
  · intro j member
    rcases List.mem_cons.mp member with rfl | member
    · rw [looked, ahead_self, List.length_nil, Nat.add_zero, decide_eq_true room]
    · rw [others j member]
      exact tail.looks j member

/-- A request that fits joins the batch. -/
theorem join (tail : Gathered w first now objects (size + 1) (tokens + (objects i).estimatedTokens) queue chosen rest
    objects') (fresh : i ∉ queue) (room : size < w.maxBatchSize) (alive : (objects i).over now = false)
    (fits : compatible first (objects i) = true ∧ tokens + (objects i).estimatedTokens ≤ w.maxBatchTokens)
    (kept : objects' i = objects i) :
    Gathered w first now objects size tokens (i :: queue) (i :: chosen) rest objects' := by
  have others : ∀ j ∈ queue, ahead (i :: queue) (i :: chosen) j = i :: ahead queue chosen j := fun j member =>
    ahead_chosen (fun same => fresh (same ▸ member)) fresh
  have differ : ∀ j ∈ queue, j ≠ i := fun j member same => fresh (same ▸ member)
  refine ⟨tail.ordered.cons_cons i, tail.remaining.cons i, Or.inr ?_, Or.inr ?_, ?_, ?_, ?_⟩
  · rcases tail.sized with rfl | fits
    · exact room
    · rw [List.length_cons]
      omega
  · rw [tokensOf_cons]
    rcases tail.within with rfl | within
    · exact fits.2
    · omega
  · intro j member
    rcases List.mem_cons.mp member with rfl | member
    · rw [ahead_self]
      exact ⟨fun _ => ⟨room, alive, fits.1, fits.2⟩, fun _ => List.mem_cons_self⟩
    · have later := tail.joins j member
      rw [others j member, List.mem_cons, tokensOf_cons, List.length_cons]
      rw [show size + 1 + (ahead queue chosen j).length = size + ((ahead queue chosen j).length + 1) by omega,
        Nat.add_assoc tokens] at later
      simp only [differ j member, false_or]
      exact later
  · intro j member
    rcases List.mem_cons.mp member with rfl | member
    · have gone : j ∉ rest := fun inside => fresh (tail.remaining.subset inside)
      exact ⟨fun inside => absurd inside gone, fun both => absurd List.mem_cons_self both.1⟩
    · have later := tail.stays j member
      rw [others j member, List.mem_cons, List.length_cons]
      rw [show size + 1 + (ahead queue chosen j).length = size + ((ahead queue chosen j).length + 1) by omega] at later
      simp only [differ j member, false_or]
      exact later
  · intro j member
    rcases List.mem_cons.mp member with rfl | member
    · rw [kept, scanned_of_alive alive]
    · have later := tail.looks j member
      rw [others j member, List.length_cons]
      rw [show size + 1 + (ahead queue chosen j).length = size + ((ahead queue chosen j).length + 1) by omega] at later
      exact later

/-- A request that does not fit keeps its place. -/
theorem defer (tail : Gathered w first now objects size tokens queue chosen rest objects') (fresh : i ∉ queue)
    (alive : (objects i).over now = false)
    (unfit : ¬ (compatible first (objects i) = true ∧ tokens + (objects i).estimatedTokens ≤ w.maxBatchTokens))
    (kept : objects' i = objects i) :
    Gathered w first now objects size tokens (i :: queue) chosen (i :: rest) objects' := by
  have absent : i ∉ chosen := fun member => fresh (tail.ordered.subset member)
  have others : ∀ j ∈ queue, ahead (i :: queue) chosen j = ahead queue chosen j := fun j member =>
    ahead_absent (fun same => fresh (same ▸ member)) absent
  have differ : ∀ j ∈ queue, j ≠ i := fun j member same => fresh (same ▸ member)
  refine ⟨tail.ordered.cons i, tail.remaining.cons_cons i, tail.sized, tail.within, ?_, ?_, ?_⟩
  · intro j member
    rcases List.mem_cons.mp member with rfl | member
    · rw [ahead_self]
      exact ⟨fun inside => absurd inside absent, fun both => absurd both.2.2 unfit⟩
    · rw [others j member]
      exact tail.joins j member
  · intro j member
    rcases List.mem_cons.mp member with rfl | member
    · exact ⟨fun _ => ⟨absent, fun both => by rw [alive] at both; cases both.2⟩, fun _ => List.mem_cons_self⟩
    · rw [others j member, List.mem_cons]
      simp only [differ j member, false_or]
      exact tail.stays j member
  · intro j member
    rcases List.mem_cons.mp member with rfl | member
    · rw [kept, scanned_of_alive alive]
    · rw [others j member]
      exact tail.looks j member

end Gathered

section Packing

/-- The requests that a queue's greedy packing chooses after a first request,
where a batch of some size and tokens is chosen already. -/
def pack (now : Seconds) (first : RequestRecord) (objects : Objects) (maxSize budget : Nat) :
    Nat → Nat → List ObjectId → List ObjectId
  | _, _, [] => []
  | size, tokens, i :: rest =>
    if maxSize ≤ size then []
    else if (objects i).over now then pack now first objects maxSize budget size tokens rest
    else if compatible first (objects i) ∧ tokens + (objects i).estimatedTokens ≤ budget then
      i :: pack now first objects maxSize budget (size + 1) (tokens + (objects i).estimatedTokens) rest
    else pack now first objects maxSize budget size tokens rest

variable {maxSize budget smaller : Nat}

theorem pack_within (queue : List ObjectId) (size tokens : Nat) :
    pack now first objects maxSize budget size tokens queue = [] ∨
      tokens + tokensOf objects (pack now first objects maxSize budget size tokens queue) ≤ budget := by
  induction queue generalizing size tokens with
  | nil => exact Or.inl rfl
  | cons i rest induct =>
    unfold pack
    split
    · exact Or.inl rfl
    split
    · exact induct size tokens
    split
    · rename_i fits
      right
      rw [tokensOf_cons, ← Nat.add_assoc]
      rcases induct (size + 1) (tokens + (objects i).estimatedTokens) with none | within
      · rw [none]
        exact fits.2
      · exact within
    · exact induct size tokens

/-- A smaller budget packs the same requests exactly where these keep to it. -/
theorem pack_smaller_iff (less : smaller ≤ budget) (queue : List ObjectId) (size tokens : Nat) :
    pack now first objects maxSize smaller size tokens queue = pack now first objects maxSize budget size tokens queue ↔
      pack now first objects maxSize budget size tokens queue = [] ∨
        tokens + tokensOf objects (pack now first objects maxSize budget size tokens queue) ≤ smaller := by
  constructor
  · intro same
    rw [← same]
    exact pack_within queue size tokens
  · intro within
    induction queue generalizing size tokens with
    | nil => rfl
    | cons i rest induct =>
      unfold pack at within ⊢
      by_cases reached : maxSize ≤ size
      · rw [if_pos reached, if_pos reached]
      rw [if_neg reached] at within
      rw [if_neg reached, if_neg reached]
      by_cases isOver : (objects i).over now = true
      · rw [if_pos isOver] at within
        rw [if_pos isOver, if_pos isOver]
        exact induct size tokens within
      rw [if_neg isOver] at within
      rw [if_neg isOver, if_neg isOver]
      by_cases fits : compatible first (objects i) = true ∧ tokens + (objects i).estimatedTokens ≤ budget
      · rw [if_pos fits] at within
        have joined := within.resolve_left (List.cons_ne_nil _ _)
        rw [tokensOf_cons, ← Nat.add_assoc] at joined
        have small : tokens + (objects i).estimatedTokens ≤ smaller := by omega
        rw [if_pos fits, if_pos ⟨fits.1, small⟩, induct _ _ (Or.inr joined)]
      · have unfit : ¬ (compatible first (objects i) = true ∧ tokens + (objects i).estimatedTokens ≤ smaller) :=
          fun both => fits ⟨both.1, both.2.trans less⟩
        rw [if_neg fits] at within
        rw [if_neg fits, if_neg unfit]
        exact induct size tokens within

/-- What stands in front of the first request that can run is not packed. -/
theorem pack_skipped {skipped : List ObjectId} (room : size < maxSize)
    (overs : ∀ i ∈ skipped, (objects i).over now = true) :
    pack now first objects maxSize budget size tokens (skipped ++ queue) =
      pack now first objects maxSize budget size tokens queue := by
  induction skipped with
  | nil => rfl
  | cons i rest induct =>
    rw [List.cons_append, pack, if_neg (by omega), if_pos (overs i List.mem_cons_self),
      induct fun j member => overs j (List.mem_cons_of_mem _ member)]

/-- The greedy packing of a whole queue around the first request that can run. -/
def packing (now : Seconds) (objects : Objects) (maxSize budget : Nat) (queue : List ObjectId) : List ObjectId :=
  match queue.find? fun i => !(objects i).over now with
  | none => []
  | some f => pack now (objects f) objects maxSize budget 0 0 queue

end Packing

section Scans

theorem timedOut_allowed {r : RequestRecord} (waiting : r.terminal = true ∨ r.status = .queued)
    (alive : r.terminal = false) : RequestState.timedOut ∈ r.status.allowed := by
  rw [alive] at waiting
  rw [waiting.resolve_left (by decide)]
  decide

/-- A scan looks at each request of the queue in turn; those it does not look
at, and those of no queue, keep their records. -/
theorem gather_gathered (w : ManagedWorker) (first : RequestRecord) (now : Seconds) (distinct : queue.Nodup)
    (waiting : ∀ i ∈ queue, (objects i).terminal = true ∨ (objects i).status = .queued)
    (same : ∀ i ∈ queue, current i = objects i) (selected : List ObjectId) (tokens : Nat) :
    ∃ chosen rest objects', w.gather first now selected tokens queue current = (.ok (selected ++ chosen, rest), objects') ∧
      Gathered w first now objects selected.length tokens queue chosen rest objects' ∧
      chosen = pack now first objects w.maxBatchSize w.maxBatchTokens selected.length tokens queue ∧
      ∀ j ∉ queue, objects' j = current j := by
  induction queue generalizing selected tokens current with
  | nil => exact ⟨[], [], current, by rw [gather, List.append_nil], .nil, rfl, fun _ _ => rfl⟩
  | cons i queue induct =>
    obtain ⟨fresh, distinct⟩ := List.nodup_cons.mp distinct
    have waits := waiting i List.mem_cons_self
    have kept := same i List.mem_cons_self
    have later := fun current => @induct current distinct fun j member => waiting j (List.mem_cons_of_mem _ member)
    have rest : ∀ j ∈ queue, current j = objects j := fun j member => same j (List.mem_cons_of_mem _ member)
    have outside : ∀ {j : ObjectId}, j ∉ i :: queue → j ∉ queue := fun absent member =>
      absent (List.mem_cons_of_mem _ member)
    unfold gather pack
    by_cases reached : w.maxBatchSize ≤ selected.length
    · rw [if_pos reached, if_pos reached]
      exact ⟨[], i :: queue, current, by rw [List.append_nil], .full reached same, rfl, fun _ _ => rfl⟩
    have room : selected.length < w.maxBatchSize := by omega
    rw [if_neg reached, if_neg reached, kept]
    by_cases ended : (objects i).terminal = true
    · rw [if_pos ended]
      obtain ⟨chosen, remaining, objects', run, tail, packed, others⟩ := later current rest selected tokens
      have isOver : (objects i).over now = true := by simp [RequestRecord.over, ended]
      rw [if_pos isOver]
      refine ⟨chosen, remaining, objects', run, tail.drop fresh room isOver ?_, packed,
        fun j absent => others j (outside absent)⟩
      rw [others i fresh, kept, scanned_of_terminal ended]
    rw [if_neg ended]
    have alive : (objects i).terminal = false := by simpa using ended
    by_cases expired : (objects i).deadline.expired now = true
    · rw [if_pos expired, RequestRecord.transition_ok (timedOut_allowed waits alive)]
      have untouched : ∀ j ∈ queue, current.put i ((objects i).enter .timedOut now) j = objects j := fun j member =>
        (Objects.put_of_ne fun equal : j = i => fresh (equal ▸ member)).trans (rest j member)
      obtain ⟨chosen, remaining, objects', run, tail, packed, others⟩ :=
        later (current.put i ((objects i).enter .timedOut now)) untouched selected tokens
      have isOver : (objects i).over now = true := by simp [RequestRecord.over, expired]
      rw [if_pos isOver]
      refine ⟨chosen, remaining, objects', run, tail.drop fresh room isOver ?_, packed, ?_⟩
      · rw [others i fresh, Objects.put_self]
        simp [scanned, alive, expired]
      · intro j absent
        have differ : j ≠ i := fun equal => absent (equal ▸ List.mem_cons_self)
        rw [others j (outside absent), Objects.put_of_ne differ]
    rw [if_neg expired]
    have live : (objects i).over now = false := by simp [RequestRecord.over, alive, expired]
    have here : ¬ (objects i).over now = true := by simp [live]
    rw [if_neg here]
    by_cases fits : compatible first (objects i) = true ∧ tokens + (objects i).estimatedTokens ≤ w.maxBatchTokens
    · rw [if_pos fits, if_pos fits]
      obtain ⟨chosen, remaining, objects', run, tail, packed, others⟩ :=
        later current rest (selected ++ [i]) (tokens + (objects i).estimatedTokens)
      rw [List.length_append] at tail packed
      refine ⟨i :: chosen, remaining, objects', ?_, tail.join fresh room live fits ((others i fresh).trans kept),
        congrArg (i :: ·) packed, fun j absent => others j (outside absent)⟩
      rw [run, List.append_assoc, List.singleton_append]
    · rw [if_neg fits, if_neg fits]
      obtain ⟨chosen, remaining, objects', run, tail, packed, others⟩ := later current rest selected tokens
      rw [run]
      exact ⟨chosen, i :: remaining, objects', rfl, tail.defer fresh live fits ((others i fresh).trans kept), packed,
        fun j absent => others j (outside absent)⟩

/-- The front of the queue up to the first request that can run. -/
theorem skipExpired_split (now : Seconds) (distinct : queue.Nodup)
    (waiting : ∀ i ∈ queue, (objects i).terminal = true ∨ (objects i).status = .queued)
    (same : ∀ i ∈ queue, current i = objects i) :
    ∃ skipped tail objects', skipExpired now queue current = (.ok (), tail, objects') ∧ queue = skipped ++ tail ∧
      (∀ i ∈ skipped, (objects i).over now = true ∧ objects' i = scanned now true (objects i)) ∧
      (∀ i ∈ tail.head?, (objects i).over now = false) ∧ ∀ j ∉ skipped, objects' j = current j := by
  induction queue generalizing current with
  | nil =>
    exact ⟨[], [], current, rfl, rfl, fun _ member => absurd member List.not_mem_nil,
      fun _ member => absurd member (Option.not_mem_none _), fun _ _ => rfl⟩
  | cons i queue induct =>
    obtain ⟨fresh, distinct⟩ := List.nodup_cons.mp distinct
    have waits := waiting i List.mem_cons_self
    have kept := same i List.mem_cons_self
    have later := fun current => @induct current distinct fun j member => waiting j (List.mem_cons_of_mem _ member)
    have rest : ∀ j ∈ queue, current j = objects j := fun j member => same j (List.mem_cons_of_mem _ member)
    unfold skipExpired
    rw [kept]
    by_cases ended : (objects i).terminal = true
    · rw [if_pos ended]
      obtain ⟨skipped, tail, objects', run, split, overs, front, others⟩ := later current rest
      have absent : i ∉ skipped := fun member => fresh (split ▸ List.mem_append_left _ member)
      refine ⟨i :: skipped, tail, objects', run, by rw [split, List.cons_append], ?_, front,
        fun j outside => others j fun member => outside (List.mem_cons_of_mem _ member)⟩
      intro j member
      rcases List.mem_cons.mp member with rfl | member
      · refine ⟨by simp [RequestRecord.over, ended], ?_⟩
        rw [others j absent, kept, scanned_of_terminal ended]
      · exact overs j member
    rw [if_neg ended]
    have alive : (objects i).terminal = false := by simpa using ended
    by_cases expired : (objects i).deadline.expired now = true
    · rw [if_pos expired, RequestRecord.transition_ok (timedOut_allowed waits alive)]
      have untouched : ∀ j ∈ queue, current.put i ((objects i).enter .timedOut now) j = objects j := fun j member =>
        (Objects.put_of_ne fun equal : j = i => fresh (equal ▸ member)).trans (rest j member)
      obtain ⟨skipped, tail, objects', run, split, overs, front, others⟩ :=
        later (current.put i ((objects i).enter .timedOut now)) untouched
      have absent : i ∉ skipped := fun member => fresh (split ▸ List.mem_append_left _ member)
      refine ⟨i :: skipped, tail, objects', run, by rw [split, List.cons_append], ?_, front, ?_⟩
      · intro j member
        rcases List.mem_cons.mp member with rfl | member
        · refine ⟨by simp [RequestRecord.over, expired], ?_⟩
          rw [others j absent, Objects.put_self]
          simp [scanned, alive, expired]
        · exact overs j member
      · intro j outside
        have differ : j ≠ i := fun equal => outside (equal ▸ List.mem_cons_self)
        rw [others j fun member => outside (List.mem_cons_of_mem _ member), Objects.put_of_ne differ]
    · rw [if_neg expired]
      refine ⟨[], i :: queue, current, rfl, rfl, fun _ member => absurd member List.not_mem_nil, ?_, fun _ _ => rfl⟩
      intro j member
      cases member
      simp [RequestRecord.over, alive, expired]

/-- Requests that are over and stand in front of a queue are dropped. -/
theorem Gathered.drops {skipped : List ObjectId} (tail : Gathered w first now objects 0 0 queue chosen rest objects')
    (distinct : (skipped ++ queue).Nodup)
    (overs : ∀ i ∈ skipped, (objects i).over now = true ∧ objects' i = scanned now true (objects i)) :
    Gathered w first now objects 0 0 (skipped ++ queue) chosen rest objects' := by
  induction skipped with
  | nil => exact tail
  | cons i skipped induct =>
    obtain ⟨fresh, distinct⟩ := List.nodup_cons.mp distinct
    obtain ⟨isOver, looked⟩ := overs i List.mem_cons_self
    have later := induct distinct fun j member => overs j (List.mem_cons_of_mem _ member)
    exact later.drop fresh w.positive.2.2.1 isOver looked

end Scans

/-- What the locked first part of `execute_batch` makes of a worker's queue. -/
structure Selects (now : Seconds) (p : WorkerProcess) (selected : List ObjectId) (p' : WorkerProcess) : Prop where
  first : selected.head? = p.worker.queue.find? fun i => !(p.objects i).over now
  uniform : ∀ f ∈ selected.head?, ∀ i ∈ selected, compatible (p.objects f) (p.objects i) = true
  size : selected.length ≤ p.worker.maxBatchSize
  budget : tokensOf p.objects selected ≤ p.worker.maxBatchTokens
  ordered : selected.Sublist p.worker.queue
  greedy : ∀ f ∈ selected.head?, ∀ i ∈ p.worker.queue, (i ∈ selected ↔
    (ahead p.worker.queue selected i).length < p.worker.maxBatchSize ∧ (p.objects i).over now = false ∧
      compatible (p.objects f) (p.objects i) = true ∧
      tokensOf p.objects (ahead p.worker.queue selected i) + (p.objects i).estimatedTokens ≤ p.worker.maxBatchTokens)
  remaining : p'.worker.queue.Sublist p.worker.queue
  stays : ∀ i ∈ p.worker.queue, (i ∈ p'.worker.queue ↔ i ∉ selected ∧
    ¬((ahead p.worker.queue selected i).length < p.worker.maxBatchSize ∧ (p.objects i).over now = true))
  records : ∀ i, p'.objects i =
    if i ∈ selected then (p.objects i).enter .running now
    else if i ∈ p.worker.queue then
      scanned now (decide ((ahead p.worker.queue selected i).length < p.worker.maxBatchSize)) (p.objects i)
    else p.objects i

/-- A scan of the whole queue, whose chosen requests are then started, is a selection. -/
theorem Gathered.selects {p p' : WorkerProcess}
    (scan : Gathered p.worker first now p.objects 0 0 p.worker.queue selected rest objects')
    (front : selected.head? = p.worker.queue.find? fun i => !(p.objects i).over now)
    (leader : ∀ f ∈ selected.head?, p.objects f = first) (others : ∀ j ∉ p.worker.queue, objects' j = p.objects j)
    (queue : p'.worker.queue = rest) (records : p'.objects = started now selected objects') :
    Selects now p selected p' := by
  have chosen : ∀ i ∈ selected, objects' i = p.objects i := by
    intro i member
    have inside := scan.ordered.subset member
    rw [scan.looks i inside, scanned_of_alive ((scan.joins i inside).mp member).2.1]
  refine ⟨front, ?_, ?_, ?_, scan.ordered, ?_, by rw [queue]; exact scan.remaining, ?_, ?_⟩
  · intro f head i member
    rw [leader f head]
    exact ((scan.joins i (scan.ordered.subset member)).mp member).2.2.1
  · rcases scan.sized with none | within
    · rw [none]
      exact Nat.zero_le _
    · rwa [Nat.zero_add] at within
  · rcases scan.within with none | within
    · rw [none]
      exact Nat.zero_le _
    · rwa [Nat.zero_add] at within
  · intro f head i member
    have joins := scan.joins i member
    rw [Nat.zero_add, Nat.zero_add] at joins
    rw [leader f head]
    exact joins
  · intro i member
    have stays := scan.stays i member
    rw [Nat.zero_add] at stays
    rw [queue]
    exact stays
  · intro i
    rw [records, started]
    by_cases member : i ∈ selected
    · rw [if_pos member, if_pos member, chosen i member]
    · rw [if_neg member, if_neg member]
      by_cases inside : i ∈ p.worker.queue
      · have looks := scan.looks i inside
        rw [Nat.zero_add] at looks
        rw [if_pos inside]
        exact looks
      · rw [if_neg inside]
        exact others i inside

theorem compatible_self (r : RequestRecord) : compatible r r = true := by simp [compatible]

/-- Opening a batch selects from the queue. -/
theorem beginBatch_selects {p : WorkerProcess} (queued : LocalQueue p) (now : Seconds) :
    ∃ selected p', beginBatch now p = (.ok selected, p') ∧ Selects now p selected p' ∧
      selected = packing now p.objects p.worker.maxBatchSize p.worker.maxBatchTokens p.worker.queue ∧
      ∀ i ∈ selected, (p'.objects i).status = .running := by
  obtain ⟨skipped, tail, objects, skip, split, overs, front, untouched⟩ :=
    skipExpired_split now queued.distinct queued.waiting fun _ _ => rfl
  have distinct := queued.distinct
  rw [split] at distinct
  obtain ⟨-, tailDistinct, apart⟩ := List.nodup_append.mp distinct
  have absent : ∀ i ∈ tail, i ∉ skipped := fun i member inside => apart i inside i member rfl
  have first : ∀ f ∈ tail.head?, (skipped ++ tail).find? (fun i => !(p.objects i).over now) = some f := by
    intro f head
    have none : skipped.find? (fun i => !(p.objects i).over now) = none :=
      List.find?_eq_none.mpr fun i member => by simp [(overs i member).1]
    cases tail with
    | nil => cases head
    | cons i rest =>
      have live := front i rfl
      cases head
      rw [List.find?_append, none, Option.none_or, List.find?_cons_of_pos (by simp [live])]
  cases tail with
  | nil =>
    rw [List.append_nil] at split
    have nothing : beginBatch now p = (.ok [], ⟨{ p.worker with queue := [] }, objects⟩) := by
      unfold beginBatch
      rw [skip]
    have none : Gathered p.worker (p.objects 0) now p.objects 0 0 [] [] [] objects := .nil
    have scan := none.drops distinct overs
    rw [List.append_nil, ← split] at scan
    have isOver : p.worker.queue.find? (fun i => !(p.objects i).over now) = Option.none :=
      List.find?_eq_none.mpr fun i member => by simp [(overs i (split ▸ member)).1]
    refine ⟨[], _, nothing, scan.selects isOver.symm (fun _ head => by cases head) ?_ rfl ?_, ?_,
      fun _ member => by cases member⟩
    · exact fun j outside => untouched j (split ▸ outside)
    · funext j
      simp [started]
    · rw [packing, isOver]
  | cons i rest =>
    obtain ⟨fresh, restDistinct⟩ := List.nodup_cons.mp tailDistinct
    have alive := front i rfl
    have inside : ∀ {j : ObjectId}, j ∈ i :: rest → j ∈ p.worker.queue := fun member =>
      split ▸ List.mem_append_right skipped member
    have kept : ∀ j ∈ i :: rest, objects j = p.objects j := fun j member => untouched j (absent j member)
    obtain ⟨chosen, remaining, objects', run, tail, packed, others⟩ := gather_gathered p.worker (objects i) now restDistinct
      (fun j member => queued.waiting j (inside (List.mem_cons_of_mem _ member)))
      (fun j member => kept j (List.mem_cons_of_mem _ member)) [i] (objects i).estimatedTokens
    rw [kept i List.mem_cons_self] at run tail packed
    have fits := queued.fitting i (inside List.mem_cons_self)
    have within : compatible (p.objects i) (p.objects i) = true ∧
        0 + (p.objects i).estimatedTokens ≤ p.worker.maxBatchTokens :=
      ⟨compatible_self _, by rwa [Nat.zero_add]⟩
    have same : objects' i = p.objects i := (others i fresh).trans (kept i List.mem_cons_self)
    rw [List.length_singleton, ← Nat.zero_add 1, ← Nat.zero_add (p.objects i).estimatedTokens] at tail
    have batch := tail.join fresh p.worker.positive.2.2.1 alive within same
    have outside : ∀ j ∉ i :: rest, objects' j = objects j := fun j out => others j fun member =>
      out (List.mem_cons_of_mem _ member)
    have scan := batch.drops distinct fun j member => by
      have out : j ∉ i :: rest := fun held => absent j held member
      rw [outside j out]
      exact overs j member
    rw [← split] at scan
    have waits : ∀ j ∈ i :: chosen, (objects' j).status = .queued := by
      intro j member
      have held := scan.ordered.subset member
      have live := ((scan.joins j held).mp member).2.1
      rw [scan.looks j held, scanned_of_alive live]
      refine (queued.waiting j held).resolve_left ?_
      rw [RequestRecord.over, Bool.or_eq_false_iff] at live
      rw [live.1]
      decide
    have starts : ∃ worker, startAll now (i :: chosen) ⟨{ p.worker with queue := remaining }, objects'⟩ =
        (.ok (), ⟨worker, started now (i :: chosen) objects'⟩) :=
      startAll_ok waits (queued.distinct.sublist scan.ordered)
    obtain ⟨worker, starts⟩ := starts
    have queues := startAll_queue now (i :: chosen) ⟨{ p.worker with queue := remaining }, objects'⟩
    have opened : ∃ p', beginBatch now p = (.ok (i :: chosen), p') ∧ p'.worker.queue = remaining ∧
        p'.objects = started now (i :: chosen) objects' := by
      rw [starts] at queues
      unfold beginBatch
      rw [skip]
      dsimp only
      rw [kept i List.mem_cons_self, run]
      dsimp only
      rw [List.singleton_append, Attempt.bind_ok starts]
      exact ⟨_, rfl, queues, rfl⟩
    obtain ⟨p', run, queue, records⟩ := opened
    refine ⟨i :: chosen, p', run, scan.selects ?_ ?_ ?_ queue records, ?_, ?_⟩
    · rw [split, first i rfl]
      rfl
    · intro f head
      cases head
      rfl
    · intro j out
      have away : j ∉ i :: rest := fun member => out (inside member)
      rw [outside j away]
      exact untouched j fun member => out (split ▸ List.mem_append_left _ member)
    · have live : ¬ (p.objects i).over now = true := by simp [alive]
      rw [packing, split, first i rfl]
      dsimp only
      rw [pack_skipped p.worker.positive.2.2.1 fun j member => (overs j member).1, pack,
        if_neg (not_le.mpr p.worker.positive.2.2.1), if_neg live, if_pos within, packed, List.length_singleton,
        Nat.zero_add, Nat.zero_add]
    · intro j member
      rw [records, started, if_pos member]
      rfl

end ManagedWorker

end ServingPlatform
