import ServingPlatform.KvCache.AllocatorRuns
import ServingPlatform.TokenEngine.Actions

namespace ServingPlatform

variable {S : Type} {e : Engine S}

namespace KVBlockAllocator

variable {a a' : KVBlockAllocator}

theorem blocksForTokens_congr (same : a'.dimensions = a.dimensions) (tokens : Int) :
    a'.blocksForTokens tokens = a.blocksForTokens tokens := by
  unfold blocksForTokens
  rw [same]

/-- What a resize may do to the tables, whether it returns or raises: only
the owner's table changes, and it stays a table. -/
theorem resize_owners (before : a.Consistent) (owner : String) (tokens : Int) :
    (a.resize owner tokens).2.Consistent ∧ (a.resize owner tokens).2.dimensions = a.dimensions ∧
      (∀ other, other ≠ owner → (a.resize owner tokens).2.owners.get? other = a.owners.get? other) ∧
      ((a.resize owner tokens).2.owners.get? owner).isSome = (a.owners.get? owner).isSome := by
  refine ⟨resize_consistent before owner tokens, perform_dimensions before (.resize owner tokens), ?_⟩
  rcases resize_cases before owner tokens with
    ⟨raised, a', run, same⟩ | ⟨n, old, table, a', run, -, found, -, -, ⟨-, grown⟩ | ⟨-, shrunk⟩ | ⟨-, same⟩⟩
  · rw [run, same.owners]
    exact ⟨fun other _ => rfl, rfl⟩
  · rw [run, grown.owners]
    exact ⟨fun other differ => Dict.get?_insert_of_ne differ, by rw [Dict.get?_insert_self, found]; rfl⟩
  · rw [run, shrunk.owners]
    exact ⟨fun other differ => Dict.get?_insert_of_ne differ, by rw [Dict.get?_insert_self, found]; rfl⟩
  · rw [run, same.owners]
    exact ⟨fun other _ => rfl, rfl⟩

/-- A successful resize leaves a table of the computed size. -/
theorem resize_ok {owner : String} {tokens : Int} {blocks : List BlockId} (before : a.Consistent)
    (done : (a.resize owner tokens).1 = .ok blocks) :
    (a.resize owner tokens).2.owners.get? owner = some blocks ∧ a.blocksForTokens tokens = .ok blocks.length := by
  rcases resize_cases before owner tokens with
    ⟨raised, a', run, same⟩ | ⟨n, old, table, a', run, needed, found, size, -, effect⟩
  · rw [run] at done
    cases done
  · rw [run] at done ⊢
    cases done
    refine ⟨?_, size ▸ needed⟩
    rcases effect with ⟨value, grown⟩ | ⟨value, shrunk⟩ | ⟨value, same⟩
    · rw [grown.owners, Dict.get?_insert_self, value]
    · rw [shrunk.owners, Dict.get?_insert_self, value]
    · rw [same.owners, found, value]

end KVBlockAllocator

namespace Engine

section Sequences

variable {r r' : Ref} {f : ScheduledSequence → ScheduledSequence}

@[simp] theorem modifySequence_self : (e.modifySequence r f).sequences r = f (e.sequences r) := if_pos rfl

theorem modifySequence_of_ne (differ : r' ≠ r) : (e.modifySequence r f).sequences r' = e.sequences r' :=
  if_neg differ

theorem modifySequence_cases (r' : Ref) (f : ScheduledSequence → ScheduledSequence) :
    (r' = r ∧ (e.modifySequence r f).sequences r' = f (e.sequences r')) ∨
      (r' ≠ r ∧ (e.modifySequence r f).sequences r' = e.sequences r') := by
  by_cases same : r' = r
  · subst same
    exact Or.inl ⟨rfl, modifySequence_self⟩
  · exact Or.inr ⟨same, modifySequence_of_ne same⟩

/-- A property of single sequences that `f` keeps is kept by updating one of them. -/
theorem modifySequence_congr {β : Type} (g : ScheduledSequence → β) (kept : g (f (e.sequences r)) = g (e.sequences r))
    (r' : Ref) : g ((e.modifySequence r f).sequences r') = g (e.sequences r') := by
  rcases modifySequence_cases (e := e) (r := r) r' f with ⟨rfl, here⟩ | ⟨-, elsewhere⟩
  · rw [here, kept]
  · rw [elsewhere]

end Sequences

/-- A reservation is refused with no table changed, or admits one new sequence. -/
theorem reserve_cases (e : Engine S) (id prompt : String) (sampling : SamplingParameters) (deadline : Seconds)
    (count : Int) (createdAt : Seconds) :
    (∃ raised kvAllocator, e.reserve id prompt sampling deadline count createdAt =
        (.error raised, { e with kvAllocator }) ∧ KVBlockAllocator.SameTables e.kvAllocator kvAllocator) ∨
      ∃ n kvAllocator blocks, e.closed = false ∧ e.active.get? id = none ∧ e.finished.get? id = none ∧
        e.active.size < e.config.maxActiveSequences ∧
        KVBlockAllocator.Grown e.kvAllocator kvAllocator id [] n ∧ e.kvAllocator.owners.get? id = none ∧
        e.reserve id prompt sampling deadline count createdAt = (.ok (), e.admitSequence
          { requestId := id, prompt, sampling, deadline, createdAt, kvBlockIds := blocks } kvAllocator) := by
  unfold reserve
  by_cases closed : e.closed = true
  · rw [if_pos closed]
    exact Or.inl ⟨_, e.kvAllocator, rfl, .rfl⟩
  rw [if_neg closed]
  by_cases known : (e.active.contains id || e.finished.contains id) = true
  · rw [if_pos known]
    exact Or.inl ⟨_, e.kvAllocator, rfl, .rfl⟩
  rw [if_neg known]
  by_cases full : e.config.maxActiveSequences ≤ e.active.size
  · rw [if_pos full]
    exact Or.inl ⟨_, e.kvAllocator, rfl, .rfl⟩
  rw [if_neg full]
  rcases e.kvAllocator.allocate_cases id (count + sampling.maxNewTokens) with
    ⟨raised, kvAllocator, run, same⟩ | ⟨n, kvAllocator, run, -, -, unowned, grown⟩
  · rw [run]
    exact Or.inl ⟨_, kvAllocator, rfl, same⟩
  · rw [run]
    have absent : e.active.contains id = false ∧ e.finished.contains id = false := by
      simpa only [Bool.or_eq_true, not_or, Bool.not_eq_true] using known
    exact Or.inr ⟨n, kvAllocator, _, by simpa using closed, Dict.contains_eq_false_iff.mp absent.1,
      Dict.contains_eq_false_iff.mp absent.2, Nat.lt_of_not_le full, grown, unowned, rfl⟩

/-- An active sequence is retired without an exception. -/
theorem retire_ok {r : Ref} {table : List BlockId} (consistent : e.kvAllocator.Consistent)
    (owned : e.kvAllocator.owners.get? (e.requestId r) = some table) (event : ScheduledSequence → StreamEvent) :
    ∃ kvAllocator, KVBlockAllocator.Released e.kvAllocator kvAllocator (e.requestId r) table ∧
      e.retire r event = (.ok (), { e.modifySequence r fun runtime =>
          { runtime with events := runtime.events ++ [event runtime], done := true } with
        kvAllocator := kvAllocator
        active := e.active.erase (e.requestId r)
        finished := e.finished.insert (e.requestId r) r
        wake := true }) := by
  unfold retire
  rcases KVBlockAllocator.release_cases consistent (e.requestId r) with
    ⟨-, absent⟩ | ⟨other, kvAllocator, run, released⟩
  · rw [absent] at owned
    cases owned
  · cases released.found.symm.trans owned
    rw [run]
    exact ⟨kvAllocator, released, rfl⟩

/-- Whether a resize returns or raises, the engine keeps the allocator. -/
theorem noteResize_cases (e : Engine S) (r : Ref) (outcome : Except Raised (List BlockId) × KVBlockAllocator) :
    (∃ raised, outcome.1 = .error raised ∧
      e.noteResize r outcome = (.error raised, { e with kvAllocator := outcome.2 })) ∨
    ∃ blocks, outcome.1 = .ok blocks ∧
      e.noteResize r outcome = (.ok (), { e with kvAllocator := outcome.2 }.modifySequence r fun runtime =>
        { runtime with state := { runtime.state with kvBlockIds := blocks } }) := by
  rcases outcome with ⟨raised | blocks, kvAllocator⟩
  · exact Or.inl ⟨raised, rfl, rfl⟩
  · exact Or.inr ⟨blocks, rfl, rfl⟩

theorem noteResize_ok {r : Ref} {outcome : Except Raised (List BlockId) × KVBlockAllocator}
    (ok : (e.noteResize r outcome).1 = .ok ()) : ∃ blocks, outcome.1 = .ok blocks := by
  rcases e.noteResize_cases r outcome with ⟨raised, -, run⟩ | ⟨blocks, returned, -⟩
  · rw [run] at ok
    cases ok
  · exact ⟨blocks, returned⟩

/-- What else an update of the reservation leaves as it is. -/
theorem noteResize_frame (e : Engine S) (r : Ref) (outcome : Except Raised (List BlockId) × KVBlockAllocator) :
    (e.noteResize r outcome).2.kvAllocator = outcome.2 ∧
      (∀ r', ((e.noteResize r outcome).2.sequences r').vital = (e.sequences r').vital) ∧
      (e.noteResize r outcome).2.active = e.active ∧ (e.noteResize r outcome).2.created = e.created ∧
      (e.noteResize r outcome).2.eosIds = e.eosIds ∧ (e.noteResize r outcome).2.schedulerTask = e.schedulerTask := by
  rcases e.noteResize_cases r outcome with ⟨raised, -, run⟩ | ⟨blocks, -, run⟩
  · rw [run]
    exact ⟨rfl, fun _ => rfl, rfl, rfl, rfl, rfl⟩
  · rw [run]
    refine ⟨rfl, fun r' => ?_, rfl, rfl, rfl, rfl⟩
    exact modifySequence_congr (e := { e with kvAllocator := outcome.2 }) (r := r) (f := fun runtime =>
      { runtime with state := { runtime.state with kvBlockIds := blocks } }) ScheduledSequence.vital rfl r'

namespace Quiet

variable {e' e'' : Engine S}

theorem refl : e.Quiet e :=
  ⟨rfl, rfl, rfl, rfl, fun _ => rfl, fun _ set => set, rfl, rfl, rfl, rfl, fun closed => closed, rfl, rfl⟩

theorem trans (first : e.Quiet e') (second : e'.Quiet e'') : e.Quiet e'' where
  config := second.config.trans first.config
  policy := second.policy.trans first.policy
  kvAllocator := second.kvAllocator.trans first.kvAllocator
  prefixCache := second.prefixCache.trans first.prefixCache
  sequences r := (second.sequences r).trans (first.sequences r)
  cancellation r set := second.cancellation r (first.cancellation r set)
  created := second.created.trans first.created
  active := second.active.trans first.active
  finished := second.finished.trans first.finished
  schedulerTask := second.schedulerTask.trans first.schedulerTask
  closed was := second.closed (first.closed was)
  executorClosed := second.executorClosed.trans first.executorClosed
  eosIds := second.eosIds.trans first.eosIds

theorem modified {r : Ref} {f : ScheduledSequence → ScheduledSequence} (vital : ∀ runtime, (f runtime).vital = runtime.vital)
    (cancellation : ∀ runtime, runtime.state.cancellation = true → (f runtime).state.cancellation = true) :
    e.Quiet (e.modifySequence r f) :=
  { refl with
    sequences := modifySequence_congr ScheduledSequence.vital (vital _)
    cancellation := fun r' set => by
      rcases modifySequence_cases (e := e) (r := r) r' f with ⟨-, here⟩ | ⟨-, elsewhere⟩
      · rw [here]
        exact cancellation _ set
      · rw [elsewhere]
        exact set }

theorem addPrefillTime (r : Ref) (elapsed : Int) : e.Quiet (e.addPrefillTime r elapsed) :=
  modified (fun _ => rfl) fun _ set => set

theorem addDecodeTime (r : Ref) (elapsed : Int) : e.Quiet (e.addDecodeTime r elapsed) :=
  modified (fun _ => rfl) fun _ set => set

theorem setCancellation (r : Ref) : e.Quiet (e.setCancellation r) :=
  modified (fun _ => rfl) fun _ _ => rfl

theorem setWake : e.Quiet e.setWake := { refl with }

theorem clearWake : e.Quiet e.clearWake := { refl with }

theorem countPrefill (size : Nat) : e.Quiet (e.countPrefill size) := { refl with }

theorem countDecode (size : Nat) : e.Quiet (e.countDecode size) := { refl with }

theorem close : e.Quiet e.close :=
  { refl with
    sequences := fun r => by
      show (if r ∈ e.active.values then _ else _ : ScheduledSequence).vital = _
      split <;> rfl
    cancellation := fun r set => by
      show (if r ∈ e.active.values then _ else _ : ScheduledSequence).state.cancellation = true
      split
      · rfl
      · exact set
    closed := fun _ => rfl }

end Quiet

end Engine

end ServingPlatform
