import ServingPlatform.KvCache.Allocator

namespace ServingPlatform.KVBlockAllocator

theorem get?_referenceFresh {blocks : List BlockId} {references : Dict BlockId Nat} {b : BlockId} :
    (referenceFresh blocks references).get? b = if b ∈ blocks then some 1 else references.get? b := by
  unfold referenceFresh
  induction blocks generalizing references with
  | nil => simp
  | cons block rest ih =>
    rw [List.foldl_cons, ih, Dict.get?_insert]
    by_cases later : b ∈ rest
    · simp [later]
    · by_cases here : b = block <;> simp [later, here]

/-- Over referenced, distinct blocks the increments all succeed. -/
theorem retainBlocks_ok {blocks : List BlockId} {references : Dict BlockId Nat} (distinct : blocks.Nodup)
    (held : ∀ b ∈ blocks, b ∈ references.keys) :
    ∃ after, retainBlocks blocks references = (.ok (), after) ∧
      ∀ b, after.get? b = if b ∈ blocks then (references.get? b).map (· + 1) else references.get? b := by
  induction blocks generalizing references with
  | nil => exact ⟨references, rfl, by simp⟩
  | cons block rest ih =>
    obtain ⟨fresh, tail⟩ := List.nodup_cons.mp distinct
    obtain ⟨count, atBlock⟩ := Dict.mem_keys_iff.mp (held block (List.mem_cons_self ..))
    have restHeld : ∀ b ∈ rest, b ∈ (references.insert block (count + 1)).keys := fun b member =>
      Dict.mem_keys_insert.mpr (Or.inr (held b (List.mem_cons_of_mem _ member)))
    obtain ⟨after, run, counts⟩ := ih tail restHeld
    refine ⟨after, by simp only [retainBlocks, atBlock, run], fun b => ?_⟩
    rw [counts, Dict.get?_insert]
    by_cases here : b = block
    · subst here
      simp [fresh, atBlock]
    · simp [here]

/-- Over referenced, distinct blocks the deletions all succeed. -/
theorem dropBlocks_ok {blocks : List BlockId} {references : Dict BlockId Nat} (free : List BlockId)
    (distinct : blocks.Nodup) (held : ∀ b ∈ blocks, b ∈ references.keys) :
    ∃ after, dropBlocks blocks references free = (.ok (), after, blocks.reverse ++ free) ∧
      ∀ b, after.get? b = if b ∈ blocks then none else references.get? b := by
  induction blocks generalizing references free with
  | nil => exact ⟨references, rfl, by simp⟩
  | cons block rest ih =>
    obtain ⟨fresh, tail⟩ := List.nodup_cons.mp distinct
    have present : references.contains block = true :=
      Dict.contains_iff.mpr (held block (List.mem_cons_self ..))
    have restHeld : ∀ b ∈ rest, b ∈ (references.erase block).keys := fun b member =>
      Dict.mem_keys_erase.mpr
        ⟨fun same => fresh (same ▸ member), held b (List.mem_cons_of_mem _ member)⟩
    obtain ⟨after, run, counts⟩ := ih (block :: free) tail restHeld
    refine ⟨after, by simp [dropBlocks, present, run], fun b => ?_⟩
    rw [counts, Dict.get?_erase]
    by_cases later : b ∈ rest
    · simp [later]
    · by_cases here : b = block <;> simp [later, here]

/-- A release returns to the free list the blocks it held the last reference of. -/
theorem releaseBlocks_ok {blocks : List BlockId} {references : Dict BlockId Nat} (free : List BlockId)
    (distinct : blocks.Nodup) (held : ∀ b ∈ blocks, b ∈ references.keys) :
    ∃ after, releaseBlocks blocks references free =
        (.ok (), after, (blocks.filter (fun b => (references.get? b).getD 0 ≤ 1)).reverse ++ free) ∧
      ∀ b, after.get? b =
        if b ∈ blocks then (references.get? b).bind (fun c => if c ≤ 1 then none else some (c - 1))
        else references.get? b := by
  induction blocks generalizing references free with
  | nil => exact ⟨references, rfl, by simp⟩
  | cons block rest ih =>
    obtain ⟨fresh, tail⟩ := List.nodup_cons.mp distinct
    obtain ⟨count, atBlock⟩ := Dict.mem_keys_iff.mp (held block (List.mem_cons_self ..))
    have apart : ∀ b ∈ rest, b ≠ block := fun b member same => fresh (same ▸ member)
    by_cases last : count ≤ 1
    · have restHeld : ∀ b ∈ rest, b ∈ (references.erase block).keys := fun b member =>
        Dict.mem_keys_erase.mpr ⟨apart b member, held b (List.mem_cons_of_mem _ member)⟩
      obtain ⟨after, run, counts⟩ := ih (block :: free) tail restHeld
      have sameFilter : rest.filter (fun b => decide (((references.erase block).get? b).getD 0 ≤ 1)) =
          rest.filter (fun b => decide ((references.get? b).getD 0 ≤ 1)) :=
        List.filter_congr fun b member => by rw [Dict.get?_erase_of_ne (apart b member)]
      refine ⟨after, ?_, fun b => ?_⟩
      · have none_left : count - 1 = 0 := by omega
        simp [releaseBlocks, atBlock, none_left, run, sameFilter, last]
      · rw [counts, Dict.get?_erase]
        by_cases here : b = block
        · subst here
          simp [fresh, atBlock, last]
        · simp [here]
    · have restHeld : ∀ b ∈ rest, b ∈ (references.insert block (count - 1)).keys := fun b member =>
        Dict.mem_keys_insert.mpr (Or.inr (held b (List.mem_cons_of_mem _ member)))
      obtain ⟨after, run, counts⟩ := ih free tail restHeld
      have sameFilter : rest.filter
          (fun b => decide (((references.insert block (count - 1)).get? b).getD 0 ≤ 1)) =
          rest.filter (fun b => decide ((references.get? b).getD 0 ≤ 1)) :=
        List.filter_congr fun b member => by rw [Dict.get?_insert_of_ne (apart b member)]
      refine ⟨after, ?_, fun b => ?_⟩
      · have some_left : ¬ count - 1 = 0 := by omega
        simp [releaseBlocks, atBlock, some_left, run, sameFilter, last]
      · rw [counts, Dict.get?_insert]
        by_cases here : b = block
        · subst here
          simp [fresh, atBlock, last]
        · simp [here]

theorem anyShared_ok {blocks : List BlockId} {references : Dict BlockId Nat}
    (held : ∀ b ∈ blocks, b ∈ references.keys) :
    ∃ shared, anyShared blocks references = .ok shared ∧
      (shared = false → ∀ b ∈ blocks, references.get? b = some 1) := by
  induction blocks with
  | nil => exact ⟨false, rfl, by simp⟩
  | cons block rest ih =>
    obtain ⟨count, atBlock⟩ := Dict.mem_keys_iff.mp (held block (List.mem_cons_self ..))
    obtain ⟨shared, run, single⟩ := ih fun b member => held b (List.mem_cons_of_mem _ member)
    by_cases one : count = 1
    · refine ⟨shared, by simp [anyShared, atBlock, one, run], fun unshared b member => ?_⟩
      rcases List.mem_cons.mp member with here | later
      · rw [here, atBlock, one]
      · exact single unshared b later
    · exact ⟨true, by simp [anyShared, atBlock, one], by simp⟩

end ServingPlatform.KVBlockAllocator

namespace ServingPlatform.KVBlockAllocator

/-- How many owner tables contain a block. -/
def tableCount (owners : Dict String (List BlockId)) (b : BlockId) : Nat :=
  owners.values.countP (fun table => decide (b ∈ table))

/-- Every block is either free or referenced, tables hold a block once and
reference counts equal the number of tables containing the block. -/
structure Consistent (a : KVBlockAllocator) : Prop where
  freeNodup : a.free.Nodup
  covered : ∀ b, b ∈ a.free ∨ b ∈ a.references.keys ↔ 0 ≤ b ∧ b < a.dimensions.totalBlocks
  disjoint : ∀ b ∈ a.free, b ∉ a.references.keys
  tablesNodup : ∀ owner table, a.owners.get? owner = some table → table.Nodup
  counts : ∀ b, (a.references.get? b).getD 0 = tableCount a.owners b
  positive : ∀ b count, a.references.get? b = some count → 0 < count

/-- The part of the state a failing call must leave alone. -/
structure SameTables (a a' : KVBlockAllocator) : Prop where
  dimensions : a'.dimensions = a.dimensions
  free : a'.free = a.free
  owners : a'.owners = a.owners
  references : a'.references = a.references

/-- An owner's table `old` grows by the next `n` free blocks. -/
structure Grown (a a' : KVBlockAllocator) (owner : String) (old : List BlockId) (n : Nat) : Prop where
  room : n ≤ a.free.length
  dimensions : a'.dimensions = a.dimensions
  free : a'.free = a.free.drop n
  owners : a'.owners = a.owners.insert owner (old ++ a.free.take n)
  references : ∀ b, a'.references.get? b = if b ∈ a.free.take n then some 1 else a.references.get? b

/-- A new owner shares blocks that are referenced already. -/
structure Shared (a a' : KVBlockAllocator) (owner : String) (blocks : List BlockId) : Prop where
  fresh : a.owners.get? owner = none
  distinct : blocks.Nodup
  held : ∀ b ∈ blocks, b ∈ a.references.keys
  dimensions : a'.dimensions = a.dimensions
  free : a'.free = a.free
  owners : a'.owners = a.owners.insert owner blocks
  references : ∀ b, a'.references.get? b =
    if b ∈ blocks then (a.references.get? b).map (· + 1) else a.references.get? b

/-- An unshared table is cut to its first `n` blocks. -/
structure Shrunk (a a' : KVBlockAllocator) (owner : String) (old : List BlockId) (n : Nat) : Prop where
  found : a.owners.get? owner = some old
  single : ∀ b ∈ old, a.references.get? b = some 1
  dimensions : a'.dimensions = a.dimensions
  free : a'.free = (old.drop n).reverse ++ a.free
  owners : a'.owners = a.owners.insert owner (old.take n)
  references : ∀ b, a'.references.get? b = if b ∈ old.drop n then none else a.references.get? b

/-- A table is given up; blocks referenced nowhere else become free. -/
structure Released (a a' : KVBlockAllocator) (owner : String) (table : List BlockId) : Prop where
  found : a.owners.get? owner = some table
  dimensions : a'.dimensions = a.dimensions
  free : a'.free = (table.filter (fun b => (a.references.get? b).getD 0 ≤ 1)).reverse ++ a.free
  owners : a'.owners = a.owners.erase owner
  references : ∀ b, a'.references.get? b =
    if b ∈ table then (a.references.get? b).bind (fun c => if c ≤ 1 then none else some (c - 1))
    else a.references.get? b

theorem updatePressure_sameTables (a : KVBlockAllocator) : SameTables a a.updatePressure := by
  unfold updatePressure
  dsimp only
  split
  · exact ⟨rfl, rfl, rfl, rfl⟩
  · split <;> exact ⟨rfl, rfl, rfl, rfl⟩

@[simp] theorem updatePressure_dimensions (a : KVBlockAllocator) : a.updatePressure.dimensions = a.dimensions :=
  (updatePressure_sameTables a).dimensions

@[simp] theorem updatePressure_free (a : KVBlockAllocator) : a.updatePressure.free = a.free :=
  (updatePressure_sameTables a).free

@[simp] theorem updatePressure_owners (a : KVBlockAllocator) : a.updatePressure.owners = a.owners :=
  (updatePressure_sameTables a).owners

@[simp] theorem updatePressure_references (a : KVBlockAllocator) :
    a.updatePressure.references = a.references :=
  (updatePressure_sameTables a).references

theorem countFailure_sameTables (a : KVBlockAllocator) : SameTables a a.countFailure :=
  ⟨by simp [countFailure], by simp [countFailure], by simp [countFailure], by simp [countFailure]⟩

theorem SameTables.rfl {a : KVBlockAllocator} : SameTables a a := ⟨Eq.refl _, Eq.refl _, Eq.refl _, Eq.refl _⟩

/-- An allocation fails without touching a table, or grows an empty table
of a new owner by the required number of blocks. -/
theorem allocate_cases (a : KVBlockAllocator) (owner : String) (tokens : Int) :
    (∃ raised a', a.allocate owner tokens = (.error raised, a') ∧ SameTables a a') ∨
      ∃ n a', a.allocate owner tokens = (.ok (a.free.take n), a') ∧ a.blocksForTokens tokens = .ok n ∧
        owner ≠ "" ∧ a.owners.get? owner = none ∧ Grown a a' owner [] n := by
  unfold allocate
  by_cases unnamed : owner = ""
  · rw [if_pos unnamed]
    exact Or.inl ⟨_, a, rfl, .rfl⟩
  rw [if_neg unnamed]
  cases needed : a.blocksForTokens tokens with
  | error raised => exact Or.inl ⟨raised, a, rfl, .rfl⟩
  | ok n =>
    cases known : a.owners.contains owner with
    | true => exact Or.inl ⟨_, a, rfl, .rfl⟩
    | false =>
      by_cases short : a.free.length < n
      · simp only [short, if_true, Bool.false_eq_true, if_false]
        exact Or.inl ⟨_, _, rfl, countFailure_sameTables a⟩
      · simp only [short, Bool.false_eq_true, if_false]
        refine Or.inr ⟨n, _, rfl, rfl, unnamed, Dict.contains_eq_false_iff.mp known, ?_⟩
        exact ⟨Nat.le_of_not_lt short, by simp, by simp, by simp, fun b => by simp [get?_referenceFresh]⟩

theorem retain_cases (a : KVBlockAllocator) (owner : String) (blocks : List BlockId) :
    (∃ raised, a.retain owner blocks = (.error raised, a)) ∨
      ∃ a', a.retain owner blocks = (.ok (), a') ∧ Shared a a' owner blocks := by
  unfold retain
  by_cases missing : owner = "" ∨ blocks = []
  · rw [if_pos missing]
    exact Or.inl ⟨_, rfl⟩
  by_cases distinct : blocks.Nodup
  · rw [if_neg missing, if_neg (not_not_intro distinct)]
    cases known : a.owners.contains owner with
    | true => exact Or.inl ⟨_, rfl⟩
    | false =>
      by_cases unheld : blocks.any (fun block => !a.references.contains block) = true
      · simp only [unheld, if_true, Bool.false_eq_true, if_false]
        exact Or.inl ⟨_, rfl⟩
      · have held : ∀ b ∈ blocks, b ∈ a.references.keys := by
          intro b member
          simp only [List.any_eq_true, not_exists, not_and] at unheld
          simpa [Dict.contains_iff] using unheld b member
        obtain ⟨after, run, counts⟩ := retainBlocks_ok distinct held
        simp only [unheld, run, Bool.false_eq_true, if_false]
        refine Or.inr ⟨_, rfl, Dict.contains_eq_false_iff.mp known, distinct, held, by simp, by simp, by simp,
          fun b => by simp [counts]⟩
  · rw [if_neg missing, if_pos distinct]
    exact Or.inl ⟨_, rfl⟩

theorem Consistent.table_held {a : KVBlockAllocator} (consistent : a.Consistent) {owner : String}
    {table : List BlockId} (atOwner : a.owners.get? owner = some table) :
    ∀ b ∈ table, b ∈ a.references.keys := by
  intro b member
  have counted : 0 < tableCount a.owners b :=
    List.countP_pos_iff.mpr ⟨table, Dict.mem_values_iff.mpr ⟨owner, atOwner⟩, by simpa using member⟩
  rw [← consistent.counts] at counted
  rw [Dict.mem_keys_iff]
  cases found : a.references.get? b with
  | none => simp [found] at counted
  | some count => exact ⟨count, rfl⟩

/-- A resize fails without touching a table, or sets the owner's table to
exactly the required number of blocks, keeping its common prefix. -/
theorem resize_cases {a : KVBlockAllocator} (consistent : a.Consistent) (owner : String) (tokens : Int) :
    (∃ raised a', a.resize owner tokens = (.error raised, a') ∧ SameTables a a') ∨
      ∃ n old table a', a.resize owner tokens = (.ok table, a') ∧ a.blocksForTokens tokens = .ok n ∧
        a.owners.get? owner = some old ∧ table.length = n ∧ (∀ b ∈ old, a.references.get? b = some 1) ∧
        ((table = old ++ a.free.take (n - old.length) ∧ Grown a a' owner old (n - old.length)) ∨
          (table = old.take n ∧ Shrunk a a' owner old n) ∨ (table = old ∧ SameTables a a')) := by
  unfold resize
  cases needed : a.blocksForTokens tokens with
  | error raised => exact Or.inl ⟨raised, a, rfl, .rfl⟩
  | ok n =>
    cases atOwner : a.owners.get? owner with
    | none => exact Or.inl ⟨_, a, rfl, .rfl⟩
    | some old =>
      have held := consistent.table_held atOwner
      obtain ⟨shared, run, single⟩ := anyShared_ok held
      simp only [run]
      cases shared with
      | true => exact Or.inl ⟨_, a, rfl, .rfl⟩
      | false =>
        have unshared := single rfl
        by_cases short : (a.free.length : Int) < n - old.length
        · simp only [short, if_true]
          exact Or.inl ⟨_, _, rfl, countFailure_sameTables a⟩
        by_cases grow : (0 : Int) < n - old.length
        · have amount : ((n : Int) - old.length).toNat = n - old.length := by omega
          simp only [short, if_false, grow, if_true, amount]
          refine Or.inr ⟨n, old, _, _, rfl, rfl, rfl, ?_, unshared,
            Or.inl ⟨rfl, by omega, by simp, by simp, by simp, fun b => by simp [get?_referenceFresh]⟩⟩
          rw [List.length_append, List.length_take]
          omega
        by_cases cut : (n : Int) - old.length < 0
        · obtain ⟨after, dropped, counts⟩ := dropBlocks_ok a.free
            ((List.drop_sublist n old).nodup (consistent.tablesNodup owner old atOwner))
            (fun b member => held b (List.mem_of_mem_drop member))
          simp only [short, grow, if_false, cut, if_true, dropped]
          refine Or.inr ⟨n, old, _, _, rfl, rfl, rfl, ?_, unshared,
            Or.inr (Or.inl ⟨rfl, atOwner, unshared, by simp, by simp, by simp, fun b => by simp [counts]⟩)⟩
          rw [List.length_take]
          omega
        · simp only [short, grow, cut, if_false]
          exact Or.inr ⟨n, old, _, _, rfl, rfl, rfl, by omega, unshared,
            Or.inr (Or.inr ⟨rfl, updatePressure_sameTables a⟩)⟩

theorem release_cases {a : KVBlockAllocator} (consistent : a.Consistent) (owner : String) :
    (a.release owner = (.ok false, a) ∧ a.owners.get? owner = none) ∨
      ∃ table a', a.release owner = (.ok true, a') ∧ Released a a' owner table := by
  unfold release
  cases atOwner : a.owners.get? owner with
  | none => exact Or.inl ⟨rfl, rfl⟩
  | some table =>
    obtain ⟨after, run, counts⟩ := releaseBlocks_ok a.free
      (consistent.tablesNodup owner table atOwner) (consistent.table_held atOwner)
    simp only [run]
    exact Or.inr ⟨table, _, rfl, atOwner, by simp, by simp, by simp, fun b => by simp [counts]⟩

end ServingPlatform.KVBlockAllocator
