import ServingPlatform.KvCache.AllocatorSteps

namespace ServingPlatform.KVBlockAllocator

variable {a a' : KVBlockAllocator}

theorem ofDimensions_consistent (dimensions : KvDimensions) : (ofDimensions dimensions).Consistent where
  freeNodup := (List.nodup_range).map Int.ofNat_injective
  covered b := by
    simp only [ofDimensions, List.mem_map, List.mem_range, Dict.keys, Dict.empty, List.map_nil,
      List.not_mem_nil, or_false]
    constructor
    · rintro ⟨n, bound, rfl⟩
      exact ⟨Int.natCast_nonneg n, Int.ofNat_lt.mpr bound⟩
    · rintro ⟨lower, upper⟩
      exact ⟨b.toNat, (Int.toNat_lt lower).mpr upper, Int.toNat_of_nonneg lower⟩
  disjoint := by simp [ofDimensions, Dict.keys, Dict.empty]
  tablesNodup := by simp [ofDimensions]
  counts b := by
    rw [ofDimensions, Dict.get?_empty]
    simp [tableCount, Dict.values, Dict.empty]
  positive := by simp [ofDimensions]

theorem SameTables.consistent (same : SameTables a a') (before : a.Consistent) : a'.Consistent where
  freeNodup := by rw [same.free]; exact before.freeNodup
  covered b := by rw [same.free, same.references, same.dimensions]; exact before.covered b
  disjoint := by rw [same.free, same.references]; exact before.disjoint
  tablesNodup := by rw [same.owners]; exact before.tablesNodup
  counts b := by rw [same.references, same.owners]; exact before.counts b
  positive := by rw [same.references]; exact before.positive

theorem Consistent.free_unreferenced (before : a.Consistent) {b : BlockId} (isFree : b ∈ a.free) :
    a.references.get? b = none ∧ tableCount a.owners b = 0 := by
  have absent := Dict.get?_eq_none_iff.mpr (before.disjoint b isFree)
  exact ⟨absent, by rw [← before.counts, absent]; rfl⟩

/-- Blocks in a table are not free, so growing a table repeats none. -/
theorem Consistent.table_not_free (before : a.Consistent) {owner : String} {table : List BlockId}
    (found : a.owners.get? owner = some table) {b : BlockId} (member : b ∈ table) : b ∉ a.free :=
  fun isFree => before.disjoint b isFree (before.table_held found b member)

theorem Grown.consistent {owner : String} {old : List BlockId} {n : Nat} (grown : Grown a a' owner old n)
    (origin : a.owners.get? owner = some old ∨ a.owners.get? owner = none ∧ old = [])
    (before : a.Consistent) : a'.Consistent := by
  have takenFree : ∀ b ∈ a.free.take n, b ∈ a.free := fun b => List.mem_of_mem_take
  have apart : ∀ b ∈ a.free.take n, b ∉ a.free.drop n := fun b taken dropped =>
    List.disjoint_take_drop before.freeNodup le_rfl taken dropped
  have oldOutside : ∀ b ∈ old, b ∉ a.free.take n := by
    intro b member taken
    rcases origin with found | ⟨-, empty⟩
    · exact before.table_not_free found member (takenFree b taken)
    · simp [empty] at member
  have count : ∀ b, tableCount a'.owners b =
      tableCount a.owners b + if b ∈ a.free.take n then 1 else 0 := by
    intro b
    unfold tableCount
    rw [grown.owners]
    rcases origin with found | ⟨fresh, empty⟩
    · rw [Dict.countP_values_replace _ _ found, Dict.countP_values_erase _ found]
      by_cases inOld : b ∈ old
      · simp [inOld, oldOutside b inOld]
      · simp [inOld]
    · rw [Dict.countP_values_insert_fresh _ (Dict.get?_eq_none_iff.mp fresh)]
      simp [empty]
  refine ⟨?_, fun b => ?_, fun b left => ?_, fun o table found => ?_, fun b => ?_, fun b c found => ?_⟩
  · rw [grown.free]
    exact (List.drop_sublist n a.free).nodup before.freeNodup
  · rw [grown.dimensions, ← before.covered b, grown.free, Dict.mem_keys_iff, Dict.mem_keys_iff, grown.references]
    have split : b ∈ a.free ↔ b ∈ a.free.take n ∨ b ∈ a.free.drop n := by
      rw [← List.mem_append, List.take_append_drop]
    by_cases taken : b ∈ a.free.take n <;> simp [taken, split]
  · rw [grown.free] at left
    rw [← Dict.get?_eq_none_iff, grown.references, if_neg (fun taken => apart b taken left)]
    exact (before.free_unreferenced (List.mem_of_mem_drop left)).1
  · rw [grown.owners, Dict.get?_insert] at found
    split at found
    · cases found
      refine List.nodup_append.mpr ⟨?_, (List.take_sublist n a.free).nodup before.freeNodup, ?_⟩
      · rcases origin with atOwner | ⟨-, empty⟩
        · exact before.tablesNodup owner old atOwner
        · rw [empty]
          exact List.nodup_nil
      · rintro b inOld c taken rfl
        exact oldOutside b inOld taken
    · exact before.tablesNodup o table found
  · rw [count, ← before.counts, grown.references]
    by_cases taken : b ∈ a.free.take n
    · simp [taken, (before.free_unreferenced (takenFree b taken)).1]
    · simp [taken]
  · rw [grown.references] at found
    split at found
    · cases found
      exact Nat.one_pos
    · exact before.positive b c found

theorem Shared.consistent {owner : String} {blocks : List BlockId} (shared : Shared a a' owner blocks)
    (before : a.Consistent) : a'.Consistent := by
  have count : ∀ b, tableCount a'.owners b = tableCount a.owners b + if b ∈ blocks then 1 else 0 := by
    intro b
    unfold tableCount
    rw [shared.owners, Dict.countP_values_insert_fresh _ (Dict.get?_eq_none_iff.mp shared.fresh)]
    simp
  have sameKeys : ∀ b, b ∈ a'.references.keys ↔ b ∈ a.references.keys := by
    intro b
    rw [Dict.mem_keys_iff, Dict.mem_keys_iff, shared.references]
    split
    · simp
    · rfl
  refine ⟨?_, fun b => ?_, fun b left => ?_, fun o table found => ?_, fun b => ?_, fun b c found => ?_⟩
  · rw [shared.free]
    exact before.freeNodup
  · rw [shared.free, shared.dimensions, sameKeys]
    exact before.covered b
  · rw [shared.free] at left
    rw [sameKeys]
    exact before.disjoint b left
  · rw [shared.owners, Dict.get?_insert] at found
    split at found
    · cases found
      exact shared.distinct
    · exact before.tablesNodup o table found
  · rw [count, ← before.counts, shared.references]
    by_cases member : b ∈ blocks
    · obtain ⟨c, atB⟩ := Dict.mem_keys_iff.mp (shared.held b member)
      simp [member, atB]
    · simp [member]
  · rw [shared.references] at found
    split at found
    · obtain ⟨d, -, value⟩ := Option.map_eq_some_iff.mp found
      omega
    · exact before.positive b c found

theorem Shrunk.consistent {owner : String} {old : List BlockId} {n : Nat} (shrunk : Shrunk a a' owner old n)
    (before : a.Consistent) : a'.Consistent := by
  have nodup := before.tablesNodup owner old shrunk.found
  have split : ∀ b, b ∈ old ↔ b ∈ old.take n ∨ b ∈ old.drop n := fun b => by
    rw [← List.mem_append, List.take_append_drop]
  have apart : ∀ b, b ∈ old.take n → b ∉ old.drop n := fun b kept cut =>
    List.disjoint_take_drop nodup le_rfl kept cut
  have cutHeld : ∀ b ∈ old.drop n, a.references.get? b = some 1 := fun b member =>
    shrunk.single b ((split b).mpr (Or.inr member))
  have count : ∀ b, tableCount a'.owners b + (if b ∈ old.drop n then 1 else 0) = tableCount a.owners b := by
    intro b
    unfold tableCount
    rw [shrunk.owners, Dict.countP_values_replace _ _ shrunk.found, Dict.countP_values_erase _ shrunk.found]
    by_cases cut : b ∈ old.drop n
    · have kept : b ∉ old.take n := fun member => apart b member cut
      simp [cut, kept, split]
    · simp [cut, split]
  have keys : ∀ b, b ∈ a'.references.keys ↔ b ∈ a.references.keys ∧ b ∉ old.drop n := by
    intro b
    rw [Dict.mem_keys_iff, Dict.mem_keys_iff, shrunk.references]
    by_cases cut : b ∈ old.drop n <;> simp [cut]
  refine ⟨?_, fun b => ?_, fun b left => ?_, fun o table found => ?_, fun b => ?_, fun b c found => ?_⟩
  · rw [shrunk.free]
    refine List.nodup_append.mpr ⟨List.nodup_reverse.mpr ((List.drop_sublist n old).nodup nodup),
      before.freeNodup, ?_⟩
    rintro b cut c isFree rfl
    exact before.table_not_free shrunk.found ((split b).mpr (Or.inr (List.mem_reverse.mp cut))) isFree
  · rw [shrunk.dimensions, ← before.covered b, shrunk.free, List.mem_append, List.mem_reverse, keys]
    by_cases cut : b ∈ old.drop n
    · simp [cut, before.table_held shrunk.found b ((split b).mpr (Or.inr cut))]
    · simp [cut]
  · rw [shrunk.free, List.mem_append, List.mem_reverse] at left
    rw [keys]
    rintro ⟨member, kept⟩
    rcases left with cut | isFree
    · exact kept cut
    · exact before.disjoint b isFree member
  · rw [shrunk.owners, Dict.get?_insert] at found
    split at found
    · cases found
      exact (List.take_sublist n old).nodup nodup
    · exact before.tablesNodup o table found
  · have balance := count b
    rw [← before.counts] at balance
    rw [shrunk.references]
    by_cases cut : b ∈ old.drop n
    · rw [cutHeld b cut] at balance
      simp only [cut, if_true, Option.getD_some, Option.getD_none] at balance ⊢
      omega
    · simp only [cut, if_false, Nat.add_zero] at balance ⊢
      exact balance.symm
  · rw [shrunk.references] at found
    split at found
    · cases found
    · exact before.positive b c found

theorem Released.consistent {owner : String} {table : List BlockId} (released : Released a a' owner table)
    (before : a.Consistent) : a'.Consistent := by
  have nodup := before.tablesNodup owner table released.found
  have held := before.table_held released.found
  have count : ∀ b, tableCount a'.owners b + (if b ∈ table then 1 else 0) = tableCount a.owners b := by
    intro b
    unfold tableCount
    rw [released.owners, Dict.countP_values_erase _ released.found]
    simp
  have keys : ∀ b, b ∈ a'.references.keys ↔
      b ∈ a.references.keys ∧ ¬ (b ∈ table ∧ (a.references.get? b).getD 0 ≤ 1) := by
    intro b
    rw [Dict.mem_keys_iff, Dict.mem_keys_iff, released.references]
    by_cases member : b ∈ table
    · obtain ⟨c, atB⟩ := Dict.mem_keys_iff.mp (held b member)
      by_cases last : c ≤ 1 <;> simp [member, atB, last]
    · simp [member]
  have freed : ∀ b, b ∈ a'.free ↔ (b ∈ table ∧ (a.references.get? b).getD 0 ≤ 1) ∨ b ∈ a.free := by
    intro b
    rw [released.free, List.mem_append, List.mem_reverse, List.mem_filter]
    simp
  refine ⟨?_, fun b => ?_, fun b left => ?_, fun o t found => ?_, fun b => ?_, fun b c found => ?_⟩
  · rw [released.free]
    refine List.nodup_append.mpr ⟨List.nodup_reverse.mpr (nodup.filter _), before.freeNodup, ?_⟩
    rintro b cut c isFree rfl
    exact before.table_not_free released.found (List.mem_filter.mp (List.mem_reverse.mp cut)).1 isFree
  · rw [released.dimensions, ← before.covered b, freed, keys]
    by_cases last : b ∈ table ∧ (a.references.get? b).getD 0 ≤ 1
    · simp [last, held b last.1]
    · simp [last]
  · rw [keys]
    rintro ⟨member, kept⟩
    rcases (freed b).mp left with last | isFree
    · exact kept last
    · exact before.disjoint b isFree member
  · rw [released.owners, Dict.get?_erase] at found
    split at found
    · cases found
    · exact before.tablesNodup o t found
  · have balance := count b
    rw [← before.counts] at balance
    rw [released.references]
    by_cases member : b ∈ table
    · obtain ⟨c, atB⟩ := Dict.mem_keys_iff.mp (held b member)
      have some_left := before.positive b c atB
      simp only [member, if_true, atB, Option.getD_some, Option.bind_some] at balance ⊢
      by_cases last : c ≤ 1
      · simp only [last, if_true, Option.getD_none]
        omega
      · simp only [last, if_false, Option.getD_some]
        omega
    · simp only [member, if_false, Nat.add_zero] at balance ⊢
      exact balance.symm
  · rw [released.references] at found
    split at found
    · obtain ⟨d, -, value⟩ := Option.bind_eq_some_iff.mp found
      split at value <;> cases value
      omega
    · exact before.positive b c found

end ServingPlatform.KVBlockAllocator
