import Mathlib.Data.List.Nodup
import Mathlib.Tactic.Common

/-! Flat positions over a table of equally sized pages. -/

namespace Paging

variable {β : Type} {table : List β} {size : Nat}

/-- The page and the offset in it that hold a flat position. -/
def slot (table : List β) (size position : Nat) : Option (β × Nat) :=
  table[position / size]?.map fun page => (page, position % size)

theorem slot_eq_some_iff {position offset : Nat} {page : β} :
    slot table size position = some (page, offset) ↔
      table[position / size]? = some page ∧ position % size = offset := by
  simp [slot, Option.map_eq_some_iff]

theorem slot_exists (positive : 0 < size) {position : Nat} (within : position < table.length * size) :
    ∃ page, slot table size position = some (page, position % size) := by
  have index : position / size < table.length := (Nat.div_lt_iff_lt_mul positive).mpr within
  exact ⟨table[position / size], slot_eq_some_iff.mpr ⟨List.getElem?_eq_getElem index, rfl⟩⟩

theorem slot_mem {position offset : Nat} {page : β} (found : slot table size position = some (page, offset)) :
    page ∈ table :=
  List.mem_of_getElem? (slot_eq_some_iff.mp found).1

/-- In a table without repetitions, two positions never share a slot. -/
theorem slot_injective (distinct : table.Nodup) {p q : Nat} {place : β × Nat}
    (atP : slot table size p = some place) (atQ : slot table size q = some place) : p = q := by
  obtain ⟨page, offset⟩ := place
  obtain ⟨pageP, offsetP⟩ := slot_eq_some_iff.mp atP
  obtain ⟨pageQ, offsetQ⟩ := slot_eq_some_iff.mp atQ
  obtain ⟨index, -⟩ := List.getElem?_eq_some_iff.mp pageP
  have sameIndex : p / size = q / size := (List.getElem?_inj index distinct).mp (pageP.trans pageQ.symm)
  rw [← Nat.div_add_mod p size, ← Nat.div_add_mod q size, sameIndex, offsetP, offsetQ]

/-- Moving forward inside one page only moves the offset. -/
theorem slot_add {position k : Nat} (fits : position % size + k < size) :
    slot table size (position + k) = (slot table size position).map fun place => (place.1, place.2 + k) := by
  have positive : 0 < size := by omega
  have split : position + k = size * (position / size) + (position % size + k) := by
    rw [← Nat.add_assoc, Nat.div_add_mod]
  have index : (position + k) / size = position / size := by
    rw [split, Nat.mul_add_div positive, Nat.div_eq_of_lt fits, Nat.add_zero]
  have offset : (position + k) % size = position % size + k := by
    rw [split, Nat.mul_add_mod, Nat.mod_eq_of_lt fits]
  unfold slot
  rw [index, offset, Option.map_map]
  rfl

theorem slot_cons_of_lt {page : β} {position : Nat} (first : position < size) :
    slot (page :: table) size position = some (page, position) := by
  rw [slot_eq_some_iff, Nat.div_eq_of_lt first, Nat.mod_eq_of_lt first]
  exact ⟨rfl, rfl⟩

theorem slot_cons_of_le {page : β} {position : Nat} (positive : 0 < size) (later : size ≤ position) :
    slot (page :: table) size position = slot table size (position - size) := by
  obtain ⟨rest, rfl⟩ : ∃ rest, position = rest + size := ⟨position - size, by omega⟩
  unfold slot
  rw [Nat.add_sub_cancel, Nat.add_div_right _ positive, Nat.add_mod_right, List.getElem?_cons_succ]

end Paging
