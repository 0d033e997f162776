import Mathlib.Algebra.GroupWithZero.Nat
import Mathlib.Data.List.Nodup
import Mathlib.Data.List.Perm.Subperm
import Mathlib.Tactic.Common

/-- A mapping that remembers insertion order and holds every key once. -/
structure Dict (κ ν : Type) where
  entries : List (κ × ν)
  nodup : (entries.map Prod.fst).Nodup

namespace Dict

variable {κ ν : Type}

/-- Replacing keeps a key's place; a new key goes to the end. -/
def insertEntry [DecidableEq κ] (k : κ) (v : ν) : List (κ × ν) → List (κ × ν)
  | [] => [(k, v)]
  | e :: rest => if e.1 = k then (k, v) :: rest else e :: insertEntry k v rest

def eraseEntry [DecidableEq κ] (k : κ) : List (κ × ν) → List (κ × ν)
  | [] => []
  | e :: rest => if e.1 = k then rest else e :: eraseEntry k rest

def lookupEntry [DecidableEq κ] (k : κ) : List (κ × ν) → Option ν
  | [] => none
  | e :: rest => if e.1 = k then some e.2 else lookupEntry k rest

def keys (d : Dict κ ν) : List κ := d.entries.map Prod.fst

def values (d : Dict κ ν) : List ν := d.entries.map Prod.snd

def size (d : Dict κ ν) : Nat := d.entries.length

def empty : Dict κ ν := ⟨[], .nil⟩

theorem map_fst_insertEntry [DecidableEq κ] (k : κ) (v : ν) (l : List (κ × ν)) :
    (insertEntry k v l).map Prod.fst =
      if k ∈ l.map Prod.fst then l.map Prod.fst else l.map Prod.fst ++ [k] := by
  induction l with
  | nil => rfl
  | cons e rest ih =>
    by_cases same : e.1 = k
    · simp [insertEntry, same]
    · have differ : ¬ k = e.1 := fun h => same h.symm
      simp only [insertEntry, same, if_false, List.map_cons, ih, List.mem_cons, differ, false_or]
      split <;> rfl

theorem eraseEntry_sublist [DecidableEq κ] (k : κ) (l : List (κ × ν)) : (eraseEntry k l).Sublist l := by
  induction l with
  | nil => exact .slnil
  | cons e rest ih =>
    by_cases same : e.1 = k
    · simp [eraseEntry, same]
    · simpa [eraseEntry, same] using ih

def insert [DecidableEq κ] (d : Dict κ ν) (k : κ) (v : ν) : Dict κ ν where
  entries := insertEntry k v d.entries
  nodup := by
    rw [map_fst_insertEntry]
    split
    · exact d.nodup
    · rename_i fresh
      exact List.nodup_append.mpr ⟨d.nodup, List.nodup_singleton k, fun a old b new same =>
        fresh (by rw [List.mem_singleton.mp new] at same; exact same ▸ old)⟩

def erase [DecidableEq κ] (d : Dict κ ν) (k : κ) : Dict κ ν where
  entries := eraseEntry k d.entries
  nodup := ((eraseEntry_sublist k d.entries).map Prod.fst).nodup d.nodup

def get? [DecidableEq κ] (d : Dict κ ν) (k : κ) : Option ν := lookupEntry k d.entries

def contains [DecidableEq κ] (d : Dict κ ν) (k : κ) : Bool := (d.get? k).isSome

/-- Moves a key to the end of the insertion order. -/
def moveToEnd [DecidableEq κ] (d : Dict κ ν) (k : κ) (v : ν) : Dict κ ν := (d.erase k).insert k v

section Lookup

variable [DecidableEq κ] {d : Dict κ ν} {k k' : κ} {v : ν}

theorem lookupEntry_eq_some_iff {l : List (κ × ν)} (distinct : (l.map Prod.fst).Nodup) :
    lookupEntry k l = some v ↔ (k, v) ∈ l := by
  induction l with
  | nil => simp [lookupEntry]
  | cons e rest ih =>
    obtain ⟨first, value⟩ := e
    obtain ⟨fresh, tail⟩ := List.nodup_cons.mp distinct
    by_cases same : first = k
    · subst same
      have absent : (first, v) ∉ rest := fun h => fresh (List.mem_map.mpr ⟨_, h, rfl⟩)
      simp [lookupEntry, absent, eq_comm]
    · have differ : ¬ k = first := fun h => same h.symm
      simp [lookupEntry, same, differ, ih tail]

/-- Where every key is there once, the order of the entries does not matter. -/
theorem lookupEntry_perm {l l' : List (κ × ν)} (perm : l.Perm l') (distinct : (l.map Prod.fst).Nodup) (k : κ) :
    lookupEntry k l = lookupEntry k l' := by
  have distinct' : (l'.map Prod.fst).Nodup := (perm.map Prod.fst).nodup_iff.mp distinct
  refine Option.ext fun v => ?_
  rw [lookupEntry_eq_some_iff distinct, lookupEntry_eq_some_iff distinct']
  exact perm.mem_iff

theorem get?_eq_some_iff : d.get? k = some v ↔ (k, v) ∈ d.entries :=
  lookupEntry_eq_some_iff d.nodup

theorem mem_keys_iff : k ∈ d.keys ↔ ∃ v, d.get? k = some v := by
  simp only [keys, List.mem_map, get?_eq_some_iff]
  constructor
  · rintro ⟨⟨key, value⟩, member, rfl⟩
    exact ⟨value, member⟩
  · rintro ⟨value, member⟩
    exact ⟨(k, value), member, rfl⟩

theorem get?_eq_none_iff : d.get? k = none ↔ k ∉ d.keys := by
  rw [mem_keys_iff, Option.eq_none_iff_forall_ne_some]
  simp

theorem contains_iff : d.contains k = true ↔ k ∈ d.keys := by
  rw [contains, Option.isSome_iff_exists, mem_keys_iff]

theorem contains_eq_false_iff : d.contains k = false ↔ d.get? k = none := by
  simp [contains]

theorem mem_values_iff : v ∈ d.values ↔ ∃ k, d.get? k = some v := by
  simp only [values, List.mem_map, get?_eq_some_iff]
  constructor
  · rintro ⟨⟨key, value⟩, member, rfl⟩
    exact ⟨key, member⟩
  · rintro ⟨key, member⟩
    exact ⟨(key, v), member, rfl⟩

@[simp] theorem get?_empty : (empty : Dict κ ν).get? k = none := rfl

/-- A dictionary in which nothing is found is empty. -/
theorem eq_empty (nothing : ∀ k, d.get? k = none) : d = .empty := by
  obtain ⟨entries, nodup⟩ := d
  cases entries with
  | nil => rfl
  | cons e rest =>
    have found := nothing e.1
    simp [get?, lookupEntry] at found

theorem lookupEntry_insertEntry (l : List (κ × ν)) :
    lookupEntry k' (insertEntry k v l) = if k' = k then some v else lookupEntry k' l := by
  induction l with
  | nil => simp only [insertEntry, lookupEntry, eq_comm (a := k')]
  | cons e rest ih =>
    by_cases here : e.1 = k
    · by_cases same : k' = k
      · simp [insertEntry, lookupEntry, here, same]
      · have differ : ¬ k = k' := fun h => same h.symm
        simp [insertEntry, lookupEntry, here, same, differ]
    · by_cases found : e.1 = k'
      · have differ : ¬ k' = k := fun h => here (found.trans h)
        simp [insertEntry, lookupEntry, found, differ]
      · simp only [insertEntry, here, if_false, lookupEntry, found, ih]

theorem get?_insert : (d.insert k v).get? k' = if k' = k then some v else d.get? k' :=
  lookupEntry_insertEntry d.entries

@[simp] theorem get?_insert_self : (d.insert k v).get? k = some v := by
  rw [get?_insert, if_pos rfl]

theorem get?_insert_of_ne (differ : k' ≠ k) : (d.insert k v).get? k' = d.get? k' := by
  rw [get?_insert, if_neg differ]

theorem lookupEntry_eraseEntry {l : List (κ × ν)} (distinct : (l.map Prod.fst).Nodup) :
    lookupEntry k' (eraseEntry k l) = if k' = k then none else lookupEntry k' l := by
  induction l with
  | nil => simp [eraseEntry, lookupEntry]
  | cons e rest ih =>
    obtain ⟨fresh, tail⟩ := List.nodup_cons.mp distinct
    by_cases here : e.1 = k
    · by_cases same : k' = k
      · simp only [eraseEntry, here, if_true, same]
        rw [Option.eq_none_iff_forall_ne_some]
        intro v found
        exact fresh (here ▸ List.mem_map.mpr ⟨_, (lookupEntry_eq_some_iff tail).mp found, rfl⟩)
      · have differ : ¬ k = k' := fun h => same h.symm
        simp [eraseEntry, lookupEntry, here, same, differ]
    · by_cases found : e.1 = k'
      · have differ : ¬ k' = k := fun h => here (found.trans h)
        simp [eraseEntry, lookupEntry, found, differ]
      · simp only [eraseEntry, here, if_false, lookupEntry, found, ih tail]

theorem get?_erase : (d.erase k).get? k' = if k' = k then none else d.get? k' :=
  lookupEntry_eraseEntry d.nodup

@[simp] theorem get?_erase_self : (d.erase k).get? k = none := by
  rw [get?_erase, if_pos rfl]

theorem get?_erase_of_ne (differ : k' ≠ k) : (d.erase k).get? k' = d.get? k' := by
  rw [get?_erase, if_neg differ]

theorem mem_keys_insert : k' ∈ (d.insert k v).keys ↔ k' = k ∨ k' ∈ d.keys := by
  rw [mem_keys_iff, mem_keys_iff, get?_insert]
  by_cases same : k' = k <;> simp [same]

theorem mem_keys_erase : k' ∈ (d.erase k).keys ↔ k' ≠ k ∧ k' ∈ d.keys := by
  rw [mem_keys_iff, mem_keys_iff, get?_erase]
  by_cases same : k' = k <;> simp [same]

theorem insertEntry_of_fresh {l : List (κ × ν)} (fresh : k ∉ l.map Prod.fst) :
    insertEntry k v l = l ++ [(k, v)] := by
  induction l with
  | nil => rfl
  | cons e rest ih =>
    rw [List.map_cons, List.mem_cons, not_or] at fresh
    simp only [insertEntry, Ne.symm fresh.1, if_false, ih fresh.2, List.cons_append]

theorem entries_insert_of_fresh (fresh : k ∉ d.keys) : (d.insert k v).entries = d.entries ++ [(k, v)] :=
  insertEntry_of_fresh fresh

theorem perm_eraseEntry {l : List (κ × ν)} (found : lookupEntry k l = some v) :
    l.Perm ((k, v) :: eraseEntry k l) := by
  induction l with
  | nil => simp [lookupEntry] at found
  | cons e rest ih =>
    obtain ⟨first, value⟩ := e
    by_cases same : first = k
    · simp only [lookupEntry, same, if_true, Option.some.injEq] at found
      simp only [eraseEntry, same, if_true, found]
      exact .refl _
    · simp only [lookupEntry, same, if_false] at found
      simp only [eraseEntry, same, if_false]
      exact ((ih found).cons _).trans (.swap _ _ _)

theorem eraseEntry_of_absent {l : List (κ × ν)} (absent : lookupEntry k l = none) : eraseEntry k l = l := by
  induction l with
  | nil => rfl
  | cons e rest ih =>
    by_cases same : e.1 = k
    · simp [lookupEntry, same] at absent
    · simp only [lookupEntry, same, if_false] at absent
      simp only [eraseEntry, same, if_false, ih absent]

theorem erase_of_absent (absent : d.get? k = none) : d.erase k = d := by
  unfold erase
  simp only [eraseEntry_of_absent absent]

theorem entries_erase_perm (found : d.get? k = some v) : d.entries.Perm ((k, v) :: (d.erase k).entries) :=
  perm_eraseEntry found

theorem size_insert_of_fresh (fresh : k ∉ d.keys) : (d.insert k v).size = d.size + 1 := by
  simp [size, entries_insert_of_fresh fresh]

theorem size_erase (found : d.get? k = some v) : d.size = (d.erase k).size + 1 := by
  simpa [size] using (entries_erase_perm found).length_eq

theorem perm_insertEntry {l : List (κ × ν)} (w : ν) (found : lookupEntry k l = some v) :
    (insertEntry k w l).Perm ((k, w) :: eraseEntry k l) := by
  induction l with
  | nil => simp [lookupEntry] at found
  | cons e rest ih =>
    obtain ⟨first, value⟩ := e
    by_cases same : first = k
    · simp [insertEntry, eraseEntry, same]
    · simp only [lookupEntry, same, if_false] at found
      simp only [insertEntry, eraseEntry, same, if_false]
      exact ((ih found).cons _).trans (.swap _ _ _)

/-- Replacing the value of a held key is erasing it and adding it anew, up to order. -/
theorem entries_insert_perm (w : ν) (found : d.get? k = some v) :
    (d.insert k w).entries.Perm ((k, w) :: (d.erase k).entries) :=
  perm_insertEntry w found

end Lookup

section Map

variable {μ : Type} (f : ν → μ)

/-- Every value changed in its place. -/
def map (d : Dict κ ν) : Dict κ μ where
  entries := d.entries.map fun e => (e.1, f e.2)
  nodup := by
    rw [List.map_map]
    exact d.nodup

theorem map_empty : (empty : Dict κ ν).map f = empty := rfl

theorem map_congr {d : Dict κ ν} {g : ν → μ} (same : ∀ v ∈ d.values, f v = g v) : d.map f = d.map g := by
  have entries : d.entries.map (fun e => (e.1, f e.2)) = d.entries.map fun e => (e.1, g e.2) :=
    List.map_congr_left fun e member => by rw [same e.2 (List.mem_map_of_mem member)]
  unfold map
  simp only [entries]

variable [DecidableEq κ] {d : Dict κ ν} {k : κ} {v : ν}

theorem get?_map : (d.map f).get? k = (d.get? k).map f := by
  unfold get? map
  dsimp only
  induction d.entries with
  | nil => rfl
  | cons e rest ih =>
    simp only [List.map_cons, lookupEntry]
    split
    · rfl
    · exact ih

theorem map_insert : (d.insert k v).map f = (d.map f).insert k (f v) := by
  have entries : ∀ l : List (κ × ν), (insertEntry k v l).map (fun e => (e.1, f e.2)) =
      insertEntry k (f v) (l.map fun e => (e.1, f e.2)) := by
    intro l
    induction l with
    | nil => rfl
    | cons e rest ih =>
      simp only [List.map_cons, insertEntry]
      split
      · rfl
      · rw [List.map_cons, ih]
  unfold map insert
  simp only [entries]

theorem map_erase : (d.erase k).map f = (d.map f).erase k := by
  have entries : ∀ l : List (κ × ν), (eraseEntry k l).map (fun e => (e.1, f e.2)) =
      eraseEntry k (l.map fun e => (e.1, f e.2)) := by
    intro l
    induction l with
    | nil => rfl
    | cons e rest ih =>
      simp only [List.map_cons, eraseEntry]
      split
      · rfl
      · rw [List.map_cons, ih]
  unfold map erase
  simp only [entries]

end Map

section Count

variable [DecidableEq κ] {d : Dict κ ν} {k : κ} {v : ν} (p : ν → Bool)

theorem countP_values_insert_fresh (fresh : k ∉ d.keys) :
    (d.insert k v).values.countP p = d.values.countP p + if p v then 1 else 0 := by
  simp [values, entries_insert_of_fresh fresh, List.countP_append, List.countP_cons]

theorem countP_values_erase (found : d.get? k = some v) :
    d.values.countP p = (d.erase k).values.countP p + if p v then 1 else 0 := by
  have same := ((entries_erase_perm found).map Prod.snd).countP_eq p
  simpa [values, List.countP_cons] using same

theorem countP_values_replace (w : ν) (found : d.get? k = some v) :
    (d.insert k w).values.countP p = (d.erase k).values.countP p + if p w then 1 else 0 := by
  have same := ((entries_insert_perm w found).map Prod.snd).countP_eq p
  simpa [values, List.countP_cons] using same

/-- Replacing the value of a held key changes a sum over the values by that value. -/
theorem sum_values_replace (f : ν → Nat) (w : ν) (found : d.get? k = some v) :
    ((d.insert k w).values.map f).sum + f v = (d.values.map f).sum + f w := by
  have old := (((entries_erase_perm found).map Prod.snd).map f).sum_nat
  have replaced := (((entries_insert_perm w found).map Prod.snd).map f).sum_nat
  simp only [values, List.map_cons, List.sum_cons] at old replaced ⊢
  omega

end Count

section OfValues

variable {α : Type} [DecidableEq κ] (key : α → κ) (value : α → ν)

/-- The dictionary of a list's elements under their keys; a later element replaces an earlier one. -/
def ofValues (l : List α) : Dict κ ν := l.foldl (fun d a => d.insert (key a) (value a)) .empty

variable {key value} {l : List α}

theorem get?_foldl_insert {d : Dict κ ν} {k : κ} (absent : ∀ a ∈ l, key a ≠ k) :
    (l.foldl (fun d a => d.insert (key a) (value a)) d).get? k = d.get? k := by
  induction l generalizing d with
  | nil => rfl
  | cons a rest ih =>
    rw [List.foldl_cons, ih fun b member => absent b (List.mem_cons_of_mem _ member),
      get?_insert_of_ne (Ne.symm (absent a List.mem_cons_self))]

theorem get?_ofValues_of_mem {a : α} (distinct : (l.map key).Nodup) (member : a ∈ l) :
    (ofValues key value l).get? (key a) = some (value a) := by
  unfold ofValues
  generalize (empty : Dict κ ν) = d
  induction l generalizing d with
  | nil => cases member
  | cons b rest ih =>
    obtain ⟨fresh, distinct⟩ := List.nodup_cons.mp distinct
    rw [List.foldl_cons]
    rcases List.mem_cons.mp member with rfl | member
    · have absent : ∀ c ∈ rest, key c ≠ key a := fun c inside same => fresh (same ▸ List.mem_map_of_mem (f := key) inside)
      rw [get?_foldl_insert absent, get?_insert_self]
    · exact ih distinct member _

theorem get?_ofValues {k : κ} {v : ν} (found : (ofValues key value l).get? k = some v) :
    ∃ a ∈ l, key a = k ∧ value a = v := by
  have general : ∀ d : Dict κ ν, (l.foldl (fun d a => d.insert (key a) (value a)) d).get? k = some v →
      (∃ a ∈ l, key a = k ∧ value a = v) ∨ d.get? k = some v := by
    clear found
    induction l with
    | nil => exact fun d found => Or.inr found
    | cons b rest ih =>
      intro d found
      rcases ih _ found with ⟨a, member, same⟩ | before
      · exact Or.inl ⟨a, List.mem_cons_of_mem _ member, same⟩
      · rw [get?_insert] at before
        split at before
        · rename_i same
          exact Or.inl ⟨b, List.mem_cons_self, same.symm, Option.some.inj before⟩
        · exact Or.inr before
  exact (general _ found).resolve_right fun none => by cases none

/-- The elements of a list that have a note leave their keys behind, in order. -/
theorem keys_foldl_notes (note : α → Option ν) {d : Dict κ ν} (distinct : (l.map key).Nodup)
    (fresh : ∀ a ∈ l, key a ∉ d.keys) :
    (l.foldl (fun d a => match note a with | some v => d.insert (key a) v | none => d) d).keys =
      d.keys ++ (l.filter fun a => (note a).isSome).map key := by
  induction l generalizing d with
  | nil => exact (List.append_nil _).symm
  | cons a rest ih =>
    obtain ⟨apart, distinct⟩ := List.nodup_cons.mp distinct
    rw [List.foldl_cons]
    cases noted : note a with
    | none =>
      rw [ih distinct fun b member => fresh b (List.mem_cons_of_mem _ member),
        List.filter_cons_of_neg (by rw [noted]; exact Bool.false_ne_true)]
    | some v =>
      have added : (d.insert (key a) v).keys = d.keys ++ [key a] := by
        rw [keys, entries_insert_of_fresh (fresh a List.mem_cons_self), List.map_append]
        exact rfl
      have still : ∀ b ∈ rest, key b ∉ (d.insert (key a) v).keys := by
        intro b member found
        rcases mem_keys_insert.mp found with same | old
        · exact apart (same ▸ List.mem_map_of_mem member)
        · exact fresh b (List.mem_cons_of_mem _ member) old
      rw [ih distinct still, added, List.filter_cons_of_pos (by rw [noted]; exact rfl), List.map_cons,
        List.append_assoc, List.singleton_append]

theorem get?_foldl_notes_of_absent (note : α → Option ν) {d : Dict κ ν} {k : κ} (absent : k ∉ l.map key) :
    (l.foldl (fun d a => (note a).elim d (d.insert (key a))) d).get? k = d.get? k := by
  induction l generalizing d with
  | nil => rfl
  | cons a rest ih =>
    obtain ⟨other, absent⟩ := List.ne_and_not_mem_of_not_mem_cons absent
    rw [List.foldl_cons, ih absent]
    cases note a with
    | none => exact rfl
    | some v => exact get?_insert_of_ne other

theorem get?_foldl_notes (note : α → Option ν) {d : Dict κ ν} {a : α} (distinct : (l.map key).Nodup) (member : a ∈ l) :
    (l.foldl (fun d a => (note a).elim d (d.insert (key a))) d).get? (key a) =
      (note a).or (d.get? (key a)) := by
  induction l generalizing d with
  | nil => exact absurd member List.not_mem_nil
  | cons b rest ih =>
    obtain ⟨apart, distinct⟩ := List.nodup_cons.mp distinct
    rw [List.foldl_cons]
    rcases List.mem_cons.mp member with rfl | later
    · rw [get?_foldl_notes_of_absent note apart]
      cases note a with
      | none => exact rfl
      | some v => exact get?_insert_self
    · have other : key a ≠ key b := fun same => apart (same ▸ List.mem_map_of_mem later)
      rw [ih distinct later]
      cases note b with
      | none => exact rfl
      | some v => exact congrArg _ (get?_insert_of_ne other)

theorem keys_ofValues (distinct : (l.map key).Nodup) : (ofValues key value l).keys = l.map key := by
  have kept := keys_foldl_notes (d := .empty) (fun a => some (value a)) distinct fun _ _ => List.not_mem_nil
  have all : (l.filter fun a => (some (value a)).isSome) = l := List.filter_eq_self.mpr fun _ _ => rfl
  rw [all] at kept
  exact kept

/-- A dictionary with as many entries as the list had elements lost none of them. -/
theorem nodup_of_size_ofValues (full : (ofValues key value l).size = l.length) : (l.map key).Nodup := by
  have known : (ofValues key value l).keys ⊆ l.map key := by
    intro k member
    obtain ⟨v, found⟩ := mem_keys_iff.mp member
    obtain ⟨a, inside, rfl, -⟩ := get?_ofValues found
    exact List.mem_map_of_mem inside
  have lengths : (l.map key).length ≤ (ofValues key value l).keys.length := by
    rw [List.length_map, ← full, keys, List.length_map]
    exact Nat.le_refl _
  have perm := ((ofValues key value l).nodup.subperm known).perm_of_length_le lengths
  exact perm.nodup_iff.mp (ofValues key value l).nodup

end OfValues

end Dict
