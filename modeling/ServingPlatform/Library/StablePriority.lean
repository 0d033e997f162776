import Mathlib.Data.List.Nodup
import Mathlib.Order.Lattice

/-! Selection by rank from a list, the order of the list deciding between equal ranks. -/

namespace StablePriority

variable {α β : Type} [LinearOrder β] {rank rank' : α → β} {l l' : List α} {x y : α}

/-- The higher rank comes first, and between equal ranks what comes first in the list. -/
def Precedes (rank : α → β) (l : List α) (x y : α) : Prop := rank y < rank x ∨ rank x = rank y ∧ [x, y].Sublist l

/-- The first of the elements of the highest rank. -/
def First (rank : α → β) (l : List α) (x : α) : Prop :=
  ∃ early late, l = early ++ x :: late ∧ (∀ y ∈ early, rank y < rank x) ∧ ∀ y ∈ late, rank y ≤ rank x

theorem pair_total (differ : x ≠ y) (first : x ∈ l) (second : y ∈ l) : [x, y].Sublist l ∨ [y, x].Sublist l := by
  induction l with
  | nil => cases first
  | cons z rest ih =>
    rcases List.mem_cons.mp first with rfl | later
    · have after := (List.mem_cons.mp second).resolve_left differ.symm
      exact Or.inl ((List.singleton_sublist.mpr after).cons_cons x)
    · rcases List.mem_cons.mp second with rfl | after
      · exact Or.inr ((List.singleton_sublist.mpr later).cons_cons y)
      · exact (ih later after).imp (fun pair => pair.cons z) fun pair => pair.cons z

theorem pair_asymm (nodup : l.Nodup) (forth : [x, y].Sublist l) : ¬[y, x].Sublist l := by
  intro back
  induction l with
  | nil => cases forth
  | cons z rest ih =>
    obtain ⟨fresh, distinct⟩ := List.nodup_cons.mp nodup
    cases forth with
    | cons _ forth =>
      cases back with
      | cons _ back => exact ih distinct forth back
      | cons_cons _ back => exact fresh (forth.subset (by simp))
    | cons_cons _ forth =>
      cases back with
      | cons _ back => exact fresh (back.subset (by simp))
      | cons_cons _ back => exact fresh (List.singleton_sublist.mp forth)

namespace Precedes

theorem total (rank : α → β) (differ : x ≠ y) (first : x ∈ l) (second : y ∈ l) :
    Precedes rank l x y ∨ Precedes rank l y x := by
  rcases lt_trichotomy (rank x) (rank y) with below | same | above
  · exact Or.inr (Or.inl below)
  · rcases pair_total differ first second with forth | back
    · exact Or.inl (Or.inr ⟨same, forth⟩)
    · exact Or.inr (Or.inr ⟨same.symm, back⟩)
  · exact Or.inl (Or.inl above)

theorem asymm (precedes : Precedes rank l x y) (nodup : l.Nodup) : ¬Precedes rank l y x := by
  rintro (below | ⟨same, back⟩)
  · rcases precedes with above | ⟨same, -⟩
    · exact lt_asymm below above
    · exact below.ne same
  · rcases precedes with above | ⟨-, forth⟩
    · exact above.ne same
    · exact pair_asymm nodup forth back

theorem extend (precedes : Precedes rank l x y) (sublist : l.Sublist l') : Precedes rank l' x y :=
  precedes.imp id fun tie => ⟨tie.1, tie.2.trans sublist⟩

/-- The order of two elements does not change while both stay. -/
theorem restrict (precedes : Precedes rank l' x y) (sublist : l.Sublist l') (nodup : l'.Nodup) (first : x ∈ l)
    (second : y ∈ l) : Precedes rank l x y := by
  rcases precedes with above | ⟨same, forth⟩
  · exact Or.inl above
  have differ : x ≠ y := by
    rintro rfl
    exact pair_asymm nodup forth forth
  rcases pair_total differ first second with kept | back
  · exact Or.inr ⟨same, kept⟩
  · exact absurd (back.trans sublist) (pair_asymm nodup forth)

theorem rerank (precedes : Precedes rank l x y) (first : rank' x = rank x) (second : rank' y = rank y) :
    Precedes rank' l x y := by
  unfold Precedes
  rw [first, second]
  exact precedes

end Precedes

namespace First

theorem singleton (rank : α → β) (x : α) : First rank [x] x := ⟨[], [], rfl, by simp, by simp⟩

theorem mem (first : First rank l x) : x ∈ l := by
  obtain ⟨early, late, rfl, -, -⟩ := first
  simp

theorem le (first : First rank l x) (member : y ∈ l) : rank y ≤ rank x := by
  obtain ⟨early, late, rfl, below, most⟩ := first
  rcases List.mem_append.mp member with before | after
  · exact (below y before).le
  · rcases List.mem_cons.mp after with rfl | after
    · exact le_rfl
    · exact most y after

theorem keep (first : First rank l x) (lower : rank y ≤ rank x) : First rank (l ++ [y]) x := by
  obtain ⟨early, late, rfl, below, most⟩ := first
  refine ⟨early, late ++ [y], by simp, below, fun z member => ?_⟩
  rcases List.mem_append.mp member with before | last
  · exact most z before
  · exact List.mem_singleton.mp last ▸ lower

theorem replace (first : First rank l x) (higher : rank x < rank y) : First rank (l ++ [y]) y :=
  ⟨l, [], rfl, fun _ member => (first.le member).trans_lt higher, by simp⟩

/-- Nothing in the list precedes the first of the highest rank. -/
theorem not_preceded (first : First rank l x) (nodup : l.Nodup) (member : y ∈ l) : ¬Precedes rank l y x := by
  rintro (above | ⟨same, pair⟩)
  · exact absurd (first.le member) (not_le.mpr above)
  obtain ⟨early, late, rfl, below, -⟩ := first
  rcases List.mem_append.mp member with before | after
  · exact absurd same (below y before).ne
  · rcases List.mem_cons.mp after with rfl | after
    · exact pair_asymm nodup pair pair
    · have forth : [x, y].Sublist (early ++ x :: late) :=
        ((List.singleton_sublist.mpr after).cons_cons x).trans (List.sublist_append_right early _)
      exact pair_asymm nodup forth pair

end First

end StablePriority
