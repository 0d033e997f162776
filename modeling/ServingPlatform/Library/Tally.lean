import Mathlib.Algebra.Order.BigOperators.Group.List
import Mathlib.Algebra.Order.Ring.Int
import Mathlib.Tactic.Linarith
import ServingPlatform.Library.Dict

namespace Dict

variable {κ ν : Type} {d : Dict κ ν}

/-- The sum of a weight over the held values. -/
def total (d : Dict κ ν) (weight : ν → Int) : Int := (d.values.map weight).sum

theorem total_empty (weight : ν → Int) : (empty : Dict κ ν).total weight = 0 := rfl

theorem total_nonneg {weight : ν → Int} (nonneg : ∀ v, 0 ≤ weight v) : 0 ≤ d.total weight := by
  refine List.sum_nonneg fun x member => ?_
  obtain ⟨v, -, rfl⟩ := List.mem_map.mp member
  exact nonneg v

theorem total_eq_zero {weight : ν → Int} (zero : ∀ v ∈ d.values, weight v = 0) : d.total weight = 0 := by
  unfold total
  rw [List.map_congr_left zero]
  simp

theorem total_congr {weight weight' : ν → Int} (same : ∀ v ∈ d.values, weight v = weight' v) :
    d.total weight = d.total weight' := by
  unfold total
  rw [List.map_congr_left same]

theorem total_indicator (p : ν → Bool) : (d.total fun v => if p v then 1 else 0) = d.values.countP p := by
  unfold total
  induction d.values with
  | nil => rfl
  | cons v rest ih =>
    rw [List.map_cons, List.sum_cons, List.countP_cons, ih]
    split <;> push_cast <;> omega

variable [DecidableEq κ] {k : κ} {v : ν}

theorem total_insert_fresh (weight : ν → Int) (fresh : d.get? k = none) :
    (d.insert k v).total weight = d.total weight + weight v := by
  unfold total values
  rw [entries_insert_of_fresh (get?_eq_none_iff.mp fresh)]
  simp

theorem total_erase (weight : ν → Int) (found : d.get? k = some v) :
    d.total weight = (d.erase k).total weight + weight v := by
  have same := (((entries_erase_perm found).map Prod.snd).map weight).sum_eq
  simp only [List.map_cons, List.sum_cons] at same
  unfold total values
  omega

theorem total_replace (weight : ν → Int) (w : ν) (found : d.get? k = some v) :
    (d.insert k w).total weight = d.total weight - weight v + weight w := by
  have same := (((entries_insert_perm w found).map Prod.snd).map weight).sum_eq
  have erased := total_erase weight found
  simp only [List.map_cons, List.sum_cons] at same
  unfold total values at *
  omega

theorem le_total {weight : ν → Int} (nonneg : ∀ v, 0 ≤ weight v) (found : d.get? k = some v) :
    weight v ≤ d.total weight := by
  have rest : 0 ≤ (d.erase k).total weight := total_nonneg nonneg
  have split := total_erase weight found
  omega

end Dict

/-- A counter for each owner, where a dictionary's values have an owner and a weight. -/
def Tallies {κ ν τ : Type} [DecidableEq τ] (count : τ → Int) (d : Dict κ ν) (owner : ν → τ) (weight : ν → Int) : Prop :=
  ∀ t, count t = d.total fun v => if owner v = t then weight v else 0

namespace Tallies

variable {κ ν τ : Type} [DecidableEq τ] {count : τ → Int} {d : Dict κ ν} {owner : ν → τ} {weight : ν → Int}

/-- One owner's counter is changed. -/
def bump (count : τ → Int) (t : τ) (change : Int) : τ → Int := Function.update count t (count t + change)

theorem bump_apply (count : τ → Int) (t u : τ) (change : Int) :
    bump count t change u = count u + if t = u then change else 0 := by
  unfold bump Function.update
  by_cases same : u = t
  · subst same
    simp
  · simp [same, Ne.symm same]

theorem start : Tallies (fun _ => 0) (.empty : Dict κ ν) owner weight := fun _ => rfl

theorem nonneg (tallies : Tallies count d owner weight) (weights : ∀ v, 0 ≤ weight v) (t : τ) : 0 ≤ count t := by
  rw [tallies t]
  refine Dict.total_nonneg fun v => ?_
  split
  · exact weights v
  · exact le_refl _

/-- A counter is zero for who owns nothing. -/
theorem eq_zero (tallies : Tallies count d owner weight) {t : τ} (none : ∀ v ∈ d.values, owner v ≠ t) : count t = 0 := by
  rw [tallies t]
  exact Dict.total_eq_zero fun v member => if_neg (none v member)

variable [DecidableEq κ] {k : κ} {v w : ν}

/-- An entry that is added is counted for its owner. -/
theorem add (tallies : Tallies count d owner weight) (fresh : d.get? k = none) :
    Tallies (bump count (owner v) (weight v)) (d.insert k v) owner weight := by
  intro t
  rw [bump_apply, d.total_insert_fresh _ fresh, tallies t]

/-- An entry that is taken out is no longer counted. -/
theorem remove (tallies : Tallies count d owner weight) (found : d.get? k = some v) :
    Tallies (bump count (owner v) (-weight v)) (d.erase k) owner weight := by
  intro t
  have split := d.total_erase (fun v => if owner v = t then weight v else 0) found
  rw [bump_apply, tallies t, split]
  split <;> omega

/-- An entry that changes its weight but not its owner changes the counter by the difference. -/
theorem replace (tallies : Tallies count d owner weight) (found : d.get? k = some v) (same : owner w = owner v) :
    Tallies (bump count (owner v) (weight w - weight v)) (d.insert k w) owner weight := by
  intro t
  rw [bump_apply, tallies t, d.total_replace _ w found, same]
  split <;> omega

/-- An owner's counter is at least the weight of each of its entries. -/
theorem le_count (tallies : Tallies count d owner weight) (weights : ∀ v, 0 ≤ weight v) (found : d.get? k = some v) :
    weight v ≤ count (owner v) := by
  rw [tallies (owner v)]
  have nonneg : ∀ u, 0 ≤ if owner u = owner v then weight u else 0 := by
    intro u
    split
    · exact weights u
    · exact le_refl _
  have least := Dict.le_total nonneg found
  rwa [if_pos rfl] at least

end Tallies
