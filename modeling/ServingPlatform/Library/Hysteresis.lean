import Mathlib.Data.List.Induction
import Mathlib.Order.Lattice
import Mathlib.Tactic.Common

namespace Hysteresis

variable {α : Type} [LinearOrder α] {low high level : α} {flag : Bool} {levels : List α}

/-- A flag is raised when the level reaches the upper mark, and lowered when it
comes down to the lower one. -/
def update (low high : α) (flag : Bool) (level : α) : Bool :=
  if !flag && decide (high ≤ level) then true
  else if flag && decide (level ≤ low) then false
  else flag

/-- At some level the upper mark was reached, and all levels since were above the lower one. -/
def RaisedSince (low high : α) (levels : List α) : Prop :=
  ∃ before level after, levels = before ++ level :: after ∧ high ≤ level ∧ ∀ later ∈ after, low < later

theorem update_eq_true_iff (order : low < high) :
    update low high flag level = true ↔ high ≤ level ∨ flag = true ∧ low < level := by
  unfold update
  cases flag with
  | false => simp
  | true =>
    have above : high ≤ level → low < level := fun reached => lt_of_lt_of_le order reached
    by_cases down : level ≤ low
    · simp only [Bool.not_true, Bool.false_and, Bool.false_eq_true, if_false, Bool.true_and, decide_eq_true down, if_true,
        true_and, false_iff, not_or, not_le, not_lt]
      exact ⟨lt_of_le_of_lt down order, down⟩
    · simp only [Bool.not_true, Bool.false_and, Bool.false_eq_true, if_false, Bool.true_and, decide_eq_false down, true_and,
        true_iff]
      exact Or.inr (lt_of_not_ge down)

/-- A level that is seen again changes nothing. -/
theorem update_twice (order : low < high) :
    update low high (update low high flag level) level = update low high flag level := by
  rw [Bool.eq_iff_iff, update_eq_true_iff order, update_eq_true_iff order]
  constructor
  · rintro (reached | ⟨raised, -⟩)
    · exact Or.inl reached
    · exact raised
  · rintro (reached | ⟨raised, above⟩)
    · exact Or.inl reached
    · exact Or.inr ⟨Or.inr ⟨raised, above⟩, above⟩

theorem not_raisedSince_nil : ¬RaisedSince low high [] := by
  rintro ⟨before, level, after, split, -⟩
  cases before <;> cases split

theorem raisedSince_concat :
    RaisedSince low high (levels ++ [level]) ↔ high ≤ level ∨ RaisedSince low high levels ∧ low < level := by
  constructor
  · rintro ⟨before, first, after, split, reached, above⟩
    rcases List.eq_nil_or_concat after with rfl | ⟨rest, last, rfl⟩
    · obtain ⟨-, same⟩ := List.append_inj' split rfl
      exact Or.inl (List.singleton_inj.mp same ▸ reached)
    · rw [List.concat_eq_append] at split above
      rw [← List.cons_append, ← List.append_assoc] at split
      obtain ⟨earlier, same⟩ := List.append_inj' split rfl
      rw [List.singleton_inj.mp same]
      exact Or.inr ⟨⟨before, first, rest, earlier, reached, fun later member => above later (List.mem_append_left _ member)⟩,
        above last (List.mem_append_right _ (List.mem_singleton_self _))⟩
  · rintro (reached | ⟨⟨before, first, after, rfl, reached, above⟩, last⟩)
    · exact ⟨levels, level, [], rfl, reached, fun later member => by cases member⟩
    · refine ⟨before, first, after ++ [level], by simp, reached, fun later member => ?_⟩
      rcases List.mem_append.mp member with old | new
      · exact above later old
      · rw [List.mem_singleton.mp new]
        exact last

/-- A flag that follows the levels one by one is raised if the upper mark was
reached and the lower one not since. -/
theorem foldl_update_iff (order : low < high) (levels : List α) :
    levels.foldl (update low high) false = true ↔ RaisedSince low high levels := by
  induction levels using List.reverseRecOn with
  | nil => simp [not_raisedSince_nil]
  | append_singleton levels level ih =>
    rw [List.foldl_append, List.foldl_cons, List.foldl_nil, update_eq_true_iff order, ih, raisedSince_concat]

end Hysteresis
