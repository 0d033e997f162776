import Mathlib.Algebra.BigOperators.Group.List.Basic
import Mathlib.Algebra.Order.BigOperators.Group.List
import Mathlib.Algebra.Order.Ring.Int
import Mathlib.Tactic.Linarith

/-- The shortest prefix of a list whose weights, added to what is there already, reach a bound. -/
structure ShortestPrefix {α : Type} (weight : α → Int) (there bound : Int) (l chosen : List α) : Prop where
  initial : chosen <+: l
  reaches : bound ≤ there + (chosen.map weight).sum
  least : ∀ shorter, shorter <+: l → bound ≤ there + (shorter.map weight).sum → chosen.length ≤ shorter.length

namespace ShortestPrefix

variable {α : Type} {weight : α → Int} {there bound : Int} {a : α} {l chosen chosen' : List α}

/-- Nothing is chosen where nothing is missing. -/
theorem nil (enough : bound ≤ there) : ShortestPrefix weight there bound l [] :=
  ⟨List.nil_prefix, by simpa using enough, fun _ _ _ => Nat.zero_le _⟩

theorem cons (missing : there < bound) (rest : ShortestPrefix weight (there + weight a) bound l chosen) :
    ShortestPrefix weight there bound (a :: l) (a :: chosen) := by
  refine ⟨List.prefix_cons_inj a |>.mpr rest.initial, ?_, fun shorter initial reaches => ?_⟩
  · have total := rest.reaches
    rw [List.map_cons, List.sum_cons]
    omega
  · cases shorter with
    | nil =>
      simp only [List.map_nil, List.sum_nil, add_zero] at reaches
      omega
    | cons b shorter =>
      obtain ⟨rfl, tail⟩ := List.cons_prefix_cons.mp initial
      rw [List.map_cons, List.sum_cons, ← add_assoc] at reaches
      exact Nat.succ_le_succ (rest.least shorter tail reaches)

/-- There is no second one. -/
theorem unique (first : ShortestPrefix weight there bound l chosen) (second : ShortestPrefix weight there bound l chosen') :
    chosen = chosen' := by
  have same : chosen.length = chosen'.length :=
    Nat.le_antisymm (first.least _ second.initial second.reaches) (second.least _ first.initial first.reaches)
  rw [List.prefix_iff_eq_take.mp first.initial, List.prefix_iff_eq_take.mp second.initial, same]

/-- Where not even all of a list reaches the bound, no prefix does. -/
theorem reached_by_all (nonneg : ∀ a, 0 ≤ weight a) (found : ShortestPrefix weight there bound l chosen) :
    bound ≤ there + (l.map weight).sum := by
  obtain ⟨rest, rfl⟩ := found.initial
  have more : 0 ≤ (rest.map weight).sum := by
    refine List.sum_nonneg fun x member => ?_
    obtain ⟨a, -, rfl⟩ := List.mem_map.mp member
    exact nonneg a
  have total := found.reaches
  rw [List.map_append, List.sum_append]
  omega

end ShortestPrefix
