import Mathlib.Algebra.Order.Monoid.Defs
import Mathlib.Algebra.Order.Monoid.Unbundled.Basic
import Mathlib.Algebra.Order.Monoid.Unbundled.WithTop
import Mathlib.Order.Bounds.Basic

/-- The walks of a weighted graph, with their costs. -/
inductive Walk {ν κ : Type} [AddCommMonoid κ] (edge : ν → ν → κ → Prop) : ν → ν → κ → Prop
  | nil {a : ν} : Walk edge a a 0
  | snoc {a b c : ν} {cost w : κ} : Walk edge a b cost → edge b c w → Walk edge a c (cost + w)

/-- The cost of a cheapest walk; it is infinite where there is no walk. -/
structure ShortestCost {ν κ : Type} [AddCommMonoid κ] [LinearOrder κ] (edge : ν → ν → κ → Prop) (a b : ν)
    (cost : WithTop κ) : Prop where
  attained : ∀ c : κ, cost = c → Walk edge a b c
  least : ∀ c : κ, Walk edge a b c → cost ≤ c

/-- The state of a search that settles the vertices in the order of their
costs: every walk from the source is known as far as it is settled, and goes
on through a vertex that is pending. -/
structure Labelled {ν κ : Type} [AddCommMonoid κ] [LinearOrder κ] (edge : ν → ν → κ → Prop) (source : ν)
    (distance : ν → Option κ) (settled : ν → Prop) (pending : κ → ν → Prop) : Prop where
  start : distance source = some 0
  sound : ∀ {b c}, distance b = some c → Walk edge source b c
  waiting : ∀ {b c}, distance b = some c → ¬settled b → pending c b
  queued : ∀ {b c}, pending c b → ∃ d, distance b = some d ∧ d ≤ c
  known : ∀ {b}, settled b → ∃ d, distance b = some d
  relaxed : ∀ {b b' d w}, settled b → distance b = some d → edge b b' w → ∃ d', distance b' = some d' ∧ d' ≤ d + w
  ordered : ∀ {b b' c d}, settled b → distance b = some d → pending c b' → d ≤ c

/-- What becomes of the distances and of what is pending when all edges of a vertex are tried. -/
structure Relaxed {ν κ : Type} [AddCommMonoid κ] [LinearOrder κ] (edge : ν → κ → Prop) (cost : κ)
    (distance distance' : ν → Option κ) (pending pending' : κ → ν → Prop) : Prop where
  lower : ∀ {b d}, distance b = some d → ∃ d', distance' b = some d' ∧ d' ≤ d
  tried : ∀ {b w}, edge b w → ∃ d', distance' b = some d' ∧ d' ≤ cost + w
  origin : ∀ {b d'}, distance' b = some d' → distance b = some d' ∨ ∃ w, edge b w ∧ d' = cost + w ∧ pending' d' b
  kept : ∀ {b c}, pending c b → pending' c b
  added : ∀ {b c}, pending' c b → pending c b ∨ ∃ w, edge b w ∧ c = cost + w ∧ ∃ d', distance' b = some d' ∧ d' ≤ c

section Walks

variable {ν κ : Type} [AddCommMonoid κ] {edge : ν → ν → κ → Prop} {a b c : ν} {cost cost' : κ}

theorem Walk.append (first : Walk edge a b cost) (second : Walk edge b c cost') : Walk edge a c (cost + cost') := by
  induction second with
  | nil => rwa [add_zero]
  | snoc _ step ih =>
    rw [← add_assoc]
    exact .snoc ih step

theorem Walk.single (step : edge a b cost) : Walk edge a b cost := by
  have walk := Walk.snoc .nil step
  rwa [zero_add] at walk

theorem Walk.reverse (mutual_ : ∀ {a b w}, edge a b w → edge b a w) (walk : Walk edge a b cost) : Walk edge b a cost := by
  induction walk with
  | nil => exact .nil
  | snoc _ step ih =>
    rw [add_comm]
    exact (Walk.single (mutual_ step)).append ih

theorem Walk.nonneg [PartialOrder κ] [IsOrderedAddMonoid κ] (positive : ∀ {a b w}, edge a b w → 0 < w)
    (walk : Walk edge a b cost) : 0 ≤ cost := by
  induction walk with
  | nil => exact le_refl _
  | snoc _ step ih => exact add_nonneg ih (positive step).le

end Walks

section Costs

variable {ν κ : Type} [AddCommMonoid κ] [LinearOrder κ] {edge : ν → ν → κ → Prop} {a b c : ν}
  {cost cost' total : WithTop κ}

theorem ShortestCost.eq (first : ShortestCost edge a b cost) (second : ShortestCost edge a b cost') : cost = cost' := by
  have half : ∀ {x y : WithTop κ}, ShortestCost edge a b x → ShortestCost edge a b y → x ≤ y := by
    intro x y short walked
    cases y with
    | top => exact le_top
    | coe y => exact short.least y (walked.attained y rfl)
  exact le_antisymm (half first second) (half second first)

/-- It is the minimum of the costs of the walks, where there are any. -/
theorem ShortestCost.isLeast {x : κ} (short : ShortestCost edge a b x) : IsLeast {c | Walk edge a b c} x :=
  ⟨short.attained x rfl, fun y walk => WithTop.coe_le_coe.mp (short.least y walk)⟩

theorem ShortestCost.eq_top_iff (short : ShortestCost edge a b cost) : cost = ⊤ ↔ ¬∃ c, Walk edge a b c := by
  constructor
  · rintro rfl ⟨_, walk⟩
    exact absurd (short.least _ walk) (not_le_of_gt (WithTop.coe_lt_top _))
  · intro apart
    cases cost with
    | top => rfl
    | coe c => exact absurd ⟨c, short.attained c rfl⟩ apart

theorem ShortestCost.swap (mutual_ : ∀ {a b w}, edge a b w → edge b a w) (short : ShortestCost edge a b cost) :
    ShortestCost edge b a cost :=
  ⟨fun c same => (short.attained c same).reverse mutual_, fun c walk => short.least c (walk.reverse mutual_)⟩

open Classical in
/-- The cost of a cheapest walk, for a graph where there always is one or none at all. -/
noncomputable def shortestCost (edge : ν → ν → κ → Prop) (a b : ν) : WithTop κ :=
  if exists_ : ∃ cost, ShortestCost edge a b cost then exists_.choose else ⊤

theorem ShortestCost.eq_shortestCost (short : ShortestCost edge a b cost) : shortestCost edge a b = cost := by
  have exists_ : ∃ cost, ShortestCost edge a b cost := ⟨cost, short⟩
  unfold shortestCost
  rw [dif_pos exists_]
  exact exists_.choose_spec.eq short

theorem shortestCost_comm (mutual_ : ∀ {a b w}, edge a b w → edge b a w) (a b : ν) :
    shortestCost edge a b = shortestCost edge b a := by
  by_cases exists_ : ∃ cost, ShortestCost edge a b cost
  · obtain ⟨cost, short⟩ := exists_
    have swapped : ShortestCost edge b a cost := short.swap mutual_
    rw [short.eq_shortestCost, swapped.eq_shortestCost]
  · have other : ¬∃ cost, ShortestCost edge b a cost := fun ⟨cost, short⟩ => exists_ ⟨cost, short.swap mutual_⟩
    unfold shortestCost
    rw [dif_neg exists_, dif_neg other]

theorem ShortestCost.self [IsOrderedAddMonoid κ] (positive : ∀ {a b w}, edge a b w → 0 < w) :
    ShortestCost edge a a (0 : κ) :=
  ⟨fun _ same => WithTop.coe_inj.mp same ▸ .nil, fun _ walk => WithTop.coe_le_coe.mpr (walk.nonneg positive)⟩

theorem ShortestCost.triangle (direct : ShortestCost edge a c total) (first : ShortestCost edge a b cost)
    (second : ShortestCost edge b c cost') : total ≤ cost + cost' := by
  cases cost with
  | top => simp
  | coe x =>
    cases cost' with
    | top => simp
    | coe y => exact direct.least (x + y) ((first.attained x rfl).append (second.attained y rfl))

end Costs

namespace Labelled

variable {ν κ : Type} [AddCommMonoid κ] [LinearOrder κ] [IsOrderedCancelAddMonoid κ] {edge : ν → ν → κ → Prop}
  {source target b : ν} {distance distance' : ν → Option κ} {settled : ν → Prop} {pending pending' : κ → ν → Prop}
  {cost : κ}

/-- A walk ends in a settled vertex that it does not beat, or passes through a pending one. -/
theorem below (labelled : Labelled edge source distance settled pending)
    (positive : ∀ {a b w}, edge a b w → 0 < w) (walk : Walk edge source b cost) :
    (settled b ∧ ∃ d, distance b = some d ∧ d ≤ cost) ∨ ∃ c b', pending c b' ∧ c ≤ cost := by
  have here : ∀ {b c x}, distance b = some c → c ≤ x →
      (settled b ∧ ∃ d, distance b = some d ∧ d ≤ x) ∨ ∃ c b', pending c b' ∧ c ≤ x := by
    intro b c x found atMost
    by_cases done : settled b
    · exact Or.inl ⟨done, c, found, atMost⟩
    · exact Or.inr ⟨c, b, labelled.waiting found done, atMost⟩
  induction walk with
  | nil => exact here labelled.start (le_refl _)
  | @snoc _ _ _ w _ step ih =>
    rcases ih with ⟨done, d, found, atMost⟩ | ⟨c, b', waits, atMost⟩
    · obtain ⟨d', found', atMost'⟩ := labelled.relaxed done found step
      exact here found' (atMost'.trans (add_le_add_left atMost w))
    · exact Or.inr ⟨c, b', waits, atMost.trans (le_add_of_nonneg_right (positive step).le)⟩

/-- The first pending cost of a vertex that is not settled is the cost of a cheapest walk. -/
theorem shortest (labelled : Labelled edge source distance settled pending) (positive : ∀ {a b w}, edge a b w → 0 < w)
    (first : pending cost target) (least : ∀ {c b}, pending c b → cost ≤ c) (unsettled : ¬settled target) :
    ShortestCost edge source target cost := by
  obtain ⟨d, found, atMost⟩ := labelled.queued first
  have same : d = cost := le_antisymm atMost (least (labelled.waiting found unsettled))
  subst same
  refine ⟨fun c same => WithTop.coe_inj.mp same ▸ labelled.sound found, fun c walk => WithTop.coe_le_coe.mpr ?_⟩
  rcases labelled.below positive walk with ⟨done, -⟩ | ⟨c', b', waits, atMost⟩
  · exact absurd done unsettled
  · exact (least waits).trans atMost

/-- Where nothing is pending, no walk leads to a vertex that is not settled. -/
theorem unreachable (labelled : Labelled edge source distance settled pending)
    (positive : ∀ {a b w}, edge a b w → 0 < w) (nothing : ∀ c b, ¬pending c b) (unsettled : ¬settled target) :
    ShortestCost edge source target ⊤ := by
  refine ⟨fun c same => absurd same.symm (WithTop.coe_ne_top), fun c walk => ?_⟩
  rcases labelled.below positive walk with ⟨done, -⟩ | ⟨c', b', waits, -⟩
  · exact absurd done unsettled
  · exact absurd waits (nothing c' b')

omit [IsOrderedCancelAddMonoid κ] in
/-- An entry whose vertex has a lower distance by now can be dropped. -/
theorem drop (labelled : Labelled edge source distance settled pending) (stale : distance b ≠ some cost)
    (fewer : ∀ {c b'}, pending' c b' → pending c b') (others : ∀ {c b'}, pending c b' → (c, b') ≠ (cost, b) → pending' c b') :
    Labelled edge source distance settled pending' where
  start := labelled.start
  sound := labelled.sound
  waiting found unsettled := others (labelled.waiting found unsettled) fun same =>
    stale ((Prod.mk.inj same).2 ▸ (Prod.mk.inj same).1 ▸ found)
  queued waits := labelled.queued (fewer waits)
  known := labelled.known
  relaxed := labelled.relaxed
  ordered done found waits := labelled.ordered done found (fewer waits)

/-- The vertex of the least pending entry is settled once its edges are tried. -/
theorem settle (labelled : Labelled edge source distance settled pending) (positive : ∀ {a b w}, edge a b w → 0 < w)
    (current : distance b = some cost) (first : pending cost b) (least : ∀ {c b'}, pending c b' → cost ≤ c)
    {rest : κ → ν → Prop} (fewer : ∀ {c b'}, rest c b' → pending c b')
    (others : ∀ {c b'}, pending c b' → (c, b') ≠ (cost, b) → rest c b')
    (relaxed : Relaxed (edge b) cost distance distance' rest pending') :
    Labelled edge source distance' (fun b' => b' = b ∨ settled b') pending' := by
  have still : ∀ {b' d}, distance b' = some d → d ≤ cost → distance' b' = some d := by
    intro b' d found atMost
    obtain ⟨d', found', lower⟩ := relaxed.lower found
    rcases relaxed.origin found' with same | ⟨w, step, rfl, -⟩
    · rw [found', ← same, found]
    · exact absurd (lower.trans atMost) (not_le_of_gt (lt_add_of_pos_right cost (positive step)))
  have settledWithin : ∀ {b'}, b' = b ∨ settled b' → ∃ d, distance b' = some d ∧ d ≤ cost := by
    rintro b' (rfl | done)
    · exact ⟨cost, current, le_refl _⟩
    · obtain ⟨d, found⟩ := labelled.known done
      exact ⟨d, found, labelled.ordered done found first⟩
  refine ⟨still labelled.start ((labelled.sound current).nonneg positive), ?_, ?_, ?_, ?_, ?_, ?_⟩
  · intro b' c found
    rcases relaxed.origin found with old | ⟨w, step, rfl, -⟩
    · exact labelled.sound old
    · exact .snoc (labelled.sound current) step
  · intro b' c found unsettled
    rcases relaxed.origin found with old | ⟨w, step, rfl, waits⟩
    · refine relaxed.kept (others (labelled.waiting old fun done => unsettled (Or.inr done)) fun same => ?_)
      exact unsettled (Or.inl (Prod.mk.inj same).2)
    · exact waits
  · intro b' c waits
    rcases relaxed.added waits with old | ⟨w, step, -, d', found, atMost⟩
    · obtain ⟨d, found, atMost⟩ := labelled.queued (fewer old)
      obtain ⟨d', found', lower⟩ := relaxed.lower found
      exact ⟨d', found', lower.trans atMost⟩
    · exact ⟨d', found, atMost⟩
  · intro b' done
    obtain ⟨d, found, atMost⟩ := settledWithin done
    exact ⟨d, still found atMost⟩
  · intro b' b'' d w done found step
    obtain ⟨d₀, found₀, atMost⟩ := settledWithin done
    obtain rfl : d₀ = d := Option.some.inj ((still found₀ atMost).symm.trans found)
    rcases done with rfl | done
    · obtain rfl : d₀ = cost := Option.some.inj (found₀.symm.trans current)
      exact relaxed.tried step
    · obtain ⟨d', found', atMost'⟩ := labelled.relaxed done found₀ step
      obtain ⟨d'', found'', lower⟩ := relaxed.lower found'
      exact ⟨d'', found'', lower.trans atMost'⟩
  · intro b' b'' c d done found waits
    obtain ⟨d₀, found₀, atMost⟩ := settledWithin done
    obtain rfl : d₀ = d := Option.some.inj ((still found₀ atMost).symm.trans found)
    rcases relaxed.added waits with old | ⟨w, step, rfl, -⟩
    · exact atMost.trans (least (fewer old))
    · exact atMost.trans (le_add_of_nonneg_right (positive step).le)

omit [IsOrderedCancelAddMonoid κ] in
/-- A search begins at its source. -/
theorem begin_ [DecidableEq ν] (found : ∀ b, distance b = if b = source then some 0 else none)
    (first : ∀ {c b}, pending c b ↔ c = 0 ∧ b = source) : Labelled edge source distance (fun _ => False) pending := by
  have only : ∀ {b c}, distance b = some c → b = source ∧ c = 0 := by
    intro b c same
    rw [found] at same
    split_ifs at same with here
    exact ⟨here, (Option.some.inj same).symm⟩
  refine ⟨by rw [found, if_pos rfl], ?_, ?_, ?_, False.elim, fun done => done.elim, fun done => done.elim⟩
  · intro b c same
    obtain ⟨rfl, rfl⟩ := only same
    exact .nil
  · intro b c same _
    obtain ⟨rfl, rfl⟩ := only same
    exact first.mpr ⟨rfl, rfl⟩
  · intro b c waits
    obtain ⟨rfl, rfl⟩ := first.mp waits
    exact ⟨0, by rw [found, if_pos rfl], le_refl _⟩

end Labelled

namespace Relaxed

variable {ν κ : Type} [AddCommMonoid κ] [LinearOrder κ] {edge edge' : ν → κ → Prop}
  {distance distance' distance'' : ν → Option κ} {pending pending' pending'' : κ → ν → Prop} {cost w : κ} {b : ν}

theorem refl (nothing : ∀ b w, ¬edge b w) : Relaxed edge cost distance distance pending pending where
  lower found := ⟨_, found, le_refl _⟩
  tried step := absurd step (nothing _ _)
  origin := Or.inl
  kept waits := waits
  added := Or.inl

/-- An edge that leads to no lower cost changes nothing. -/
theorem keep (relaxed : Relaxed edge cost distance distance' pending pending') {d : κ} (found : distance' b = some d)
    (atMost : d ≤ cost + w) :
    Relaxed (fun b' w' => edge b' w' ∨ b' = b ∧ w' = w) cost distance distance' pending pending' where
  lower := relaxed.lower
  tried := by
    rintro b' w' (step | ⟨rfl, rfl⟩)
    · exact relaxed.tried step
    · exact ⟨d, found, atMost⟩
  origin same := by
    rcases relaxed.origin same with old | ⟨w', step, reached⟩
    · exact Or.inl old
    · exact Or.inr ⟨w', Or.inl step, reached⟩
  kept := relaxed.kept
  added waits := by
    rcases relaxed.added waits with old | ⟨w', step, reached⟩
    · exact Or.inl old
    · exact Or.inr ⟨w', Or.inl step, reached⟩

/-- An edge that leads to a lower cost lowers the distance of its end, which becomes pending. -/
theorem improve [DecidableEq ν] (relaxed : Relaxed edge cost distance distance' pending pending')
    (lower : ∀ {d}, distance' b = some d → cost + w ≤ d)
    (updated : ∀ b', distance'' b' = if b' = b then some (cost + w) else distance' b')
    (pushed : ∀ {c b'}, pending'' c b' ↔ pending' c b' ∨ c = cost + w ∧ b' = b) :
    Relaxed (fun b' w' => edge b' w' ∨ b' = b ∧ w' = w) cost distance distance'' pending pending'' := by
  have below : ∀ {b' d}, distance' b' = some d → ∃ d', distance'' b' = some d' ∧ d' ≤ d := by
    intro b' d found
    by_cases here : b' = b
    · subst here
      exact ⟨cost + w, by rw [updated, if_pos rfl], lower found⟩
    · exact ⟨d, by rw [updated, if_neg here, found], le_refl _⟩
  refine ⟨?_, ?_, ?_, fun waits => pushed.mpr (Or.inl (relaxed.kept waits)), ?_⟩
  · intro b' d found
    obtain ⟨d', found', atMost⟩ := relaxed.lower found
    obtain ⟨d'', found'', atMost'⟩ := below found'
    exact ⟨d'', found'', atMost'.trans atMost⟩
  · rintro b' w' (step | ⟨rfl, rfl⟩)
    · obtain ⟨d', found', atMost⟩ := relaxed.tried step
      obtain ⟨d'', found'', atMost'⟩ := below found'
      exact ⟨d'', found'', atMost'.trans atMost⟩
    · exact ⟨cost + w', by rw [updated, if_pos rfl], le_refl _⟩
  · intro b' d same
    rw [updated] at same
    split_ifs at same with here
    · obtain rfl := Option.some.inj same
      exact Or.inr ⟨w, Or.inr ⟨here, rfl⟩, rfl, pushed.mpr (Or.inr ⟨rfl, here⟩)⟩
    · rcases relaxed.origin same with old | ⟨w', step, reached, waits⟩
      · exact Or.inl old
      · exact Or.inr ⟨w', Or.inl step, reached, pushed.mpr (Or.inl waits)⟩
  · intro b' c waits
    rcases pushed.mp waits with old | ⟨rfl, rfl⟩
    · rcases relaxed.added old with before | ⟨w', step, reached, d', found, atMost⟩
      · exact Or.inl before
      · obtain ⟨d'', found'', atMost'⟩ := below found
        exact Or.inr ⟨w', Or.inl step, reached, d'', found'', atMost'.trans atMost⟩
    · exact Or.inr ⟨w, Or.inr ⟨rfl, rfl⟩, rfl, cost + w, by rw [updated, if_pos rfl], le_refl _⟩

end Relaxed
