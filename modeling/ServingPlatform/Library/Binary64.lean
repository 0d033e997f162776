import Mathlib.Algebra.Order.Floor.Div
import Mathlib.Algebra.Order.Ring.Nat
import Mathlib.Algebra.Order.Ring.Unbundled.Rat
import Mathlib.Data.Nat.Find
import Mathlib.Order.Nat
import Mathlib.Tactic.Common
import Mathlib.Tactic.FieldSimp
import Mathlib.Tactic.Linarith
import Mathlib.Tactic.Positivity
import Mathlib.Tactic.Ring

namespace Binary64

/-- The integer nearest to `a / b`, ties going to the even neighbour. -/
def roundHalfEven (a b : Nat) : Nat :=
  if 2 * (a % b) < b then a / b
  else if b < 2 * (a % b) then a / b + 1
  else if (a / b) % 2 = 0 then a / b else a / b + 1

/-- A nonnegative finite double: `significand * 2 ^ exponent`. -/
structure Value where
  significand : Nat
  exponent : Int
  deriving DecidableEq

def Value.ceil (v : Value) : Nat :=
  if 0 ≤ v.exponent then v.significand * 2 ^ v.exponent.toNat
  else v.significand ⌈/⌉ 2 ^ (-v.exponent).toNat

/-- The finest scale, down to the subnormal limit, at which the quotient fits in 53 bits. -/
def fineScale (a b : Nat) : Nat := Nat.findGreatest (fun s => a * 2 ^ s < b * 2 ^ 53) 1074

/-- The scale of a quotient whose integer part needs more than 53 bits. -/
def coarseScale (a b : Nat) : Nat := (a / b).log2 - 52

/-- True division of natural numbers, rounded to the nearest double.
A quotient beyond the largest double has no value. -/
def quotient (a b : Nat) : Option Value :=
  if a < b * 2 ^ 53 then
    some ⟨roundHalfEven (a * 2 ^ fineScale a b) b, -fineScale a b⟩
  else
    let significand := roundHalfEven a (b * 2 ^ coarseScale a b)
    if significand * 2 ^ coarseScale a b < 2 ^ 1024 then some ⟨significand, coarseScale a b⟩ else none

/-- Rounding exceeds `n` when the exact quotient is past the midpoint
`n + 1/2`, or on it with `n` odd. -/
theorem lt_roundHalfEven_iff {a b n : Nat} (positive : 0 < b) :
    n < roundHalfEven a b ↔ (2 * n + 1) * b < 2 * a ∨ (2 * n + 1) * b = 2 * a ∧ n % 2 = 1 := by
  have split : b * (a / b) + a % b = a := Nat.div_add_mod a b
  have small : a % b < b := Nat.mod_lt a positive
  unfold roundHalfEven
  generalize a / b = q at *
  generalize a % b = r at *
  subst split
  rcases Nat.lt_trichotomy n q with below | same | above
  · have room : (n + 1) * b ≤ q * b := Nat.mul_le_mul_right b below
    have past : (2 * n + 1) * b < 2 * (b * q + r) := by linarith
    simp only [past, true_or, iff_true]
    grind
  · subst same
    have left : (2 * n + 1) * b = 2 * (b * n) + b := by ring
    rw [left]
    grind
  · have room : (q + 1) * b ≤ n * b := Nat.mul_le_mul_right b above
    have short : ¬ (2 * n + 1) * b < 2 * (b * q + r) := by linarith
    have differ : ¬ (2 * n + 1) * b = 2 * (b * q + r) := by
      intro equal
      linarith
    simp only [short, differ, false_and, or_false, iff_false]
    grind

theorem roundHalfEven_le {a b n : Nat} (positive : 0 < b) (bound : a ≤ n * b) : roundHalfEven a b ≤ n := by
  by_contra more
  rcases (lt_roundHalfEven_iff positive).mp (Nat.lt_of_not_le more) with past | ⟨tie, -⟩ <;> nlinarith

theorem roundHalfEven_eq {a b n : Nat} (below : 2 * n * b < 2 * a + b) (above : 2 * a < 2 * n * b + b) :
    roundHalfEven a b = n := by
  have positive : 0 < b := by omega
  have expand : (2 * n + 1) * b = 2 * n * b + b := by ring
  have upper : ¬ n < roundHalfEven a b := by
    rw [lt_roundHalfEven_iff positive, expand]
    omega
  rcases Nat.eq_zero_or_pos n with zero | some_left
  · omega
  have lower : n - 1 < roundHalfEven a b := by
    have shrink : (2 * (n - 1) + 1) * b + b = 2 * n * b := by
      rw [← Nat.succ_mul]
      congr 1
      omega
    exact (lt_roundHalfEven_iff positive).mpr (Or.inl (by omega))
  omega

theorem ceilDiv_eq_of_pos {a b : Nat} (some_left : 0 < a) (positive : 0 < b) : a ⌈/⌉ b = (a - 1) / b + 1 := by
  rw [Nat.ceilDiv_eq_add_pred_div, show a + b - 1 = a - 1 + b by omega, Nat.add_div_right _ positive]

/-- The quotient is split into whole parts and one last part, never empty. -/
theorem split_last {a b : Nat} (some_left : 0 < a) : a = (a - 1) / b * b + ((a - 1) % b + 1) := by
  have split := Nat.div_add_mod (a - 1) b
  rw [Nat.mul_comm] at split
  omega

/-- The exact condition under which rounding the quotient does not change
its ceiling: the last part is more than half a unit in the last place. -/
def CeilExact (a b : Nat) : Prop :=
  a = 0 ∨
    if a < b * 2 ^ 53 then
      b < 2 ^ (fineScale a b + 1) * ((a - 1) % b + 1) ∨
        b = 2 ^ (fineScale a b + 1) * ((a - 1) % b + 1) ∧ (a - 1) / b * 2 ^ fineScale a b % 2 = 1
    else 2 ^ coarseScale a b ∣ (a - 1) / b + 1

instance (a b : Nat) : Decidable (CeilExact a b) := inferInstanceAs (Decidable (_ ∨ _))

theorem ceil_fine {a b s : Nat} (some_left : 0 < a) (positive : 0 < b) :
    roundHalfEven (a * 2 ^ s) b ⌈/⌉ 2 ^ s = a ⌈/⌉ b ↔
      b < 2 ^ (s + 1) * ((a - 1) % b + 1) ∨
        b = 2 ^ (s + 1) * ((a - 1) % b + 1) ∧ (a - 1) / b * 2 ^ s % 2 = 1 := by
  have parts := split_last (b := b) some_left
  have last : (a - 1) % b + 1 ≤ b := Nat.mod_lt _ positive
  rw [ceilDiv_eq_of_pos some_left positive]
  generalize (a - 1) / b = k at *
  generalize (a - 1) % b + 1 = r at *
  have scale : 0 < 2 ^ s := Nat.two_pow_pos s
  have upper : roundHalfEven (a * 2 ^ s) b ⌈/⌉ 2 ^ s ≤ k + 1 := by
    rw [ceilDiv_le_iff_le_mul scale]
    refine roundHalfEven_le positive ?_
    have whole : a ≤ (k + 1) * b := by rw [parts, Nat.add_mul]; omega
    calc a * 2 ^ s ≤ (k + 1) * b * 2 ^ s := Nat.mul_le_mul_right _ whole
      _ = 2 ^ s * (k + 1) * b := by ring
  have lower : k < roundHalfEven (a * 2 ^ s) b ⌈/⌉ 2 ^ s ↔ k * 2 ^ s < roundHalfEven (a * 2 ^ s) b := by
    rw [← not_le, ← not_le, ceilDiv_le_iff_le_mul scale, Nat.mul_comm k]
  have midpoint : 2 * (a * 2 ^ s) = 2 * (k * 2 ^ s) * b + 2 ^ (s + 1) * r := by rw [parts]; ring
  have spread : (2 * (k * 2 ^ s) + 1) * b = 2 * (k * 2 ^ s) * b + b := by ring
  rw [lt_roundHalfEven_iff positive, midpoint, spread, Nat.add_lt_add_iff_left, Nat.add_left_cancel_iff] at lower
  rw [← lower]
  omega

theorem ceil_coarse {a b t : Nat} (some_left : 0 < a) (positive : 0 < b) (shift : 0 < t) :
    roundHalfEven a (b * 2 ^ t) * 2 ^ t = a ⌈/⌉ b ↔ 2 ^ t ∣ (a - 1) / b + 1 := by
  have parts := split_last (b := b) some_left
  have last : (a - 1) % b + 1 ≤ b := Nat.mod_lt _ positive
  rw [ceilDiv_eq_of_pos some_left positive]
  generalize (a - 1) / b = k at *
  have nonempty : 0 < (a - 1) % b + 1 := Nat.succ_pos _
  generalize (a - 1) % b + 1 = r at *
  constructor
  · rintro equal
    exact ⟨_, by rw [← equal, Nat.mul_comm]⟩
  · rintro ⟨n, multiple⟩
    have unit : 0 < b * 2 ^ t := Nat.mul_pos positive (Nat.two_pow_pos t)
    have even : 2 ≤ 2 ^ t := Nat.le_self_pow (Nat.pos_iff_ne_zero.mp shift) 2
    have whole : (k + 1) * b = n * (b * 2 ^ t) := by rw [multiple]; ring
    have expand : (k + 1) * b = k * b + b := by ring
    have upper : roundHalfEven a (b * 2 ^ t) ≤ n := roundHalfEven_le unit (by omega)
    have some_parts : 0 < n := by
      rcases Nat.eq_zero_or_pos n with zero | more
      · simp [zero] at multiple
      · exact more
    have lower : n - 1 < roundHalfEven a (b * 2 ^ t) := by
      refine (lt_roundHalfEven_iff unit).mpr (Or.inl ?_)
      have odd : 2 * (n - 1) + 1 + 1 = 2 * n := by omega
      have step : (2 * (n - 1) + 1) * (b * 2 ^ t) + b * 2 ^ t = 2 * (n * (b * 2 ^ t)) := by
        calc _ = (2 * (n - 1) + 1 + 1) * (b * 2 ^ t) := by ring
          _ = 2 * (n * (b * 2 ^ t)) := by rw [odd]; ring
      have double : b * 2 ≤ b * 2 ^ t := Nat.mul_le_mul_left b even
      omega
    have equal : roundHalfEven a (b * 2 ^ t) = n := by omega
    rw [equal, multiple, Nat.mul_comm]

theorem coarseScale_pos {a b : Nat} (positive : 0 < b) (large : b * 2 ^ 53 ≤ a) : 0 < coarseScale a b := by
  have quotientLarge : 2 ^ 53 ≤ a / b := (Nat.le_div_iff_mul_le positive).mpr (by linarith)
  have bits : 53 ≤ (a / b).log2 := (Nat.le_log2 (by omega)).mpr quotientLarge
  unfold coarseScale
  omega

/-- The ceiling of the rounded quotient is the ceiling of the exact one
precisely under `CeilExact`. -/
theorem ceil_quotient_eq_iff {a b : Nat} {v : Value} (positive : 0 < b) (value : quotient a b = some v) :
    v.ceil = a ⌈/⌉ b ↔ CeilExact a b := by
  unfold quotient at value
  unfold CeilExact
  split at value
  · rename_i small
    cases value
    have negative : (if 0 ≤ -(fineScale a b : Int) then
        roundHalfEven (a * 2 ^ fineScale a b) b * 2 ^ (-(fineScale a b : Int)).toNat
        else roundHalfEven (a * 2 ^ fineScale a b) b ⌈/⌉ 2 ^ (- -(fineScale a b : Int)).toNat) =
        roundHalfEven (a * 2 ^ fineScale a b) b ⌈/⌉ 2 ^ fineScale a b := by
      rcases Nat.eq_zero_or_pos (fineScale a b) with zero | more
      · simp [zero]
      · rw [if_neg (by omega), Int.neg_neg, Int.toNat_natCast]
    rw [Value.ceil, negative]
    rcases Nat.eq_zero_or_pos a with zero | some_left
    · simp [zero, roundHalfEven, positive]
    · rw [ceil_fine some_left positive]
      simp only [small, if_true, Nat.ne_of_gt some_left, false_or]
  · rename_i large
    dsimp only at value
    split at value
    · cases value
      have some_left : 0 < a := by
        have unit : 0 < b * 2 ^ 53 := Nat.mul_pos positive (Nat.two_pow_pos 53)
        omega
      rw [Value.ceil, if_pos (Int.natCast_nonneg _), Int.toNat_natCast,
        ceil_coarse some_left positive (coarseScale_pos positive (Nat.le_of_not_lt large))]
      simp only [large, if_false, Nat.ne_of_gt some_left, false_or]
    · cases value

/-- Up to 53 bits the ceiling is exact, whatever the divisor short of underflow. -/
theorem ceilExact_of_lt {a b : Nat} (small : a < 2 ^ 53) (normal : b < 2 ^ 1075) : CeilExact a b := by
  rcases Nat.eq_zero_or_pos a with zero | some_left
  · exact Or.inl zero
  rcases Nat.eq_zero_or_pos b with zero | positive
  · subst zero
    right
    simp only [Nat.zero_mul, Nat.not_lt_zero, if_false, coarseScale, Nat.div_zero]
    exact Nat.one_dvd _
  refine Or.inr ?_
  have fits : a < b * 2 ^ 53 := lt_of_lt_of_le small (Nat.le_mul_of_pos_left _ positive)
  rw [if_pos fits]
  left
  have room : b < 2 ^ (fineScale a b + 1) := by
    rcases Nat.lt_or_ge (fineScale a b) 1074 with below | limit
    · have coarse : ¬ a * 2 ^ (fineScale a b + 1) < b * 2 ^ 53 :=
        Nat.findGreatest_is_greatest (P := fun s => a * 2 ^ s < b * 2 ^ 53) (Nat.lt_succ_self _) below
      have grow : a * 2 ^ (fineScale a b + 1) < 2 ^ 53 * 2 ^ (fineScale a b + 1) :=
        Nat.mul_lt_mul_of_pos_right small (Nat.two_pow_pos _)
      have chain : b * 2 ^ 53 < 2 ^ (fineScale a b + 1) * 2 ^ 53 := by
        rw [Nat.mul_comm (2 ^ (fineScale a b + 1))]
        omega
      exact Nat.lt_of_mul_lt_mul_right chain
    · exact normal.trans_le (Nat.pow_le_pow_right Nat.two_pos (Nat.succ_le_succ limit))
  exact lt_of_lt_of_le room (Nat.le_mul_of_pos_right _ (Nat.succ_pos _))

def Value.toRat (v : Value) : Rat := v.significand * (2 : Rat) ^ v.exponent

/-- A double with its sign. -/
inductive Double
  | finite (negative : Bool) (magnitude : Value)
  | infinite (negative : Bool)
  | nan
  deriving DecidableEq

/-- The nearest double to an integer; there is none past the largest one. -/
def ofInt (n : Int) : Option Double := (quotient n.natAbs 1).map (Double.finite (n < 0))

theorem roundHalfEven_near {a b : Nat} (positive : 0 < b) :
    2 * a ≤ 2 * roundHalfEven a b * b + b ∧ 2 * roundHalfEven a b * b ≤ 2 * a + b := by
  have upper := (lt_roundHalfEven_iff (a := a) (n := roundHalfEven a b) positive).not.mp (Nat.lt_irrefl _)
  have expand : (2 * roundHalfEven a b + 1) * b = 2 * roundHalfEven a b * b + b := by ring
  refine ⟨by omega, ?_⟩
  rcases Nat.eq_zero_or_pos (roundHalfEven a b) with zero | some_left
  · simp [zero]
  · have lower := (lt_roundHalfEven_iff positive).mp (Nat.sub_lt some_left Nat.one_pos)
    have shrink : (2 * (roundHalfEven a b - 1) + 1) * b + b = 2 * roundHalfEven a b * b := by
      rw [← Nat.succ_mul]
      congr 1
      omega
    omega

theorem roundHalfEven_one (a : Nat) : roundHalfEven a 1 = a := by
  unfold roundHalfEven
  simp [Nat.mod_one]

theorem coarse_bounds {n : Nat} (large : 2 ^ 53 ≤ n) :
    2 ^ (52 + coarseScale n 1) ≤ n ∧ n < 2 ^ (53 + coarseScale n 1) := by
  have some_left : n ≠ 0 := by
    rintro rfl
    exact absurd large (by decide)
  have bits : 53 ≤ n.log2 := (Nat.le_log2 some_left).mpr large
  have scale : 52 + coarseScale n 1 = n.log2 := by
    unfold coarseScale
    rw [Nat.div_one]
    omega
  rw [show 53 + coarseScale n 1 = n.log2 + 1 by omega, scale]
  exact ⟨Nat.log2_self_le some_left, Nat.lt_log2_self⟩

/-- An integer and its nearest double differ by at most half a unit in the last of 53 places. -/
theorem quotient_one_close {n : Nat} {v : Value} (value : quotient n 1 = some v) : |v.toRat - n| * 2 ^ 53 ≤ n := by
  unfold quotient at value
  rw [Nat.one_mul] at value
  split at value
  · generalize fineScale n 1 = s at value
    cases value
    have exact : (⟨roundHalfEven (n * 2 ^ s) 1, -(s : Int)⟩ : Value).toRat = n := by
      unfold Value.toRat
      rw [roundHalfEven_one, zpow_neg, zpow_natCast]
      push_cast
      field_simp
    rw [exact, sub_self, abs_zero, zero_mul]
    exact Nat.cast_nonneg n
  · rename_i large
    rw [Nat.one_mul] at value
    dsimp only at value
    split at value
    · cases value
      obtain ⟨least, -⟩ := coarse_bounds (Nat.le_of_not_lt large)
      obtain ⟨above, below⟩ := roundHalfEven_near (a := n) (Nat.two_pow_pos (coarseScale n 1))
      generalize coarseScale n 1 = t at *
      generalize roundHalfEven n (2 ^ t) = r at *
      have leastRat : (2 : Rat) ^ 52 * 2 ^ t ≤ n := by rw [← pow_add]; exact_mod_cast least
      have aboveRat : 2 * (n : Rat) ≤ 2 * r * 2 ^ t + 2 ^ t := by exact_mod_cast above
      have belowRat : 2 * (r : Rat) * 2 ^ t ≤ 2 * n + 2 ^ t := by exact_mod_cast below
      have half : |(r : Rat) * 2 ^ t - n| ≤ 2 ^ t / 2 := abs_le.mpr ⟨by linarith, by linarith⟩
      unfold Value.toRat
      rw [zpow_natCast]
      calc |(r : Rat) * 2 ^ t - n| * 2 ^ 53 ≤ 2 ^ t / 2 * 2 ^ 53 := mul_le_mul_of_nonneg_right half (by positivity)
        _ = 2 ^ 52 * 2 ^ t := by ring
        _ ≤ n := leastRat
    · cases value

theorem two_pow_split {a b c : Nat} (sum : a = b + c) : 2 ^ a = 2 ^ b * 2 ^ c := by
  rw [sum, Nat.pow_add]

/-- An integer has a nearest double when it is below the midpoint past the largest one. -/
theorem quotient_one_isSome {n : Nat} : (quotient n 1).isSome = true ↔ n + 2 ^ 970 < 2 ^ 1024 := by
  have top : 2 ^ 1024 = 2 ^ 54 * 2 ^ 970 := two_pow_split (by decide)
  have wide : 2 ^ 53 ≤ 2 ^ 970 := Nat.pow_le_pow_right Nat.two_pos (by decide)
  unfold quotient
  rw [Nat.one_mul, Nat.one_mul]
  split
  · rename_i small
    refine ⟨fun _ => ?_, fun _ => rfl⟩
    rw [top]
    generalize 2 ^ 970 = p at *
    omega
  rename_i large
  obtain ⟨least, most⟩ := coarse_bounds (Nat.le_of_not_lt large)
  obtain ⟨above, -⟩ := roundHalfEven_near (a := n) (Nat.two_pow_pos (coarseScale n 1))
  have full : roundHalfEven n (2 ^ coarseScale n 1) ≤ 2 ^ 53 :=
    roundHalfEven_le (Nat.two_pow_pos _) (Nat.pow_add 2 53 _ ▸ most.le)
  have midpoint := lt_roundHalfEven_iff (a := n) (n := 2 ^ 53 - 1) (Nat.two_pow_pos (coarseScale n 1))
  dsimp only
  have fits : (if roundHalfEven n (2 ^ coarseScale n 1) * 2 ^ coarseScale n 1 < 2 ^ 1024 then
      some (⟨roundHalfEven n (2 ^ coarseScale n 1), coarseScale n 1⟩ : Value) else none).isSome = true ↔
      roundHalfEven n (2 ^ coarseScale n 1) * 2 ^ coarseScale n 1 < 2 ^ 1024 := by
    split
    · rename_i below
      exact ⟨fun _ => below, fun _ => rfl⟩
    · rename_i past
      exact ⟨fun found => (Bool.false_ne_true found).elim, fun below => absurd below past⟩
  rw [fits]
  clear fits
  generalize coarseScale n 1 = t at *
  generalize roundHalfEven n (2 ^ t) = r at *
  rw [Nat.pow_add] at least most
  rcases Nat.lt_trichotomy t 971 with low | same | high
  · have bound : 2 ^ t ≤ 2 ^ 970 := Nat.pow_le_pow_right Nat.two_pos (by omega)
    have product : r * 2 ^ t ≤ 2 ^ 53 * 2 ^ 970 := Nat.mul_le_mul full bound
    rw [top]
    generalize 2 ^ 970 = p at *
    generalize 2 ^ t = u at *
    omega
  · have double : 2 ^ t = 2 ^ 1 * 2 ^ 970 := two_pow_split same
    rw [top]
    generalize 2 ^ 970 = p at *
    generalize 2 ^ t = u at *
    subst double
    have positive : 0 < p := by omega
    constructor
    · intro below
      have short : r < 2 ^ 53 := by
        by_contra reached
        have most : r = 2 ^ 53 := by omega
        rw [most] at below
        omega
      have before := mt midpoint.mpr (by omega)
      omega
    · intro below
      have short : ¬ 2 ^ 53 - 1 < r := by
        rw [midpoint]
        omega
      have product : r * (2 ^ 1 * p) ≤ (2 ^ 53 - 1) * (2 ^ 1 * p) := Nat.mul_le_mul_right _ (by omega)
      omega
  · have bound : 2 ^ 972 ≤ 2 ^ t := Nat.pow_le_pow_right Nat.two_pos (by omega)
    have quadruple : 2 ^ 972 = 2 ^ 2 * 2 ^ 970 := two_pow_split (by decide)
    have product : 2 ^ 52 * 2 ^ t ≤ r * 2 ^ t := by
      refine Nat.mul_le_mul_right _ ?_
      by_contra few
      have less : (2 * r + 1) * 2 ^ t ≤ (2 ^ 53 - 1) * 2 ^ t := Nat.mul_le_mul_right _ (by omega)
      have expand : (2 * r + 1) * 2 ^ t = 2 * r * 2 ^ t + 2 ^ t := by ring
      have positive := Nat.two_pow_pos t
      omega
    rw [top]
    generalize 2 ^ 970 = p at *
    generalize 2 ^ t = u at *
    omega

end Binary64
