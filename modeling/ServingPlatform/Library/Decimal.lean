import Mathlib.Algebra.Order.Archimedean.Basic
import Mathlib.Data.Int.Log
import Mathlib.Data.List.DropRight
import Mathlib.Data.Rat.Floor
import Mathlib.Tactic.FieldSimp
import Mathlib.Tactic.Positivity
import ServingPlatform.Library.Binary64

/-- A decimal number: `significand * 10 ^ exponent`. -/
structure Decimal where
  significand : Nat
  exponent : Int
  deriving DecidableEq, Repr

namespace Decimal

def value (d : Decimal) : Rat := d.significand * (10 : Rat) ^ d.exponent

/-- A positive number rounded to a number of significant digits, ties to the even neighbour. -/
def roundTo (precision : Nat) (x : Rat) : Decimal :=
  let exponent := Int.log 10 x + 1 - precision
  let scaled := x / (10 : Rat) ^ exponent
  ⟨Binary64.roundHalfEven scaled.num.toNat scaled.den, exponent⟩

/-- The number has no more than so many digits before its zeros. -/
def Fits (precision n : Nat) : Prop := ∃ digits zeros, digits < 10 ^ precision ∧ n = digits * 10 ^ zeros

/-- The digits around a point that is left out when nothing follows it, and then the rest. -/
def assemble (whole fraction rest : List Char) : List Char :=
  whole ++ (if fraction = [] then [] else '.' :: fraction) ++ rest

/-- An exponent with its sign and at least two digits. -/
def exponentText (exponent : Int) : List Char :=
  'e' :: (if exponent < 0 then '-' else '+') ::
    (if exponent.natAbs < 10 then '0' :: Nat.toDigits 10 exponent.natAbs else Nat.toDigits 10 exponent.natAbs)

/-- The shortest text without zeros at its end: in fixed notation when the first digit's
exponent is between -4 and the bound, else in scientific notation. -/
def layout (bound : Int) (d : Decimal) : List Char :=
  let digits := Nat.toDigits 10 d.significand
  let first := d.exponent + digits.length - 1
  let short := digits.rdropWhile (· = '0')
  if -4 ≤ first ∧ first < bound then
    if first < 0 then assemble ['0'] (List.replicate (-first - 1).toNat '0' ++ short) []
    else
      let point := (first + 1).toNat
      assemble (short.take point ++ List.replicate (point - short.length) '0') (short.drop point) []
  else assemble (short.take 1) (short.drop 1) (exponentText first)

/-- The format `g` of a number that is not negative. -/
def general (x : Rat) : List Char :=
  if x = 0 then ['0'] else layout 6 (roundTo 6 x)

/-- The format `g` of a double. -/
def generalText : Binary64.Double → List Char
  | .finite negative magnitude => if negative then '-' :: general magnitude.toRat else general magnitude.toRat
  | .infinite negative => if negative then "-inf".toList else "inf".toList
  | .nan => "nan".toList

/-- What may follow the digits of a number. -/
def readExponent : List Char → Option Int
  | [] => some 0
  | 'e' :: '-' :: digits =>
    if digits ≠ [] ∧ digits.all Char.isDigit then some (-Nat.ofDigitChars 10 digits 0) else none
  | 'e' :: '+' :: digits =>
    if digits ≠ [] ∧ digits.all Char.isDigit then some (Nat.ofDigitChars 10 digits 0) else none
  | _ => none

/-- The digits after a point, and what follows them. -/
def splitFraction : List Char → List Char × List Char
  | '.' :: rest => (rest.takeWhile Char.isDigit, rest.dropWhile Char.isDigit)
  | rest => ([], rest)

/-- The number that a text without a sign stands for. -/
def readUnsigned (text : List Char) : Option Rat :=
  let whole := text.takeWhile Char.isDigit
  let split := splitFraction (text.dropWhile Char.isDigit)
  if whole = [] then none
  else (readExponent split.2).map fun exponent : Int =>
    (Nat.ofDigitChars 10 (whole ++ split.1) 0 : Rat) * (10 : Rat) ^ (exponent - (split.1.length : Int))

/-- The number that a text stands for. -/
def read : List Char → Option Rat
  | '-' :: text => (readUnsigned text).map fun x => -x
  | text => readUnsigned text

example : general 1234567 = "1.23457e+06".toList ∧ general (1 / 8) = "0.125".toList := by decide +kernel

example : read "1.23457e+06".toList = some 1234570 := by decide +kernel

variable {bound : Int} {precision n : Nat} {x : Rat} {d : Decimal} {whole fraction rest digits : List Char}

theorem takeWhile_digits (all : ∀ c ∈ digits, c.isDigit = true) (stop : ∀ c ∈ rest.head?, c.isDigit = false) :
    (digits ++ rest).takeWhile Char.isDigit = digits ∧ (digits ++ rest).dropWhile Char.isDigit = rest := by
  rw [List.takeWhile_append_of_pos all, List.dropWhile_append_of_pos all]
  cases rest with
  | nil => simp
  | cons c rest =>
    have other := stop c (by simp)
    simp [other]

theorem splitFraction_of_ne (stop : ∀ c ∈ rest.head?, c ≠ '.') : splitFraction rest = ([], rest) := by
  unfold splitFraction
  split
  · exact absurd rfl (stop '.' (by simp))
  · rfl

/-- A text is read as its digits, moved by its exponent. -/
theorem readUnsigned_assemble {exponent : Int} (digits : ∀ c ∈ whole ++ fraction, c.isDigit = true) (some_digit : whole ≠ [])
    (follows : readExponent rest = some exponent) (stop : ∀ c ∈ rest.head?, c.isDigit = false ∧ c ≠ '.') :
    readUnsigned (assemble whole fraction rest) =
      some ((Nat.ofDigitChars 10 (whole ++ fraction) 0 : Rat) * (10 : Rat) ^ (exponent - (fraction.length : Int))) := by
  have wholeDigits : ∀ c ∈ whole, c.isDigit = true := fun c inside => digits c (List.mem_append_left _ inside)
  have fractionDigits : ∀ c ∈ fraction, c.isDigit = true := fun c inside => digits c (List.mem_append_right _ inside)
  have rests := takeWhile_digits fractionDigits fun c first => (stop c first).1
  unfold readUnsigned assemble
  split
  · rename_i empty
    subst empty
    have parts := takeWhile_digits wholeDigits fun c first => (stop c first).1
    have split := splitFraction_of_ne fun c first => (stop c first).2
    simp only [List.append_nil, parts.1, parts.2, split, some_digit, if_false, follows, Option.map_some]
  · have parts := @takeWhile_digits ('.' :: (fraction ++ rest)) whole wholeDigits (by simp)
    simp only [List.append_assoc, List.cons_append, parts.1, parts.2, splitFraction, rests.1, rests.2, some_digit, if_false,
      follows, Option.map_some]

/-- The characters of a number. -/
def Printed (c : Char) : Prop := c.isDigit = true ∨ c ∈ ['.', 'e', '+', '-', 'i', 'n', 'f', 'a']

theorem Printed.assemble (point : ∀ c ∈ whole ++ fraction, c.isDigit = true) (rests : ∀ c ∈ rest, Printed c) :
    ∀ c ∈ assemble whole fraction rest, Printed c := by
  intro c inside
  rcases List.mem_append.mp inside with inside | inside
  · rcases List.mem_append.mp inside with inside | inside
    · exact Or.inl (point c (List.mem_append_left _ inside))
    · split at inside
      · cases inside
      · rcases List.mem_cons.mp inside with rfl | inside
        · exact Or.inr (by decide)
        · exact Or.inl (point c (List.mem_append_right _ inside))
  · exact rests c inside

/-- The text is one of a number, and it stands for it. -/
def Shows (text : List Char) (x : Rat) : Prop := readUnsigned text = some x ∧ ∀ c ∈ text, Printed c

theorem Shows.assemble {exponent place : Int} {number : Nat} (zeros : Nat) (digits : ∀ c ∈ whole ++ fraction, c.isDigit = true)
    (some_digit : whole ≠ []) (follows : readExponent rest = some exponent)
    (stop : ∀ c ∈ rest.head?, c.isDigit = false ∧ c ≠ '.') (rests : ∀ c ∈ rest, Printed c)
    (counted : Nat.ofDigitChars 10 (whole ++ fraction) 0 = number * 10 ^ zeros)
    (placed : exponent - (fraction.length : Int) + zeros = place) :
    Shows (assemble whole fraction rest) ((number : Rat) * (10 : Rat) ^ place) := by
  refine ⟨?_, Printed.assemble digits rests⟩
  rw [readUnsigned_assemble digits some_digit follows stop, counted, ← placed, zpow_add₀ (by norm_num)]
  push_cast
  rw [zpow_natCast]
  congr 1
  ring

theorem toDigits_isDigit (n : Nat) : ∀ c ∈ Nat.toDigits 10 n, c.isDigit = true :=
  fun _ inside => Nat.isDigit_of_mem_toDigits (by decide) (by decide) inside

theorem readExponent_exponentText (exponent : Int) : readExponent (exponentText exponent) = some exponent := by
  have padded : ∀ digits, digits = (if exponent.natAbs < 10 then '0' :: Nat.toDigits 10 exponent.natAbs
      else Nat.toDigits 10 exponent.natAbs) → (digits ≠ [] ∧ digits.all Char.isDigit = true) ∧
        Nat.ofDigitChars 10 digits 0 = exponent.natAbs := by
    rintro digits rfl
    have all := toDigits_isDigit exponent.natAbs
    split
    · refine ⟨⟨by simp, ?_⟩, ?_⟩
      · rw [List.all_cons, List.all_eq_true.mpr all]
        rfl
      · rw [Nat.ofDigitChars_cons]
        exact Nat.ofDigitChars_ten_toDigits
    · exact ⟨⟨Nat.toDigits_ne_nil, List.all_eq_true.mpr all⟩, Nat.ofDigitChars_ten_toDigits⟩
  unfold exponentText
  generalize (if exponent.natAbs < 10 then _ else _) = digits at padded ⊢
  obtain ⟨shape, number⟩ := padded digits rfl
  split
  · simp only [readExponent, shape, and_self, ne_eq, not_false_eq_true, if_true, number]
    congr 1
    omega
  · simp only [readExponent, shape, and_self, ne_eq, not_false_eq_true, if_true, number]
    congr 1
    omega

/-- The digits of a number are the digits that count, and then zeros. -/
theorem short_digits (n : Nat) : ∃ zeros,
    Nat.toDigits 10 n = (Nat.toDigits 10 n).rdropWhile (· = '0') ++ List.replicate zeros '0' := by
  refine ⟨((Nat.toDigits 10 n).rtakeWhile (· = '0')).length, ?_⟩
  have zeros : (Nat.toDigits 10 n).rtakeWhile (· = '0') =
      List.replicate ((Nat.toDigits 10 n).rtakeWhile (· = '0')).length '0' :=
    List.eq_replicate_of_mem fun c inside => of_decide_eq_true (List.mem_rtakeWhile_imp (p := (· = '0')) inside)
  rw [← zeros, List.rdropWhile_append_rtakeWhile]

theorem printed_exponentText (exponent : Int) : ∀ c ∈ exponentText exponent, Printed c := by
  intro c inside
  have all := toDigits_isDigit exponent.natAbs
  rcases List.mem_cons.mp inside with rfl | inside
  · exact Or.inr (by decide)
  rcases List.mem_cons.mp inside with rfl | inside
  · split <;> exact Or.inr (by decide)
  split at inside
  · rcases List.mem_cons.mp inside with rfl | inside
    · exact Or.inl rfl
    · exact Or.inl (all c inside)
  · exact Or.inl (all c inside)

/-- The number that a layout stands for is the decimal. -/
theorem shows_layout (positive : 0 < d.significand) : Shows (layout bound d) d.value := by
  obtain ⟨zeros, parts⟩ := short_digits d.significand
  have all := toDigits_isDigit d.significand
  have number : Nat.ofDigitChars 10 (Nat.toDigits 10 d.significand) 0 = d.significand := Nat.ofDigitChars_ten_toDigits
  unfold layout
  dsimp only
  generalize (Nat.toDigits 10 d.significand).rdropWhile (· = '0') = short at parts ⊢
  rw [parts] at all number ⊢
  rw [Nat.ofDigitChars_append, Nat.ofDigitChars_replicate_zero] at number
  have shortDigits : ∀ c ∈ short, c.isDigit = true := fun c inside => all c (List.mem_append_left _ inside)
  have some_short : short ≠ [] := by
    rintro rfl
    simp at number
    omega
  have value : d.value = (Nat.ofDigitChars 10 short 0 : Rat) * (10 : Rat) ^ (d.exponent + zeros) := by
    unfold Decimal.value
    rw [← number, zpow_add₀ (by norm_num)]
    push_cast
    rw [zpow_natCast]
    ring
  have length : ((short ++ List.replicate zeros '0').length : Int) = short.length + zeros := by simp
  have some_digit : 0 < short.length := List.length_pos_of_ne_nil some_short
  rw [length, value]
  generalize first_eq : d.exponent + (short.length + zeros : Int) - 1 = first
  split
  · split
    · refine Shows.assemble 0 ?_ (by simp) rfl (by simp) (by simp) (by simp [Nat.ofDigitChars_cons, Nat.ofDigitChars_append]) ?_
      · intro c inside
        rcases List.mem_append.mp inside with zero | inside
        · rw [List.mem_singleton.mp zero]
          rfl
        rcases List.mem_append.mp inside with zero | inside
        · rw [List.eq_of_mem_replicate zero]
          rfl
        · exact shortDigits c inside
      · rw [List.length_append, List.length_replicate]
        push_cast
        omega
    · refine Shows.assemble ((first + 1).toNat - short.length) ?_ ?_ rfl (by simp) (by simp) ?_ ?_
      · intro c inside
        rcases List.mem_append.mp inside with inside | inside
        · rcases List.mem_append.mp inside with inside | zero
          · exact shortDigits c (List.mem_of_mem_take inside)
          · rw [List.eq_of_mem_replicate zero]
            rfl
        · exact shortDigits c (List.mem_of_mem_drop inside)
      · have some_taken : 0 < (short.take (first + 1).toNat).length := by
          rw [List.length_take]
          omega
        simp [List.ne_nil_of_length_pos some_taken]
      · rcases Nat.le_total short.length (first + 1).toNat with few | many
        · rw [List.take_of_length_le few, List.drop_of_length_le few, List.append_nil, Nat.ofDigitChars_append,
            Nat.ofDigitChars_replicate_zero, Nat.mul_comm]
        · rw [Nat.sub_eq_zero_of_le many, List.replicate_zero, List.append_nil, List.take_append_drop, Nat.pow_zero, Nat.mul_one]
      · rw [List.length_drop]
        omega
  · refine Shows.assemble 0 ?_ ?_ (readExponent_exponentText first) (by simp [exponentText]) (printed_exponentText first) ?_ ?_
    · rw [List.take_append_drop]
      exact shortDigits
    · have some_taken : 0 < (short.take 1).length := by
        rw [List.length_take]
        omega
      exact List.ne_nil_of_length_pos some_taken
    · rw [List.take_append_drop, Nat.pow_zero, Nat.mul_one]
    · rw [List.length_drop]
      omega

section Rounding

/-- The unit of the last digit against the number that is rounded. -/
theorem unit_bounds (precision : Nat) (positive : 0 < x) : 0 < (10 : Rat) ^ (roundTo precision x).exponent ∧
    x < (10 : Rat) ^ precision * (10 : Rat) ^ (roundTo precision x).exponent ∧
    (10 : Rat) ^ precision * (10 : Rat) ^ (roundTo precision x).exponent ≤ 10 * x := by
  have low := Int.zpow_log_le_self (b := 10) (by decide) positive
  have high := Int.lt_zpow_succ_log_self (b := 10) (by decide) x
  have place : (10 : Rat) ^ precision * (10 : Rat) ^ (roundTo precision x).exponent = (10 : Rat) ^ (Int.log 10 x + 1) := by
    rw [← zpow_natCast, ← zpow_add₀ (by norm_num)]
    congr 1
    simp only [roundTo]
    omega
  push_cast at low high
  rw [place]
  refine ⟨zpow_pos (by norm_num) _, high, ?_⟩
  rw [zpow_add_one₀ (by norm_num)]
  linarith

theorem roundTo_significand : (roundTo precision x).significand = Binary64.roundHalfEven
    (x / (10 : Rat) ^ (roundTo precision x).exponent).num.toNat (x / (10 : Rat) ^ (roundTo precision x).exponent).den := rfl

theorem scaled_eq (precision : Nat) (positive : 0 < x) : ((x / (10 : Rat) ^ (roundTo precision x).exponent).num.toNat : Rat) =
    x / (10 : Rat) ^ (roundTo precision x).exponent * (x / (10 : Rat) ^ (roundTo precision x).exponent).den := by
  generalize scaled_def : x / (10 : Rat) ^ (roundTo precision x).exponent = scaled
  have nonneg : 0 ≤ scaled.num := by
    rw [← scaled_def]
    exact Rat.num_nonneg.mpr (div_nonneg positive.le (zpow_nonneg (by norm_num) _))
  have cast : (scaled.num.toNat : Rat) = scaled.num := by exact_mod_cast Int.toNat_of_nonneg nonneg
  rw [cast, Rat.mul_den_eq_num]

/-- A number close to one that fits is rounded to it. -/
theorem roundTo_value (fits : Fits precision n) (close : |x - n| * (4 * 10 ^ precision) < n) :
    (roundTo precision x).value = n := by
  obtain ⟨digits, zeros, few, number⟩ := fits
  have large : (1 : Rat) ≤ 10 ^ precision := one_le_pow₀ (by norm_num)
  have few' : (digits : Rat) + 1 ≤ 10 ^ precision := by exact_mod_cast few
  have distance := abs_nonneg (x - n)
  have below := neg_abs_le (x - n)
  have above := le_abs_self (x - n)
  have quarter : |x - n| * 4 < n := by nlinarith
  have positive : 0 < x := by linarith
  obtain ⟨unit, high, low⟩ := unit_bounds precision positive
  have scaled := scaled_eq precision positive
  have denominator : (0 : Rat) < (x / (10 : Rat) ^ (roundTo precision x).exponent).den := by exact_mod_cast Rat.den_pos _
  unfold Decimal.value
  rw [roundTo_significand]
  generalize (roundTo precision x).exponent = e at *
  generalize (x / (10 : Rat) ^ e).num.toNat = a at *
  generalize (x / (10 : Rat) ^ e).den = b at *
  have tens : (0 : Rat) < 10 ^ zeros := pow_pos (by norm_num) _
  have cast : (n : Rat) = digits * 10 ^ zeros := by exact_mod_cast number
  -- A unit above the number's own would make the rounded number at least one such unit too large.
  have placed : e ≤ zeros := by
    by_contra coarse
    have coarser : 10 * (10 : Rat) ^ zeros ≤ (10 : Rat) ^ e := by
      rw [← zpow_natCast, ← zpow_one_add₀ (by norm_num)]
      exact zpow_le_zpow_right₀ (by norm_num) (by omega)
    have past : (10 : Rat) ^ precision * 10 ^ zeros ≤ x := by nlinarith
    have apart : (10 : Rat) ^ zeros ≤ x - n := by rw [cast]; nlinarith
    nlinarith
  have aligned : ((digits * 10 ^ ((zeros : Int) - e).toNat : Nat) : Rat) * (10 : Rat) ^ e = n := by
    rw [cast]
    push_cast
    rw [mul_assoc, ← zpow_natCast, ← zpow_natCast, ← zpow_add₀ (by norm_num)]
    congr 2
    omega
  generalize digits * 10 ^ ((zeros : Int) - e).toNat = whole at aligned
  have half : |x - n| * 2 < (10 : Rat) ^ e := by nlinarith
  have ratio : x / (10 : Rat) ^ e * (10 : Rat) ^ e = x := div_mul_cancel₀ _ unit.ne'
  generalize x / (10 : Rat) ^ e = q at *
  generalize (10 : Rat) ^ e = u at *
  have lower : (whole : Rat) < q + 1 / 2 := by nlinarith
  have upper : q < (whole : Rat) + 1 / 2 := by nlinarith
  have same : Binary64.roundHalfEven a b = whole := by
    refine Binary64.roundHalfEven_eq ?_ ?_
    · have casted : 2 * (whole : Rat) * b < 2 * a + b := by rw [scaled]; nlinarith
      exact_mod_cast casted
    · have casted : 2 * (a : Rat) < 2 * whole * b + b := by rw [scaled]; nlinarith
      exact_mod_cast casted
  rw [same, aligned]

/-- A rounded number has no more digits than it was rounded to. -/
theorem fits_of_roundTo (some_digit : 0 < precision) (positive : 0 < x) (exact : (roundTo precision x).value = n) :
    Fits precision n := by
  obtain ⟨unit, high, -⟩ := unit_bounds precision positive
  have scaled := scaled_eq precision positive
  have denominator : 0 < (x / (10 : Rat) ^ (roundTo precision x).exponent).den := Rat.den_pos _
  have most : (roundTo precision x).significand ≤ 10 ^ precision := by
    refine Binary64.roundHalfEven_le denominator ?_
    have ratio : x / (10 : Rat) ^ (roundTo precision x).exponent ≤ 10 ^ precision := (div_le_iff₀ unit).mpr high.le
    have casted : ((x / (10 : Rat) ^ (roundTo precision x).exponent).num.toNat : Rat) ≤
        10 ^ precision * (x / (10 : Rat) ^ (roundTo precision x).exponent).den := by
      rw [scaled]
      exact mul_le_mul_of_nonneg_right ratio (Nat.cast_nonneg _)
    exact_mod_cast casted
  have power : 1 < 10 ^ precision := Nat.one_lt_pow some_digit.ne' (by decide)
  unfold Decimal.value at exact
  rcases lt_or_ge (roundTo precision x).exponent 0 with fractional | whole
  rotate_left
  · obtain ⟨zeros, place⟩ := Int.eq_ofNat_of_zero_le whole
    rw [place, zpow_natCast] at exact
    have number : n = (roundTo precision x).significand * 10 ^ zeros := by exact_mod_cast exact.symm
    rcases Nat.lt_or_eq_of_le most with few | carried
    · exact ⟨_, zeros, few, number⟩
    · refine ⟨1, precision + zeros, power, ?_⟩
      rw [number, carried, Nat.one_mul, Nat.pow_add]
  · obtain ⟨places, place⟩ := Int.eq_ofNat_of_zero_le (show 0 ≤ -(roundTo precision x).exponent by omega)
    have whole : (roundTo precision x).significand = n * 10 ^ places := by
      have inverse : (roundTo precision x).exponent = -(places : Int) := by omega
      rw [inverse, zpow_neg, zpow_natCast, ← div_eq_mul_inv, div_eq_iff (by positivity)] at exact
      exact_mod_cast exact
    have tenth : 10 ≤ 10 ^ places := Nat.le_self_pow (by omega) 10
    have few : n * 10 ≤ 10 ^ precision := le_trans (Nat.mul_le_mul_left n tenth) (whole ▸ most)
    exact ⟨n, 0, by omega, by omega⟩

theorem significand_pos (some_digit : 0 < precision) (positive : 0 < x) : 0 < (roundTo precision x).significand := by
  obtain ⟨unit, -, low⟩ := unit_bounds precision positive
  have scaled := scaled_eq precision positive
  have denominator : 0 < (x / (10 : Rat) ^ (roundTo precision x).exponent).den := Rat.den_pos _
  have tens : (10 : Rat) ≤ 10 ^ precision := by exact_mod_cast Nat.le_self_pow some_digit.ne' 10
  have ratio : 1 ≤ x / (10 : Rat) ^ (roundTo precision x).exponent := (one_le_div unit).mpr (by nlinarith)
  have most : (x / (10 : Rat) ^ (roundTo precision x).exponent).den ≤
      (x / (10 : Rat) ^ (roundTo precision x).exponent).num.toNat := by
    have casted : ((x / (10 : Rat) ^ (roundTo precision x).exponent).den : Rat) ≤
        (x / (10 : Rat) ^ (roundTo precision x).exponent).num.toNat := by
      rw [scaled]
      exact le_mul_of_one_le_left (Nat.cast_nonneg _) ratio
    exact_mod_cast casted
  rw [roundTo_significand, Binary64.lt_roundHalfEven_iff denominator]
  omega

end Rounding

theorem shows_general (positive : 0 < x) : Shows (general x) (roundTo 6 x).value := by
  unfold general
  rw [if_neg positive.ne']
  exact shows_layout (significand_pos (by decide) positive)

/-- A text that is read without a sign has none. -/
theorem read_of_readUnsigned {text : List Char} (number : readUnsigned text = some x) : read text = some x := by
  unfold read
  split
  · cases number
  · exact number

/-- The text of an integer's nearest double stands for the integer when that has at
most six digits before its zeros. -/
theorem read_generalText_iff {n : Int} {double : Binary64.Double} (nearest : Binary64.ofInt n = some double) :
    read (generalText double) = some (n : Rat) ↔ Fits 6 n.natAbs := by
  obtain ⟨v, quotient, rfl⟩ := Option.map_eq_some_iff.mp nearest
  have close := Binary64.quotient_one_close quotient
  have distance := abs_nonneg (v.toRat - n.natAbs)
  have below := neg_abs_le (v.toRat - n.natAbs)
  rcases Nat.eq_zero_or_pos n.natAbs with zero | some_left
  · have integer : n = 0 := Int.natAbs_eq_zero.mp zero
    have vanishes : v.toRat = 0 := by
      rw [zero, Nat.cast_zero, sub_zero] at close
      exact abs_nonpos_iff.mp (by nlinarith)
    subst integer
    refine ⟨fun _ => ⟨0, 0, by decide, rfl⟩, fun _ => ?_⟩
    simp only [generalText, general, vanishes, lt_irrefl, decide_false, Bool.false_eq_true, if_false, if_true, Int.cast_zero]
    decide +kernel
  have large : (0 : Rat) < n.natAbs := by exact_mod_cast some_left
  have positive : 0 < v.toRat := by nlinarith
  have exact : (roundTo 6 v.toRat).value = n.natAbs ↔ Fits 6 n.natAbs :=
    ⟨fits_of_roundTo (by decide) positive, fun fits => roundTo_value fits (by nlinarith)⟩
  rw [← exact]
  have number := (shows_general positive).1
  simp only [generalText, decide_eq_true_eq]
  split
  · rename_i negative
    have sign : (n : Rat) = -(n.natAbs : Rat) := by
      rw [← Int.cast_natCast, ← Int.cast_neg]
      congr 1
      omega
    rw [read, number, sign]
    simp
  · rename_i nonneg
    have sign : (n : Rat) = (n.natAbs : Rat) := by
      rw [← Int.cast_natCast]
      congr 1
      omega
    rw [read_of_readUnsigned number, sign]
    simp

/-- No text of a double stands for an integer with more digits. -/
theorem fits_of_generalText {n : Int} {double : Binary64.Double} (number : read (generalText double) = some (n : Rat)) :
    Fits 6 n.natAbs := by
  cases double with
  | infinite negative => cases negative <;> cases number
  | nan => cases number
  | finite negative magnitude =>
    have nonneg : 0 ≤ magnitude.toRat := mul_nonneg (Nat.cast_nonneg _) (zpow_nonneg (by norm_num) _)
    rcases nonneg.eq_or_lt with zero | positive
    · have integer : (n : Rat) = 0 := by
        have signed : read (if negative then ['-', '0'] else ['0']) = some (n : Rat) := by
          simpa only [generalText, general, ← zero, if_true] using number
        have read_zero : ∀ negative, read (if negative = true then ['-', '0'] else ['0']) = some 0 := by decide +kernel
        exact (Option.some.inj ((read_zero negative).symm.trans signed)).symm
      rw [Int.cast_eq_zero.mp integer]
      exact ⟨0, 0, by decide, rfl⟩
    · have unsigned := (shows_general positive).1
      refine fits_of_roundTo (x := magnitude.toRat) (by decide) positive ?_
      have rounded : 0 ≤ (roundTo 6 magnitude.toRat).value := mul_nonneg (Nat.cast_nonneg _) (zpow_nonneg (by norm_num) _)
      rw [Nat.cast_natAbs, Int.cast_abs]
      cases negative with
      | true =>
        simp only [generalText, if_true, read, unsigned, Option.map_some] at number
        rw [← Option.some.inj number, abs_neg, abs_of_nonneg rounded]
      | false =>
        simp only [generalText, Bool.false_eq_true, if_false, read_of_readUnsigned unsigned] at number
        rw [← Option.some.inj number, abs_of_nonneg rounded]

theorem printed_generalText (double : Binary64.Double) : ∀ c ∈ generalText double, Printed c := by
  have words : ∀ word ∈ ["-inf".toList, "inf".toList, "nan".toList, ['0']], ∀ c ∈ word, Printed c := by
    simp [Printed]
  cases double with
  | nan => exact words _ (by simp [generalText])
  | infinite negative => cases negative <;> exact words _ (by simp [generalText])
  | finite negative magnitude =>
    have nonneg : 0 ≤ magnitude.toRat := mul_nonneg (Nat.cast_nonneg _) (zpow_nonneg (by norm_num) _)
    have unsigned : ∀ c ∈ general magnitude.toRat, Printed c := by
      rcases nonneg.eq_or_lt with zero | positive
      · rw [general, if_pos zero.symm]
        exact words _ (by simp)
      · exact (shows_general positive).2
    intro c inside
    dsimp only [generalText] at inside
    split at inside
    · rcases List.mem_cons.mp inside with rfl | inside
      · exact Or.inr (by decide)
      · exact unsigned c inside
    · exact unsigned c inside

end Decimal
