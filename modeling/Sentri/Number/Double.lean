import Mathlib.Data.Int.Log
import Mathlib.Data.Rat.Floor
import Mathlib.Tactic.Linarith
import Mathlib.Tactic.NormNum

/-!
# Double-precision rounding

A finite `double` is the rational number it stands for.  Arithmetic on doubles
is the exact operation followed by rounding to the nearest double, ties to the
even mantissa; overflow to infinity is not modelled.
-/

namespace Sentri.Number

/-- Round to the nearest integer, ties to the even one. -/
def roundHalfEven (x : Rat) : Int :=
  let rest := x - ⌊x⌋
  if rest < 1 / 2 then ⌊x⌋
  else if 1 / 2 < rest then ⌊x⌋ + 1
  else if ⌊x⌋ % 2 = 0 then ⌊x⌋
  else ⌊x⌋ + 1

/-- The exponent of the last mantissa bit of the double nearest to `x`. -/
def ulpExponent (x : Rat) : Int :=
  max (Int.log 2 |x|) (-1022) - 52

/-- Round to the nearest double. -/
def roundToDouble (x : Rat) : Rat :=
  roundHalfEven (x / (2 : Rat) ^ ulpExponent x) * (2 : Rat) ^ ulpExponent x

/-- Round to as many bits as a double has, as if there were no least exponent. -/
def roundToPrecision (x : Rat) : Rat :=
  roundHalfEven (x / (2 : Rat) ^ (Int.log 2 |x| - 52)) * (2 : Rat) ^ (Int.log 2 |x| - 52)

/-- `std::lround`: the nearest integer, ties away from zero. -/
def lround (x : Rat) : Int :=
  if 0 ≤ x then ⌊x + 1 / 2⌋ else -⌊-x + 1 / 2⌋

/-- A number as a `long` of 64 bits.  One that is out of range gives the least `long`, as the
processor converts it. -/
def toLong (n : Int) : Int :=
  if -9223372036854775808 ≤ n ∧ n < 9223372036854775808 then n else -9223372036854775808

theorem roundHalfEven_nonpos {x : Rat} (nonpos : x ≤ 0) : roundHalfEven x ≤ 0 := by
  have floorLe : (⌊x⌋ : Rat) ≤ x := Int.floor_le x
  have floorNonpos : ⌊x⌋ ≤ 0 := by exact_mod_cast floorLe.trans nonpos
  unfold roundHalfEven
  dsimp only
  by_cases small : x - ⌊x⌋ < 1 / 2
  · rw [if_pos small]
    exact floorNonpos
  · have below : ⌊x⌋ ≠ 0 := by
      intro zero
      rw [zero] at small
      push_cast at small
      linarith
    have step : ⌊x⌋ + 1 ≤ 0 := by omega
    rw [if_neg small]
    split_ifs <;> assumption

theorem roundHalfEven_nonneg {x : Rat} (nonneg : 0 ≤ x) : 0 ≤ roundHalfEven x := by
  have floorNonneg : 0 ≤ ⌊x⌋ := Int.floor_nonneg.mpr nonneg
  unfold roundHalfEven
  dsimp only
  split_ifs <;> omega

theorem roundToDouble_nonneg {x : Rat} (nonneg : 0 ≤ x) : 0 ≤ roundToDouble x := by
  have positive : (0 : Rat) < 2 ^ ulpExponent x := zpow_pos (by norm_num) _
  apply mul_nonneg _ positive.le
  exact_mod_cast roundHalfEven_nonneg (div_nonneg nonneg positive.le)

theorem roundToDouble_nonpos {x : Rat} (nonpos : x ≤ 0) : roundToDouble x ≤ 0 := by
  have positive : (0 : Rat) < 2 ^ ulpExponent x := zpow_pos (by norm_num) _
  apply mul_nonpos_of_nonpos_of_nonneg _ positive.le
  exact_mod_cast roundHalfEven_nonpos (div_nonpos_of_nonpos_of_nonneg nonpos positive.le)

theorem toLong_nonpos {n : Int} (nonpos : n ≤ 0) : toLong n ≤ 0 := by
  unfold toLong
  split
  · exact nonpos
  · decide

/-- A number that is not negative stays so, or it is out of range. -/
theorem toLong_nonneg {n : Int} (nonneg : 0 ≤ n) :
    0 ≤ toLong n ∨ toLong n = -9223372036854775808 := by
  unfold toLong
  split
  · exact Or.inl nonneg
  · exact Or.inr rfl

/-! ## The error of rounding -/

theorem abs_roundHalfEven_sub_le (x : Rat) : |roundHalfEven x - x| ≤ 1 / 2 := by
  have below : (⌊x⌋ : Rat) ≤ x := Int.floor_le x
  have above : x < ⌊x⌋ + 1 := Int.lt_floor_add_one x
  unfold roundHalfEven
  dsimp only
  rw [abs_le]
  split_ifs <;> push_cast <;> constructor <;> linarith

/-- Rounding keeps the magnitude of a number. -/
theorem zpow_log_le_abs_roundToPrecision {x : Rat} (nonzero : x ≠ 0) :
    (2 : Rat) ^ Int.log 2 |x| ≤ |roundToPrecision x| := by
  let unit : Rat := (2 : Rat) ^ (Int.log 2 |x| - 52)
  have unitPos : 0 < unit := zpow_pos (by norm_num) _
  have power : (2 : Rat) ^ Int.log 2 |x| = 2 ^ 52 * unit := by
    have scale : (2 : Rat) ^ (52 : Int) = 2 ^ 52 := by norm_num
    rw [← scale, ← zpow_add₀ (by norm_num), add_sub_cancel]
  have self : (2 : Rat) ^ Int.log 2 |x| ≤ |x| := by
    exact_mod_cast Int.zpow_log_le_self (b := 2) (by norm_num) (abs_pos.mpr nonzero)
  have mantissa : 2 ^ 52 ≤ |x / unit| := by
    rw [abs_div, abs_of_pos unitPos, le_div_iff₀ unitPos, ← power]
    exact self
  have rounded : (2 : Rat) ^ 52 ≤ |(roundHalfEven (x / unit) : Rat)| := by
    have error := abs_roundHalfEven_sub_le (x / unit)
    rw [abs_sub_comm] at error
    have kept := abs_sub_abs_le_abs_sub (x / unit) (roundHalfEven (x / unit))
    have above : ((2 ^ 52 : Int) : Rat) < (|roundHalfEven (x / unit)| : Int) + 1 := by
      push_cast
      linarith
    have whole : (2 : Int) ^ 52 ≤ |roundHalfEven (x / unit)| :=
      Int.lt_add_one_iff.mp (by exact_mod_cast above)
    exact_mod_cast whole
  calc (2 : Rat) ^ Int.log 2 |x|
      = 2 ^ 52 * unit := power
    _ ≤ |(roundHalfEven (x / unit) : Rat)| * unit :=
        mul_le_mul_of_nonneg_right rounded unitPos.le
    _ = |roundToPrecision x| := by
        rw [roundToPrecision, abs_mul, abs_of_pos unitPos]

/-- A normal number is not rounded to a tiny one. -/
theorem normal_roundToPrecision {x : Rat} (normal : (2 : Rat) ^ (-1022 : Int) ≤ |x|) :
    (2 : Rat) ^ (-1022 : Int) ≤ |roundToPrecision x| := by
  have positive : 0 < |x| := lt_of_lt_of_le (zpow_pos (by norm_num) _) normal
  have above : (-1022 : Int) ≤ Int.log 2 |x| :=
    (Int.zpow_le_iff_le_log (by norm_num) positive).mp (by exact_mod_cast normal)
  calc (2 : Rat) ^ (-1022 : Int)
      ≤ (2 : Rat) ^ Int.log 2 |x| := zpow_le_zpow_right₀ (by norm_num) above
    _ ≤ |roundToPrecision x| := zpow_log_le_abs_roundToPrecision (abs_pos.mp positive)

/-- Half a unit in the last place is far less than an eighth of a normal number. -/
theorem abs_roundToDouble_sub_le {x : Rat} (normal : (2 : Rat) ^ (-1022 : Int) ≤ |x|) :
    |roundToDouble x - x| ≤ |x| / 8 := by
  have positive : 0 < |x| := lt_of_lt_of_le (zpow_pos (by norm_num) _) normal
  have ulpPos : (0 : Rat) < 2 ^ ulpExponent x := zpow_pos (by norm_num) _
  have exponent : ulpExponent x = Int.log 2 |x| - 52 := by
    have above : (-1022 : Int) ≤ Int.log 2 |x| :=
      (Int.zpow_le_iff_le_log (by norm_num) positive).mp (by exact_mod_cast normal)
    rw [ulpExponent, max_eq_left above]
  have ulpSmall : (2 : Rat) ^ ulpExponent x ≤ |x| / 4 := by
    have self : (2 : Rat) ^ Int.log 2 |x| ≤ |x| := by
      exact_mod_cast Int.zpow_log_le_self (b := 2) (by norm_num) positive
    have scale : (2 : Rat) ^ (52 : Int) = 4503599627370496 := by norm_num
    rw [exponent, zpow_sub₀ (by norm_num), scale]
    linarith
  have error := abs_roundHalfEven_sub_le (x / (2 : Rat) ^ ulpExponent x)
  have factored : roundToDouble x - x =
      (roundHalfEven (x / (2 : Rat) ^ ulpExponent x) - x / (2 : Rat) ^ ulpExponent x) *
        (2 : Rat) ^ ulpExponent x := by
    rw [roundToDouble, sub_mul, div_mul_cancel₀ x ulpPos.ne']
  calc |roundToDouble x - x|
      = |roundHalfEven (x / (2 : Rat) ^ ulpExponent x) - x / (2 : Rat) ^ ulpExponent x| *
          (2 : Rat) ^ ulpExponent x := by
        rw [factored, abs_mul, abs_of_pos ulpPos]
    _ ≤ 1 / 2 * (2 : Rat) ^ ulpExponent x := mul_le_mul_of_nonneg_right error ulpPos.le
    _ ≤ |x| / 8 := by linarith

/-- Numbers of different magnitudes are rounded to different doubles. -/
theorem roundToDouble_ne {x y : Rat} (normal : (2 : Rat) ^ (-1022 : Int) ≤ |x|)
    (far : 2 * |x| ≤ |y|) : roundToDouble x ≠ roundToDouble y := by
  have positive : 0 < |x| := lt_of_lt_of_le (zpow_pos (by norm_num) _) normal
  have errorX := abs_roundToDouble_sub_le normal
  have errorY := abs_roundToDouble_sub_le (x := y) (by linarith)
  intro equal
  have lower : |y| - |roundToDouble y| ≤ |roundToDouble y - y| := by
    rw [abs_sub_comm]
    exact abs_sub_abs_le_abs_sub y (roundToDouble y)
  have upper : |roundToDouble x| - |x| ≤ |roundToDouble x - x| :=
    abs_sub_abs_le_abs_sub (roundToDouble x) x
  rw [equal] at upper
  rw [equal] at errorX
  linarith

@[simp]
theorem roundToDouble_zero : roundToDouble 0 = 0 := by
  decide +kernel

theorem lround_nonneg {x : Rat} (nonneg : 0 ≤ x) : 0 ≤ lround x := by
  rw [lround, if_pos nonneg]
  exact Int.floor_nonneg.mpr (by linarith)

theorem lround_nonpos {x : Rat} (nonpos : x ≤ 0) : lround x ≤ 0 := by
  rcases nonpos.eq_or_lt with zero | negative
  · subst zero
    decide +kernel
  · have half : (0 : Int) ≤ ⌊-x + 1 / 2⌋ := Int.floor_nonneg.mpr (by linarith)
    rw [lround, if_neg (not_le.mpr negative)]
    omega

end Sentri.Number
