import Sentri.Number.Stod

/-!
# Decimal numbers as doubles

A decimal number with few digits is not a double, but the double next to it is much
nearer than the next such number.  So doubles that were read from decimal texts compare
as the texts say, and `std::to_string` gives the digits of the text back.
-/

namespace Sentri.Number

open Sentri.Text

/-! ## Comparing doubles -/

namespace Double

/-- The comparison `<`, which is false of a NaN. -/
def lt : Double → Double → Bool
  | .finite x, .finite y => x < y
  | .finite _, .infinity negative => !negative
  | .infinity negative, .finite _ => negative
  | .infinity left, .infinity right => left && !right
  | .nan, _ => false
  | _, .nan => false

/-- The comparison `<=`. -/
def le : Double → Double → Bool
  | .finite x, .finite y => x ≤ y
  | .finite _, .infinity negative => !negative
  | .infinity negative, .finite _ => negative
  | .infinity left, .infinity right => left || !right
  | .nan, _ => false
  | _, .nan => false

end Double

/-! ## Digits after the point -/

/-- A number of millionths in decimal. -/
def millionths (negative : Bool) (m : Nat) : Str :=
  signed negative (toDecimal (m / 10 ^ 6) ++ '.' :: (toDecimal (m % 10 ^ 6)).leftpad 6 '0')

/-- `std::to_string` of a double: six digits after the point, the last one rounded. -/
def toText : Double → Str
  | .finite value => millionths (value < 0) (roundHalfEven (|value| * 10 ^ 6)).natAbs
  | .infinity negative => signed negative "inf".toList
  | .nan => "nan".toList

example : toText (.finite (-17 / 16)) = "-1.062500".toList := by decide +kernel

/-! ## Decimal grids -/

/-- At most nine digits after the point and at most a million. -/
structure Precise (x : Rat) : Prop where
  onGrid : ∃ k : Int, x = k / 10 ^ 9
  bounded : |x| ≤ 10 ^ 6

namespace Precise

variable {x y : Rat}

theorem zero : Precise 0 := by
  constructor
  · exact ⟨0, by simp⟩
  · norm_num

/-- Different numbers are one place apart. -/
theorem apart (left : Precise x) (right : Precise y) (less : x < y) : x + 1 / 10 ^ 9 ≤ y := by
  rcases left.onGrid with ⟨k, rfl⟩
  rcases right.onGrid with ⟨l, rfl⟩
  have scale : (0 : Rat) < 10 ^ 9 := by norm_num
  have cast : (k : Rat) < l := (div_lt_div_iff_of_pos_right scale).mp less
  have steps : (k : Rat) + 1 ≤ l := by exact_mod_cast Int.add_one_le_of_lt (by exact_mod_cast cast)
  rw [← add_div]
  exact div_le_div_of_nonneg_right steps scale.le

/-- What is not zero is a normal number. -/
theorem normal (precise : Precise x) (nonzero : x ≠ 0) : (2 : Rat) ^ (-1022 : Int) ≤ |x| := by
  have place : 1 / 10 ^ 9 ≤ |x| := by
    rcases lt_or_gt_of_ne nonzero with negative | positive
    · have gap := precise.apart zero negative
      rw [abs_of_neg negative]
      linarith
    · have gap := zero.apart precise positive
      rw [abs_of_pos positive]
      linarith
  have tiny : (2 : Rat) ^ (-1022 : Int) ≤ (2 : Rat) ^ (-30 : Int) :=
    zpow_le_zpow_right₀ (by norm_num) (by norm_num)
  have value : (2 : Rat) ^ (-30 : Int) = 1 / 1073741824 := by norm_num
  calc (2 : Rat) ^ (-1022 : Int)
      ≤ 1 / 1073741824 := value ▸ tiny
    _ ≤ 1 / 10 ^ 9 := by norm_num
    _ ≤ |x| := place

end Precise

/-! ## Rounding on the grid -/

/-- The error of rounding is half a unit in the last place. -/
theorem abs_roundToDouble_sub_le_half {x : Rat} (normal : (2 : Rat) ^ (-1022 : Int) ≤ |x|) :
    |roundToDouble x - x| ≤ |x| / 2 ^ 53 := by
  have positive : 0 < |x| := lt_of_lt_of_le (zpow_pos (by norm_num) _) normal
  have ulpPos : (0 : Rat) < 2 ^ ulpExponent x := zpow_pos (by norm_num) _
  have above : (-1022 : Int) ≤ Int.log 2 |x| :=
    (Int.zpow_le_iff_le_log (by norm_num) positive).mp (by exact_mod_cast normal)
  have self : (2 : Rat) ^ Int.log 2 |x| ≤ |x| := by
    exact_mod_cast Int.zpow_log_le_self (b := 2) (by norm_num) positive
  have ulp : (2 : Rat) ^ ulpExponent x = (2 : Rat) ^ Int.log 2 |x| / 2 ^ 52 := by
    rw [ulpExponent, max_eq_left above, zpow_sub₀ (by norm_num)]
    norm_num
  have factored : roundToDouble x - x =
      (roundHalfEven (x / (2 : Rat) ^ ulpExponent x) - x / (2 : Rat) ^ ulpExponent x) *
        (2 : Rat) ^ ulpExponent x := by
    rw [roundToDouble, sub_mul, div_mul_cancel₀ x ulpPos.ne']
  calc |roundToDouble x - x|
      = |roundHalfEven (x / (2 : Rat) ^ ulpExponent x) - x / (2 : Rat) ^ ulpExponent x| *
          (2 : Rat) ^ ulpExponent x := by
        rw [factored, abs_mul, abs_of_pos ulpPos]
    _ ≤ 1 / 2 * (2 : Rat) ^ ulpExponent x :=
        mul_le_mul_of_nonneg_right (abs_roundHalfEven_sub_le _) ulpPos.le
    _ = (2 : Rat) ^ Int.log 2 |x| / 2 ^ 53 := by
        rw [ulp]
        ring
    _ ≤ |x| / 2 ^ 53 := div_le_div_of_nonneg_right self (by norm_num)

/-- The only integer near a number is the one that it is rounded to. -/
theorem roundHalfEven_eq {x : Rat} {k : Int} (close : |x - k| < 1 / 2) : roundHalfEven x = k := by
  have error := abs_le.mp (abs_roundHalfEven_sub_le x)
  have near := abs_lt.mp close
  have below : ((roundHalfEven x : Int) : Rat) < (k : Rat) + 1 := by linarith
  have above : (k : Rat) < (roundHalfEven x : Rat) + 1 := by linarith
  have below' : roundHalfEven x < k + 1 := by exact_mod_cast below
  have above' : k < roundHalfEven x + 1 := by exact_mod_cast above
  omega

namespace Precise

variable {x y : Rat}

/-- The double next to a number is much nearer than half a place. -/
theorem close (precise : Precise x) : |roundToDouble x - x| < 1 / (4 * 10 ^ 9) := by
  by_cases zero : x = 0
  · rw [zero, roundToDouble_zero]
    norm_num
  · calc |roundToDouble x - x|
        ≤ |x| / 2 ^ 53 := abs_roundToDouble_sub_le_half (precise.normal zero)
      _ ≤ 10 ^ 6 / 2 ^ 53 := div_le_div_of_nonneg_right precise.bounded (by norm_num)
      _ < 1 / (4 * 10 ^ 9) := by norm_num

/-- Doubles compare as the decimal numbers that they were read from. -/
theorem roundToDouble_lt_iff (left : Precise x) (right : Precise y) :
    roundToDouble x < roundToDouble y ↔ x < y := by
  have forward : ∀ {x y : Rat}, Precise x → Precise y → x < y →
      roundToDouble x < roundToDouble y := by
    intro x y left right less
    have gap := left.apart right less
    have errorLeft := abs_lt.mp left.close
    have errorRight := abs_lt.mp right.close
    linarith
  constructor
  · intro less
    rcases lt_trichotomy x y with below | equal | above
    · exact below
    · rw [equal] at less
      exact absurd less (lt_irrefl _)
    · exact absurd (less.trans (forward right left above)) (lt_irrefl _)
  · exact forward left right

theorem roundToDouble_le_iff (left : Precise x) (right : Precise y) :
    roundToDouble x ≤ roundToDouble y ↔ x ≤ y := by
  rw [← not_lt, ← not_lt, right.roundToDouble_lt_iff left]

theorem not_outOfRange (precise : Precise x) : ¬ OutOfRange x := by
  have magnitude : |roundToDouble x| - |x| ≤ |roundToDouble x - x| :=
    abs_sub_abs_le_abs_sub (roundToDouble x) x
  have small : |roundToDouble x| ≤ 2 ^ 21 := by
    have error := precise.close
    have bounded := precise.bounded
    norm_num at bounded error ⊢
    linarith
  rintro (huge | ⟨tiny, inexact⟩)
  · have power : (2 : Rat) ^ 21 < 2 ^ 1024 := pow_lt_pow_right₀ (by norm_num) (by norm_num)
    exact absurd (huge.trans small) (not_le.mpr power)
  · by_cases zero : x = 0
    · rw [zero, roundToDouble_zero] at inexact
      exact inexact rfl
    · exact absurd (normal_roundToPrecision (precise.normal zero)) (not_le.mpr tiny)

end Precise

/-- A text is read as the double next to the number that it stands for. -/
theorem stod_of_precise {text : Str} {x : Rat} (read : strtod (cStr text) = some (.finite x))
    (precise : Precise x) : stod text = .ok (.finite (roundToDouble x)) := by
  rw [stod, read]
  exact if_neg precise.not_outOfRange

/-- Six digits of the double next to a number of millionths are the digits of the number. -/
theorem toText_roundToDouble {k : Int} (precise : Precise ((k : Rat) / 10 ^ 6)) :
    toText (.finite (roundToDouble (k / 10 ^ 6))) = millionths (k < 0) k.natAbs := by
  have scale : (0 : Rat) < 10 ^ 6 := by norm_num
  have sign : roundToDouble ((k : Rat) / 10 ^ 6) < 0 ↔ k < 0 := by
    have compared := precise.roundToDouble_lt_iff Precise.zero
    rw [roundToDouble_zero, div_lt_iff₀ scale, zero_mul] at compared
    rw [compared]
    exact Int.cast_lt_zero
  have natAbs : ((k.natAbs : Int) : Rat) = |(k : Rat) / 10 ^ 6| * 10 ^ 6 := by
    rw [abs_div, abs_of_pos scale, div_mul_cancel₀ _ scale.ne', Int.natCast_natAbs, Int.cast_abs]
  have near : |(|roundToDouble ((k : Rat) / 10 ^ 6)| * 10 ^ 6) - ((k.natAbs : Int) : Rat)| <
      1 / 2 := by
    rw [natAbs, ← sub_mul, abs_mul, abs_of_pos scale]
    have change := abs_abs_sub_abs_le (roundToDouble ((k : Rat) / 10 ^ 6)) ((k : Rat) / 10 ^ 6)
    have error := precise.close
    linarith
  rw [toText, roundHalfEven_eq near, Int.natAbs_natCast]
  simp only [sign]

end Sentri.Number
