import Mathlib.Tactic.IntervalCases
import Sentri.Number.Double
import Sentri.Text.Basic

/-!
# Reading doubles

`std::stod` as in the C locale: after blanks and a sign it reads a decimal or
hexadecimal number, an infinity or a NaN, and ignores what follows.
-/

namespace Sentri.Number

open Sentri.Text

/-- The values of a `double`, whose two zeros are one. -/
inductive Double where
  | finite (value : Rat)
  | infinity (negative : Bool)
  | nan
  deriving DecidableEq

inductive StodError where
  | invalidArgument
  | outOfRange
  deriving DecidableEq

def isSpace (c : Char) : Bool :=
  c = ' ' || (9 ≤ c.toNat && c.toNat ≤ 13)

/-- The value of a digit or letter as a digit. -/
def digitValue (c : Char) : Option Nat :=
  if c.isDigit then some (c.toNat - '0'.toNat)
  else if c.isLower then some (c.toNat - 'a'.toNat + 10)
  else if c.isUpper then some (c.toNat - 'A'.toNat + 10)
  else none

def isDigitOf (base : Nat) (c : Char) : Bool :=
  (digitValue c).any (· < base)

/-- The number that digits stand for. -/
def ofDigits (base : Nat) (digits : Str) : Nat :=
  digits.foldl (fun number c => number * base + (digitValue c).getD 0) 0

/-- A sign as a factor, and what follows it. -/
def readSign : Str → Int × Str
  | '-' :: rest => (-1, rest)
  | '+' :: rest => (1, rest)
  | rest => (1, rest)

/-- The exponent after its mark.  Without digits there is no exponent. -/
def readExponent (mark : Char) : Str → Int
  | c :: rest =>
      if c.toLower = mark then
        let (sign, rest) := readSign rest
        sign * ofDigits 10 (rest.takeWhile (isDigitOf 10))
      else
        0
  | [] => 0

/-- The digits after a decimal point, and what follows them. -/
def readFraction (base : Nat) : Str → Str × Str
  | '.' :: rest => (rest.takeWhile (isDigitOf base), rest.dropWhile (isDigitOf base))
  | rest => ([], rest)

/-- A number in `base`; every digit after the point counts `width` in the exponent,
which is one of `radix`. -/
def readUnsigned (base : Nat) (radix : Rat) (width : Nat) (mark : Char) (text : Str) :
    Option Rat :=
  let whole := text.takeWhile (isDigitOf base)
  let (fraction, rest) := readFraction base (text.dropWhile (isDigitOf base))
  if whole ++ fraction = [] then
    none
  else
    some (ofDigits base (whole ++ fraction) *
      radix ^ (readExponent mark rest - width * fraction.length))

/-- A hexadecimal number after its `0x`. -/
def readHexadecimal : Str → Option Rat
  | '0' :: c :: rest => if c.toLower = 'x' then readUnsigned 16 2 4 'p' rest else none
  | _ => none

def strtod (text : Str) : Option Double :=
  let (sign, text) := readSign (text.dropWhile isSpace)
  if "inf".toList.isPrefixOf (text.map Char.toLower) then
    some (.infinity (sign < 0))
  else if "nan".toList.isPrefixOf (text.map Char.toLower) then
    some .nan
  else
    ((readHexadecimal text).or (readUnsigned 10 10 1 'e' text)).map fun value =>
      .finite (sign * value)

/-- Numbers that are too large, or tiny after rounding and not represented exactly, are out of
range. -/
def OutOfRange (value : Rat) : Prop :=
  2 ^ 1024 ≤ |roundToDouble value| ∨
    |roundToPrecision value| < (2 : Rat) ^ (-1022 : Int) ∧ roundToDouble value ≠ value

instance : DecidablePred OutOfRange := fun _ => instDecidableOr

def stod (text : Str) : Except StodError Double :=
  match strtod (cStr text) with
  | none => .error .invalidArgument
  | some (.finite value) =>
      if OutOfRange value then .error .outOfRange else .ok (.finite (roundToDouble value))
  | some other => .ok other

/-- The conversion to `int`, which is undefined outside its range. -/
def toInt : Double → Option Int
  | .finite value =>
      let truncated := if 0 ≤ value then ⌊value⌋ else ⌈value⌉
      if -2 ^ 31 ≤ truncated ∧ truncated < 2 ^ 31 then some truncated else none
  | _ => none

/-! ## Decimal digits -/

theorem digit_mem {c : Char} (digit : c.isDigit) : c ∈ "0123456789".toList := by
  have range : 48 ≤ c.toNat ∧ c.toNat ≤ 57 := by
    simpa [Char.isDigit, UInt32.le_iff_toNat_le] using digit
  rcases range with ⟨lower, upper⟩
  rw [← Char.ofNat_toNat c]
  interval_cases c.toNat <;> decide

/-- A property of the ten digits. -/
theorem forall_digit {holds : Char → Bool} (all : "0123456789".toList.all holds = true) {c : Char}
    (digit : c.isDigit) : holds c = true :=
  List.all_eq_true.mp all c (digit_mem digit)

theorem digitValue_of_isDigit {c : Char} (digit : c.isDigit) :
    digitValue c = some (c.toNat - '0'.toNat) := by
  rw [digitValue, if_pos digit]

theorem isDigitOf_ten_of_isDigit {c : Char} (digit : c.isDigit) : isDigitOf 10 c :=
  forall_digit (by decide) digit

theorem ofDigits_eq_ofDigitChars {digits : Str} (all : ∀ c ∈ digits, c.isDigit) :
    ofDigits 10 digits = Nat.ofDigitChars 10 digits 0 := by
  have general : ∀ number, digits.foldl
      (fun number c => number * 10 + (digitValue c).getD 0) number =
        Nat.ofDigitChars 10 digits number := by
    induction digits with
    | nil => simp
    | cons c digits ih =>
        intro number
        have rest := ih fun c member => all c (List.mem_cons_of_mem _ member)
        rw [List.foldl_cons, rest, Nat.ofDigitChars_cons,
          digitValue_of_isDigit (all c List.mem_cons_self), Option.getD_some, Nat.mul_comm]
  exact general 0

theorem ofDigits_toDecimal (n : Nat) : ofDigits 10 (toDecimal n) = n := by
  rw [ofDigits_eq_ofDigitChars fun c member => isDigit_of_mem_toDecimal member]
  exact Nat.ofDigitChars_ten_toDigits

theorem ofDigits_append {digits more : Str} (all : ∀ c ∈ digits ++ more, c.isDigit) :
    ofDigits 10 (digits ++ more) = 10 ^ more.length * ofDigits 10 digits + ofDigits 10 more := by
  rw [ofDigits_eq_ofDigitChars all,
    ofDigits_eq_ofDigitChars fun c member => all c (List.mem_append_left _ member),
    ofDigits_eq_ofDigitChars fun c member => all c (List.mem_append_right _ member),
    Nat.ofDigitChars_append, Nat.ofDigitChars_eq_ofDigitChars_zero]

theorem ofDigits_lt {digits : Str} (all : ∀ c ∈ digits, c.isDigit) :
    ofDigits 10 digits < 10 ^ digits.length := by
  induction digits with
  | nil => decide
  | cons c digits ih =>
      have small : decide (ofDigits 10 [c] ≤ 9) = true :=
        @forall_digit (fun c => decide (ofDigits 10 [c] ≤ 9)) (by decide) c
          (all c List.mem_cons_self)
      have first := of_decide_eq_true small
      have rest := ih fun c member => all c (List.mem_cons_of_mem _ member)
      have split := @ofDigits_append [c] digits all
      rw [List.singleton_append] at split
      rw [split, List.length_cons, pow_succ]
      have scaled : 10 ^ digits.length * ofDigits 10 [c] ≤ 10 ^ digits.length * 9 :=
        Nat.mul_le_mul_left _ first
      omega

/-! ## Reading a decimal number -/

theorem takeWhile_digits {whole : Str} {stop : Char} (all : ∀ c ∈ whole, c.isDigit)
    (stops : isDigitOf 10 stop = false) (more : Str) :
    (whole ++ stop :: more).takeWhile (isDigitOf 10) = whole ∧
      (whole ++ stop :: more).dropWhile (isDigitOf 10) = stop :: more := by
  have digits : ∀ c ∈ whole, isDigitOf 10 c := fun c member =>
    isDigitOf_ten_of_isDigit (all c member)
  constructor
  · rw [List.takeWhile_append_of_pos digits, List.takeWhile_cons_of_neg (by simp [stops]),
      List.append_nil]
  · rw [List.dropWhile_append_of_pos digits, List.dropWhile_cons_of_neg (by simp [stops])]

/-- A text with an optional minus sign. -/
def signed (negative : Bool) (text : Str) : Str :=
  if negative then '-' :: text else text

def signOf (negative : Bool) : Int :=
  if negative then -1 else 1

/-- What is no blank, infinity, NaN or hexadecimal number is read as a decimal one. -/
theorem strtod_signed (negative : Bool) {c : Char} (digit : c.isDigit) {next : Char}
    (noHexadecimal : next.toLower ≠ 'x') (more : Str) :
    strtod (signed negative (c :: next :: more)) =
      (readUnsigned 10 10 1 'e' (c :: next :: more)).map fun value =>
        .finite (signOf negative * value) := by
  have facts : decide (isSpace c = false ∧ c ≠ '-' ∧ c ≠ '+' ∧ c.toLower ≠ 'i' ∧
      c.toLower ≠ 'n') = true :=
    @forall_digit (fun c => decide (isSpace c = false ∧ c ≠ '-' ∧ c ≠ '+' ∧ c.toLower ≠ 'i' ∧
      c.toLower ≠ 'n')) (by decide) c digit
  rcases of_decide_eq_true facts with ⟨noSpace, noMinus, noPlus, noInfinity, noNan⟩
  have sign : readSign ((signed negative (c :: next :: more)).dropWhile isSpace) =
      (signOf negative, c :: next :: more) := by
    cases negative with
    | true => rfl
    | false =>
        change readSign ((c :: next :: more).dropWhile isSpace) = (1, _)
        rw [List.dropWhile_cons_of_neg (by simp [noSpace])]
        unfold readSign
        split
        · simp_all
        · simp_all
        · rfl
  have infinity : "inf".toList.isPrefixOf ((c :: next :: more).map Char.toLower) = false := by
    simp [List.isPrefixOf, Ne.symm noInfinity]
  have nan : "nan".toList.isPrefixOf ((c :: next :: more).map Char.toLower) = false := by
    simp [List.isPrefixOf, Ne.symm noNan]
  have hexadecimal : readHexadecimal (c :: next :: more) = none := by
    unfold readHexadecimal
    split
    case h_1 equal =>
        cases equal
        rw [if_neg noHexadecimal]
    case h_2 => rfl
  simp only [strtod, sign, infinity, nan, hexadecimal, Option.none_or]
  rfl

/-- A decimal number with a point, at the end of a text or of a line. -/
theorem readUnsigned_point {whole fraction stop : Str} (digits : ∀ c ∈ whole ++ fraction, c.isDigit)
    (nonempty : whole ≠ []) (stops : stop = [] ∨ ∃ more, stop = '\n' :: more) :
    readUnsigned 10 10 1 'e' (whole ++ '.' :: (fraction ++ stop)) =
      some (ofDigits 10 (whole ++ fraction) * (10 : Rat) ^ (-(fraction.length : Int))) := by
  have wholeDigits : ∀ c ∈ whole, c.isDigit := fun c member =>
    digits c (List.mem_append_left _ member)
  have fractionDigits : ∀ c ∈ fraction, isDigitOf 10 c := fun c member =>
    isDigitOf_ten_of_isDigit (digits c (List.mem_append_right _ member))
  have point : isDigitOf 10 '.' = false := by decide
  rcases takeWhile_digits wholeDigits point (fraction ++ stop) with ⟨front, back⟩
  have taken : (fraction ++ stop).takeWhile (isDigitOf 10) = fraction := by
    rw [List.takeWhile_append_of_pos fractionDigits]
    rcases stops with rfl | ⟨more, rfl⟩
    · simp
    · rw [List.takeWhile_cons_of_neg (by decide), List.append_nil]
  have dropped : (fraction ++ stop).dropWhile (isDigitOf 10) = stop := by
    rw [List.dropWhile_append_of_pos fractionDigits]
    rcases stops with rfl | ⟨more, rfl⟩
    · rfl
    · rw [List.dropWhile_cons_of_neg (by decide)]
  have noExponent : readExponent 'e' stop = 0 := by
    rcases stops with rfl | ⟨more, rfl⟩
    · rfl
    · rw [readExponent, if_neg (by decide)]
  have hasDigits : whole ++ fraction ≠ [] := by simp [nonempty]
  simp only [readUnsigned, front, back, readFraction, taken, dropped, noExponent, if_neg hasDigits]
  rw [Nat.cast_one, one_mul, zero_sub]

/-- A decimal number at the end of a line. -/
theorem readUnsigned_newline {whole : Str} (digits : ∀ c ∈ whole, c.isDigit)
    (nonempty : whole ≠ []) (more : Str) :
    readUnsigned 10 10 1 'e' (whole ++ '\n' :: more) = some (ofDigits 10 whole : Rat) := by
  have newline : isDigitOf 10 '\n' = false := by decide
  rcases takeWhile_digits digits newline more with ⟨front, back⟩
  have noExponent : readExponent 'e' ('\n' :: more) = 0 := by
    rw [readExponent, if_neg (by decide)]
  have noFraction : readFraction 10 ('\n' :: more) = ([], '\n' :: more) := rfl
  simp only [readUnsigned, front, back, noFraction, noExponent, List.append_nil,
    if_neg nonempty]
  simp

theorem signed_append (negative : Bool) (text more : Str) :
    signed negative (text ++ more) = signed negative text ++ more := by
  cases negative <;> rfl

theorem strtod_point (negative : Bool) {whole fraction stop : Str}
    (digits : ∀ c ∈ whole ++ fraction, c.isDigit) (nonempty : whole ≠ [])
    (stops : stop = [] ∨ ∃ more, stop = '\n' :: more) :
    strtod (signed negative (whole ++ '.' :: (fraction ++ stop))) =
      some (.finite (signOf negative *
        (ofDigits 10 (whole ++ fraction) * (10 : Rat) ^ (-(fraction.length : Int))))) := by
  have read := readUnsigned_point digits nonempty stops
  rcases whole with _ | ⟨c, _ | ⟨next, more⟩⟩
  · exact absurd rfl nonempty
  · have shape := strtod_signed negative (digits c (by simp))
      (by decide : '.'.toLower ≠ 'x') (fraction ++ stop)
    rw [List.singleton_append] at read ⊢
    rw [shape, read]
    rfl
  · have noX : decide (next.toLower ≠ 'x') = true :=
      @forall_digit (fun c => decide (c.toLower ≠ 'x')) (by decide) next (digits next (by simp))
    have shape := strtod_signed negative (digits c (by simp))
      (of_decide_eq_true noX) (more ++ '.' :: (fraction ++ stop))
    rw [List.cons_append, List.cons_append] at read ⊢
    rw [shape, read]
    rfl

/-! ## Numbers in range -/

theorem normal_of_le {x : Rat} (large : 1 / 1000 ≤ |x|) : (2 : Rat) ^ (-1022 : Int) ≤ |x| := by
  have small : (2 : Rat) ^ (-1022 : Int) ≤ (2 : Rat) ^ (-10 : Int) :=
    zpow_le_zpow_right₀ (by norm_num) (by norm_num)
  have value : (2 : Rat) ^ (-10 : Int) = 1 / 1024 := by norm_num
  rw [value] at small
  exact small.trans ((by norm_num : (1 : Rat) / 1024 ≤ 1 / 1000).trans large)

theorem not_outOfRange {x : Rat} (large : 1 / 1000 ≤ |x|) (small : |x| ≤ 1000000) :
    ¬ OutOfRange x := by
  have normal := normal_of_le large
  have error := abs_roundToDouble_sub_le normal
  have magnitude : |roundToDouble x| - |x| ≤ |roundToDouble x - x| :=
    abs_sub_abs_le_abs_sub (roundToDouble x) x
  have bound : |roundToDouble x| ≤ 2 ^ 21 := by linarith
  have huge : (2 : Rat) ^ 21 < 2 ^ 1024 := pow_lt_pow_right₀ (by norm_num) (by norm_num)
  rintro (large | ⟨tiny, _⟩)
  · exact absurd (large.trans bound) (not_le.mpr huge)
  · exact absurd (normal_roundToPrecision normal) (not_le.mpr tiny)

theorem not_outOfRange_natCast {n : Nat} (small : n ≤ 1000000) : ¬ OutOfRange (n : Rat) := by
  rcases Nat.eq_zero_or_pos n with rfl | positive
  · simp [OutOfRange]
  · have one : (1 : Rat) ≤ n := by exact_mod_cast positive
    have bound : (n : Rat) ≤ 1000000 := by exact_mod_cast small
    have self : |(n : Rat)| = n := abs_of_nonneg (by linarith)
    exact not_outOfRange (by rw [self]; linarith) (by rw [self]; exact bound)

end Sentri.Number
