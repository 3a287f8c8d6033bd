import Sentri.Modules.Temperature.Sensor

/-!
# Decoding the temperature

The point is inserted after two characters of a window of five, so that a reading is
right when the number fills the window: with five digits, or with a minus sign and
four.
-/

namespace Sentri.Modules.Temperature

open Sentri.Number Sentri.Text

/-- A number in plain decimal. -/
def decimal (n : Int) : Str :=
  signed (n < 0) (toDecimal n.natAbs)

/-! ## Finding the prefix -/

theorem find_le {needle text : Str} {pos : Nat} (found : find needle text = some pos) :
    pos + needle.length ≤ text.length := by
  induction text generalizing pos with
  | nil =>
      rw [find] at found
      split at found
      case isTrue empty =>
          cases found
          simp [empty]
      case isFalse => cases found
  | cons c text ih =>
      rw [find] at found
      split at found
      case isTrue here =>
          cases found
          simpa using (List.isPrefixOf_iff_prefix.mp here).length_le
      case isFalse =>
          rcases Option.map_eq_some_iff.mp found with ⟨later, rest, rfl⟩
          have bound := ih rest
          rw [List.length_cons]
          omega

/-- What follows the first occurrence does not matter. -/
theorem find_append {needle text : Str} {pos : Nat} (more : Str)
    (found : find needle text = some pos) : find needle (text ++ more) = some pos := by
  induction text generalizing pos with
  | nil =>
      rw [find] at found
      split at found
      case isTrue empty =>
          cases found
          subst needle
          cases more <;> rfl
      case isFalse => cases found
  | cons c text ih =>
      have bound := find_le found
      rw [find] at found
      rw [List.cons_append, find]
      split at found
      case isTrue here =>
          have longer : needle.isPrefixOf (c :: (text ++ more)) := by
            rw [List.isPrefixOf_iff_prefix] at here ⊢
            exact here.trans (List.prefix_append (c :: text) more)
          rw [if_pos longer, found]
      case isFalse elsewhere =>
          have notLonger : ¬ needle.isPrefixOf (c :: (text ++ more)) := by
            rw [List.isPrefixOf_iff_prefix] at elsewhere ⊢
            intro longer
            exact elsewhere (List.prefix_of_prefix_length_le longer
              (List.prefix_append (c :: text) more) (by omega))
          rcases Option.map_eq_some_iff.mp found with ⟨later, rest, rfl⟩
          rw [if_neg notLonger, ih rest]
          rfl

/-! ## The buffer -/

theorem cStr_append {text more : Str} (noNul : nul ∉ text) :
    cStr (text ++ more) = text ++ cStr more := by
  rw [cStr, List.takeWhile_append_of_pos]
  · rfl
  · intro c member
    simpa using fun equal : c = nul => noNul (equal ▸ member)

theorem nul_notMem_digits {digits : Str} (all : ∀ c ∈ digits, c.isDigit) : nul ∉ digits := by
  intro member
  have digit := all nul member
  revert digit
  decide

/-- The digits in a window, which may end at the newline behind them. -/
theorem cStr_take_digits {digits : Str} (all : ∀ c ∈ digits, c.isDigit) (after : Str)
    (count : Nat) :
    ∃ stop, cStr ((digits ++ '\n' :: after).take count) = digits.take count ++ stop ∧
      (stop = [] ∨ ∃ more, stop = '\n' :: more) := by
  rw [List.take_append]
  have noNul : nul ∉ digits.take count := fun member =>
    nul_notMem_digits all (List.mem_of_mem_take member)
  rw [cStr_append noNul]
  refine ⟨_, rfl, ?_⟩
  rcases count - digits.length with _ | left
  · exact Or.inl rfl
  · right
    refine ⟨cStr (after.take left), ?_⟩
    rw [List.take_succ_cons, cStr, List.takeWhile_cons_of_pos (by decide)]
    rfl

theorem convert_of_strtod {chars : Str} {value : Rat} (long : 2 ≤ (cStr chars).length)
    (read : strtod ((cStr chars).take 2 ++ '.' :: (cStr chars).drop 2) = some (.finite value))
    (inRange : ¬ OutOfRange value) :
    Reading.convert chars [] = .ok (.finite (roundToDouble value)) := by
  have noNul : nul ∉ (cStr chars).take 2 ++ '.' :: (cStr chars).drop 2 := by
    intro member
    rcases List.mem_append.mp member with front | back
    · exact nul_notMem_cStr chars (List.mem_of_mem_take front)
    · rcases List.mem_cons.mp back with point | behind
      · revert point
        decide
      · exact nul_notMem_cStr chars (List.mem_of_mem_drop behind)
  have inserted : insert (cStr (chars ++ [])) 2 ".".toList =
      .ok ((cStr chars).take 2 ++ '.' :: (cStr chars).drop 2) := by
    rw [List.append_nil, insert, if_pos long]
    simp
  rw [Reading.convert, inserted]
  change stod _ = _
  rw [stod, cStr_eq_self noNul, read]
  exact if_neg inRange

/-- The value that is read of a number, of which two characters are in front of the
point: `whole`, which may have a minus sign, and at most three digits more. -/
def scaled (negative : Bool) (whole digits : Str) : Rat :=
  signOf negative * (ofDigits 10 (whole ++ digits.take 3) *
    (10 : Rat) ^ (-((digits.take 3).length : Int)))

theorem convert_point {negative : Bool} {whole digits : Str}
    (all : ∀ c ∈ whole ++ digits, c.isDigit) (nonempty : whole ≠ [])
    (two : (signed negative whole).length = 2) (after : Str)
    (inRange : ¬ OutOfRange (scaled negative whole digits)) :
    Reading.convert ((signed negative (whole ++ digits) ++ '\n' :: after).take temperatureWith) []
      = .ok (.finite (roundToDouble (scaled negative whole digits))) := by
  have wholeDigits : ∀ c ∈ whole, c.isDigit := fun c member =>
    all c (List.mem_append_left _ member)
  have moreDigits : ∀ c ∈ digits, c.isDigit := fun c member =>
    all c (List.mem_append_right _ member)
  have noNul : nul ∉ signed negative whole := by
    have inWhole := nul_notMem_digits wholeDigits
    cases negative with
    | false => exact inWhole
    | true => exact List.not_mem_cons_of_ne_of_not_mem (by decide) inWhole
  rcases cStr_take_digits moreDigits after 3 with ⟨stop, rest, stops⟩
  have window : cStr ((signed negative (whole ++ digits) ++ '\n' :: after).take temperatureWith) =
      signed negative whole ++ (digits.take 3 ++ stop) := by
    have split : temperatureWith = (signed negative whole).length + 3 := by
      rw [two]
      rfl
    rw [signed_append, List.append_assoc, split, List.take_length_add_append, cStr_append noNul,
      rest]
  apply convert_of_strtod _ _ inRange
  · rw [window, List.length_append, two]
    exact Nat.le_add_right _ _
  · rw [window, List.take_left' two, List.drop_left' two, ← signed_append]
    apply strtod_point negative _ nonempty stops
    intro c member
    rcases List.mem_append.mp member with front | back
    · exact wholeDigits c front
    · exact moreDigits c (List.mem_of_mem_take back)

/-- A single digit is read without its point, which comes after the newline. -/
theorem convert_digit {c : Char} (digit : c.isDigit) (after : Str) :
    Reading.convert ((c :: '\n' :: after).take temperatureWith) [] =
      .ok (.finite (roundToDouble (ofDigits 10 [c]))) := by
  have one : ∀ other ∈ [c], other.isDigit = true := by simpa using digit
  have window : cStr ((c :: '\n' :: after).take temperatureWith) =
      [c, '\n'] ++ cStr (after.take 3) := by
    have noNul : nul ∉ [c, '\n'] := by
      intro member
      rcases List.mem_pair.mp member with equal | newline
      · exact nul_notMem_digits one (by simp [equal])
      · revert newline
        decide
    exact cStr_append noNul
  have small : ofDigits 10 [c] ≤ 1000000 := (ofDigits_lt one).le.trans (by simp)
  apply convert_of_strtod _ _ (not_outOfRange_natCast small)
  · rw [window]
    exact Nat.le_add_left _ _
  · rw [window]
    have read := readUnsigned_newline one (by simp) ('.' :: cStr (after.take 3))
    have shape := strtod_signed false digit (by decide : '\n'.toLower ≠ 'x')
      ('.' :: cStr (after.take 3))
    rw [List.singleton_append] at read
    rw [read] at shape
    refine shape.trans ?_
    simp [signOf]

/-! ## The value that is read -/

/-- What is read of the digits of a number, without its sign. -/
def magnitude (whole digits : Str) : Rat :=
  ofDigits 10 (whole ++ digits.take 3) * (10 : Rat) ^ (-((digits.take 3).length : Int))

theorem scaled_eq (negative : Bool) (whole digits : Str) :
    scaled negative whole digits = signOf negative * magnitude whole digits :=
  rfl

section

variable {m : Nat} {whole digits : Str}

theorem isDigit_of_number (number : toDecimal m = whole ++ digits) :
    ∀ c ∈ whole ++ digits, c.isDigit := by
  intro c member
  rw [← number] at member
  exact isDigit_of_mem_toDecimal member

/-- Three digits after the point are thousandths. -/
theorem magnitude_of_three (number : toDecimal m = whole ++ digits) (three : digits.length = 3) :
    magnitude whole digits = m / 1000 := by
  have all : digits.take 3 = digits := List.take_of_length_le three.le
  rw [magnitude, all, ← number, ofDigits_toDecimal, three]
  norm_num
  ring

/-- Fewer digits after the point stand for too much. -/
theorem magnitude_of_few (number : toDecimal m = whole ++ digits) (few : digits.length < 3) :
    10 * (m / 1000 : Rat) ≤ magnitude whole digits ∧ magnitude whole digits ≤ m := by
  have all : digits.take 3 = digits := List.take_of_length_le few.le
  have nonneg : (0 : Rat) ≤ m := Nat.cast_nonneg m
  rw [magnitude, all, ← number, ofDigits_toDecimal]
  rcases digits with _ | ⟨a, _ | ⟨b, _ | ⟨c, more⟩⟩⟩
  · norm_num
    linarith
  · norm_num
    constructor <;> linarith
  · norm_num
    constructor <;> linarith
  · simp only [List.length_cons] at few
    omega

/-- Of more digits the first three are too little. -/
theorem magnitude_of_many (number : toDecimal m = whole ++ digits)
    (short : whole.length ≤ 2) (many : 3 < digits.length) :
    10 * magnitude whole digits ≤ m / 1000 ∧ 1 / 1000 ≤ magnitude whole digits ∧
      magnitude whole digits ≤ 100 := by
  let front := whole ++ digits.take 3
  let back := digits.drop 3
  have split : toDecimal m = front ++ back := by
    rw [List.append_assoc, List.take_append_drop, number]
  have all := isDigit_of_number split
  have three : (digits.take 3).length = 3 := List.length_take_of_le many.le
  have backPos : 0 < back.length := by
    rw [List.length_drop]
    omega
  have value : m = 10 ^ back.length * ofDigits 10 front + ofDigits 10 back := by
    rw [← ofDigits_append all, ← split, ofDigits_toDecimal]
  have backSmall : ofDigits 10 back < 10 ^ back.length :=
    ofDigits_lt fun c member => all c (List.mem_append_right _ member)
  have frontSmall : ofDigits 10 front < 10 ^ 5 := by
    have bound := ofDigits_lt fun c member => all c (List.mem_append_left back member)
    refine bound.trans_le (Nat.pow_le_pow_right (by norm_num) ?_)
    rw [List.length_append, three]
    omega
  have frontPos : 1 ≤ ofDigits 10 front := by
    by_contra none
    have zero : ofDigits 10 front = 0 := by omega
    rw [zero, Nat.mul_zero, Nat.zero_add] at value
    have short : (toDecimal m).length ≤ back.length :=
      (Nat.length_toDigits_le_iff (by norm_num) backPos).mpr (by omega)
    rw [split, List.length_append, List.length_append, three] at short
    omega
  have tenfold : 10 * ofDigits 10 front ≤ m := by
    have power : 10 ^ 1 ≤ 10 ^ back.length := Nat.pow_le_pow_right (by norm_num) backPos
    have scaled := Nat.mul_le_mul_right (ofDigits 10 front) power
    omega
  have magnitudeEq : magnitude whole digits = ofDigits 10 front / 1000 := by
    rw [magnitude, three]
    norm_num
    ring
  have lower : (1 : Rat) ≤ ofDigits 10 front := by exact_mod_cast frontPos
  have upper : (ofDigits 10 front : Rat) ≤ 10 ^ 5 := by exact_mod_cast frontSmall.le
  have tenfoldCast : 10 * (ofDigits 10 front : Rat) ≤ m := by exact_mod_cast tenfold
  rw [magnitudeEq]
  refine ⟨?_, ?_, ?_⟩
  · linarith
  · linarith
  · linarith

theorem abs_sign_mul (negative : Bool) (x : Rat) : |signOf negative * x| = |x| := by
  cases negative with
  | false => simp [signOf]
  | true => simp [signOf]

/-- The value is in range, and right with three digits after the point only. -/
theorem round_scaled (negative : Bool) (number : toDecimal m = whole ++ digits)
    (short : whole.length ≤ 2) (positive : 0 < m) :
    ¬ OutOfRange (scaled negative whole digits) ∧
      (roundToDouble (scaled negative whole digits) =
        roundToDouble (signOf negative * (m / 1000)) ↔ digits.length = 3) := by
  have one : (1 : Rat) ≤ m := by exact_mod_cast positive
  have absExact : |(signOf negative * (m / 1000) : Rat)| = m / 1000 := by
    rw [abs_sign_mul, abs_of_pos (by linarith)]
  have bounded : digits.length ≤ 3 → (m : Rat) ≤ 1000000 := by
    intro few
    have below := ofDigits_lt (isDigit_of_number number)
    rw [← number, ofDigits_toDecimal, number, List.length_append] at below
    have power : 10 ^ (whole.length + digits.length) ≤ 10 ^ 5 :=
      Nat.pow_le_pow_right (by norm_num) (by omega)
    exact_mod_cast (below.le.trans power).trans (by norm_num)
  rcases lt_trichotomy digits.length 3 with few | three | many
  · rcases magnitude_of_few number few with ⟨lower, upper⟩
    have abs : |scaled negative whole digits| = magnitude whole digits := by
      rw [scaled_eq, abs_sign_mul, abs_of_pos (by linarith)]
    refine ⟨not_outOfRange (by linarith) (by linarith [bounded few.le]), ?_⟩
    have different := roundToDouble_ne (x := signOf negative * (m / 1000))
      (y := scaled negative whole digits) (normal_of_le (by rw [absExact]; linarith))
      (by rw [absExact, abs]; linarith)
    exact iff_of_false different.symm few.ne
  · have scaledEq : scaled negative whole digits = signOf negative * (m / 1000) := by
      rw [scaled_eq, magnitude_of_three number three]
    rw [scaledEq]
    exact ⟨not_outOfRange (by rw [absExact]; linarith)
      (by rw [absExact]; linarith [bounded three.le]), iff_of_true rfl three⟩
  · rcases magnitude_of_many number short many with ⟨small, lower, upper⟩
    have abs : |scaled negative whole digits| = magnitude whole digits := by
      rw [scaled_eq, abs_sign_mul, abs_of_pos (by linarith)]
    refine ⟨not_outOfRange (by linarith) (by linarith), ?_⟩
    have different := roundToDouble_ne (x := scaled negative whole digits)
      (y := signOf negative * (m / 1000)) (normal_of_le (by rw [abs]; linarith))
      (by rw [absExact, abs]; linarith)
    exact iff_of_false different many.ne'

end

/-! ## Readings -/

/-- The sensor text of a number: a line without the prefix, and one with the number
after its first occurrence. -/
def sensorText (first before : Str) (n : Int) (after : Str) : Str :=
  first ++ '\n' :: (before ++ temperaturePrefix ++ decimal n ++ '\n' :: after)

/-- A reading returns the number in degrees, with the buffer as it was read. -/
def Decodes (content : Str) (n : Int) (sensor : Stream) : Prop :=
  ∃ fuel reading, readTemperature content [] fuel sensor = some (.ok reading) ∧
    reading.temperature = .finite (roundToDouble (n / 1000))

/-- Three digits follow the place of the point, or the number is zero. -/
def Fits (n : Int) : Prop :=
  n = 0 ∨ 10000 ≤ n ∧ n ≤ 99999 ∨ -9999 ≤ n ∧ n ≤ -1000

theorem length_toDecimal_eq_iff {n k : Nat} (positive : 0 < k) :
    (toDecimal n).length = k + 1 ↔ 10 ^ k ≤ n ∧ n < 10 ^ (k + 1) := by
  have upper := Nat.length_toDigits_le_iff (b := 10) (n := n) (by norm_num) k.succ_pos
  have lower := Nat.length_toDigits_le_iff (b := 10) (n := n) (by norm_num) positive
  rw [toDecimal]
  omega

/-- A negative number is right with four digits. -/
theorem convert_negative {n : Int} (negative : n < 0) (after : Str) :
    ∃ temperature, Reading.convert ((decimal n ++ '\n' :: after).take temperatureWith) [] =
        .ok (.finite temperature) ∧
      (temperature = roundToDouble (n / 1000) ↔ Fits n) := by
  have positive : 0 < n.natAbs := by omega
  rcases number : toDecimal n.natAbs with _ | ⟨c, digits⟩
  · exact absurd number Nat.toDigits_ne_nil
  · rw [← List.singleton_append] at number
    have all := isDigit_of_number number
    rcases round_scaled true number (by simp) positive with ⟨inRange, rightIff⟩
    have text : decimal n = signed true ([c] ++ digits) := by
      rw [decimal, decide_eq_true negative, number]
    have scaledEq : (signOf true * (n.natAbs / 1000) : Rat) = n / 1000 := by
      have cast : ((n.natAbs : Nat) : Rat) = -n := by
        rw [Nat.cast_natAbs, abs_of_neg negative]
        push_cast
        rfl
      rw [cast, signOf, if_pos rfl]
      push_cast
      ring
    have length : digits.length = 3 ↔ (toDecimal n.natAbs).length = 3 + 1 := by
      rw [number]
      simp
    rw [text]
    refine ⟨_, convert_point all (by simp) rfl after inRange, ?_⟩
    rw [← scaledEq, rightIff, length, length_toDecimal_eq_iff (by norm_num), Fits]
    omega

/-- Another number is right with five digits, and zero with its only digit. -/
theorem convert_nonnegative {n : Int} (nonneg : 0 ≤ n) (after : Str) :
    ∃ temperature, Reading.convert ((decimal n ++ '\n' :: after).take temperatureWith) [] =
        .ok (.finite temperature) ∧
      (temperature = roundToDouble (n / 1000) ↔ Fits n) := by
  rcases Int.eq_ofNat_of_zero_le nonneg with ⟨m, rfl⟩
  have text : decimal (m : Int) = toDecimal m := by
    rw [decimal, decide_eq_false (not_lt.mpr nonneg)]
    rfl
  rw [text]
  rcases number : toDecimal m with _ | ⟨c, _ | ⟨d, digits⟩⟩
  · exact absurd number Nat.toDigits_ne_nil
  · have digit : c.isDigit := isDigit_of_mem_toDecimal (n := m) (by simp [number])
    have value : ofDigits 10 [c] = m := by rw [← number, ofDigits_toDecimal]
    have small : m < 10 ^ 1 :=
      (Nat.length_toDigits_le_iff (by norm_num) one_pos).mp (by rw [← toDecimal, number]; rfl)
    refine ⟨_, convert_digit digit after, ?_⟩
    rw [value, Fits]
    rcases Nat.eq_zero_or_pos m with rfl | positive
    · simp
    · have one : (1 : Rat) ≤ m := by exact_mod_cast positive
      have selfAbs : |(m : Rat)| = m := abs_of_nonneg (by linarith)
      have partAbs : |(m / 1000 : Rat)| = m / 1000 := abs_of_nonneg (by linarith)
      have different := roundToDouble_ne (x := (m / 1000 : Rat)) (y := m)
        (normal_of_le (by rw [partAbs]; linarith)) (by rw [partAbs, selfAbs]; linarith)
      refine iff_of_false (fun equal => different ?_) (by omega)
      simpa using equal.symm
  · have positive : 0 < m := by
      by_contra none
      obtain rfl : m = 0 := by omega
      rw [toDecimal, Nat.toDigits_zero] at number
      cases number
    have split : toDecimal m = [c, d] ++ digits := number
    rcases round_scaled false split (by simp) positive with ⟨inRange, rightIff⟩
    have scaledEq : (signOf false * (m / 1000) : Rat) = ((m : Int) : Rat) / 1000 := by
      simp [signOf]
    have length : digits.length = 3 ↔ (toDecimal m).length = 4 + 1 := by
      rw [number]
      simp
    refine ⟨_, convert_point (isDigit_of_number split) (by simp) rfl after inRange, ?_⟩
    rw [← scaledEq, rightIff, length, length_toDecimal_eq_iff (by norm_num), Fits]
    omega

/-- What is converted of the window of a number. -/
theorem convert_decimal (n : Int) (after : Str) :
    ∃ temperature, Reading.convert ((decimal n ++ '\n' :: after).take temperatureWith) [] =
        .ok (.finite temperature) ∧
      (temperature = roundToDouble (n / 1000) ↔ Fits n) := by
  rcases lt_or_ge n 0 with negative | nonneg
  · exact convert_negative negative after
  · exact convert_nonnegative nonneg after

section

variable {first before : Str} {n : Int} {after : Str}

theorem newline_notMem_decimal (n : Int) : '\n' ∉ decimal n := by
  have digits : '\n' ∉ toDecimal n.natAbs := by
    intro member
    have digit := isDigit_of_mem_toDecimal member
    revert digit
    decide
  rw [decimal, signed]
  split
  case isTrue => exact List.not_mem_cons_of_ne_of_not_mem (by decide) digits
  case isFalse => exact digits

/-- The number is at the offset that the lengths of the lines give. -/
theorem offset_sensorText (firstLine : '\n' ∉ first)
    (noPrefix : find temperaturePrefix first = none) (secondLine : '\n' ∉ before)
    (firstOccurrence : find temperaturePrefix (before ++ temperaturePrefix) = some before.length) :
    ∃ position, offset (sensorText first before n after) = some position ∧
      (sensorText first before n after).drop position = decimal n ++ '\n' :: after := by
  have noNewline : '\n' ∉ before ++ temperaturePrefix ++ decimal n := by
    rw [List.mem_append, List.mem_append, not_or, not_or]
    exact ⟨⟨secondLine, by decide⟩, newline_notMem_decimal n⟩
  have lines : (sensorText first before n after).splitOn '\n' =
      first :: (before ++ temperaturePrefix ++ decimal n) :: after.splitOn '\n' := by
    rw [sensorText, List.splitOn_append_cons_self_of_not_mem firstLine,
      List.splitOn_append_cons_self_of_not_mem noNewline]
  refine ⟨first.length + before.length + temperaturePrefix.length + 1, ?_, ?_⟩
  · rw [offset, lines]
    simp only [located, noPrefix, find_append (decimal n) firstOccurrence, Nat.zero_add]
  · have front : sensorText first before n after =
        (first ++ '\n' :: (before ++ temperaturePrefix)) ++ (decimal n ++ '\n' :: after) := by
      simp [sensorText]
    have length : (first ++ '\n' :: (before ++ temperaturePrefix)).length =
        first.length + before.length + temperaturePrefix.length + 1 := by
      simp only [List.length_append, List.length_cons]
      omega
    rw [front, List.drop_left' length]

/-- A reading returns the number exactly when its digits fit. -/
theorem decodes_iff_fits (firstLine : '\n' ∉ first)
    (noPrefix : find temperaturePrefix first = none) (secondLine : '\n' ∉ before)
    (firstOccurrence : find temperaturePrefix (before ++ temperaturePrefix) = some before.length)
    {sensor : Stream} (alive : sensor.failbit = false) :
    Decodes (sensorText first before n after) n sensor ↔ Fits n := by
  rcases @offset_sensorText first before n after firstLine noPrefix secondLine
    firstOccurrence with ⟨position, place, left⟩
  rcases convert_decimal n after with ⟨temperature, converts, rightIff⟩
  rcases readTemperature_spec (sensorText first before n after) [] alive with
    ⟨fuel, result, called, summarised⟩
  rw [outcome, ← offset, place] at summarised
  simp only [converted, window, left, converts] at summarised
  cases result with
  | error thrown => cases summarised
  | ok reading =>
      have read : reading.temperature = .finite temperature :=
        congrArg Prod.snd (Except.ok.inj summarised)
      rw [← rightIff]
      constructor
      · rintro ⟨more, other, otherCalled, right⟩
        cases readTemperature_unique called otherCalled
        rw [read] at right
        exact Double.finite.inj right
      · intro right
        exact ⟨fuel, reading, called, by rw [read, right]⟩

/-- A number in thousandths of a degree is decoded exactly when it is zero, or has five
digits, or a minus sign and four digits. -/
theorem decodes_iff (n : Int) {first before : Str} (after : Str) (firstLine : '\n' ∉ first)
    (noPrefix : find temperaturePrefix first = none) (secondLine : '\n' ∉ before)
    (firstOccurrence : find temperaturePrefix (before ++ temperaturePrefix) = some before.length)
    {sensor : Stream} (good : sensor.good) :
    Decodes (sensorText first before n after) n sensor ↔
      n = 0 ∨ 10000 ≤ n ∧ n ≤ 99999 ∨ -9999 ≤ n ∧ n ≤ -1000 := by
  have alive : sensor.failbit = false := by
    rw [Stream.good, Bool.and_eq_true, Bool.not_eq_true', Bool.not_eq_true'] at good
    exact good.2
  exact decodes_iff_fits firstLine noPrefix secondLine firstOccurrence alive

/-- Some twenty degrees. -/
theorem decodes_twenty :
    Decodes (sensorText "aa YES".toList "aa ".toList 20125 []) 20125 opened :=
  (decodes_iff 20125 [] (by decide) (by decide) (by decide) (by decide) rfl).mpr (by decide)

/-- Nine degrees are read as ninety. -/
theorem nine_degrees_misread : ¬ ∀ (n : Int) (first before after : Str),
    '\n' ∉ first → find temperaturePrefix first = none → '\n' ∉ before →
    find temperaturePrefix (before ++ temperaturePrefix) = some before.length →
    Decodes (sensorText first before n after) n opened := by
  intro always
  have decoded := always 9000 "aa YES".toList "aa ".toList [] (by decide) (by decide)
    (by decide) (by decide)
  have fits := (decodes_iff_fits (by decide) (by decide) (by decide) (by decide) rfl).mp decoded
  revert fits
  unfold Fits
  decide

end

end Sentri.Modules.Temperature
