import Sentri.LibModule.JsonTotal
import Sentri.Text.JsonString

/-!
# JSON documents

The texts of JSON values, with comments between the tokens and commas behind the
last value, and what they stand for.  The parser reads every document as what it
stands for, and nothing of what follows it.
-/

namespace Sentri.LibModule.Json

open Sentri.Number Sentri.Text

/-! ## Texts of values -/

/-- Blanks and comments. -/
inductive Gap : Str → Prop
  | nil : Gap []
  | blank {c : Char} {gap : Str} : isSpace c → Gap gap → Gap (c :: gap)
  | comment {line gap : Str} {stop : Char} : (∀ c ∈ line, c ≠ '\r' ∧ c ≠ '\n') →
      stop = '\r' ∨ stop = '\n' → Gap gap → Gap ('/' :: '/' :: (line ++ stop :: gap))

/-- The text of a string between its quotation marks, and the string.  A code unit
is cut to a `char`. -/
inductive StringText : Str → Str → Prop
  | nil : StringText [] []
  | plain {c : Char} {text value : Str} : c ≠ '"' → c ≠ '\\' → StringText text value →
      StringText (c :: text) (c :: value)
  | escape {letter c : Char} {text value : Str} : JsonString.unescape letter = some c →
      StringText text value → StringText ('\\' :: letter :: text) (c :: value)
  | unicode {a b c d : Char} {unit : Nat} {text value : Str} :
      JsonString.codeUnit [a, b, c, d] = some unit → StringText text value →
      StringText ('\\' :: 'u' :: a :: b :: c :: d :: text) (toChar unit :: value)

/-- Decimal digits. -/
def Digits (text : Str) : Prop :=
  ∀ c ∈ text, c.isDigit

/-- The text of the digits behind the point, and these digits. -/
inductive PointText : Str → Str → Prop
  | none : PointText [] []
  | some {fraction : Str} : Digits fraction → fraction ≠ [] → PointText ('.' :: fraction) fraction

/-- The text of an exponent, and the exponent. -/
inductive ExponentText : Str → Int → Prop
  | none : ExponentText [] 0
  | unsigned {mark : Char} {digits : Str} : mark = 'e' ∨ mark = 'E' → Digits digits →
      digits ≠ [] → ExponentText (mark :: digits) (ofDigits 10 digits)
  | plus {mark : Char} {digits : Str} : mark = 'e' ∨ mark = 'E' → Digits digits →
      digits ≠ [] → ExponentText (mark :: '+' :: digits) (ofDigits 10 digits)
  | minus {mark : Char} {digits : Str} : mark = 'e' ∨ mark = 'E' → Digits digits →
      digits ≠ [] → ExponentText (mark :: '-' :: digits) (-ofDigits 10 digits)

/-- The text of a number and the `long double` next to it. -/
inductive NumberText : Str → Rat → Prop
  | number {negative : Bool} {whole point fraction exponentText : Str} {exponent : Int} {x : Rat} :
      Digits whole → whole ≠ [] → PointText point fraction →
      ExponentText exponentText exponent →
      x = roundToLongDouble (signOf negative *
        (ofDigits 10 (whole ++ fraction) * (10 : Rat) ^ (exponent - fraction.length))) →
      |x| < 2 ^ 16384 → NumberText (signed negative (whole ++ point ++ exponentText)) x

/-- Something follows that does not continue a number. -/
def Stops : Str → Prop
  | [] => False
  | c :: _ => isDigitOf 10 c = false ∧ c ≠ '.' ∧ c ≠ 'e' ∧ c ≠ 'E'

/-- What a text stands for: a value, the values of an array up to its end, or the
entries of an object up to its end. -/
inductive Form where
  | value (value : Value)
  | elements (values : List Value)
  | members (entries : List (Str × Value))

/-- Fill an object in the order of the text. -/
def fill (object : Object) (entries : List (Str × Value)) : Object :=
  entries.foldl (fun object entry => Object.insert entry.1 entry.2 object) object

/-- The text of a form, with what follows it. -/
inductive Reads : Form → Str → Str → Prop
  | string {body text rest : Str} : StringText body text →
      Reads (.value (.string text)) ('"' :: (body ++ '"' :: rest)) rest
  | number {text rest : Str} {x : Rat} : NumberText text x → Stops rest →
      Reads (.value (.number x)) (text ++ rest) rest
  | boolTrue {rest : Str} : Reads (.value (.boolean true)) ("true".toList ++ rest) rest
  | boolFalse {rest : Str} : Reads (.value (.boolean false)) ("false".toList ++ rest) rest
  | null {rest : Str} : Reads (.value .null) ("null".toList ++ rest) rest
  | emptyArray {gap rest : Str} : Gap gap →
      Reads (.value (.array [])) ('[' :: (gap ++ ']' :: rest)) rest
  | array {gap text rest : Str} {values : List Value} : Gap gap →
      Reads (.elements values) text rest →
      Reads (.value (.array values)) ('[' :: (gap ++ text)) rest
  | emptyObject {gap rest : Str} : Gap gap →
      Reads (.value (.object [])) ('\x7b' :: (gap ++ '\x7d' :: rest)) rest
  | object {gap text rest : Str} {entries : List (Str × Value)} : Gap gap →
      Reads (.members entries) text rest →
      Reads (.value (.object (fill [] entries))) ('\x7b' :: (gap ++ text)) rest
  | lastElement {gap text rest : Str} {value : Value} : Gap gap →
      Reads (.value value) text (gap ++ ']' :: rest) → Reads (.elements [value]) text rest
  | commaElement {gap gap' text rest : Str} {value : Value} : Gap gap → Gap gap' →
      Reads (.value value) text (gap ++ ',' :: (gap' ++ ']' :: rest)) →
      Reads (.elements [value]) text rest
  | nextElement {gap gap' text more rest : Str} {value : Value} {values : List Value} :
      Gap gap → Gap gap' → Reads (.value value) text (gap ++ ',' :: (gap' ++ more)) →
      Reads (.elements values) more rest → Reads (.elements (value :: values)) text rest
  | lastMember {gap gap' gap'' body key text rest : Str} {value : Value} :
      StringText body key → Gap gap → Gap gap' → Gap gap'' →
      Reads (.value value) text (gap'' ++ '\x7d' :: rest) →
      Reads (.members [(key, value)]) ('"' :: (body ++ '"' :: (gap ++ ':' :: (gap' ++ text)))) rest
  | commaMember {gap gap' gap'' last body key text rest : Str} {value : Value} :
      StringText body key → Gap gap → Gap gap' → Gap gap'' → Gap last →
      Reads (.value value) text (gap'' ++ ',' :: (last ++ '\x7d' :: rest)) →
      Reads (.members [(key, value)]) ('"' :: (body ++ '"' :: (gap ++ ':' :: (gap' ++ text)))) rest
  | nextMember {gap gap' gap'' last body key text more rest : Str} {value : Value}
      {entries : List (Str × Value)} :
      StringText body key → Gap gap → Gap gap' → Gap gap'' → Gap last →
      Reads (.value value) text (gap'' ++ ',' :: (last ++ more)) →
      Reads (.members entries) more rest →
      Reads (.members ((key, value) :: entries))
        ('"' :: (body ++ '"' :: (gap ++ ':' :: (gap' ++ text)))) rest

/-! ## Tokens -/

/-- A character that is neither blank nor the start of a comment. -/
structure Solid (c : Char) : Prop where
  noSpace : isSpace c = false
  noSlash : c ≠ '/'

theorem skipLine_between (passed : Str) {line : Str} (inLine : ∀ c ∈ line, c ≠ '\r' ∧ c ≠ '\n')
    {stop : Char} (stops : stop = '\r' ∨ stop = '\n') (rest : Str) :
    ∃ passed', skipLine (Stream.between passed (line ++ stop :: rest)) =
      (Stream.between passed' (stop :: rest)).ws := by
  have all : ∀ c ∈ line, (c ≠ '\r' && c ≠ '\n') = true := by
    intro c member
    simpa using inLine c member
  have ends : ¬(stop ≠ '\r' && stop ≠ '\n') = true := by
    rcases stops with rfl | rfl <;> decide
  have dropped : (line ++ stop :: rest).dropWhile (fun c => c ≠ '\r' && c ≠ '\n') =
      stop :: rest := by
    rw [List.dropWhile_append_of_pos all, List.dropWhile_cons_of_neg (by exact ends)]
  have taken : (line ++ stop :: rest).takeWhile (fun c => c ≠ '\r' && c ≠ '\n') = line := by
    rw [List.takeWhile_append_of_pos all, List.takeWhile_cons_of_neg (by exact ends),
      List.append_nil]
  refine ⟨line.reverse ++ passed, ?_⟩
  simp only [skipLine, Stream.between, dropped, taken]
  rfl

/-- The loop gets past blanks and comments. -/
theorem matchLoop_gap {gap : Str} (isGap : Gap gap) {c d : Char} (noSlash : c ≠ '/')
    (solid : Solid d) (pattern rest : Str) {fuel : Nat} (ch : Char) (passed : Str)
    (enough : (Stream.between passed (gap ++ d :: rest)).ws.left.length +
      (pattern.length + 1) < fuel) :
    ∃ fuel' ch' passed', (d :: rest).length + (pattern.length + 1) < fuel' ∧
      matchLoop fuel ch [] (c :: pattern) (Stream.between passed (gap ++ d :: rest)).ws =
        matchLoop fuel' ch' [] (c :: pattern) (Stream.between passed' (d :: rest)) := by
  induction isGap generalizing fuel ch passed with
  | nil =>
      rw [List.nil_append, Stream.ws_between solid.noSpace] at enough ⊢
      exact ⟨fuel, ch, passed, enough, rfl⟩
  | @blank b gap blank _ ih =>
      have skipped := @Stream.ws_blank passed b (gap ++ d :: rest) blank
      rw [List.cons_append, skipped] at enough ⊢
      exact ih ch _ enough
  | @comment line gap stop inLine stops _ ih =>
      have start := @Stream.ws_between passed '/' ('/' :: (line ++ stop :: gap) ++ d :: rest) rfl
      rw [List.cons_append, start] at enough ⊢
      obtain ⟨fuel, rfl⟩ : ∃ more, fuel = more + 1 := ⟨fuel - 1, by omega⟩
      rcases skipLine_between ('/' :: '/' :: passed) inLine stops (gap ++ d :: rest) with
        ⟨behind, skipped⟩
      have blank : isSpace stop := by
        rcases stops with rfl | rfl <;> rfl
      rw [Stream.ws_blank blank] at skipped
      have step : matchLoop (fuel + 1) ch [] (c :: pattern)
          (Stream.between passed ('/' :: ('/' :: (line ++ stop :: gap) ++ d :: rest))) =
            matchLoop fuel '/' [] (c :: pattern)
              (Stream.between (stop :: behind) (gap ++ d :: rest)).ws := by
        rw [matchLoop, if_pos (Stream.good_between _ _), Stream.get_between]
        simp only [Option.getD_some, if_neg (Ne.symm noSlash), Stream.putback_between]
        have text : '/' :: (line ++ stop :: gap) ++ d :: rest =
            '/' :: (line ++ stop :: (gap ++ d :: rest)) := by simp
        rw [text, parseComment_slash, skipped]
      rw [step]
      apply ih
      have shorter := ws_left_le (Stream.between (stop :: behind) (gap ++ d :: rest))
      simp only [Stream.between, List.length_cons, List.length_append] at enough shorter ⊢
      omega

/-- A pattern at the position is taken. -/
theorem matchLoop_plain (pattern rest : Str) {fuel : Nat} (ch : Char) (taken passed : Str)
    (enough : pattern.length < fuel) :
    ∃ passed', matchLoop fuel ch taken pattern (Stream.between passed (pattern ++ rest)) =
      some (true, Stream.between passed' rest) := by
  induction pattern generalizing fuel ch taken passed with
  | nil =>
      obtain ⟨fuel, rfl⟩ : ∃ more, fuel = more + 1 := ⟨fuel - 1, by omega⟩
      exact ⟨passed, rfl⟩
  | cons c pattern ih =>
      obtain ⟨fuel, rfl⟩ : ∃ more, fuel = more + 1 := ⟨fuel - 1, by omega⟩
      rw [List.cons_append, matchLoop, if_pos (Stream.good_between _ _), Stream.get_between]
      simp only [Option.getD_some, if_true]
      exact ih c (c :: taken) (c :: passed) (Nat.lt_of_succ_lt_succ enough)

variable {gap : Str} (isGap : Gap gap)

include isGap in
theorem matchPattern_hit {c : Char} (solid : Solid c) (pattern rest passed : Str) :
    ∃ passed', matchPattern (c :: pattern) (Stream.between passed (gap ++ (c :: pattern ++ rest))) =
      some (true, Stream.between passed' rest) := by
  rcases matchLoop_gap isGap solid.noSlash solid pattern (pattern ++ rest) nul passed
    (Nat.lt_succ_self _) with ⟨fuel, ch, behind, enough, equal⟩
  rcases matchLoop_plain (c :: pattern) rest ch [] behind
    (show (c :: pattern).length < fuel by simp only [List.length_cons] at enough ⊢; omega) with
    ⟨passed', taken⟩
  exact ⟨passed', equal.trans taken⟩

include isGap in
/-- Another character stays, but not the blanks and comments before it. -/
theorem matchPattern_miss {c d : Char} (noSlash : c ≠ '/') (solid : Solid d) (different : d ≠ c)
    (pattern rest passed : Str) :
    ∃ passed', matchPattern (c :: pattern) (Stream.between passed (gap ++ d :: rest)) =
      some (false, Stream.between passed' (d :: rest)) := by
  rcases matchLoop_gap isGap noSlash solid pattern rest nul passed
    (Nat.lt_succ_self _) with ⟨fuel, ch, behind, enough, equal⟩
  refine ⟨behind, equal.trans ?_⟩
  obtain ⟨fuel, rfl⟩ : ∃ more, fuel = more + 1 := ⟨fuel - 1, by omega⟩
  rw [matchLoop, if_pos (Stream.good_between _ _), Stream.get_between]
  simp only [Option.getD_some, if_neg different, Stream.putback_between]
  rw [parseComment_other solid.noSlash]
  rfl

/-! ## Strings -/

theorem hexDigit_mem {c : Char} (digit : isDigitOf 16 c = true) :
    c ∈ "0123456789abcdefABCDEF".toList := by
  have ranges : 48 ≤ c.toNat ∧ c.toNat ≤ 57 ∨ 97 ≤ c.toNat ∧ c.toNat ≤ 102 ∨
      65 ≤ c.toNat ∧ c.toNat ≤ 70 := by
    simp only [isDigitOf, digitValue] at digit
    split_ifs at digit with isDigit isLower isUpper
    · left
      simpa [Char.isDigit, UInt32.le_iff_toNat_le] using isDigit
    · right
      left
      have lower : 97 ≤ c.toNat ∧ c.toNat ≤ 122 := by
        change (decide (c.val ≥ 'a'.val) && decide (c.val ≤ 'z'.val)) = Bool.true at isLower
        simpa [UInt32.le_iff_toNat_le] using isLower
      simp at digit
      omega
    · right
      right
      have upper : 65 ≤ c.toNat ∧ c.toNat ≤ 90 := by
        change decide (c.val ≥ 'A'.val ∧ c.val ≤ 'Z'.val) = Bool.true at isUpper
        simpa [UInt32.le_iff_toNat_le] using isUpper
      simp at digit
      omega
    · cases digit
  rw [← Char.ofNat_toNat c]
  rcases ranges with ⟨lower, upper⟩ | ⟨lower, upper⟩ | ⟨lower, upper⟩ <;>
    interval_cases c.toNat <;> decide

/-- A property of the hexadecimal digits. -/
theorem forall_hexDigit {holds : Char → Bool}
    (all : "0123456789abcdefABCDEF".toList.all holds = true) {c : Char}
    (digit : isDigitOf 16 c = true) : holds c = true :=
  List.all_eq_true.mp all c (hexDigit_mem digit)

/-- Four hexadecimal digits are read as their code unit. -/
theorem readHex_of_codeUnit {a b c d : Char} {unit : Nat}
    (read : JsonString.codeUnit [a, b, c, d] = some unit) :
    readHex [a, b, c, d] = some (unit : Int) := by
  unfold JsonString.codeUnit at read
  split at read
  · rename_i all
    have digits := List.all_eq_true.mp all
    have head : (!isSpace a && a ≠ '-' && a ≠ '+') = true :=
      @forall_hexDigit (fun a => !isSpace a && a ≠ '-' && a ≠ '+') (by decide +kernel) a
        (digits a (by simp))
    have second : decide (b.toLower ≠ 'x') = true :=
      @forall_hexDigit (fun b => b.toLower ≠ 'x') (by decide +kernel) b (digits b (by simp))
    simp only [Bool.and_eq_true, Bool.not_eq_true', decide_eq_true_eq] at head second
    rcases head with ⟨⟨noSpace, noMinus⟩, noPlus⟩
    have sign : readSign [a, b, c, d] = (1, [a, b, c, d]) := by
      unfold readSign
      split
      · simp_all
      · simp_all
      · rfl
    have noMark : dropHexMark [a, b, c, d] = [a, b, c, d] := by
      unfold dropHexMark
      split
      · rename_i equal
        cases equal
        rw [if_neg second]
      · rfl
    have whole : [a, b, c, d].takeWhile (isDigitOf 16) = [a, b, c, d] :=
      List.takeWhile_eq_self_iff.mpr digits
    have value : ofDigits 16 [a, b, c, d] = unit := Option.some.inj read
    unfold readHex
    rw [List.dropWhile_cons_of_neg (by simp [noSpace]), sign]
    dsimp only
    rw [noMark, whole, value, if_neg (List.cons_ne_nil _ _), one_mul]
  · cases read

theorem parseEscape_unicode (delimiter : Char) {a b c d : Char} {unit : Nat}
    (read : JsonString.codeUnit [a, b, c, d] = some unit) (passed : Str) (rest : Str) :
    ∃ last passed', parseEscape delimiter 'u' (Stream.between passed (a :: b :: c :: d :: rest)) =
      ([toChar unit], last, Stream.between passed' rest) := by
  refine ⟨d, d :: c :: b :: a :: passed, ?_⟩
  simp [parseEscape, getFour, readHex_of_codeUnit read]

theorem parseEscape_letter {letter c : Char} (escape : JsonString.unescape letter = some c)
    (stream : Stream) : parseEscape '"' letter stream = ([c], letter, stream) := by
  unfold JsonString.unescape at escape
  split at escape <;> cases escape <;> rfl

/-- A string is read up to its closing quotation mark. -/
theorem stringLoop_text {body text : Str} (isText : StringText body text) (rest : Str)
    {fuel : Nat} (ch : Char) (value passed : Str) (enough : body.length < fuel) :
    ∃ passed', stringLoop '"' fuel ch value (Stream.between passed (body ++ '"' :: rest)) =
      some (some (value ++ text), Stream.between passed' rest) := by
  induction isText generalizing fuel ch value passed with
  | nil =>
      obtain ⟨fuel, rfl⟩ : ∃ more, fuel = more + 1 := ⟨fuel - 1, by omega⟩
      refine ⟨'"' :: passed, ?_⟩
      simp [stringLoop, Stream.between, Stream.good, Stream.get]
  | @plain c body text noDelimiter noEscape _ ih =>
      obtain ⟨fuel, rfl⟩ : ∃ more, fuel = more + 1 := ⟨fuel - 1, by omega⟩
      rcases ih c (value ++ [c]) (c :: passed) (Nat.lt_of_succ_lt_succ enough) with
        ⟨passed', read⟩
      refine ⟨passed', ?_⟩
      rw [List.append_assoc] at read
      rw [List.cons_append, stringLoop, if_pos (Stream.good_between _ _), Stream.get_between]
      simp only [Option.getD_some, if_neg noDelimiter, if_neg noEscape]
      exact read
  | @escape letter c body text escape _ ih =>
      obtain ⟨fuel, rfl⟩ : ∃ more, fuel = more + 1 := ⟨fuel - 1, by omega⟩
      rcases ih letter (value ++ [c]) (letter :: '\\' :: passed)
        (show body.length < fuel by simp only [List.length_cons] at enough; omega) with
        ⟨passed', read⟩
      refine ⟨passed', ?_⟩
      rw [List.append_assoc] at read
      rw [List.cons_append, List.cons_append, stringLoop, if_pos (Stream.good_between _ _),
        Stream.get_between]
      simp only [Option.getD_some, Stream.get_between, parseEscape_letter escape]
      exact read
  | @unicode a b c d unit body text unicode _ ih =>
      obtain ⟨fuel, rfl⟩ : ∃ more, fuel = more + 1 := ⟨fuel - 1, by omega⟩
      rcases parseEscape_unicode '"' unicode ('u' :: '\\' :: passed) (body ++ '"' :: rest) with
        ⟨last, behind, escaped⟩
      rcases ih last (value ++ [toChar unit]) behind
        (show body.length < fuel by simp only [List.length_cons] at enough; omega) with
        ⟨passed', read⟩
      refine ⟨passed', ?_⟩
      rw [List.append_assoc] at read
      simp only [List.cons_append]
      rw [stringLoop, if_pos (Stream.good_between _ _), Stream.get_between]
      simp only [Option.getD_some, Stream.get_between, escaped]
      exact read

include isGap in
theorem parseString_hit {body text : Str} (isText : StringText body text) (rest passed : Str) :
    ∃ passed', parseString (Stream.between passed (gap ++ '"' :: (body ++ '"' :: rest))) =
      some (some text, Stream.between passed' rest) := by
  have solid : Solid '"' := ⟨rfl, by decide⟩
  rcases matchPattern_hit isGap solid [] (body ++ '"' :: rest) passed with ⟨behind, found⟩
  rcases stringLoop_text isText rest nul [] behind
    (show body.length < (body ++ '"' :: rest).length + 2 by rw [List.length_append]; omega) with
    ⟨passed', read⟩
  refine ⟨passed', ?_⟩
  have found : matchPattern ['"'] (Stream.between passed (gap ++ '"' :: (body ++ '"' :: rest))) =
      some (true, Stream.between behind (body ++ '"' :: rest)) := found
  rw [parseString, found, Option.bind_some]
  exact read

include isGap in
theorem parseString_miss {d : Char} (solid : Solid d) (noQuote : d ≠ '"' ∧ d ≠ '\x27')
    (rest passed : Str) :
    ∃ passed', parseString (Stream.between passed (gap ++ d :: rest)) =
      some (none, Stream.between passed' (d :: rest)) := by
  rcases matchPattern_miss isGap (by decide) solid noQuote.1 [] rest passed with ⟨behind, missed⟩
  refine ⟨behind, ?_⟩
  rw [parseString, missed, Option.bind_some]
  simp only [Stream.peek_between]
  split
  · rename_i equal
    cases equal
    exact absurd rfl noQuote.2
  · rename_i equal
    cases equal
    rfl

/-! ## Numbers -/

theorem digits_of_all {text : Str} (all : text.all Char.isDigit = true) : Digits text :=
  List.all_eq_true.mp all

theorem isDigitOf_of_digits {text : Str} (digits : Digits text) :
    ∀ c ∈ text, isDigitOf 10 c = true :=
  fun c member => isDigitOf_ten_of_isDigit (digits c member)

/-- Digits are read up to the first character that is none. -/
theorem span_digits {text rest : Str} (digits : Digits text)
    (stops : ∀ c ∈ rest.head?, isDigitOf 10 c = false) :
    (text ++ rest).takeWhile (isDigitOf 10) = text ∧
      (text ++ rest).dropWhile (isDigitOf 10) = rest := by
  have all := isDigitOf_of_digits digits
  rw [List.takeWhile_append_of_pos all, List.dropWhile_append_of_pos all]
  cases rest with
  | nil => simp
  | cons c rest =>
      have noDigit : ¬isDigitOf 10 c = true := by simp [stops c (by simp)]
      rw [List.takeWhile_cons_of_neg noDigit, List.dropWhile_cons_of_neg noDigit, List.append_nil]
      exact ⟨rfl, rfl⟩

theorem PointText.read {point fraction : Str} (isPoint : PointText point fraction) {rest : Str}
    (noDigit : ∀ c ∈ rest.head?, isDigitOf 10 c = false) (noPoint : ∀ c ∈ rest.head?, c ≠ '.') :
    readPoint (point ++ rest) = (point, rest) ∧ readFraction 10 (point ++ rest) = (fraction, rest) ∧
      point.drop 1 = fraction := by
  cases isPoint with
  | none =>
      refine ⟨?_, ?_, rfl⟩
      · unfold readPoint
        split
        · rename_i more equal
          rw [List.nil_append] at equal
          exact absurd rfl (noPoint '.' (by simp [equal]))
        · rfl
      · unfold readFraction
        split
        · rename_i more equal
          rw [List.nil_append] at equal
          exact absurd rfl (noPoint '.' (by simp [equal]))
        · rfl
  | some digits _ =>
      rcases span_digits digits noDigit with ⟨taken, dropped⟩
      refine ⟨?_, ?_, rfl⟩
      · simp only [List.cons_append, readPoint, taken, dropped]
      · simp only [List.cons_append, readFraction, taken, dropped]

theorem Digits.ne_sign {c : Char} {text : Str} (digits : Digits (c :: text)) :
    c ≠ '-' ∧ c ≠ '+' := by
  have digit := digits c List.mem_cons_self
  constructor
  · rintro rfl
    cases digit
  · rintro rfl
    cases digit

theorem Digits.noSign {text : Str} (digits : Digits text) (nonempty : text ≠ []) (rest : Str) :
    readSign (text ++ rest) = (1, text ++ rest) ∧
      splitSign (text ++ rest) = ([], text ++ rest) := by
  rcases List.exists_cons_of_ne_nil nonempty with ⟨c, text, rfl⟩
  rcases digits.ne_sign with ⟨noMinus, noPlus⟩
  constructor
  · unfold readSign
    split
    · simp_all
    · simp_all
    · rfl
  · unfold splitSign
    split
    · simp_all
    · simp_all
    · rfl

/-- What follows an exponent is no digit. -/
theorem Stops.head {rest : Str} (stops : Stops rest) :
    ∀ c ∈ rest.head?, isDigitOf 10 c = false ∧ c ≠ '.' ∧ c ≠ 'e' ∧ c ≠ 'E' := by
  cases rest with
  | nil => simp
  | cons c rest => simpa [Stops] using stops

theorem ExponentText.read {text : Str} {exponent : Int} (isExponent : ExponentText text exponent)
    {rest : Str} (stops : Stops rest) :
    readExponentText true (text ++ rest) = (text, rest) ∧ readExponent 'e' text = exponent ∧
      (text = [] ∨ text.any (isDigitOf 10) = true) ∧
      (∀ c ∈ (text ++ rest).head?, isDigitOf 10 c = false ∧ c ≠ '.') ∧
      (∀ c ∈ text.head?, isDigitOf 10 c = false ∧ c ≠ '.') := by
  have noDigit : ∀ c ∈ rest.head?, isDigitOf 10 c = false := fun c member => (stops.head c member).1
  have marks : ∀ {mark : Char}, mark = 'e' ∨ mark = 'E' →
      mark.toLower = 'e' ∧ (mark = 'e' || mark = 'E') = true ∧
        isDigitOf 10 mark = false ∧ mark ≠ '.' := by
    rintro mark (rfl | rfl) <;> decide
  have someDigit : ∀ {digits : Str} (more : Str), Digits digits → digits ≠ [] →
      (more ++ digits).any (isDigitOf 10) = true := by
    intro digits more isDigits nonempty
    rcases List.exists_mem_of_ne_nil _ nonempty with ⟨c, member⟩
    exact List.any_eq_true.mpr ⟨c, List.mem_append_right _ member,
      isDigitOf_of_digits isDigits c member⟩
  have taken : ∀ {digits : Str}, Digits digits → digits.takeWhile (isDigitOf 10) = digits :=
    fun isDigits => List.takeWhile_eq_self_iff.mpr (isDigitOf_of_digits isDigits)
  cases isExponent with
  | none =>
      refine ⟨?_, rfl, Or.inl rfl, ?_, by simp⟩
      · cases rest with
        | nil => cases stops
        | cons c rest =>
            have noMark := stops.head c (by simp)
            simp [readExponentText, noMark.2.2.1, noMark.2.2.2]
      · exact fun c member => ⟨(stops.head c member).1, (stops.head c member).2.1⟩
  | @unsigned mark digits isMark isDigits nonempty =>
      rcases marks isMark with ⟨lower, is, head⟩
      rcases span_digits isDigits noDigit with ⟨front, back⟩
      rcases isDigits.noSign nonempty rest with ⟨_, split⟩
      have sign := (isDigits.noSign nonempty []).1
      rw [List.append_nil] at sign
      refine ⟨?_, ?_, Or.inr (someDigit [mark] isDigits nonempty), by simpa using head,
        by simpa using head⟩
      · simp only [List.cons_append, readExponentText, Bool.true_and, is, if_true, split, front,
          back]
        rfl
      · simp [readExponent, lower, sign, taken isDigits]
  | @plus mark digits isMark isDigits nonempty =>
      rcases marks isMark with ⟨lower, is, head⟩
      rcases span_digits isDigits noDigit with ⟨front, back⟩
      refine ⟨?_, ?_, Or.inr (someDigit [mark, '+'] isDigits nonempty), by simpa using head,
        by simpa using head⟩
      · simp only [List.cons_append, readExponentText, Bool.true_and, is, if_true, splitSign, front,
          back]
        rfl
      · simp [readExponent, lower, readSign, taken isDigits]
  | @minus mark digits isMark isDigits nonempty =>
      rcases marks isMark with ⟨lower, is, head⟩
      rcases span_digits isDigits noDigit with ⟨front, back⟩
      refine ⟨?_, ?_, Or.inr (someDigit [mark, '-'] isDigits nonempty), by simpa using head,
        by simpa using head⟩
      · simp only [List.cons_append, readExponentText, Bool.true_and, is, if_true, splitSign, front,
          back]
        rfl
      · simp [readExponent, lower, readSign, taken isDigits]

theorem readLiteral_text {whole point fraction exponentText : Str} {exponent : Int}
    (digits : Digits whole) (nonempty : whole ≠ []) (isPoint : PointText point fraction)
    (isExponent : ExponentText exponentText exponent) {rest : Str} (stops : Stops rest) :
    readLiteral (whole ++ point ++ exponentText ++ rest) = ⟨whole, point, exponentText, rest⟩ ∧
      readUnsigned 10 10 1 'e' (whole ++ point ++ exponentText) =
        some (ofDigits 10 (whole ++ fraction) * (10 : Rat) ^ (exponent - fraction.length)) := by
  rcases isExponent.read stops with ⟨exponentRead, value, _, head, ownHead⟩
  have pointRest := isPoint.read (fun c member => (head c member).1)
    (fun c member => (head c member).2)
  have pointOwn := isPoint.read (fun c member => (ownHead c member).1)
    (fun c member => (ownHead c member).2)
  have stopsWhole : ∀ {more : Str}, (∀ c ∈ more.head?, isDigitOf 10 c = false) →
      ∀ c ∈ (point ++ more).head?, isDigitOf 10 c = false := by
    intro more stops c member
    cases isPoint with
    | none => exact stops c member
    | some _ _ =>
        obtain rfl : '.' = c := by simpa using member
        decide
  rcases span_digits digits (stopsWhole fun c member => (head c member).1) with ⟨front, back⟩
  rcases span_digits digits (stopsWhole fun c member => (ownHead c member).1) with ⟨own, behind⟩
  have mantissa : (!(whole ++ fraction).isEmpty) = true := by simp [nonempty]
  constructor
  · have shape : whole ++ point ++ exponentText ++ rest =
        whole ++ (point ++ (exponentText ++ rest)) := by simp
    rw [shape]
    simp only [readLiteral, front, back, pointRest.1, pointRest.2.2, mantissa, exponentRead]
  · have hasDigits : ¬whole ++ fraction = [] := by simp [nonempty]
    rw [List.append_assoc]
    simp only [readUnsigned, own, behind, pointOwn.2.1, value, if_neg hasDigits]
    rw [Nat.cast_one, one_mul]

theorem signed_read (negative : Bool) {whole : Str} (digits : Digits whole) (nonempty : whole ≠ [])
    (more : Str) :
    ∃ c rest, signed negative (whole ++ more) = c :: rest ∧ isSpace c = false ∧
      splitSign (signed negative (whole ++ more)) =
        (if negative then ['-'] else [], whole ++ more) ∧
      (readSign (signed negative (whole ++ more))).1 = signOf negative := by
  cases negative with
  | true => exact ⟨'-', whole ++ more, rfl, rfl, rfl, rfl⟩
  | false =>
      rcases digits.noSign nonempty more with ⟨sign, split⟩
      rcases List.exists_cons_of_ne_nil nonempty with ⟨c, whole, rfl⟩
      have noSpace : (!isSpace c) = true :=
        @forall_digit (fun c => !isSpace c) (by decide) c (digits c List.mem_cons_self)
      refine ⟨c, whole ++ more, rfl, by simpa using noSpace, split, ?_⟩
      change (readSign (c :: whole ++ more)).1 = 1
      rw [sign]

/-- A number is read up to what does not continue it. -/
theorem parseNumber_hit {text : Str} {x : Rat} (isNumber : NumberText text x) {rest : Str}
    (stops : Stops rest) (passed : Str) :
    ∃ passed', parseNumber (Stream.between passed (text ++ rest)) =
      (some x, Stream.between passed' rest) := by
  cases isNumber with
  | @number negative whole point fraction exponentText exponent _ digits nonempty isPoint isExponent
      value inRange =>
      rcases readLiteral_text digits nonempty isPoint isExponent stops with ⟨literal, unsigned⟩
      have full := (isExponent.read stops).2.2.1
      have literalValue : (Literal.mk whole point exponentText rest).value (signOf negative) =
          some x := by
        rw [Literal.value, if_pos full]
        simp only [unsigned, Option.bind_some]
        rw [← value, if_neg (not_le.mpr inRange)]
      have notEmpty : rest.isEmpty = false := by
        cases rest with
        | nil => cases stops
        | cons => rfl
      rcases signed_read negative digits nonempty (point ++ exponentText ++ rest) with
        ⟨c, more, isCons, noSpace, split, factor⟩
      have shape : signed negative (whole ++ point ++ exponentText) ++ rest = c :: more := by
        have assoc : whole ++ (point ++ exponentText ++ rest) =
            (whole ++ point ++ exponentText) ++ rest := by simp
        rw [← isCons, assoc]
        exact (signed_append negative _ rest).symm
      have literalRead : readLiteral (whole ++ (point ++ exponentText ++ rest)) =
          ⟨whole, point, exponentText, rest⟩ := by
        rw [← literal]
        simp
      refine ⟨((if negative then ['-'] else []) ++ whole ++ point ++ exponentText).reverse ++
        passed, ?_⟩
      rw [isCons] at split factor
      rw [shape, parseNumber, Stream.ws_between noSpace, if_pos (Stream.good_between _ _)]
      simp only [Stream.between, split, factor, literalRead, literalValue, notEmpty]

/-! ## Words -/

/-- A character that starts neither a string nor a number. -/
structure Word (c : Char) : Prop where
  solid : Solid c
  noQuote : c ≠ '"' ∧ c ≠ '\x27'
  noDigit : isDigitOf 10 c = false
  noSign : c ≠ '-' ∧ c ≠ '+'
  noPoint : c ≠ '.'

theorem parseNumber_miss {c : Char} (word : Word c) (rest passed : Str) :
    parseNumber (Stream.between passed (c :: rest)) =
      (none, Stream.between passed (c :: rest)) := by
  have split : splitSign (c :: rest) = ([], c :: rest) := by
    unfold splitSign
    split
    · simp_all [word.noSign.1]
    · simp_all [word.noSign.2]
    · rfl
  have noDigit : ¬isDigitOf 10 c = true := by simp [word.noDigit]
  have literal : readLiteral (c :: rest) = ⟨[], [], [], c :: rest⟩ := by
    have point : readPoint (c :: rest) = ([], c :: rest) := by
      unfold readPoint
      split
      · rename_i equal
        exact absurd (List.head_eq_of_cons_eq equal) word.noPoint
      · rfl
    simp only [readLiteral, List.takeWhile_cons_of_neg noDigit, List.dropWhile_cons_of_neg noDigit,
      point, List.drop_nil, List.append_nil, List.isEmpty_nil, Bool.not_true, readExponentText,
      Bool.false_and, Bool.false_eq_true, if_false]
  have value : ∀ sign, (Literal.mk [] [] [] (c :: rest)).value sign = none := by
    intro sign
    rfl
  rw [parseNumber, Stream.ws_between word.solid.noSpace, if_pos (Stream.good_between _ _)]
  simp only [Stream.between, split, literal, value]

include isGap in
/-- A word is reached behind blanks and comments. -/
theorem parseValue_word {c : Char} (word : Word c) (rest passed : Str) :
    ∃ passed', ∀ fuel, parseValue (fuel + 1) (Stream.between passed (gap ++ c :: rest)) =
      parseWord (parseArray fuel) (parseObjectValue fuel) (Stream.between passed' (c :: rest)) := by
  rcases parseString_miss isGap word.solid word.noQuote rest passed with ⟨behind, missed⟩
  refine ⟨behind, ?_⟩
  intro fuel
  rw [parseValue, missed, Option.bind_some]
  simp only [parseNumber_miss word]

section

variable (array : Stream → Option (Option (List Value) × Stream))
  (object : Stream → Option (Option Value × Stream)) (rest passed : Str)

theorem parseBool_miss {c : Char} (solid : Solid c) (other : c ≠ 't' ∧ c ≠ 'f') :
    ∃ passed', parseBool (Stream.between passed (c :: rest)) =
      some (none, Stream.between passed' (c :: rest)) := by
  rcases matchPattern_miss Gap.nil (show 't' ≠ '/' by decide) solid other.1 "rue".toList
    rest passed with
    ⟨middle, first⟩
  rcases matchPattern_miss Gap.nil (show 'f' ≠ '/' by decide) solid other.2 "alse".toList
    rest middle with
    ⟨behind, second⟩
  have first : matchPattern "true".toList (Stream.between passed (c :: rest)) =
      some (false, Stream.between middle (c :: rest)) := first
  have second : matchPattern "false".toList (Stream.between middle (c :: rest)) =
      some (false, Stream.between behind (c :: rest)) := second
  refine ⟨behind, ?_⟩
  rw [parseBool, first, Option.bind_some]
  dsimp only
  rw [second]
  rfl

theorem parseNull_miss {c : Char} (solid : Solid c) (other : c ≠ 'n') (noComma : c ≠ ',') :
    ∃ passed', parseNull (Stream.between passed (c :: rest)) =
      some (false, Stream.between passed' (c :: rest)) := by
  rcases matchPattern_miss Gap.nil (show 'n' ≠ '/' by decide) solid other "ull".toList
    rest passed with
    ⟨behind, missed⟩
  have missed : matchPattern "null".toList (Stream.between passed (c :: rest)) =
      some (false, Stream.between behind (c :: rest)) := missed
  refine ⟨behind, ?_⟩
  have comma : decide (some c = some ',') = false := by simpa using noComma
  rw [parseNull, missed, Option.map_some]
  exact congrArg (fun found => some (found, Stream.between behind (c :: rest))) comma

theorem parseWord_true : ∃ passed', parseWord array object
    (Stream.between passed ("true".toList ++ rest)) =
      some (some (.boolean true), Stream.between passed' rest) := by
  rcases matchPattern_hit Gap.nil (show Solid 't' from ⟨rfl, by decide⟩) "rue".toList
    rest passed with
    ⟨behind, found⟩
  have found : matchPattern "true".toList (Stream.between passed ("true".toList ++ rest)) =
      some (true, Stream.between behind rest) := found
  refine ⟨behind, ?_⟩
  rw [parseWord, parseBool, found]
  rfl

theorem parseWord_false : ∃ passed', parseWord array object
    (Stream.between passed ("false".toList ++ rest)) =
      some (some (.boolean false), Stream.between passed' rest) := by
  rcases matchPattern_miss Gap.nil (show 't' ≠ '/' by decide) (show Solid 'f' from ⟨rfl, by decide⟩)
    (by decide) "rue".toList ("alse".toList ++ rest) passed with ⟨middle, first⟩
  rcases matchPattern_hit Gap.nil (show Solid 'f' from ⟨rfl, by decide⟩) "alse".toList
    rest middle with
    ⟨behind, second⟩
  have first : matchPattern "true".toList (Stream.between passed ("false".toList ++ rest)) =
      some (false, Stream.between middle ("false".toList ++ rest)) := first
  have second : matchPattern "false".toList (Stream.between middle ("false".toList ++ rest)) =
      some (true, Stream.between behind rest) := second
  refine ⟨behind, ?_⟩
  rw [parseWord, parseBool, first, Option.bind_some]
  dsimp only
  rw [second]
  rfl

theorem parseWord_null : ∃ passed', parseWord array object
    (Stream.between passed ("null".toList ++ rest)) =
      some (some .null, Stream.between passed' rest) := by
  have solid : Solid 'n' := ⟨rfl, by decide⟩
  rcases parseBool_miss ("ull".toList ++ rest) passed solid (by decide) with ⟨middle, missed⟩
  rcases matchPattern_hit Gap.nil solid "ull".toList rest middle with ⟨behind, found⟩
  have missed : parseBool (Stream.between passed ("null".toList ++ rest)) =
      some (none, Stream.between middle ("null".toList ++ rest)) := missed
  have found : matchPattern "null".toList (Stream.between middle ("null".toList ++ rest)) =
      some (true, Stream.between behind rest) := found
  refine ⟨behind, ?_⟩
  rw [parseWord, missed, Option.bind_some]
  dsimp only
  rw [parseNull, found]
  rfl

/-- No word: an array, an object or nothing. -/
theorem parseWord_other {c : Char} (solid : Solid c) (other : c ≠ 't' ∧ c ≠ 'f' ∧ c ≠ 'n')
    (noComma : c ≠ ',') :
    ∃ passed', ∀ (array : Stream → Option (Option (List Value) × Stream))
      (object : Stream → Option (Option Value × Stream)),
      parseWord array object (Stream.between passed (c :: rest)) =
        if c = '[' then
          (array (Stream.between passed' (c :: rest))).bind fun
          | (some values, stream) => some (some (.array values), stream)
          | (none, stream) => object stream
        else
          object (Stream.between passed' (c :: rest)) := by
  rcases parseBool_miss rest passed solid ⟨other.1, other.2.1⟩ with ⟨middle, missed⟩
  rcases parseNull_miss rest middle solid other.2.2 noComma with ⟨behind, null⟩
  refine ⟨behind, ?_⟩
  intro array object
  rw [parseWord, missed, Option.bind_some]
  dsimp only
  rw [null, Option.bind_some]
  simp only [Stream.peek_between]
  by_cases opens : c = '['
  · subst opens
    rw [if_pos rfl]
    rfl
  · rw [if_neg opens]
    split
    · rename_i equal
      cases equal
      exact absurd rfl opens
    · rename_i equal
      cases equal
      rfl

end

/-! ## Documents -/

/-- The parser reads a form at any position behind blanks and comments. -/
def Parses : Form → Str → Str → Prop
  | .value value, text, rest => ∀ passed gap, Gap gap → ∃ fuel passed',
      parseValue fuel (Stream.between passed (gap ++ text)) =
        some (some value, Stream.between passed' rest)
  | .elements values, text, rest => ∀ passed gap before, Gap gap → ∃ fuel passed',
      parseElements fuel before (Stream.between passed (gap ++ text)) =
        some (before ++ values, Stream.between passed' (']' :: rest))
  | .members entries, text, rest => ∀ passed gap before, Gap gap → ∃ fuel passed',
      parseMembers fuel before (Stream.between passed (gap ++ text)) =
        some (true, fill before entries, Stream.between passed' ('\x7d' :: rest))

theorem parseElements_mono {fuel more : Nat} (le : fuel ≤ more) {values : List Value}
    {stream : Stream} {result : List Value × Stream}
    (is : parseElements fuel values stream = some result) :
    parseElements more values stream = some result := by
  induction le with
  | refl => exact is
  | step _ ih => exact (grows _).elements _ _ _ ih

theorem parseMembers_mono {fuel more : Nat} (le : fuel ≤ more) {entries : Object}
    {stream : Stream} {result : Bool × Object × Stream}
    (is : parseMembers fuel entries stream = some result) :
    parseMembers more entries stream = some result := by
  induction le with
  | refl => exact is
  | step _ ih => exact (grows _).members _ _ _ ih

theorem word_bracket : Word '[' :=
  ⟨⟨rfl, by decide⟩, by decide, rfl, by decide, by decide⟩

theorem word_brace : Word '\x7b' :=
  ⟨⟨rfl, by decide⟩, by decide, rfl, by decide, by decide⟩

theorem word_end : Word ']' :=
  ⟨⟨rfl, by decide⟩, by decide, rfl, by decide, by decide⟩

/-- The first character of a value or of the entries of an object. -/
def Starts : Form → Char → Prop
  | .value _, c | .elements _, c => Solid c ∧ c ≠ ']'
  | .members _, c => c = '"'

theorem Reads.starts {form : Form} {text rest : Str} (reads : Reads form text rest) :
    ∃ c more, text = c :: more ∧ Starts form c := by
  induction reads with
  | string => exact ⟨_, _, rfl, ⟨rfl, by decide⟩, by decide⟩
  | @number text rest x isNumber =>
      cases isNumber with
      | @number negative whole point fraction exponentText exponent _ digits nonempty =>
          rcases List.exists_cons_of_ne_nil nonempty with ⟨c, whole, rfl⟩
          cases negative with
          | true => exact ⟨_, _, rfl, ⟨rfl, by decide⟩, by decide⟩
          | false =>
              have facts : (!isSpace c && c ≠ '/' && c ≠ ']') = true :=
                @forall_digit (fun c => !isSpace c && c ≠ '/' && c ≠ ']') (by decide) c
                  (digits c List.mem_cons_self)
              simp only [Bool.and_eq_true, Bool.not_eq_true', decide_eq_true_eq] at facts
              exact ⟨c, _, rfl, ⟨facts.1.1, facts.1.2⟩, facts.2⟩
  | boolTrue | boolFalse | null => exact ⟨_, _, rfl, ⟨rfl, by decide⟩, by decide⟩
  | emptyArray | array | emptyObject | object => exact ⟨_, _, rfl, ⟨rfl, by decide⟩, by decide⟩
  | lastElement _ _ ih => exact ih
  | commaElement _ _ _ ih => exact ih
  | nextElement _ _ _ _ ih => exact ih
  | lastMember | commaMember | nextMember => exact ⟨_, _, rfl, rfl⟩

namespace Parses

theorem string {body text : Str} (isText : StringText body text) (rest : Str) :
    Parses (.value (.string text)) ('"' :: (body ++ '"' :: rest)) rest := by
  intro passed gap isGap
  rcases parseString_hit isGap isText rest passed with ⟨behind, read⟩
  refine ⟨1, behind, ?_⟩
  rw [parseValue, read]
  rfl

theorem number {text : Str} {x : Rat} (isNumber : NumberText text x) {rest : Str}
    (stops : Stops rest) : Parses (.value (.number x)) (text ++ rest) rest := by
  intro passed gap isGap
  have starts : ∃ c more, text ++ rest = c :: more ∧ Solid c ∧ c ≠ '"' ∧ c ≠ '\x27' := by
    cases isNumber with
    | @number negative whole point fraction exponentText exponent _ digits nonempty =>
        rcases List.exists_cons_of_ne_nil nonempty with ⟨c, whole, rfl⟩
        cases negative with
        | true => exact ⟨_, _, rfl, ⟨rfl, by decide⟩, by decide, by decide⟩
        | false =>
            have facts : (!isSpace c && c ≠ '/' && c ≠ '"' && c ≠ '\x27') = true :=
              @forall_digit (fun c => !isSpace c && c ≠ '/' && c ≠ '"' && c ≠ '\x27') (by decide) c
                (digits c List.mem_cons_self)
            simp only [Bool.and_eq_true, Bool.not_eq_true', decide_eq_true_eq] at facts
            exact ⟨c, _, rfl, ⟨facts.1.1.1, facts.1.1.2⟩, facts.1.2, facts.2⟩
  rcases starts with ⟨c, more, shape, solid, noQuote⟩
  rcases parseString_miss isGap solid noQuote more passed with ⟨middle, missed⟩
  rcases parseNumber_hit isNumber stops middle with ⟨behind, read⟩
  rw [← shape] at missed
  refine ⟨1, behind, ?_⟩
  rw [parseValue, missed, Option.bind_some]
  simp only [read]

/-- A value that begins with a word. -/
theorem ofWord {c : Char} (word : Word c) {more rest : Str} {value : Value}
    (read : ∀ passed, ∃ fuel passed', parseWord (parseArray fuel) (parseObjectValue fuel)
      (Stream.between passed (c :: more)) = some (some value, Stream.between passed' rest)) :
    Parses (.value value) (c :: more) rest := by
  intro passed gap isGap
  rcases parseValue_word isGap word more passed with ⟨middle, reached⟩
  rcases read middle with ⟨fuel, behind, isValue⟩
  exact ⟨fuel + 1, behind, (reached fuel).trans isValue⟩

theorem ofArray {more rest : Str} {values : List Value}
    (read : ∀ passed, ∃ fuel passed', parseArray fuel (Stream.between passed ('[' :: more)) =
      some (some values, Stream.between passed' rest)) :
    Parses (.value (.array values)) ('[' :: more) rest := by
  apply ofWord word_bracket
  intro passed
  rcases parseWord_other more passed word_bracket.solid (by decide) (by decide) with
    ⟨middle, reached⟩
  rcases read middle with ⟨fuel, behind, isArray⟩
  refine ⟨fuel, behind, (reached _ _).trans ?_⟩
  rw [if_pos rfl, isArray]
  rfl

theorem ofObject {more rest : Str} {entries : Object}
    (read : ∀ passed, ∃ fuel passed', parseObject fuel (Stream.between passed ('\x7b' :: more)) =
      some (true, entries, Stream.between passed' rest)) :
    Parses (.value (.object entries)) ('\x7b' :: more) rest := by
  apply ofWord word_brace
  intro passed
  rcases parseWord_other more passed word_brace.solid (by decide) (by decide) with
    ⟨middle, reached⟩
  rcases read middle with ⟨fuel, behind, isObject⟩
  refine ⟨fuel + 1, behind, (reached _ _).trans ?_⟩
  rw [if_neg (by decide), parseObjectValue, isObject]
  rfl

/-! ### Arrays -/

section

variable {gap' : Str} (isGap' : Gap gap') {text rest : Str} {value : Value}

include isGap in
theorem emptyArray (rest : Str) :
    Parses (.value (.array [])) ('[' :: (gap ++ ']' :: rest)) rest := by
  apply ofArray
  intro passed
  rcases matchPattern_hit Gap.nil word_bracket.solid [] (gap ++ ']' :: rest)
    passed with ⟨middle, opened⟩
  rcases matchPattern_hit isGap word_end.solid [] rest middle with ⟨behind, closed⟩
  simp only [List.nil_append, List.singleton_append] at opened closed
  refine ⟨1, behind, ?_⟩
  rw [parseArray, opened, Option.bind_some]
  dsimp only
  rw [closed]
  rfl

include isGap in
theorem array {values : List Value} (starts : ∃ c more, text = c :: more ∧ Solid c ∧ c ≠ ']')
    (elements : Parses (.elements values) text rest) :
    Parses (.value (.array values)) ('[' :: (gap ++ text)) rest := by
  rcases starts with ⟨c, more, rfl, solid, noEnd⟩
  apply ofArray
  intro passed
  rcases matchPattern_hit Gap.nil word_bracket.solid [] (gap ++ c :: more)
    passed with ⟨first, opened⟩
  rcases matchPattern_miss isGap (show ']' ≠ '/' by decide) solid noEnd [] more first with
    ⟨second, missed⟩
  rcases elements second [] [] Gap.nil with ⟨fuel, third, read⟩
  rcases matchPattern_hit Gap.nil word_end.solid [] rest third with ⟨behind, closed⟩
  simp only [List.nil_append, List.singleton_append] at opened closed read
  refine ⟨fuel + 1, behind, ?_⟩
  rw [parseArray, opened, Option.bind_some]
  dsimp only
  rw [missed, Option.bind_some]
  dsimp only
  rw [read, Option.bind_some]
  dsimp only
  rw [closed]
  rfl

theorem solid_comma : Solid ',' :=
  ⟨rfl, by decide⟩

include isGap in
theorem lastElement (parses : Parses (.value value) text (gap ++ ']' :: rest)) :
    Parses (.elements [value]) text rest := by
  intro passed outer before isOuter
  rcases parses passed outer isOuter with ⟨fuel, middle, read⟩
  rcases matchPattern_miss isGap (show ',' ≠ '/' by decide) word_end.solid (by decide) []
    rest middle with
    ⟨behind, missed⟩
  refine ⟨fuel + 1, behind, ?_⟩
  rw [parseElements, read, Option.bind_some]
  dsimp only
  rw [missed]
  rfl

/-- There is no value at the end of an array. -/
theorem parseValue_end (rest passed : Str) {outer : Str} (isOuter : Gap outer) :
    ∃ fuel passed', parseValue fuel (Stream.between passed (outer ++ ']' :: rest)) =
      some (none, Stream.between passed' (']' :: rest)) := by
  rcases parseValue_word isOuter word_end rest passed with ⟨first, reached⟩
  rcases parseWord_other rest first word_end.solid (by decide) (by decide) with ⟨second, other⟩
  rcases matchPattern_miss Gap.nil (show '\x7b' ≠ '/' by decide) word_end.solid (by decide) []
    rest second
    with ⟨behind, missed⟩
  rw [List.nil_append] at missed
  refine ⟨3, behind, (reached 2).trans ((other _ _).trans ?_)⟩
  rw [if_neg (by decide), parseObjectValue, parseObject, missed]
  rfl

include isGap isGap' in
theorem commaElement (parses : Parses (.value value) text (gap ++ ',' :: (gap' ++ ']' :: rest))) :
    Parses (.elements [value]) text rest := by
  intro passed outer before isOuter
  rcases parses passed outer isOuter with ⟨fuel, first, read⟩
  rcases matchPattern_hit isGap solid_comma [] (gap' ++ ']' :: rest) first with ⟨second, comma⟩
  rcases parseValue_end rest second isGap' with ⟨more, behind, noValue⟩
  simp only [List.singleton_append] at comma
  refine ⟨max fuel (more + 1) + 1, behind, ?_⟩
  rw [parseElements, parseValue_mono (le_max_left _ _) read, Option.bind_some]
  dsimp only
  rw [comma, Option.bind_some]
  apply parseElements_mono (le_max_right _ _)
  rw [parseElements, noValue]
  rfl

include isGap isGap' in
theorem nextElement {more : Str} {values : List Value}
    (parses : Parses (.value value) text (gap ++ ',' :: (gap' ++ more)))
    (others : Parses (.elements values) more rest) :
    Parses (.elements (value :: values)) text rest := by
  intro passed outer before isOuter
  rcases parses passed outer isOuter with ⟨fuel, first, read⟩
  rcases matchPattern_hit isGap solid_comma [] (gap' ++ more) first with ⟨second, comma⟩
  rcases others second gap' (before ++ [value]) isGap' with ⟨moreFuel, behind, elements⟩
  simp only [List.singleton_append] at comma
  rw [List.append_assoc, List.singleton_append] at elements
  refine ⟨max fuel moreFuel + 1, behind, ?_⟩
  rw [parseElements, parseValue_mono (le_max_left _ _) read, Option.bind_some]
  dsimp only
  rw [comma, Option.bind_some]
  exact parseElements_mono (le_max_right _ _) elements

/-! ### Objects -/

theorem solid_colon : Solid ':' :=
  ⟨rfl, by decide⟩

theorem solid_end : Solid '\x7d' :=
  ⟨rfl, by decide⟩

theorem solid_quote : Solid '"' :=
  ⟨rfl, by decide⟩

include isGap isGap' in
theorem parseObject_empty (rest passed : Str) : ∃ fuel passed',
    parseObject fuel (Stream.between passed (gap' ++ '\x7b' :: (gap ++ '\x7d' :: rest))) =
      some (true, [], Stream.between passed' rest) := by
  rcases matchPattern_hit isGap' word_brace.solid [] (gap ++ '\x7d' :: rest) passed with
    ⟨middle, opened⟩
  rcases matchPattern_hit isGap solid_end [] rest middle with ⟨behind, closed⟩
  simp only [List.singleton_append] at opened closed
  refine ⟨1, behind, ?_⟩
  rw [parseObject, opened, Option.bind_some]
  dsimp only
  rw [closed]
  rfl

include isGap isGap' in
theorem parseObject_members {entries : List (Str × Value)} {more : Str}
    (members : Parses (.members entries) ('"' :: more) rest) (passed : Str) : ∃ fuel passed',
    parseObject fuel (Stream.between passed (gap' ++ '\x7b' :: (gap ++ '"' :: more))) =
      some (true, fill [] entries, Stream.between passed' rest) := by
  rcases matchPattern_hit isGap' word_brace.solid [] (gap ++ '"' :: more)
    passed with ⟨first, opened⟩
  rcases matchPattern_miss isGap (show '\x7d' ≠ '/' by decide) solid_quote (by decide) []
    more first with
    ⟨second, missed⟩
  rcases members second [] [] Gap.nil with ⟨fuel, third, read⟩
  rcases matchPattern_hit Gap.nil solid_end [] rest third with ⟨behind, closed⟩
  simp only [List.nil_append, List.singleton_append] at opened closed read
  refine ⟨fuel + 1, behind, ?_⟩
  rw [parseObject, opened, Option.bind_some]
  dsimp only
  rw [missed, Option.bind_some]
  dsimp only
  rw [read, Option.bind_some]
  dsimp only
  rw [closed]
  rfl

/-- The key of an entry and the colon behind it. -/
theorem key {body name : Str} (isKey : StringText body name) (isGap : Gap gap)
    (isGap' : Gap gap') (parses : Parses (.value value) text rest) (passed : Str) {outer : Str}
    (isOuter : Gap outer) :
    ∃ fuel first second third,
      parseString (Stream.between passed
        (outer ++ '"' :: (body ++ '"' :: (gap ++ ':' :: (gap' ++ text))))) =
          some (some name, Stream.between first (gap ++ ':' :: (gap' ++ text))) ∧
      matchPattern [':'] (Stream.between first (gap ++ ':' :: (gap' ++ text))) =
        some (true, Stream.between second (gap' ++ text)) ∧
      parseValue fuel (Stream.between second (gap' ++ text)) =
        some (some value, Stream.between third rest) := by
  rcases parseString_hit isOuter isKey (gap ++ ':' :: (gap' ++ text)) passed with ⟨first, string⟩
  rcases matchPattern_hit isGap solid_colon [] (gap' ++ text) first with ⟨second, colon⟩
  rcases parses second gap' isGap' with ⟨fuel, third, read⟩
  exact ⟨fuel, first, second, third, string, colon, read⟩

variable {gap'' last body name : Str} (isGap'' : Gap gap'') (isLast : Gap last)
  (isKey : StringText body name)

include isGap isGap' isGap'' isKey in
theorem lastMember (parses : Parses (.value value) text (gap'' ++ '\x7d' :: rest)) :
    Parses (.members [(name, value)])
      ('"' :: (body ++ '"' :: (gap ++ ':' :: (gap' ++ text)))) rest := by
  intro passed outer before isOuter
  rcases key isKey isGap isGap' parses passed isOuter with
    ⟨fuel, first, second, third, string, colon, read⟩
  rcases matchPattern_miss isGap'' (show ',' ≠ '/' by decide) solid_end (by decide) []
    rest third with
    ⟨behind, missed⟩
  refine ⟨fuel + 1, behind, ?_⟩
  rw [parseMembers, string, Option.bind_some]
  dsimp only
  rw [colon, Option.bind_some]
  dsimp only
  rw [read, Option.bind_some]
  dsimp only
  rw [missed]
  rfl

include isGap isGap' isGap'' isLast isKey in
theorem commaMember
    (parses : Parses (.value value) text (gap'' ++ ',' :: (last ++ '\x7d' :: rest))) :
    Parses (.members [(name, value)])
      ('"' :: (body ++ '"' :: (gap ++ ':' :: (gap' ++ text)))) rest := by
  intro passed outer before isOuter
  rcases key isKey isGap isGap' parses passed isOuter with
    ⟨fuel, first, second, third, string, colon, read⟩
  rcases matchPattern_hit isGap'' solid_comma [] (last ++ '\x7d' :: rest) third with ⟨fourth, comma⟩
  rcases parseString_miss isLast solid_end (by decide) rest fourth with ⟨behind, missed⟩
  simp only [List.singleton_append] at comma
  refine ⟨fuel + 2, behind, ?_⟩
  rw [parseMembers, string, Option.bind_some]
  dsimp only
  rw [colon, Option.bind_some]
  dsimp only
  rw [parseValue_mono (Nat.le_succ _) read, Option.bind_some]
  dsimp only
  rw [comma, Option.bind_some]
  dsimp only
  rw [parseMembers, missed]
  rfl

include isGap isGap' isGap'' isLast isKey in
theorem nextMember {more : Str} {entries : List (Str × Value)}
    (parses : Parses (.value value) text (gap'' ++ ',' :: (last ++ more)))
    (others : Parses (.members entries) more rest) :
    Parses (.members ((name, value) :: entries))
      ('"' :: (body ++ '"' :: (gap ++ ':' :: (gap' ++ text)))) rest := by
  intro passed outer before isOuter
  rcases key isKey isGap isGap' parses passed isOuter with
    ⟨fuel, first, second, third, string, colon, read⟩
  rcases matchPattern_hit isGap'' solid_comma [] (last ++ more) third with ⟨fourth, comma⟩
  rcases others fourth last (Object.insert name value before) isLast with
    ⟨moreFuel, behind, members⟩
  simp only [List.singleton_append] at comma
  refine ⟨max fuel moreFuel + 1, behind, ?_⟩
  rw [parseMembers, string, Option.bind_some]
  dsimp only
  rw [colon, Option.bind_some]
  dsimp only
  rw [parseValue_mono (le_max_left _ _) read, Option.bind_some]
  dsimp only
  rw [comma, Option.bind_some]
  exact parseMembers_mono (le_max_right _ _) members

end

end Parses

/-- Every text is read as what it stands for. -/
theorem Reads.parses {form : Form} {text rest : Str} (reads : Reads form text rest) :
    Parses form text rest := by
  induction reads with
  | string isText => exact Parses.string isText _
  | number isNumber stops => exact Parses.number isNumber stops
  | boolTrue =>
      exact Parses.ofWord ⟨⟨rfl, by decide⟩, by decide, rfl, by decide, by decide⟩ fun passed =>
        ⟨0, parseWord_true _ _ _ passed⟩
  | boolFalse =>
      exact Parses.ofWord ⟨⟨rfl, by decide⟩, by decide, rfl, by decide, by decide⟩ fun passed =>
        ⟨0, parseWord_false _ _ _ passed⟩
  | null =>
      exact Parses.ofWord ⟨⟨rfl, by decide⟩, by decide, rfl, by decide, by decide⟩ fun passed =>
        ⟨0, parseWord_null _ _ _ passed⟩
  | emptyArray isGap => exact Parses.emptyArray isGap _
  | array isGap elements ih => exact Parses.array isGap elements.starts ih
  | emptyObject isGap => exact Parses.ofObject (Parses.parseObject_empty isGap Gap.nil _)
  | object isGap members ih =>
      rcases members.starts with ⟨c, more, rfl, rfl⟩
      exact Parses.ofObject (Parses.parseObject_members isGap Gap.nil ih)
  | lastElement isGap _ ih => exact Parses.lastElement isGap ih
  | commaElement isGap isGap' _ ih => exact Parses.commaElement isGap isGap' ih
  | nextElement isGap isGap' _ _ ih ihMore => exact Parses.nextElement isGap isGap' ih ihMore
  | lastMember isKey isGap isGap' isGap'' _ ih =>
      exact Parses.lastMember isGap isGap' isGap'' isKey ih
  | commaMember isKey isGap isGap' isGap'' isLast _ ih =>
      exact Parses.commaMember isGap isGap' isGap'' isLast isKey ih
  | nextMember isKey isGap isGap' isGap'' isLast _ _ ih ihMore =>
      exact Parses.nextMember isGap isGap' isGap'' isLast isKey ih ihMore

/-- Every document is read as what it stands for.  The text of an object, whatever
blanks and comments are in it and before it and whatever follows, is parsed to the
object with every bound from four rounds for each character on. -/
theorem parse_document {gap text rest : Str} {object : Object} (isGap : Gap gap)
    (reads : Reads (.value (.object object)) text rest) (fuel : Nat)
    (enough : 4 * (gap ++ text).length + 1 ≤ fuel) :
    parseWith fuel (gap ++ text) = some (true, object) := by
  have read : ∃ fuel passed', parseObject fuel (Stream.ofText (gap ++ text)) =
      some (true, object, Stream.between passed' rest) := by
    cases reads with
    | emptyObject inner => exact Parses.parseObject_empty inner isGap rest []
    | object inner members =>
        rcases members.starts with ⟨c, more, rfl, rfl⟩
        exact Parses.parseObject_members inner isGap members.parses []
  rcases read with ⟨few, passed, read⟩
  rcases parse_terminates (gap ++ text) with ⟨complete, entries, same⟩
  have many := parseObject_mono (le_max_left few fuel) read
  have one : parseWith (max few fuel) (gap ++ text) = some (true, object) := by
    rw [parseWith, many]
    rfl
  rw [same fuel enough, ← same (max few fuel) (enough.trans (le_max_right _ _))]
  exact one

/-- An object is filled from its text: the last entry of a key counts. -/
theorem lookup_insert (key : Str) (value : Value) (object : Object) (name : Str) :
    (Object.insert key value object).lookup name =
      if name = key then some value else object.lookup name := by
  induction object with
  | nil =>
      by_cases same : name = key
      · simp [Object.insert, same]
      · simp [Object.insert, same, List.lookup_cons, beq_false_of_ne same]
  | cons entry rest ih =>
      unfold Object.insert
      by_cases same : name = key
      · split
        · simp [same]
        · simp [same]
        · rename_i greater
          have other : name ≠ entry.1 := by
            intro equal
            have self : compare key key = .eq := Std.ReflCmp.compare_self
            rw [← equal, same, self] at greater
            cases greater
          rw [List.lookup_cons, beq_false_of_ne other, if_pos same]
          exact ih.trans (if_pos same)
      · rw [if_neg same] at ih ⊢
        split
        · rw [List.lookup_cons, beq_false_of_ne same]
        · rename_i equal
          have keyEq := Std.LawfulEqCmp.eq_of_compare equal
          rw [List.lookup_cons, List.lookup_cons, beq_false_of_ne same, ← keyEq,
            beq_false_of_ne same]
        · rw [List.lookup_cons, List.lookup_cons]
          split
          · rfl
          · exact ih

theorem lookup_fill (object : Object) (entries : List (Str × Value)) (name : Str) :
    (fill object entries).lookup name = (entries.reverse.lookup name).or (object.lookup name) := by
  induction entries using List.reverseRecOn with
  | nil => rfl
  | append_singleton entries entry ih =>
      rw [fill, List.foldl_append, List.foldl_cons, List.foldl_nil, lookup_insert, ← fill, ih,
        List.reverse_append, List.reverse_singleton, List.singleton_append, List.lookup_cons]
      by_cases same : name = entry.1
      · simp [same]
      · rw [if_neg same, beq_false_of_ne same]

theorem StringText.ofPlain {text : Str} (plain : text.all JsonString.isPlain = true) :
    StringText text text := by
  induction text with
  | nil => exact StringText.nil
  | cons c text ih =>
      rw [List.all_cons, Bool.and_eq_true] at plain
      rcases plain with ⟨first, rest⟩
      simp only [JsonString.isPlain, Bool.and_eq_true, decide_eq_true_eq] at first
      exact StringText.plain first.1.1 first.1.2 (ih rest)

/-- A document with a comment, a comma behind the last value and more behind the end
of the object. -/
def limitText : Str :=
  "\x7b\"limit\" : [2.5e1, true,] // seconds\n\x7d and more".toList

/-- It is read to its end. -/
theorem parse_document_limit :
    parseWith 200 limitText =
      some (true, [("limit".toList, .array [.number 25, .boolean true])]) := by
  have twentyFive : NumberText "2.5e1".toList 25 := by
    have number : NumberText (signed false (['2'] ++ ['.', '5'] ++ ['e', '1'])) 25 := by
      apply NumberText.number (digits_of_all rfl) (by decide)
        (PointText.some (digits_of_all rfl) (by decide))
        (ExponentText.unsigned (.inl rfl) (digits_of_all rfl) (by decide))
      · decide +kernel
      · calc |(25 : Rat)| < 2 ^ 5 := by norm_num
          _ ≤ 2 ^ 16384 := pow_le_pow_right₀ (by norm_num) (by norm_num)
    exact number
  have key : StringText "limit".toList "limit".toList := StringText.ofPlain (by decide +kernel)
  have line : Gap " // seconds\n".toList := by
    have oneLine :
        (" seconds".toList.all fun c => decide (c ≠ '\r' ∧ c ≠ '\n')) = Bool.true := by
      decide +kernel
    have comment : Gap ('/' :: '/' :: (" seconds".toList ++ '\n' :: [])) :=
      Gap.comment (fun c member => of_decide_eq_true (List.all_eq_true.mp oneLine c member))
        (.inr rfl) Gap.nil
    exact Gap.blank rfl comment
  have values : Reads (.elements [.number 25, .boolean true])
      ("2.5e1".toList ++ ([] ++ ',' :: ([' '] ++ ("true".toList ++ ([] ++ ',' :: ([] ++ ']' ::
        (" // seconds\n".toList ++ '\x7d' :: " and more".toList)))))))
      (" // seconds\n".toList ++ '\x7d' :: " and more".toList) :=
    Reads.nextElement Gap.nil (Gap.blank rfl Gap.nil)
      (Reads.number twentyFive ⟨by decide, by decide, by decide, by decide⟩)
      (Reads.commaElement Gap.nil Gap.nil Reads.boolTrue)
  have blank : Gap [' '] := Gap.blank rfl Gap.nil
  have members := Reads.lastMember key blank blank line (Reads.array Gap.nil values)
  exact parse_document Gap.nil (Reads.object Gap.nil members) 200 (by decide +kernel)

end Sentri.LibModule.Json
