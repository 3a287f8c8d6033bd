import Sentri.LibModule.JsonParser

/-!
# The JSON parser terminates

The bounds on the rounds are never reached: a token that is found is taken off
the input, and one that is not found leaves no more than there was.  So a bound
of four rounds for each character is enough for every text, and the result does
not depend on it.
-/

namespace Sentri.LibModule.Json

open Sentri.Text

/-! ## Streams -/

theorem unget_left_le (stream : Stream) : stream.unget.left.length ≤ stream.left.length + 1 := by
  unfold Stream.unget
  split
  · exact le_rfl
  · exact Nat.le_succ _

theorem putback_left_le (c : Char) (stream : Stream) :
    (stream.putback c).left.length ≤ stream.left.length + 1 := by
  unfold Stream.putback
  split
  · exact unget_left_le stream
  · exact Nat.le_succ _

theorem ws_left_le (stream : Stream) : stream.ws.left.length ≤ stream.left.length := by
  unfold Stream.ws
  split
  · exact (List.dropWhile_suffix _).length_le
  · exact le_rfl

/-- A character is taken from a stream, or the stream is no longer good. -/
theorem get_cases (stream : Stream) :
    (∃ c, stream.get.1 = some c ∧ stream.get.2.left.length + 1 = stream.left.length) ∨
      (stream.get.1 = none ∧ stream.get.2.left = stream.left ∧ stream.get.2.fail = true) := by
  unfold Stream.get
  split
  · cases left : stream.left with
    | nil => exact Or.inr ⟨rfl, rfl, rfl⟩
    | cons c rest => exact Or.inl ⟨c, rfl, rfl⟩
  · exact Or.inr ⟨rfl, rfl, rfl⟩

/-- What was read can be put back, and nothing more. -/
theorem putback_get_left_le (ch : Char) (stream : Stream) :
    (stream.get.2.putback ch).left.length ≤ stream.left.length := by
  rcases get_cases stream with ⟨_, _, one⟩ | ⟨_, same, failed⟩
  · exact (putback_left_le ch _).trans one.le
  · rw [← same]
    unfold Stream.putback Stream.unget
    rw [failed]
    split <;> exact le_rfl

theorem peek_left (stream : Stream) : stream.peek.2.left = stream.left := by
  unfold Stream.peek
  split
  · split <;> rfl
  · rfl

/-! ## Tokens -/

theorem skipLine_left_le (stream : Stream) :
    (skipLine stream).left.length ≤ stream.left.length := by
  have rest := (List.dropWhile_suffix (l := stream.left) fun c => c ≠ '\r' && c ≠ '\n').length_le
  unfold skipLine
  dsimp only
  split
  · exact rest
  · exact (ws_left_le _).trans rest

/-- A comment at the position of a good stream. -/
theorem parseComment_slash (passed rest : Str) :
    parseComment (Stream.between passed ('/' :: '/' :: rest)) =
      (true, skipLine (Stream.between ('/' :: '/' :: passed) rest)) :=
  rfl

/-- No comment at the position of a good stream. -/
theorem parseComment_other {c : Char} (other : c ≠ '/') (passed rest : Str) :
    parseComment (Stream.between passed (c :: rest)) =
      (false, Stream.between passed (c :: rest)) := by
  unfold parseComment
  rw [if_neg (by simp [Stream.between]), Stream.peek_between]
  split
  · rename_i equal
    cases equal
    exact absurd rfl other
  · rename_i _ equal
    cases equal
    rfl

/-- A comment is taken off the input; without one the input is as it was. -/
theorem parseComment_cases (stream : Stream) :
    ((parseComment stream).1 = true ∧
        (parseComment stream).2.left.length < stream.left.length) ∨
      ((parseComment stream).1 = false ∧ (parseComment stream).2.left = stream.left) := by
  rcases stream with ⟨passed, left, eof, fail⟩
  cases eof with
  | true => exact Or.inr ⟨rfl, rfl⟩
  | false =>
      cases fail with
      | true => exact Or.inr ⟨rfl, rfl⟩
      | false =>
          cases left with
          | nil => exact Or.inr ⟨rfl, rfl⟩
          | cons c rest =>
              by_cases slash : c = '/'
              · subst slash
                cases rest with
                | nil => exact Or.inr ⟨rfl, rfl⟩
                | cons d rest =>
                    by_cases second : d = '/'
                    · subst second
                      left
                      have shorter :=
                        skipLine_left_le (Stream.between ('/' :: '/' :: passed) rest)
                      have equal := parseComment_slash passed rest
                      simp only [Stream.between] at equal shorter
                      rw [equal]
                      refine ⟨rfl, ?_⟩
                      simp only [List.length_cons]
                      exact Nat.lt_succ_of_le (Nat.le_succ_of_le shorter)
                    · right
                      simp [parseComment, Stream.peek, Stream.get, Stream.good, Stream.unget,
                        Stream.clear, Stream.between, second]
              · have equal := parseComment_other slash passed rest
                simp only [Stream.between] at equal
                rw [equal]
                exact Or.inr ⟨rfl, rfl⟩

theorem foldl_putback_left_le (taken : Str) (stream : Stream) :
    (taken.foldl (fun stream c => stream.putback c) stream).left.length ≤
      stream.left.length + taken.length := by
  induction taken generalizing stream with
  | nil => exact le_rfl
  | cons c taken ih =>
      rw [List.foldl_cons, List.length_cons]
      have one := putback_left_le c stream
      have rest := ih (stream.putback c)
      omega

theorem not_good_of_fail {stream : Stream} (failed : stream.fail = true) :
    stream.good = false := by
  simp [Stream.good, failed]

theorem get_not_good {stream : Stream} (stopped : stream.good = false) :
    stream.get.2.good = false := by
  unfold Stream.get
  rw [stopped]
  exact not_good_of_fail rfl

theorem matchLoop_stopped (fuel : Nat) (ch : Char) (taken pattern : Str) {stream : Stream}
    (stopped : stream.good = false) :
    matchLoop (fuel + 1) ch taken pattern stream = some (pattern.isEmpty, stream) := by
  cases pattern with
  | nil => rfl
  | cons c pattern => simp [matchLoop, stopped]

/-- Every round of the loop takes a character of the pattern or a comment. -/
theorem matchLoop_total {fuel : Nat} (ch : Char) (taken pattern : Str) (stream : Stream)
    (enough : stream.left.length + pattern.length < fuel) :
    ∃ found next, matchLoop fuel ch taken pattern stream = some (found, next) ∧
      next.left.length ≤ stream.left.length + taken.length ∧
      (found = true → next.left.length ≤ stream.left.length) := by
  induction fuel generalizing ch taken pattern stream with
  | zero => exact absurd enough (Nat.not_lt_zero _)
  | succ fuel ih =>
      cases pattern with
      | nil => exact ⟨true, stream, rfl, Nat.le_add_right _ _, fun _ => le_rfl⟩
      | cons c pattern =>
          rw [List.length_cons] at enough
          rw [matchLoop]
          split
          · have back := putback_get_left_le (stream.get.1.getD ch) stream
            dsimp only
            split
            · rcases get_cases stream with ⟨_, _, one⟩ | ⟨_, same, failed⟩
              · rcases ih (stream.get.1.getD ch) (c :: taken) pattern stream.get.2 (by omega) with
                  ⟨found, next, result, bound, shorter⟩
                rw [List.length_cons] at bound
                exact ⟨found, next, result, by omega, fun is => by have := shorter is; omega⟩
              · obtain ⟨fuel, rfl⟩ : ∃ more, fuel = more + 1 := ⟨fuel - 1, by omega⟩
                rw [matchLoop_stopped fuel _ _ _ (not_good_of_fail failed)]
                exact ⟨_, _, rfl, by rw [same]; exact Nat.le_add_right _ _,
                  fun _ => by rw [same]⟩
            · have comment :=
                parseComment_cases (stream.get.2.putback (stream.get.1.getD ch))
              split
              · rename_i next equal
                rw [equal] at comment
                rcases comment with ⟨_, less⟩ | ⟨impossible, _⟩
                · dsimp only at less
                  rcases ih (stream.get.1.getD ch) taken (c :: pattern) next
                    (by rw [List.length_cons]; omega) with ⟨found, last, result, bound, shorter⟩
                  exact ⟨found, last, result, by omega, fun is => by have := shorter is; omega⟩
                · cases impossible
              · rename_i next equal
                rw [equal] at comment
                rcases comment with ⟨impossible, _⟩ | ⟨_, same⟩
                · cases impossible
                · dsimp only at same
                  have restored := foldl_putback_left_le taken next
                  rw [same] at restored
                  exact ⟨false, _, rfl, by omega, nofun⟩
          · exact ⟨false, stream, rfl, Nat.le_add_right _ _, nofun⟩

theorem matchPattern_total (pattern : Str) (stream : Stream) :
    ∃ found next, matchPattern pattern stream = some (found, next) ∧
      next.left.length ≤ stream.left.length := by
  rcases matchLoop_total nul [] pattern stream.ws (Nat.lt_succ_self _) with
    ⟨found, next, result, bound, _⟩
  exact ⟨found, next, result, bound.trans (ws_left_le stream)⟩

/-- A single character that is found is taken off the input. -/
theorem matchLoop_takes {fuel : Nat} {ch c : Char} {stream next : Stream} (other : ch ≠ c)
    (result : matchLoop fuel ch [] [c] stream = some (true, next)) :
    next.left.length < stream.left.length := by
  induction fuel generalizing ch stream with
  | zero => cases result
  | succ fuel ih =>
      rw [matchLoop] at result
      split at result
      · have back := putback_get_left_le (stream.get.1.getD ch) stream
        dsimp only at result
        split at result
        · rename_i equal
          rcases get_cases stream with ⟨d, got, one⟩ | ⟨exhausted, _, _⟩
          · cases fuel with
            | zero => cases result
            | succ fuel =>
                cases result
                omega
          · rw [exhausted] at equal
            exact absurd equal other
        · rename_i different
          have comment := parseComment_cases (stream.get.2.putback (stream.get.1.getD ch))
          split at result
          · rename_i continued equal
            rw [equal] at comment
            rcases comment with ⟨_, less⟩ | ⟨impossible, _⟩
            · have shorter := ih different result
              dsimp only at less
              omega
            · cases impossible
          · cases result
      · cases result

theorem matchPattern_takes {c : Char} {stream next : Stream} (other : nul ≠ c)
    (result : matchPattern [c] stream = some (true, next)) :
    next.left.length < stream.left.length :=
  (matchLoop_takes other result).trans_le (ws_left_le stream)

/-! ## Strings and numbers -/

theorem getFour_left_le (count : Nat) (ch : Char) (stream : Stream) :
    (getFour count ch stream).2.2.left.length ≤ stream.left.length := by
  induction count generalizing ch stream with
  | zero => exact le_rfl
  | succ count ih =>
      rw [getFour]
      split
      · exact (ih _ _).trans (Stream.get_left_le stream)
      · exact le_rfl

theorem parseEscape_left_le (delimiter ch : Char) (stream : Stream) :
    (parseEscape delimiter ch stream).2.2.left.length ≤ stream.left.length := by
  unfold parseEscape
  split
  case h_8 =>
    dsimp only
    split
    · split <;> exact getFour_left_le 4 _ stream
    · exact getFour_left_le 4 _ stream
  all_goals exact le_rfl

theorem getFour_not_good (count : Nat) (ch : Char) {stream : Stream}
    (stopped : stream.good = false) : (getFour count ch stream).2.2 = stream := by
  cases count with
  | zero => rfl
  | succ count => simp [getFour, stopped]

theorem parseEscape_not_good (delimiter ch : Char) {stream : Stream}
    (stopped : stream.good = false) : (parseEscape delimiter ch stream).2.2 = stream := by
  unfold parseEscape
  split
  case h_8 =>
    have same := getFour_not_good 4 'u' stopped
    dsimp only
    rw [same, stopped]
    rfl
  all_goals rfl

/-- Every round of the loop takes a character, or the stream is no longer good. -/
theorem stringLoop_total (delimiter : Char) {fuel : Nat} (ch : Char) (value : Str)
    (stream : Stream) (enough : stream.left.length + (if stream.good then 2 else 1) ≤ fuel) :
    ∃ text next, stringLoop delimiter fuel ch value stream = some (text, next) ∧
      next.left.length ≤ stream.left.length := by
  induction fuel generalizing ch value stream with
  | zero => split at enough <;> omega
  | succ fuel ih =>
      rw [stringLoop]
      split
      · rename_i good
        rw [if_pos good] at enough
        have rest : ∀ (last : Char) (value : Str) (later : Stream),
            later.left.length ≤ stream.get.2.left.length →
            (stream.get.2.good = false → later.good = false) →
            ∃ text next, stringLoop delimiter fuel last value later = some (text, next) ∧
              next.left.length ≤ stream.left.length := by
          intro last value later shorter stops
          have small : later.left.length ≤ stream.left.length :=
            shorter.trans (Stream.get_left_le stream)
          rcases ih last value later (by
            rcases get_cases stream with ⟨_, _, one⟩ | ⟨_, _, failed⟩
            · split <;> omega
            · rw [stops (not_good_of_fail failed), if_neg Bool.false_ne_true]
              omega) with ⟨text, next, result, bound⟩
          exact ⟨text, next, result, bound.trans small⟩
        dsimp only
        split
        · exact ⟨_, _, rfl, Stream.get_left_le stream⟩
        · split
          · apply rest
            · exact (parseEscape_left_le _ _ _).trans (Stream.get_left_le _)
            · intro stopped
              have again := get_not_good stopped
              rw [parseEscape_not_good _ _ again]
              exact again
          · exact rest _ _ _ le_rfl id
      · exact ⟨_, _, rfl, le_rfl⟩

theorem parseString_total (stream : Stream) :
    ∃ text next, parseString stream = some (text, next) ∧
      next.left.length ≤ stream.left.length := by
  rcases matchPattern_total ['"'] stream with ⟨found, behind, matched, bound⟩
  have enough : ∀ stream : Stream,
      stream.left.length + (if stream.good then 2 else 1) ≤ stream.left.length + 2 := by
    intro stream
    split <;> omega
  rw [parseString, matched, Option.bind_some]
  cases found with
  | true =>
      rcases stringLoop_total '"' nul [] behind (enough behind) with ⟨text, next, result, shorter⟩
      exact ⟨text, next, result, shorter.trans bound⟩
  | false =>
      have peeked := peek_left behind
      dsimp only
      split
      · rename_i quoted equal
        rw [equal] at peeked
        dsimp only at peeked
        have got := Stream.get_left_le quoted
        rcases stringLoop_total '\x27' (quoted.get.1.getD nul) [] quoted.get.2
          (enough _) with ⟨text, next, result, shorter⟩
        refine ⟨text, next, result, ?_⟩
        rw [peeked] at got
        exact shorter.trans (got.trans bound)
      · rename_i other _ equal
        rw [equal] at peeked
        exact ⟨none, _, rfl, (congrArg List.length peeked).le.trans bound⟩

theorem splitSign_le (text : Str) : (splitSign text).2.length ≤ text.length := by
  unfold splitSign
  split
  · exact Nat.le_succ _
  · exact Nat.le_succ _
  · exact le_rfl

theorem readLiteral_rest_le (text : Str) : (readLiteral text).rest.length ≤ text.length := by
  have whole := (List.dropWhile_suffix (l := text) (Number.isDigitOf 10)).length_le
  have point : ∀ text : Str, (readPoint text).2.length ≤ text.length := by
    intro text
    unfold readPoint
    split
    · exact (List.dropWhile_suffix _).length_le.trans (Nat.le_succ _)
    · exact le_rfl
  have exponent : ∀ (mantissa : Bool) (text : Str),
      (readExponentText mantissa text).2.length ≤ text.length := by
    intro mantissa text
    unfold readExponentText
    split
    · rename_i c rest
      split
      · exact (List.dropWhile_suffix _).length_le.trans
          ((splitSign_le rest).trans (Nat.le_succ _))
      · exact le_rfl
    · exact le_rfl
  exact (exponent _ _).trans ((point _).trans whole)

theorem parseNumber_left_le (stream : Stream) :
    (parseNumber stream).2.left.length ≤ stream.left.length := by
  unfold parseNumber
  dsimp only
  split
  · split
    · exact (readLiteral_rest_le _).trans ((splitSign_le _).trans (ws_left_le stream))
    · exact ws_left_le stream
  · exact ws_left_le stream

theorem parseBool_total (stream : Stream) :
    ∃ value next, parseBool stream = some (value, next) ∧
      next.left.length ≤ stream.left.length := by
  rcases matchPattern_total "true".toList stream with ⟨found, behind, matched, bound⟩
  rw [parseBool, matched, Option.bind_some]
  cases found with
  | true => exact ⟨_, _, rfl, bound⟩
  | false =>
      rcases matchPattern_total "false".toList behind with ⟨found, last, matched, shorter⟩
      dsimp only
      rw [matched]
      cases found <;> exact ⟨_, _, rfl, shorter.trans bound⟩

theorem parseNull_total (stream : Stream) :
    ∃ found next, parseNull stream = some (found, next) ∧
      next.left.length ≤ stream.left.length := by
  rcases matchPattern_total "null".toList stream with ⟨found, behind, matched, bound⟩
  rw [parseNull, matched, Option.map_some]
  cases found with
  | true => exact ⟨_, _, rfl, bound⟩
  | false =>
      have peeked := congrArg List.length (peek_left behind)
      exact ⟨_, behind.peek.2, rfl, peeked.le.trans bound⟩

/-! ## Values -/

/-- The bound on the rounds is enough for every stream that is short enough. -/
structure Total (fuel : Nat) : Prop where
  value : ∀ stream : Stream, 4 * stream.left.length + 3 ≤ fuel →
    ∃ value next, parseValue fuel stream = some (value, next) ∧
      next.left.length ≤ stream.left.length
  objectValue : ∀ stream : Stream, 4 * stream.left.length + 2 ≤ fuel →
    ∃ value next, parseObjectValue fuel stream = some (value, next) ∧
      next.left.length ≤ stream.left.length
  array : ∀ stream : Stream, 4 * stream.left.length + 2 ≤ fuel →
    ∃ values next, parseArray fuel stream = some (values, next) ∧
      next.left.length ≤ stream.left.length
  elements : ∀ (values : List Value) (stream : Stream), 4 * stream.left.length + 4 ≤ fuel →
    ∃ all next, parseElements fuel values stream = some (all, next) ∧
      next.left.length ≤ stream.left.length
  object : ∀ stream : Stream, 4 * stream.left.length + 1 ≤ fuel →
    ∃ complete entries next, parseObject fuel stream = some (complete, entries, next) ∧
      next.left.length ≤ stream.left.length
  members : ∀ (entries : Object) (stream : Stream), 4 * stream.left.length + 1 ≤ fuel →
    ∃ fine all next, parseMembers fuel entries stream = some (fine, all, next) ∧
      next.left.length ≤ stream.left.length

namespace Total

variable {fuel : Nat}

theorem word_succ (total : Total fuel) (stream : Stream)
    (enough : 4 * stream.left.length + 2 ≤ fuel) :
    ∃ value next, parseWord (parseArray fuel) (parseObjectValue fuel) stream =
      some (value, next) ∧ next.left.length ≤ stream.left.length := by
  have object : ∀ later : Stream, later.left.length ≤ stream.left.length →
      ∃ value next, parseObjectValue fuel later = some (value, next) ∧
        next.left.length ≤ stream.left.length := by
    intro later shorter
    rcases total.objectValue later (by omega) with ⟨value, next, result, bound⟩
    exact ⟨value, next, result, bound.trans shorter⟩
  rcases parseBool_total stream with ⟨boolean, first, bool, firstBound⟩
  rw [parseWord, bool, Option.bind_some]
  cases boolean with
  | some boolean => exact ⟨_, _, rfl, firstBound⟩
  | none =>
      rcases parseNull_total first with ⟨found, second, null, secondBound⟩
      have small := secondBound.trans firstBound
      dsimp only
      rw [null, Option.bind_some]
      cases found with
      | true => exact ⟨_, _, rfl, small⟩
      | false =>
          have peeked := congrArg List.length (peek_left second)
          dsimp only
          split
          · rename_i opened equal
            rw [equal] at peeked
            rcases total.array opened (by dsimp only at peeked; omega) with
              ⟨values, last, array, bound⟩
            have lastSmall := bound.trans (peeked.le.trans small)
            rw [array, Option.bind_some]
            cases values with
            | some values => exact ⟨_, _, rfl, lastSmall⟩
            | none => exact object last lastSmall
          · rename_i other _ equal
            rw [equal] at peeked
            exact object other (peeked.le.trans small)

theorem value_succ (total : Total fuel) (stream : Stream)
    (enough : 4 * stream.left.length + 3 ≤ fuel + 1) :
    ∃ value next, parseValue (fuel + 1) stream = some (value, next) ∧
      next.left.length ≤ stream.left.length := by
  rw [parseValue]
  rcases parseString_total stream with ⟨text, first, string, firstBound⟩
  rw [string, Option.bind_some]
  cases text with
  | some text => exact ⟨_, _, rfl, firstBound⟩
  | none =>
      have secondBound := (parseNumber_left_le first).trans firstBound
      dsimp only
      generalize parseNumber first = read at secondBound
      rcases read with ⟨number, second⟩
      cases number with
      | some number => exact ⟨_, _, rfl, secondBound⟩
      | none =>
          rcases total.word_succ second (by dsimp only at secondBound; omega) with
            ⟨value, last, word, lastBound⟩
          exact ⟨value, last, word, lastBound.trans secondBound⟩

theorem objectValue_succ (total : Total fuel) (stream : Stream)
    (enough : 4 * stream.left.length + 2 ≤ fuel + 1) :
    ∃ value next, parseObjectValue (fuel + 1) stream = some (value, next) ∧
      next.left.length ≤ stream.left.length := by
  rcases total.object stream (by omega) with ⟨complete, entries, next, result, bound⟩
  rw [parseObjectValue, result, Option.map_some]
  cases complete <;> exact ⟨_, _, rfl, bound⟩

theorem array_succ (total : Total fuel) (stream : Stream)
    (enough : 4 * stream.left.length + 2 ≤ fuel + 1) :
    ∃ values next, parseArray (fuel + 1) stream = some (values, next) ∧
      next.left.length ≤ stream.left.length := by
  rw [parseArray]
  rcases matchPattern_total ['['] stream with ⟨found, first, opened, firstBound⟩
  rw [opened, Option.bind_some]
  cases found with
  | false => exact ⟨_, _, rfl, firstBound⟩
  | true =>
      have less := matchPattern_takes (by decide) opened
      rcases matchPattern_total [']'] first with ⟨found, second, closed, secondBound⟩
      dsimp only
      rw [closed, Option.bind_some]
      cases found with
      | true => exact ⟨_, _, rfl, secondBound.trans firstBound⟩
      | false =>
          rcases total.elements [] second (by omega) with ⟨values, third, elements, thirdBound⟩
          rcases matchPattern_total [']'] third with ⟨found, last, ended, lastBound⟩
          dsimp only
          rw [elements, Option.bind_some]
          dsimp only
          rw [ended, Option.map_some]
          cases found <;> exact ⟨_, last, rfl, by omega⟩

theorem elements_succ (total : Total fuel) (values : List Value) (stream : Stream)
    (enough : 4 * stream.left.length + 4 ≤ fuel + 1) :
    ∃ all next, parseElements (fuel + 1) values stream = some (all, next) ∧
      next.left.length ≤ stream.left.length := by
  rw [parseElements]
  rcases total.value stream (by omega) with ⟨value, first, read, firstBound⟩
  rw [read, Option.bind_some]
  cases value with
  | none => exact ⟨_, _, rfl, firstBound⟩
  | some value =>
      rcases matchPattern_total [','] first with ⟨found, second, comma, secondBound⟩
      dsimp only
      rw [comma, Option.bind_some]
      cases found with
      | false => exact ⟨_, _, rfl, secondBound.trans firstBound⟩
      | true =>
          have less := matchPattern_takes (by decide) comma
          rcases total.elements (values ++ [value]) second (by omega) with
            ⟨all, last, result, lastBound⟩
          exact ⟨all, last, result, by omega⟩

theorem object_succ (total : Total fuel) (stream : Stream)
    (enough : 4 * stream.left.length + 1 ≤ fuel + 1) :
    ∃ complete entries next, parseObject (fuel + 1) stream = some (complete, entries, next) ∧
      next.left.length ≤ stream.left.length := by
  rw [parseObject]
  rcases matchPattern_total ['\x7b'] stream with ⟨found, first, opened, firstBound⟩
  rw [opened, Option.bind_some]
  cases found with
  | false => exact ⟨_, _, _, rfl, firstBound⟩
  | true =>
      have less := matchPattern_takes (by decide) opened
      rcases matchPattern_total ['\x7d'] first with ⟨found, second, closed, secondBound⟩
      dsimp only
      rw [closed, Option.bind_some]
      cases found with
      | true => exact ⟨_, _, _, rfl, secondBound.trans firstBound⟩
      | false =>
          rcases total.members [] second (by omega) with ⟨fine, entries, third, members, thirdBound⟩
          dsimp only
          rw [members, Option.bind_some]
          cases fine with
          | false => exact ⟨_, _, _, rfl, by omega⟩
          | true =>
              rcases matchPattern_total ['\x7d'] third with ⟨found, last, ended, lastBound⟩
              dsimp only
              rw [ended, Option.map_some]
              exact ⟨found, entries, last, rfl, by omega⟩

theorem members_succ (total : Total fuel) (entries : Object) (stream : Stream)
    (enough : 4 * stream.left.length + 1 ≤ fuel + 1) :
    ∃ fine all next, parseMembers (fuel + 1) entries stream = some (fine, all, next) ∧
      next.left.length ≤ stream.left.length := by
  rw [parseMembers]
  rcases parseString_total stream with ⟨key, first, string, firstBound⟩
  rw [string, Option.bind_some]
  cases key with
  | none =>
      have peeked := congrArg List.length (peek_left first)
      exact ⟨_, _, first.peek.2, rfl, peeked.le.trans firstBound⟩
  | some key =>
      rcases matchPattern_total [':'] first with ⟨found, second, colon, secondBound⟩
      dsimp only
      rw [colon, Option.bind_some]
      cases found with
      | false => exact ⟨_, _, _, rfl, secondBound.trans firstBound⟩
      | true =>
          have less := matchPattern_takes (by decide) colon
          rcases total.value second (by omega) with ⟨value, third, read, thirdBound⟩
          dsimp only
          rw [read, Option.bind_some]
          cases value with
          | none => exact ⟨_, _, _, rfl, by omega⟩
          | some value =>
              rcases matchPattern_total [','] third with ⟨found, fourth, comma, fourthBound⟩
              dsimp only
              rw [comma, Option.bind_some]
              cases found with
              | false => exact ⟨_, _, _, rfl, by omega⟩
              | true =>
                  rcases total.members (Object.insert key value entries) fourth (by omega) with
                    ⟨fine, all, last, result, lastBound⟩
                  exact ⟨fine, all, last, result, by omega⟩

end Total

theorem total (fuel : Nat) : Total fuel := by
  induction fuel with
  | zero => constructor <;> intros <;> omega
  | succ fuel ih =>
      exact ⟨ih.value_succ, ih.objectValue_succ, ih.array_succ, ih.elements_succ, ih.object_succ,
        ih.members_succ⟩

/-! ## A result does not depend on the bound -/

/-- A bound that gives a result can be exceeded. -/
structure Grows (fuel : Nat) : Prop where
  value : ∀ stream result, parseValue fuel stream = some result →
    parseValue (fuel + 1) stream = some result
  objectValue : ∀ stream result, parseObjectValue fuel stream = some result →
    parseObjectValue (fuel + 1) stream = some result
  array : ∀ stream result, parseArray fuel stream = some result →
    parseArray (fuel + 1) stream = some result
  elements : ∀ values stream result, parseElements fuel values stream = some result →
    parseElements (fuel + 1) values stream = some result
  object : ∀ stream result, parseObject fuel stream = some result →
    parseObject (fuel + 1) stream = some result
  members : ∀ entries stream result, parseMembers fuel entries stream = some result →
    parseMembers (fuel + 1) entries stream = some result

theorem bind_grows {α β : Type} {first : Option α} {next more : α → Option β} {result : β}
    (grows : ∀ value result, next value = some result → more value = some result)
    (is : first.bind next = some result) : first.bind more = some result := by
  rcases Option.bind_eq_some_iff.mp is with ⟨value, read, rest⟩
  rw [read, Option.bind_some]
  exact grows value result rest

theorem map_grows {α β : Type} {first more : Option α} {next : α → β} {result : β}
    (grows : ∀ value, first = some value → more = some value)
    (is : first.map next = some result) : more.map next = some result := by
  rcases Option.map_eq_some_iff.mp is with ⟨value, read, rest⟩
  rw [grows value read, Option.map_some, rest]

namespace Grows

variable {fuel : Nat}

theorem word_succ (grows : Grows fuel) (stream : Stream) (result : Option Value × Stream)
    (is : parseWord (parseArray fuel) (parseObjectValue fuel) stream = some result) :
    parseWord (parseArray (fuel + 1)) (parseObjectValue (fuel + 1)) stream = some result := by
  refine bind_grows ?_ is
  rintro ⟨boolean, first⟩ result is
  cases boolean with
  | some boolean => exact is
  | none =>
      refine bind_grows ?_ is
      rintro ⟨found, second⟩ result is
      cases found with
      | true => exact is
      | false =>
          dsimp only at is ⊢
          split at is
          · rcases Option.bind_eq_some_iff.mp is with ⟨⟨values, last⟩, array, rest⟩
            rw [grows.array _ _ array, Option.bind_some]
            cases values with
            | some values => exact rest
            | none => exact grows.objectValue _ _ rest
          · exact grows.objectValue _ _ is

theorem value_succ (grows : Grows fuel) (stream : Stream) (result : Option Value × Stream)
    (is : parseValue (fuel + 1) stream = some result) :
    parseValue (fuel + 2) stream = some result := by
  rw [parseValue] at is ⊢
  refine bind_grows ?_ is
  rintro ⟨text, first⟩ result is
  cases text with
  | some text => exact is
  | none =>
      dsimp only at is ⊢
      split at is
      · exact is
      · exact grows.word_succ _ _ is

theorem array_succ (grows : Grows fuel) (stream : Stream)
    (result : Option (List Value) × Stream)
    (is : parseArray (fuel + 1) stream = some result) :
    parseArray (fuel + 2) stream = some result := by
  rw [parseArray] at is ⊢
  refine bind_grows ?_ is
  rintro ⟨opened, first⟩ result is
  cases opened with
  | false => exact is
  | true =>
      refine bind_grows ?_ is
      rintro ⟨closed, second⟩ result is
      cases closed with
      | true => exact is
      | false =>
          rcases Option.bind_eq_some_iff.mp is with ⟨⟨values, third⟩, elements, rest⟩
          dsimp only
          rw [grows.elements _ _ _ elements]
          exact rest

theorem elements_succ (grows : Grows fuel) (values : List Value) (stream : Stream)
    (result : List Value × Stream)
    (is : parseElements (fuel + 1) values stream = some result) :
    parseElements (fuel + 2) values stream = some result := by
  rw [parseElements] at is ⊢
  rcases Option.bind_eq_some_iff.mp is with ⟨⟨value, first⟩, read, rest⟩
  rw [grows.value _ _ read, Option.bind_some]
  cases value with
  | none => exact rest
  | some value =>
      refine bind_grows ?_ rest
      rintro ⟨comma, second⟩ result is
      cases comma with
      | true => exact grows.elements _ _ _ is
      | false => exact is

theorem object_succ (grows : Grows fuel) (stream : Stream) (result : Bool × Object × Stream)
    (is : parseObject (fuel + 1) stream = some result) :
    parseObject (fuel + 2) stream = some result := by
  rw [parseObject] at is ⊢
  refine bind_grows ?_ is
  rintro ⟨opened, first⟩ result is
  cases opened with
  | false => exact is
  | true =>
      refine bind_grows ?_ is
      rintro ⟨closed, second⟩ result is
      cases closed with
      | true => exact is
      | false =>
          rcases Option.bind_eq_some_iff.mp is with ⟨members, read, rest⟩
          dsimp only
          rw [grows.members _ _ _ read]
          exact rest

theorem members_succ (grows : Grows fuel) (entries : Object) (stream : Stream)
    (result : Bool × Object × Stream)
    (is : parseMembers (fuel + 1) entries stream = some result) :
    parseMembers (fuel + 2) entries stream = some result := by
  rw [parseMembers] at is ⊢
  refine bind_grows ?_ is
  rintro ⟨key, first⟩ result is
  cases key with
  | none => exact is
  | some key =>
      refine bind_grows ?_ is
      rintro ⟨colon, second⟩ result is
      cases colon with
      | false => exact is
      | true =>
          rcases Option.bind_eq_some_iff.mp is with ⟨⟨value, third⟩, read, rest⟩
          dsimp only
          rw [grows.value _ _ read, Option.bind_some]
          cases value with
          | none => exact rest
          | some value =>
              refine bind_grows ?_ rest
              rintro ⟨comma, fourth⟩ result is
              cases comma with
              | true => exact grows.members _ _ _ is
              | false => exact is

end Grows

theorem grows (fuel : Nat) : Grows fuel := by
  induction fuel with
  | zero => constructor <;> intros <;> contradiction
  | succ fuel ih =>
      constructor
      · exact ih.value_succ
      · intro stream result is
        rw [parseObjectValue] at is ⊢
        exact map_grows (ih.object stream) is
      · exact ih.array_succ
      · exact ih.elements_succ
      · exact ih.object_succ
      · exact ih.members_succ

/-- A result with one bound is the result with every larger bound. -/
theorem parseObject_mono {fuel more : Nat} (le : fuel ≤ more) {stream : Stream}
    {result : Bool × Object × Stream} (is : parseObject fuel stream = some result) :
    parseObject more stream = some result := by
  induction le with
  | refl => exact is
  | step _ ih => exact (grows _).object _ _ ih

theorem parseValue_mono {fuel more : Nat} (le : fuel ≤ more) {stream : Stream}
    {result : Option Value × Stream} (is : parseValue fuel stream = some result) :
    parseValue more stream = some result := by
  induction le with
  | refl => exact is
  | step _ ih => exact (grows _).value _ _ ih

/-- The parser ends for every text, with one result for all bounds from four rounds
for each character on. -/
theorem parse_terminates (text : Str) :
    ∃ complete entries, ∀ fuel, 4 * text.length + 1 ≤ fuel →
      parseWith fuel text = some (complete, entries) := by
  rcases (total (4 * text.length + 1)).object (Stream.ofText text) le_rfl with
    ⟨complete, entries, next, result, _⟩
  refine ⟨complete, entries, ?_⟩
  intro fuel enough
  rw [parseWith, parseObject_mono enough result]
  rfl

end Sentri.LibModule.Json
