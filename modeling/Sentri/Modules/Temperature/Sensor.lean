import Sentri.LibModule.Message
import Sentri.Number.Stod

/-!
# Reading the temperature sensor

The sensor is a file with two lines, the second of which ends with the temperature
in thousandths of a degree.  Its stream is kept between two readings, together
with its flags.
-/

namespace Sentri.Modules.Temperature

open Sentri.LibModule Sentri.Number Sentri.Text

/-! ## File streams -/

/-- A `std::ifstream`, without its content, which changes between two readings. -/
structure Stream where
  position : Nat
  eofbit : Bool
  failbit : Bool
  deriving DecidableEq

namespace Stream

def good (stream : Stream) : Bool :=
  !stream.eofbit && !stream.failbit

/-- Clears `eofbit`, but does not move in a failed stream.  A position after the end is
allowed. -/
def seekg (stream : Stream) (position : Nat) : Stream :=
  if stream.failbit then
    { stream with eofbit := false }
  else
    ⟨position, false, false⟩

/-- `std::getline`, which leaves the line alone when the stream is not good. -/
def getline (stream : Stream) (content line : Str) : Stream × Str :=
  if stream.good then
    let rest := content.drop stream.position
    let line := rest.takeWhile (· ≠ '\n')
    if line.length < rest.length then
      ({ stream with position := stream.position + line.length + 1 }, line)
    else
      (⟨stream.position + line.length, true, rest.isEmpty⟩, line)
  else
    ({ stream with failbit := true }, line)

/-- The characters that are read, at most `count`. -/
def read (stream : Stream) (content : Str) (count : Nat) : Stream × Str :=
  if stream.good then
    let chars := (content.drop stream.position).take count
    if chars.length < count then
      (⟨stream.position + chars.length, true, true⟩, chars)
    else
      ({ stream with position := stream.position + count }, chars)
  else
    ({ stream with failbit := true }, [])

end Stream

/-- `std::string::find`: the first position of a text. -/
def find (needle : Str) : Str → Option Nat
  | [] => if needle = [] then some 0 else none
  | c :: text => if needle.isPrefixOf (c :: text) then some 0 else (find needle text).map (· + 1)

/-- `std::string::insert`, which throws behind the end. -/
def insert (text : Str) (position : Nat) (inserted : Str) : Except StodError Str :=
  if position ≤ text.length then
    .ok (text.take position ++ inserted ++ text.drop position)
  else
    .error .outOfRange

/-! ## The sensor -/

/-- `TEMPERATURE_PREFIX` -/
def temperaturePrefix : Str :=
  "t=".toList

/-- `TEMPERATURE_WITH` -/
def temperatureWith : Nat :=
  5

/-- `ABSOLUTE_ZERO` -/
def absoluteZero : Rat :=
  -274

/-- The variables of `readTemperature`, with the messages it has logged. -/
structure Reading where
  sensor : Stream
  line : Str
  absPos : Nat
  found : Bool
  temperature : Double
  logged : List (LogSeverity × Str)
  deriving DecidableEq

namespace Reading

/-- The variables before the loop. -/
def start (sensor : Stream) : Reading where
  sensor := sensor.seekg 0
  line := []
  absPos := 0
  found := false
  temperature := .finite absoluteZero
  logged := []

/-- The conversion of the buffer.  The string ends at the first NUL, in the characters
that were read or in the memory behind them. -/
def convert (chars stray : Str) : Except StodError Double := do
  stod (← insert (cStr (chars ++ stray)) 2 ".".toList)

/-- A round with a line that has the prefix. -/
def take (reading : Reading) (content stray : Str) (pos : Nat) : Except StodError Reading :=
  let (sensor, chars) := (reading.sensor.seekg
    (reading.absPos + pos + temperaturePrefix.length + 1)).read content temperatureWith
  let next := { reading with
    sensor := sensor
    found := true
    absPos := reading.absPos + reading.line.length }
  match convert chars stray with
  | .ok temperature => .ok { next with temperature := temperature }
  | .error .invalidArgument => .ok { next with
      logged := reading.logged ++
        [(.error, "Invalid temperature reading! ".toList ++ "stod".toList)] }
  | .error .outOfRange => .error .outOfRange

/-- One round of the loop.  An exception that is not caught ends the reading. -/
def round (reading : Reading) (content stray : Str) : Except StodError Reading :=
  let (sensor, line) := reading.sensor.getline content reading.line
  let reading := { reading with sensor := sensor, line := line }
  match find temperaturePrefix line with
  | some pos => reading.take content stray pos
  | none => .ok { reading with absPos := reading.absPos + line.length }

/-- The loop; `none` stands for one that is not over yet. -/
def loop (content stray : Str) : Nat → Reading → Option (Except StodError Reading)
  | 0, _ => none
  | fuel + 1, reading =>
      if !reading.sensor.eofbit && !reading.found then
        match reading.round content stray with
        | .ok reading => loop content stray fuel reading
        | .error thrown => some (.error thrown)
      else
        some (.ok reading)

end Reading

/-- `stray` is what the memory behind the characters of the buffer holds. -/
def readTemperature (content stray : Str) (fuel : Nat) (sensor : Stream) :
    Option (Except StodError Reading) :=
  (Reading.start sensor).loop content stray fuel

/-! ## What a reading gives -/

/-- The offset from which the temperature is read: after the prefix in the first line
that has it, if the lines before it are at most one. -/
def located : Nat → List Str → Option Nat
  | _, [] => none
  | absPos, line :: lines =>
      match find temperaturePrefix line with
      | some pos => some (absPos + pos + temperaturePrefix.length + 1)
      | none => located (absPos + line.length) lines

/-- The offset from which the temperature is read. -/
def offset (content : Str) : Option Nat :=
  located 0 (content.splitOn '\n')

/-- The characters that are read at an offset. -/
def window (content : Str) (offset : Nat) : Str :=
  (content.drop offset).take temperatureWith

/-- What the loop leaves behind: whether the stream has failed, and the temperature. -/
def Reading.summary (reading : Reading) : Bool × Double :=
  (reading.sensor.failbit, reading.temperature)

/-- The end of a reading at an offset. -/
def converted (content stray : Str) (temperature : Double) (offset : Nat) :
    Except StodError (Bool × Double) :=
  let failed := decide (content.length < offset + temperatureWith)
  match Reading.convert (window content offset) stray with
  | .ok temperature => .ok (failed, temperature)
  | .error .invalidArgument => .ok (failed, temperature)
  | .error .outOfRange => .error .outOfRange

/-- The end of a reading of lines; the last line ends the stream. -/
def outcome (content stray : Str) (temperature : Double) (absPos : Nat) (lines : List Str) :
    Except StodError (Bool × Double) :=
  match located absPos lines with
  | some offset => converted content stray temperature offset
  | none => .ok (lines.getLast? == some [], temperature)

/-! ## Lines -/

/-- Without a newline the rest is the last line. -/
theorem getline_last (old : Str) {content line : Str} {position : Nat}
    (rest : content.drop position = line) (noNewline : '\n' ∉ line) :
    (⟨position, false, false⟩ : Stream).getline content old =
      (⟨position + line.length, true, line.isEmpty⟩, line) := by
  have whole : line.takeWhile (· ≠ '\n') = line := by
    rw [List.takeWhile_eq_self_iff]
    intro c member
    simpa using fun equal : c = '\n' => noNewline (equal ▸ member)
  rw [Stream.getline, rest]
  simp only [Stream.good, Bool.not_false, Bool.and_self, if_true, whole, lt_irrefl, if_false]

theorem getline_newline (old : Str) {content line more : Str} {position : Nat}
    (rest : content.drop position = line ++ '\n' :: more) (noNewline : '\n' ∉ line) :
    (⟨position, false, false⟩ : Stream).getline content old =
      (⟨position + line.length + 1, false, false⟩, line) := by
  have first : (line ++ '\n' :: more).takeWhile (· ≠ '\n') = line := by
    rw [List.takeWhile_append_of_pos, List.takeWhile_cons_of_neg (by simp), List.append_nil]
    intro c member
    simpa using fun equal : c = '\n' => noNewline (equal ▸ member)
  rw [Stream.getline, rest]
  simp only [Stream.good, Bool.not_false, Bool.and_self, if_true, first]
  rw [if_pos (by simp)]

/-- A text is its last line, or a line followed by others. -/
theorem line_cases (text : Str) :
    ('\n' ∉ text ∧ text.splitOn '\n' = [text]) ∨
    ∃ line more, '\n' ∉ line ∧ text = line ++ '\n' :: more ∧
      text.splitOn '\n' = line :: more.splitOn '\n' := by
  by_cases newline : '\n' ∈ text
  · right
    rcases List.eq_append_cons_of_mem newline with ⟨line, more, equal, noNewline⟩
    refine ⟨line, more, noNewline, equal, ?_⟩
    rw [equal]
    exact List.splitOn_append_cons_self_of_not_mem noNewline more
  · left
    exact ⟨newline, List.splitOn_eq_singleton newline⟩

/-- The characters at a position, and a failed stream if there are too few. -/
theorem read_spec (content : Str) (position : Nat) :
    ∃ sensor, (⟨position, false, false⟩ : Stream).read content temperatureWith =
        (sensor, window content position) ∧
      sensor.failbit = decide (content.length < position + temperatureWith) := by
  have positive : 0 < temperatureWith := by decide
  have length : (window content position).length < temperatureWith ↔
      content.length < position + temperatureWith := by
    rw [window, List.length_take, List.length_drop]
    omega
  by_cases short : content.length < position + temperatureWith
  · exact ⟨_, if_pos (length.mpr short), (decide_eq_true short).symm⟩
  · exact ⟨_, if_neg fun shorter => short (length.mp shorter), (decide_eq_false short).symm⟩

/-! ## The loop -/

namespace Reading

theorem loop_over {content stray : Str} {reading : Reading} (fuel : Nat)
    (finished : reading.sensor.eofbit = true ∨ reading.found = true) :
    reading.loop content stray (fuel + 1) = some (.ok reading) := by
  rw [loop, if_neg]
  rcases finished with atEnd | found
  · simp [atEnd]
  · simp [found]

theorem loop_searching {content stray : Str} {reading : Reading} (fuel : Nat)
    (more : reading.sensor.eofbit = false) (searching : reading.found = false) :
    reading.loop content stray (fuel + 1) =
      match reading.round content stray with
      | .ok reading => loop content stray fuel reading
      | .error thrown => some (.error thrown) := by
  rw [loop, if_pos]
  simp [more, searching]

theorem loop_mono {content stray : Str} {fuel more : Nat} {reading : Reading}
    {result : Except StodError Reading} (le : fuel ≤ more)
    (returns : reading.loop content stray fuel = some result) :
    reading.loop content stray more = some result := by
  induction fuel generalizing more reading with
  | zero => cases returns
  | succ fuel ih =>
      rcases Nat.exists_eq_add_of_le' le with ⟨extra, rfl⟩
      rw [← Nat.add_assoc]
      by_cases finished : reading.sensor.eofbit = true ∨ reading.found = true
      · rw [loop_over _ finished] at returns ⊢
        exact returns
      · rw [not_or, Bool.not_eq_true, Bool.not_eq_true] at finished
        rw [loop_searching _ finished.1 finished.2] at returns ⊢
        cases round : reading.round content stray with
        | error thrown =>
            rw [round] at returns
            exact returns
        | ok next =>
            rw [round] at returns
            exact ih (Nat.le_add_left fuel extra) returns

/-- A round at the prefix ends the loop, with what is converted. -/
theorem take_spec (content stray : Str) {reading : Reading}
    (alive : reading.sensor.failbit = false) (pos : Nat) :
    (reading.take content stray pos).map summary = converted content stray reading.temperature
        (reading.absPos + pos + temperaturePrefix.length + 1) ∧
      ∀ next, reading.take content stray pos = .ok next → next.found = true := by
  have sought : reading.sensor.seekg (reading.absPos + pos + temperaturePrefix.length + 1) =
      ⟨reading.absPos + pos + temperaturePrefix.length + 1, false, false⟩ := by
    rw [Stream.seekg, if_neg (by simp [alive])]
  rcases read_spec content (reading.absPos + pos + temperaturePrefix.length + 1) with
    ⟨sensor, reads, failbit⟩
  unfold take converted
  simp only [sought, reads, ← failbit]
  cases convert (window content (reading.absPos + pos + temperaturePrefix.length + 1)) stray with
  | ok temperature => exact ⟨rfl, by rintro _ ⟨⟩; rfl⟩
  | error thrown =>
      cases thrown with
      | invalidArgument => exact ⟨rfl, by rintro _ ⟨⟩; rfl⟩
      | outOfRange => exact ⟨rfl, by rintro _ ⟨⟩⟩

section

variable {content stray line : Str} {sensor : Stream} {reading : Reading}

theorem round_found {pos : Nat}
    (read : reading.sensor.getline content reading.line = (sensor, line))
    (found : find temperaturePrefix line = some pos) :
    reading.round content stray =
      ({ reading with sensor := sensor, line := line } : Reading).take content stray pos := by
  unfold round
  simp only [read, found]

theorem round_missing (read : reading.sensor.getline content reading.line = (sensor, line))
    (missing : find temperaturePrefix line = none) :
    reading.round content stray = .ok { reading with
      sensor := sensor
      line := line
      absPos := reading.absPos + line.length } := by
  unfold round
  simp only [read, missing]

end

/-- A line with the prefix is the last one. -/
theorem loop_found {content stray line : Str} {sensor : Stream} {reading : Reading} {pos : Nat}
    (fuel : Nat) (more : reading.sensor.eofbit = false) (searching : reading.found = false)
    (read : reading.sensor.getline content reading.line = (sensor, line))
    (alive : sensor.failbit = false) (found : find temperaturePrefix line = some pos) :
    ∃ result, reading.loop content stray (fuel + 1 + 1) = some result ∧
      result.map summary = converted content stray reading.temperature
        (reading.absPos + pos + temperaturePrefix.length + 1) := by
  rw [loop_searching _ more searching, round_found read found]
  let next : Reading := { reading with sensor := sensor, line := line }
  have nextAlive : next.sensor.failbit = false := alive
  rcases take_spec content stray nextAlive pos with ⟨summarised, found⟩
  cases taken : next.take content stray pos with
  | error thrown =>
      refine ⟨.error thrown, rfl, ?_⟩
      rw [taken] at summarised
      exact summarised
  | ok final =>
      refine ⟨.ok final, loop_over fuel (Or.inr (found final taken)), ?_⟩
      rw [taken] at summarised
      exact summarised

/-- The loop reads one line after the other. -/
theorem loop_spec (content stray : Str) {fuel position : Nat} {reading : Reading} {rest : Str}
    (sensor : reading.sensor = ⟨position, false, false⟩) (searching : reading.found = false)
    (left : content.drop position = rest) (enough : rest.length + 2 < fuel) :
    ∃ result, reading.loop content stray fuel = some result ∧ result.map summary =
      outcome content stray reading.temperature reading.absPos (rest.splitOn '\n') := by
  induction fuel generalizing position reading rest with
  | zero => exact absurd enough (Nat.not_lt_zero _)
  | succ fuel ih =>
      have more : reading.sensor.eofbit = false := by rw [sensor]
      rcases Nat.exists_eq_succ_of_ne_zero (by omega : fuel ≠ 0) with ⟨spare, rfl⟩
      rcases line_cases rest with ⟨noNewline, lines⟩ | ⟨line, behind, noNewline, equal, lines⟩
      · have read := getline_last reading.line left noNewline
        rw [← sensor] at read
        cases search : find temperaturePrefix rest with
        | none =>
            rw [loop_searching _ more searching, round_missing read search]
            refine ⟨_, loop_over spare (Or.inl rfl), ?_⟩
            simp only [lines, outcome, located, search]
            cases rest <;> rfl
        | some pos =>
            have alive : rest.isEmpty = false := by
              cases rest with
              | nil => cases search
              | cons c rest => rfl
            simp only [lines, outcome, located, search]
            exact loop_found spare more searching read alive search
      · have read := getline_newline reading.line (left.trans equal) noNewline
        rw [← sensor] at read
        cases search : find temperaturePrefix line with
        | none =>
            rw [loop_searching _ more searching, round_missing read search]
            have next : content.drop (position + line.length + 1) = behind := by
              rw [Nat.add_assoc, ← List.drop_drop, left, equal]
              simp
            have shorter : behind.length + 2 < spare + 1 := by
              have length := congrArg List.length equal
              rw [List.length_append, List.length_cons] at length
              omega
            let forward : Reading := { reading with
              sensor := ⟨position + line.length + 1, false, false⟩
              line := line
              absPos := reading.absPos + line.length }
            have alive : forward.sensor = ⟨position + line.length + 1, false, false⟩ := rfl
            have forwardSearching : forward.found = false := searching
            rcases ih alive forwardSearching next shorter with ⟨result, looped, summarised⟩
            refine ⟨result, looped, summarised.trans ?_⟩
            have last : (line :: behind.splitOn '\n').getLast? = (behind.splitOn '\n').getLast? :=
              List.getLast?_cons_of_ne_nil (List.splitOn_ne_nil _ _)
            simp only [lines, outcome, located, search, last]
            rfl
        | some pos =>
            simp only [lines, outcome, located, search]
            exact loop_found spare more searching read rfl search

/-- In a failed stream no line is read, and the end is never reached. -/
theorem loop_failed {content stray : Str} (fuel : Nat) {reading : Reading}
    (more : reading.sensor.eofbit = false) (failed : reading.sensor.failbit = true)
    (searching : reading.found = false) (empty : reading.line = []) :
    reading.loop content stray fuel = none := by
  induction fuel generalizing reading with
  | zero => rfl
  | succ fuel ih =>
      have read : reading.sensor.getline content reading.line = (reading.sensor, []) := by
        rw [Stream.getline, if_neg (by simp [Stream.good, failed]), empty, ← failed]
      rw [loop_searching _ more searching, round_missing read rfl]
      exact ih more failed searching rfl

end Reading

/-! ## Calls -/

theorem readTemperature_spec (content stray : Str) {sensor : Stream}
    (alive : sensor.failbit = false) :
    ∃ fuel result, readTemperature content stray fuel sensor = some result ∧
      result.map Reading.summary =
        outcome content stray (.finite absoluteZero) 0 (content.splitOn '\n') := by
  have start : (Reading.start sensor).sensor = ⟨0, false, false⟩ := by
    rw [Reading.start, Stream.seekg, if_neg (by simp [alive])]
  rcases Reading.loop_spec content stray start rfl (rfl : content.drop 0 = content)
    (Nat.lt_succ_self _) with ⟨result, looped, summarised⟩
  exact ⟨_, result, looped, summarised⟩

theorem readTemperature_failed (content stray : Str) (fuel : Nat) {sensor : Stream}
    (failed : sensor.failbit = true) : readTemperature content stray fuel sensor = none := by
  have start : (Reading.start sensor).sensor = { sensor with eofbit := false } := by
    rw [Reading.start, Stream.seekg, if_pos failed]
  exact Reading.loop_failed fuel (by rw [start]) (by rw [start]; exact failed) rfl rfl

/-- A call has at most one result. -/
theorem readTemperature_unique {content stray : Str} {fuel more : Nat} {sensor : Stream}
    {result other : Except StodError Reading}
    (first : readTemperature content stray fuel sensor = some result)
    (second : readTemperature content stray more sensor = some other) : result = other := by
  have firstMax := Reading.loop_mono (le_max_left fuel more) first
  have secondMax := Reading.loop_mono (le_max_right fuel more) second
  rw [firstMax] at secondMax
  cases secondMax
  rfl

/-! ## Successive calls -/

/-- Every call returns, each with the stream that the one before has left. -/
def AllReturn : List (Str × Str) → Stream → Prop
  | [], _ => True
  | (content, stray) :: left, sensor =>
      ∃ fuel reading, readTemperature content stray fuel sensor = some (.ok reading) ∧
        AllReturn left reading.sensor

/-- If there is a prefix, the string in the buffer is long enough for the point, and its
number is not out of range. -/
def Convertible (content stray : Str) : Prop :=
  ∀ position, offset content = some position →
    Reading.convert (window content position) stray ≠ .error .outOfRange

/-- A prefix with enough characters after it, or else a last line that is not empty. -/
def Intact (content : Str) : Prop :=
  match offset content with
  | some position => position + temperatureWith ≤ content.length
  | none => (content.splitOn '\n').getLast? ≠ some []

/-- The contents but the last one are intact, and all are convertible. -/
def Harmless : List (Str × Str) → Prop
  | [] => True
  | [(content, stray)] => Convertible content stray
  | (content, stray) :: next :: left =>
      Convertible content stray ∧ Intact content ∧ Harmless (next :: left)

/-- The first reading of a content that is not convertible throws; the others tell
whether the content is intact. -/
theorem outcome_cases (content stray : Str) :
    (¬ Convertible content stray ∧ outcome content stray (.finite absoluteZero) 0
        (content.splitOn '\n') = .error .outOfRange) ∨
    ∃ failed temperature, Convertible content stray ∧ (failed = false ↔ Intact content) ∧
      outcome content stray (.finite absoluteZero) 0 (content.splitOn '\n') =
        .ok (failed, temperature) := by
  rw [outcome, ← offset]
  cases found : offset content with
  | none =>
      right
      refine ⟨_, _, ?_, ?_, rfl⟩
      · intro position other
        rw [found] at other
        cases other
      · rw [Intact, found]
        simp
  | some position =>
      have intact : decide (content.length < position + temperatureWith) = false ↔
          Intact content := by
        rw [Intact, found]
        simp
      have only : ∀ result, Reading.convert (window content position) stray = result →
          (Convertible content stray ↔ result ≠ .error .outOfRange) := by
        rintro result rfl
        constructor
        · intro convertible
          exact convertible position found
        · intro fine other otherFound
          rw [found] at otherFound
          cases otherFound
          exact fine
      simp only [converted]
      cases converting : Reading.convert (window content position) stray with
      | ok temperature =>
          right
          exact ⟨_, temperature, (only _ converting).mpr (by simp), intact, rfl⟩
      | error thrown =>
          cases thrown with
          | invalidArgument =>
              right
              exact ⟨_, _, (only _ converting).mpr (by simp), intact, rfl⟩
          | outOfRange =>
              left
              exact ⟨fun convertible => (only _ converting).mp convertible rfl, rfl⟩

/-- A call returns exactly for a convertible content, and leaves the stream failed
exactly for one that is not intact. -/
theorem call_cases (content stray : Str) {sensor : Stream} (alive : sensor.failbit = false) :
    (¬ Convertible content stray ∧ ∀ fuel reading,
      readTemperature content stray fuel sensor ≠ some (.ok reading)) ∨
    ∃ fuel reading, Convertible content stray ∧
      readTemperature content stray fuel sensor = some (.ok reading) ∧
      (reading.sensor.failbit = false ↔ Intact content) := by
  rcases readTemperature_spec content stray alive with ⟨fuel, result, called, summarised⟩
  rcases outcome_cases content stray with
    ⟨unconvertible, thrown⟩ | ⟨failed, temperature, convertible, intact, returned⟩
  · left
    refine ⟨unconvertible, fun more reading other => ?_⟩
    rw [readTemperature_unique called other, thrown] at summarised
    cases summarised
  · right
    rw [returned] at summarised
    cases result with
    | error thrown => cases summarised
    | ok reading =>
        cases summarised
        exact ⟨fuel, reading, convertible, called, intact⟩

/-- The calls return exactly if no content but the last leaves the stream failed, and no
conversion is out of range. -/
theorem allReturn_iff (readings : List (Str × Str)) {sensor : Stream}
    (alive : sensor.failbit = false) : AllReturn readings sensor ↔ Harmless readings := by
  induction readings generalizing sensor with
  | nil => exact Iff.rfl
  | cons first left ih =>
      rcases first with ⟨content, stray⟩
      rcases call_cases content stray alive with
        ⟨unconvertible, never⟩ | ⟨fuel, reading, convertible, called, intact⟩
      · have notHarmless : ¬ Harmless ((content, stray) :: left) := by
          cases left with
          | nil => exact unconvertible
          | cons next left => exact fun harmless => unconvertible harmless.1
        exact iff_of_false (fun ⟨fuel, reading, called, _⟩ => never fuel reading called)
          notHarmless
      · have unrolled : AllReturn ((content, stray) :: left) sensor ↔
            AllReturn left reading.sensor := by
          constructor
          · rintro ⟨more, other, otherCalled, rest⟩
            cases readTemperature_unique called otherCalled
            exact rest
          · intro rest
            exact ⟨fuel, reading, called, rest⟩
        rw [unrolled]
        cases left with
        | nil => exact iff_of_true trivial convertible
        | cons next left =>
            by_cases whole : Intact content
            · rw [ih (intact.mpr whole), Harmless]
              exact ⟨fun rest => ⟨convertible, whole, rest⟩, fun harmless => harmless.2.2⟩
            · have failed : reading.sensor.failbit = true := by
                simpa using mt intact.mp whole
              apply iff_of_false
              · rintro ⟨more, other, otherCalled, _⟩
                rw [readTemperature_failed _ _ more failed] at otherCalled
                cases otherCalled
              · exact fun harmless => whole harmless.2.1

/-- A stream that was just opened. -/
def opened : Stream :=
  ⟨0, false, false⟩

/-- Every call with the stream of the sensor returns exactly if no content but the last
leaves the stream failed, and no conversion is out of range. -/
theorem sensor_returns_iff (readings : List (Str × Str)) :
    AllReturn readings opened ↔ Harmless readings :=
  allReturn_iff readings rfl

/-- After a content without a temperature the next call does not return. -/
theorem second_reading_hangs : ¬ ∀ (readings : List (Str × Str)), AllReturn readings opened := by
  intro always
  have readings := (allReturn_iff _ rfl).mp
    (always [("crc=ff NO\n".toList, []), ("crc=ff NO\n".toList, [])])
  have intact := readings.2.1
  have noPrefix : offset "crc=ff NO\n".toList = none := by decide
  rw [Intact, noPrefix] at intact
  exact intact (by decide)

end Sentri.Modules.Temperature
