import Sentri.Number.Stod

/-!
# Input streams

An input stream with its position and its two state bits, as in the standard
library: nothing is read from a stream that is not good, and a character can be
put back only where it was read.  Streams that are good and whose position is
known are written `between`; the simp set computes with them.
-/

namespace Sentri.Text

open Sentri.Number

structure Stream where
  /-- The characters before the position, the last one first. -/
  passed : Str
  left : Str
  eof : Bool
  fail : Bool
  deriving DecidableEq

namespace Stream

/-- A good stream. -/
def between (passed left : Str) : Stream :=
  ⟨passed, left, false, false⟩

def ofText (text : Str) : Stream :=
  between [] text

def good (stream : Stream) : Bool :=
  !stream.eof && !stream.fail

/-- The next character. -/
def get (stream : Stream) : Option Char × Stream :=
  if stream.good then
    match stream.left with
    | [] => (none, { stream with eof := true, fail := true })
    | c :: left => (some c, { stream with passed := c :: stream.passed, left := left })
  else
    (none, { stream with fail := true })

/-- The next character, which stays where it is. -/
def peek (stream : Stream) : Option Char × Stream :=
  if stream.good then
    match stream.left with
    | [] => (none, { stream with eof := true })
    | c :: _ => (some c, stream)
  else
    (none, { stream with fail := true })

/-- Go back by one character. -/
def unget (stream : Stream) : Stream :=
  match stream.fail, stream.passed with
  | false, c :: passed => between passed (c :: stream.left)
  | _, _ => { stream with eof := false, fail := true }

/-- Go back by one character, which has to be the given one. -/
def putback (c : Char) (stream : Stream) : Stream :=
  if stream.passed.head? = some c then stream.unget
  else { stream with eof := false, fail := true }

/-- Skip blanks. -/
def ws (stream : Stream) : Stream :=
  if stream.good then
    let left := stream.left.dropWhile isSpace
    { stream with
      passed := (stream.left.takeWhile isSpace).reverse ++ stream.passed
      left := left
      eof := left.isEmpty }
  else
    { stream with fail := true }

def clear (stream : Stream) : Stream :=
  { stream with eof := false, fail := false }

/-! ## Good streams -/

variable (passed : Str) (c : Char) (left : Str)

@[simp]
theorem good_between : (between passed left).good = true :=
  rfl

@[simp]
theorem get_between : (between passed (c :: left)).get = (some c, between (c :: passed) left) :=
  rfl

@[simp]
theorem peek_between : (between passed (c :: left)).peek = (some c, between passed (c :: left)) :=
  rfl

@[simp]
theorem putback_between : (between (c :: passed) left).putback c = between passed (c :: left) := by
  simp [putback, unget, between]

@[simp]
theorem unget_between : (between (c :: passed) left).unget = between passed (c :: left) :=
  rfl

@[simp]
theorem clear_between : (between passed left).clear = between passed left :=
  rfl

variable {passed c left}

theorem ws_between (solid : isSpace c = false) :
    (between passed (c :: left)).ws = between passed (c :: left) := by
  simp [ws, between, good, solid]

theorem ws_blank (blank : isSpace c) :
    (between passed (c :: left)).ws = (between (c :: passed) left).ws := by
  simp [ws, between, good, blank]

/-! ## What is left -/

/-- No operation reads back behind what it puts back. -/
theorem get_left_le (stream : Stream) : stream.get.2.left.length ≤ stream.left.length := by
  unfold get
  split
  · split
    · exact le_rfl
    · rename_i equal
      simp [equal]
  · exact le_rfl

end Stream

end Sentri.Text
