import Sentri.LibModule.Json
import Sentri.Text.Stream

/-!
# The JSON parser

The parser of the configuration files and of the answers of the server, in its
permissive mode and with quoted keys.  It reads an input stream by trying one
kind of value after the other; a token that is tried in vain is put back, but
not the comments before it.

Every function that loops has a bound on its rounds and gives no result when the
bound is exceeded.
-/

namespace Sentri.LibModule.Json

open Sentri.Number Sentri.Text

/-! ## Tokens -/

/-- Skip the rest of a line and the blanks behind it. -/
def skipLine (stream : Stream) : Stream :=
  let inLine : Char → Bool := fun c => c ≠ '\r' && c ≠ '\n'
  let rest := stream.left.dropWhile inLine
  let stream : Stream :=
    { stream with
      passed := (stream.left.takeWhile inLine).reverse ++ stream.passed
      left := rest }
  if rest.isEmpty then { stream with eof := true, fail := true } else stream.ws

/-- Skip a comment. -/
def parseComment (stream : Stream) : Bool × Stream :=
  if stream.eof then
    (false, stream)
  else
    match stream.peek with
    | (some '/', stream) =>
        let stream := stream.get.2
        match stream.get with
        | (some '/', stream) => (true, skipLine stream)
        | (_, stream) => (false, stream.unget.clear.unget.clear)
    | (_, stream) => (false, stream)

/-- The loop of `match`: `taken` of the pattern is matched, the last character
first, and `pattern` is left.  At the end of the input `ch` keeps its value. -/
def matchLoop : Nat → Char → Str → Str → Stream → Option (Bool × Stream)
  | 0, _, _, _, _ => none
  | _ + 1, _, _, [], stream => some (true, stream)
  | fuel + 1, ch, taken, c :: pattern, stream =>
      if stream.good then
        let (read, stream) := stream.get
        let ch := read.getD ch
        if ch = c then
          matchLoop fuel ch (c :: taken) pattern stream
        else
          match parseComment (stream.putback ch) with
          | (true, stream) => matchLoop fuel ch taken (c :: pattern) stream
          | (false, stream) =>
              some (false, taken.foldl (fun stream c => stream.putback c) stream)
      else
        some (false, stream)

/-- Consume the pattern, with the blanks and comments before it. -/
def matchPattern (pattern : Str) (stream : Stream) : Option (Bool × Stream) :=
  matchLoop (stream.ws.left.length + pattern.length + 1) nul [] pattern stream.ws

def dropHexMark : Str → Str
  | '0' :: c :: rest => if c.toLower = 'x' then rest else '0' :: c :: rest
  | text => text

/-- `stream >> i` for a hexadecimal `int`, at the front of a text. -/
def readHex (text : Str) : Option Int :=
  let (sign, text) := readSign (text.dropWhile isSpace)
  let digits := (dropHexMark text).takeWhile (isDigitOf 16)
  if digits = [] then none else some (sign * ofDigits 16 digits)

/-- Read four characters; at the end of the input `ch` keeps its value. -/
def getFour : Nat → Char → Stream → Str × Char × Stream
  | 0, ch, stream => ([], ch, stream)
  | count + 1, ch, stream =>
      if stream.good then
        let (read, stream) := stream.get
        let ch := read.getD ch
        let (digits, last, stream) := getFour count ch stream
        (ch :: digits, last, stream)
      else
        ([], ch, stream)

/-- An `int` as a `char`. -/
def toChar (value : Int) : Char :=
  Char.ofNat (value % 256).toNat

/-- What a backslash and the character behind it stand for, with the last
character read. -/
def parseEscape (delimiter ch : Char) (stream : Stream) : Str × Char × Stream :=
  match ch with
  | '\\' => (['\\'], ch, stream)
  | '/' => (['/'], ch, stream)
  | 'b' => (['\x08'], ch, stream)
  | 'f' => (['\x0c'], ch, stream)
  | 'n' => (['\n'], ch, stream)
  | 'r' => (['\r'], ch, stream)
  | 't' => (['\t'], ch, stream)
  | 'u' =>
      let (digits, last, stream) := getFour 4 ch stream
      if stream.good then
        match readHex digits with
        | some value => ([toChar value], last, stream)
        | none => ([], last, stream)
      else
        ([], last, stream)
  | _ => (if ch = delimiter then [ch] else ['\\', ch], ch, stream)

/-- The loop of `parse_string` over the characters up to the delimiter. -/
def stringLoop (delimiter : Char) : Nat → Char → Str → Stream → Option (Option Str × Stream)
  | 0, _, _, _ => none
  | fuel + 1, ch, value, stream =>
      if stream.good then
        let (read, stream) := stream.get
        let ch := read.getD ch
        if ch = delimiter then
          some (if stream.fail then none else some value, stream)
        else if ch = '\\' then
          let (read, stream) := stream.get
          let (more, last, stream) := parseEscape delimiter (read.getD ch) stream
          stringLoop delimiter fuel last (value ++ more) stream
        else
          stringLoop delimiter fuel ch (value ++ [ch]) stream
      else
        some (if stream.fail || ch ≠ delimiter then none else some value, stream)

def parseString (stream : Stream) : Option (Option Str × Stream) :=
  (matchPattern ['"'] stream).bind fun
    | (true, stream) => stringLoop '"' (stream.left.length + 2) nul [] stream
    | (false, stream) =>
        match stream.peek with
        | (some '\x27', stream) =>
            let (read, stream) := stream.get
            stringLoop '\x27' (stream.left.length + 2) (read.getD nul) [] stream
        | (_, stream) => some (none, stream)

/-- Round to the nearest `long double`. -/
def roundToLongDouble (x : Rat) : Rat :=
  let exponent := max (Int.log 2 |x|) (-16382) - 63
  roundHalfEven (x / (2 : Rat) ^ exponent) * (2 : Rat) ^ exponent

def splitSign : Str → Str × Str
  | '-' :: rest => (['-'], rest)
  | '+' :: rest => (['+'], rest)
  | rest => ([], rest)

/-- The characters of a number at the front of a text, without its sign: the
digits, those behind the point, the exponent, and what is left. -/
structure Literal where
  whole : Str
  point : Str
  exponent : Str
  rest : Str

def readExponentText (mantissa : Bool) (text : Str) : Str × Str :=
  match text with
  | c :: rest =>
      if mantissa && (c = 'e' || c = 'E') then
        let (sign, digits) := splitSign rest
        (c :: sign ++ digits.takeWhile (isDigitOf 10), digits.dropWhile (isDigitOf 10))
      else
        ([], text)
  | [] => ([], text)

def readPoint (text : Str) : Str × Str :=
  match text with
  | '.' :: rest => ('.' :: rest.takeWhile (isDigitOf 10), rest.dropWhile (isDigitOf 10))
  | _ => ([], text)

def readLiteral (text : Str) : Literal :=
  let whole := text.takeWhile (isDigitOf 10)
  let (point, rest) := readPoint (text.dropWhile (isDigitOf 10))
  let (exponent, rest) := readExponentText (!(whole ++ point.drop 1).isEmpty) rest
  ⟨whole, point, exponent, rest⟩

/-- The value of a number, when it is complete and in range. -/
def Literal.value (literal : Literal) (sign : Int) : Option Rat :=
  if literal.exponent = [] ∨ literal.exponent.any (isDigitOf 10) then
    let digits := literal.whole ++ literal.point ++ literal.exponent
    (readUnsigned 10 10 1 'e' digits).bind fun value =>
      let value := roundToLongDouble (sign * value)
      if 2 ^ 16384 ≤ |value| then none else some value
  else
    none

/-- A number; without one the stream goes back to where it was. -/
def parseNumber (stream : Stream) : Option Rat × Stream :=
  let stream := stream.ws
  if stream.good then
    let (sign, text) := splitSign stream.left
    let literal := readLiteral text
    match literal.value (readSign stream.left).1 with
    | some value =>
        let consumed := sign ++ literal.whole ++ literal.point ++ literal.exponent
        (some value,
          { stream with
            passed := consumed.reverse ++ stream.passed
            left := literal.rest
            eof := literal.rest.isEmpty })
    | none => (none, stream)
  else
    (none, { stream with eof := false, fail := true })

def parseBool (stream : Stream) : Option (Option Bool × Stream) :=
  (matchPattern "true".toList stream).bind fun
    | (true, stream) => some (some true, stream)
    | (false, stream) =>
        (matchPattern "false".toList stream).map fun
          | (true, stream) => (some false, stream)
          | (false, stream) => (none, stream)

/-- A `null`, or nothing before a comma. -/
def parseNull (stream : Stream) : Option (Bool × Stream) :=
  (matchPattern "null".toList stream).map fun
    | (true, stream) => (true, stream)
    | (false, stream) =>
        let (next, stream) := stream.peek
        (next = some ',', stream)

/-! ## Values -/

/-- `value_map_[key] = value` in a map that is ordered by its keys. -/
def Object.insert (key : Str) (value : Value) : Object → Object
  | [] => [(key, value)]
  | entry :: rest =>
      match compare key entry.1 with
      | .lt => (key, value) :: entry :: rest
      | .eq => (key, value) :: rest
      | .gt => entry :: Object.insert key value rest

/-- The end of `parse_value`, where the value is no string and no number. -/
def parseWord (array : Stream → Option (Option (List Value) × Stream))
    (object : Stream → Option (Option Value × Stream)) (stream : Stream) :
    Option (Option Value × Stream) :=
  (parseBool stream).bind fun
  | (some boolean, stream) => some (some (.boolean boolean), stream)
  | (none, stream) =>
      (parseNull stream).bind fun
      | (true, stream) => some (some .null, stream)
      | (false, stream) =>
          match stream.peek with
          | (some '[', stream) =>
              (array stream).bind fun
              | (some values, stream) => some (some (.array values), stream)
              | (none, stream) => object stream
          | (_, stream) => object stream

mutual

def parseValue : Nat → Stream → Option (Option Value × Stream)
  | 0, _ => none
  | fuel + 1, stream =>
      (parseString stream).bind fun
      | (some text, stream) => some (some (.string text), stream)
      | (none, stream) =>
          match parseNumber stream with
          | (some number, stream) => some (some (.number number), stream)
          | (none, stream) => parseWord (parseArray fuel) (parseObjectValue fuel) stream

/-- An object as a value: what was read of it counts only when it is complete. -/
def parseObjectValue : Nat → Stream → Option (Option Value × Stream)
  | 0, _ => none
  | fuel + 1, stream =>
      (parseObject fuel stream).map fun
      | (true, entries, stream) => (some (.object entries), stream)
      | (false, _, stream) => (none, stream)

def parseArray : Nat → Stream → Option (Option (List Value) × Stream)
  | 0, _ => none
  | fuel + 1, stream =>
      (matchPattern ['['] stream).bind fun
      | (false, stream) => some (none, stream)
      | (true, stream) =>
          (matchPattern [']'] stream).bind fun
          | (true, stream) => some (some [], stream)
          | (false, stream) =>
              (parseElements fuel [] stream).bind fun (values, stream) =>
                (matchPattern [']'] stream).map fun
                | (true, stream) => (some values, stream)
                | (false, stream) => (none, stream)

/-- The loop over the values of an array. -/
def parseElements : Nat → List Value → Stream → Option (List Value × Stream)
  | 0, _, _ => none
  | fuel + 1, values, stream =>
      (parseValue fuel stream).bind fun
      | (none, stream) => some (values, stream)
      | (some value, stream) =>
          (matchPattern [','] stream).bind fun
          | (true, stream) => parseElements fuel (values ++ [value]) stream
          | (false, stream) => some (values ++ [value], stream)

/-- An object and whether it is complete.  The entries read before an error stay. -/
def parseObject : Nat → Stream → Option (Bool × Object × Stream)
  | 0, _ => none
  | fuel + 1, stream =>
      (matchPattern ['\x7b'] stream).bind fun
      | (false, stream) => some (false, [], stream)
      | (true, stream) =>
          (matchPattern ['\x7d'] stream).bind fun
          | (true, stream) => some (true, [], stream)
          | (false, stream) =>
              (parseMembers fuel [] stream).bind fun
              | (false, entries, stream) => some (false, entries, stream)
              | (true, entries, stream) =>
                  (matchPattern ['\x7d'] stream).map fun (complete, stream) =>
                    (complete, entries, stream)

/-- The loop over the entries of an object, and whether it was left without an
error. -/
def parseMembers : Nat → Object → Stream → Option (Bool × Object × Stream)
  | 0, _, _ => none
  | fuel + 1, entries, stream =>
      (parseString stream).bind fun
      | (none, stream) =>
          let (next, stream) := stream.peek
          some (next = some '\x7d', entries, stream)
      | (some key, stream) =>
          (matchPattern [':'] stream).bind fun
          | (false, stream) => some (false, entries, stream)
          | (true, stream) =>
              (parseValue fuel stream).bind fun
              | (none, stream) => some (true, entries, stream)
              | (some value, stream) =>
                  let entries := Object.insert key value entries
                  (matchPattern [','] stream).bind fun
                  | (true, stream) => parseMembers fuel entries stream
                  | (false, stream) => some (true, entries, stream)

end

/-- Parse a document, with a bound on the rounds. -/
def parseWith (fuel : Nat) (text : Str) : Option (Bool × Object) :=
  (parseObject fuel (Stream.ofText text)).map fun (complete, entries, _) => (complete, entries)

end Sentri.LibModule.Json
