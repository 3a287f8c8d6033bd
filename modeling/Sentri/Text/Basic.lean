import Mathlib.Algebra.GroupWithZero.Nat
import Mathlib.Algebra.Order.Group.Nat
import Mathlib.Data.List.Infix
import Mathlib.Data.List.TakeWhile
import Std.Data.ExtTreeMap

/-!
# Strings, string maps and C strings

A string is the list of its `char`s and an ordered string map is the tree map
of the standard library.  A C string is a `char` array of a fixed size, seen as
the text before its terminating NUL; the text always fits into the array.
-/

namespace Sentri.Text

/-- A string of `char`s. -/
abbrev Str := List Char

/-- An ordered map between strings. -/
abbrev StrMap := Std.ExtTreeMap Str Str

/-- The terminating character of a C string. -/
def nul : Char :=
  '\x00'

/-- Does `needle` occur in `text`? -/
def occurs (needle text : Str) : Bool :=
  decide (needle <:+: text)

/-- The decimal digits of a number. -/
def toDecimal (n : Nat) : Str :=
  Nat.toDigits 10 n

theorem isDigit_of_mem_toDecimal {n : Nat} {c : Char} (member : c ∈ toDecimal n) :
    c.isDigit :=
  Nat.isDigit_of_mem_toDigits (by decide) (by decide) member

/-! ## Replacing -/

/-- Replace the matches of `search` from left to right.  The first argument
counts the characters of the current match that are still to be dropped. -/
def replaceFrom (search replacement : Str) : Nat → Str → Str
  | _, [] => []
  | skip + 1, _ :: rest => replaceFrom search replacement skip rest
  | 0, c :: rest =>
      if search.isPrefixOf (c :: rest) then
        replacement ++ replaceFrom search replacement (search.length - 1) rest
      else
        c :: replaceFrom search replacement 0 rest

/-- Replace every match of a non-empty `search` in a text. -/
def replaceAll (text search replacement : Str) : Str :=
  replaceFrom search replacement 0 text

/-! ## Maps filled in order -/

/-- Insert the entries in their order, never overwriting an earlier one. -/
def insertFirst (map : StrMap) (entries : List (Str × Str)) : StrMap :=
  entries.foldl (fun map entry => map.insertIfNew entry.1 entry.2) map

/-- After an ordered insertion a key has its old value, else the value of its
first entry. -/
theorem getElem?_insertFirst (map : StrMap) (entries : List (Str × Str)) (key : Str) :
    (insertFirst map entries)[key]? = map[key]?.or (entries.lookup key) := by
  induction entries generalizing map with
  | nil => simp [insertFirst]
  | cons entry entries ih =>
      rw [insertFirst, List.foldl_cons, ← insertFirst, ih]
      rw [Std.ExtTreeMap.getElem?_insertIfNew, List.lookup_cons]
      by_cases equal : entry.1 = key
      · subst key
        by_cases present : entry.1 ∈ map <;> simp [present]
      · have different : (key == entry.1) = false := by simpa using Ne.symm equal
        simp [equal, different]

/-! ## C strings -/

/-- A `char[size]` holding a NUL-terminated text. -/
structure CString (size : Nat) where
  text : Str
  terminated : nul ∉ text
  fits : text.length < size
  deriving DecidableEq

/-- What a reader of `text.c_str()` sees: the characters before the first NUL. -/
def cStr (text : Str) : Str :=
  text.takeWhile (· ≠ nul)

theorem nul_notMem_cStr (text : Str) : nul ∉ cStr text := by
  intro member
  simpa using List.mem_takeWhile_imp member

theorem cStr_eq_self {text : Str} (noNul : nul ∉ text) : cStr text = text := by
  rw [cStr, List.takeWhile_eq_self_iff]
  intro c member
  simpa using fun equal : c = nul => noNul (equal ▸ member)

/-- `snprintf(buffer, size, "%s", text.c_str())`: the text up to its first NUL,
cut off so that the terminating NUL still fits. -/
def snprintf (size : Nat) [NeZero size] (text : Str) : CString size where
  text := (cStr text).take (size - 1)
  terminated := fun member => nul_notMem_cStr text (List.mem_of_mem_take member)
  fits := by
    have positive : 0 < size := Nat.pos_of_ne_zero (NeZero.ne size)
    rw [List.length_take]
    omega

/-- A text without NUL that fits is stored unchanged. -/
theorem snprintf_text {size : Nat} [NeZero size] {text : Str} (noNul : nul ∉ text)
    (fits : text.length < size) : (snprintf size text).text = text := by
  change (cStr text).take (size - 1) = text
  rw [cStr_eq_self noNul, List.take_of_length_le (by omega)]

end Sentri.Text
