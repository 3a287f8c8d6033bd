import Sentri.Number.Stod

/-!
# JSON strings

Reading a JSON string behind its opening quotation mark.  Text is its own JSON string if
and only if it has no quotation mark, no backslash and no control character: every escape
is longer than the character it stands for.
-/

namespace Sentri.Text.JsonString

open Sentri.Number

/-- A character that stands for itself in a JSON string. -/
def isPlain (c : Char) : Bool :=
  c ≠ '"' && c ≠ '\\' && 32 ≤ c.toNat

/-- What a character behind a backslash stands for, if it is no code unit. -/
def unescape : Char → Option Char
  | '"' => some '"'
  | '\\' => some '\\'
  | '/' => some '/'
  | 'b' => some '\x08'
  | 'f' => some '\x0c'
  | 'n' => some '\n'
  | 'r' => some '\r'
  | 't' => some '\t'
  | _ => none

/-- The code unit of four hexadecimal digits. -/
def codeUnit (digits : Str) : Option Nat :=
  if digits.all (isDigitOf 16) then some (ofDigits 16 digits) else none

/-- The text of a string and what follows its closing quotation mark.  A code unit from the
upper half of a surrogate pair waits for the lower half. -/
def readString (upper : Option Nat) : Str → Option (Str × Str)
  | '\\' :: 'u' :: a :: b :: c :: d :: rest =>
      match upper, codeUnit [a, b, c, d] with
      | _, none => none
      | none, some unit =>
          if 0xd800 ≤ unit ∧ unit < 0xdc00 then
            readString (some unit) rest
          else if 0xdc00 ≤ unit ∧ unit < 0xe000 then
            none
          else
            (readString none rest).map fun read => (Char.ofNat unit :: read.1, read.2)
      | some upper, some lower =>
          if 0xdc00 ≤ lower ∧ lower < 0xe000 then
            (readString none rest).map fun read =>
              (Char.ofNat (0x10000 + (upper - 0xd800) * 0x400 + (lower - 0xdc00)) :: read.1,
                read.2)
          else
            none
  | '\\' :: c :: rest =>
      match upper, unescape c with
      | none, some c => (readString none rest).map fun read => (c :: read.1, read.2)
      | _, _ => none
  | c :: rest =>
      if upper.isSome then
        none
      else if c = '"' then
        some ([], rest)
      else if isPlain c then
        (readString none rest).map fun read => (c :: read.1, read.2)
      else
        none
  | [] => none

/-! ## Text that is read as itself -/

/-- A text is longer than the string read from it, or it is that string without any
escape. -/
def ReadAs (text value rest : Str) : Prop :=
  value.length + 1 + rest.length < text.length ∨ text = value ++ '"' :: rest ∧ value.all isPlain

section

variable {text value rest : Str}

theorem ReadAs.length_le (read : ReadAs text value rest) :
    value.length + 1 + rest.length ≤ text.length := by
  rcases read with shorter | ⟨rfl, _⟩
  · exact Nat.le_of_lt shorter
  · simp [Nat.add_assoc, Nat.add_comm 1]

/-- An escape stands for one character, or for the first half of one. -/
theorem ReadAs.escape (read : ReadAs text value rest) {escape : Str} (long : 2 ≤ escape.length)
    {more : Str} (short : more.length ≤ 1) : ReadAs (escape ++ text) (more ++ value) rest := by
  left
  have old := read.length_le
  rw [List.length_append, List.length_append]
  omega

theorem ReadAs.plain (read : ReadAs text value rest) {c : Char} (plain : isPlain c) :
    ReadAs (c :: text) (c :: value) rest := by
  rcases read with shorter | ⟨rfl, all⟩
  · left
    rw [List.length_cons, List.length_cons]
    omega
  · right
    constructor
    · rfl
    · rw [List.all_cons, plain, all]
      rfl

theorem readAs_of_readString {upper : Option Nat}
    (read : readString upper text = some (value, rest)) : ReadAs text value rest := by
  fun_induction readString upper text generalizing value rest with
  | case1 => cases read
  | case2 a b c d tail unit _ _ ih =>
      exact @ReadAs.escape _ _ _ (ih read) ['\\', 'u', a, b, c, d] (by simp) [] (by simp)
  | case3 => cases read
  | case4 a b c d tail unit _ _ _ ih =>
      rcases Option.map_eq_some_iff.mp read with ⟨inner, more, equal⟩
      cases equal
      exact @ReadAs.escape _ _ _ (ih more) ['\\', 'u', a, b, c, d] (by simp) [_] (by simp)
  | case5 a b c d tail upper lower _ _ ih =>
      rcases Option.map_eq_some_iff.mp read with ⟨inner, more, equal⟩
      cases equal
      exact @ReadAs.escape _ _ _ (ih more) ['\\', 'u', a, b, c, d] (by simp) [_] (by simp)
  | case6 => cases read
  | case7 letter tail _ c _ ih =>
      rcases Option.map_eq_some_iff.mp read with ⟨inner, more, equal⟩
      cases equal
      exact @ReadAs.escape _ _ _ (ih more) ['\\', letter] (by simp) [c] (by simp)
  | case8 => cases read
  | case9 => cases read
  | case10 =>
      cases read
      exact .inr ⟨rfl, rfl⟩
  | case11 _ c tail _ _ _ _ plain ih =>
      rcases Option.map_eq_some_iff.mp read with ⟨inner, more, equal⟩
      cases equal
      exact (ih more).plain plain
  | case12 => cases read
  | case13 => cases read

theorem readString_of_plain (plain : value.all isPlain) :
    readString none (value ++ '"' :: rest) = some (value, rest) := by
  induction value with
  | nil => rfl
  | cons c value ih =>
      rw [List.all_cons, Bool.and_eq_true] at plain
      rcases plain with ⟨own, others⟩
      have ordinary : c ≠ '"' ∧ c ≠ '\\' := by
        simp only [isPlain, Bool.and_eq_true, decide_eq_true_eq] at own
        exact own.1
      rw [List.cons_append, readString]
      · simp [ordinary.1, own, ih others]
      · simp [ordinary.2]
      · simp [ordinary.2]

/-- A text in quotation marks is read as itself if and only if all its characters are
plain. -/
theorem readString_self_iff :
    readString none (value ++ '"' :: rest) = some (value, rest) ↔ value.all isPlain := by
  constructor
  · intro read
    rcases readAs_of_readString read with shorter | ⟨_, plain⟩
    · simp at shorter
      omega
    · exact plain
  · exact readString_of_plain

end

end Sentri.Text.JsonString
