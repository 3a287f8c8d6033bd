import Sentri.Text.Basic

/-!
# Words and separators

A text of words with separators between them.  Splitting it at every separator
character gives back the words, and an empty word for each character of a separator
after its first.
-/

namespace Sentri.Text

/-- A first word and others, each behind its separator. -/
def joinWords (first : Str) (rest : List (Str × Str)) : Str :=
  first ++ rest.flatMap fun part => part.1 ++ part.2

/-- Words that can be told from their separators, which are not empty. -/
structure Separable (isSeparator : Char → Bool) (part : Str × Str) : Prop where
  separator : ∀ c ∈ part.1, isSeparator c = true
  separates : part.1 ≠ []
  word : ∀ c ∈ part.2, isSeparator c = false

variable {isSeparator : Char → Bool}

theorem joinWords_cons (first : Str) (part : Str × Str) (rest : List (Str × Str)) :
    joinWords first (part :: rest) = first ++ (part.1 ++ joinWords part.2 rest) := by
  simp [joinWords]

/-- The words of a text consist of its other characters. -/
theorem mem_of_mem_splitOnP {text word : Str} (isWord : word ∈ text.splitOnP isSeparator)
    {c : Char} (member : c ∈ word) : c ∈ text ∧ isSeparator c = false := by
  induction text generalizing word with
  | nil =>
      rw [List.splitOnP_nil, List.mem_singleton] at isWord
      simp [isWord] at member
  | cons first text ih =>
      rw [List.splitOnP_cons_eq_if_modifyHead] at isWord
      split at isWord
      · rcases List.mem_cons.mp isWord with rfl | later
        · cases member
        · exact (ih later member).imp (List.mem_cons_of_mem _) id
      · next other =>
          cases words : text.splitOnP isSeparator with
          | nil => exact absurd words (List.splitOnP_ne_nil _ _)
          | cons head tail =>
              rw [words, List.modifyHead_cons, List.mem_cons] at isWord
              rcases isWord with rfl | later
              · rcases List.mem_cons.mp member with rfl | inHead
                · exact ⟨List.mem_cons_self, by simpa using other⟩
                · exact (ih (words ▸ List.mem_cons_self) inHead).imp
                    (List.mem_cons_of_mem _) id
              · exact (ih (words ▸ List.mem_cons_of_mem _ later) member).imp
                  (List.mem_cons_of_mem _) id

/-- Between two separator characters there is an empty word. -/
theorem splitOnP_separator {word separator : Str} (free : ∀ c ∈ word, isSeparator c = false)
    (separators : ∀ c ∈ separator, isSeparator c = true) (separates : separator ≠ [])
    (text : Str) :
    (word ++ (separator ++ text)).splitOnP isSeparator =
      word :: (List.replicate (separator.length - 1) [] ++ text.splitOnP isSeparator) := by
  induction separator generalizing word with
  | nil => exact absurd rfl separates
  | cons c separator ih =>
      rw [List.cons_append,
        List.splitOnP_append_cons_of_forall_mem free c (separators c List.mem_cons_self)]
      by_cases last : separator = []
      · simp [last]
      · have more := @ih [] (by simp)
          (fun d member => separators d (List.mem_cons_of_mem c member)) last
        obtain ⟨n, length⟩ := Nat.exists_eq_succ_of_ne_zero (mt List.length_eq_zero_iff.mp last)
        rw [List.nil_append] at more
        rw [more, List.length_cons, length]
        rfl

/-- All words, with the empty ones that belong to the separators. -/
theorem splitOnP_joinWords {first : Str} {rest : List (Str × Str)}
    (free : ∀ c ∈ first, isSeparator c = false)
    (separable : ∀ part ∈ rest, Separable isSeparator part) :
    (joinWords first rest).splitOnP isSeparator =
      first :: rest.flatMap fun part => List.replicate (part.1.length - 1) [] ++ [part.2] := by
  induction rest generalizing first with
  | nil => simpa [joinWords] using List.splitOnP_eq_singleton free
  | cons part rest ih =>
      rcases List.forall_mem_cons.mp separable with ⟨own, others⟩
      rw [joinWords_cons, splitOnP_separator free own.separator own.separates, ih own.word others]
      simp

/-- Splitting gives back the words, none of which is empty, if and only if every
separator is a single character. -/
theorem splitOnP_joinWords_iff {first : Str} {rest : List (Str × Str)}
    (free : ∀ c ∈ first, isSeparator c = false)
    (separable : ∀ part ∈ rest, Separable isSeparator part)
    (nonempty : ∀ part ∈ rest, part.2 ≠ []) :
    (joinWords first rest).splitOnP isSeparator = first :: rest.map Prod.snd ↔
      ∀ part ∈ rest, part.1.length = 1 := by
  rw [splitOnP_joinWords free separable, List.cons_inj_right]
  clear free
  induction rest with
  | nil => simp
  | cons part rest ih =>
      rcases List.forall_mem_cons.mp separable with ⟨own, others⟩
      rcases List.forall_mem_cons.mp nonempty with ⟨word, words⟩
      have positive := List.length_pos_iff.mpr own.separates
      rw [List.flatMap_cons, List.map_cons, List.forall_mem_cons, ← ih others words]
      by_cases single : part.1.length = 1
      · simp [single]
      · obtain ⟨n, length⟩ : ∃ n, part.1.length - 1 = n + 1 := ⟨part.1.length - 2, by omega⟩
        rw [length, List.replicate_succ]
        constructor
        · intro equal
          exact absurd (List.cons.inj equal).1.symm word
        · intro both
          exact absurd both.1 single

end Sentri.Text
