import Sentri.Text.Chunks

/-!
# Replacing in parts of a text

Replacing all matches of a string in a text: which characters can be in the result,
when nothing changes, and what happens in a text of several parts, when the string does
not contain the character between them.
-/

namespace Sentri.Text

variable {search replacement : Str}

/-- Nothing gets into a text but what was in it and what is put into it. -/
theorem mem_replaceFrom {skip : Nat} {text : Str} {c : Char}
    (member : c ∈ replaceFrom search replacement skip text) : c ∈ text ∨ c ∈ replacement := by
  induction text generalizing skip with
  | nil => cases skip <;> cases member
  | cons first text ih =>
      have behind : ∀ {skip}, c ∈ replaceFrom search replacement skip text →
          c ∈ first :: text ∨ c ∈ replacement := fun later =>
        (ih later).imp (List.mem_cons_of_mem _) id
      cases skip with
      | succ skip => exact behind member
      | zero =>
          rw [replaceFrom] at member
          split at member
          · rcases List.mem_append.mp member with put | later
            · exact .inr put
            · exact behind later
          · rcases List.mem_cons.mp member with rfl | later
            · exact .inl List.mem_cons_self
            · exact behind later

/-- A text without the first character of the string is left as it is. -/
theorem replaceAll_of_notMem {c : Char} {tail text : Str} (missing : c ∉ text)
    (replacement : Str) : replaceAll text (c :: tail) replacement = text := by
  have same := @replaceFrom_other (c :: tail) replacement text [] (startsIn_of_notMem missing)
  simpa [replaceAll, replaceFrom] using same

/-- Every occurrence of a single character is replaced. -/
theorem notMem_replaceAll_singleton {c : Char} (different : c ∉ replacement) (text : Str) :
    c ∉ replaceAll text [c] replacement := by
  unfold replaceAll
  induction text with
  | nil => exact List.not_mem_nil
  | cons first text ih =>
      rw [replaceFrom]
      split
      · exact fun member => (List.mem_append.mp member).elim different ih
      · next other =>
          intro member
          rcases List.mem_cons.mp member with rfl | later
          · simp [List.isPrefixOf] at other
          · exact ih later

/-! ## Parts of a text -/

/-- A match does not go beyond a character that is not in the string. -/
theorem isPrefixOf_append_cons {c : Char} (missing : c ∉ search) (text rest : Str) :
    search.isPrefixOf (text ++ c :: rest) = search.isPrefixOf text := by
  induction search generalizing text with
  | nil => simp [List.isPrefixOf]
  | cons first search ih =>
      simp only [List.mem_cons, not_or] at missing
      cases text with
      | nil => simp [List.isPrefixOf, Ne.symm missing.1]
      | cons d text => simp [List.isPrefixOf, ih missing.2]

/-- Replacing goes on behind such a character as if nothing had been before it. -/
theorem replaceFrom_append_cons {c : Char} (missing : c ∉ search) (nonempty : search ≠ [])
    {skip : Nat} {text : Str} (inside : skip ≤ text.length) (rest : Str) :
    replaceFrom search replacement skip (text ++ c :: rest) =
      replaceFrom search replacement skip text ++
        c :: replaceFrom search replacement 0 rest := by
  induction text generalizing skip with
  | nil =>
      obtain rfl : skip = 0 := Nat.le_zero.mp inside
      have noMatch : search.isPrefixOf (c :: rest) = false := by
        rw [← List.nil_append (c :: rest), isPrefixOf_append_cons missing]
        cases search with
        | nil => exact absurd rfl nonempty
        | cons first search => rfl
      simp only [List.nil_append, replaceFrom, noMatch, Bool.false_eq_true, if_false]
  | cons d text ih =>
      cases skip with
      | succ skip => exact ih (Nat.le_of_succ_le_succ inside)
      | zero =>
          have same := isPrefixOf_append_cons missing (d :: text) rest
          rw [List.cons_append] at same
          simp only [List.cons_append, replaceFrom, same]
          split
          · next found =>
              have short := (List.isPrefixOf_iff_prefix.mp found).length_le
              rw [ih (by simp at short; omega), List.append_assoc]
          · rw [ih (Nat.zero_le _), List.cons_append]

/-- The parts of a text are replaced one by one. -/
theorem replaceAll_intercalate {c : Char} (missing : c ∉ search) (nonempty : search ≠ [])
    (parts : List Str) :
    replaceAll ([c].intercalate parts) search replacement =
      [c].intercalate (parts.map fun part => replaceAll part search replacement) := by
  cases parts with
  | nil => rfl
  | cons first rest =>
      induction rest generalizing first with
      | nil => simp [List.intercalate_singleton]
      | cons second rest ih =>
          have later := ih second
          rw [List.map_cons] at later
          rw [List.map_cons, List.map_cons, List.intercalate_cons_cons,
            List.intercalate_cons_cons, ← later, List.append_assoc, List.append_assoc,
            replaceAll, List.singleton_append, List.singleton_append]
          exact replaceFrom_append_cons missing nonempty (Nat.zero_le _) _

/-! ## Texts that stay as they are -/

theorem length_replaceFrom_le (shorter : replacement.length ≤ search.length)
    (nonempty : search ≠ []) (skip : Nat) (text : Str) :
    (replaceFrom search replacement skip text).length ≤ text.length - skip := by
  induction text generalizing skip with
  | nil => cases skip <;> exact Nat.zero_le _
  | cons c text ih =>
      cases skip with
      | succ skip =>
          rw [List.length_cons, Nat.add_sub_add_right]
          exact ih skip
      | zero =>
          rw [replaceFrom]
          split
          · next found =>
              have inside := (List.isPrefixOf_iff_prefix.mp found).length_le
              have positive := List.length_pos_iff.mpr nonempty
              have later := ih (search.length - 1)
              rw [List.length_cons] at inside ⊢
              rw [List.length_append]
              omega
          · have later := ih 0
            rw [List.length_cons, List.length_cons]
            omega

theorem le_length_replaceFrom (longer : search.length ≤ replacement.length)
    (nonempty : search ≠ []) (skip : Nat) (text : Str) :
    text.length - skip ≤ (replaceFrom search replacement skip text).length := by
  induction text generalizing skip with
  | nil => exact (Nat.zero_sub skip).le.trans (Nat.zero_le _)
  | cons c text ih =>
      cases skip with
      | succ skip =>
          rw [List.length_cons, Nat.add_sub_add_right]
          exact ih skip
      | zero =>
          rw [replaceFrom]
          split
          · have positive := List.length_pos_iff.mpr nonempty
            have later := ih (search.length - 1)
            rw [List.length_cons, List.length_append]
            omega
          · have later := ih 0
            rw [List.length_cons, List.length_cons]
            omega

/-- A string may replace itself. -/
theorem replaceFrom_self (nonempty : search ≠ []) (skip : Nat) (text : Str) :
    replaceFrom search search skip text = text.drop skip := by
  induction text generalizing skip with
  | nil => cases skip <;> rfl
  | cons c text ih =>
      cases skip with
      | succ skip => exact ih skip
      | zero =>
          rw [replaceFrom]
          split
          · next found =>
              rcases List.isPrefixOf_iff_prefix.mp found with ⟨rest, equal⟩
              have behind : rest = text.drop (search.length - 1) := by
                cases search with
                | nil => exact absurd rfl nonempty
                | cons d search => simp [← (List.cons.inj equal).2]
              rw [ih, ← behind, equal]
              rfl
          · rw [ih]
            rfl

theorem replaceFrom_of_not_occurs {text : Str} (absent : ¬search <:+: text) :
    replaceFrom search replacement 0 text = text := by
  induction text with
  | nil => rfl
  | cons c text ih =>
      rw [List.infix_cons_iff, not_or] at absent
      have noMatch : ¬search.isPrefixOf (c :: text) = true := fun found =>
        absent.1 (List.isPrefixOf_iff_prefix.mp found)
      rw [replaceFrom, if_neg noMatch, ih absent.2]

/-- What is replaced by something else does not stay as it is. -/
theorem replacement_of_unchanged (nonempty : search ≠ []) {text : Str}
    (present : search <:+: text)
    (unchanged : replaceFrom search replacement 0 text = text) : replacement = search := by
  induction text with
  | nil => exact absurd (List.infix_nil.mp present) nonempty
  | cons c text ih =>
      rw [replaceFrom] at unchanged
      split at unchanged
      · next found =>
          rcases List.isPrefixOf_iff_prefix.mp found with ⟨rest, equal⟩
          have same : replacement ++ replaceFrom search replacement (search.length - 1) text =
              search ++ rest := unchanged.trans equal.symm
          have lengths := congrArg List.length same
          have whole := congrArg List.length equal
          have positive := List.length_pos_iff.mpr nonempty
          simp only [List.length_append, List.length_cons] at lengths whole
          have alike : replacement.length = search.length := by
            rcases Nat.le_total replacement.length search.length with shorter | longer
            · have below := length_replaceFrom_le shorter nonempty (search.length - 1) text
              omega
            · have above := le_length_replaceFrom longer nonempty (search.length - 1) text
              omega
          exact (List.append_inj same alike).1
      · next other =>
          apply ih _ (List.cons.inj unchanged).2
          exact (List.infix_cons_iff.mp present).resolve_left fun isPrefix =>
            other (List.isPrefixOf_iff_prefix.mpr isPrefix)

/-- Replacing changes nothing if and only if there is nothing to replace, or it is replaced
by itself. -/
theorem replaceAll_eq_self_iff (nonempty : search ≠ []) (text : Str) :
    replaceAll text search replacement = text ↔
      replacement = search ∨ occurs search text = false := by
  rw [replaceAll, occurs, decide_eq_false_iff_not]
  constructor
  · intro unchanged
    by_cases present : search <:+: text
    · exact .inl (replacement_of_unchanged nonempty present unchanged)
    · exact .inr present
  · rintro (rfl | absent)
    · exact replaceFrom_self nonempty 0 text
    · exact replaceFrom_of_not_occurs absent

end Sentri.Text
