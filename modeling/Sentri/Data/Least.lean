import Mathlib.Data.List.Basic

/-!
# Searching for the least element

A linear search with a candidate that is replaced by every element that is not
greater: it finds the last of the least elements of a total preorder.
-/

namespace Sentri.Data

universe u

variable {α : Type u} (le : α → α → Bool)

/-- Search a list for its least element, starting with a candidate. -/
def leastFrom (candidate : Option α) : List α → Option α
  | [] => candidate
  | a :: rest =>
      if candidate.all fun best => le a best then
        leastFrom (some a) rest
      else
        leastFrom candidate rest

variable {le} (total : ∀ a b, le a b = true ∨ le b a = true)
  (trans : ∀ a b c, le a b = true → le b c = true → le a c = true)

include total trans

/-- A search that starts with a candidate finds something not greater. -/
theorem leastFrom_some (candidate : α) (list : List α) :
    ∃ least, leastFrom le (some candidate) list = some least ∧
      (least = candidate ∨ least ∈ list) ∧ le least candidate = true ∧
        ∀ a ∈ list, le least a = true := by
  induction list generalizing candidate with
  | nil => exact ⟨candidate, rfl, .inl rfl, or_self_iff.mp (total _ _), by simp⟩
  | cons a rest ih =>
      rw [leastFrom]
      by_cases notGreater : le a candidate = true
      · rcases ih a with ⟨least, found, member, below, all⟩
        refine ⟨least, by simpa [notGreater] using found, .inr ?_, ?_, ?_⟩
        · exact List.mem_cons.mpr member
        · exact trans _ _ _ below notGreater
        · exact List.forall_mem_cons.mpr ⟨below, all⟩
      · rcases ih candidate with ⟨least, found, member, below, all⟩
        have greater := (total a candidate).resolve_left notGreater
        refine ⟨least, by simpa [notGreater] using found, ?_, below, ?_⟩
        · exact member.imp id (List.mem_cons_of_mem a)
        · exact List.forall_mem_cons.mpr ⟨trans _ _ _ below greater, all⟩

/-- A search without a candidate finds a least element, if there is any. -/
theorem leastFrom_none {list : List α} (nonempty : list ≠ []) :
    ∃ least, leastFrom le none list = some least ∧ least ∈ list ∧
      ∀ a ∈ list, le least a = true := by
  cases list with
  | nil => exact absurd rfl nonempty
  | cons a rest =>
      rcases leastFrom_some total trans a rest with ⟨least, found, member, below, all⟩
      exact ⟨least, by simpa [leastFrom] using found, List.mem_cons.mpr member,
        List.forall_mem_cons.mpr ⟨below, all⟩⟩

end Sentri.Data
