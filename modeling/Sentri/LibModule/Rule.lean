import Mathlib.Data.List.Induction
import Sentri.LibModule.Message

/-!
# Rules

The rule descriptions that the configuration loader hands to the core and to
the modules.
-/

namespace Sentri.LibModule

open Sentri.Text

structure EventInfo where
  title : Str := []
  module : Str
  description : Str := []
  key : Str
  configuration : StrMap
  attachments : List Str := []

structure ActionInfo where
  title : Str := []
  module : Str
  description : Str := []
  key : Str
  configuration : StrMap
  attachments : List Str := []

structure RuleInfo where
  title : Str
  id : RuleID
  event : EventInfo
  action : ActionInfo
  /-- In seconds; a `double`. -/
  fireLimit : Rat
  isDisabled : Bool

/-- The loop with which an action module looks up the action of a rule: the
last rule with the id wins, and without one the action is `NULL`. -/
def lookupAction (rules : List RuleInfo) (ruleId : RuleID) : Option ActionInfo :=
  rules.foldl (fun action rule => if rule.id = ruleId then some rule.action else action) none

theorem lookupAction_eq_getLast? (rules : List RuleInfo) (ruleId : RuleID) :
    lookupAction rules ruleId =
      ((rules.filter (·.id = ruleId)).map RuleInfo.action).getLast? := by
  induction rules using List.reverseRecOn with
  | nil => rfl
  | append_singleton rules rule ih =>
      rw [lookupAction, List.foldl_append, ← lookupAction, ih]
      by_cases own : rule.id = ruleId <;> simp [own]

/-- In a list of rules numbered from `i` an id belongs to the rule at its
position. -/
theorem filter_id_of_numbered {rules : List RuleInfo} {i : Nat}
    (numbered : ∀ k rule, rules[k]? = some rule → rule.id = i + k) (ruleId : RuleID) :
    rules.filter (·.id = ruleId) =
      if i ≤ ruleId then rules[ruleId - i]?.toList else [] := by
  induction rules generalizing i with
  | nil => simp
  | cons rule rules ih =>
      have idEq : rule.id = i := numbered 0 rule rfl
      have rest := ih (i := i + 1) fun k other present => by
        rw [numbered (k + 1) other (by simpa using present)]
        omega
      rw [List.filter_cons, rest, idEq]
      rcases lt_trichotomy i ruleId with below | equal | above
      · obtain ⟨gap, rfl⟩ := Nat.exists_eq_add_of_lt below
        have next : i + gap + 1 - (i + 1) = gap := by omega
        have this : i + gap + 1 - i = gap + 1 := by omega
        simp [next, this, below.ne, show i + 1 ≤ i + gap + 1 by omega,
          show i ≤ i + gap + 1 by omega]
      · subst equal
        simp
      · simp [not_le.mpr above, above.ne', show ¬ i + 1 ≤ ruleId by omega]

end Sentri.LibModule
