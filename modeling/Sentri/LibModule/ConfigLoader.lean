import Sentri.LibModule.Json
import Sentri.LibModule.Rule
import Sentri.Number.Double

/-!
# Loading rules

The configuration loader reads the rules out of the rules document.  The core
loads all rules, a module those that its events or actions belong to; both
count all rules of the document for the ids.
-/

namespace Sentri.LibModule

open Sentri.Number Sentri.Text

open Json (Value Object bind_eq_ok)

structure ConfigLoader where
  moduleRuleFile : Str
  /-- The parsed content of the rule file. -/
  rules : Object

namespace ConfigLoader

/-- The configuration of an event or action: all objects up to the first value
that is none. -/
def readConfiguration (configuration : StrMap) : List Value → Except Int StrMap
  | .object conf :: left => do
      let id ← Object.get Value.string? conf "id".toList
      let value ← Object.get Value.string? conf "value".toList
      readConfiguration (configuration.insert id value) left
  | _ => .ok configuration

/-- One rule of the document, the counter being its id. -/
def readRule (i : Nat) (rule event action : Object) : Except Int RuleInfo := do
  let title ← rule.get Value.string? "title".toList
  let constraints ← rule.get Value.object? "constraints".toList
  let eventModule ← event.get Value.string? "module".toList
  let eventKey ← event.get Value.string? "key".toList
  let actionModule ← action.get Value.string? "module".toList
  let actionKey ← action.get Value.string? "key".toList
  let eventConfiguration ← readConfiguration ∅
    (← event.get Value.array? "configuration".toList)
  let actionConfiguration ← readConfiguration ∅
    (← action.get Value.array? "configuration".toList)
  return {
    title := title
    id := i
    event := {
      module := eventModule
      key := eventKey
      configuration := eventConfiguration }
    action := {
      module := actionModule
      key := actionKey
      configuration := actionConfiguration }
    fireLimit := roundToDouble (constraints.getD Value.number? "fire_limit".toList 0)
    isDisabled := constraints.getD Value.boolean? "is_disabled".toList false }

/-- The module name that stands for all rules. -/
def mainName : Str :=
  "main".toList

/-- Does the module take part in the rule?  The action is only looked at when
the event belongs to another module. -/
def involves (moduleName : Str) (event action : Object) : Except Int Bool :=
  if moduleName = mainName then
    .ok true
  else do
    let eventModule ← event.get Value.string? "module".toList
    if eventModule = moduleName then
      return true
    else
      let actionModule ← action.get Value.string? "module".toList
      return actionModule = moduleName

/-- The loop over the rules, which ends at the first value that is no object.
The counter does not overflow. -/
def readRules (moduleName : Str) (i : Nat) : List Value → Except Int (List RuleInfo)
  | .object rule :: left => do
      let event ← Object.get Value.object? rule "event".toList
      let action ← Object.get Value.object? rule "action".toList
      if ← involves moduleName event action then
        let newRule ← readRule i rule event action
        let outRule ← readRules moduleName (i + 1) left
        return newRule :: outRule
      else
        readRules moduleName (i + 1) left
  | _ => .ok []

/-- The rules of a module, or the fatal error with which the program ends. -/
def getRules (loader : ConfigLoader) (moduleName : Str) : Except Str (List RuleInfo) :=
  match loader.rules.get Value.array? "rules".toList >>= readRules moduleName 0 with
  | .ok rules => .ok rules
  | .error _ => .error
      ("It occured an error while reading a configuration. Please check ".toList ++
        loader.moduleRuleFile)

/-! ## The rules of a module -/

/-- The rules that a module takes part in. -/
def ofModule (moduleName : Str) (rules : List RuleInfo) : List RuleInfo :=
  rules.filter fun rule => rule.event.module = moduleName ∨ rule.action.module = moduleName

theorem filter_ofModule (moduleName : Str) (rules : List RuleInfo) (keep : RuleInfo → Bool) :
    (ofModule moduleName rules).filter keep = ofModule moduleName (rules.filter keep) := by
  rw [ofModule, ofModule, List.filter_filter, List.filter_filter]
  apply List.filter_congr
  rintro rule _
  exact Bool.and_comm _ _

theorem readRule_spec {i : Nat} {rule event action : Object} {newRule : RuleInfo}
    (read : readRule i rule event action = .ok newRule) :
    newRule.id = i ∧
      event.get Value.string? "module".toList = .ok newRule.event.module ∧
      action.get Value.string? "module".toList = .ok newRule.action.module := by
  unfold readRule at read
  obtain ⟨title, _, read⟩ := bind_eq_ok.mp read
  obtain ⟨constraints, _, read⟩ := bind_eq_ok.mp read
  obtain ⟨eventModule, eventRead, read⟩ := bind_eq_ok.mp read
  obtain ⟨eventKey, _, read⟩ := bind_eq_ok.mp read
  obtain ⟨actionModule, actionRead, read⟩ := bind_eq_ok.mp read
  obtain ⟨actionKey, _, read⟩ := bind_eq_ok.mp read
  obtain ⟨eventValues, _, read⟩ := bind_eq_ok.mp read
  obtain ⟨eventConfiguration, _, read⟩ := bind_eq_ok.mp read
  obtain ⟨actionValues, _, read⟩ := bind_eq_ok.mp read
  obtain ⟨actionConfiguration, _, read⟩ := bind_eq_ok.mp read
  cases read
  exact ⟨rfl, eventRead, actionRead⟩

theorem involves_of_modules {moduleName eventModule actionModule : Str}
    {event action : Object} (other : moduleName ≠ mainName)
    (eventRead : event.get Value.string? "module".toList = .ok eventModule)
    (actionRead : action.get Value.string? "module".toList = .ok actionModule) :
    involves moduleName event action =
      .ok (decide (eventModule = moduleName ∨ actionModule = moduleName)) := by
  rw [involves, if_neg other, eventRead, actionRead]
  change (if eventModule = moduleName then Except.ok true
    else Except.ok (decide (actionModule = moduleName))) = _
  by_cases own : eventModule = moduleName <;> simp [own]

/-- What the core reads determines what a module reads: the loop gives the
module its rules, with the ids of the core. -/
theorem readRules_ofModule {moduleName : Str} (other : moduleName ≠ mainName) {i : Nat}
    {values : List Value} {rules : List RuleInfo}
    (read : readRules mainName i values = .ok rules) :
    readRules moduleName i values = .ok (ofModule moduleName rules) ∧
      ∀ k rule, rules[k]? = some rule → rule.id = i + k := by
  induction values generalizing i rules with
  | nil =>
      cases read
      exact ⟨rfl, by simp⟩
  | cons value left ih =>
      cases value with
      | object rule =>
          unfold readRules at read
          obtain ⟨event, eventGet, read⟩ := bind_eq_ok.mp read
          obtain ⟨action, actionGet, read⟩ := bind_eq_ok.mp read
          obtain ⟨all, involved, read⟩ := bind_eq_ok.mp read
          obtain rfl : true = all := by simpa [involves] using involved
          rw [if_pos rfl] at read
          obtain ⟨newRule, ruleRead, read⟩ := bind_eq_ok.mp read
          obtain ⟨outRule, restRead, read⟩ := bind_eq_ok.mp read
          cases read
          obtain ⟨idEq, eventModule, actionModule⟩ := readRule_spec ruleRead
          obtain ⟨restModule, restIds⟩ := ih restRead
          constructor
          · rw [readRules, eventGet, actionGet]
            change (involves moduleName event action >>= _) = _
            rw [involves_of_modules other eventModule actionModule]
            by_cases own : newRule.event.module = moduleName ∨
                newRule.action.module = moduleName
            · change (if decide _ = true then _ else _) = _
              rw [if_pos (decide_eq_true own), ruleRead, restModule]
              simp [ofModule, own, bind, Except.bind, pure, Except.pure]
            · change (if decide _ = true then _ else _) = _
              rw [if_neg (by simpa using own), restModule]
              simp [ofModule, own]
          · rintro k
            cases k with
            | zero =>
                rintro rule first
                obtain rfl : newRule = rule := by simpa using first
                exact idEq
            | succ k =>
                rintro rule later
                rw [restIds k rule (by simpa using later)]
                exact Nat.succ_add_eq_add_succ i k
      | number | string | boolean | null | array | invalid =>
          cases read
          exact ⟨rfl, by simp⟩

/-- Loading all rules succeeds when the rules array exists and can be read. -/
theorem getRules_main {loader : ConfigLoader} {rules : List RuleInfo}
    (loaded : loader.getRules mainName = .ok rules) :
    ∃ values, loader.rules.get Value.array? "rules".toList = .ok values ∧
      readRules mainName 0 values = .ok rules := by
  have read : loader.rules.get Value.array? "rules".toList >>= readRules mainName 0 =
      .ok rules := by
    unfold getRules at loaded
    split at loaded
    · cases loaded
      assumption
    · cases loaded
  exact bind_eq_ok.mp read

/-- The ids of the rules of the core are their positions. -/
theorem id_of_loaded {loader : ConfigLoader} {rules : List RuleInfo}
    (loaded : loader.getRules mainName = .ok rules) {k : Nat} {rule : RuleInfo}
    (present : rules[k]? = some rule) : rule.id = k := by
  obtain ⟨values, _, read⟩ := getRules_main loaded
  have other : ([] : Str) ≠ mainName := by decide
  rw [(readRules_ofModule other read).2 k rule present, Nat.zero_add]

end ConfigLoader

end Sentri.LibModule
