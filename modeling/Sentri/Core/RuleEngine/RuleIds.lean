import Sentri.Core.RuleEngine.Correctness
import Sentri.LibModule.ConfigLoader

/-!
# Rule ids

The core indexes its rules by position, the modules search theirs by id.  Both
agree when the core and the module have read the same rules document.
-/

namespace Sentri.Core.RuleEngine

open Sentri.LibModule Sentri.Text Sentri.Transition

/-- The core and a module agree on the rules: the ids count the rules of the
core, the module has exactly its own rules of the core, every action sent to it
is found in them, and every rule of the module is known to the core. -/
theorem rule_ids_agree (core module : ConfigLoader) (moduleName : Str)
    (rules : List RuleInfo) (clock : SteadyClock) (ops : List Op)
    (sameDocument : module.rules = core.rules)
    (other : moduleName ≠ ConfigLoader.mainName)
    (loaded : core.getRules ConfigLoader.mainName = .ok rules) :
    (∀ (k : Nat) (rule : RuleInfo), rules[k]? = some rule → rule.id = k) ∧
      ∃ own, module.getRules moduleName = .ok own ∧
        own = ConfigLoader.ofModule moduleName rules ∧
        (∀ item ∈ ((machine rules clock).run ops).trace, ∀ body,
          item.2.delivery = ⟨moduleName, .msgActio body⟩ →
          ∃ rule, own.filter (·.id = body.ruleId) = [rule] ∧
            lookupAction own body.ruleId = some rule.action ∧
            getRule rules body.ruleId = some rule) ∧
        ∀ rule ∈ own, getRule rules rule.id = some rule := by
  obtain ⟨values, valuesRead, rulesRead⟩ := ConfigLoader.getRules_main loaded
  obtain ⟨ownRead, ids⟩ := ConfigLoader.readRules_ofModule other rulesRead
  have numbered : ∀ (k : Nat) (rule : RuleInfo), rules[k]? = some rule → rule.id = k := by
    rintro k rule present
    rw [ids k rule present, Nat.zero_add]
  refine ⟨numbered, ConfigLoader.ofModule moduleName rules, ?_, rfl, ?_, ?_⟩
  · rw [ConfigLoader.getRules, sameDocument, Json.bind_eq_ok.mpr ⟨values, valuesRead, ownRead⟩]
  · rintro item member body isAction
    obtain ⟨entry, rule, sent, about⟩ := (consistent_run rules clock ops).about item member
    have bodyEq : body = sent := by
      have := about.body_eq
      rw [isAction] at this
      exact Option.some.inj this
    have found : getRule rules body.ruleId = some rule := by
      rw [bodyEq, about.ruleId_eq]
      exact about.found
    have receives : rule.action.module = moduleName := by
      have := about.receiver_eq
      rw [isAction] at this
      exact this.symm
    have single : (ConfigLoader.ofModule moduleName rules).filter (·.id = body.ruleId) =
        [rule] := by
      have inRules : rules.filter (·.id = body.ruleId) = [rule] := by
        rw [filter_id_of_numbered ids, if_pos (Nat.zero_le _), Nat.sub_zero]
        rw [getRule] at found
        rw [found, Option.toList_some]
      rw [ConfigLoader.filter_ofModule, inRules]
      simp [ConfigLoader.ofModule, receives]
    refine ⟨rule, single, ?_, found⟩
    rw [lookupAction_eq_getLast?, single]
    rfl
  · rintro rule member
    obtain ⟨k, present⟩ := List.mem_iff_getElem?.mp (List.mem_of_mem_filter member)
    rw [numbered k rule present]
    exact present

/-! ## Four rules of a house -/

/-- A part of a rule in the document, with its configuration. -/
def partOf (module key : String) (configuration : List (String × String)) : Json.Value :=
  .object [("module".toList, .string module.toList), ("key".toList, .string key.toList),
    ("configuration".toList, .array (configuration.map fun entry =>
      .object [("id".toList, .string entry.1.toList), ("value".toList, .string entry.2.toList)]))]

def ruleOf (title : String) (event action : Json.Value) (constraints : Json.Object) :
    Json.Value :=
  .object [("title".toList, .string title.toList), ("event".toList, event),
    ("action".toList, action), ("constraints".toList, .object constraints)]

/-- Motions are mailed, noises and system messages sent by SMS, the latter at most every ten
seconds; a fourth rule is disabled. -/
def houseDocument : Json.Object :=
  [("rules".toList, .array [
    ruleOf "night" (partOf "module_video" "motion" []) (partOf "module_mail" "send" []) [],
    ruleOf "cellar" (partOf "module_noise_detection" "noise" [("threshold", "5")])
      (partOf "module_sms" "send" [("to", "491234567")]) [],
    ruleOf "health" (partOf "module_system_message" "system_message" [])
      (partOf "module_sms" "send" [("to", "497654321")]) [("fire_limit".toList, .number 10)],
    ruleOf "shed" (partOf "module_video" "motion" []) (partOf "module_firebase" "notify" [])
      [("is_disabled".toList, .boolean true)]])]

def houseLoader : ConfigLoader :=
  ⟨"rules.conf".toList, houseDocument⟩

/-- The rule that is read for a part of the document. -/
def infoOf (id : RuleID) (title : String) (event action : String × String)
    (eventConfiguration actionConfiguration : StrMap) (fireLimit : Rat) (isDisabled : Bool) :
    RuleInfo where
  title := title.toList
  id := id
  event := {
    module := event.1.toList
    key := event.2.toList
    configuration := eventConfiguration }
  action := {
    module := action.1.toList
    key := action.2.toList
    configuration := actionConfiguration }
  fireLimit := Number.roundToDouble fireLimit
  isDisabled := isDisabled

def houseRules : List RuleInfo :=
  [infoOf 0 "night" ("module_video", "motion") ("module_mail", "send") ∅ ∅ 0 false,
    infoOf 1 "cellar" ("module_noise_detection", "noise") ("module_sms", "send")
      ((∅ : StrMap).insert "threshold".toList "5".toList)
      ((∅ : StrMap).insert "to".toList "491234567".toList) 0 false,
    infoOf 2 "health" ("module_system_message", "system_message") ("module_sms", "send") ∅
      ((∅ : StrMap).insert "to".toList "497654321".toList) 10 false,
    infoOf 3 "shed" ("module_video", "motion") ("module_firebase", "notify") ∅ ∅ 0 true]

/-- An event of a rule without variables. -/
def eventOf (ruleId : RuleID) : EventEntry :=
  { motionEvent with event := { motionEvent.event with ruleId := ruleId } }

/-- Three events, and a pass of the ack thread that sends their actions again. -/
def houseOps : List Op :=
  [.enqueueEvent (eventOf 0), .enqueueEvent (eventOf 1), .systemMessage "up".toList, .ackThread]

def houseClock : SteadyClock :=
  SteadyClock.ofList 100000000000 [0, 0, 0, 0, 0, 0, 61000000000]

/-- The SMS module has the second and the third rule, and finds the action of each of the
four messages for it. -/
theorem rule_ids_agree_house :
    let run := (machine houseRules houseClock).run houseOps
    (∀ (k : Nat) (rule : RuleInfo), houseRules[k]? = some rule → rule.id = k) ∧
      ∃ own, houseLoader.getRules "module_sms".toList = .ok own ∧
        own.map RuleInfo.id = [1, 2] ∧
        (run.trace.filter fun item => item.2.delivery.module = "module_sms".toList).length = 4 ∧
        ∀ item ∈ run.trace, ∀ body,
          item.2.delivery = ⟨"module_sms".toList, .msgActio body⟩ →
          ∃ rule, own.filter (·.id = body.ruleId) = [rule] ∧
            lookupAction own body.ruleId = some rule.action ∧
            getRule houseRules body.ruleId = some rule := by
  intro run
  obtain ⟨numbered, own, read, filtered, found, _⟩ := rule_ids_agree houseLoader houseLoader
    "module_sms".toList houseRules houseClock houseOps rfl (by decide) rfl
  refine ⟨numbered, own, read, ?_, by decide +kernel, found⟩
  rw [filtered]
  decide +kernel

end Sentri.Core.RuleEngine
