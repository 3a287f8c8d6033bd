import Sentri.LibModule.ConfigLoader

/-!
# The loops over the rules

The loops of `getRules` with their counters: each loop ends at the first element
that is no object, as if the array ended there.  A missing field of an object
is an error, but an element of another type hides all that follow it.
-/

namespace Sentri.LibModule

open Sentri.Number Sentri.Text

open Json (Value Object bind_eq_ok)

namespace ConfigLoader

/-! ## Loops with counters -/

/-- A configuration array, and what the loop over it leaves in `j`. -/
structure VisitedConfiguration where
  values : List Value
  visited : Nat

/-- The loop over a configuration array with its counter. -/
def configurationLoop (configuration : StrMap) (j : Nat) : List Value → Except Int (StrMap × Nat)
  | .object conf :: left => do
      let id ← Object.get Value.string? conf "id".toList
      let value ← Object.get Value.string? conf "value".toList
      configurationLoop (configuration.insert id value) (j + 1) left
  | _ => .ok (configuration, j)

/-- A rule that was read, and how far its configuration arrays were read. -/
structure VisitedRule where
  rule : RuleInfo
  event : VisitedConfiguration
  action : VisitedConfiguration

/-- `readRule` with the counters of its loops. -/
def visitRule (i : Nat) (rule event action : Object) : Except Int VisitedRule := do
  let title ← rule.get Value.string? "title".toList
  let constraints ← rule.get Value.object? "constraints".toList
  let eventModule ← event.get Value.string? "module".toList
  let eventKey ← event.get Value.string? "key".toList
  let actionModule ← action.get Value.string? "module".toList
  let actionKey ← action.get Value.string? "key".toList
  let eventValues ← event.get Value.array? "configuration".toList
  let eventConfiguration ← configurationLoop ∅ 0 eventValues
  let actionValues ← action.get Value.array? "configuration".toList
  let actionConfiguration ← configurationLoop ∅ 0 actionValues
  return {
    rule := {
      title := title
      id := i
      event := {
        module := eventModule
        key := eventKey
        configuration := eventConfiguration.1 }
      action := {
        module := actionModule
        key := actionKey
        configuration := actionConfiguration.1 }
      fireLimit := roundToDouble (constraints.getD Value.number? "fire_limit".toList 0)
      isDisabled := constraints.getD Value.boolean? "is_disabled".toList false }
    event := ⟨eventValues, eventConfiguration.2⟩
    action := ⟨actionValues, actionConfiguration.2⟩ }

/-- `readRules` with the counters of all loops; `i` is left behind as well. -/
def visitRules (moduleName : Str) (i : Nat) : List Value → Except Int (List VisitedRule × Nat)
  | .object rule :: left => do
      let event ← Object.get Value.object? rule "event".toList
      let action ← Object.get Value.object? rule "action".toList
      if ← involves moduleName event action then
        let newRule ← visitRule i rule event action
        let (outRule, final) ← visitRules moduleName (i + 1) left
        return (newRule :: outRule, final)
      else
        visitRules moduleName (i + 1) left
  | _ => .ok ([], i)

/-! ## What the loops see -/

/-- The objects before the first value that is none. -/
def objects : List Value → List Object
  | .object object :: left => object :: objects left
  | _ => []

def AllObjects (values : List Value) : Prop :=
  ∀ value ∈ values, value.object?.isSome

/-- `Object::has`. -/
def has {α : Type} (as : Value → Option α) (object : Object) (key : Str) : Bool :=
  (object.find as key).isSome

/-- The fields that are read of an entry of a configuration array. -/
def HasEntry (conf : Object) : Prop :=
  has Value.string? conf "id".toList ∧ has Value.string? conf "value".toList

/-- The fields that are read of an event or action. -/
def HasPart (part : Object) : Prop :=
  has Value.string? part "module".toList ∧ has Value.string? part "key".toList ∧
    ∃ values, part.find Value.array? "configuration".toList = some values ∧
      ∀ conf ∈ objects values, HasEntry conf

/-- The fields that are read of a rule of the module. -/
def HasRule (rule event action : Object) : Prop :=
  has Value.string? rule "title".toList ∧ has Value.object? rule "constraints".toList ∧
    HasPart event ∧ HasPart action

def Involved (moduleName : Str) (event action : Object) : Prop :=
  moduleName = mainName ∨ event.find Value.string? "module".toList = some moduleName ∨
    action.find Value.string? "module".toList = some moduleName

/-- All fields that are read of an element of the rules array are there.  Of a rule
of other modules only the names of these modules are read. -/
def Readable (moduleName : Str) (rule : Object) : Prop :=
  ∃ event action, rule.find Value.object? "event".toList = some event ∧
    rule.find Value.object? "action".toList = some action ∧
    has Value.string? event "module".toList ∧ has Value.string? action "module".toList ∧
    (Involved moduleName event action → HasRule rule event action)

/-- The configuration arrays of a rule of the module have only objects. -/
def Uncut (moduleName : Str) (rule : Object) : Prop :=
  ∀ event action, rule.find Value.object? "event".toList = some event →
    rule.find Value.object? "action".toList = some action → Involved moduleName event action →
    ∀ part ∈ [event, action], ∀ values,
      part.find Value.array? "configuration".toList = some values → AllObjects values

theorem uncut_iff {moduleName : Str} {rule event action : Object}
    (eventFound : rule.find Value.object? "event".toList = some event)
    (actionFound : rule.find Value.object? "action".toList = some action) :
    Uncut moduleName rule ↔ (Involved moduleName event action →
      ∀ part ∈ [event, action], ∀ values,
        part.find Value.array? "configuration".toList = some values → AllObjects values) := by
  constructor
  · exact fun uncut => uncut event action eventFound actionFound
  · intro parts event' action' eventFound' actionFound'
    rw [eventFound] at eventFound'
    rw [actionFound] at actionFound'
    cases eventFound'
    cases actionFound'
    exact parts

/-! ## The counters -/

theorem length_objects_eq_iff (values : List Value) :
    (objects values).length = values.length ↔ AllObjects values := by
  induction values with
  | nil => simp [objects, AllObjects]
  | cons value left ih =>
      cases value with
      | object conf =>
          simp only [objects, List.length_cons, Nat.add_right_cancel_iff, ih]
          simp [AllObjects, Value.object?]
      | number | string | boolean | null | array | invalid =>
          simp [objects, AllObjects, Value.object?]

theorem get_eq_ok_iff {α : Type} {as : Value → Option α} {object : Object} {key : Str} {value : α} :
    object.get as key = .ok value ↔ object.find as key = some value := by
  unfold Object.get
  cases object.find as key with
  | none => simp
  | some found => simp

theorem has_iff {α : Type} {as : Value → Option α} {object : Object} {key : Str} :
    has as object key = true ↔ ∃ value, object.get as key = .ok value := by
  simp [has, get_eq_ok_iff, Option.isSome_iff_exists]

/-- The loop over a configuration array reads its objects. -/
theorem configurationLoop_ok_iff (configuration : StrMap) (j : Nat) (values : List Value) :
    (∃ result, configurationLoop configuration j values = .ok result) ↔
      ∀ conf ∈ objects values, HasEntry conf := by
  induction values generalizing configuration j with
  | nil => simp [configurationLoop, objects]
  | cons value left ih =>
      cases value with
      | object conf =>
          rw [objects, List.forall_mem_cons]
          constructor
          · rintro ⟨result, read⟩
            rw [configurationLoop] at read
            rcases bind_eq_ok.mp read with ⟨id, idRead, read⟩
            rcases bind_eq_ok.mp read with ⟨text, textRead, read⟩
            exact ⟨⟨has_iff.mpr ⟨id, idRead⟩, has_iff.mpr ⟨text, textRead⟩⟩,
              (ih _ _).mp ⟨result, read⟩⟩
          · rintro ⟨⟨hasId, hasValue⟩, rest⟩
            rcases has_iff.mp hasId with ⟨id, idRead⟩
            rcases has_iff.mp hasValue with ⟨text, textRead⟩
            rcases (ih (configuration.insert id text) (j + 1)).mpr rest with ⟨result, read⟩
            refine ⟨result, ?_⟩
            rw [configurationLoop]
            exact bind_eq_ok.mpr ⟨id, idRead, bind_eq_ok.mpr ⟨text, textRead, read⟩⟩
      | number | string | boolean | null | array | invalid => simp [configurationLoop, objects]

theorem configurationLoop_counter {configuration : StrMap} {j : Nat} {values : List Value}
    {result : StrMap × Nat} (read : configurationLoop configuration j values = .ok result) :
    result.2 = j + (objects values).length := by
  induction values generalizing configuration j with
  | nil =>
      cases read
      rfl
  | cons value left ih =>
      cases value with
      | object conf =>
          rw [configurationLoop] at read
          rcases bind_eq_ok.mp read with ⟨id, _, read⟩
          rcases bind_eq_ok.mp read with ⟨text, _, read⟩
          rw [ih read, objects, List.length_cons]
          omega
      | number | string | boolean | null | array | invalid =>
          cases read
          rfl

/-- The counter does not change what is read. -/
theorem configurationLoop_erase (configuration : StrMap) (j : Nat) (values : List Value) :
    (configurationLoop configuration j values).map Prod.fst =
      readConfiguration configuration values := by
  induction values generalizing configuration j with
  | nil => rfl
  | cons value left ih =>
      cases value with
      | object conf =>
          rw [configurationLoop, readConfiguration]
          cases Object.get Value.string? conf "id".toList with
          | error thrown => rfl
          | ok id =>
              cases Object.get Value.string? conf "value".toList with
              | error thrown => rfl
              | ok text => exact ih _ _
      | number | string | boolean | null | array | invalid => rfl

/-- What is read of a rule, with the ends of its loops. -/
theorem visitRule_spec {i : Nat} {rule event action : Object} {visited : VisitedRule}
    (read : visitRule i rule event action = .ok visited) :
    HasRule rule event action ∧
      event.find Value.array? "configuration".toList = some visited.event.values ∧
      visited.event.visited = (objects visited.event.values).length ∧
      action.find Value.array? "configuration".toList = some visited.action.values ∧
      visited.action.visited = (objects visited.action.values).length := by
  unfold visitRule at read
  rcases bind_eq_ok.mp read with ⟨title, titleRead, read⟩
  rcases bind_eq_ok.mp read with ⟨constraints, constraintsRead, read⟩
  rcases bind_eq_ok.mp read with ⟨eventModule, eventModuleRead, read⟩
  rcases bind_eq_ok.mp read with ⟨eventKey, eventKeyRead, read⟩
  rcases bind_eq_ok.mp read with ⟨actionModule, actionModuleRead, read⟩
  rcases bind_eq_ok.mp read with ⟨actionKey, actionKeyRead, read⟩
  rcases bind_eq_ok.mp read with ⟨eventValues, eventValuesRead, read⟩
  rcases bind_eq_ok.mp read with ⟨eventConfiguration, eventLoop, read⟩
  rcases bind_eq_ok.mp read with ⟨actionValues, actionValuesRead, read⟩
  rcases bind_eq_ok.mp read with ⟨actionConfiguration, actionLoop, read⟩
  cases read
  have eventArray := get_eq_ok_iff.mp eventValuesRead
  have actionArray := get_eq_ok_iff.mp actionValuesRead
  have eventPart : HasPart event := ⟨has_iff.mpr ⟨_, eventModuleRead⟩,
    has_iff.mpr ⟨_, eventKeyRead⟩, _, eventArray,
    (configurationLoop_ok_iff _ _ _).mp ⟨_, eventLoop⟩⟩
  have actionPart : HasPart action := ⟨has_iff.mpr ⟨_, actionModuleRead⟩,
    has_iff.mpr ⟨_, actionKeyRead⟩, _, actionArray,
    (configurationLoop_ok_iff _ _ _).mp ⟨_, actionLoop⟩⟩
  refine ⟨⟨has_iff.mpr ⟨_, titleRead⟩, has_iff.mpr ⟨_, constraintsRead⟩, eventPart, actionPart⟩,
    eventArray, ?_, actionArray, ?_⟩
  · simpa using configurationLoop_counter eventLoop
  · simpa using configurationLoop_counter actionLoop

/-- A rule with all its fields is read. -/
theorem exists_visitRule {i : Nat} {rule event action : Object}
    (fields : HasRule rule event action) :
    ∃ visited, visitRule i rule event action = .ok visited := by
  rcases fields with ⟨hasTitle, hasConstraints, eventPart, actionPart⟩
  rcases has_iff.mp hasTitle with ⟨title, titleRead⟩
  rcases has_iff.mp hasConstraints with ⟨constraints, constraintsRead⟩
  rcases eventPart with ⟨hasEventModule, hasEventKey, eventValues, eventArray, eventEntries⟩
  rcases actionPart with ⟨hasActionModule, hasActionKey, actionValues, actionArray, actionEntries⟩
  rcases has_iff.mp hasEventModule with ⟨eventModule, eventModuleRead⟩
  rcases has_iff.mp hasEventKey with ⟨eventKey, eventKeyRead⟩
  rcases has_iff.mp hasActionModule with ⟨actionModule, actionModuleRead⟩
  rcases has_iff.mp hasActionKey with ⟨actionKey, actionKeyRead⟩
  rcases (configurationLoop_ok_iff ∅ 0 eventValues).mpr eventEntries with ⟨eventConf, eventLoop⟩
  rcases (configurationLoop_ok_iff ∅ 0 actionValues).mpr actionEntries with ⟨actionConf, actionLoop⟩
  unfold visitRule
  exact ⟨_, bind_eq_ok.mpr ⟨_, titleRead, bind_eq_ok.mpr ⟨_, constraintsRead,
    bind_eq_ok.mpr ⟨_, eventModuleRead, bind_eq_ok.mpr ⟨_, eventKeyRead,
    bind_eq_ok.mpr ⟨_, actionModuleRead, bind_eq_ok.mpr ⟨_, actionKeyRead,
    bind_eq_ok.mpr ⟨_, get_eq_ok_iff.mpr eventArray, bind_eq_ok.mpr ⟨_, eventLoop,
    bind_eq_ok.mpr ⟨_, get_eq_ok_iff.mpr actionArray, bind_eq_ok.mpr ⟨_, actionLoop,
    rfl⟩⟩⟩⟩⟩⟩⟩⟩⟩⟩⟩

/-- A field that is read on both sides. -/
theorem map_get_bind {α β γ : Type} {as : Value → Option α} {object : Object} {key : Str}
    {erase : β → γ} {next : α → Except Int β} {plain : α → Except Int γ}
    (same : ∀ value, (next value).map erase = plain value) :
    (object.get as key >>= next).map erase = object.get as key >>= plain := by
  cases object.get as key with
  | error thrown => rfl
  | ok value => exact same value

/-- A configuration that is read on both sides. -/
theorem map_configurationLoop_bind {β γ : Type} {values : List Value} {erase : β → γ}
    {next : StrMap × Nat → Except Int β} {plain : StrMap → Except Int γ}
    (same : ∀ result, (next result).map erase = plain result.1) :
    (configurationLoop ∅ 0 values >>= next).map erase = readConfiguration ∅ values >>= plain := by
  rw [← configurationLoop_erase ∅ 0 values]
  cases configurationLoop ∅ 0 values with
  | error thrown => rfl
  | ok result => exact same result

theorem visitRule_erase (i : Nat) (rule event action : Object) :
    (visitRule i rule event action).map VisitedRule.rule = readRule i rule event action := by
  unfold visitRule readRule
  apply map_get_bind
  intro title
  apply map_get_bind
  intro constraints
  apply map_get_bind
  intro eventModule
  apply map_get_bind
  intro eventKey
  apply map_get_bind
  intro actionModule
  apply map_get_bind
  intro actionKey
  apply map_get_bind
  intro eventValues
  apply map_configurationLoop_bind
  intro eventConfiguration
  apply map_get_bind
  intro actionValues
  apply map_configurationLoop_bind
  intro actionConfiguration
  rfl

/-- The loops with counters read what `readRules` reads. -/
theorem visitRules_erase (moduleName : Str) (i : Nat) (values : List Value) :
    (visitRules moduleName i values).map (fun result => result.1.map VisitedRule.rule) =
      readRules moduleName i values := by
  induction values generalizing i with
  | nil => rfl
  | cons value left ih =>
      cases value with
      | object rule =>
          rw [visitRules, readRules]
          apply map_get_bind
          intro event
          apply map_get_bind
          intro action
          cases involves moduleName event action with
          | error thrown => rfl
          | ok involved =>
              cases involved with
              | false => exact ih (i + 1)
              | true =>
                  change (visitRule i rule event action >>= _).map _ =
                    readRule i rule event action >>= _
                  rw [← visitRule_erase, ← ih (i + 1)]
                  cases visitRule i rule event action with
                  | error thrown => rfl
                  | ok newRule =>
                      change (visitRules moduleName (i + 1) left >>= _).map _ =
                        (visitRules moduleName (i + 1) left).map _ >>= _
                      cases visitRules moduleName (i + 1) left with
                      | error thrown => rfl
                      | ok result => rfl
      | number | string | boolean | null | array | invalid => rfl

/-! ## Which rules are read -/

theorem involves_eq_ok {moduleName : Str} {event action : Object} {involved : Bool}
    (read : involves moduleName event action = .ok involved) :
    (involved = true ↔ Involved moduleName event action) ∧
      (involved = false →
        has Value.string? event "module".toList ∧ has Value.string? action "module".toList) := by
  unfold involves at read
  split at read
  case isTrue main =>
      cases read
      exact ⟨by simp [Involved, main], by simp⟩
  case isFalse other =>
      rcases bind_eq_ok.mp read with ⟨eventModule, eventRead, read⟩
      have eventFound := get_eq_ok_iff.mp eventRead
      split at read
      case isTrue own =>
          cases read
          have involved : Involved moduleName event action :=
            Or.inr (Or.inl (by rw [eventFound, own]))
          exact ⟨by simp [involved], by simp⟩
      case isFalse foreign =>
          rcases bind_eq_ok.mp read with ⟨actionModule, actionRead, read⟩
          have actionFound := get_eq_ok_iff.mp actionRead
          cases read
          refine ⟨?_, fun _ => ⟨has_iff.mpr ⟨_, eventRead⟩, has_iff.mpr ⟨_, actionRead⟩⟩⟩
          rw [Involved, eventFound, actionFound, decide_eq_true_eq, Option.some_inj,
            Option.some_inj]
          tauto

theorem exists_involves {moduleName : Str} {event action : Object}
    (hasEvent : has Value.string? event "module".toList)
    (hasAction : has Value.string? action "module".toList) :
    ∃ involved, involves moduleName event action = .ok involved := by
  rcases has_iff.mp hasEvent with ⟨eventModule, eventRead⟩
  rcases has_iff.mp hasAction with ⟨actionModule, actionRead⟩
  by_cases main : moduleName = mainName
  · exact ⟨true, by rw [involves, if_pos main]⟩
  · exact ⟨_, involves_of_modules main eventRead actionRead⟩

/-- Every element of both configuration arrays was visited. -/
def VisitedRule.Whole (visited : VisitedRule) : Prop :=
  visited.event.visited = visited.event.values.length ∧
    visited.action.visited = visited.action.values.length

/-- A rule is read whole when its configuration arrays have only objects. -/
theorem whole_iff_uncut {moduleName : Str} {i : Nat} {rule event action : Object}
    {visited : VisitedRule} (eventFound : rule.find Value.object? "event".toList = some event)
    (actionFound : rule.find Value.object? "action".toList = some action)
    (involved : Involved moduleName event action)
    (read : visitRule i rule event action = .ok visited) :
    visited.Whole ↔ Uncut moduleName rule := by
  rcases visitRule_spec read with ⟨_, eventArray, eventEnd, actionArray, actionEnd⟩
  rw [VisitedRule.Whole, eventEnd, actionEnd, length_objects_eq_iff, length_objects_eq_iff,
    uncut_iff eventFound actionFound]
  constructor
  · rintro ⟨eventAll, actionAll⟩ _ part member values array
    rcases List.mem_pair.mp member with rfl | rfl
    · rw [eventArray] at array
      cases array
      exact eventAll
    · rw [actionArray] at array
      cases array
      exact actionAll
  · intro uncut
    have parts := uncut involved
    exact ⟨parts event (by simp) _ eventArray, parts action (by simp) _ actionArray⟩

/-- What one round of the loop over the rules reads: a rule of the module, or the
modules of another rule. -/
theorem visitRules_object {moduleName : Str} {i : Nat} {rule : Object} {left : List Value}
    {result : List VisitedRule × Nat}
    (read : visitRules moduleName i (.object rule :: left) = .ok result) :
    ∃ rest, visitRules moduleName (i + 1) left = .ok rest ∧ result.2 = rest.2 ∧
      Readable moduleName rule ∧
      ((∀ visited ∈ result.1, visited.Whole) ↔
        Uncut moduleName rule ∧ ∀ visited ∈ rest.1, visited.Whole) := by
  rw [visitRules] at read
  rcases bind_eq_ok.mp read with ⟨event, eventRead, read⟩
  rcases bind_eq_ok.mp read with ⟨action, actionRead, read⟩
  rcases bind_eq_ok.mp read with ⟨involved, involvedRead, read⟩
  have eventFound := get_eq_ok_iff.mp eventRead
  have actionFound := get_eq_ok_iff.mp actionRead
  rcases involves_eq_ok involvedRead with ⟨involvedIff, names⟩
  cases involved with
  | false =>
      have foreign : ¬ Involved moduleName event action := fun own =>
        Bool.noConfusion (involvedIff.mpr own)
      have uncut : Uncut moduleName rule :=
        (uncut_iff eventFound actionFound).mpr fun own => absurd own foreign
      refine ⟨result, read, rfl, ?_, by simp [uncut]⟩
      exact ⟨event, action, eventFound, actionFound, (names rfl).1, (names rfl).2,
        fun own => absurd own foreign⟩
  | true =>
      have own := involvedIff.mp rfl
      rw [if_pos rfl] at read
      rcases bind_eq_ok.mp read with ⟨newRule, ruleRead, read⟩
      rcases bind_eq_ok.mp read with ⟨rest, restRead, read⟩
      cases read
      have fields := (visitRule_spec ruleRead).1
      refine ⟨rest, restRead, rfl, ?_, ?_⟩
      · exact ⟨event, action, eventFound, actionFound, fields.2.2.1.1, fields.2.2.2.1,
          fun _ => fields⟩
      · rw [← whole_iff_uncut eventFound actionFound own ruleRead]
        exact List.forall_mem_cons

/-- The loop over the rules visits the objects, and reads them whole when their
configuration arrays have only objects. -/
theorem visitRules_spec {moduleName : Str} {i : Nat} {values : List Value}
    {result : List VisitedRule × Nat} (read : visitRules moduleName i values = .ok result) :
    result.2 = i + (objects values).length ∧
      (∀ rule ∈ objects values, Readable moduleName rule) ∧
      ((∀ visited ∈ result.1, visited.Whole) ↔
        ∀ rule ∈ objects values, Uncut moduleName rule) := by
  induction values generalizing i result with
  | nil =>
      cases read
      simp [objects]
  | cons value left ih =>
      cases value with
      | object rule =>
          rcases visitRules_object read with ⟨rest, restRead, final, readable, whole⟩
          rcases ih restRead with ⟨restFinal, restReadable, restWhole⟩
          rw [objects, List.forall_mem_cons, List.forall_mem_cons, whole, restWhole]
          refine ⟨?_, ⟨readable, restReadable⟩, Iff.rfl⟩
          rw [final, restFinal, List.length_cons]
          omega
      | number | string | boolean | null | array | invalid =>
          cases read
          simp [objects]

/-- The loop over the rules succeeds when the fields of the objects are there. -/
theorem exists_visitRules {moduleName : Str} (i : Nat) {values : List Value}
    (readable : ∀ rule ∈ objects values, Readable moduleName rule) :
    ∃ result, visitRules moduleName i values = .ok result := by
  induction values generalizing i with
  | nil => exact ⟨_, rfl⟩
  | cons value left ih =>
      cases value with
      | object rule =>
          rw [objects, List.forall_mem_cons] at readable
          rcases readable with ⟨⟨event, action, eventFound, actionFound, hasEvent, hasAction,
            fields⟩, rest⟩
          rcases ih (i + 1) rest with ⟨result, restRead⟩
          rcases exists_involves hasEvent hasAction with ⟨involved, involvedRead⟩
          have involvedIff := (involves_eq_ok involvedRead).1
          have ending : ∃ final, (if involved = true then do
              let newRule ← visitRule i rule event action
              let (outRule, final) ← visitRules moduleName (i + 1) left
              return (newRule :: outRule, final)
            else visitRules moduleName (i + 1) left) = .ok final := by
            cases involved with
            | false => exact ⟨result, restRead⟩
            | true =>
                rcases exists_visitRule (i := i) (fields (involvedIff.mp rfl)) with
                  ⟨newRule, ruleRead⟩
                exact ⟨_, bind_eq_ok.mpr ⟨_, ruleRead, bind_eq_ok.mpr ⟨_, restRead, rfl⟩⟩⟩
          rcases ending with ⟨final, ending⟩
          rw [visitRules]
          exact ⟨final, bind_eq_ok.mpr ⟨_, get_eq_ok_iff.mpr eventFound,
            bind_eq_ok.mpr ⟨_, get_eq_ok_iff.mpr actionFound,
            bind_eq_ok.mpr ⟨_, involvedRead, ending⟩⟩⟩⟩
      | number | string | boolean | null | array | invalid => exact ⟨_, rfl⟩

/-! ## All or nothing -/

/-- Rules are returned only after every element of the rules array was visited, and
every element of the configuration arrays of these rules. -/
def AllOrNothing (loader : ConfigLoader) (moduleName : Str) : Prop :=
  ∀ rules, loader.getRules moduleName = .ok rules →
    ∃ values loaded, loader.rules.find Value.array? "rules".toList = some values ∧
      visitRules moduleName 0 values = .ok (loaded, values.length) ∧
      loaded.map VisitedRule.rule = rules ∧ ∀ visited ∈ loaded, visited.Whole

theorem getRules_eq_ok_iff {loader : ConfigLoader} {moduleName : Str} {rules : List RuleInfo} :
    loader.getRules moduleName = .ok rules ↔
      ∃ values loaded final, loader.rules.find Value.array? "rules".toList = some values ∧
        visitRules moduleName 0 values = .ok (loaded, final) ∧
        loaded.map VisitedRule.rule = rules := by
  have inner : loader.getRules moduleName = .ok rules ↔
      (loader.rules.get Value.array? "rules".toList >>= readRules moduleName 0) = .ok rules := by
    unfold getRules
    cases loader.rules.get Value.array? "rules".toList >>= readRules moduleName 0 <;> simp
  rw [inner, bind_eq_ok]
  constructor
  · rintro ⟨values, array, read⟩
    rw [← visitRules_erase] at read
    cases visiting : visitRules moduleName 0 values with
    | error thrown =>
        rw [visiting] at read
        cases read
    | ok result =>
        rw [visiting] at read
        cases read
        exact ⟨values, result.1, result.2, get_eq_ok_iff.mp array, visiting, rfl⟩
  · rintro ⟨values, loaded, final, array, visiting, rfl⟩
    refine ⟨values, get_eq_ok_iff.mpr array, ?_⟩
    rw [← visitRules_erase, visiting]
    rfl

/-- Rules are loaded all or not at all if and only if, whenever every object before the first
non-object of the rules array is readable, the array has no non-object and neither have
the configuration arrays of the rules that the module takes part in. -/
theorem all_or_nothing_iff (loader : ConfigLoader) (moduleName : Str) :
    loader.AllOrNothing moduleName ↔
      ∀ values, loader.rules.find Value.array? "rules".toList = some values →
        (∀ rule ∈ objects values, Readable moduleName rule) →
        AllObjects values ∧ ∀ rule ∈ objects values, Uncut moduleName rule := by
  constructor
  · intro allOrNothing values array readable
    rcases exists_visitRules 0 readable with ⟨result, visiting⟩
    rcases allOrNothing _ (getRules_eq_ok_iff.mpr ⟨values, _, _, array, visiting, rfl⟩) with
      ⟨values', loaded, array', visiting', _, whole⟩
    rw [array] at array'
    cases array'
    rcases visitRules_spec visiting' with ⟨final, _, wholeIff⟩
    refine ⟨(length_objects_eq_iff values).mp ?_, wholeIff.mp whole⟩
    simpa using final.symm
  · intro condition rules loading
    rcases getRules_eq_ok_iff.mp loading with ⟨values, loaded, final, array, visiting, erased⟩
    rcases visitRules_spec visiting with ⟨finalEq, readable, wholeIff⟩
    rcases condition values array readable with ⟨all, uncut⟩
    have finalLength : final = values.length := by
      rw [← (length_objects_eq_iff values).mpr all]
      simpa using finalEq
    rw [finalLength] at visiting
    exact ⟨values, loaded, array, visiting, erased, wholeIff.mpr uncut⟩

/-- An event or action of a module without configuration. -/
def plainPart (moduleName : Str) : Object :=
  [("module".toList, .string moduleName), ("key".toList, .string "key".toList),
    ("configuration".toList, .array [])]

def plainRule (title : Str) : Object :=
  [("title".toList, .string title), ("constraints".toList, .object []),
    ("event".toList, .object (plainPart "module_video".toList)),
    ("action".toList, .object (plainPart "module_sms".toList))]

/-- A number between two rules. -/
def interrupted : ConfigLoader where
  moduleRuleFile := "rules.json".toList
  rules := [("rules".toList,
    .array [.object (plainRule "first".toList), .number 0, .object (plainRule "second".toList)])]

/-- The rule after the number is not loaded, and no error is reported. -/
theorem rule_after_number_lost : ¬ ∀ (loader : ConfigLoader) (moduleName : Str),
    loader.AllOrNothing moduleName := by
  intro always
  have allOrNothing := always interrupted mainName
  rcases allOrNothing _ rfl with ⟨values, loaded, array, visiting, _, _⟩
  cases array
  cases visiting

end ConfigLoader

end Sentri.LibModule
