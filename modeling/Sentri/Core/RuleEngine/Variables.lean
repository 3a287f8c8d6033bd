import Sentri.Core.RuleEngine.Correctness
import Sentri.Core.Sentri

/-!
# The variables of the messages

The variables an event module sends come back to it, and reach the action
module, with every message about the event.  System messages take the same way,
but their text is spliced into the list of variables as it is.
-/

namespace Sentri.Core.RuleEngine

open Sentri.LibModule Sentri.Text Sentri.Transition

variable {rules : List RuleInfo} {clock : SteadyClock}

/-! ## Calls -/

theorem checkConstraints_calls (engine : RuleEngine) (ruleId : RuleID) (rule : RuleInfo) :
    (checkConstraints clock engine ruleId rule).1.calls = engine.calls := by
  unfold checkConstraints
  split_ifs <;> rfl

theorem enqueueEvent_calls (engine : RuleEngine) (entry : EventEntry) :
    (enqueueEvent rules clock engine entry).1.calls = engine.calls ++ [entry] := by
  cases found : getRule rules entry.event.ruleId with
  | none => simp [enqueueEvent, found]
  | some rule =>
      simp only [enqueueEvent, found]
      split
      · rw [takeAction_of_found found]
        simp only [checkConstraints_calls]
      · simp only [checkConstraints_calls]

variable (rules clock) in
/-- A system message makes calls for its own text only. -/
theorem systemMessageLoop_calls (message : Str) (engine : RuleEngine)
    (left : List RuleInfo) :
    ∃ more, (systemMessageLoop rules clock message engine left).1.calls =
        engine.calls ++ more ∧
      ∀ entry ∈ more, ∃ ruleId, entry = systemMessageEntry ruleId message := by
  induction left generalizing engine with
  | nil => exact ⟨[], by simp [systemMessageLoop]⟩
  | cons rule left ih =>
      rw [systemMessageLoop]
      split
      · obtain ⟨more, callsEq, ofMessage⟩ :=
          ih (enqueueEvent rules clock engine (systemMessageEntry rule.id message)).1
        rw [enqueueEvent_calls] at callsEq
        refine ⟨systemMessageEntry rule.id message :: more, ?_, ?_⟩
        · simpa using callsEq
        · rintro entry member
          rcases List.mem_cons.mp member with rfl | old
          · exact ⟨rule.id, rfl⟩
          · exact ofMessage entry old
      · exact ih engine

theorem Action.calls_kept {op : Op} {engine next : RuleEngine} {handed : List Handed}
    (action : Action rules clock op engine next handed) : engine.calls <+: next.calls := by
  cases action with
  | ignore | reject | accept => exact List.prefix_append _ _
  | read | retry | giveUp | acknowledge | forget => exact List.prefix_rfl

theorem Actions.calls_kept {op : Op} {engine next : RuleEngine} {handed : List Handed}
    (actions : Actions rules clock op engine next handed) : engine.calls <+: next.calls := by
  induction actions with
  | done => exact List.prefix_rfl
  | cons action _ ih => exact action.calls_kept.trans ih

/-- A call that was made stays made. -/
theorem calls_kept_run (rules : List RuleInfo) (clock : SteadyClock) (before after : List Op) :
    ((machine rules clock).run before).state.calls <+:
      ((machine rules clock).run (before ++ after)).state.calls := by
  induction after using List.reverseRecOn with
  | nil => rw [List.append_nil]
  | append_singleton after op ih =>
      rw [← List.append_assoc, Machine.run_concat]
      exact ih.trans (step_actions _ op).calls_kept

/-- Every message about a call carries the variables of the call. -/
theorem receivedVars_of_call {before : List Op} (after : List Op) {entry : EventEntry}
    {item : Op × Handed}
    (called : ((machine rules clock).run before).state.calls[item.2.call]? = some entry)
    (member : item ∈ ((machine rules clock).run (before ++ after)).trace) :
    MessageHandler.receivedVars item.2.delivery.message =
      parseVars entry.event.vars.text := by
  obtain ⟨other, rule, body, about⟩ :=
    (consistent_run rules clock (before ++ after)).about item member
  obtain ⟨rest, split⟩ := calls_kept_run rules clock before after
  have same : other = entry := by
    have bound := (List.getElem?_eq_some_iff.mp called).1
    have present := about.called
    rw [← split, List.getElem?_append_left bound, called] at present
    exact (Option.some.inj present).symm
  rw [MessageHandler.receivedVars_of_action about.body_eq, about.vars_eq, same]

/-! ## Event variables -/

/-- The variables of an event survive the round trip through the core: in every
message about the event each key has the value of its first occurrence. -/
theorem variables_round_trip (rules : List RuleInfo) (clock : SteadyClock)
    (before after : List Op) (ruleId : RuleID) (entries : List (Str × Str)) (op : Op)
    (encodable : ∀ entry ∈ entries, Encodable entry)
    (noNul : ∀ entry ∈ entries, nul ∉ entry.1 ∧ nul ∉ entry.2)
    (fits : (encodeVars entries).length ≤ msgVarSize - 1)
    (sent : readMessage (MessageHandler.sendEventMessage ruleId (encodeVars entries)) =
      .engine op) :
    ∀ item ∈ history ((machine rules clock).run before).state.calls.length
        ((machine rules clock).run (before ++ op :: after)).trace,
      ∀ key, (MessageHandler.receivedVars item.2.delivery.message)[key]? =
        entries.lookup key := by
  rintro item member key
  obtain ⟨inTrace, about⟩ := mem_history.mp member
  have text : (snprintf msgVarSize (encodeVars entries)).text = encodeVars entries := by
    apply snprintf_text
    · exact nul_notMem_encodeVars noNul
    · exact Nat.lt_of_le_pred (by decide) fits
  cases sent
  have called : ((machine rules clock).run (before ++ [.enqueueEvent
      ⟨⟨ruleId, snprintf msgVarSize (encodeVars entries)⟩, 0, 0, 0⟩])).state.calls[item.2.call]? =
        some ⟨⟨ruleId, snprintf msgVarSize (encodeVars entries)⟩, 0, 0, 0⟩ := by
    rw [Machine.run_concat, Machine.extend_state]
    change (enqueueEvent rules clock _ _).1.calls[_]? = _
    rw [enqueueEvent_calls, about]
    simp
  rw [receivedVars_of_call after called (by simpa using inTrace)]
  change (parseVars (snprintf msgVarSize (encodeVars entries)).text)[key]? = _
  rw [text, parseVars_encodeVars encodable, getElem?_insertFirst]
  simp

/-- Three variables, two with the same key, in an action and its retry. -/
theorem variables_round_trip_image :
    let entries := [("image".toList, "a=b.jpg".toList), ("note".toList, []),
      ("image".toList, "c.jpg".toList)]
    let run := (machine [motionRule 0] (SteadyClock.ofList 0 [0, 0, 61000000000])).run
      [.enqueueEvent ⟨⟨0, snprintf msgVarSize (encodeVars entries)⟩, 0, 0, 0⟩, .ackThread,
        .ackThread]
    (history 0 run.trace).length = 2 ∧ ∀ item ∈ history 0 run.trace, ∀ key,
      (MessageHandler.receivedVars item.2.delivery.message)[key]? = entries.lookup key :=
  ⟨by decide +kernel,
    variables_round_trip [motionRule 0] (SteadyClock.ofList 0 [0, 0, 61000000000]) []
      [.ackThread, .ackThread] 0
      [("image".toList, "a=b.jpg".toList), ("note".toList, []),
        ("image".toList, "c.jpg".toList)]
      _ (by decide) (by decide) (by decide) rfl⟩

/-! ## System messages -/

/-- The variables of the message are the text of a system message and no other. -/
def Whole (text : Str) (message : Message) : Prop :=
  ∀ key, (MessageHandler.receivedVars message)[key]? =
    if key = systemMessageKey then some text else none

/-- The text survives parsing exactly when it has no comma. -/
theorem parseVars_systemMessage_iff {text : Str} :
    (∀ key, (parseVars (systemMessageKey ++ '=' :: text))[key]? =
      if key = systemMessageKey then some text else none) ↔ ',' ∉ text := by
  constructor
  · rintro whole comma
    obtain ⟨value, rest, rfl, valueComma⟩ := List.eq_append_cons_of_mem comma
    have cut := getElem?_parseVars_comma (show ',' ∉ systemMessageKey by decide) (by decide)
      valueComma rest
    rw [whole systemMessageKey, if_pos rfl] at cut
    simpa using congrArg List.length (Option.some.inj cut)
  · rintro noComma key
    have keyComma : ',' ∉ systemMessageKey := by decide
    have keyEquals : '=' ∉ systemMessageKey := by decide
    have decoded : parseVars (encodeVars [(systemMessageKey, text)]) =
        insertFirst ∅ [(systemMessageKey, text)] := by
      apply parseVars_encodeVars
      rintro entry member
      obtain rfl := List.mem_singleton.mp member
      exact ⟨keyComma, keyEquals, noComma⟩
    have single : encodeVars [(systemMessageKey, text)] = systemMessageKey ++ '=' :: text := by
      simp [encodeVars, encodeVar]
    rw [← single, decoded, getElem?_insertFirst]
    by_cases equal : key = systemMessageKey
    · simp [equal]
    · have different : (key == systemMessageKey) = false := by simpa using equal
      simp [List.lookup_cons, equal, different]

/-- The variables of a system message whose text fits. -/
theorem systemMessageEntry_vars {text : Str} (noNul : nul ∉ text)
    (short : text.length ≤ 1000) (ruleId : RuleID) :
    (systemMessageEntry ruleId text).event.vars.text = systemMessageKey ++ '=' :: text := by
  apply snprintf_text
  · rw [List.mem_append, List.mem_cons, not_or, not_or]
    exact ⟨by decide, by decide, noNul⟩
  · rw [List.length_append, List.length_cons]
    exact Nat.lt_of_le_of_lt (Nat.add_le_add_left (Nat.succ_le_succ short) _) (by decide)

/-- A system message of at most 1000 characters, given to the logger of the
core or of a module, reaches every receiver whole exactly when there is no comma
in it. -/
theorem system_message_whole_iff (rules : List RuleInfo) (clock : SteadyClock)
    (before after : List Op) (text : Str) (op : Op)
    (noNul : nul ∉ text) (short : text.length ≤ 1000)
    (passed : op = CoreLogger.systemMessage text ∨
      readMessage (ModuleLogger.systemMessage text) = .engine op) :
    ∀ item ∈ ((machine rules clock).run (before ++ op :: after)).trace,
      ((machine rules clock).run before).state.calls.length ≤ item.2.call →
      item.2.call < ((machine rules clock).run (before ++ [op])).state.calls.length →
      (Whole text item.2.delivery.message ↔ ',' ∉ text) := by
  rintro item member notBefore inOp
  have opEq : op = .systemMessage text := by
    rcases passed with direct | sent
    · exact direct
    · have stored : (snprintf msgVarSize text).text = text :=
        snprintf_text noNul (Nat.lt_of_le_of_lt short (by decide))
      cases sent
      rw [stored]
  subst opEq
  obtain ⟨more, callsEq, ofMessage⟩ := systemMessageLoop_calls rules clock text
    ((machine rules clock).run before).state rules
  have callsEq : ((machine rules clock).run (before ++ [.systemMessage text])).state.calls =
      ((machine rules clock).run before).state.calls ++ more := by
    rw [Machine.run_concat]
    exact callsEq
  have called := List.getElem?_eq_getElem inOp
  have inMore : ((machine rules clock).run
      (before ++ [.systemMessage text])).state.calls[item.2.call] ∈ more := by
    simp only [callsEq, List.getElem_append_right notBefore]
    exact List.getElem_mem _
  obtain ⟨ruleId, entryEq⟩ := ofMessage _ inMore
  rw [entryEq] at called
  have vars := receivedVars_of_call after called (by simpa using member)
  rw [Whole, vars, systemMessageEntry_vars noNul short]
  exact parseVars_systemMessage_iff

/-- A rule that mails system messages. -/
def systemMessageRule : RuleInfo where
  title := "system messages".toList
  id := 0
  event := { module := systemMessageModule, key := systemMessageKey, configuration := ∅ }
  action := { module := "module_mail".toList, key := "send".toList, configuration := ∅ }
  fireLimit := 0
  isDisabled := false

/-- The system message that the firebase module sends about an invalid token. -/
def invalidTokenMessage : Str :=
  ("Firebase module has an invalid token, a new token was requested. You need to " ++
    "reregister your devices to receive notifications on your phone").toList

/-- Of the message about an invalid token only the part before the comma is
received. -/
theorem invalid_token_message_cut :
    ¬ ∀ (rules : List RuleInfo) (clock : SteadyClock) (before after : List Op) (text : Str),
        nul ∉ text → text.length ≤ 1000 →
        ∀ item ∈ ((machine rules clock).run
            (before ++ CoreLogger.systemMessage text :: after)).trace,
          ((machine rules clock).run before).state.calls.length ≤ item.2.call →
          item.2.call < ((machine rules clock).run
            (before ++ [CoreLogger.systemMessage text])).state.calls.length →
          item.2.delivery.message.type = .msgActio → Whole text item.2.delivery.message := by
  intro all
  have cut : ∃ item ∈ ((machine [systemMessageRule] (SteadyClock.ofList 0 [])).run
      [CoreLogger.systemMessage invalidTokenMessage]).trace,
      item.2.call = 0 ∧ item.2.delivery.message.type = .msgActio ∧
      (MessageHandler.receivedVars item.2.delivery.message)[systemMessageKey]? =
        some "Firebase module has an invalid token".toList := by decide +kernel
  rcases cut with ⟨item, member, first, isAction, received⟩
  have whole := all [systemMessageRule] (SteadyClock.ofList 0 []) [] [] invalidTokenMessage
    (by decide +kernel) (by decide +kernel) item member (Nat.zero_le _)
    (by rw [first]; decide +kernel) isAction systemMessageKey
  rw [received, if_pos rfl] at whole
  exact absurd whole (by decide +kernel)

/-- A system message without a comma, sent by a module. -/
theorem system_message_whole_iff_without_comma :
    let text := "module_sms died".toList
    let run := (machine [systemMessageRule] (SteadyClock.ofList 0 [])).run
      [CoreLogger.systemMessage text]
    run.trace.length = 1 ∧ ∀ item ∈ run.trace, item.2.call < 1 →
      Whole text item.2.delivery.message := by
  refine ⟨by decide +kernel, ?_⟩
  rintro item member first
  have whole := system_message_whole_iff [systemMessageRule] (SteadyClock.ofList 0 []) [] []
    "module_sms died".toList (CoreLogger.systemMessage "module_sms died".toList)
    (by decide) (by decide) (Or.inr rfl) item member (Nat.zero_le _)
  exact (whole (lt_of_lt_of_le first (by decide +kernel))).mpr (by decide)

end Sentri.Core.RuleEngine
