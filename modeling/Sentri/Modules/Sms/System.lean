import Sentri.Modules.ActionModules

/-!
# The rule engine with the SMS module

The SMS module alone with the rule engine.  In the runs here messages may get lost and the
module may be killed or not; those of them in which every message passes and the process
lives are the ones with queues that lose nothing.  The heartbeats of rounds without a
message do not concern the rule engine and are left out.
-/

namespace Sentri.Modules.Sms

open Sentri.Core Sentri.LibModule Sentri.Text Sentri.Transition

/-- The only action module. -/
abbrev alone (curl : Curl) (_ : Unit) : Agent :=
  smsAgent curl

/-- A run of the rule engine with the SMS module. -/
abbrev SystemRun (curl : Curl) : Type :=
  Run (Office (alone curl)) (Office.Op (alone curl)) (Office.Event (alone curl))

/-- The rule engine and the SMS module at work.  Every operation of the core and every message
that the module handles is one step, in any order. -/
def system (rules : List RuleInfo) (clock : SteadyClock) (curl : Curl) :
    Machine (Office (alone curl)) (Office.Op (alone curl)) (Office.Event (alone curl)) :=
  office (alone curl) rules clock

/-! ## The contract of an action -/

/-- The output is the acknowledgement of an event. -/
def Output.acknowledges (id : EventID) : Output → Bool
  | .sent message => message = MessageHandler.acknowledgeEvent id
  | .request _ _ _ => false

/-- The output is a text message to a receiver. -/
def Output.texts (receiver : Str) : Output → Bool
  | .request number _ success => success && number = receiver
  | .sent _ => false

section

variable {curl : Curl}

/-- The module acknowledges the event. -/
def isAcknowledgement (id : EventID)
    (item : Office.Op (alone curl) × Office.Event (alone curl)) : Bool :=
  match item.2 with
  | .output _ _ output => Output.acknowledges id output
  | _ => false

/-- The module sends a text message to the receiver for the event. -/
def isText (id : EventID) (receiver : Str)
    (item : Office.Op (alone curl) × Office.Event (alone curl)) : Bool :=
  match item.2 with
  | .output _ (.msgActio body) output => body.eventId = id && Output.texts receiver output
  | _ => false

/-- The action of an event is done and acknowledged once. -/
structure DoneOnce (trace : List (Office.Op (alone curl) × Office.Event (alone curl)))
    (call : Nat) (id : EventID) (receivers : List Str) : Prop where
  acknowledged : (trace.filter (isAcknowledgement id)).length = 1
  answered : ∃ item ∈ RuleEngine.history call (engineTrace trace),
    item.2.delivery.message.type = .msgAckev
  not_aborted : ∀ item ∈ RuleEngine.history call (engineTrace trace),
    item.2.delivery.message.type ≠ .msgEvabt
  texted : ∀ receiver ∈ receivers, (trace.filter (isText id receiver)).length = 1

/-! ## No action is done once -/

theorem message?_of_acknowledges {id : EventID} {output : Output}
    (acknowledges : output.acknowledges id = true) : output.message? = some (.msgAckac id) := by
  cases output with
  | request => cases acknowledges
  | sent message => exact congrArg some (of_decide_eq_true acknowledges)

variable (rules : List RuleInfo) (clock : SteadyClock) (curl) (ops : List (Office.Op (alone curl)))

/-- The module never acknowledges. -/
theorem no_acknowledgement (id : EventID) :
    ((system rules clock curl).run ops).trace.filter (isAcknowledgement id) = [] := by
  have silent : Unacknowledged ((system rules clock curl).run ops) :=
    unacknowledged_run (fun _ => smsAgent_mute curl) rules clock ops
  rw [List.filter_eq_nil_iff]
  rintro ⟨op, event⟩ member isAck
  cases event with
  | handed => cases isAck
  | received => cases isAck
  | output i cause output =>
      exact silent.outputs op i cause output member id (message?_of_acknowledges isAck)

/-- No event module hears of an acknowledgement. -/
theorem no_answer {item : RuleEngine.Op × Handed}
    (member : item ∈ engineTrace ((system rules clock curl).run ops).trace) :
    item.2.delivery.message.type ≠ .msgAckev := by
  intro isAnswer
  have silent : Unacknowledged ((system rules clock curl).run ops) :=
    unacknowledged_run (fun _ => smsAgent_mute curl) rules clock ops
  rcases exists_engine_run (alone curl) rules clock ops with ⟨engineOps, inner⟩
  have consistent := RuleEngine.consistent_run rules clock engineOps
  rw [inner] at consistent
  rcases consistent.about item member with ⟨entry, rule, body, about⟩
  exact silent.engine item member body.eventId
    (consistent.answers item member isAnswer body about.body_eq)

/-- No action of the SMS module is ever done and acknowledged once: the module
sends no acknowledgement, the event module gets none, and an accepted event that
is no longer pending was aborted after the last retry. -/
theorem never_done_once (call : Nat) (entry : EventEntry) (id : EventID) (receivers : List Str)
    (called : ((system rules clock curl).run ops).state.engine.calls[call]? = some entry)
    (known : entry.event.ruleId < rules.length) :
    let run := (system rules clock curl).run ops
    let history := RuleEngine.history call (engineTrace run.trace)
    ¬ DoneOnce run.trace call id receivers ∧
      run.trace.filter (isAcknowledgement id) = [] ∧
      (∀ item ∈ history, item.2.delivery.message.type ≠ .msgAckev) ∧
      ((∃ item ∈ history, item.2.delivery.message.type = .msgActio) →
        (∀ pending ∈ run.state.engine.ackQueue, pending.call ≠ call) →
        ∃ actions abort, history = actions ++ [abort] ∧
          actions.length = numActionRetries + 1 ∧
          (∀ item ∈ actions, item.2.delivery.message.type = .msgActio) ∧
          abort.2.delivery.message.type = .msgEvabt) := by
  intro run history
  have silent := no_acknowledgement curl rules clock ops id
  have notAnswered : ∀ item ∈ history, item.2.delivery.message.type ≠ .msgAckev := by
    intro item member
    exact no_answer curl rules clock ops (RuleEngine.mem_history.mp member).1
  rcases exists_engine_run (alone curl) rules clock ops with ⟨engineOps, inner⟩
  have tracks := RuleEngine.tracks_run rules clock engineOps
  have consistent := RuleEngine.consistent_run rules clock engineOps
  rw [inner] at tracks consistent
  refine ⟨?_, silent, notAnswered, ?_⟩
  · rintro done
    have one := done.acknowledged
    rw [silent] at one
    cases one
  · rintro ⟨action, actionMember, isAction⟩ gone
    rcases tracks.accepted_history consistent called known with
      ⟨item, single, isAbort, _⟩ | ⟨id', actions, final, split, accepted, pendingIff⟩
    · have single : history = [item] := single
      rw [single, List.mem_singleton] at actionMember
      rw [actionMember, isAbort] at isAction
      cases isAction
    · have closed : final ≠ [] := by
        rintro empty
        obtain ⟨pending, waiting, same, _⟩ := pendingIff.mp empty
        exact gone pending waiting same
      obtain ⟨abort, rest, rfl⟩ := List.exists_cons_of_ne_nil closed
      obtain rfl : rest = [] := by
        have := accepted.oneFinal
        simpa using this
      have inHistory : abort ∈ history := by
        have split : history = actions ++ [abort] := split
        rw [split]
        simp
      rcases accepted.ends abort (by simp) with ⟨answer, _⟩ | ⟨isAbort, length, _⟩
      · exact absurd answer (notAnswered abort inHistory)
      · exact ⟨actions, abort, split, length, accepted.areActions, isAbort⟩

end

/-- A rule that texts an alarm to one receiver. -/
def alarmRule : RuleInfo where
  title := "alarm".toList
  id := 0
  event := { module := "module_video".toList, key := "motion".toList, configuration := ∅ }
  action := {
    module := moduleName
    key := actionTitle
    configuration := .ofList [("to".toList, "491234567".toList), ("body".toList, "alarm".toList)] }
  fireLimit := 0
  isDisabled := false

/-- A transfer library whose requests all succeed. -/
def reliable : Curl where
  init _ := true
  escape _ text := some text
  perform _ _ := .ok ()

/-- A step in which every message passes. -/
def lossless (act : Office.Act (alone reliable)) : Office.Op (alone reliable) where
  act := act
  passes := fun _ => true

/-- One event, every action handled at once, and a check of the queue a minute after each
action. -/
def alarmOps : List (Office.Op (alone reliable)) :=
  [.spawnModule () ⟨⟨[], [], []⟩, [alarmRule], 0⟩, .enqueueEvent RuleEngine.motionEvent,
    .handleMessage () none, .ackThread, .handleMessage () none, .ackThread,
    .handleMessage () none, .ackThread, .handleMessage () none, .ackThread].map lossless

def alarmClock : SteadyClock :=
  SteadyClock.ofList 0 [0, 61000000000, 0, 0, 61000000000, 0, 0, 61000000000, 0, 0, 61000000000]

def alarmRun : SystemRun reliable :=
  (system [alarmRule] alarmClock reliable).run alarmOps

/-- All messages are handled and all requests succeed, and still the receiver
gets four text messages and the event is aborted. -/
theorem alarm_texted_four_times :
    ¬ DoneOnce alarmRun.trace 0 0 ["491234567".toList] ∧
      alarmRun.state.toModule () = [] ∧
      (alarmRun.trace.filter (isText 0 "491234567".toList)).length = 4 ∧
      (RuleEngine.history 0 (engineTrace alarmRun.trace)).map
          (fun item => item.2.delivery.message.type) =
        [.msgActio, .msgActio, .msgActio, .msgActio, .msgEvabt] := by
  refine ⟨?_, by decide +kernel, by decide +kernel, by decide +kernel⟩
  rintro done
  have unheard : (alarmRun.trace.filter (isAcknowledgement 0)).length = 0 := by decide +kernel
  rw [done.acknowledged] at unheard
  cases unheard

/-- The event of the run above is aborted after its last retry. -/
theorem never_done_once_alarm :
    ¬ DoneOnce alarmRun.trace 0 0 ["491234567".toList] ∧
      ∃ actions abort, RuleEngine.history 0 (engineTrace alarmRun.trace) =
          actions ++ [abort] ∧
        actions.length = numActionRetries + 1 ∧
        abort.2.delivery.message.type = .msgEvabt := by
  have called : alarmRun.state.engine.calls[0]? = some RuleEngine.motionEvent := by
    decide +kernel
  obtain ⟨notDone, _, _, aborted⟩ := never_done_once reliable [alarmRule] alarmClock alarmOps 0
    RuleEngine.motionEvent 0 ["491234567".toList] called (by decide)
  have actionSeen : ∃ item ∈ RuleEngine.history 0 (engineTrace alarmRun.trace),
      item.2.delivery.message.type = .msgActio := by decide +kernel
  have queueEmpty : alarmRun.state.engine.ackQueue = [] := by decide +kernel
  obtain ⟨actions, abort, split, length, _, isAbort⟩ := aborted actionSeen (by
    rintro pending member
    change pending ∈ alarmRun.state.engine.ackQueue at member
    rw [queueEmpty] at member
    cases member)
  exact ⟨notDone, actions, abort, split, length, isAbort⟩

end Sentri.Modules.Sms
