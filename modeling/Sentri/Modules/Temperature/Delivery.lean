import Sentri.Core.Announcements
import Sentri.LibModule.Allowance
import Sentri.Modules.Temperature.Alarm
import Sentri.Transition.Pipe

/-!
# Delivery of temperature alarms

The temperature module at one end of the queue of the core and the rule engine at the other.
What the module asks for passes its flood protection.  The queue is bounded and other modules
use it too, so that a message may find it full and is lost.  The core reads one message after
the other, and anything else may happen to the rule engine in between: system messages of the
core itself and passes of the ack thread.
-/

namespace Sentri.Modules.Temperature

open Sentri.Core Sentri.LibModule Sentri.Number Sentri.Text Sentri.Transition

open LibModule.Module (Allowance Sender passedMessages)

/-! ## Calls of the library -/

namespace Request

/-- The requests that pass the flood protection.  A sleep may take longer than asked for. -/
def guarded? (oversleep : Nat) : Request → Option Module.Request
  | setHeartbeatInterval interval => some (.setHeartbeatInterval (UInt32.ofNat interval))
  | sendHeartbeat => some (.sendHeartbeat oversleep)
  | sendEventMessage ruleID vars => some (.sendEventMessage ruleID vars)
  | log _ _ => none
  | writeHook _ => none

/-- The messages of the other requests.  The hook is a file, and a local message stays in
the process. -/
def unguarded : Request → List Message
  | log severity message =>
      if severity = .localOnly then [] else [MessageHandler.log moduleName severity message]
  | _ => []

/-- A call of the library some nanoseconds after the last one. -/
def call (oversleep pause : Nat) (sender : Sender) (request : Request) : Sender × List Message :=
  match request.guarded? oversleep with
  | some guarded =>
      let (sender, outputs) := sender.step moduleName ⟨pause, guarded⟩
      (sender, passedMessages outputs)
  | none => ({ sender with now := sender.now + pause }, request.unguarded)

/-- The messages of a request, if none is refused. -/
def messages (request : Request) : List Message :=
  match request.guarded? 0 with
  | some guarded => [guarded.message moduleName]
  | none => request.unguarded

end Request

/-- The calls of an iteration; after the pauses that are given there is none. -/
def callAll (oversleep : Nat) : Sender → List Nat → List Request → Sender × List Message
  | sender, _, [] => (sender, [])
  | sender, pauses, request :: left =>
      let (sender, first) := request.call oversleep (pauses.headD 0) sender
      let (sender, rest) := callAll oversleep sender pauses.tail left
      (sender, first ++ rest)

/-! ## The module and the core -/

/-- What happens in an iteration: what the module finds, the pauses before its calls in
nanoseconds, and how much longer a sleep takes than asked for. -/
structure Moment where
  surroundings : Surroundings
  pauses : List Nat
  oversleep : Nat

/-- The module with its flood protection and its clock. -/
structure Station where
  monitor : Monitor
  sender : Sender

/-- An iteration of the main loop, with the sleep at its end. -/
def Station.step (station : Station) (moment : Moment) : Station × List (List Message) :=
  let (monitor, asked) := station.monitor.step moment.surroundings
  let (sender, messages) :=
    callAll moment.oversleep station.sender moment.pauses asked.flatten
  let slept := if monitor.ending.isSome then 0 else
    ((station.monitor.loop.step station.monitor.pollingInterval
      moment.surroundings.loopTime).2.map Iteration.slept).sum * second + moment.oversleep
  (⟨monitor, { sender with now := sender.now + slept }⟩, [messages])

/-- The sender of a new module some nanoseconds after the epoch of the clock. -/
def newSender (clockStart : Nat) : Sender :=
  ⟨⟨0, 0⟩, clockStart⟩

/-- The module in its main loop. -/
def stationed (start : Station) : Machine Station Moment (List Message) :=
  ⟨start, Station.step⟩

/-- The operation of the rule engine that a message leads to. -/
def engineOp (message : Message) : Option RuleEngine.Op :=
  match readMessage message with
  | .engine op => some op
  | _ => none

/-- The number of messages that a queue can hold. -/
def defaultQueueSize : Nat :=
  5000

/-- The module and the rule engine, joined by the queue of the core, to which the messages
from before the main loop are sent first. -/
def wired (rules : List RuleInfo) (clock : SteadyClock) (monitor : Monitor)
    (before : Sender × List Message) :
    Machine (Pipe Station Message RuleEngine) (Pipe.Turn Moment Message RuleEngine.Op)
      (Pipe.Sight (List Message) Message RuleEngine.Op Handed) :=
  Pipe.machine (stationed ⟨monitor, before.1⟩) (RuleEngine.machine rules clock) id engineOp
    defaultQueueSize before.2

/-! ## Nothing is refused -/

/-- The number of requests that pass the flood protection. -/
def guardedCount (requests : List Request) : Nat :=
  requests.countP fun request => (request.guarded? 0).isSome

namespace Request

theorem guarded?_isSome (oversleep : Nat) (request : Request) :
    (request.guarded? oversleep).isSome = (request.guarded? 0).isSome := by
  cases request <;> rfl

theorem guarded?_message {oversleep : Nat} {request : Request} {guarded : Module.Request}
    (found : request.guarded? oversleep = some guarded) :
    request.messages = [guarded.message moduleName] := by
  cases request <;> cases found <;> rfl

end Request

/-- Requests within the allowance lead to all their messages. -/
theorem callAll_allowed (oversleep : Nat) {requests : List Request} {extra : Nat} {sender : Sender}
    (allowance : Allowance (guardedCount requests + extra) sender) (pauses : List Nat) :
    (callAll oversleep sender pauses requests).2 = requests.flatMap Request.messages ∧
      Allowance extra (callAll oversleep sender pauses requests).1 := by
  induction requests generalizing sender pauses with
  | nil =>
      refine ⟨rfl, ?_⟩
      have same : guardedCount [] + extra = extra := Nat.zero_add extra
      rw [same] at allowance
      exact allowance
  | cons request left ih =>
      rw [callAll, List.flatMap_cons]
      cases found : request.guarded? oversleep with
      | none =>
          have free : (request.guarded? 0).isSome = false := by
            rw [← Request.guarded?_isSome oversleep, found]
            rfl
          have count : guardedCount (request :: left) = guardedCount left :=
            List.countP_cons_of_neg (by simp [free])
          have plain : request.messages = request.unguarded := by
            rw [Request.messages]
            cases unguarded : request.guarded? 0 with
            | none => rfl
            | some guarded =>
                rw [unguarded] at free
                cases free
          have waited : sender.now ≤ sender.now + (pauses.headD 0 : Nat) :=
            Int.le_add_of_nonneg_right (Int.natCast_nonneg _)
          rw [count] at allowance
          rcases ih (allowance.wait waited) pauses.tail with ⟨messages, rest⟩
          simp only [Request.call, found, plain]
          exact ⟨congrArg (request.unguarded ++ ·) messages, rest⟩
      | some guarded =>
          have taken : (request.guarded? 0).isSome = true := by
            rw [← Request.guarded?_isSome oversleep, found]
            rfl
          have count : guardedCount (request :: left) = guardedCount left + 1 :=
            List.countP_cons_of_pos taken
          rw [count, Nat.add_right_comm] at allowance
          have small : guardedCount left + extra < floodMsgPerSecond := by
            have room := allowance.room
            omega
          rcases @Allowance.step moduleName sender ⟨pauses.headD 0, guarded⟩ _ allowance small with
            ⟨passed, next, _⟩
          rcases ih next pauses.tail with ⟨messages, rest⟩
          simp only [Request.call, found, passed, Request.guarded?_message found]
          exact ⟨congrArg (guarded.message moduleName :: ·) messages, rest⟩

/-- The module may pass on its next messages: it has passed on at most one so far, or has
slept for a second. -/
def Calm (sender : Sender) : Prop :=
  Allowance 14 sender ∨
    sender.density.lastDensityReset + second ≤ sender.now

/-- An iteration begins with a heartbeat, and thirteen events may follow. -/
theorem callAll_calm (oversleep : Nat) {requests : List Request} {sender : Sender}
    (calm : Calm sender) (few : guardedCount requests ≤ 13) (pauses : List Nat) :
    (callAll oversleep sender pauses (.sendHeartbeat :: requests)).2 =
        (Request.sendHeartbeat :: requests).flatMap Request.messages ∧
      Allowance 0 (callAll oversleep sender pauses (.sendHeartbeat :: requests)).1 := by
  have beat : passedMessages (sender.step moduleName ⟨pauses.headD 0, .sendHeartbeat oversleep⟩).2 =
        [MessageHandler.sendHeartbeat moduleName] ∧
      Allowance 13 (sender.step moduleName ⟨pauses.headD 0, .sendHeartbeat oversleep⟩).1 := by
    rcases calm with allowance | slept
    · rcases @Allowance.step moduleName sender ⟨pauses.headD 0, .sendHeartbeat oversleep⟩ 13
        allowance (by decide) with ⟨passed, next, _⟩
      exact ⟨passed, next⟩
    · have long : Density.limit < second := by decide
      have rested : Module.Rested sender (pauses.headD 0) := by
        have nonneg : (0 : Int) ≤ (pauses.headD 0 : Nat) := Int.natCast_nonneg _
        rw [Module.Rested]
        linarith
      rcases @Module.Rested.step moduleName sender ⟨pauses.headD 0, .sendHeartbeat oversleep⟩
        rested with ⟨passed, next, _⟩
      exact ⟨passed, next.room.trans' (by omega), next.past⟩
  rcases beat with ⟨passed, next⟩
  have enough : Allowance (guardedCount requests + 0)
      (sender.step moduleName ⟨pauses.headD 0, .sendHeartbeat oversleep⟩).1 :=
    ⟨(Nat.add_le_add_left few _).trans next.room, next.past⟩
  rcases callAll_allowed oversleep enough pauses.tail with ⟨messages, rest⟩
  rw [callAll, List.flatMap_cons]
  simp only [Request.call, Request.guarded?, passed]
  exact ⟨congrArg (MessageHandler.sendHeartbeat moduleName :: ·) messages, rest⟩

/-- The sleep is what the loop time leaves of the slot. -/
theorem Loop.step_slept {pollingInterval loopTime : Nat} {loop : Loop}
    (fits : (loopTime : Int) ≤ loop.slot pollingInterval) :
    ((loop.step pollingInterval loopTime).2.map Iteration.slept).sum =
      loop.slot pollingInterval - loopTime := by
  rw [Loop.slot] at fits ⊢
  unfold Loop.step
  by_cases long : loop.restored pollingInterval > heartbeatInterval
  · rw [min_eq_right long.le] at fits ⊢
    simp only [if_pos long, if_pos (sub_nonneg.mpr fits)]
    simp
  · rw [min_eq_left (not_lt.mp long)] at fits ⊢
    simp only [if_neg long, if_pos (sub_nonneg.mpr fits)]
    simp

/-! ## The messages of a regular run -/

/-- Every iteration leaves at least a second of its slot to sleep. -/
def Prompt (pollingInterval : Nat) (loopBegin : Int) (loopTimes : List Nat) : Prop :=
  ∀ (before : List Nat) (loopTime : Nat), before ++ [loopTime] <+: loopTimes →
    (loopTime : Int) < ((mainLoop pollingInterval loopBegin).run before).state.slot pollingInterval

theorem Prompt.of_prefix {pollingInterval : Nat} {loopBegin : Int} {before loopTimes : List Nat}
    (prompt : Prompt pollingInterval loopBegin loopTimes) (inside : before <+: loopTimes) :
    Prompt pollingInterval loopBegin before :=
  fun first time earlier => prompt first time (earlier.trans inside)

/-- What a module finds in the polls of a run. -/
structure Findings where
  temperature : Surroundings → Int
  rules : Surroundings → List RuleInfo

/-- The event of the core about a rule that is triggered. -/
def alarmEntry (n : Int) (rule : RuleInfo) : EventEntry :=
  ⟨⟨rule.id, snprintf msgVarSize ("temp=".toList ++ degrees n)⟩, 0, 0, 0⟩

namespace Findings

variable (findings : Findings) (pollingInterval : Nat)

/-- The rules that are triggered. -/
def due (surroundings : Surroundings) : List RuleInfo :=
  (findings.rules surroundings).filter (triggers (findings.temperature surroundings))

/-- Every poll is regular and finds this, and no more than thirteen rules are triggered. -/
def Right (run : List Surroundings) : Prop :=
  ∀ i surroundings, run[i]? = some surroundings → rounds pollingInterval ∣ i →
    Regular surroundings (findings.temperature surroundings) (findings.rules surroundings) ∧
      (findings.due surroundings).length ≤ 13

/-- The events of iteration `i`. -/
def alarms (i : Nat) (surroundings : Surroundings) : List EventEntry :=
  if rounds pollingInterval ∣ i then
    (findings.due surroundings).map (alarmEntry (findings.temperature surroundings))
  else
    []

/-- The events of a run, in their order. -/
def allAlarms (run : List Surroundings) : List EventEntry :=
  (run.mapIdx (findings.alarms pollingInterval)).flatten

variable {findings pollingInterval} {loopBegin : Int} {moments : List Moment}

theorem Right.regular {run : List Surroundings} (right : findings.Right pollingInterval run) :
    AllRegular pollingInterval run := by
  intro i surroundings present polled
  exact ⟨_, _, (right i surroundings present polled).1⟩

/-- A rule that is triggered in a poll gets its event. -/
theorem mem_allAlarms {run : List Surroundings} {i : Nat} {surroundings : Surroundings}
    (present : run[i]? = some surroundings) (polled : rounds pollingInterval ∣ i)
    {rule : RuleInfo} (mine : rule ∈ findings.rules surroundings)
    (triggered : triggers (findings.temperature surroundings) rule = true) :
    alarmEntry (findings.temperature surroundings) rule ∈
      findings.allAlarms pollingInterval run := by
  apply List.mem_flatten.mpr
  refine ⟨findings.alarms pollingInterval i surroundings, ?_, ?_⟩
  · apply List.mem_iff_getElem?.mpr
    exact ⟨i, by rw [List.getElem?_mapIdx, present]; rfl⟩
  · rw [alarms, if_pos polled]
    exact List.mem_map_of_mem (List.mem_filter.mpr ⟨mine, triggered⟩)

theorem guardedCount_events (n : Int) (rules : List RuleInfo) :
    guardedCount (rules.map (eventOf n)) = rules.length := by
  rw [guardedCount, List.countP_map]
  exact List.countP_eq_length.mpr fun _ _ => rfl

/-- An iteration asks for a heartbeat and for few other messages. -/
theorem few_of_expected {i : Nat} {surroundings : Surroundings} {asked : List Request}
    (expected : Expected pollingInterval i surroundings asked)
    (usual : rounds pollingInterval ∣ i →
      Regular surroundings (findings.temperature surroundings) (findings.rules surroundings) ∧
        (findings.due surroundings).length ≤ 13) :
    ∃ rest, asked = .sendHeartbeat :: rest ∧ guardedCount rest ≤ 13 := by
  by_cases polled : rounds pollingInterval ∣ i
  · rcases usual polled with ⟨regular, few⟩
    refine ⟨_, expected.polled polled _ _ regular, ?_⟩
    have count := guardedCount_events (findings.temperature surroundings)
      (findings.due surroundings)
    have events : guardedCount (pollRequests (findings.temperature surroundings)
        (findings.rules surroundings)) = (findings.due surroundings).length := count
    rw [events]
    exact few
  · exact ⟨[], expected.between polled, Nat.zero_le _⟩

/-- The step lemma: the messages of an iteration are all passed on, and after its sleep
the module may pass on others. -/
theorem station_step (positive : 1 ≤ pollingInterval) {before : List Surroundings} {moment : Moment}
    (prompt : Prompt pollingInterval loopBegin
      ((before ++ [moment.surroundings]).map Surroundings.loopTime))
    (right : findings.Right pollingInterval (before ++ [moment.surroundings])) {station : Station}
    (monitorEq : station.monitor =
      ((monitoring (started pollingInterval loopBegin)).run before).state)
    (calm : Calm station.sender) :
    (station.step moment).1.monitor = (station.monitor.step moment.surroundings).1 ∧
      Calm (station.step moment).1.sender ∧
      (station.step moment).2 = (station.monitor.step moment.surroundings).2.map
        (fun asked => asked.flatMap Request.messages) := by
  have inside := List.prefix_append before [moment.surroundings]
  have usual := right before.length moment.surroundings (by simp)
  rcases expected_step loopBegin positive right.regular (List.prefix_refl _) with
    ⟨asked, given, expected⟩
  rcases few_of_expected expected usual with ⟨rest, rfl, few⟩
  have attending := (@attending_run _ loopBegin _ positive (right.regular.of_prefix inside)).1
  have after := (@attending_run _ loopBegin _ positive right.regular).1.going
  rw [Machine.run_concat, Machine.extend_state] at after
  rw [← monitorEq] at given after attending
  have stepped : (station.monitor.step moment.surroundings).2 = [.sendHeartbeat :: rest] := given
  have going : (station.monitor.step moment.surroundings).1.ending = none := after
  have slot := prompt (before.map Surroundings.loopTime) moment.surroundings.loopTime
    (by simp)
  rw [← attending.loop_eq] at slot
  have slept := Loop.step_slept slot.le
  rcases callAll_calm moment.oversleep calm few moment.pauses with ⟨messages, used⟩
  unfold Station.step
  simp only [stepped, going, List.flatten_singleton, messages, attending.interval, slept,
    Option.isSome_none, Bool.false_eq_true, if_false]
  refine ⟨trivial, Or.inr ?_, rfl⟩
  have atLeast : second ≤ (station.monitor.loop.slot pollingInterval -
      moment.surroundings.loopTime) * second := by
    have one : 1 ≤ station.monitor.loop.slot pollingInterval - moment.surroundings.loopTime := by
      omega
    have nonneg : (0 : Int) ≤ second := by decide
    nlinarith
  have late : (0 : Int) ≤ moment.oversleep := Int.natCast_nonneg _
  have past := used.past
  dsimp only
  linarith

theorem Right.of_prefix {before run : List Surroundings}
    (right : findings.Right pollingInterval run) (inside : before <+: run) :
    findings.Right pollingInterval before := by
  intro i surroundings present polled
  rcases List.getElem?_eq_some_iff.mp present with ⟨bound, rfl⟩
  exact right i _ (List.prefix_iff_getElem?.mp inside i bound) polled

/-- The run lemma: no message is refused. -/
theorem station_run (positive : 1 ≤ pollingInterval) {sender : Sender} (calm : Calm sender)
    (prompt : Prompt pollingInterval loopBegin
      ((moments.map Moment.surroundings).map Surroundings.loopTime))
    (right : findings.Right pollingInterval (moments.map Moment.surroundings)) :
    let run := (stationed ⟨started pollingInterval loopBegin, sender⟩).run moments
    run.state.monitor = ((monitoring (started pollingInterval loopBegin)).run
        (moments.map Moment.surroundings)).state ∧
      Calm run.state.sender ∧
      run.trace.map Prod.snd = (requests (started pollingInterval loopBegin)
        (moments.map Moment.surroundings)).map (fun asked => asked.flatMap Request.messages) := by
  induction moments using List.reverseRecOn with
  | nil => exact ⟨rfl, calm, rfl⟩
  | append_singleton moments moment ih =>
      rw [List.map_append, List.map_singleton] at prompt right
      have inside := List.prefix_append (moments.map Moment.surroundings) [moment.surroundings]
      rcases ih (prompt.of_prefix (inside.map _)) (right.of_prefix inside) with
        ⟨monitorEq, calm, trace⟩
      rcases station_step positive prompt right monitorEq calm with ⟨next, nextCalm, messages⟩
      dsimp only
      rw [List.map_append, List.map_singleton, Machine.run_concat, Machine.run_concat,
        Machine.extend_state, Machine.extend_state, Machine.extend_trace, List.map_append, trace]
      refine ⟨?_, nextCalm, ?_⟩
      · rw [← monitorEq]
        exact next
      · rw [requests, requests, Machine.run_concat, Machine.extend_trace, List.map_append,
          List.map_append, List.map_map, List.map_map, ← monitorEq]
        have shown : ((stationed ⟨started pollingInterval loopBegin, sender⟩).step
            ((stationed ⟨started pollingInterval loopBegin, sender⟩).run moments).state moment).2 =
              ((monitoring (started pollingInterval loopBegin)).step
                ((stationed ⟨started pollingInterval loopBegin, sender⟩).run moments).state.monitor
                  moment.surroundings).2.map (fun asked => asked.flatMap Request.messages)
                  := messages
        simp [shown, Function.comp_def]

/-! ## The operations of a regular run -/

theorem operations_of_events (n : Int) (due : List RuleInfo) :
    ((due.map (eventOf n)).flatMap Request.messages).filterMap engineOp =
      (due.map (alarmEntry n)).map .enqueueEvent := by
  induction due with
  | nil => rfl
  | cons rule due ih => exact congrArg (RuleEngine.Op.enqueueEvent (alarmEntry n rule) :: ·) ih

/-- Of the messages of an iteration the events alone concern the rule engine. -/
theorem operations_of_expected {i : Nat} {surroundings : Surroundings} {asked : List Request}
    (expected : Expected pollingInterval i surroundings asked)
    (regular : rounds pollingInterval ∣ i →
      Regular surroundings (findings.temperature surroundings) (findings.rules surroundings)) :
    (asked.flatMap Request.messages).filterMap engineOp =
      (findings.alarms pollingInterval i surroundings).map .enqueueEvent := by
  rw [alarms]
  split
  case isTrue polled =>
      rw [expected.polled polled _ _ (regular polled)]
      exact operations_of_events _ _
  case isFalse between =>
      rw [expected.between between]
      rfl

theorem operations_run (loopBegin : Int) (positive : 1 ≤ pollingInterval)
    {run : List Surroundings} (right : findings.Right pollingInterval run) :
    ((requests (started pollingInterval loopBegin) run).flatMap
        (fun asked => asked.flatMap Request.messages)).filterMap engineOp =
      (findings.allAlarms pollingInterval run).map .enqueueEvent := by
  rcases expected_run loopBegin positive right.regular with ⟨length, found⟩
  have pointwise : (requests (started pollingInterval loopBegin) run).map
      (fun asked => (asked.flatMap Request.messages).filterMap engineOp) =
        (run.mapIdx (findings.alarms pollingInterval)).map (List.map .enqueueEvent) := by
    apply List.ext_getElem?
    intro i
    rw [List.getElem?_map, List.getElem?_map, List.getElem?_mapIdx]
    cases present : run[i]? with
    | none =>
        have outside := List.getElem?_eq_none_iff.mp present
        rw [← length] at outside
        rw [List.getElem?_eq_none outside]
        rfl
    | some surroundings =>
        rcases found i surroundings present with ⟨asked, item, expected⟩
        rw [item]
        exact congrArg some (operations_of_expected expected fun polled =>
          (right i surroundings present polled).1)
  rw [List.filterMap_flatMap, List.flatMap_def, pointwise, ← List.map_flatten]
  rfl

end Findings

/-! ## Variables -/

/-- A temperature is a short number. -/
theorem degrees_plain {n : Int} (fits : Fits n) :
    nul ∉ degrees n ∧ ',' ∉ degrees n ∧ (degrees n).length ≤ 10 := by
  have bound : n.natAbs ≤ 99999 := by
    rcases fits with zero | five | four <;> omega
  let whole := toDecimal (1000 * n.natAbs / 10 ^ 6)
  let rest := toDecimal (1000 * n.natAbs % 10 ^ 6)
  have shape : degrees n = signed (n < 0) (whole ++ '.' ::
      (List.replicate (6 - rest.length) '0' ++ rest)) := rfl
  have characters : ∀ c ∈ degrees n, c.isDigit = true ∨ c = '.' ∨ c = '-' := by
    have unsigned : ∀ c ∈ whole ++ '.' :: (List.replicate (6 - rest.length) '0' ++ rest),
        c.isDigit = true ∨ c = '.' := by
      intro c member
      rcases List.mem_append.mp member with front | back
      · exact Or.inl (isDigit_of_mem_toDecimal front)
      · rcases List.mem_cons.mp back with point | behind
        · exact Or.inr point
        · rcases List.mem_append.mp behind with zeros | digits
          · rw [List.eq_of_mem_replicate zeros]
            exact Or.inl rfl
          · exact Or.inl (isDigit_of_mem_toDecimal digits)
    intro c member
    rw [shape, signed] at member
    split at member
    case isTrue =>
        rcases List.mem_cons.mp member with sign | inside
        · exact Or.inr (Or.inr sign)
        · exact (unsigned c inside).imp id Or.inl
    case isFalse => exact (unsigned c member).imp id Or.inl
  have wholeLength : whole.length ≤ 2 := by
    apply (Nat.length_toDigits_le_iff (by norm_num) (by norm_num)).mpr
    omega
  have restLength : rest.length ≤ 6 := by
    apply (Nat.length_toDigits_le_iff (by norm_num) (by norm_num)).mpr
    exact Nat.mod_lt _ (by norm_num)
  refine ⟨?_, ?_, ?_⟩
  · intro member
    have allowed := characters nul member
    revert allowed
    decide
  · intro member
    have allowed := characters ',' member
    revert allowed
    decide
  · rw [shape, signed]
    split <;> simp only [List.length_cons, List.length_append, List.length_replicate] <;> omega

/-- The variables of an alarm are read back as the temperature. -/
theorem alarmEntry_vars {n : Int} (fits : Fits n) (rule : RuleInfo) (key : Str) :
    (parseVars (alarmEntry n rule).event.vars.text)[key]? =
      if key = "temp".toList then some (degrees n) else none := by
  rcases degrees_plain fits with ⟨noNul, noComma, short⟩
  have text : (alarmEntry n rule).event.vars.text = "temp=".toList ++ degrees n := by
    apply snprintf_text
    · rw [List.mem_append, not_or]
      exact ⟨by decide, noNul⟩
    · rw [List.length_append]
      exact (Nat.add_le_add_left short _).trans_lt (by decide)
  have separated : "temp=".toList ++ degrees n = "temp".toList ++ '=' :: degrees n := rfl
  have keyComma : ',' ∉ "temp".toList := by decide
  have keyEquals : '=' ∉ "temp".toList := by decide
  rw [text, separated]
  generalize "temp".toList = name at keyComma keyEquals ⊢
  have encoded : name ++ '=' :: degrees n = encodeVars [(name, degrees n)] := by
    simp [encodeVars, encodeVar]
  rw [encoded, parseVars_encodeVars, getElem?_insertFirst]
  · by_cases equal : key = name
    · simp [equal]
    · have different : (key == name) = false := by simpa using equal
      simp [List.lookup_cons, equal, different]
  · intro entry member
    obtain rfl := List.mem_singleton.mp member
    exact ⟨keyComma, keyEquals, noComma⟩

/-! ## Delivery -/

section

variable {config : StrMap} {pollingInterval : Nat} {loopBegin : Int} {course : Course}
  {monitor : Monitor} {clockStart : Nat} {oversleep : Nat} {pauses : List Nat}
  {findings : Findings} {turns : List (Pipe.Turn Moment Message RuleEngine.Op)}

/-- What the module has asked for before the main loop. -/
def beforeLoop (clockStart oversleep : Nat) (pauses : List Nat) (course : Course) :
    Sender × List Message :=
  callAll oversleep (newSender clockStart) pauses course.requests

theorem beforeLoop_calm (clockStart oversleep : Nat) (pauses : List Nat) :
    Calm (beforeLoop clockStart oversleep pauses
        (Course.ask [.setHeartbeatInterval 12000])).1 ∧
      (beforeLoop clockStart oversleep pauses
        (Course.ask [.setHeartbeatInterval 12000])).2 =
          [MessageHandler.setHeartbeatInterval moduleName 12000] := by
  have allowance : Allowance (guardedCount [.setHeartbeatInterval 12000] + 14)
      (newSender clockStart) := ⟨Nat.le_refl 15, Int.natCast_nonneg clockStart⟩
  rcases callAll_allowed oversleep allowance pauses with ⟨messages, rest⟩
  exact ⟨Or.inl rest, messages⟩

/-- The operations that the messages of the module lead to are those of its alarms. -/
theorem sent_operations (positive : 1 ≤ pollingInterval) (clockStart oversleep : Nat)
    (pauses : List Nat)
    (prompt : Prompt pollingInterval loopBegin
      (((Pipe.inputs turns).map Moment.surroundings).map Surroundings.loopTime))
    (right : findings.Right pollingInterval ((Pipe.inputs turns).map Moment.surroundings)) :
    (Pipe.sent (stationed ⟨started pollingInterval loopBegin, (beforeLoop clockStart oversleep
        pauses (Course.ask [.setHeartbeatInterval 12000])).1⟩) id
      (beforeLoop clockStart oversleep pauses (Course.ask [.setHeartbeatInterval 12000])).2
        turns).filterMap engineOp =
      (findings.allAlarms pollingInterval
        ((Pipe.inputs turns).map Moment.surroundings)).map .enqueueEvent := by
  rcases beforeLoop_calm clockStart oversleep pauses with ⟨calm, first⟩
  rcases Findings.station_run positive calm prompt right with ⟨_, _, sent⟩
  have quiet : (beforeLoop clockStart oversleep pauses
      (Course.ask [.setHeartbeatInterval 12000])).2.filterMap engineOp = [] := by
    rw [first]
    rfl
  rw [Pipe.sent, sent, List.filterMap_append, quiet, List.nil_append, List.flatMap_map]
  exact Findings.operations_run loopBegin positive right

/-- What has been read and what waits. -/
theorem delivered (rules : List RuleInfo) (clock : SteadyClock) (positive : 1 ≤ pollingInterval)
    (clockStart oversleep : Nat) (pauses : List Nat)
    (prompt : Prompt pollingInterval loopBegin
      (((Pipe.inputs turns).map Moment.surroundings).map Surroundings.loopTime))
    (right : findings.Right pollingInterval ((Pipe.inputs turns).map Moment.surroundings)) :
    let run := (wired rules clock (started pollingInterval loopBegin)
      (beforeLoop clockStart oversleep pauses
        (Course.ask [.setHeartbeatInterval 12000]))).run turns
    let operations := (Pipe.taken run.trace ++ run.state.waiting).filterMap engineOp
    let alarms := (findings.allAlarms pollingInterval
      ((Pipe.inputs turns).map Moment.surroundings)).map RuleEngine.Op.enqueueEvent
    operations.Sublist alarms ∧ (Pipe.refused run.trace = [] → operations = alarms) := by
  intro run operations alarms
  have sent : alarms = _ :=
    (sent_operations positive clockStart oversleep pauses prompt right).symm
  rw [sent]
  constructor
  · exact (Pipe.conserved _ turns).order.filterMap engineOp
  · intro room
    exact congrArg (List.filterMap engineOp) (Pipe.conserved_of_room _ _ room)

/-- Temperature alarms are delivered.  As long as the polls of the module are regular and it
has time to sleep in each iteration, what the rule engine has been given by the module, and
what is still on its way, are events for rules that were triggered in a poll, in the order
of the polls and of the rules, each once; and if no message of the module has found the
queue of the core full, one for each rule that was triggered. -/
theorem alarms_delivered (rules : List RuleInfo) (clock : SteadyClock)
    (configured : readPollingInterval config = .ok pollingInterval)
    (positive : 1 ≤ pollingInterval)
    (begun : startUp config .readable loopBegin = (course, some monitor))
    (prompt : Prompt pollingInterval loopBegin
      (((Pipe.inputs turns).map Moment.surroundings).map Surroundings.loopTime))
    (right : findings.Right pollingInterval ((Pipe.inputs turns).map Moment.surroundings)) :
    let run := (wired rules clock monitor
      (beforeLoop clockStart oversleep pauses course)).run turns
    let operations := (Pipe.taken run.trace ++ run.state.waiting).filterMap engineOp
    let alarms := (findings.allAlarms pollingInterval
      ((Pipe.inputs turns).map Moment.surroundings)).map RuleEngine.Op.enqueueEvent
    operations.Sublist alarms ∧ (Pipe.refused run.trace = [] → operations = alarms) := by
  rw [startUp_of_configured configured] at begun
  cases begun
  exact delivered rules clock positive clockStart oversleep pauses prompt right

/-- A rule that a module has loaded is a rule of the core with the same document. -/
theorem getRule_of_own {core module : ConfigLoader} {rules own : List RuleInfo}
    (loaded : core.getRules ConfigLoader.mainName = .ok rules)
    (ownLoaded : module.getRules moduleName = .ok own) (sameDocument : module.rules = core.rules)
    {rule : RuleInfo} (mine : rule ∈ own) : RuleEngine.getRule rules rule.id = some rule := by
  rcases ConfigLoader.getRules_main loaded with ⟨values, found, read⟩
  have other : moduleName ≠ ConfigLoader.mainName := by decide
  rcases ConfigLoader.readRules_ofModule other read with ⟨ownRead, ids⟩
  have ownEq : own = ConfigLoader.ofModule moduleName rules := by
    rw [ConfigLoader.getRules, sameDocument, Json.bind_eq_ok.mpr ⟨values, found, ownRead⟩]
      at ownLoaded
    exact (Except.ok.inj ownLoaded).symm
  rw [ownEq] at mine
  rcases List.mem_iff_getElem?.mp (List.mem_filter.mp mine).1 with ⟨k, position⟩
  rw [ids k rule position, Nat.zero_add]
  exact position

/-- The module of an action finds the action of a rule of the core. -/
theorem lookupAction_of_loaded {core module : ConfigLoader} {rules : List RuleInfo}
    (loaded : core.getRules ConfigLoader.mainName = .ok rules)
    (sameDocument : module.rules = core.rules) {rule : RuleInfo}
    (known : RuleEngine.getRule rules rule.id = some rule)
    (other : rule.action.module ≠ ConfigLoader.mainName) :
    ∃ own, module.getRules rule.action.module = .ok own ∧
      lookupAction own rule.id = some rule.action := by
  rcases ConfigLoader.getRules_main loaded with ⟨values, found, read⟩
  rcases ConfigLoader.readRules_ofModule other read with ⟨ownRead, ids⟩
  refine ⟨ConfigLoader.ofModule rule.action.module rules, ?_, ?_⟩
  · rw [ConfigLoader.getRules, sameDocument, Json.bind_eq_ok.mpr ⟨values, found, ownRead⟩]
  · have single : rules.filter (·.id = rule.id) = [rule] := by
      rw [filter_id_of_numbered ids, if_pos (Nat.zero_le _), Nat.sub_zero]
      rw [RuleEngine.getRule] at known
      rw [known, Option.toList_some]
    rw [lookupAction_eq_getLast?, ConfigLoader.filter_ofModule, single]
    simp [ConfigLoader.ofModule]

/-- An event of an enabled rule without a fire limit is answered with its action. -/
def Answered (rules : List RuleInfo) (op : RuleEngine.Op) (replies : List Handed) : Prop :=
  ∀ entry rule, op = .enqueueEvent entry →
    RuleEngine.getRule rules entry.event.ruleId = some rule → rule.isDisabled = false →
    rule.fireLimit ≤ 0 → ∃ handed ∈ replies, ∃ sent : EventEntry,
      handed.delivery = Messenger.sendAction rule.action.module sent ∧ sent.event = entry.event

theorem answered_step (rules : List RuleInfo) (clock : SteadyClock) (engine : RuleEngine)
    (op : RuleEngine.Op) :
    Answered rules op ((RuleEngine.machine rules clock).step engine op).2 := by
  rintro entry rule rfl found enabled unlimited
  rcases enqueueEvent_acts clock engine found enabled unlimited with ⟨time, sent, handed, same⟩
  refine ⟨⟨engine.calls.length, time, Messenger.sendAction rule.action.module sent⟩, ?_, sent,
    rfl, same⟩
  change _ ∈ (RuleEngine.enqueueEvent rules clock engine entry).2
  rw [handed]
  exact List.mem_singleton_self _

/-- Temperature alarms reach the module of their action.  When the core has read all messages
of the temperature module and none has found its queue full, for every poll and every rule
that was triggered in it and has no fire limit an action was handed out: to the module of
the rule's action, with the rule's id, under which this module finds the action, and with
the temperature. -/
theorem alarm_reaches_action (core : ConfigLoader) {rules : List RuleInfo} (clock : SteadyClock)
    (loaded : core.getRules ConfigLoader.mainName = .ok rules)
    (configured : readPollingInterval config = .ok pollingInterval)
    (positive : 1 ≤ pollingInterval)
    (begun : startUp config .readable loopBegin = (course, some monitor))
    (prompt : Prompt pollingInterval loopBegin
      (((Pipe.inputs turns).map Moment.surroundings).map Surroundings.loopTime))
    (right : findings.Right pollingInterval ((Pipe.inputs turns).map Moment.surroundings))
    (room : Pipe.refused ((wired rules clock monitor
      (beforeLoop clockStart oversleep pauses course)).run turns).trace = [])
    (allRead : ((wired rules clock monitor
      (beforeLoop clockStart oversleep pauses course)).run turns).state.waiting = [])
    {i : Nat} {moment : Moment} (present : (Pipe.inputs turns)[i]? = some moment)
    (polled : rounds pollingInterval ∣ i)
    (sameDocument : moment.surroundings.loader.rules = core.rules) {rule : RuleInfo}
    (mine : rule ∈ findings.rules moment.surroundings)
    (triggered : triggers (findings.temperature moment.surroundings) rule = true)
    (unlimited : rule.fireLimit ≤ 0) :
    ∃ handed body, .consumed (.enqueueEvent
          (alarmEntry (findings.temperature moment.surroundings) rule)) handed ∈
        ((wired rules clock monitor
          (beforeLoop clockStart oversleep pauses course)).run turns).trace.map Prod.snd ∧
      handed.delivery = ⟨rule.action.module, .msgActio body⟩ ∧ body.ruleId = rule.id ∧
      (∀ key, (MessageHandler.receivedVars (.msgActio body))[key]? =
        if key = "temp".toList then some (degrees (findings.temperature moment.surroundings))
        else none) ∧
      ∀ module : ConfigLoader, module.rules = core.rules →
        rule.action.module ≠ ConfigLoader.mainName →
          ∃ own, module.getRules rule.action.module = .ok own ∧
            lookupAction own body.ruleId = some rule.action := by
  rw [startUp_of_configured configured] at begun
  cases begun
  let n := findings.temperature moment.surroundings
  have there : ((Pipe.inputs turns).map Moment.surroundings)[i]? = some moment.surroundings := by
    rw [List.getElem?_map, present]
    rfl
  have regular := (right i moment.surroundings there polled).1
  have known := getRule_of_own loaded regular.loaded sameDocument mine
  have enabled := enabled_of_triggers triggered
  have inAlarms := Findings.mem_allAlarms there polled mine triggered
  have law := (delivered rules clock positive clockStart oversleep pauses prompt right).2 room
  have noneLeft : ((wired rules clock (started pollingInterval loopBegin)
      (beforeLoop clockStart oversleep pauses
        (Course.ask [.setHeartbeatInterval 12000]))).run turns).state.waiting = [] := allRead
  rw [noneLeft, List.append_nil] at law
  have taken := List.mem_map_of_mem (f := RuleEngine.Op.enqueueEvent) inAlarms
  rw [← law] at taken
  rcases List.mem_filterMap.mp taken with ⟨message, inTrace, reads⟩
  rcases Pipe.answered (answered_step rules clock) _ turns message inTrace _ reads with
    ⟨replies, held, seen⟩
  rcases held _ rule rfl known enabled unlimited with ⟨handed, inReplies, sent, delivery, same⟩
  refine ⟨handed, sent.toActionBody, seen handed inReplies, delivery, ?_, ?_, ?_⟩
  · exact congrArg Event.ruleId same
  · intro key
    have vars : sent.toActionBody.vars = (alarmEntry n rule).event.vars := congrArg Event.vars same
    change (parseVars sent.toActionBody.vars.text)[key]? = _
    rw [vars]
    exact alarmEntry_vars regular.shown.fits rule key
  · intro module moduleDocument other
    have id : sent.toActionBody.ruleId = rule.id := congrArg Event.ruleId same
    rw [id]
    exact lookupAction_of_loaded loaded moduleDocument known other

end

/-! ## A hot day -/

/-- The hot day is found in every poll. -/
def hotFindings : Findings where
  temperature _ := 20125
  rules _ := [hotRule]

/-- A poll, a pass of the ack thread and a heartbeat of another module, while the module sends
four messages and the core reads five. -/
def hotTurns : List (Pipe.Turn Moment Message RuleEngine.Op) :=
  [.send, .produce ⟨hot, [], 0⟩, .send, .take, .consume .ackThread,
    .arrive (MessageHandler.sendHeartbeat "module_sms".toList), .send, .take, .send, .take, .take,
    .take]

theorem hot_prompt : Prompt 25 0
    (((Pipe.inputs hotTurns).map Moment.surroundings).map Surroundings.loopTime) := by
  intro before loopTime inside
  have same : ((Pipe.inputs hotTurns).map Moment.surroundings).map Surroundings.loopTime =
      [] ++ [1] := rfl
  rw [same] at inside
  rcases List.prefix_concat_iff.mp inside with whole | earlier
  · rcases List.append_inj' whole rfl with ⟨rfl, last⟩
    cases last
    decide
  · simp at earlier

theorem hot_right :
    hotFindings.Right 25 ((Pipe.inputs hotTurns).map Moment.surroundings) := by
  intro i surroundings present _
  have same : (Pipe.inputs hotTurns).map Moment.surroundings = [hot] := rfl
  rw [same] at present
  obtain rfl := List.mem_singleton.mp (List.mem_of_getElem? present)
  exact ⟨hot_regular, (List.length_filter_le _ _).trans (by decide)⟩

theorem hot_room :
    Pipe.refused ((wired [hotRule] (SteadyClock.ofList 0 []) (started 25 0)
      (beforeLoop 0 0 [] (Course.ask [.setHeartbeatInterval 12000]))).run hotTurns).trace = [] := by
  decide +kernel

theorem alarms_delivered_hot :
    let run := (wired [hotRule] (SteadyClock.ofList 0 []) (started 25 0)
      (beforeLoop 0 0 [] (Course.ask [.setHeartbeatInterval 12000]))).run hotTurns
    (Pipe.taken run.trace ++ run.state.waiting).filterMap engineOp =
      [.enqueueEvent (alarmEntry 20125 hotRule)] := by
  have configured : readPollingInterval hotConfig = .ok 25 := by decide +kernel
  have alarms : (hotFindings.allAlarms 25
      ((Pipe.inputs hotTurns).map Moment.surroundings)).map RuleEngine.Op.enqueueEvent =
        [.enqueueEvent (alarmEntry 20125 hotRule)] := by decide +kernel
  exact ((alarms_delivered [hotRule] (SteadyClock.ofList 0 []) configured (by decide)
    (startUp_of_configured configured 0) hot_prompt hot_right).2 hot_room).trans alarms

/-- The text message about the hot day. -/
theorem alarm_reaches_action_hot :
    ∃ handed body, .consumed (.enqueueEvent (alarmEntry 20125 hotRule)) handed ∈
        ((wired [hotRule] (SteadyClock.ofList 0 []) (started 25 0)
          (beforeLoop 0 0 [] (Course.ask [.setHeartbeatInterval 12000]))).run
            hotTurns).trace.map Prod.snd ∧
      handed.delivery = ⟨"module_sms".toList, .msgActio body⟩ ∧ body.ruleId = 0 := by
  have configured : readPollingInterval hotConfig = .ok 25 := by decide +kernel
  have allRead : ((wired [hotRule] (SteadyClock.ofList 0 []) (started 25 0)
      (beforeLoop 0 0 [] (Course.ask [.setHeartbeatInterval 12000]))).run
        hotTurns).state.waiting = [] := by decide +kernel
  rcases alarm_reaches_action ⟨"rules.conf".toList, hotDocument⟩ (SteadyClock.ofList 0 [])
    rfl configured
    (by decide) (startUp_of_configured configured 0) hot_prompt hot_right hot_room allRead
    (rfl : (Pipe.inputs hotTurns)[0]? = some ⟨hot, [], 0⟩) (by decide) rfl
    (List.mem_singleton_self hotRule) (by decide +kernel) (by decide +kernel) with
    ⟨handed, body, seen, delivery, ruleId, _⟩
  exact ⟨handed, body, seen, delivery, ruleId⟩

end Sentri.Modules.Temperature
