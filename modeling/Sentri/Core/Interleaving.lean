import Sentri.Core.RuleEngine.FireLimit
import Sentri.Core.RuleEngine.Variables
import Sentri.Core.Watchdog.Burial

/-!
# The threads of the core

Three threads share the core.  The main thread reads one message after the other,
the guard thread makes the rounds of the watchdog, and the ack thread passes over
the acknowledgement queue.  The watchdog is locked during a round, the rule engine
is not: a system message is enqueued for one rule after the other, and the other
threads may come in between.

A single call of `enqueueEvent` is one step here.  In the source it looks at the fire limit
before it locks the acknowledgement queue, so that two threads which enqueue events of the
same rule at the same time can both find the limit kept; such a run is not one of these.
-/

namespace Sentri.Core

open Sentri.LibModule Sentri.Text Sentri.Transition

/-- A rule about system messages. -/
def isSystemRule (rule : RuleInfo) : Bool :=
  rule.event.module = systemMessageModule ∧ rule.event.key = systemMessageKey

/-- The events that a system message is turned into, in the order of the rules. -/
def systemMessageEntries (rules : List RuleInfo) (message : Str) : List EventEntry :=
  (rules.filter isSystemRule).map fun rule => RuleEngine.systemMessageEntry rule.id message

/-- What the guard thread does outside of the watchdog when it buries a module. -/
inductive Task where
  | removeQueue (module : Str)
  | enqueueEvent (module : Str) (entry : EventEntry)
  deriving DecidableEq

def Task.module : Task → Str
  | .removeQueue module => module
  | .enqueueEvent module _ => module

/-- The tasks that come with a report of the watchdog. -/
def tasks (rules : List RuleInfo) (report : Report) : List Task :=
  match report.happening with
  | .queueRemoved => [.removeQueue report.module]
  | .systemMessage text =>
      (systemMessageEntries rules text).map (.enqueueEvent report.module)
  | _ => []

/-- An operation of a watchdog, which does not look at its module directory again. -/
def perform {ω : Type} (os : Os ω) (clock : Clock) (watchdog : Watchdog ω)
    (op : Watchdog.Op ω) : Watchdog ω × List Report :=
  (Watchdog.machine os clock [] watchdog.world.os).step watchdog op

/-- The members of the core, and what is left to do for its threads. -/
structure CoreState (ω : Type) where
  engine : RuleEngine
  watchdog : Watchdog ω
  queues : Queues
  /-- Events that the main thread has still to enqueue for a system message. -/
  main : List EventEntry
  /-- What is left of the round of the guard thread, which keeps the lock until
  then. -/
  guard : List Task

/-- The next thing to happen. -/
inductive Turn (ω : Type) where
  | start
  | readMessage (message : Message)
  /-- The main thread goes on with its system message. -/
  | main
  | ackThread
  | round
  /-- The guard thread goes on with its round. -/
  | guard
  | system (change : ω → ω)

/-- A turn, and how the queues of the modules answer in it. -/
structure CoreOp (ω : Type) where
  turn : Turn ω
  trySend : MessageHandler → Message → Bool

/-- What can be seen of a turn.  A send has no result when the handler is a null
pointer. -/
inductive CoreEvent (ω : Type) where
  | report (op : Watchdog.Op ω) (report : Report)
  /-- A call of `enqueueEvent`, made by the guard thread for a module or by the main
  thread. -/
  | enqueued (origin : Option Str) (call : Nat) (entry : EventEntry)
  | handed (op : RuleEngine.Op) (item : Handed) (result : Option Bool)
  | queueRemoved (module : Str)
  | logged (sender : Str) (severity : LogSeverity) (message : Str)

namespace CoreState

variable {ω : Type} (os : Os ω) (rules : List RuleInfo) (clock : SteadyClock) (guardClock : Clock)
  (trySend : MessageHandler → Message → Bool)

/-- An operation of the rule engine, which hands its messages to the messenger. -/
def engineStep (state : CoreState ω) (op : RuleEngine.Op) : CoreState ω × List (CoreEvent ω) :=
  let (engine, handed) := (RuleEngine.machine rules clock).step state.engine op
  ({ state with engine := engine },
    handed.map fun item => .handed op item (Messenger.sendMessage trySend
      item.delivery.module item.delivery.message state.queues.messenger))

def enqueueEvent (origin : Option Str) (entry : EventEntry) (state : CoreState ω) :
    CoreState ω × List (CoreEvent ω) :=
  let (next, events) := engineStep rules clock trySend state (.enqueueEvent entry)
  (next, .enqueued origin state.engine.calls.length entry :: events)

/-- An operation of the watchdog.  It needs the lock, and waits for it when a round
has not ended. -/
def watchdogStep (state : CoreState ω) (op : Watchdog.Op ω) :
    CoreState ω × List (CoreEvent ω) :=
  match state.guard with
  | _ :: _ => (state, [])
  | [] =>
      let (watchdog, reports) := perform os guardClock state.watchdog op
      ({ state with watchdog := watchdog, guard := reports.flatMap (tasks rules) },
        reports.map (.report op))

/-- The main thread reads a message when it is done with the last one. -/
def readMessage (state : CoreState ω) (message : Message) : CoreState ω × List (CoreEvent ω) :=
  match state.main with
  | _ :: _ => (state, [])
  | [] =>
      match Core.readMessage message with
      | .engine (.enqueueEvent entry) => enqueueEvent rules clock trySend none entry state
      | .engine (.systemMessage text) =>
          ({ state with main := systemMessageEntries rules text }, [])
      | .engine op => engineStep rules clock trySend state op
      | .heartbeat module => watchdogStep os rules guardClock state (.heartbeat module)
      | .setHeartbeatInterval module interval =>
          watchdogStep os rules guardClock state (.setHeartbeatInterval module interval)
      | .log sender severity text => (state, [.logged sender severity text])

/-- The main thread enqueues the next event of its system message. -/
def goOn (state : CoreState ω) : CoreState ω × List (CoreEvent ω) :=
  match state.main with
  | [] => (state, [])
  | entry :: left =>
      enqueueEvent rules clock trySend none entry { state with main := left }

/-- The guard thread does the next task of its round. -/
def guardOn (state : CoreState ω) : CoreState ω × List (CoreEvent ω) :=
  match state.guard with
  | [] => (state, [])
  | .removeQueue module :: left =>
      ({ state with guard := left, queues := Messenger.removeQueue module state.queues },
        [.queueRemoved module])
  | .enqueueEvent module entry :: left =>
      enqueueEvent rules clock trySend (some module) entry { state with guard := left }

end CoreState

variable {ω : Type}

/-- The core over a rules vector, a module directory and an operating system. -/
def coreSystem (os : Os ω) (rules : List RuleInfo) (clock : SteadyClock) (guardClock : Clock)
    (room : QueueNames → Str → Bool) (names : List Str) (system : ω) (queues : Queues) :
    Machine (CoreState ω) (CoreOp ω) (CoreEvent ω) where
  start :=
    { engine := RuleEngine.new rules
      watchdog := Watchdog.new guardClock names system
      queues := names.foldl (fun queues name => Messenger.addQueue room name queues) queues
      main := []
      guard := [] }
  step state op :=
    match op.turn with
    | .start => state.watchdogStep os rules guardClock .start
    | .readMessage message =>
        state.readMessage os rules clock guardClock op.trySend message
    | .main => state.goOn rules clock op.trySend
    | .ackThread => state.engineStep rules clock op.trySend .ackThread
    | .round => state.watchdogStep os rules guardClock .round
    | .guard => state.guardOn rules clock op.trySend
    | .system change =>
        ({ state with watchdog := (perform os guardClock state.watchdog (.system change)).1 }, [])

/-! ## System messages are sequences of calls -/

/-- A system message is the same as its events one after the other, when no other
thread comes in between. -/
theorem systemMessageLoop_entries (rules : List RuleInfo) (clock : SteadyClock) (message : Str)
    (left : List RuleInfo) (engine : RuleEngine) :
    let ops := (systemMessageEntries left message).map RuleEngine.Op.enqueueEvent
    let run := ops.foldl (RuleEngine.machine rules clock).extend ⟨engine, []⟩
    RuleEngine.systemMessageLoop rules clock message engine left =
      (run.state, run.trace.map Prod.snd) := by
  induction left generalizing engine with
  | nil => rfl
  | cons rule left ih =>
      intro ops run
      rw [RuleEngine.systemMessageLoop]
      by_cases isSystem : rule.event.module = systemMessageModule ∧
          rule.event.key = systemMessageKey
      · have kept : isSystemRule rule = true := by simpa [isSystemRule] using isSystem
        have opsEq : ops = .enqueueEvent (RuleEngine.systemMessageEntry rule.id message) ::
            (systemMessageEntries left message).map RuleEngine.Op.enqueueEvent := by
          simp [ops, systemMessageEntries, kept]
        have step : (RuleEngine.machine rules clock).step engine
            (.enqueueEvent (RuleEngine.systemMessageEntry rule.id message)) =
              RuleEngine.enqueueEvent rules clock engine
                (RuleEngine.systemMessageEntry rule.id message) :=
          rfl
        rw [if_pos isSystem]
        dsimp only
        rw [ih]
        simp only [run, opsEq, List.foldl_cons]
        rw [Machine.extend, step, Machine.foldl_extend_trace _ _ _ ([] ++ _)]
        simp
      · have dropped : isSystemRule rule = false := by simpa [isSystemRule] using isSystem
        rw [if_neg isSystem, ih]
        simp [run, ops, systemMessageEntries, dropped]

/-! ## What a turn can do -/

section Turns

variable (os : Os ω) (rules : List RuleInfo) (clock : SteadyClock) (guardClock : Clock)

/-- The call of `enqueueEvent` that a thread makes next, and the core before it. -/
inductive CoreState.Calls (state : CoreState ω) :
    Option Str → EventEntry → CoreState ω → Prop
  | event (entry : EventEntry) : Calls state none entry state
  | main {entry : EventEntry} {left : List EventEntry} (todo : state.main = entry :: left) :
      Calls state none entry { state with main := left }
  | guard {module : Str} {entry : EventEntry} {left : List Task}
      (todo : state.guard = .enqueueEvent module entry :: left) :
      Calls state (some module) entry { state with guard := left }

/-- A turn, with its guards. -/
inductive CoreState.Turns (trySend : MessageHandler → Message → Bool) (state : CoreState ω) :
    CoreState ω → List (CoreEvent ω) → Prop
  | wait : Turns trySend state state []
  | engine (op : RuleEngine.Op) :
      Turns trySend state (state.engineStep rules clock trySend op).1
        (state.engineStep rules clock trySend op).2
  | call {origin : Option Str} {entry : EventEntry} {before : CoreState ω}
      (calls : state.Calls origin entry before) :
      Turns trySend state (before.enqueueEvent rules clock trySend origin entry).1
        (before.enqueueEvent rules clock trySend origin entry).2
  | speak (entries : List EventEntry) : Turns trySend state { state with main := entries } []
  | watch (op : Watchdog.Op ω) (free : state.guard = []) :
      Turns trySend state
        { state with
          watchdog := (perform os guardClock state.watchdog op).1
          guard := (perform os guardClock state.watchdog op).2.flatMap (tasks rules) }
        ((perform os guardClock state.watchdog op).2.map (.report op))
  | removeQueue {module : Str} {left : List Task}
      (todo : state.guard = .removeQueue module :: left) :
      Turns trySend state
        { state with guard := left, queues := Messenger.removeQueue module state.queues }
        [.queueRemoved module]
  | log (sender : Str) (severity : LogSeverity) (message : Str) :
      Turns trySend state state [.logged sender severity message]
  | system (change : ω → ω) :
      Turns trySend state
        { state with watchdog := (perform os guardClock state.watchdog (.system change)).1 } []

theorem watchdogStep_turns (trySend : MessageHandler → Message → Bool) (state : CoreState ω)
    (op : Watchdog.Op ω) :
    state.Turns os rules clock guardClock trySend
      (state.watchdogStep os rules guardClock op).1
      (state.watchdogStep os rules guardClock op).2 := by
  unfold CoreState.watchdogStep
  split
  · exact .wait
  · rename_i free
    exact .watch op free

theorem readMessage_turns (trySend : MessageHandler → Message → Bool) (state : CoreState ω)
    (message : Message) :
    state.Turns os rules clock guardClock trySend
      (state.readMessage os rules clock guardClock trySend message).1
      (state.readMessage os rules clock guardClock trySend message).2 := by
  unfold CoreState.readMessage
  split
  · exact .wait
  · split
    · exact .call (.event _)
    · exact .speak _
    · exact .engine _
    · exact watchdogStep_turns os rules clock guardClock trySend state _
    · exact watchdogStep_turns os rules clock guardClock trySend state _
    · exact .log _ _ _

theorem goOn_turns (trySend : MessageHandler → Message → Bool) (state : CoreState ω) :
    state.Turns os rules clock guardClock trySend (state.goOn rules clock trySend).1
      (state.goOn rules clock trySend).2 := by
  unfold CoreState.goOn
  split
  · exact .wait
  · rename_i todo
    exact .call (.main todo)

theorem guardOn_turns (trySend : MessageHandler → Message → Bool) (state : CoreState ω) :
    state.Turns os rules clock guardClock trySend (state.guardOn rules clock trySend).1
      (state.guardOn rules clock trySend).2 := by
  unfold CoreState.guardOn
  split
  · exact .wait
  · rename_i todo
    exact .removeQueue todo
  · rename_i todo
    exact .call (.guard todo)

variable (room : QueueNames → Str → Bool) (names : List Str) (system : ω) (queues : Queues)

theorem coreSystem_turns (state : CoreState ω) (op : CoreOp ω) :
    state.Turns os rules clock guardClock op.trySend
      ((coreSystem os rules clock guardClock room names system queues).step state op).1
      ((coreSystem os rules clock guardClock room names system queues).step state op).2 := by
  rcases op with ⟨turn, trySend⟩
  cases turn with
  | start => exact watchdogStep_turns os rules clock guardClock trySend state _
  | readMessage message => exact readMessage_turns os rules clock guardClock trySend state message
  | main => exact goOn_turns os rules clock guardClock trySend state
  | ackThread => exact .engine .ackThread
  | round => exact watchdogStep_turns os rules clock guardClock trySend state _
  | guard => exact guardOn_turns os rules clock guardClock trySend state
  | system change => exact .system change

end Turns

/-! ## The rule engine and the watchdog inside the core -/

section Simulation

variable {os : Os ω} {rules : List RuleInfo} {clock : SteadyClock} {guardClock : Clock}
  {trySend : MessageHandler → Message → Bool} {state next : CoreState ω}
  {events : List (CoreEvent ω)}

/-- The part of a turn that the rule engine sees. -/
def engineEvent : CoreEvent ω → Option (RuleEngine.Op × Handed)
  | .handed op item _ => some (op, item)
  | _ => none

/-- The part of a turn that the watchdog sees. -/
def watchdogEvent : CoreEvent ω → Option (Watchdog.Op ω × Report)
  | .report op report => some (op, report)
  | _ => none

def engineTrace (trace : List (CoreOp ω × CoreEvent ω)) : List (RuleEngine.Op × Handed) :=
  trace.filterMap fun item => engineEvent item.2

def watchdogTrace (trace : List (CoreOp ω × CoreEvent ω)) : List (Watchdog.Op ω × Report) :=
  trace.filterMap fun item => watchdogEvent item.2

theorem engineStep_inner (state : CoreState ω) (op : RuleEngine.Op) :
    [op].foldl (RuleEngine.machine rules clock).extend ⟨state.engine, []⟩ =
      ⟨(state.engineStep rules clock trySend op).1.engine,
        (state.engineStep rules clock trySend op).2.filterMap engineEvent⟩ := by
  simp [CoreState.engineStep, Machine.extend, List.filterMap_map, Function.comp_def, engineEvent]

theorem engineStep_watchdog (state : CoreState ω) (op : RuleEngine.Op) :
    (state.engineStep rules clock trySend op).2.filterMap watchdogEvent = [] := by
  simp [CoreState.engineStep, List.filterMap_map, Function.comp_def, watchdogEvent]

theorem CoreState.Calls.engine {origin : Option Str} {entry : EventEntry}
    {before : CoreState ω} (calls : state.Calls origin entry before) :
    before.engine = state.engine ∧ before.watchdog = state.watchdog := by
  cases calls with
  | event => exact ⟨rfl, rfl⟩
  | main => exact ⟨rfl, rfl⟩
  | guard => exact ⟨rfl, rfl⟩

/-- A turn makes at most one call of the rule engine. -/
theorem CoreState.Turns.engine_inner
    (turns : state.Turns os rules clock guardClock trySend next events) :
    ∃ ops : List RuleEngine.Op,
      ops.foldl (RuleEngine.machine rules clock).extend ⟨state.engine, []⟩ =
        ⟨next.engine, events.filterMap engineEvent⟩ := by
  cases turns with
  | wait => exact ⟨[], rfl⟩
  | engine op => exact ⟨[op], engineStep_inner state op⟩
  | @call origin entry before calls =>
      refine ⟨[.enqueueEvent entry], ?_⟩
      have made : [RuleEngine.Op.enqueueEvent entry].foldl (RuleEngine.machine rules clock).extend
          ⟨before.engine, []⟩ =
            ⟨(before.engineStep rules clock trySend (.enqueueEvent entry)).1.engine,
              (before.engineStep rules clock trySend (.enqueueEvent entry)).2.filterMap
                engineEvent⟩ :=
        engineStep_inner before (.enqueueEvent entry)
      rw [← calls.engine.1, made]
      rfl
  | speak => exact ⟨[], rfl⟩
  | watch op =>
      refine ⟨[], ?_⟩
      simp [List.filterMap_map, Function.comp_def, engineEvent]
  | removeQueue => exact ⟨[], rfl⟩
  | log => exact ⟨[], rfl⟩
  | system => exact ⟨[], rfl⟩

/-- A turn makes at most one call of the watchdog. -/
theorem CoreState.Turns.watchdog_inner (names : List Str) (system : ω)
    (turns : state.Turns os rules clock guardClock trySend next events) :
    ∃ ops : List (Watchdog.Op ω),
      ops.foldl (Watchdog.machine os guardClock names system).extend ⟨state.watchdog, []⟩ =
        ⟨next.watchdog, events.filterMap watchdogEvent⟩ := by
  cases turns with
  | wait => exact ⟨[], rfl⟩
  | engine op =>
      refine ⟨[], ?_⟩
      rw [engineStep_watchdog]
      rfl
  | @call origin entry before calls =>
      refine ⟨[], ?_⟩
      change Run.mk state.watchdog [] = ⟨before.watchdog,
        (before.engineStep rules clock trySend (.enqueueEvent entry)).2.filterMap watchdogEvent⟩
      rw [engineStep_watchdog, calls.engine.2]
  | speak => exact ⟨[], rfl⟩
  | watch op =>
      refine ⟨[op], ?_⟩
      simp [Machine.extend, perform, List.filterMap_map, Function.comp_def, watchdogEvent,
        Watchdog.machine]
  | removeQueue => exact ⟨[], rfl⟩
  | log => exact ⟨[], rfl⟩
  | system change => exact ⟨[.system change], rfl⟩

variable (os rules clock guardClock)

/-- However the threads take turns, the rule engine does what it does in a run of its
own, and so does the watchdog. -/
theorem core_simulates (room : QueueNames → Str → Bool) (names : List Str) (system : ω)
    (queues : Queues) (ops : List (CoreOp ω)) :
    let run := (coreSystem os rules clock guardClock room names system queues).run ops
    (∃ engineOps, (RuleEngine.machine rules clock).run engineOps =
        ⟨run.state.engine, engineTrace run.trace⟩) ∧
      ∃ watchdogOps, (Watchdog.machine os guardClock names system).run watchdogOps =
        ⟨run.state.watchdog, watchdogTrace run.trace⟩ := by
  intro run
  have turns := coreSystem_turns os rules clock guardClock room names system queues
  have engine : ∃ engineOps, (∀ op ∈ engineOps, (fun _ : RuleEngine.Op => True) op) ∧
      (RuleEngine.machine rules clock).run engineOps =
        ⟨run.state.engine, engineTrace run.trace⟩ := by
    apply Machine.exists_inner_run _ _ CoreState.engine engineEvent fun _ => True
    · rfl
    · trivial
    · exact fun _ _ _ => trivial
    · rintro state op -
      rcases (turns state op).engine_inner with ⟨inner, equal⟩
      exact ⟨inner, fun _ _ => trivial, equal⟩
  have watchdog : ∃ watchdogOps, (∀ op ∈ watchdogOps, (fun _ : Watchdog.Op ω => True) op) ∧
      (Watchdog.machine os guardClock names system).run watchdogOps =
        ⟨run.state.watchdog, watchdogTrace run.trace⟩ := by
    apply Machine.exists_inner_run _ _ CoreState.watchdog watchdogEvent fun _ => True
    · rfl
    · trivial
    · exact fun _ _ _ => trivial
    · rintro state op -
      rcases (turns state op).watchdog_inner names system with ⟨inner, equal⟩
      exact ⟨inner, fun _ _ => trivial, equal⟩
  rcases engine with ⟨engineOps, _, engineEq⟩
  rcases watchdog with ⟨watchdogOps, _, watchdogEq⟩
  exact ⟨⟨engineOps, engineEq⟩, watchdogOps, watchdogEq⟩

end Simulation

/-! ## Where the messages go -/

namespace Messenger

theorem getElem?_removeQueue (module other : Str) (queues : Queues) :
    (removeQueue module queues).messenger.messageQueues[other]? =
      if module = other then none else queues.messenger.messageQueues[other]? := by
  cases found : queues.messenger.messageQueues[module]? with
  | none =>
      simp only [removeQueue, found]
      split
      · rename_i same
        rw [← same, found]
      · rfl
  | some handler =>
      simp [removeQueue, found, Std.ExtTreeMap.getElem?_erase]

theorem getElem?_addQueue {room : QueueNames → Str → Bool}
    (roomy : ∀ names id, room names id = true) (module other : Str) (queues : Queues) :
    (addQueue room module queues).messenger.messageQueues[other]? =
      if module = other then
        some (some (.new (uqid queues.messenger.ucid module)))
      else
        queues.messenger.messageQueues[other]? := by
  have removed := getElem?_removeQueue module other queues
  simp only [addQueue, MessageHandler.create, roomy, if_true, Std.ExtTreeMap.getElem?_insert,
    Std.LawfulEqCmp.compare_eq_iff_eq, removed]
  split
  · rfl
  · rfl

end Messenger

section Routing

variable {os : Os ω} {rules : List RuleInfo} {clock : SteadyClock} {guardClock : Clock}
  {room : QueueNames → Str → Bool} {names : List Str} {ucid : Str}

/-- The modules whose queues the guard thread has removed. -/
def removedQueues (trace : List (CoreOp ω × CoreEvent ω)) : List Str :=
  trace.filterMap fun item =>
    match item.2 with
    | .queueRemoved module => some module
    | _ => none

/-- The module is one of the module directory, and its queue was not removed. -/
def Reachable (names : List Str) (trace : List (CoreOp ω × CoreEvent ω)) (module : Str) : Prop :=
  module ∈ names ∧ module ∉ removedQueues trace

/-- A message is offered to the queue of its module when there is one, and to no other
queue. -/
def Routed (ucid : Str) (names : List Str) (before : List (CoreOp ω × CoreEvent ω))
    (item : CoreOp ω × CoreEvent ω) : Prop :=
  ∀ op handed result, item.2 = .handed op handed result →
    let module := handed.delivery.module
    ((module ≠ systemMessageModule ∧ Reachable names before module) →
      result = some (item.1.trySend (.new (Messenger.uqid ucid module))
        handed.delivery.message)) ∧
    (¬ (module ≠ systemMessageModule ∧ Reachable names before module) → result = some false)

/-- The handlers of the messenger are those of the reachable modules. -/
structure Wired (ucid : Str) (names : List Str)
    (run : Run (CoreState ω) (CoreOp ω) (CoreEvent ω)) : Prop where
  ucid_eq : run.state.queues.messenger.ucid = ucid
  held : ∀ module, Reachable names run.trace module →
    run.state.queues.messenger.messageQueues[module]? =
      some (some (.new (Messenger.uqid ucid module)))
  absent : ∀ module, ¬ Reachable names run.trace module →
    run.state.queues.messenger.messageQueues[module]? = none
  routed : Throughout (Routed ucid names) run.trace

theorem sendMessage_routed {run : Run (CoreState ω) (CoreOp ω) (CoreEvent ω)}
    (wired : Wired ucid names run) (trySend : MessageHandler → Message → Bool) (module : Str)
    (message : Message) :
    ((module ≠ systemMessageModule ∧ Reachable names run.trace module) →
      Messenger.sendMessage trySend module message run.state.queues.messenger =
        some (trySend (.new (Messenger.uqid ucid module)) message)) ∧
    (¬ (module ≠ systemMessageModule ∧ Reachable names run.trace module) →
      Messenger.sendMessage trySend module message run.state.queues.messenger =
        some false) := by
  constructor
  · rintro ⟨ordinary, reachable⟩
    simp [Messenger.sendMessage, ordinary, wired.held module reachable]
  · intro unreachable
    by_cases ordinary : module = systemMessageModule
    · simp [Messenger.sendMessage, ordinary]
    · have absent := wired.absent module fun reachable => unreachable ⟨ordinary, reachable⟩
      simp [Messenger.sendMessage, ordinary, absent]

theorem removedQueues_append (first second : List (CoreOp ω × CoreEvent ω)) :
    removedQueues (first ++ second) = removedQueues first ++ removedQueues second := by
  simp [removedQueues]

theorem removedQueues_eq_nil {op : CoreOp ω} {events : List (CoreEvent ω)}
    (keeps : ∀ event ∈ events, ∀ module, event ≠ .queueRemoved module) :
    removedQueues (events.map fun event => (op, event)) = [] := by
  rw [removedQueues, List.filterMap_map, List.filterMap_eq_nil_iff]
  rintro event member
  have kept := keeps event member
  cases event with
  | queueRemoved module => exact absurd rfl (kept module)
  | report | enqueued | handed | logged => rfl

namespace Wired

variable {run : Run (CoreState ω) (CoreOp ω) (CoreEvent ω)} {op : CoreOp ω}
  {next : CoreState ω} {events : List (CoreEvent ω)}

/-- A turn that removes no queue. -/
theorem keep (wired : Wired ucid names run) (queues : next.queues = run.state.queues)
    (keeps : ∀ event ∈ events, ∀ module, event ≠ .queueRemoved module)
    (sends : ∀ event ∈ events, ∀ engineOp handed result,
      event = .handed engineOp handed result →
        result = Messenger.sendMessage op.trySend handed.delivery.module
          handed.delivery.message run.state.queues.messenger) :
    Wired ucid names ⟨next, run.trace ++ events.map fun event => (op, event)⟩ := by
  have same : ∀ first : List (CoreEvent ω), first <+: events → ∀ module,
      Reachable names (run.trace ++ first.map fun event => (op, event)) module ↔
        Reachable names run.trace module := by
    rintro first isPrefix module
    have nothingRemoved : removedQueues (first.map fun event => (op, event)) = [] :=
      removedQueues_eq_nil fun event member => keeps event (isPrefix.subset member)
    rw [Reachable, Reachable, removedQueues_append, nothingRemoved, List.append_nil]
  have whole := same events List.prefix_rfl
  constructor
  · rw [queues]
    exact wired.ucid_eq
  · rintro module reachable
    rw [queues]
    exact wired.held module ((whole module).mp reachable)
  · rintro module unreachable
    rw [queues]
    exact wired.absent module fun reachable => unreachable ((whole module).mpr reachable)
  · apply wired.routed.append_of_split
    rintro first item rest split engineOp handed result isHanded
    obtain ⟨firstEvents, restEvents, eventsEq, rfl, restEq⟩ := List.map_eq_append_iff.mp split
    obtain ⟨event, others, rfl, rfl, rfl⟩ := List.map_eq_cons_iff.mp restEq
    have isPrefix : firstEvents <+: events := ⟨event :: others, eventsEq.symm⟩
    have member : event ∈ events := by simp [eventsEq]
    have sent := sends event member engineOp handed result isHanded
    intro module
    rw [same firstEvents isPrefix module, sent]
    exact sendMessage_routed wired op.trySend handed.delivery.module handed.delivery.message

/-- The guard thread removes a queue. -/
theorem remove (wired : Wired ucid names run) (module : Str)
    (queues : next.queues = Messenger.removeQueue module run.state.queues) :
    Wired ucid names ⟨next, run.trace ++ [.queueRemoved module].map fun event => (op, event)⟩ := by
  have removed : ∀ other,
      Reachable names (run.trace ++ [(op, .queueRemoved module)]) other ↔
        Reachable names run.trace other ∧ module ≠ other := by
    intro other
    rw [Reachable, Reachable, removedQueues_append, List.mem_append, not_or]
    have single : other ∉ removedQueues [(op, CoreEvent.queueRemoved module)] ↔
        module ≠ other := by
      simp [removedQueues, eq_comm]
    rw [single, and_assoc]
  constructor
  · rw [queues, Messenger.removeQueue_ucid]
    exact wired.ucid_eq
  · rintro other reachable
    rcases (removed other).mp reachable with ⟨before, different⟩
    rw [queues, Messenger.getElem?_removeQueue, if_neg different]
    exact wired.held other before
  · rintro other unreachable
    rw [queues, Messenger.getElem?_removeQueue]
    by_cases same : module = other
    · rw [if_pos same]
    · rw [if_neg same]
      exact wired.absent other fun before => unreachable ((removed other).mpr ⟨before, same⟩)
  · apply wired.routed.concat
    rintro engineOp handed result isHanded
    cases isHanded

theorem start (roomy : ∀ names id, room names id = true) (present : QueueNames) (system : ω) :
    Wired ucid names
      (coreSystem os rules clock guardClock room names system ⟨⟨ucid, ∅⟩, present⟩).fresh := by
  have opened : ∀ queues : Queues, queues.messenger.ucid = ucid →
      (names.foldl (fun queues name => Messenger.addQueue room name queues)
          queues).messenger.ucid = ucid ∧
        ∀ module, (names.foldl (fun queues name => Messenger.addQueue room name queues)
            queues).messenger.messageQueues[module]? =
          if module ∈ names then some (some (.new (Messenger.uqid ucid module)))
          else queues.messenger.messageQueues[module]? := by
    induction names using List.reverseRecOn with
    | nil => simp
    | append_singleton names name ih =>
        rintro queues ucidEq
        rcases ih queues ucidEq with ⟨same, found⟩
        rw [List.foldl_append, List.foldl_cons, List.foldl_nil]
        constructor
        · rw [Messenger.addQueue_ucid, same]
        · intro module
          rw [Messenger.getElem?_addQueue roomy, found, same]
          by_cases here : name = module
          · simp [here]
          · simp [here, Ne.symm here]
  rcases opened ⟨⟨ucid, ∅⟩, present⟩ rfl with ⟨ucidEq, found⟩
  have queuesEq : (coreSystem os rules clock guardClock room names system
      ⟨⟨ucid, ∅⟩, present⟩).fresh.state.queues =
        names.foldl (fun queues name => Messenger.addQueue room name queues)
          ⟨⟨ucid, ∅⟩, present⟩ :=
    rfl
  constructor
  · exact ucidEq
  · rintro module reachable
    rw [queuesEq, found, if_pos reachable.1]
  · rintro module unreachable
    have unknown : module ∉ names := fun known => unreachable ⟨known, by
      simp [Machine.fresh, removedQueues]⟩
    rw [queuesEq, found, if_neg unknown]
    simp
  · exact Throughout.nil

/-- The messages of the rule engine are sent through the messenger. -/
theorem engineStep_sends {trySend : MessageHandler → Message → Bool} {state : CoreState ω}
    {engineOp : RuleEngine.Op} {event : CoreEvent ω}
    (member : event ∈ (state.engineStep rules clock trySend engineOp).2) :
    ∃ handed, event = .handed engineOp handed (Messenger.sendMessage trySend
      handed.delivery.module handed.delivery.message state.queues.messenger) := by
  rcases List.mem_map.mp member with ⟨handed, _, rfl⟩
  exact ⟨handed, rfl⟩

theorem turn (wired : Wired ucid names run)
    (turns : run.state.Turns os rules clock guardClock op.trySend next events) :
    Wired ucid names ⟨next, run.trace ++ events.map fun event => (op, event)⟩ := by
  cases turns with
  | wait => exact wired.keep rfl (by simp) (by simp)
  | engine engineOp =>
      apply wired.keep
      · rfl
      · rintro event member module rfl
        rcases engineStep_sends member with ⟨handed, equal⟩
        cases equal
      · rintro event member otherOp handed result rfl
        rcases engineStep_sends member with ⟨handed, equal⟩
        cases equal
        rfl
  | @call origin entry before calls =>
      have same : before.queues = run.state.queues := by
        cases calls with
        | event => rfl
        | main => rfl
        | guard => rfl
      apply wired.keep
      · exact same
      · rintro event member module rfl
        rcases List.mem_cons.mp member with equal | sent
        · cases equal
        · rcases engineStep_sends sent with ⟨handed, equal⟩
          cases equal
      · rintro event member otherOp handed result rfl
        rcases List.mem_cons.mp member with equal | sent
        · cases equal
        · rcases engineStep_sends sent with ⟨handed, equal⟩
          cases equal
          rw [same]
  | speak => exact wired.keep rfl (by simp) (by simp)
  | watch => exact wired.keep rfl (by simp) (by simp)
  | removeQueue => exact wired.remove _ rfl
  | log => exact wired.keep rfl (by simp) (by simp)
  | system => exact wired.keep rfl (by simp) (by simp)

end Wired

variable (os rules clock guardClock room names ucid)

/-- Every message of the rule engine is offered to the queue of the module it is for,
and to no other, as long as the module is one of the module directory and its queue was
not removed.  After that it is not sent.  No handler is a null pointer. -/
theorem core_routes (roomy : ∀ names id, room names id = true) (present : QueueNames)
    (system : ω) (ops : List (CoreOp ω)) :
    Throughout (Routed ucid names)
      ((coreSystem os rules clock guardClock room names system
        ⟨⟨ucid, ∅⟩, present⟩).run ops).trace := by
  let core := coreSystem os rules clock guardClock room names system ⟨⟨ucid, ∅⟩, present⟩
  have initial : Wired ucid names core.fresh := Wired.start roomy present system
  have wired : Wired ucid names (core.run ops) := by
    apply Machine.run_invariant core initial
    rintro run op wired
    exact wired.turn (coreSystem_turns os rules clock guardClock room names system
      ⟨⟨ucid, ∅⟩, present⟩ run.state op)
  exact wired.routed

/-- The action of an event is put into the queue of the SMS module. -/
theorem core_routes_motion :
    let run := (coreSystem Watchdog.silent [RuleEngine.motionRule 0] (SteadyClock.ofList 0 [])
      (Clock.ofList 0 []) (fun _ _ => true) ["module_sms".toList] true
      ⟨⟨"SENTRI_0".toList, ∅⟩, ∅⟩).run
        [⟨.readMessage (.msgEvent RuleEngine.motionEvent.event), fun _ _ => true⟩]
    run.trace.length = 2 ∧ Throughout (Routed "SENTRI_0".toList ["module_sms".toList]) run.trace :=
  ⟨by decide +kernel, core_routes Watchdog.silent [RuleEngine.motionRule 0]
    (SteadyClock.ofList 0 [])
    (Clock.ofList 0 []) (fun _ _ => true) ["module_sms".toList] "SENTRI_0".toList
    (fun _ _ => rfl) ∅ true _⟩

end Routing

end Sentri.Core
