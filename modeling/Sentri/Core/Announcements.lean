import Sentri.Core.Interleaving
import Sentri.LibModule.ConfigLoader

/-!
# The announcement of a burial

When the watchdog buries a module, the guard thread removes the queue of the module and
tells the user.  The announcement is an event for every rule about system messages, so
that it reaches the user on the ways he has chosen.
-/

namespace Sentri.Core

open Sentri.LibModule Sentri.Text Sentri.Transition

namespace Watchdog

variable {ω : Type} {os : Os ω} {clock : Clock}

/-! ## The notices of the watchdog -/

/-- Does the guard thread do something outside of the watchdog? -/
def isNotice : Happening → Bool
  | .queueRemoved => true
  | .systemMessage _ => true
  | _ => false

/-- What happens at a burial, in this order. -/
def burialNotices (module : Str) : List Happening :=
  [.queueRemoved, .systemMessage (buriedMessage module)]

/-- There are notices about a buried module only, and just once. -/
def Noticed (module : Str) (data : ModuleData) (happenings : List Happening) : Prop :=
  happenings.filter isNotice = if data.buried then burialNotices module else []

variable (os clock) in
theorem resurrectModule_noticed (module : Str) (world : World ω) (data : ModuleData)
    (free : data.buried = false) :
    Noticed module (resurrectModule os clock module world data).2.1
      (resurrectModule os clock module world data).2.2 := by
  have revived := resurrectModule_revived os clock module world data
  generalize (resurrectModule os clock module world data).1.ticks = ticks at revived
  generalize (resurrectModule os clock module world data).2.1 = next at revived ⊢
  generalize (resurrectModule os clock module world data).2.2 = happenings at revived ⊢
  cases revived with
  | restarted => simp [Noticed, isNotice, free]
  | failed => simp [Noticed, isNotice, free]
  | buried => simp [Noticed, isNotice, burialNotices]

variable (os clock) in
theorem checkHeartbeat_noticed (module : Str) (world : World ω) (data : ModuleData)
    (free : data.buried = false) :
    Noticed module (checkHeartbeat os clock module world data).2.1
      (checkHeartbeat os clock module world data).2.2 := by
  rcases checkHeartbeat_cases os clock module world data with
    ⟨_, equal⟩ | ⟨_, _, equal⟩ | ⟨_, _, equal⟩
  · rw [equal]
    simp [Noticed, free]
  · rw [equal]
    simp [Noticed, free]
  · rw [equal]
    exact resurrectModule_noticed os clock module _ _ free

theorem Noticed.after {module : Str} {data next : ModuleData}
    {happenings added : List Happening} (noticed : Noticed module data happenings)
    (buried : next.buried = data.buried) (unnoticed : added.filter isNotice = []) :
    Noticed module next (happenings ++ added) := by
  rw [Noticed, List.filter_append, unnoticed, List.append_nil, noticed, buried]

variable (clock) in
theorem checkStability_unnoticed (world : World ω) (data : ModuleData) :
    (checkStability clock world data).2.1.buried = data.buried ∧
      (checkStability clock world data).2.2.filter isNotice = [] := by
  rcases checkStability_cases clock world data with ⟨_, rate, _, _, dataEq, equal⟩ | ⟨_, equal⟩
  · rw [dataEq, equal]
    exact ⟨rfl, rfl⟩
  · rw [equal]
    exact ⟨rfl, rfl⟩

variable (os clock) in
/-- A visit of the guard loop to a module that is not buried. -/
theorem guardModule_noticed (module : Str) (world : World ω) (data : ModuleData)
    (free : data.buried = false) :
    Noticed module (guardModule os clock module world data).2.1
      (guardModule os clock module world data).2.2 := by
  let reaped : World ω := { world with os := (os.waitpid world.os data.pid).1 }
  rcases guardModule_cases os clock module world data with
    ⟨_, equal⟩ | ⟨_, _, _, equal⟩ | ⟨_, _, _, equal⟩
  · rw [equal]
    simp [Noticed, free]
  · rw [equal]
    exact resurrectModule_noticed os clock module reaped data free
  · rw [equal]
    have first := checkHeartbeat_noticed os clock module reaped data free
    obtain ⟨same, unnoticed⟩ := checkStability_unnoticed clock
      (checkHeartbeat os clock module reaped data).1
      (checkHeartbeat os clock module reaped data).2.1
    exact first.after same unnoticed

/-- A visit keeps the account of the notices. -/
theorem Noticed.visit {op : Op ω} {effect : Str → World ω → ModuleData → Effect ω}
    (equal : called os clock op = some effect) {module : Str} {world : World ω}
    {data : ModuleData} {happenings : List Happening}
    (noticed : Noticed module data happenings) :
    Noticed module (effect module world data).2.1
      (happenings ++ (effect module world data).2.2) := by
  cases op, effect, equal using called_cases with
  | start =>
      rcases spawnModule_cases os clock world data with ⟨state, same⟩ | ⟨_, state, pid, same⟩
      · simp only [same]
        exact noticed.after rfl rfl
      · simp only [same]
        exact noticed.after rfl rfl
  | round =>
      cases buried : data.buried with
      | true =>
          have same : guardModule os clock module world data = (world, data, []) := by
            simp [guardModule, buried]
          simp only [same]
          exact noticed.after rfl rfl
      | false =>
          have visit := guardModule_noticed os clock module world data buried
          rw [Noticed, buried] at noticed
          rw [Noticed, List.filter_append, noticed]
          exact visit
  | heartbeat name => exact noticed.after rfl rfl
  | setHeartbeatInterval name interval => exact noticed.after rfl rfl

variable (os) in
/-- In every run the notices about a module are those of its burial, if it is
buried. -/
theorem noticed_run (clock : Clock) (names : List Str) (state : ω) (ops : List (Op ω)) :
    Everywhere (fun module _ data items => Noticed module data (happeningsOf items))
      ((observer os clock names state).run ops) := by
  refine everywhere_run names state ?_ ?_ ?_ ops
  · rintro module ticks later data items _ noticed
    exact noticed
  · intro module ticks now
    rfl
  · rintro op effect equal module world data items noticed
    rw [happeningsOf_concat]
    exact noticed.visit equal

end Watchdog

variable {ω : Type} {os : Os ω} {rules : List RuleInfo} {clock : SteadyClock} {guardClock : Clock}

/-! ## The tasks of the guard thread -/

/-- The tasks at the burial of a module: its queue goes first. -/
def burialTasks (rules : List RuleInfo) (module : Str) : List Task :=
  .removeQueue module ::
    (systemMessageEntries rules (Watchdog.buriedMessage module)).map (.enqueueEvent module)

theorem tasks_module {report : Report} {task : Task} (member : task ∈ tasks rules report) :
    task.module = report.module := by
  rcases report with ⟨module, happening⟩
  cases happening with
  | queueRemoved =>
      rw [List.mem_singleton.mp member]
      rfl
  | systemMessage text =>
      rcases List.mem_map.mp member with ⟨entry, _, rfl⟩
      rfl
  | spawned | resurrected | checked | decreased => cases member

theorem tasks_eq_nil {module : Str} {happening : Happening}
    (quiet : Watchdog.isNotice happening = false) : tasks rules ⟨module, happening⟩ = [] := by
  cases happening with
  | queueRemoved | systemMessage => cases quiet
  | spawned | resurrected | checked | decreased => rfl

/-- The tasks about a module come with the notices about it. -/
theorem tasks_about (module : Str) (trace : List (Watchdog.Op ω × Report)) :
    ((trace.map Prod.snd).flatMap (tasks rules)).filter (·.module = module) =
      (((Watchdog.about module trace).map Prod.snd).filter Watchdog.isNotice).flatMap
        fun happening => tasks rules ⟨module, happening⟩ := by
  induction trace with
  | nil => rfl
  | cons item trace ih =>
      rcases item with ⟨op, other, happening⟩
      rw [List.map_cons, List.flatMap_cons, List.filter_append, ih]
      by_cases same : other = module
      · subst same
        have all : (tasks rules ⟨other, happening⟩).filter (·.module = other) =
            tasks rules ⟨other, happening⟩ := by
          rw [List.filter_eq_self]
          rintro task member
          simpa using tasks_module member
        have head : Watchdog.about other ((op, ⟨other, happening⟩) :: trace) =
            (op, happening) :: Watchdog.about other trace := by
          simp [Watchdog.about]
        rw [all, head, List.map_cons]
        cases quiet : Watchdog.isNotice happening with
        | true => rw [List.filter_cons_of_pos quiet, List.flatMap_cons]
        | false =>
            rw [List.filter_cons_of_neg (by simp [quiet]), tasks_eq_nil quiet, List.nil_append]
      · have noTask : (tasks rules ⟨other, happening⟩).filter (·.module = module) = [] := by
          rw [List.filter_eq_nil_iff]
          rintro task member isModule
          rw [tasks_module member] at isModule
          exact same (of_decide_eq_true isModule)
        have head : Watchdog.about module ((op, ⟨other, happening⟩) :: trace) =
            Watchdog.about module trace := by
          simp [Watchdog.about, same]
        rw [noTask, head, List.nil_append]

/-! ## The guard thread -/

/-- The task that the guard thread does in a turn. -/
def guardTask : CoreEvent ω → Option Task
  | .queueRemoved module => some (.removeQueue module)
  | .enqueued (some module) _ entry => some (.enqueueEvent module entry)
  | _ => none

/-- The tasks that the guard thread has done. -/
def performed (trace : List (CoreOp ω × CoreEvent ω)) : List Task :=
  trace.filterMap fun item => guardTask item.2

/-- The guard thread does all its tasks once and in their order. -/
def InOrder (rules : List RuleInfo) (run : Run (CoreState ω) (CoreOp ω) (CoreEvent ω)) : Prop :=
  performed run.trace ++ run.state.guard =
    ((watchdogTrace run.trace).map Prod.snd).flatMap (tasks rules)

variable (rules clock) in
theorem engineStep_guardTask (trySend : MessageHandler → Message → Bool) (state : CoreState ω)
    (op : RuleEngine.Op) :
    (state.engineStep rules clock trySend op).2.filterMap guardTask = [] := by
  simp [CoreState.engineStep, List.filterMap_map, Function.comp_def, guardTask]

/-- What a turn adds to the tasks done is taken from those left, and the reports of the
watchdog bring new ones. -/
theorem CoreState.Turns.inOrder {trySend : MessageHandler → Message → Bool}
    {state next : CoreState ω} {events : List (CoreEvent ω)}
    (turns : state.Turns os rules clock guardClock trySend next events) :
    events.filterMap guardTask ++ next.guard =
      state.guard ++ ((events.filterMap watchdogEvent).map Prod.snd).flatMap (tasks rules) := by
  cases turns with
  | wait => simp
  | engine op =>
      rw [engineStep_guardTask, engineStep_watchdog]
      simp [CoreState.engineStep]
  | @call origin entry before calls =>
      have guardEq : (before.enqueueEvent rules clock trySend origin entry).1.guard =
          before.guard :=
        rfl
      have watched : (before.enqueueEvent rules clock trySend origin entry).2.filterMap
          watchdogEvent = [] :=
        engineStep_watchdog before (.enqueueEvent entry)
      have quiet := engineStep_guardTask rules clock trySend before
        (.enqueueEvent entry)
      rw [guardEq, watched]
      cases calls with
      | event => simpa [CoreState.enqueueEvent, guardTask] using quiet
      | main => simpa [CoreState.enqueueEvent, guardTask] using quiet
      | guard todo => simpa [CoreState.enqueueEvent, guardTask, todo] using quiet
  | speak => simp
  | watch op free =>
      simp [free, List.filterMap_map, Function.comp_def, guardTask, watchdogEvent]
  | removeQueue todo => simp [guardTask, watchdogEvent, todo]
  | log => exact (List.append_nil state.guard).symm
  | system => simp

variable (os rules clock guardClock)

theorem inOrder_run (room : QueueNames → Str → Bool) (names : List Str) (system : ω)
    (queues : Queues) (ops : List (CoreOp ω)) :
    InOrder rules ((coreSystem os rules clock guardClock room names system queues).run ops) := by
  apply Machine.run_invariant
  · rfl
  · rintro run op inOrder
    have turn := (coreSystem_turns os rules clock guardClock room names system queues run.state
      op).inOrder
    rw [InOrder, performed, watchdogTrace] at inOrder ⊢
    rw [Machine.extend_trace, Machine.extend_state, List.filterMap_append, List.filterMap_append,
      List.map_append, List.flatMap_append, ← inOrder, List.append_assoc, List.append_assoc]
    simpa [List.filterMap_map, Function.comp_def] using turn

/-- A burial is announced.  Of every module that is buried the guard thread removes the
queue and enqueues one event for each rule about system messages, once and in this
order; what it has not yet done it will do next.  It does neither for a module that is
not buried. -/
theorem burials_announced (room : QueueNames → Str → Bool) (names : List Str) (system : ω)
    (queues : Queues) (ops : List (CoreOp ω)) (module : Str) (data : ModuleData)
    (present : ((coreSystem os rules clock guardClock room names system queues).run
      ops).state.watchdog.modules[module]? = some data) :
    let run := (coreSystem os rules clock guardClock room names system queues).run ops
    (performed run.trace ++ run.state.guard).filter (·.module = module) =
      if data.buried then burialTasks rules module else [] := by
  intro run
  have inOrder : performed run.trace ++ run.state.guard =
      ((watchdogTrace run.trace).map Prod.snd).flatMap (tasks rules) :=
    inOrder_run os rules clock guardClock room names system queues ops
  rcases (core_simulates os rules clock guardClock room names system queues ops).2 with
    ⟨watchdogOps, inner⟩
  have found : ((Watchdog.observer os guardClock names system).run
      watchdogOps).state.modules[module]? = some data := by
    rw [Watchdog.observer_state, inner]
    exact present
  have noticed : Watchdog.Noticed module data (Watchdog.happeningsOf (Watchdog.visitsTo module
      ((Watchdog.observer os guardClock names system).run watchdogOps).trace)) :=
    Watchdog.noticed_run os guardClock names system watchdogOps module data found
  rw [← Watchdog.about_run, inner] at noticed
  rw [inOrder, tasks_about, noticed]
  cases data.buried with
  | true => simp [Watchdog.burialNotices, burialTasks, tasks]
  | false => rfl

/-- A module that is dead in each of eleven rounds, and the two tasks of its burial. -/
def dyingTurns : List (CoreOp Bool) :=
  let turns : List (Turn Bool) :=
    .start :: (List.replicate 11 [.system fun _ => false, .round]).flatten ++ [.guard, .guard]
  turns.map fun turn => ⟨turn, fun _ _ => true⟩

/-- The rule about system messages as it is loaded. -/
def loadedRule : RuleInfo :=
  { RuleEngine.systemMessageRule with fireLimit := Number.roundToDouble 0 }

/-- The core with one module that dies. -/
def dyingCore : Machine (CoreState Bool) (CoreOp Bool) (CoreEvent Bool) :=
  coreSystem Watchdog.silent [loadedRule] (SteadyClock.ofList 0 []) (Clock.ofList 0 [])
    (fun _ _ => true) ["module_sms".toList] true ⟨⟨"SENTRI_0".toList, ∅⟩, ∅⟩

theorem dyingCore_buries :
    ((dyingCore.run dyingTurns).state.watchdog.modules["module_sms".toList]?).map
      ModuleData.buried = some true := by
  decide +kernel

theorem dyingCore_ends : (dyingCore.run dyingTurns).state.guard = [] := by
  decide +kernel

/-- The queue of the module is removed and the rule about system messages has its event. -/
theorem burials_announced_dying :
    (performed (dyingCore.run dyingTurns).trace).filter (·.module = "module_sms".toList) =
      burialTasks [loadedRule] "module_sms".toList := by
  rcases Option.map_eq_some_iff.mp dyingCore_buries with ⟨data, present, buried⟩
  have announced := burials_announced Watchdog.silent [loadedRule] (SteadyClock.ofList 0 [])
    (Clock.ofList 0 []) (fun _ _ => true) ["module_sms".toList] true
    ⟨⟨"SENTRI_0".toList, ∅⟩, ∅⟩ dyingTurns "module_sms".toList data present
  rw [if_pos buried] at announced
  rw [← announced]
  have ended := dyingCore_ends
  unfold dyingCore at ended ⊢
  rw [ended, List.append_nil]

theorem mem_removedQueues {module : Str} {trace : List (CoreOp ω × CoreEvent ω)} :
    module ∈ removedQueues trace ↔ .removeQueue module ∈ performed trace := by
  simp only [removedQueues, performed, List.mem_filterMap]
  constructor
  · rintro ⟨item, member, isRemoved⟩
    refine ⟨item, member, ?_⟩
    cases event : item.2 with
    | queueRemoved other =>
        rw [event] at isRemoved
        rw [guardTask, Option.some.inj isRemoved]
    | report | enqueued | handed | logged => simp [event] at isRemoved
  · rintro ⟨item, member, isTask⟩
    refine ⟨item, member, ?_⟩
    cases event : item.2 with
    | queueRemoved other =>
        rw [event, guardTask] at isTask
        cases isTask
        rfl
    | enqueued origin call entry =>
        cases origin with
        | none => simp [event, guardTask] at isTask
        | some other => simp [event, guardTask] at isTask
    | report | handed | logged => simp [event, guardTask] at isTask

/-- A module can be reached until the guard thread removes its queue in its burial. -/
theorem reachable_iff (room : QueueNames → Str → Bool) (names : List Str) (system : ω)
    (queues : Queues) (ops : List (CoreOp ω)) (module : Str) (data : ModuleData)
    (present : ((coreSystem os rules clock guardClock room names system queues).run
      ops).state.watchdog.modules[module]? = some data) (known : module ∈ names) :
    let run := (coreSystem os rules clock guardClock room names system queues).run ops
    Reachable names run.trace module ↔
      data.buried = false ∨ .removeQueue module ∈ run.state.guard := by
  intro run
  have announced : (performed run.trace ++ run.state.guard).filter (·.module = module) =
      if data.buried then burialTasks rules module else [] :=
    burials_announced os rules clock guardClock room names system queues ops module data present
  have once : (performed run.trace).count (.removeQueue module) +
      run.state.guard.count (.removeQueue module) = if data.buried then 1 else 0 := by
    have filtered : ∀ list : List Task, (list.filter (·.module = module)).count
        (.removeQueue module) = list.count (.removeQueue module) := by
      intro list
      rw [List.count_filter]
      exact decide_eq_true rfl
    rw [← List.count_append, ← filtered, announced]
    cases data.buried with
    | true =>
        have others : (List.map (Task.enqueueEvent module) (systemMessageEntries rules
            (Watchdog.buriedMessage module))).count (.removeQueue module) = 0 := by
          rw [List.count_eq_zero]
          rintro member
          rcases List.mem_map.mp member with ⟨entry, _, equal⟩
          cases equal
        simp [burialTasks, others]
    | false => rfl
  rw [Reachable, and_iff_right known, mem_removedQueues, ← List.count_eq_zero,
    ← List.count_pos_iff]
  cases buried : data.buried with
  | true =>
      rw [buried, if_pos rfl] at once
      simp only [Bool.true_eq_false, false_or]
      omega
  | false =>
      rw [buried, if_neg (by decide)] at once
      simp only [true_or, iff_true]
      omega

/-! ## What becomes of an announcement -/

variable {os rules clock guardClock}

variable (clock) in
/-- An event of an enabled rule without a fire limit leads to its action at once. -/
theorem enqueueEvent_acts (engine : RuleEngine) {entry : EventEntry} {rule : RuleInfo}
    (found : RuleEngine.getRule rules entry.event.ruleId = some rule)
    (enabled : rule.isDisabled = false) (unlimited : rule.fireLimit ≤ 0) :
    ∃ time sent, (RuleEngine.enqueueEvent rules clock engine entry).2 =
        [⟨engine.calls.length, time, Messenger.sendAction rule.action.module sent⟩] ∧
      sent.event = entry.event := by
  have triggers : RuleEngine.checkConstraints clock engine entry.event.ruleId rule =
      (engine, true) := by
    simp [RuleEngine.checkConstraints, enabled, not_lt.mpr unlimited]
  simp only [RuleEngine.enqueueEvent, found, triggers, if_true]
  rw [RuleEngine.takeAction_of_found found]
  exact ⟨_, _, rfl, rfl⟩

/-- The action that a call of `enqueueEvent` leads to. -/
def LeadsTo (rule : RuleInfo) (call : Nat) (entry : EventEntry) (event : CoreEvent ω) : Prop :=
  ∃ handed result sent, event = .handed (.enqueueEvent entry) handed result ∧
    handed.call = call ∧ handed.delivery = Messenger.sendAction rule.action.module sent ∧
      sent.event = entry.event

/-- Every call for an enabled rule without a fire limit leads to an action. -/
def Acted (rules : List RuleInfo) (events : List (CoreEvent ω)) : Prop :=
  ∀ origin call entry, .enqueued origin call entry ∈ events →
    ∀ rule, RuleEngine.getRule rules entry.event.ruleId = some rule →
      rule.isDisabled = false → rule.fireLimit ≤ 0 →
        ∃ event ∈ events, LeadsTo rule call entry event

theorem Acted.append {first second : List (CoreEvent ω)} (before : Acted rules first)
    (after : Acted rules second) : Acted rules (first ++ second) := by
  rintro origin call entry member rule found enabled unlimited
  rcases List.mem_append.mp member with old | new
  · rcases before origin call entry old rule found enabled unlimited with ⟨event, member, leads⟩
    exact ⟨event, List.mem_append_left _ member, leads⟩
  · rcases after origin call entry new rule found enabled unlimited with ⟨event, member, leads⟩
    exact ⟨event, List.mem_append_right _ member, leads⟩

theorem CoreState.Turns.acted {trySend : MessageHandler → Message → Bool}
    {state next : CoreState ω} {events : List (CoreEvent ω)}
    (turns : state.Turns os rules clock guardClock trySend next events) :
    Acted rules events := by
  rintro origin call entry member rule found enabled unlimited
  cases turns with
  | wait | speak | system => cases member
  | engine op =>
      rcases Wired.engineStep_sends member with ⟨handed, equal⟩
      cases equal
  | @call origin' entry' before calls =>
      rcases List.mem_cons.mp member with equal | sent
      · cases equal
        obtain ⟨time, sent, handedEq, sentEq⟩ :=
          enqueueEvent_acts clock before.engine found enabled unlimited
        let handed : Handed := ⟨before.engine.calls.length, time,
          Messenger.sendAction rule.action.module sent⟩
        have inEvents : .handed (.enqueueEvent entry) handed (Messenger.sendMessage trySend
            handed.delivery.module handed.delivery.message before.queues.messenger) ∈
              (before.engineStep rules clock trySend (.enqueueEvent entry)).2 := by
          apply List.mem_map.mpr
          refine ⟨handed, ?_, rfl⟩
          change handed ∈ (RuleEngine.enqueueEvent rules clock before.engine entry).2
          rw [handedEq]
          exact List.mem_singleton_self handed
        exact ⟨_, List.mem_cons_of_mem _ inEvents, handed, _, sent, rfl, rfl, rfl, sentEq⟩
      · rcases Wired.engineStep_sends sent with ⟨handed, equal⟩
        cases equal
  | watch op =>
      rcases List.mem_map.mp member with ⟨report, _, equal⟩
      cases equal
  | removeQueue => simp at member
  | log => simp at member

variable (os rules clock guardClock)

theorem acted_run (room : QueueNames → Str → Bool) (names : List Str) (system : ω)
    (queues : Queues) (ops : List (CoreOp ω)) :
    Acted rules (((coreSystem os rules clock guardClock room names system queues).run
      ops).trace.map Prod.snd) := by
  let holds : Run (CoreState ω) (CoreOp ω) (CoreEvent ω) → Prop :=
    fun run => Acted rules (run.trace.map Prod.snd)
  have initial :
      holds (coreSystem os rules clock guardClock room names system queues).fresh := by
    rintro origin call entry member
    cases member
  apply Machine.run_invariant _ initial
  rintro run op acted
  have turn := (coreSystem_turns os rules clock guardClock room names system queues run.state
    op).acted
  change Acted rules _
  rw [Machine.extend_trace, List.map_append, List.map_map]
  exact acted.append (by simpa [Function.comp_def] using turn)

/-- The text of a burial reaches the module of the action whole, when the name of the
module can be part of a value. -/
theorem whole_of_burial {module : Str} (noNul : nul ∉ module) (noComma : ',' ∉ module)
    (short : module.length ≤ 900) {ruleId : RuleID} {message : Message} {body : ActionBody}
    (isBody : message.action? = some body)
    (vars : body.vars = (RuleEngine.systemMessageEntry ruleId
      (Watchdog.buriedMessage module)).event.vars) :
    RuleEngine.Whole (Watchdog.buriedMessage module) message := by
  have fits : (Watchdog.buriedMessage module).length ≤ 1000 := by
    rw [Watchdog.buriedMessage, List.length_append]
    exact (Nat.add_le_add_right short _).trans (by decide +kernel)
  have text : nul ∉ Watchdog.buriedMessage module := by
    rw [Watchdog.buriedMessage, List.mem_append, not_or]
    exact ⟨noNul, by decide +kernel⟩
  have plain : ',' ∉ Watchdog.buriedMessage module := by
    rw [Watchdog.buriedMessage, List.mem_append, not_or]
    exact ⟨noComma, by decide +kernel⟩
  rw [RuleEngine.Whole, MessageHandler.receivedVars_of_action isBody, vars,
    RuleEngine.systemMessageEntry_vars text fits]
  exact RuleEngine.parseVars_systemMessage_iff.mpr plain

/-- The user hears of every burial.  When the guard thread has ended its round, an action
was handed out for every buried module and every enabled rule about system messages without
a fire limit, for the action module of the rule and with the whole text. -/
theorem burial_reaches_user (loader : ConfigLoader)
    (loaded : loader.getRules ConfigLoader.mainName = .ok rules)
    (room : QueueNames → Str → Bool) (names : List Str) (system : ω) (queues : Queues)
    (ops : List (CoreOp ω)) (module : Str) (data : ModuleData)
    (present : ((coreSystem os rules clock guardClock room names system queues).run
      ops).state.watchdog.modules[module]? = some data)
    (buried : data.buried = true)
    (ended : ((coreSystem os rules clock guardClock room names system queues).run
      ops).state.guard = [])
    (rule : RuleInfo) (known : rule ∈ rules) (isSystem : isSystemRule rule = true)
    (enabled : rule.isDisabled = false) (unlimited : rule.fireLimit ≤ 0)
    (noNul : nul ∉ module) (noComma : ',' ∉ module) (short : module.length ≤ 900) :
    ∃ item ∈ ((coreSystem os rules clock guardClock room names system queues).run ops).trace,
      ∃ op handed result, item.2 = .handed op handed result ∧
        handed.delivery.module = rule.action.module ∧
        handed.delivery.message.type = .msgActio ∧
        RuleEngine.Whole (Watchdog.buriedMessage module) handed.delivery.message := by
  let run := (coreSystem os rules clock guardClock room names system queues).run ops
  let entry := RuleEngine.systemMessageEntry rule.id (Watchdog.buriedMessage module)
  have announced : (performed run.trace ++ run.state.guard).filter (·.module = module) =
      burialTasks rules module := by
    have := burials_announced os rules clock guardClock room names system queues ops module data
      present
    rwa [if_pos buried] at this
  have task : Task.enqueueEvent module entry ∈ performed run.trace := by
    have inTasks : Task.enqueueEvent module entry ∈ burialTasks rules module := by
      apply List.mem_cons_of_mem
      apply List.mem_map_of_mem
      exact List.mem_map_of_mem (List.mem_filter.mpr ⟨known, isSystem⟩)
    rw [← announced, show run.state.guard = [] from ended, List.append_nil] at inTasks
    exact (List.mem_filter.mp inTasks).1
  rcases List.mem_filterMap.mp task with ⟨⟨turn, event⟩, inTrace, isTask⟩
  obtain ⟨call, rfl⟩ : ∃ call, event = .enqueued (some module) call entry := by
    cases event with
    | queueRemoved => cases isTask
    | enqueued origin call other =>
        cases origin with
        | none => cases isTask
        | some other =>
            cases isTask
            exact ⟨call, rfl⟩
    | report | handed | logged => cases isTask
  have numbered : RuleEngine.getRule rules rule.id = some rule := by
    rcases ConfigLoader.getRules_main loaded with ⟨values, _, read⟩
    have ids := (ConfigLoader.readRules_ofModule (show [] ≠ ConfigLoader.mainName by decide)
      read).2
    rcases List.mem_iff_getElem?.mp known with ⟨k, position⟩
    rw [ids k rule position, Nat.zero_add]
    exact position
  have acted := acted_run os rules clock guardClock room names system queues ops
  rcases acted (some module) call entry (List.mem_map_of_mem inTrace) rule numbered enabled
    unlimited with ⟨event, member, handed, result, sent, rfl, _, delivery, same⟩
  rcases List.mem_map.mp member with ⟨item, itemMember, isHanded⟩
  refine ⟨item, itemMember, _, handed, result, isHanded, ?_, ?_, ?_⟩
  · rw [delivery]
    rfl
  · rw [delivery]
    rfl
  · rw [delivery]
    apply whole_of_burial noNul noComma short rfl
    exact congrArg Event.vars same

/-- A rules document with a rule that mails system messages. -/
def systemDocument : Json.Object :=
  [("rules".toList, .array [.object
    [("title".toList, .string "system messages".toList),
      ("event".toList, .object [("module".toList, .string systemMessageModule),
        ("key".toList, .string systemMessageKey), ("configuration".toList, .array [])]),
      ("action".toList, .object [("module".toList, .string "module_mail".toList),
        ("key".toList, .string "send".toList), ("configuration".toList, .array [])]),
      ("constraints".toList, .object [])]])]

/-- The burial of a module reaches the mail module. -/
theorem burial_reaches_user_dying :
    ∃ item ∈ (dyingCore.run dyingTurns).trace,
      ∃ op handed result, item.2 = .handed op handed result ∧
        handed.delivery.module = "module_mail".toList ∧
        handed.delivery.message.type = .msgActio ∧
        RuleEngine.Whole (Watchdog.buriedMessage "module_sms".toList)
          handed.delivery.message := by
  rcases Option.map_eq_some_iff.mp dyingCore_buries with ⟨data, present, buried⟩
  exact burial_reaches_user Watchdog.silent [loadedRule] (SteadyClock.ofList 0 [])
    (Clock.ofList 0 [])
    ⟨"rules.conf".toList, systemDocument⟩ rfl (fun _ _ => true) ["module_sms".toList] true
    ⟨⟨"SENTRI_0".toList, ∅⟩, ∅⟩ dyingTurns "module_sms".toList data present buried
    dyingCore_ends loadedRule List.mem_cons_self (by decide +kernel) rfl (by decide +kernel)
    (by decide +kernel) (by decide +kernel) (by decide +kernel)

end Sentri.Core
