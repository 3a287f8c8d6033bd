import Sentri.Core.RuleEngine.Basic

/-!
# The single actions of the rule engine

Every operation is a sequence of single actions.  `Action` says all that one
action can do, with its guards; invariants of the rule engine are proved for
one action and hold of all runs by `run_invariant_of_action`.
-/

namespace Sentri.Core.RuleEngine

open Sentri.LibModule Sentri.Text Sentri.Transition

variable (rules : List RuleInfo) (clock : SteadyClock)

/-- The queue entry of an event that is accepted in the given state. -/
def acceptedEntry (engine : RuleEngine) (entry : EventEntry) : EventEntry :=
  EventEntry.attempt { entry with numTries := 0, id := engine.eventId }
    (clock.reading (engine.ticks + 1))

/-- One action of the engine during an operation, and what it hands to the
messenger. -/
inductive Action (op : Op) : RuleEngine → RuleEngine → List Handed → Prop
  | read (engine : RuleEngine) :
      Action op engine { engine with ticks := engine.ticks + 1 } []
  | ignore {engine : RuleEngine} {entry : EventEntry}
      (unknown : getRule rules entry.event.ruleId = none) :
      Action op engine { engine with calls := engine.calls ++ [entry] } []
  | reject {engine : RuleEngine} {entry : EventEntry} {rule : RuleInfo}
      (found : getRule rules entry.event.ruleId = some rule) :
      Action op engine { engine with calls := engine.calls ++ [entry] }
        [⟨engine.calls.length, lastReading clock engine,
          Messenger.sendEventAbort rule.event.module entry⟩]
  | accept {engine : RuleEngine} {entry : EventEntry} {rule : RuleInfo} {now : Timepoint}
      (inCall : op ≠ .ackThread)
      (found : getRule rules entry.event.ruleId = some rule)
      (enabled : rule.isDisabled = false)
      (past : now ≤ clock.reading engine.ticks)
      (limit : 0 < rule.fireLimit →
        nextTrigger (engine.ruleTimestamps.getD entry.event.ruleId 0) rule ≤ now) :
      Action op engine
        { ruleTimestamps := engine.ruleTimestamps.set entry.event.ruleId
            (clock.reading engine.ticks)
          ackQueue := engine.ackQueue ++
            [⟨engine.calls.length, acceptedEntry clock engine entry⟩]
          eventId := engine.eventId + 1
          ticks := engine.ticks + 2
          calls := engine.calls ++ [entry] }
        [⟨engine.calls.length, clock.reading engine.ticks,
          Messenger.sendAction rule.action.module (acceptedEntry clock engine entry)⟩]
  | retry {engine : RuleEngine} {passed left : List Pending} {pending : Pending}
      {rule : RuleInfo} {now : Timepoint}
      (inPass : op = .ackThread)
      (queue : engine.ackQueue = passed ++ pending :: left)
      (found : getRule rules pending.entry.event.ruleId = some rule)
      (past : now ≤ clock.reading engine.ticks)
      (due : pending.entry.actionSent + milliseconds ackTimeout ≤ now)
      (more : pending.entry.numTries.toNat ≤ numActionRetries) :
      Action op engine
        { engine with
          ruleTimestamps := engine.ruleTimestamps.set pending.entry.event.ruleId
            (clock.reading engine.ticks)
          ackQueue := passed ++
            ⟨pending.call, pending.entry.attempt (clock.reading (engine.ticks + 1))⟩ :: left
          ticks := engine.ticks + 2 }
        [⟨pending.call, clock.reading engine.ticks,
          Messenger.sendAction rule.action.module
            (pending.entry.attempt (clock.reading (engine.ticks + 1)))⟩]
  | giveUp {engine : RuleEngine} {passed left : List Pending} {pending : Pending}
      {rule : RuleInfo} {now : Timepoint}
      (inPass : op = .ackThread)
      (queue : engine.ackQueue = passed ++ pending :: left)
      (found : getRule rules pending.entry.event.ruleId = some rule)
      (due : pending.entry.actionSent + milliseconds ackTimeout ≤ now)
      (noMore : numActionRetries < pending.entry.numTries.toNat) :
      Action op engine { engine with ackQueue := passed ++ left }
        [⟨pending.call, now, Messenger.sendEventAbort rule.event.module pending.entry⟩]
  | acknowledge {engine : RuleEngine} {passed left : List Pending} {pending : Pending}
      {rule : RuleInfo}
      (inAck : op = .acceptAck pending.entry.id)
      (queue : engine.ackQueue = passed ++ pending :: left)
      (first : ∀ other ∈ passed, other.entry.id ≠ pending.entry.id)
      (found : getRule rules pending.entry.event.ruleId = some rule) :
      Action op engine { engine with ackQueue := passed ++ left }
        [⟨pending.call, lastReading clock engine,
          Messenger.sendEventAck rule.event.module pending.entry⟩]
  | forget {engine : RuleEngine} {passed left : List Pending} {pending : Pending}
      (queue : engine.ackQueue = passed ++ pending :: left)
      (unknown : getRule rules pending.entry.event.ruleId = none) :
      Action op engine { engine with ackQueue := passed ++ left } []

/-- An action hands over at most one message. -/
theorem Action.handed_le_one {op : Op} {engine next : RuleEngine} {handed : List Handed}
    (action : Action rules clock op engine next handed) :
    handed = [] ∨ ∃ out, handed = [out] := by
  cases action <;> simp

theorem Action.ticks_le {op : Op} {engine next : RuleEngine} {handed : List Handed}
    (action : Action rules clock op engine next handed) : engine.ticks ≤ next.ticks := by
  cases action <;> simp

/-- A sequence of actions and all they hand to the messenger. -/
inductive Actions (op : Op) : RuleEngine → RuleEngine → List Handed → Prop
  | done (engine : RuleEngine) : Actions op engine engine []
  | cons {first second third : RuleEngine} {handed rest : List Handed} :
      Action rules clock op first second handed → Actions op second third rest →
      Actions op first third (handed ++ rest)

variable {rules clock}

theorem Actions.single {op : Op} {first second : RuleEngine} {handed : List Handed}
    (action : Action rules clock op first second handed) :
    Actions rules clock op first second handed := by
  simpa using Actions.cons action (Actions.done second)

theorem Actions.trans {op : Op} {first second third : RuleEngine}
    {handed rest : List Handed} (before : Actions rules clock op first second handed)
    (after : Actions rules clock op second third rest) :
    Actions rules clock op first third (handed ++ rest) := by
  induction before with
  | done => exact after
  | cons action _ ih =>
      rw [List.append_assoc]
      exact Actions.cons action (ih after)

/-! ## Operations are sequences of actions -/

theorem takeAction_of_found {engine : RuleEngine} {pending : Pending} {rule : RuleInfo}
    (found : getRule rules pending.entry.event.ruleId = some rule) :
    takeAction rules clock engine pending =
      ({ engine with
          ruleTimestamps := engine.ruleTimestamps.set pending.entry.event.ruleId
            (clock.reading engine.ticks)
          ticks := engine.ticks + 2 },
        { pending with
          entry := pending.entry.attempt (clock.reading (engine.ticks + 1)) },
        [⟨pending.call, clock.reading engine.ticks,
          Messenger.sendAction rule.action.module
            (pending.entry.attempt (clock.reading (engine.ticks + 1)))⟩]) := by
  simp [takeAction, found]

theorem takeAction_of_unknown {engine : RuleEngine} {pending : Pending}
    (unknown : getRule rules pending.entry.event.ruleId = none) :
    takeAction rules clock engine pending = (engine, pending, []) := by
  simp [takeAction, unknown]

theorem enqueueEvent_actions {op : Op} (inCall : op ≠ .ackThread) (engine : RuleEngine)
    (entry : EventEntry) :
    Actions rules clock op engine (enqueueEvent rules clock engine entry).1
      (enqueueEvent rules clock engine entry).2 := by
  cases found : getRule rules entry.event.ruleId with
  | none =>
      simp only [enqueueEvent, found]
      exact Actions.single (.ignore found)
  | some rule =>
      simp only [enqueueEvent, found, checkConstraints]
      by_cases disabled : rule.isDisabled
      · simp only [disabled, if_true, Bool.false_eq_true, if_false]
        exact Actions.single (.reject found)
      · have enabled : rule.isDisabled = false := by simpa using disabled
        by_cases limited : 0 < rule.fireLimit
        · by_cases early : nextTrigger (engine.ruleTimestamps.getD entry.event.ruleId 0) rule >
              clock.reading engine.ticks
          · simp only [enabled, Bool.false_eq_true, if_false, gt_iff_lt, limited, if_true,
              gt_iff_lt.mp early, decide_true, Bool.not_true]
            exact Actions.cons (.read engine) (Actions.single (.reject found))
          · have inTime := not_lt.mp early
            simp only [enabled, Bool.false_eq_true, if_false, gt_iff_lt, limited, if_true,
              not_lt.mpr inTime, decide_false, Bool.not_false]
            rw [takeAction_of_found found]
            exact Actions.cons (.read engine) (Actions.single
              (.accept inCall found enabled (clock.reading_le (Nat.le_succ _))
                fun _ => inTime))
        · simp only [enabled, Bool.false_eq_true, if_false, gt_iff_lt, limited, if_true]
          rw [takeAction_of_found found]
          exact Actions.single
            (.accept inCall found enabled le_rfl fun positive => absurd positive limited)

theorem systemMessageLoop_actions {op : Op} (inCall : op ≠ .ackThread) (message : Str)
    (engine : RuleEngine) (left : List RuleInfo) :
    Actions rules clock op engine (systemMessageLoop rules clock message engine left).1
      (systemMessageLoop rules clock message engine left).2 := by
  induction left generalizing engine with
  | nil => exact Actions.done engine
  | cons rule left ih =>
      rw [systemMessageLoop]
      split
      · exact (enqueueEvent_actions inCall engine _).trans (ih _)
      · exact ih engine

theorem acceptAck_actions (engine : RuleEngine) (eventId : EventID) :
    Actions rules clock (.acceptAck eventId) engine (acceptAck rules clock engine eventId).1
      (acceptAck rules clock engine eventId).2 := by
  cases search : engine.ackQueue.find? (·.entry.id = eventId) with
  | none =>
      simp only [acceptAck, search]
      exact Actions.done engine
  | some pending =>
      obtain ⟨sameId, passed, left, queue, first⟩ :=
        List.find?_eq_some_iff_append.mp search
      have idEq : pending.entry.id = eventId := by simpa using sameId
      have others : ∀ other ∈ passed, other.entry.id ≠ pending.entry.id := by
        intro other member
        simpa [idEq] using first other member
      have erased : engine.ackQueue.eraseP (·.entry.id = eventId) = passed ++ left := by
        rw [queue, List.eraseP_append_right _ (by simpa [idEq] using others)]
        simp [idEq]
      simp only [acceptAck, search, erased]
      cases found : getRule rules pending.entry.event.ruleId with
      | none => exact Actions.single (.forget queue found)
      | some rule => exact Actions.single (.acknowledge (by rw [idEq]) queue others found)

theorem ackThreadLoop_actions (now : Timepoint) (engine : RuleEngine)
    (passed left : List Pending) (queue : engine.ackQueue = passed ++ left)
    (past : now ≤ clock.reading engine.ticks) :
    Actions rules clock .ackThread engine
      (ackThreadLoop rules clock now engine passed left).1
      (ackThreadLoop rules clock now engine passed left).2 := by
  induction left generalizing engine passed with
  | nil => exact Actions.done engine
  | cons pending left ih =>
      rw [ackThreadLoop]
      by_cases late : now - pending.entry.actionSent ≥ milliseconds ackTimeout
      · have due : pending.entry.actionSent + milliseconds ackTimeout ≤ now := by linarith
        rw [if_pos late]
        by_cases more : pending.entry.numTries.toNat ≤ numActionRetries
        · rw [if_pos more]
          cases found : getRule rules pending.entry.event.ruleId with
          | none =>
              rw [takeAction_of_unknown found]
              have unchanged : { engine with ackQueue := passed ++ pending :: left } =
                  engine := by rw [← queue]
              simp only [unchanged, List.nil_append]
              exact ih engine (passed ++ [pending]) (by simp [queue]) past
          | some rule =>
              rw [takeAction_of_found found]
              apply Actions.cons (.retry rfl queue found past due more)
              apply ih
              · simp
              · exact past.trans (clock.reading_le (Nat.le_add_right _ _))
        · rw [if_neg more]
          have noMore := not_le.mp more
          cases found : getRule rules pending.entry.event.ruleId with
          | none =>
              exact Actions.cons (.forget queue found) (ih _ passed rfl past)
          | some rule =>
              exact Actions.cons (.giveUp rfl queue found due noMore) (ih _ passed rfl past)
      · rw [if_neg late]
        exact ih engine (passed ++ [pending]) (by simp [queue]) past

/-- Every operation is a sequence of actions. -/
theorem step_actions (engine : RuleEngine) (op : Op) :
    Actions rules clock op engine ((machine rules clock).step engine op).1
      ((machine rules clock).step engine op).2 := by
  cases op with
  | enqueueEvent entry => exact enqueueEvent_actions (by simp) engine entry
  | systemMessage message => exact systemMessageLoop_actions (by simp) message engine rules
  | acceptAck eventId => exact acceptAck_actions engine eventId
  | ackThread =>
      exact Actions.cons (.read engine)
        (ackThreadLoop_actions _ _ [] _ rfl (clock.reading_le (Nat.le_succ _)))

/-! ## Invariants -/

/-- The run of a rule engine: its state and all it handed to the messenger. -/
abbrev EngineRun := Run RuleEngine Op Handed

/-- A run after one more action. -/
def after (op : Op) (run : EngineRun) (engine : RuleEngine) (handed : List Handed) :
    EngineRun :=
  ⟨engine, run.trace ++ handed.map fun out => (op, out)⟩

/-- A property of runs that holds of the new engine and is kept by every single
action holds of every run. -/
theorem run_invariant_of_action (holds : EngineRun → Prop)
    (initial : holds (machine rules clock).fresh)
    (preserved : ∀ op run engine handed,
      Action rules clock op run.state engine handed → holds run →
        holds (after op run engine handed))
    (ops : List Op) : holds ((machine rules clock).run ops) := by
  apply Machine.run_invariant _ initial
  intro run op inv
  have chain : ∀ {first second : RuleEngine} {handed : List Handed},
      Actions rules clock op first second handed → ∀ trace,
        holds ⟨first, trace⟩ → holds (after op ⟨first, trace⟩ second handed) := by
    intro first second handed actions
    induction actions with
    | done => intro trace inv; simpa [after] using inv
    | cons action _ ih =>
        intro trace inv
        have step := ih _ (preserved op ⟨_, trace⟩ _ _ action inv)
        simpa [after] using step
  exact chain (step_actions run.state op) run.trace inv

end Sentri.Core.RuleEngine
