import Sentri.Core.Messenger
import Sentri.LibModule.Rule
import Sentri.Number.Double
import Sentri.Transition.Machine

/-!
# The rule engine

The rule engine turns events into actions.  An accepted event waits in the
acknowledgement queue; its action is sent again when no acknowledgement came
in time, and given up after the last retry.

Every call of the clock takes the next reading.  What the messenger answers to
a send is never looked at, so a send is just an output.  Two history variables
are kept next to the members of the class: the number of clock readings taken
and the arguments of all calls of `enqueueEvent`.
-/

namespace Sentri.Core

open Sentri.LibModule Sentri.Number Sentri.Text Sentri.Transition

/-- Time without an acknowledgement after which an action is sent again, in
milliseconds. -/
def ackTimeout : Int :=
  60000

def numActionRetries : Nat :=
  3

def systemMessageKey : Str :=
  "system_message".toList

def systemMessageModule : Str :=
  "module_system_message".toList

/-- The fire limit of a rule in milliseconds:
`std::lround(rule.fire_limit * 1000.0)`, a `long` of 64 bits. -/
def fireLimitMs (rule : RuleInfo) : Int :=
  toLong (lround (roundToDouble (rule.fireLimit * 1000)))

/-- When the rule may trigger again: `rule_timestamps_[rule_id] + limit`, in nanoseconds of
64 bits. -/
def nextTrigger (timestamp : Timepoint) (rule : RuleInfo) : Timepoint :=
  nanoseconds (timestamp + nanoseconds (milliseconds (fireLimitMs rule)))

/-- An entry of the acknowledgement queue.  `call` identifies the heap object:
it is the number of the call of `enqueueEvent` that allocated it. -/
structure Pending where
  call : Nat
  entry : EventEntry
  deriving DecidableEq

/-- A message handed to the messenger, about the event of one call of
`enqueueEvent`.  The time of an action is the one the engine records for its
rule, the time of an abort after the last retry is the one at which the queue
was checked; for the other messages it is the last reading taken. -/
structure Handed where
  call : Nat
  time : Timepoint
  delivery : Delivery
  deriving DecidableEq

structure RuleEngine where
  ruleTimestamps : List Timepoint
  ackQueue : List Pending
  eventId : EventID
  /-- SteadyClock readings taken so far. -/
  ticks : Nat
  /-- Arguments of the calls of `enqueueEvent` so far. -/
  calls : List EventEntry

namespace RuleEngine

variable (rules : List RuleInfo) (clock : SteadyClock)

/-- The constructor. -/
def new : RuleEngine where
  ruleTimestamps := List.replicate rules.length 0
  ackQueue := []
  eventId := 0
  ticks := 0
  calls := []

/-- `none` stands for the `RuleNotFoundException`. -/
def getRule (id : RuleID) : Option RuleInfo :=
  rules[id]?

/-- The last clock reading taken. -/
def lastReading (engine : RuleEngine) : Timepoint :=
  clock.reading (engine.ticks - 1)

/-- Send the action of an entry to its action module. -/
def takeAction (engine : RuleEngine) (pending : Pending) :
    RuleEngine × Pending × List Handed :=
  match getRule rules pending.entry.event.ruleId with
  | none => (engine, pending, [])
  | some rule =>
      let triggered := clock.reading engine.ticks
      let entry := pending.entry.attempt (clock.reading (engine.ticks + 1))
      ({ engine with
          ruleTimestamps := engine.ruleTimestamps.set pending.entry.event.ruleId triggered
          ticks := engine.ticks + 2 },
        { pending with entry := entry },
        [⟨pending.call, triggered, Messenger.sendAction rule.action.module entry⟩])

/-- Is the rule enabled, and does its fire limit let it trigger?  The clock is
read only for an enabled rule with a limit. -/
def checkConstraints (engine : RuleEngine) (ruleId : RuleID) (rule : RuleInfo) :
    RuleEngine × Bool :=
  if rule.isDisabled then
    (engine, false)
  else if rule.fireLimit > 0 then
    let now := clock.reading engine.ticks
    ({ engine with ticks := engine.ticks + 1 },
      !decide (nextTrigger (engine.ruleTimestamps.getD ruleId 0) rule > now))
  else
    (engine, true)

def enqueueEvent (engine : RuleEngine) (entry : EventEntry) : RuleEngine × List Handed :=
  let call := engine.calls.length
  match getRule rules entry.event.ruleId with
  | none => ({ engine with calls := engine.calls ++ [entry] }, [])
  | some rule =>
      let (engine, trigger) := checkConstraints clock engine entry.event.ruleId rule
      let engine := { engine with calls := engine.calls ++ [entry] }
      if trigger then
        let pending : Pending := ⟨call, { entry with numTries := 0, id := engine.eventId }⟩
        let (engine, pending, handed) :=
          takeAction rules clock { engine with eventId := engine.eventId + 1 } pending
        ({ engine with ackQueue := engine.ackQueue ++ [pending] }, handed)
      else
        (engine, [⟨call, lastReading clock engine,
          Messenger.sendEventAbort rule.event.module entry⟩])

/-- Remove the first entry with the id and tell its event module. -/
def acceptAck (engine : RuleEngine) (eventId : EventID) : RuleEngine × List Handed :=
  match engine.ackQueue.find? (·.entry.id = eventId) with
  | none => (engine, [])
  | some pending =>
      ({ engine with ackQueue := engine.ackQueue.eraseP (·.entry.id = eventId) },
        match getRule rules pending.entry.event.ruleId with
        | none => []
        | some rule => [⟨pending.call, lastReading clock engine,
            Messenger.sendEventAck rule.event.module pending.entry⟩])

/-- The loop of the ack thread over the queue `passed ++ left`, with the
iterator at the head of `left`.  Entries are changed and erased in place. -/
def ackThreadLoop (now : Timepoint) (engine : RuleEngine) (passed : List Pending) :
    List Pending → RuleEngine × List Handed
  | [] => (engine, [])
  | pending :: left =>
      if now - pending.entry.actionSent ≥ milliseconds ackTimeout then
        if pending.entry.numTries.toNat ≤ numActionRetries then
          let (engine, pending, handed) := takeAction rules clock engine pending
          let engine := { engine with ackQueue := passed ++ pending :: left }
          let (engine, rest) := ackThreadLoop now engine (passed ++ [pending]) left
          (engine, handed ++ rest)
        else
          let engine := { engine with ackQueue := passed ++ left }
          let handed := match getRule rules pending.entry.event.ruleId with
            | none => []
            | some rule => [⟨pending.call, now,
                Messenger.sendEventAbort rule.event.module pending.entry⟩]
          let (engine, rest) := ackThreadLoop now engine passed left
          (engine, handed ++ rest)
      else
        ackThreadLoop now engine (passed ++ [pending]) left

/-- One pass of the ack thread, after its sleep. -/
def ackThread (engine : RuleEngine) : RuleEngine × List Handed :=
  let now := clock.reading engine.ticks
  ackThreadLoop rules clock now { engine with ticks := engine.ticks + 1 } [] engine.ackQueue

/-- The event that a system message is turned into. -/
def systemMessageEntry (ruleId : RuleID) (message : Str) : EventEntry where
  event := ⟨ruleId, snprintf msgVarSize (systemMessageKey ++ '=' :: message)⟩
  id := UInt64.ofNat ruleId
  actionSent := 0
  numTries := 0

/-- Enqueue a system message event for every rule about system messages. -/
def systemMessageLoop (message : Str) (engine : RuleEngine) :
    List RuleInfo → RuleEngine × List Handed
  | [] => (engine, [])
  | rule :: left =>
      if rule.event.module = systemMessageModule ∧ rule.event.key = systemMessageKey then
        let (engine, handed) := enqueueEvent rules clock engine
          (systemMessageEntry rule.id message)
        let (engine, rest) := systemMessageLoop message engine left
        (engine, handed ++ rest)
      else
        systemMessageLoop message engine left

def systemMessage (engine : RuleEngine) (message : Str) : RuleEngine × List Handed :=
  systemMessageLoop rules clock message engine rules

/-- What can happen to a rule engine. -/
inductive Op where
  | enqueueEvent (entry : EventEntry)
  | systemMessage (message : Str)
  | acceptAck (eventId : EventID)
  | ackThread
  deriving DecidableEq

/-- The rule engine over a rules vector and a clock. -/
def machine : Machine RuleEngine Op Handed where
  start := new rules
  step engine
    | .enqueueEvent entry => enqueueEvent rules clock engine entry
    | .systemMessage message => systemMessage rules clock engine message
    | .acceptAck eventId => acceptAck rules clock engine eventId
    | .ackThread => ackThread rules clock engine

end RuleEngine

end Sentri.Core
