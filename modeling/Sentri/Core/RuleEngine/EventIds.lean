import Sentri.Core.RuleEngine.RuleIds
import Sentri.Core.Sentri
import Mathlib.Data.List.Nodup

/-!
# Event ids on the wire

An accepted event gets the next value of the event counter, which no other
accepted event has.  The abort of a rejected event carries the id that the entry
came with: nothing for an event that was read, the id of the rule for a system
message.  The latter is never sent, so that the ids on the wire identify events
as long as no event of a module is rejected.
-/

namespace Sentri.Core

open Sentri.LibModule Sentri.Text Sentri.Transition

/-- What can happen to the core. -/
inductive Input where
  | readMessage (message : Message)
  /-- A system message of the core itself. -/
  | systemMessage (message : Str)
  | ackThread

/-- The operation of the rule engine that an input leads to. -/
def Input.engineOp? : Input → Option RuleEngine.Op
  | .readMessage message =>
      match Core.readMessage message with
      | .engine op => some op
      | _ => none
  | .systemMessage message => some (CoreLogger.systemMessage message)
  | .ackThread => some .ackThread

namespace RuleEngine

/-- The run of the rule engine in a run of the core. -/
def coreRun (rules : List RuleInfo) (clock : SteadyClock) (inputs : List Input) : EngineRun :=
  (machine rules clock).run (inputs.filterMap Input.engineOp?)

def eventIdOf (item : Op × Handed) : Option EventID :=
  item.2.delivery.message.action?.map ActionBody.eventId

/-- A final message of an event that the messenger sends to its module. -/
def isTerminal (item : Op × Handed) : Bool :=
  (item.2.delivery.message.type = .msgAckev ∨ item.2.delivery.message.type = .msgEvabt) ∧
    item.2.delivery.module ≠ systemMessageModule

def terminals (trace : List (Op × Handed)) : List (Op × Handed) :=
  trace.filter isTerminal

/-- The first action of an accepted event. -/
def isFirstAction (item : Op × Handed) : Bool :=
  item.2.delivery.message.type = .msgActio ∧ item.1 ≠ .ackThread

def firstActions (trace : List (Op × Handed)) : List (Op × Handed) :=
  trace.filter isFirstAction

/-- Event ids identify events. -/
structure Identified (trace : List (Op × Handed)) : Prop where
  /-- No two final messages carry the same id. -/
  unique : ((terminals trace).map eventIdOf).Nodup
  /-- The abort of an event without actions does not carry the id of an event
  with actions. -/
  reserved : ∀ abort ∈ terminals trace, abort.2.delivery.message.type = .msgEvabt →
    (∀ item ∈ trace, item.2.call = abort.2.call →
      item.2.delivery.message.type ≠ .msgActio) →
    ∀ action ∈ trace, action.2.delivery.message.type = .msgActio →
      eventIdOf action ≠ eventIdOf abort

/-- The core reads an event of a module that the constraints of its rule
reject. -/
def Refuses (rules : List RuleInfo) (clock : SteadyClock) (engine : RuleEngine) : Input → Prop
  | .readMessage (.msgEvent event) => ∃ rule, getRule rules event.ruleId = some rule ∧
      rule.event.module ≠ systemMessageModule ∧
      (checkConstraints clock engine event.ruleId rule).2 = false
  | _ => False

/-- No event of a module is rejected in the run. -/
def RefusesNothing (rules : List RuleInfo) (clock : SteadyClock) (inputs : List Input) : Prop :=
  Throughout (fun before input => ¬Refuses rules clock (coreRun rules clock before).state input)
    inputs

/-! ## Ids of accepted events -/

theorem mem_firstActions {trace : List (Op × Handed)} {item : Op × Handed} :
    item ∈ firstActions trace ↔ item ∈ trace ∧
      item.2.delivery.message.type = .msgActio ∧ item.1 ≠ .ackThread := by
  simp [firstActions, isFirstAction]

theorem firstActions_append (first second : List (Op × Handed)) :
    firstActions (first ++ second) = firstActions first ++ firstActions second := by
  simp [firstActions]

/-- Accepted events are numbered, and their entries and actions go back to them. -/
structure Numbered (run : EngineRun) : Prop where
  ids : (firstActions run.trace).map eventIdOf =
    (List.range (firstActions run.trace).length).map fun n => some (UInt64.ofNat n)
  next : run.state.eventId = UInt64.ofNat (firstActions run.trace).length
  queued : ∀ pending ∈ run.state.ackQueue, ∃ first ∈ firstActions run.trace,
    first.2.call = pending.call
  acted : ∀ item ∈ run.trace, item.2.delivery.message.type = .msgActio →
    ∃ first ∈ firstActions run.trace, first.2.call = item.2.call

namespace Numbered

variable {rules : List RuleInfo} {clock : SteadyClock} {run : EngineRun} {op : Op}

theorem initial : Numbered (machine rules clock).fresh where
  ids := rfl
  next := rfl
  queued := by simp [Machine.fresh, machine, new]
  acted := by simp [Machine.fresh]

/-- Everything but the first action of an event keeps the numbers. -/
theorem keep {engine : RuleEngine} {handed : List Handed} (numbered : Numbered run)
    (same : engine.eventId = run.state.eventId)
    (notFirst : ∀ out ∈ handed, isFirstAction (op, out) = false)
    (queue : ∀ pending ∈ engine.ackQueue, ∃ old ∈ run.state.ackQueue,
      old.call = pending.call)
    (about : ∀ out ∈ handed, out.delivery.message.type = .msgActio →
      ∃ old ∈ run.state.ackQueue, old.call = out.call) :
    Numbered (after op run engine handed) := by
  have firsts : firstActions (after op run engine handed).trace = firstActions run.trace := by
    have noAction : firstActions (handed.map fun out => (op, out)) = [] := by
      rw [firstActions, List.filter_eq_nil_iff]
      intro item member
      rcases List.mem_map.mp member with ⟨out, outMember, rfl⟩
      rw [notFirst out outMember]
      exact Bool.false_ne_true
    simp only [after, firstActions_append, noAction, List.append_nil]
  constructor
  · rw [firsts]
    exact numbered.ids
  · rw [firsts]
    exact same.trans numbered.next
  · rw [firsts]
    intro pending member
    rcases queue pending member with ⟨old, oldMember, callEq⟩
    rcases numbered.queued old oldMember with ⟨first, firstMember, firstCall⟩
    exact ⟨first, firstMember, firstCall.trans callEq⟩
  · rw [firsts]
    intro item member isAction
    rcases List.mem_append.mp member with old | fresh
    · exact numbered.acted item old isAction
    · rcases List.mem_map.mp fresh with ⟨out, outMember, rfl⟩
      rcases about out outMember isAction with ⟨pending, queued, callEq⟩
      rcases numbered.queued pending queued with ⟨first, firstMember, firstCall⟩
      exact ⟨first, firstMember, firstCall.trans callEq⟩

/-- The first action of an event takes the next number. -/
theorem number {engine : RuleEngine} {out : Handed} {pending : Pending}
    (numbered : Numbered run) (inCall : op ≠ .ackThread)
    (isAction : out.delivery.message.type = .msgActio)
    (id : eventIdOf (op, out) = some run.state.eventId)
    (next : engine.eventId = run.state.eventId + 1)
    (queue : engine.ackQueue = run.state.ackQueue ++ [pending])
    (about : out.call = pending.call) :
    Numbered (after op run engine [out]) := by
  have firsts : firstActions (after op run engine [out]).trace =
      firstActions run.trace ++ [(op, out)] := by
    have one : firstActions [(op, out)] = [(op, out)] := by
      simp [firstActions, isFirstAction, isAction, inCall]
    rw [after, List.map_singleton, firstActions_append, one]
  constructor
  · rw [firsts, List.map_append, numbered.ids, List.length_append, List.length_singleton,
      List.range_succ, List.map_append, List.map_singleton, List.map_singleton, id, numbered.next]
  · rw [firsts, List.length_append, List.length_singleton, UInt64.ofNat_add, ← numbered.next]
    exact next
  · intro other member
    change other ∈ engine.ackQueue at member
    rw [firsts]
    rw [queue] at member
    rcases List.mem_append.mp member with old | fresh
    · rcases numbered.queued other old with ⟨first, firstMember, callEq⟩
      exact ⟨first, List.mem_append_left _ firstMember, callEq⟩
    · rw [List.mem_singleton.mp fresh]
      exact ⟨(op, out), by simp, about⟩
  · intro item member itemAction
    rw [firsts]
    rcases List.mem_append.mp member with old | fresh
    · rcases numbered.acted item old itemAction with ⟨first, firstMember, callEq⟩
      exact ⟨first, List.mem_append_left _ firstMember, callEq⟩
    · rw [List.mem_singleton.mp fresh]
      exact ⟨(op, out), by simp, rfl⟩

theorem step {engine : RuleEngine} {handed : List Handed}
    (action : Action rules clock op run.state engine handed) (numbered : Numbered run) :
    Numbered (after op run engine handed) := by
  cases action with
  | read =>
      refine numbered.keep rfl ?_ ?_ ?_
      · simp
      · exact fun pending member => ⟨pending, member, rfl⟩
      · simp
  | ignore =>
      refine numbered.keep rfl ?_ ?_ ?_
      · simp
      · exact fun pending member => ⟨pending, member, rfl⟩
      · simp
  | reject =>
      refine numbered.keep rfl ?_ ?_ ?_
      · simp [isFirstAction, Messenger.sendEventAbort, Message.type]
      · exact fun pending member => ⟨pending, member, rfl⟩
      · simp [Messenger.sendEventAbort, Message.type]
  | accept inCall => exact numbered.number inCall rfl rfl rfl rfl rfl
  | @retry passed left pending rule now inPass queue =>
      have waiting : pending ∈ run.state.ackQueue := by simp [queue]
      refine numbered.keep rfl ?_ ?_ ?_
      · simp [isFirstAction, inPass]
      · intro other member
        rcases List.mem_append.mp member with before | rest
        · exact ⟨other, by simp [queue, before], rfl⟩
        · rcases List.mem_cons.mp rest with moved | behind
          · exact ⟨pending, waiting, by rw [moved]⟩
          · exact ⟨other, by simp [queue, behind], rfl⟩
      · intro out member _
        rw [List.mem_singleton.mp member]
        exact ⟨pending, waiting, rfl⟩
  | @giveUp passed left pending rule now inPass queue =>
      refine numbered.keep rfl ?_ ?_ ?_
      · simp [isFirstAction, inPass]
      · intro other member
        refine ⟨other, ?_, rfl⟩
        rw [queue]
        exact (List.Sublist.append_left (List.sublist_cons_self _ _) _).subset member
      · simp [Messenger.sendEventAbort, Message.type]
  | @acknowledge passed left pending rule inAck queue =>
      refine numbered.keep rfl ?_ ?_ ?_
      · simp [isFirstAction, Messenger.sendEventAck, Message.type]
      · intro other member
        refine ⟨other, ?_, rfl⟩
        rw [queue]
        exact (List.Sublist.append_left (List.sublist_cons_self _ _) _).subset member
      · simp [Messenger.sendEventAck, Message.type]
  | @forget passed left pending queue =>
      refine numbered.keep rfl ?_ ?_ ?_
      · simp
      · intro other member
        refine ⟨other, ?_, rfl⟩
        rw [queue]
        exact (List.Sublist.append_left (List.sublist_cons_self _ _) _).subset member
      · simp

end Numbered

theorem numbered_run (rules : List RuleInfo) (clock : SteadyClock) (ops : List Op) :
    Numbered ((machine rules clock).run ops) :=
  run_invariant_of_action _ Numbered.initial (fun _ _ _ _ action => Numbered.step action) ops

/-- With less than 2⁶⁴ accepted events, the id of an action tells its event. -/
theorem Numbered.call_of_id {run : EngineRun} (numbered : Numbered run)
    (few : (firstActions run.trace).length < 2 ^ 64) {first second : Op × Handed}
    (firstMember : first ∈ firstActions run.trace)
    (secondMember : second ∈ firstActions run.trace)
    (same : eventIdOf first = eventIdOf second) : first = second := by
  have distinct : ((firstActions run.trace).map eventIdOf).Nodup := by
    rw [numbered.ids]
    apply List.Nodup.map_on _ List.nodup_range
    have bound : ∀ n ∈ List.range (firstActions run.trace).length, n < UInt64.size :=
      fun n member => (List.mem_range.mp member).trans few
    intro m mMember n nMember equal
    have ids := congrArg UInt64.toNat (Option.some.inj equal)
    rwa [UInt64.toNat_ofNat_of_lt' (bound m mMember),
      UInt64.toNat_ofNat_of_lt' (bound n nMember)] at ids
  exact List.inj_on_of_nodup_map distinct firstMember secondMember same

/-! ## Final messages -/

theorem mem_terminals {trace : List (Op × Handed)} {item : Op × Handed} :
    item ∈ terminals trace ↔ item ∈ trace ∧
      (item.2.delivery.message.type = .msgAckev ∨ item.2.delivery.message.type = .msgEvabt) ∧
      item.2.delivery.module ≠ systemMessageModule := by
  simp [terminals, isTerminal]

/-- Every event has at most one final message. -/
theorem terminals_calls_nodup (rules : List RuleInfo) (clock : SteadyClock) (ops : List Op) :
    ((terminals ((machine rules clock).run ops).trace).map fun item => item.2.call).Nodup := by
  have tracks := tracks_run rules clock ops
  have consistent := consistent_run rules clock ops
  generalize (machine rules clock).run ops = run at tracks consistent ⊢
  rw [List.nodup_iff_count_le_one]
  intro call
  have counted : ((terminals run.trace).map fun item => item.2.call).count call =
      ((history call run.trace).filter isTerminal).length := by
    rw [List.count_eq_length_filter, List.filter_map, List.length_map, terminals, history,
      List.filter_comm]
    congr 1
  rw [counted]
  by_cases about : history call run.trace = []
  · simp [about]
  · rcases List.exists_mem_of_ne_nil _ about with ⟨item, member⟩
    rcases mem_history.mp member with ⟨inTrace, rfl⟩
    rcases consistent.about item inTrace with ⟨entry, rule, body, about⟩
    have known := (List.getElem?_eq_some_iff.mp about.found).1
    rcases tracks.accepted_history consistent about.called known with
      ⟨only, single, _⟩ | ⟨id, actions, final, parts, shape, _⟩
    · rw [single]
      exact List.length_filter_le _ _
    · have noTerminal : actions.filter isTerminal = [] := by
        rw [List.filter_eq_nil_iff]
        intro action actionMember
        simp [isTerminal, shape.areActions action actionMember]
      rw [parts, List.filter_append, noTerminal, List.nil_append]
      exact (List.length_filter_le _ _).trans shape.oneFinal

/-- A message of `enqueueEvent` is an action, or an abort when the constraints
reject the event. -/
theorem enqueueEvent_handed {rules : List RuleInfo} {clock : SteadyClock} {engine : RuleEngine}
    {entry : EventEntry} {out : Handed}
    (member : out ∈ (enqueueEvent rules clock engine entry).2) :
    out.delivery.message.type = .msgActio ∨
    ∃ rule, getRule rules entry.event.ruleId = some rule ∧
      (checkConstraints clock engine entry.event.ruleId rule).2 = false ∧
      out.delivery.module = rule.event.module := by
  unfold enqueueEvent at member
  cases found : getRule rules entry.event.ruleId with
  | none => simp [found] at member
  | some rule =>
      by_cases trigger :
          (checkConstraints clock engine entry.event.ruleId rule).2 = true
      · left
        simp only [found, trigger, if_true] at member
        rw [takeAction_of_found found] at member
        rw [List.mem_singleton.mp member]
        rfl
      · right
        simp only [found, trigger, Bool.false_eq_true, if_false] at member
        rw [List.mem_singleton.mp member]
        exact ⟨rule, rfl, by simpa using trigger, rfl⟩

/-- The aborts of system messages are for no module. -/
theorem systemMessageLoop_handed {rules : List RuleInfo} {clock : SteadyClock} {message : Str}
    {left : List RuleInfo} (own : ∀ rule ∈ left, getRule rules rule.id = some rule)
    {engine : RuleEngine} {out : Handed}
    (member : out ∈ (systemMessageLoop rules clock message engine left).2) :
    out.delivery.message.type = .msgActio ∨ out.delivery.module = systemMessageModule := by
  induction left generalizing engine with
  | nil => simp [systemMessageLoop] at member
  | cons rule left ih =>
      have later : ∀ other ∈ left, getRule rules other.id = some other :=
        fun other otherMember => own other (List.mem_cons_of_mem _ otherMember)
      rw [systemMessageLoop] at member
      split at member
      · next about =>
          rcases List.mem_append.mp member with now | rest
          · rcases enqueueEvent_handed now with isAction | ⟨found, foundEq, _, module⟩
            · exact Or.inl isAction
            · have same : found = rule := by
                have present := own rule List.mem_cons_self
                rw [show (systemMessageEntry rule.id message).event.ruleId = rule.id from rfl,
                  present] at foundEq
                exact (Option.some.inj foundEq).symm
              rw [same, about.1] at module
              exact Or.inr module
          · exact ih later rest
      · exact ih later member

/-- A message of `acceptAck` is about an entry of the queue. -/
theorem acceptAck_handed {rules : List RuleInfo} {clock : SteadyClock} {engine : RuleEngine}
    {eventId : EventID} {out : Handed}
    (member : out ∈ (acceptAck rules clock engine eventId).2) :
    ∃ pending ∈ engine.ackQueue, out.call = pending.call := by
  unfold acceptAck at member
  cases search : engine.ackQueue.find? (·.entry.id = eventId) with
  | none => simp [search] at member
  | some pending =>
      refine ⟨pending, List.mem_of_find?_eq_some search, ?_⟩
      simp only [search] at member
      split at member
      · simp at member
      · rw [List.mem_singleton.mp member]

/-- A message of the ack thread is about an entry of the queue. -/
theorem ackThreadLoop_handed {rules : List RuleInfo} {clock : SteadyClock} {now : Timepoint}
    {engine : RuleEngine} {passed left : List Pending} {out : Handed}
    (member : out ∈ (ackThreadLoop rules clock now engine passed left).2) :
    ∃ pending ∈ left, out.call = pending.call := by
  induction left generalizing engine passed with
  | nil => simp [ackThreadLoop] at member
  | cons pending left ih =>
      have later : (∃ other ∈ left, out.call = other.call) →
          ∃ other ∈ pending :: left, out.call = other.call := by
        rintro ⟨other, otherMember, callEq⟩
        exact ⟨other, List.mem_cons_of_mem _ otherMember, callEq⟩
      have first : out.call = pending.call → ∃ other ∈ pending :: left, out.call = other.call :=
        fun callEq => ⟨pending, List.mem_cons_self, callEq⟩
      rw [ackThreadLoop] at member
      by_cases late : now - pending.entry.actionSent ≥ milliseconds ackTimeout
      · rw [if_pos late] at member
        by_cases more : pending.entry.numTries.toNat ≤ numActionRetries
        · rw [if_pos more] at member
          rcases List.mem_append.mp member with now | rest
          · apply first
            cases found : getRule rules pending.entry.event.ruleId with
            | none => simp [takeAction_of_unknown found] at now
            | some rule =>
                rw [takeAction_of_found found] at now
                rw [List.mem_singleton.mp now]
          · exact later (ih rest)
        · rw [if_neg more] at member
          rcases List.mem_append.mp member with now | rest
          · apply first
            split at now
            · simp at now
            · rw [List.mem_singleton.mp now]
          · exact later (ih rest)
      · rw [if_neg late] at member
        exact later (ih member)

/-- A final message that is sent while nothing is refused is about an entry of the queue. -/
theorem terminal_queued {rules : List RuleInfo} {clock : SteadyClock} {engine : RuleEngine}
    (positions : ∀ rule ∈ rules, getRule rules rule.id = some rule) {input : Input} {op : Op}
    (engineOp : input.engineOp? = some op) (accepted : ¬ Refuses rules clock engine input)
    {out : Handed} (member : out ∈ ((machine rules clock).step engine op).2)
    (noAction : out.delivery.message.type ≠ .msgActio)
    (sent : out.delivery.module ≠ systemMessageModule) :
    ∃ pending ∈ engine.ackQueue, out.call = pending.call := by
  cases op with
  | enqueueEvent entry =>
      rcases enqueueEvent_handed member with isAction | ⟨rule, found, rejected, module⟩
      · exact absurd isAction noAction
      · exfalso
        cases input with
        | systemMessage message => simp [Input.engineOp?, CoreLogger.systemMessage] at engineOp
        | ackThread => simp [Input.engineOp?] at engineOp
        | readMessage message =>
            cases message with
            | msgEvent event =>
                obtain rfl : EventEntry.mk event 0 0 0 = entry := by
                  simpa [Input.engineOp?, readMessage] using engineOp
                refine accepted ⟨rule, found, ?_, rejected⟩
                rw [← module]
                exact sent
            | _ => simp [Input.engineOp?, readMessage, unknownMessageType] at engineOp
  | systemMessage message =>
      rcases systemMessageLoop_handed positions member with isAction | unsent
      · exact absurd isAction noAction
      · exact absurd unsent sent
  | acceptAck eventId => exact acceptAck_handed member
  | ackThread => exact ackThreadLoop_handed member

/-- In a run that refuses nothing, the final messages are about accepted
events. -/
theorem terminals_accepted {rules : List RuleInfo} {clock : SteadyClock} {inputs : List Input}
    (positions : ∀ rule ∈ rules, getRule rules rule.id = some rule)
    (nothing : RefusesNothing rules clock inputs) :
    ∀ item ∈ terminals (coreRun rules clock inputs).trace,
      ∃ first ∈ firstActions (coreRun rules clock inputs).trace,
        first.2.call = item.2.call := by
  induction inputs using List.reverseRecOn with
  | nil => simp [coreRun, Machine.fresh, terminals]
  | append_singleton inputs input ih =>
      rcases nothing.of_concat with ⟨earlier, now⟩
      have numbered := numbered_run rules clock (inputs.filterMap Input.engineOp?)
      cases engineOp : input.engineOp? with
      | none =>
          have same : coreRun rules clock (inputs ++ [input]) = coreRun rules clock inputs := by
            simp [coreRun, engineOp]
          rw [same]
          exact ih earlier
      | some op =>
          have next : coreRun rules clock (inputs ++ [input]) =
              (machine rules clock).extend (coreRun rules clock inputs) op := by
            simp [coreRun, engineOp]
          rw [next, Machine.extend_trace]
          intro item member
          rw [firstActions_append]
          rcases mem_terminals.mp member with ⟨inTrace, terminal, sent⟩
          rcases List.mem_append.mp inTrace with old | new
          · obtain ⟨first, firstMember, callEq⟩ := ih earlier item
              (mem_terminals.mpr ⟨old, terminal, sent⟩)
            exact ⟨first, List.mem_append_left _ firstMember, callEq⟩
          · rcases List.mem_map.mp new with ⟨out, outMember, rfl⟩
            have noAction : out.delivery.message.type ≠ .msgActio := by
              intro isAction
              simp [isAction] at terminal
            rcases terminal_queued positions engineOp now outMember noAction sent with
              ⟨pending, waiting, callEq⟩
            rcases numbered.queued pending waiting with ⟨first, firstMember, firstCall⟩
            exact ⟨first, List.mem_append_left _ firstMember, firstCall.trans callEq.symm⟩

/-- The ids on the wire identify events in every run of the core that has read
its rules, accepts less than 2⁶⁴ events and rejects no event of a module. -/
theorem event_ids_identify (core : ConfigLoader) (rules : List RuleInfo) (clock : SteadyClock)
    (inputs : List Input) (loaded : core.getRules ConfigLoader.mainName = .ok rules)
    (few : (firstActions (coreRun rules clock inputs).trace).length < 2 ^ 64)
    (nothing : RefusesNothing rules clock inputs) :
    Identified (coreRun rules clock inputs).trace := by
  have positions : ∀ rule ∈ rules, getRule rules rule.id = some rule := by
    intro rule member
    rcases List.mem_iff_getElem?.mp member with ⟨k, present⟩
    rw [ConfigLoader.id_of_loaded loaded present]
    exact present
  have accepted := terminals_accepted positions nothing
  have calls := terminals_calls_nodup rules clock (inputs.filterMap Input.engineOp?)
  have numbered := numbered_run rules clock (inputs.filterMap Input.engineOp?)
  have consistent := consistent_run rules clock (inputs.filterMap Input.engineOp?)
  constructor
  · apply List.Nodup.map_on _ (List.Nodup.of_map _ calls)
    intro item itemMember other otherMember same
    rcases accepted item itemMember with ⟨first, firstMember, firstCall⟩
    rcases accepted other otherMember with ⟨second, secondMember, secondCall⟩
    have idOf : ∀ {action final : Op × Handed},
        action ∈ firstActions (coreRun rules clock inputs).trace →
        final ∈ terminals (coreRun rules clock inputs).trace →
        action.2.call = final.2.call → eventIdOf action = eventIdOf final := by
      intro action final actionMember finalMember callEq
      rw [eventIdOf, eventIdOf, consistent.agree action (mem_firstActions.mp actionMember).1
        final (mem_terminals.mp finalMember).1 callEq]
    have ids : eventIdOf first = eventIdOf second := by
      rw [idOf firstMember itemMember firstCall, idOf secondMember otherMember secondCall, same]
    have equal := numbered.call_of_id few firstMember secondMember ids
    refine List.inj_on_of_nodup_map calls itemMember otherMember ?_
    rw [← firstCall, ← secondCall, equal]
  · intro abort member _ noAction
    rcases accepted abort member with ⟨first, firstMember, callEq⟩
    rcases mem_firstActions.mp firstMember with ⟨inTrace, isAction, _⟩
    exact absurd isAction (noAction first inTrace callEq)

/-! ## A rejected event -/

/-- The input of the events of the first rule. -/
def motionInput : Input :=
  .readMessage (.msgEvent motionEvent.event)

/-- Two events of modules and two system messages, the second of which is rejected, and all
acknowledgements. -/
def houseInputs : List Input :=
  [.readMessage (.msgEvent (eventOf 0).event), .readMessage (.msgEvent (eventOf 1).event),
    .systemMessage "up".toList, .systemMessage "up".toList, .readMessage (.msgAckac 1),
    .readMessage (.msgAckac 0), .readMessage (.msgAckac 2)]

/-- The answers carry the ids of their events; the abort of the rejected system message,
which is not sent, carries the id of the first one. -/
theorem event_ids_identify_house :
    let run := coreRun houseRules (SteadyClock.ofList 100000000000 []) houseInputs
    Identified run.trace ∧ (terminals run.trace).map eventIdOf = [some 1, some 0] ∧
      (firstActions run.trace).map eventIdOf = [some 0, some 1, some 2] ∧
      ∃ item ∈ run.trace, item.2.delivery.message.type = .msgEvabt ∧ eventIdOf item = some 2 := by
  intro run
  have calm : ∀ (engine : RuleEngine) (event : Event), event.ruleId < 2 →
      ¬ Refuses houseRules (SteadyClock.ofList 100000000000 []) engine
        (.readMessage (.msgEvent event)) := by
    rintro engine event small ⟨rule, found, _, rejected⟩
    have unlimited : rule.isDisabled = false ∧ ¬ rule.fireLimit > 0 := by
      have first : event.ruleId = 0 ∨ event.ruleId = 1 :=
        Nat.le_one_iff_eq_zero_or_eq_one.mp (Nat.lt_succ_iff.mp small)
      rcases first with zero | one
      · rw [zero] at found
        obtain rfl := Option.some.inj found
        decide +kernel
      · rw [one] at found
        obtain rfl := Option.some.inj found
        decide +kernel
    simp [checkConstraints, unlimited] at rejected
  have nothing : RefusesNothing houseRules (SteadyClock.ofList 100000000000 [])
      ([] ++ [.readMessage (.msgEvent (eventOf 0).event)] ++
        [.readMessage (.msgEvent (eventOf 1).event)] ++ [.systemMessage "up".toList] ++
        [.systemMessage "up".toList] ++ [.readMessage (.msgAckac 1)] ++
        [.readMessage (.msgAckac 0)] ++ [.readMessage (.msgAckac 2)]) :=
    ((((((Throughout.nil.concat (calm _ _ (by decide))).concat (calm _ _ (by decide))).concat
      id).concat id).concat id).concat id).concat id
  refine ⟨event_ids_identify houseLoader houseRules (SteadyClock.ofList 100000000000 [])
    houseInputs rfl (by decide +kernel) nothing, by decide +kernel, by decide +kernel, ?_⟩
  decide +kernel

/-- The motion rule, at most once in ten seconds. -/
def limitedDocument : Json.Object :=
  [("rules".toList, .array [.object
    [("title".toList, .string "motion".toList),
      ("event".toList, .object [("module".toList, .string "module_video".toList),
        ("key".toList, .string "motion".toList), ("configuration".toList, .array [])]),
      ("action".toList, .object [("module".toList, .string "module_sms".toList),
        ("key".toList, .string "send".toList), ("configuration".toList, .array [])]),
      ("constraints".toList, .object [("fire_limit".toList, .number 10)])]])]

/-- The abort of the second of two events carries the id of the first one, whose
acknowledgement is still to come. -/
theorem rejected_event_takes_id :
    let loader : ConfigLoader := ⟨"rules.conf".toList, limitedDocument⟩
    let rules := [motionRule (Number.roundToDouble 10)]
    let run := coreRun rules (SteadyClock.ofList 20000000000 [])
      [motionInput, motionInput, .readMessage (.msgAckac 0)]
    loader.getRules ConfigLoader.mainName = .ok rules ∧
      (firstActions run.trace).length < 2 ^ 64 ∧ ¬ Identified run.trace := by
  refine ⟨rfl, by decide +kernel, ?_⟩
  intro identified
  have unique := identified.unique
  revert unique
  decide +kernel

end RuleEngine

end Sentri.Core
