import Mathlib.Logic.Function.Basic
import Sentri.Core.RuleEngine.EventIds
import Sentri.Core.Sentri

/-!
# The rule engine and the action modules

The rule engine and the action modules run side by side, joined by message queues.  A
message gets lost when its queue is full or when the flood protection holds it back; what
is not lost arrives in order.  The process of a module may be killed at any moment, and
the watchdog starts a new one that finds the messages still waiting.
-/

namespace Sentri.Modules

open Sentri.Core Sentri.LibModule Sentri.Text Sentri.Transition

universe u

/-! ## Queues that lose messages -/

/-- The items whose position passes. -/
def passing {α : Type u} (passes : Nat → Bool) : List α → List α
  | [] => []
  | item :: left =>
      let rest := passing (fun n => passes (n + 1)) left
      if passes 0 then item :: rest else rest

theorem passing_sublist {α : Type u} (passes : Nat → Bool) (items : List α) :
    (passing passes items).Sublist items := by
  induction items generalizing passes with
  | nil => exact List.Sublist.refl []
  | cons item left ih =>
      simp only [passing]
      split
      · exact (ih _).cons_cons item
      · exact (ih _).cons item

/-! ## Action modules -/

/-- An action module.  Without a next state its process has ended. -/
structure Agent where
  State : Type
  Output : Type
  name : Str
  react : State → Message → Option State × List Output
  /-- The message that an output puts into the queue of the core. -/
  message? : Output → Option Message
  /-- Does the output complete the action? -/
  completes : Output → Bool

/-- The module acknowledges an event only after it has completed its action. -/
def Agent.Honest (agent : Agent) : Prop :=
  ∀ state message before output after id,
    (agent.react state message).2 = before ++ output :: after →
    agent.message? output = some (.msgAckac id) →
    ∃ body, message = .msgActio body ∧ body.eventId = id ∧
      ∃ earlier ∈ before, agent.completes earlier = true

/-- The module never acknowledges anything. -/
def Agent.Mute (agent : Agent) : Prop :=
  ∀ state message, ∀ output ∈ (agent.react state message).2, ∀ id,
    agent.message? output ≠ some (.msgAckac id)

theorem Agent.Mute.honest {agent : Agent} (mute : agent.Mute) : agent.Honest := by
  rintro state message before output after id whole isAck
  have member : output ∈ (agent.react state message).2 := by
    rw [whole]
    exact List.mem_append_right _ List.mem_cons_self
  exact absurd isAck (mute state message output member id)

theorem prefix_of_notMem {α : Type u} {first rest before after : List α} {item : α}
    (whole : first ++ rest = before ++ item :: after) (notIn : item ∉ first) :
    first <+: before := by
  rcases List.append_eq_append_iff.mp whole with ⟨more, rfl, _⟩ | ⟨more, rfl, tail⟩
  · exact List.prefix_append first more
  · cases more with
    | nil =>
        rw [List.append_nil]
    | cons head more =>
        rw [List.cons_append] at tail
        obtain ⟨rfl, _⟩ := List.cons.inj tail
        exact absurd (List.mem_append_right _ List.mem_cons_self) notIn

/-- The outputs of an honest module: first there are no acknowledgements, then those for
what was completed. -/
theorem Agent.honest_of_parts {agent : Agent}
    (parts : ∀ state message, ∃ first rest, (agent.react state message).2 = first ++ rest ∧
      (∀ output ∈ first, ∀ id, agent.message? output ≠ some (.msgAckac id)) ∧
      ∀ output ∈ rest, ∀ id, agent.message? output = some (.msgAckac id) →
        ∃ body, message = .msgActio body ∧ body.eventId = id ∧
          ∃ earlier ∈ first, agent.completes earlier = true) : agent.Honest := by
  rintro state message before output after id whole isAck
  rcases parts state message with ⟨first, rest, equal, quiet, answers⟩
  have notIn : output ∉ first := fun member => quiet output member id isAck
  have member : output ∈ first ++ rest := by
    rw [← equal, whole]
    exact List.mem_append_right _ List.mem_cons_self
  rcases answers output ((List.mem_append.mp member).resolve_left notIn) id isAck with
    ⟨body, isAction, same, earlier, earlierMember, completes⟩
  have isPrefix := prefix_of_notMem (equal.symm.trans whole) notIn
  exact ⟨body, isAction, same, earlier, isPrefix.subset earlierMember, completes⟩

variable {ι : Type} {agent : ι → Agent}

/-- The rule engine, the processes of the modules that are running, and the queues. -/
structure Office (agent : ι → Agent) where
  engine : RuleEngine
  modules : ∀ i, Option (agent i).State
  toModule : ι → List Message
  toCore : List Message

/-- What happens next. -/
inductive Office.Act (agent : ι → Agent) where
  | enqueueEvent (entry : EventEntry)
  | systemMessage (text : Str)
  | ackThread
  /-- The core reads the next message of its queue. -/
  | readMessage
  /-- A module reads the next message of its queue.  It may be killed after some of its
  outputs. -/
  | handleMessage (i : ι) (killed : Option Nat)
  /-- The watchdog starts the process of a module. -/
  | spawnModule (i : ι) (state : (agent i).State)

/-- An act, and which of its messages pass. -/
structure Office.Op (agent : ι → Agent) where
  act : Office.Act agent
  passes : Nat → Bool

/-- What can be seen of an act. -/
inductive Office.Event (agent : ι → Agent) where
  /-- A message that the rule engine hands to the messenger. -/
  | handed (op : RuleEngine.Op) (item : Handed)
  | received (i : ι) (message : Message)
  /-- An output of a module, with the message it handles. -/
  | output (i : ι) (cause : Message) (output : (agent i).Output)

namespace Office

/-- The handed messages that are for a module. -/
def forModule (name : Str) (handed : List Handed) : List Message :=
  handed.filterMap fun item =>
    if item.delivery.module = name then some item.delivery.message else none

variable (rules : List RuleInfo) (clock : SteadyClock) (passes : Nat → Bool)

def engineStep (office : Office agent) (op : RuleEngine.Op) :
    Office agent × List (Event agent) :=
  let (engine, handed) := (RuleEngine.machine rules clock).step office.engine op
  ({ office with
      engine := engine
      toModule := fun i =>
        office.toModule i ++ forModule (agent i).name (passing passes handed) },
    handed.map (.handed op))

def readCore (office : Office agent) : Office agent × List (Event agent) :=
  match office.toCore with
  | [] => (office, [])
  | message :: left =>
      match readMessage message with
      | .engine op => engineStep rules clock passes { office with toCore := left } op
      | _ => ({ office with toCore := left }, [])

/-- A reaction, of which nothing but the first outputs may be left. -/
def reaction (i : ι) (state : (agent i).State) (message : Message) (killed : Option Nat) :
    Option (agent i).State × List (agent i).Output :=
  match killed with
  | none => (agent i).react state message
  | some n => (none, ((agent i).react state message).2.take n)

variable [DecidableEq ι]

def handleMessage (office : Office agent) (i : ι) (killed : Option Nat) :
    Office agent × List (Event agent) :=
  match office.modules i, office.toModule i with
  | some state, message :: left =>
      let (next, outputs) := reaction i state message killed
      ({ office with
          modules := Function.update office.modules i next
          toModule := Function.update office.toModule i left
          toCore := office.toCore ++ passing passes (outputs.filterMap (agent i).message?) },
        .received i message :: outputs.map (.output i message))
  | _, _ => (office, [])

def spawnModule (office : Office agent) (i : ι) (state : (agent i).State) : Office agent :=
  { office with modules := Function.update office.modules i (some state) }

end Office

/-- The rule engine and its action modules, before any module is started. -/
def office [DecidableEq ι] (agent : ι → Agent) (rules : List RuleInfo) (clock : SteadyClock) :
    Machine (Office agent) (Office.Op agent) (Office.Event agent) where
  start :=
    { engine := RuleEngine.new rules
      modules := fun _ => none
      toModule := fun _ => []
      toCore := [] }
  step state op :=
    match op.act with
    | .enqueueEvent entry => state.engineStep rules clock op.passes (.enqueueEvent entry)
    | .systemMessage text => state.engineStep rules clock op.passes (.systemMessage text)
    | .ackThread => state.engineStep rules clock op.passes .ackThread
    | .readMessage => state.readCore rules clock op.passes
    | .handleMessage i killed => state.handleMessage op.passes i killed
    | .spawnModule i next => (state.spawnModule i next, [])

/-! ## What an act can do -/

namespace Office

variable {rules : List RuleInfo} {clock : SteadyClock} {passes : Nat → Bool}
  {state next : Office agent}
  {events : List (Event agent)} [DecidableEq ι]

/-- An act, with its guards. -/
inductive Acts (rules : List RuleInfo) (clock : SteadyClock) (passes : Nat → Bool)
    (state : Office agent) : Office agent → List (Event agent) → Prop
  | nothing : Acts rules clock passes state state []
  | engine (op : RuleEngine.Op) (own : ∀ id, op ≠ .acceptAck id) :
      Acts rules clock passes state (state.engineStep rules clock passes op).1
        (state.engineStep rules clock passes op).2
  | read {message : Message} {left : List Message} {op : RuleEngine.Op}
      (queue : state.toCore = message :: left) (isOp : readMessage message = .engine op) :
      Acts rules clock passes state
        (engineStep rules clock passes { state with toCore := left } op).1
        (engineStep rules clock passes { state with toCore := left } op).2
  | skip {message : Message} {left : List Message} (queue : state.toCore = message :: left) :
      Acts rules clock passes state { state with toCore := left } []
  | handle (i : ι) {running : (agent i).State} {message : Message} {left : List Message}
      (queue : state.toModule i = message :: left) (after : Option (agent i).State)
      {outputs : List (agent i).Output}
      (isPrefix : outputs <+: ((agent i).react running message).2) :
      Acts rules clock passes state
        { state with
          modules := Function.update state.modules i after
          toModule := Function.update state.toModule i left
          toCore := state.toCore ++ passing passes (outputs.filterMap (agent i).message?) }
        (.received i message :: outputs.map (.output i message))
  | spawn (i : ι) (fresh : (agent i).State) :
      Acts rules clock passes state (state.spawnModule i fresh) []

theorem readCore_acts : state.Acts rules clock passes (state.readCore rules clock passes).1
    (state.readCore rules clock passes).2 := by
  unfold readCore
  split
  · exact .nothing
  · rename_i message left queue
    split
    · rename_i op isOp
      exact .read queue isOp
    · exact .skip queue

theorem handleMessage_acts (i : ι) (killed : Option Nat) :
    state.Acts rules clock passes (state.handleMessage passes i killed).1
      (state.handleMessage passes i killed).2 := by
  unfold handleMessage
  split
  · rename_i running message left _ queue
    have isPrefix : (reaction i running message killed).2 <+:
        ((agent i).react running message).2 := by
      cases killed with
      | none => exact List.prefix_rfl
      | some n => exact List.take_prefix n _
    exact .handle i queue _ isPrefix
  · exact .nothing

theorem office_acts (op : Op agent) :
    state.Acts rules clock op.passes ((office agent rules clock).step state op).1
      ((office agent rules clock).step state op).2 := by
  rcases op with ⟨act, passes⟩
  cases act with
  | enqueueEvent entry => exact .engine _ (by simp)
  | systemMessage text => exact .engine _ (by simp)
  | ackThread => exact .engine _ (by simp)
  | readMessage => exact readCore_acts
  | handleMessage i killed => exact handleMessage_acts i killed
  | spawnModule i fresh => exact .spawn i fresh

end Office

/-! ## Traces -/

section Traces

/-- The part of an act that the rule engine sees. -/
def engineEvent : Office.Event agent → Option (RuleEngine.Op × Handed)
  | .handed op item => some (op, item)
  | _ => none

/-- The trace of the rule engine. -/
def engineTrace (trace : List (Office.Op agent × Office.Event agent)) :
    List (RuleEngine.Op × Handed) :=
  trace.filterMap fun item => engineEvent item.2

def receivedMessage [DecidableEq ι] (i : ι) : Office.Event agent → Option Message
  | .received j message => if j = i then some message else none
  | _ => none

/-- The messages that the processes of a module have received. -/
def received [DecidableEq ι] (i : ι) (trace : List (Office.Op agent × Office.Event agent)) :
    List Message :=
  trace.filterMap fun item => receivedMessage i item.2

/-- What the rule engine has handed out for a module. -/
def handedTo (i : ι) (trace : List (Office.Op agent × Office.Event agent)) : List Message :=
  Office.forModule (agent i).name ((engineTrace trace).map Prod.snd)

/-- A module that acknowledges events has completed the action of an event. -/
def Completed (id : EventID) (trace : List (Office.Op agent × Office.Event agent)) : Prop :=
  ∃ i body output op, ¬ (agent i).Mute ∧
    (op, Office.Event.output i (.msgActio body) output) ∈ trace ∧
    body.eventId = id ∧ (agent i).completes output = true

theorem Completed.mono {id : EventID} {trace more : List (Office.Op agent × Office.Event agent)}
    (completed : Completed id trace) : Completed id (trace ++ more) := by
  rcases completed with ⟨i, body, output, op, answers, member, same, completes⟩
  exact ⟨i, body, output, op, answers, List.mem_append_left _ member, same, completes⟩

theorem engineStep_inner (rules : List RuleInfo) (clock : SteadyClock) (passes : Nat → Bool)
    (state : Office agent) (op : RuleEngine.Op) :
    [op].foldl (RuleEngine.machine rules clock).extend ⟨state.engine, []⟩ =
      ⟨(state.engineStep rules clock passes op).1.engine,
        (state.engineStep rules clock passes op).2.filterMap engineEvent⟩ := by
  simp [Office.engineStep, Machine.extend, List.filterMap_map, Function.comp_def, engineEvent]

variable [DecidableEq ι]

variable (agent) in
/-- Every run of the office contains a run of the rule engine. -/
theorem exists_engine_run (rules : List RuleInfo) (clock : SteadyClock)
    (ops : List (Office.Op agent)) :
    ∃ engineOps, (RuleEngine.machine rules clock).run engineOps =
      ⟨((office agent rules clock).run ops).state.engine,
        engineTrace ((office agent rules clock).run ops).trace⟩ := by
  have inner : ∃ engineOps, (∀ op ∈ engineOps, (fun _ : RuleEngine.Op => True) op) ∧
      (RuleEngine.machine rules clock).run engineOps =
        ⟨((office agent rules clock).run ops).state.engine,
          engineTrace ((office agent rules clock).run ops).trace⟩ := by
    apply Machine.exists_inner_run _ _ Office.engine engineEvent fun _ => True
    · rfl
    · trivial
    · exact fun _ _ _ => trivial
    · rintro state op -
      have acts := @Office.office_acts ι agent rules clock state _ op
      generalize ((office agent rules clock).step state op).1 = next at acts ⊢
      generalize ((office agent rules clock).step state op).2 = events at acts ⊢
      cases acts with
      | nothing => exact ⟨[], fun _ _ => trivial, rfl⟩
      | engine op =>
          exact ⟨[op], fun _ _ => trivial, engineStep_inner rules clock _ state op⟩
      | @read message left op queue =>
          exact ⟨[op], fun _ _ => trivial,
            engineStep_inner rules clock _ { state with toCore := left } op⟩
      | skip => exact ⟨[], fun _ _ => trivial, rfl⟩
      | handle i queue after =>
          refine ⟨[], fun _ _ => trivial, ?_⟩
          simp [engineEvent]
      | spawn => exact ⟨[], fun _ _ => trivial, rfl⟩
  rcases inner with ⟨engineOps, _, equal⟩
  exact ⟨engineOps, equal⟩

theorem received_append (i : ι) (first second : List (Office.Op agent × Office.Event agent)) :
    received i (first ++ second) = received i first ++ received i second := by
  simp [received]

omit [DecidableEq ι] in
theorem handedTo_append (i : ι) (first second : List (Office.Op agent × Office.Event agent)) :
    handedTo i (first ++ second) = handedTo i first ++ handedTo i second := by
  simp [handedTo, engineTrace, Office.forModule]

omit [DecidableEq ι] in
theorem engineTrace_append (first second : List (Office.Op agent × Office.Event agent)) :
    engineTrace (first ++ second) = engineTrace first ++ engineTrace second := by
  simp [engineTrace]

omit [DecidableEq ι] in
/-- The rule engine has no part in what a module does with a message. -/
theorem engineTrace_handled (op : Office.Op agent) (i : ι) (message : Message)
    (outputs : List (agent i).Output) :
    engineTrace ((.received i message :: outputs.map (.output i message)).map
      fun event => (op, event)) = [] := by
  simp [engineTrace, engineEvent, List.filterMap_map]

omit [DecidableEq ι] in
theorem exists_of_mem_handled {op otherOp : Office.Op agent} {i j : ι} {message cause : Message}
    {outputs : List (agent i).Output} {output : (agent j).Output}
    (member : (otherOp, Office.Event.output j cause output) ∈
      (.received i message :: outputs.map (.output i message)).map fun event => (op, event)) :
    ∃ produced ∈ outputs,
      Office.Event.output j cause output = (.output i message produced : Office.Event agent) := by
  rcases List.mem_map.mp member with ⟨event, eventMember, equal⟩
  cases equal
  rcases List.mem_cons.mp eventMember with isReceived | isOutput
  · cases isReceived
  · rcases List.mem_map.mp isOutput with ⟨produced, outputMember, isEvent⟩
    exact ⟨produced, outputMember, isEvent.symm⟩

omit [DecidableEq ι] in
/-- The core takes an acknowledgement from nothing but a message that is one. -/
theorem eq_of_readMessage_acceptAck {message : Message} {id : EventID}
    (isAccept : readMessage message = .engine (.acceptAck id)) : message = .msgAckac id := by
  cases message with
  | msgAckac other =>
      cases isAccept
      rfl
  | msgEvent | msgHbeat | msgHbint | msgActio | msgLog | msgSys | msgEvabt | msgAckev =>
      cases isAccept

end Traces

/-! ## What the queues and the modules promise -/

/-- Messages arrive in order, if they arrive, and an acknowledgement is only given for a
completed action. -/
structure Faithful [DecidableEq ι]
    (run : Run (Office agent) (Office.Op agent) (Office.Event agent)) : Prop where
  inOrder : ∀ i, (received i run.trace ++ run.state.toModule i).Sublist (handedTo i run.trace)
  causes : ∀ op i cause output, (op, Office.Event.output i cause output) ∈ run.trace →
    cause ∈ received i run.trace
  waiting : ∀ id, .msgAckac id ∈ run.state.toCore → Completed id run.trace
  acknowledged : ∀ item ∈ engineTrace run.trace, ∀ id, item.1 = .acceptAck id →
    Completed id run.trace

namespace Faithful

variable [DecidableEq ι] {run : Run (Office agent) (Office.Op agent) (Office.Event agent)}
  {op : Office.Op agent} {rules : List RuleInfo} {clock : SteadyClock}

theorem sublist_passing (name : Str) (passes : Nat → Bool) (handed : List Handed) :
    (Office.forModule name (passing passes handed)).Sublist (Office.forModule name handed) :=
  (passing_sublist passes handed).filterMap _

/-- An operation of the rule engine, whose reason may be a message that was waiting. -/
theorem engine (faithful : Faithful run) {before : Office agent}
    (same : before.toModule = run.state.toModule)
    (waiting : ∀ message ∈ before.toCore, message ∈ run.state.toCore)
    (engineOp : RuleEngine.Op)
    (reason : ∀ id, engineOp = .acceptAck id → Completed id run.trace) :
    Faithful ⟨(before.engineStep rules clock op.passes engineOp).1, run.trace ++
      (before.engineStep rules clock op.passes engineOp).2.map fun event => (op, event)⟩ := by
  let handed := ((RuleEngine.machine rules clock).step before.engine engineOp).2
  have newHanded : engineTrace ((before.engineStep rules clock op.passes engineOp).2.map
      fun event => (op, event)) = handed.map fun item => (engineOp, item) := by
    simp [engineTrace, Office.engineStep, List.filterMap_map, Function.comp_def, engineEvent,
      handed]
  have newReceived : ∀ i, received i ((before.engineStep rules clock op.passes engineOp).2.map
      fun event => (op, event)) = [] := by
    intro i
    simp [received, Office.engineStep, receivedMessage]
  constructor
  · intro i
    have sent : handedTo i ((before.engineStep rules clock op.passes engineOp).2.map
        fun event => (op, event)) = Office.forModule (agent i).name handed := by
      rw [handedTo, newHanded, List.map_map]
      simp [Function.comp_def]
    rw [received_append, newReceived, List.append_nil, handedTo_append, sent]
    change (received i run.trace ++ (before.toModule i ++
      Office.forModule (agent i).name (passing op.passes handed))).Sublist _
    rw [same, ← List.append_assoc]
    exact (faithful.inOrder i).append (sublist_passing _ op.passes handed)
  · rintro otherOp i cause output member
    rw [received_append, newReceived, List.append_nil]
    rcases List.mem_append.mp member with old | new
    · exact faithful.causes otherOp i cause output old
    · rcases List.mem_map.mp new with ⟨event, eventMember, equal⟩
      rcases List.mem_map.mp eventMember with ⟨item, _, rfl⟩
      cases equal
  · rintro id member
    exact (faithful.waiting id (waiting _ member)).mono
  · rintro item member id isAccept
    rw [engineTrace_append, newHanded] at member
    rcases List.mem_append.mp member with old | new
    · exact (faithful.acknowledged item old id isAccept).mono
    · rcases List.mem_map.mp new with ⟨handedItem, _, rfl⟩
      exact (reason id isAccept).mono

/-- A module reads a message. -/
theorem handle (faithful : Faithful run) (honest : ∀ i, (agent i).Honest) (i : ι)
    {running : (agent i).State} {message : Message} {left : List Message}
    (queue : run.state.toModule i = message :: left) (after : Option (agent i).State)
    {outputs : List (agent i).Output}
    (isPrefix : outputs <+: ((agent i).react running message).2) :
    Faithful ⟨{ run.state with
        modules := Function.update run.state.modules i after
        toModule := Function.update run.state.toModule i left
        toCore := run.state.toCore ++
          passing op.passes (outputs.filterMap (agent i).message?) },
      run.trace ++ (.received i message :: outputs.map (.output i message)).map
        fun event => (op, event)⟩ := by
  let events := (Office.Event.received i message :: outputs.map (.output i message)).map
    fun event => (op, event)
  have newHanded : engineTrace events = [] := engineTrace_handled op i message outputs
  have newReceived : ∀ j, received j events = if i = j then [message] else [] := by
    intro j
    by_cases same : i = j
    · simp [events, received, receivedMessage, same, List.filterMap_map]
    · simp [events, received, receivedMessage, same, List.filterMap_map]
  constructor
  · intro j
    change (received j (run.trace ++ events) ++ Function.update run.state.toModule i left
      j).Sublist (handedTo j (run.trace ++ events))
    have nothingHanded : handedTo j events = [] := by
      simp [handedTo, newHanded, Office.forModule]
    rw [handedTo_append, nothingHanded, List.append_nil, received_append, newReceived]
    by_cases same : i = j
    · subst same
      have arrived := faithful.inOrder i
      rw [queue] at arrived
      simpa using arrived
    · rw [if_neg same, List.append_nil, Function.update_of_ne (Ne.symm same)]
      exact faithful.inOrder j
  · rintro otherOp j cause output member
    change cause ∈ received j (run.trace ++ events)
    rw [received_append, List.mem_append]
    rcases List.mem_append.mp member with old | new
    · exact Or.inl (faithful.causes otherOp j cause output old)
    · right
      rcases exists_of_mem_handled new with ⟨produced, _, isEvent⟩
      cases isEvent
      rw [newReceived, if_pos rfl]
      exact List.mem_singleton_self message
  · rintro id member
    rcases List.mem_append.mp member with old | new
    · exact (faithful.waiting id old).mono
    · rcases List.mem_filterMap.mp ((passing_sublist _ _).subset new) with
        ⟨output, outputMember, isAck⟩
      rcases List.append_of_mem outputMember with ⟨first, second, outputsEq⟩
      rcases isPrefix with ⟨rest, whole⟩
      rw [outputsEq, List.append_assoc, List.cons_append] at whole
      rcases honest i running message first output (second ++ rest) id whole.symm isAck with
        ⟨body, rfl, same, earlier, earlierMember, completes⟩
      have produced : output ∈ ((agent i).react running (.msgActio body)).2 := by
        rw [← whole]
        exact List.mem_append_right _ List.mem_cons_self
      refine ⟨i, body, earlier, op, fun mute => mute running _ output produced id isAck,
        List.mem_append_right _ ?_, same, completes⟩
      apply List.mem_map_of_mem
      apply List.mem_cons_of_mem
      apply List.mem_map_of_mem
      rw [outputsEq]
      exact List.mem_append_left _ earlierMember
  · rintro item member id isAccept
    change item ∈ engineTrace (run.trace ++ events) at member
    rw [engineTrace_append, newHanded, List.append_nil] at member
    exact (faithful.acknowledged item member id isAccept).mono

theorem step (honest : ∀ i, (agent i).Honest) (faithful : Faithful run) (op : Office.Op agent) :
    Faithful ((office agent rules clock).extend run op) := by
  have acts := @Office.office_acts ι agent rules clock run.state _ op
  rw [Machine.extend]
  generalize ((office agent rules clock).step run.state op).1 = next at acts ⊢
  generalize ((office agent rules clock).step run.state op).2 = events at acts ⊢
  cases acts with
  | nothing => simpa using faithful
  | engine engineOp own =>
      exact faithful.engine rfl (fun _ member => member) engineOp
        fun id isAccept => absurd isAccept (own id)
  | @read message left engineOp queue isOp =>
      apply faithful.engine
      · rfl
      · rintro other member
        rw [queue]
        exact List.mem_cons_of_mem _ member
      · rintro id rfl
        apply faithful.waiting
        rw [queue, eq_of_readMessage_acceptAck isOp]
        exact List.mem_cons_self
  | @skip message left queue =>
      rw [List.map_nil, List.append_nil]
      constructor
      · exact faithful.inOrder
      · exact faithful.causes
      · rintro id member
        apply faithful.waiting
        rw [queue]
        exact List.mem_cons_of_mem _ member
      · exact faithful.acknowledged
  | handle i queue after isPrefix => exact faithful.handle honest i queue after isPrefix
  | spawn i fresh =>
      rw [List.map_nil, List.append_nil]
      exact ⟨faithful.inOrder, faithful.causes, faithful.waiting, faithful.acknowledged⟩

end Faithful

theorem faithful_run [DecidableEq ι] (honest : ∀ i, (agent i).Honest) (rules : List RuleInfo)
    (clock : SteadyClock) (ops : List (Office.Op agent)) :
    Faithful ((office agent rules clock).run ops) := by
  apply Machine.run_invariant
  · constructor
    · intro i
      exact List.Sublist.refl []
    · rintro op i cause output member
      cases member
    · rintro id member
      cases member
    · rintro item member
      cases member
  · rintro run op faithful
    exact faithful.step honest op

/-- No acknowledgement is on its way, none was sent, and none was given to the rule engine. -/
structure Unacknowledged
    (run : Run (Office agent) (Office.Op agent) (Office.Event agent)) : Prop where
  waiting : ∀ id, .msgAckac id ∉ run.state.toCore
  outputs : ∀ op i cause output, (op, Office.Event.output i cause output) ∈ run.trace →
    ∀ id, (agent i).message? output ≠ some (.msgAckac id)
  engine : ∀ item ∈ engineTrace run.trace, ∀ id, item.1 ≠ .acceptAck id

namespace Unacknowledged

variable [DecidableEq ι] {run : Run (Office agent) (Office.Op agent) (Office.Event agent)}
  {op : Office.Op agent} {rules : List RuleInfo} {clock : SteadyClock}

omit [DecidableEq ι] in
theorem act (unacknowledged : Unacknowledged run) {before : Office agent}
    (waiting : ∀ message ∈ before.toCore, message ∈ run.state.toCore)
    (engineOp : RuleEngine.Op) (own : ∀ id, engineOp ≠ .acceptAck id) :
    Unacknowledged ⟨(before.engineStep rules clock op.passes engineOp).1, run.trace ++
      (before.engineStep rules clock op.passes engineOp).2.map fun event => (op, event)⟩ := by
  constructor
  · intro id member
    exact unacknowledged.waiting id (waiting _ member)
  · rintro otherOp i cause output member
    rcases List.mem_append.mp member with old | new
    · exact unacknowledged.outputs otherOp i cause output old
    · rcases List.mem_map.mp new with ⟨event, eventMember, equal⟩
      rcases List.mem_map.mp eventMember with ⟨item, _, rfl⟩
      cases equal
  · rintro item member id isAccept
    rw [engineTrace_append, List.mem_append] at member
    rcases member with old | new
    · exact unacknowledged.engine item old id isAccept
    · rcases List.mem_filterMap.mp new with ⟨⟨_, event⟩, inTrace, isItem⟩
      rcases List.mem_map.mp inTrace with ⟨_, eventMember, equal⟩
      cases equal
      rcases List.mem_map.mp eventMember with ⟨handed, _, rfl⟩
      cases isItem
      exact own id isAccept

theorem step (mute : ∀ i, (agent i).Mute) (unacknowledged : Unacknowledged run)
    (op : Office.Op agent) : Unacknowledged ((office agent rules clock).extend run op) := by
  have acts := @Office.office_acts ι agent rules clock run.state _ op
  rw [Machine.extend]
  generalize ((office agent rules clock).step run.state op).1 = next at acts ⊢
  generalize ((office agent rules clock).step run.state op).2 = events at acts ⊢
  cases acts with
  | nothing => simpa using unacknowledged
  | engine engineOp own => exact unacknowledged.act (fun _ member => member) engineOp own
  | @read message left engineOp queue isOp =>
      have rest : ∀ other ∈ left, other ∈ run.state.toCore := by
        intro other member
        rw [queue]
        exact List.mem_cons_of_mem _ member
      apply unacknowledged.act rest
      rintro id rfl
      apply unacknowledged.waiting id
      rw [queue, eq_of_readMessage_acceptAck isOp]
      exact List.mem_cons_self
  | @skip message left queue =>
      rw [List.map_nil, List.append_nil]
      refine ⟨?_, unacknowledged.outputs, unacknowledged.engine⟩
      intro id member
      apply unacknowledged.waiting id
      rw [queue]
      exact List.mem_cons_of_mem _ member
  | @handle i running message left queue after outputs isPrefix =>
      have silent : ∀ output ∈ outputs, ∀ id, (agent i).message? output ≠ some (.msgAckac id) :=
        fun output member => mute i running message output (isPrefix.subset member)
      constructor
      · intro id member
        rcases List.mem_append.mp member with old | new
        · exact unacknowledged.waiting id old
        · rcases List.mem_filterMap.mp ((passing_sublist _ _).subset new) with
            ⟨output, outputMember, isAck⟩
          exact silent output outputMember id isAck
      · rintro otherOp j cause output member
        rcases List.mem_append.mp member with old | new
        · exact unacknowledged.outputs otherOp j cause output old
        · rcases exists_of_mem_handled new with ⟨produced, outputMember, isEvent⟩
          cases isEvent
          exact silent produced outputMember
      · rintro item member
        rw [engineTrace_append, engineTrace_handled, List.append_nil] at member
        exact unacknowledged.engine item member
  | spawn i fresh =>
      rw [List.map_nil, List.append_nil]
      exact ⟨unacknowledged.waiting, unacknowledged.outputs, unacknowledged.engine⟩

end Unacknowledged

/-- Modules that are mute leave every event without an acknowledgement. -/
theorem unacknowledged_run [DecidableEq ι] (mute : ∀ i, (agent i).Mute) (rules : List RuleInfo)
    (clock : SteadyClock) (ops : List (Office.Op agent)) :
    Unacknowledged ((office agent rules clock).run ops) := by
  apply Machine.run_invariant
  · constructor
    · rintro id member
      cases member
    · rintro op i cause output member
      cases member
    · rintro item member
      cases member
  · rintro run op unacknowledged
    exact unacknowledged.step mute op

/-! ## Events and their actions -/

section Events

variable {rules : List RuleInfo} {clock : SteadyClock}

/-- With less than 2⁶⁴ accepted events, actions with one id are about one event. -/
theorem call_of_action {engineOps : List RuleEngine.Op}
    (few : (RuleEngine.firstActions
      ((RuleEngine.machine rules clock).run engineOps).trace).length < 2 ^ 64)
    {first second : RuleEngine.Op × Handed}
    (firstMember : first ∈ ((RuleEngine.machine rules clock).run engineOps).trace)
    (secondMember : second ∈ ((RuleEngine.machine rules clock).run engineOps).trace)
    (firstAction : first.2.delivery.message.type = .msgActio)
    (secondAction : second.2.delivery.message.type = .msgActio)
    (same : RuleEngine.eventIdOf first = RuleEngine.eventIdOf second) :
    first.2.call = second.2.call := by
  have numbered := RuleEngine.numbered_run rules clock engineOps
  have consistent := RuleEngine.consistent_run rules clock engineOps
  have origin : ∀ item ∈ ((RuleEngine.machine rules clock).run engineOps).trace,
      item.2.delivery.message.type = .msgActio →
      ∃ start ∈ RuleEngine.firstActions ((RuleEngine.machine rules clock).run engineOps).trace,
        start.2.call = item.2.call ∧ RuleEngine.eventIdOf start = RuleEngine.eventIdOf item := by
    rintro item member isAction
    rcases numbered.acted item member isAction with ⟨start, startMember, sameCall⟩
    have agree := consistent.agree start (RuleEngine.mem_firstActions.mp startMember).1 item
      member sameCall
    exact ⟨start, startMember, sameCall, by rw [RuleEngine.eventIdOf, RuleEngine.eventIdOf, agree]⟩
  rcases origin first firstMember firstAction with ⟨start, startMember, startCall, startId⟩
  rcases origin second secondMember secondAction with ⟨other, otherMember, otherCall, otherId⟩
  have equal : start = other :=
    numbered.call_of_id few startMember otherMember (by rw [startId, otherId, same])
  rw [← startCall, ← otherCall, equal]

/-- Every event with a final acknowledgement had an action. -/
theorem exists_action_of_answer {engineOps : List RuleEngine.Op}
    {item : RuleEngine.Op × Handed}
    (member : item ∈ ((RuleEngine.machine rules clock).run engineOps).trace)
    (isAnswer : item.2.delivery.message.type = .msgAckev) :
    ∃ action ∈ ((RuleEngine.machine rules clock).run engineOps).trace,
      action.2.call = item.2.call ∧ action.2.delivery.message.type = .msgActio := by
  have tracks := RuleEngine.tracks_run rules clock engineOps
  have consistent := RuleEngine.consistent_run rules clock engineOps
  rcases consistent.about item member with ⟨entry, rule, body, about⟩
  have known := (List.getElem?_eq_some_iff.mp about.found).1
  have inHistory := RuleEngine.mem_history.mpr ⟨member, rfl⟩
  rcases tracks.accepted_history consistent about.called known with
    ⟨only, single, isAbort, _⟩ | ⟨id, actions, final, parts, shape, _⟩
  · rw [single] at inHistory
    rw [List.mem_singleton.mp inHistory, isAbort] at isAnswer
    cases isAnswer
  · rcases List.exists_mem_of_length_pos shape.positive with ⟨action, actionMember⟩
    have actionHistory : action ∈ RuleEngine.history item.2.call
        ((RuleEngine.machine rules clock).run engineOps).trace := by
      rw [parts]
      exact List.mem_append_left _ actionMember
    rcases RuleEngine.mem_history.mp actionHistory with ⟨inTrace, sameCall⟩
    exact ⟨action, inTrace, sameCall, shape.areActions action actionMember⟩

/-- There are at most `numActionRetries + 1` actions about one event. -/
theorem actions_bounded (engineOps : List RuleEngine.Op) (call : Nat) :
    ((RuleEngine.history call ((RuleEngine.machine rules clock).run engineOps).trace).filter
      fun item => item.2.delivery.message.type = .msgActio).length ≤ numActionRetries + 1 := by
  have tracks := RuleEngine.tracks_run rules clock engineOps
  have consistent := RuleEngine.consistent_run rules clock engineOps
  by_cases empty :
      RuleEngine.history call ((RuleEngine.machine rules clock).run engineOps).trace = []
  · simp [empty]
  · rcases List.exists_mem_of_ne_nil _ empty with ⟨item, member⟩
    rcases RuleEngine.mem_history.mp member with ⟨inTrace, rfl⟩
    rcases consistent.about item inTrace with ⟨entry, rule, body, about⟩
    have known := (List.getElem?_eq_some_iff.mp about.found).1
    rcases tracks.accepted_history consistent about.called known with
      ⟨only, single, isAbort, _⟩ | ⟨id, actions, final, parts, shape, _⟩
    · rw [single]
      exact (List.length_filter_le _ _).trans (by simp)
    · have noAction : final.filter (fun item => item.2.delivery.message.type = .msgActio) =
          [] := by
        rw [List.filter_eq_nil_iff]
        rintro last lastMember isAction
        rcases shape.ends last lastMember with ⟨isAck, _⟩ | ⟨isAbort, _⟩
        · simp [isAck] at isAction
        · simp [isAbort] at isAction
      rw [parts, List.filter_append, noAction, List.append_nil]
      exact (List.length_filter_le _ _).trans shape.bounded

end Events

section Delivery

variable [DecidableEq ι]

/-- The actions with an event id. -/
def isActionFor (id : EventID) : Message → Bool
  | .msgActio body => body.eventId = id
  | _ => false

omit [DecidableEq ι] in
theorem mem_handedTo {i : ι} {trace : List (Office.Op agent × Office.Event agent)}
    {message : Message} :
    message ∈ handedTo i trace ↔
      ∃ item ∈ engineTrace trace, item.2.delivery = ⟨(agent i).name, message⟩ := by
  simp only [handedTo, Office.forModule, List.mem_filterMap, List.mem_map]
  constructor
  · rintro ⟨handed, ⟨item, member, rfl⟩, isMessage⟩
    split at isMessage
    · rename_i same
      cases isMessage
      exact ⟨item, member, by rw [← same]⟩
    · cases isMessage
  · rintro ⟨item, member, equal⟩
    refine ⟨item.2, ⟨item, member, rfl⟩, ?_⟩
    simp [equal]

variable (agent)

/-- An acknowledged event was acted upon: before its event module is told so, the action
that was handed out for it has been completed by the module it was for. -/
theorem acknowledged_completed (honest : ∀ i, (agent i).Honest) (rules : List RuleInfo)
    (clock : SteadyClock) (ops : List (Office.Op agent))
    (few : (RuleEngine.firstActions
      (engineTrace ((office agent rules clock).run ops).trace)).length < 2 ^ 64)
    (item : RuleEngine.Op × Handed)
    (member : item ∈ engineTrace ((office agent rules clock).run ops).trace)
    (isAnswer : item.2.delivery.message.type = .msgAckev) :
    ∃ i body output op, ¬ (agent i).Mute ∧
      (op, Office.Event.output i (.msgActio body) output) ∈
        ((office agent rules clock).run ops).trace ∧
      (agent i).completes output = true ∧
      ∃ sent ∈ engineTrace ((office agent rules clock).run ops).trace,
        sent.2.call = item.2.call ∧ sent.2.delivery = ⟨(agent i).name, .msgActio body⟩ := by
  have faithful := faithful_run honest rules clock ops
  rcases exists_engine_run agent rules clock ops with ⟨engineOps, inner⟩
  have traceEq : engineTrace ((office agent rules clock).run ops).trace =
      ((RuleEngine.machine rules clock).run engineOps).trace := by
    rw [inner]
  rw [traceEq] at few member
  have consistent := RuleEngine.consistent_run rules clock engineOps
  rcases consistent.about item member with ⟨entry, rule, body, about⟩
  have accepted := consistent.answers item member isAnswer body about.body_eq
  rcases faithful.acknowledged item (by rw [traceEq]; exact member) body.eventId accepted with
    ⟨i, taken, output, op, answers, produced, same, completes⟩
  have arrived := (faithful.inOrder i).subset
    (List.mem_append_left _ (faithful.causes op i (.msgActio taken) output produced))
  rcases mem_handedTo.mp arrived with ⟨sent, sentMember, delivery⟩
  rcases exists_action_of_answer member isAnswer with ⟨action, actionMember, sameCall, isAction⟩
  refine ⟨i, taken, output, op, answers, produced, completes, sent, sentMember, ?_, delivery⟩
  rw [traceEq] at sentMember
  rw [← sameCall]
  apply call_of_action few sentMember actionMember
  · rw [delivery]
    rfl
  · exact isAction
  · have agree := consistent.agree action actionMember item member sameCall
    rw [RuleEngine.eventIdOf, RuleEngine.eventIdOf, agree, about.body_eq, delivery]
    simp [Message.action?, same]

/-- A module is asked at most `numActionRetries + 1` times to act upon an event, whatever
is lost on the way. -/
theorem taken_bounded (honest : ∀ i, (agent i).Honest) (rules : List RuleInfo) (clock : SteadyClock)
    (ops : List (Office.Op agent))
    (few : (RuleEngine.firstActions
      (engineTrace ((office agent rules clock).run ops).trace)).length < 2 ^ 64)
    (i : ι) (id : EventID) :
    ((received i ((office agent rules clock).run ops).trace).filter (isActionFor id)).length ≤
      numActionRetries + 1 := by
  have faithful := faithful_run honest rules clock ops
  rcases exists_engine_run agent rules clock ops with ⟨engineOps, inner⟩
  have traceEq : engineTrace ((office agent rules clock).run ops).trace =
      ((RuleEngine.machine rules clock).run engineOps).trace := by
    rw [inner]
  let trace := ((RuleEngine.machine rules clock).run engineOps).trace
  let items := trace.filter fun item => isActionFor id item.2.delivery.message
  have toItems : ((received i ((office agent rules clock).run ops).trace).filter
      (isActionFor id)).length ≤ items.length := by
    have arrived : (received i ((office agent rules clock).run ops).trace).Sublist
        (handedTo i ((office agent rules clock).run ops).trace) :=
      (List.sublist_append_left _ _).trans (faithful.inOrder i)
    have forModule : ((handedTo i ((office agent rules clock).run ops).trace).filter
        (isActionFor id)).length ≤ items.length := by
      rw [handedTo, traceEq, Office.forModule, List.filterMap_map]
      simp only [items, trace]
      generalize ((RuleEngine.machine rules clock).run engineOps).trace = trace
      induction trace with
      | nil => exact le_rfl
      | cons item trace ih =>
          by_cases forIt : item.2.delivery.module = (agent i).name
          · by_cases isAction : isActionFor id item.2.delivery.message = true
            · simpa [List.filterMap_cons, forIt, isAction] using ih
            · simpa [List.filterMap_cons, forIt, isAction] using ih
          · have skipped := ih.trans (List.Sublist.length_le
              ((List.sublist_cons_self item trace).filter
                fun item => isActionFor id item.2.delivery.message))
            simpa [List.filterMap_cons, forIt] using skipped
    exact (arrived.filter _).length_le.trans forModule
  apply toItems.trans
  by_cases empty : items = []
  · simp [empty]
  · rcases List.exists_mem_of_ne_nil _ empty with ⟨first, firstMember⟩
    have isAction : ∀ item ∈ items, item ∈ trace ∧
        item.2.delivery.message.type = .msgActio ∧ RuleEngine.eventIdOf item = some id := by
      rintro item member
      rcases List.mem_filter.mp member with ⟨inTrace, isFor⟩
      refine ⟨inTrace, ?_⟩
      cases message : item.2.delivery.message with
      | msgActio body =>
          rw [message] at isFor
          simp only [isActionFor, decide_eq_true_eq] at isFor
          simp [Message.type, RuleEngine.eventIdOf, message, Message.action?, isFor]
      | msgEvent | msgHbeat | msgHbint | msgAckac | msgLog | msgSys | msgEvabt | msgAckev =>
          rw [message] at isFor
          cases isFor
    rw [traceEq] at few
    have sameCall : ∀ item ∈ items, item.2.call = first.2.call := by
      rintro item member
      rcases isAction item member with ⟨inTrace, isAct, itemId⟩
      rcases isAction first firstMember with ⟨firstTrace, firstAct, firstId⟩
      exact call_of_action few inTrace firstTrace isAct firstAct (itemId.trans firstId.symm)
    have inHistory : items.Sublist ((RuleEngine.history first.2.call trace).filter
        fun item => item.2.delivery.message.type = .msgActio) := by
      have kept : items.filter (fun item => decide (item.2.delivery.message.type = .msgActio) &&
          decide (item.2.call = first.2.call)) = items := by
        rw [List.filter_eq_self]
        rintro item member
        simp [(isAction item member).2.1, sameCall item member]
      have selected : items.Sublist trace := List.filter_sublist
      have both := selected.filter fun item =>
        decide (item.2.delivery.message.type = .msgActio) && decide (item.2.call = first.2.call)
      rw [kept, ← List.filter_filter] at both
      exact both
    exact inHistory.length_le.trans (actions_bounded engineOps first.2.call)

end Delivery

end Sentri.Modules
