import Sentri.Core.RuleEngine.Messages

/-!
# Event lifecycle

The messages handed to the messenger about one call of `enqueueEvent`, in every
run of the rule engine: a single abort, or up to `numActionRetries + 1` actions
and at most one final message.
-/

namespace Sentri.Core.RuleEngine

open Sentri.LibModule Sentri.Text Sentri.Transition

/-- The type of the messages with a role in the life of an event. -/
def typeOf : Retry.Kind → Option MessageType
  | .attempt => some .msgActio
  | .answer => some .msgAckev
  | .abort => some .msgEvabt
  | .other => none

theorem type_of_kind {item : Op × Handed} {role : Retry.Kind} {type : MessageType}
    (is : kind item = role) (known : typeOf role = some type) :
    item.2.delivery.message.type = type := by
  subst is
  unfold kind at known
  split at known <;> simp_all [typeOf, Message.type]

/-- What is handed about an accepted event with the given id. -/
structure AcceptedHistory (id : EventID) (actions final : List (Op × Handed)) : Prop where
  areActions : ∀ item ∈ actions, item.2.delivery.message.type = .msgActio
  ids : ∀ item ∈ actions ++ final,
    ∃ body, item.2.delivery.message.action? = some body ∧ body.eventId = id
  positive : 1 ≤ actions.length
  bounded : actions.length ≤ numActionRetries + 1
  spaced : Spaced (milliseconds ackTimeout) (actions.map time)
  oneFinal : final.length ≤ 1
  ends : ∀ item ∈ final,
    (item.2.delivery.message.type = .msgAckev ∧ item.1 = .acceptAck id) ∨
    (item.2.delivery.message.type = .msgEvabt ∧ actions.length = numActionRetries + 1 ∧
      ∀ action ∈ actions, time action + milliseconds ackTimeout ≤ time item)

/-- All messages about one call carry the same event id. -/
theorem Consistent.common_id {rules : List RuleInfo} {run : EngineRun}
    (consistent : Consistent rules run) {call : Nat}
    (nonempty : history call run.trace ≠ []) :
    ∃ id, ∀ item ∈ history call run.trace,
      ∃ body, item.2.delivery.message.action? = some body ∧ body.eventId = id := by
  obtain ⟨first, firstMember⟩ := List.exists_mem_of_ne_nil _ nonempty
  obtain ⟨firstTrace, firstCall⟩ := mem_history.mp firstMember
  obtain ⟨_, _, body, about⟩ := consistent.about first firstTrace
  refine ⟨body.eventId, ?_⟩
  intro item member
  obtain ⟨itemTrace, itemCall⟩ := mem_history.mp member
  refine ⟨body, ?_, rfl⟩
  rw [consistent.agree item itemTrace first firstTrace (itemCall.trans firstCall.symm)]
  exact about.body_eq

/-- An entry of the queue has the id of the messages about its call. -/
theorem Consistent.queued_id {rules : List RuleInfo} {run : EngineRun}
    (consistent : Consistent rules run) {id : EventID} {call : Nat}
    (nonempty : history call run.trace ≠ [])
    (ids : ∀ item ∈ history call run.trace,
      ∃ body, item.2.delivery.message.action? = some body ∧ body.eventId = id)
    {pending : Pending} (member : pending ∈ run.state.ackQueue) (same : pending.call = call) :
    pending.entry.id = id := by
  obtain ⟨item, itemMember⟩ := List.exists_mem_of_ne_nil _ nonempty
  obtain ⟨body, bodyEq, idEq⟩ := ids item itemMember
  obtain ⟨itemTrace, itemCall⟩ := mem_history.mp itemMember
  have queuedBody := consistent.queued pending member item itemTrace (itemCall.trans same.symm)
  rw [bodyEq] at queuedBody
  rw [← idEq, Option.some.inj queuedBody]
  rfl

/-- A pending event has an entry in the queue. -/
theorem Waits.queued {tries call : Nat} {sent : Timepoint} {queue : List Pending}
    (waits : Waits (.pending tries sent) (slot call queue)) :
    ∃ pending ∈ queue, pending.call = call := by
  generalize entriesEq : slot call queue = entries at waits
  cases waits with
  | pending pending =>
      have inSlot : pending ∈ slot call queue := by simp [entriesEq]
      obtain ⟨member, same⟩ := mem_slot.mp inSlot
      exact ⟨pending, member, same⟩

/-- An event that is not pending has no entry in the queue. -/
theorem Waits.not_queued {phase : Retry.Phase} {call : Nat} {queue : List Pending}
    (waits : Waits phase (slot call queue)) (ended : phase = .rejected ∨ phase = .settled) :
    ∀ pending ∈ queue, pending.call ≠ call := by
  intro pending member same
  have inSlot := mem_slot.mpr ⟨member, same⟩
  generalize slot call queue = entries at waits inSlot
  rcases ended with rfl | rfl
  · cases waits
    simp at inSlot
  · cases waits
    simp at inSlot

/-- The history of an accepted event, from its shape and its id. -/
theorem Consistent.acceptedHistory {rules : List RuleInfo} {run : EngineRun}
    (consistent : Consistent rules run) {call : Nat} {id : EventID} {phase : Retry.Phase}
    {actions final : List (Op × Handed)} (historyEq : history call run.trace = actions ++ final)
    (shape : Retry.Shape kind time (numActionRetries + 1) (milliseconds ackTimeout) phase
      actions final)
    (ids : ∀ item ∈ history call run.trace,
      ∃ body, item.2.delivery.message.action? = some body ∧ body.eventId = id) :
    AcceptedHistory id actions final where
  areActions item member := type_of_kind (shape.areAttempts item member) rfl
  ids := by
    rw [← historyEq]
    exact ids
  positive := shape.positive
  bounded := shape.bounded
  spaced := shape.spaced
  oneFinal := shape.atMostOne
  ends := by
    intro item member
    rcases shape.ends item member with isAnswer | ⟨isAbort, last, late⟩
    · have inHistory : item ∈ history call run.trace := by
        rw [historyEq]
        exact List.mem_append_right _ member
      obtain ⟨body, bodyEq, idEq⟩ := ids item inHistory
      have isAck := type_of_kind isAnswer rfl
      refine Or.inl ⟨isAck, ?_⟩
      rw [← idEq]
      exact consistent.answers item (mem_history.mp inHistory).1 isAck body bodyEq
    · exact Or.inr ⟨type_of_kind isAbort rfl, last, late⟩

/-- An event whose rule exists is rejected with a single abort, or accepted: then
its history consists of actions and at most one final message, and its entry is
in the queue exactly as long as there is no final message. -/
theorem Tracks.accepted_history {rules : List RuleInfo} {run : EngineRun}
    (tracks : Tracks rules run) (consistent : Consistent rules run) {call : Nat}
    {entry : EventEntry} (called : run.state.calls[call]? = some entry)
    (known : entry.event.ruleId < rules.length) :
    (∃ item, history call run.trace = [item] ∧ item.2.delivery.message.type = .msgEvabt ∧
      ∀ pending ∈ run.state.ackQueue, pending.call ≠ call) ∨
    ∃ id actions final, history call run.trace = actions ++ final ∧
      AcceptedHistory id actions final ∧
      (final = [] ↔ ∃ pending ∈ run.state.ackQueue,
        pending.call = call ∧ pending.entry.id = id) := by
  have found : getRule rules entry.event.ruleId = some rules[entry.event.ruleId] :=
    List.getElem?_eq_getElem known
  obtain ⟨phase, life, waits⟩ := tracks.lives call entry _ called found
  rcases life.shape (by decide) (by decide) with
    ⟨rejected, item, historyEq, isAbort⟩ | ⟨actions, final, historyEq, shape⟩
  · exact Or.inl ⟨item, historyEq, type_of_kind isAbort rfl, waits.not_queued (.inl rejected)⟩
  · have nonempty : history call run.trace ≠ [] := by
      intro empty
      have := shape.positive
      rw [empty] at historyEq
      simp [(List.append_eq_nil_iff.mp historyEq.symm).1] at this
    obtain ⟨id, ids⟩ := consistent.common_id nonempty
    refine Or.inr ⟨id, actions, final, historyEq,
      consistent.acceptedHistory historyEq shape ids, ?_⟩
    constructor
    · intro openEnd
      obtain ⟨sent, rfl⟩ := shape.open_iff.mp openEnd
      obtain ⟨pending, member, same⟩ := waits.queued
      exact ⟨pending, member, same, consistent.queued_id nonempty ids member same⟩
    · rintro ⟨pending, member, same, _⟩
      by_contra closed
      exact waits.not_queued (.inr (shape.closed_iff.mp closed)) pending member same

/-- The event lifecycle.  In every run an event enqueued for an existing rule is
rejected with a single abort, or accepted: then up to `numActionRetries + 1`
actions are followed by at most one final message. -/
theorem event_lifecycle (rules : List RuleInfo) (clock : SteadyClock) (ops : List Op)
    (call : Nat) (entry : EventEntry)
    (called : ((machine rules clock).run ops).state.calls[call]? = some entry)
    (known : entry.event.ruleId < rules.length) :
    (∃ item, history call ((machine rules clock).run ops).trace = [item] ∧
      item.2.delivery.message.type = .msgEvabt ∧
      ∀ pending ∈ ((machine rules clock).run ops).state.ackQueue, pending.call ≠ call) ∨
    ∃ id actions final,
      history call ((machine rules clock).run ops).trace = actions ++ final ∧
      AcceptedHistory id actions final ∧
      (final = [] ↔ ∃ pending ∈ ((machine rules clock).run ops).state.ackQueue,
        pending.call = call ∧ pending.entry.id = id) :=
  (tracks_run rules clock ops).accepted_history (consistent_run rules clock ops) called known

/-- A rule that reports motion by SMS, at most once in `fireLimit` seconds. -/
def motionRule (fireLimit : Rat) : RuleInfo where
  title := "motion".toList
  id := 0
  event := { module := "module_video".toList, key := "motion".toList, configuration := ∅ }
  action := { module := "module_sms".toList, key := "send".toList, configuration := ∅ }
  fireLimit := fireLimit
  isDisabled := false

/-- An event of the first rule without variables. -/
def motionEvent : EventEntry where
  event := ⟨0, ⟨[], by decide, by decide⟩⟩
  id := 0
  actionSent := 0
  numTries := 0

/-- The action of an event is sent twice before it is acknowledged. -/
theorem event_lifecycle_acknowledged :
    let run := (machine [motionRule 0] (SteadyClock.ofList 0 [0, 0, 61000000000])).run
      [.enqueueEvent motionEvent, .ackThread, .ackThread, .acceptAck 0]
    ∃ id actions final, history 0 run.trace = actions ++ final ∧
      AcceptedHistory id actions final ∧
      (final = [] ↔ ∃ pending ∈ run.state.ackQueue,
        pending.call = 0 ∧ pending.entry.id = id) := by
  intro run
  have life := event_lifecycle [motionRule 0] (SteadyClock.ofList 0 [0, 0, 61000000000])
    [.enqueueEvent motionEvent, .ackThread, .ackThread, .acceptAck 0] 0 motionEvent
    (by decide +kernel) (by decide)
  rcases life with ⟨item, single, _⟩ | accepted
  · have three : (history 0 run.trace).length = 3 := by decide +kernel
    simp [run, single] at three
  · exact accepted

end Sentri.Core.RuleEngine
