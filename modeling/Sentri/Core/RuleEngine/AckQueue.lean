import Sentri.Core.RuleEngine.EventIds
import Mathlib.Data.List.Forall2

/-!
# The acknowledgement queue

The entries of the queue are in the order of their ids, belong to rules that
exist and have been tried at least once and at most once more than there are
retries.  Two loops remove entries from the middle of the list, one of them while
it iterates over it: here that loop is written with its iterator, as a position in
the list, and shown to be the recursion over the rest of the list.

What an operation does unseen by any other party is noted down: the entries that
the ack thread looks at, the accesses to the timestamps and the exceptions that
are caught.
-/

namespace Sentri.Core.RuleEngine

open Sentri.LibModule Sentri.Text Sentri.Transition

/-- A function that catches a `RuleNotFoundException`. -/
inductive Catcher where
  | enqueueEvent
  | takeAction
  | acceptAck
  | ackThread
  deriving DecidableEq

inductive Note where
  /-- The ack thread looks at an entry. -/
  | examined (pending : Pending)
  /-- The timestamps, a vector of the given size, are accessed. -/
  | indexed (ruleId : RuleID) (size : Nat)
  | caught (catcher : Catcher)
  deriving DecidableEq

/-- The access is in range, and the exception is caught in `enqueueEvent`. -/
def Note.Fine : Note → Prop
  | .examined _ => True
  | .indexed ruleId size => ruleId < size
  | .caught catcher => catcher = .enqueueEvent

def Note.examined? : Note → Option Pending
  | .examined pending => some pending
  | _ => none

section

variable (rules : List RuleInfo) (clock : SteadyClock)

/-- Look up a rule inside a `try` block. -/
def getRuleNotes (catcher : Catcher) (ruleId : RuleID) : List Note :=
  match getRule rules ruleId with
  | none => [.caught catcher]
  | some _ => []

def takeActionNotes (engine : RuleEngine) (pending : Pending) : List Note :=
  match getRule rules pending.entry.event.ruleId with
  | none => [.caught .takeAction]
  | some _ => [.indexed pending.entry.event.ruleId engine.ruleTimestamps.length]

def checkConstraintsNotes (engine : RuleEngine) (ruleId : RuleID) (rule : RuleInfo) :
    List Note :=
  if rule.isDisabled then
    []
  else if rule.fireLimit > 0 then
    [.indexed ruleId engine.ruleTimestamps.length]
  else
    []

def enqueueEventNotes (engine : RuleEngine) (entry : EventEntry) : List Note :=
  match getRule rules entry.event.ruleId with
  | none => [.caught .enqueueEvent]
  | some rule =>
      let notes := checkConstraintsNotes engine entry.event.ruleId rule
      let (checked, trigger) := checkConstraints clock engine entry.event.ruleId rule
      if trigger then
        notes ++ takeActionNotes rules checked
          ⟨engine.calls.length, { entry with numTries := 0, id := engine.eventId }⟩
      else
        notes ++ getRuleNotes rules .enqueueEvent entry.event.ruleId

def systemMessageLoopNotes (message : Str) (engine : RuleEngine) :
    List RuleInfo → List Note
  | [] => []
  | rule :: left =>
      if rule.event.module = systemMessageModule ∧ rule.event.key = systemMessageKey then
        enqueueEventNotes rules clock engine (systemMessageEntry rule.id message) ++
          systemMessageLoopNotes message
            (enqueueEvent rules clock engine (systemMessageEntry rule.id message)).1 left
      else
        systemMessageLoopNotes message engine left

def acceptAckNotes (engine : RuleEngine) (eventId : EventID) : List Note :=
  match engine.ackQueue.find? (·.entry.id = eventId) with
  | none => []
  | some pending => getRuleNotes rules .acceptAck pending.entry.event.ruleId

/-- The result of the loop after a part of it. -/
def Result.prepend (handed : List Handed) (notes : List Note)
    (result : RuleEngine × List Handed × List Note) : RuleEngine × List Handed × List Note :=
  (result.1, handed ++ result.2.1, notes ++ result.2.2)

/-- The loop of the ack thread with its iterator `it`, a position in the queue that
is at its end when there is no entry.  Without `fuel` there is no result. -/
def ackThreadFrom (now : Timepoint) :
    Nat → RuleEngine → Nat → Option (RuleEngine × List Handed × List Note)
  | 0, _, _ => none
  | fuel + 1, engine, it =>
      match engine.ackQueue[it]? with
      | none => some (engine, [], [])
      | some pending =>
          if now - pending.entry.actionSent ≥ milliseconds ackTimeout then
            if pending.entry.numTries.toNat ≤ numActionRetries then
              let notes := takeActionNotes rules engine pending
              let (engine, tried, handed) := takeAction rules clock engine pending
              let engine := { engine with ackQueue := engine.ackQueue.set it tried }
              (ackThreadFrom now fuel engine (it + 1)).map
                (Result.prepend handed (.examined pending :: notes))
            else
              let engine := { engine with ackQueue := engine.ackQueue.eraseIdx it }
              let notes := getRuleNotes rules .ackThread pending.entry.event.ruleId
              let handed := match getRule rules pending.entry.event.ruleId with
                | none => []
                | some rule => [⟨pending.call, now,
                    Messenger.sendEventAbort rule.event.module pending.entry⟩]
              (ackThreadFrom now fuel engine it).map
                (Result.prepend handed (.examined pending :: notes))
          else
            (ackThreadFrom now fuel engine (it + 1)).map
              (Result.prepend [] [.examined pending])

/-- One pass of the ack thread over the queue. -/
def ackThreadPass (fuel : Nat) (engine : RuleEngine) :
    Option (RuleEngine × List Handed × List Note) :=
  ackThreadFrom rules clock (clock.reading engine.ticks) fuel
    { engine with ticks := engine.ticks + 1 } 0

/-- What an operation notes down.  For a pass of the ack thread, one round for each
entry and one for the end of the queue are enough. -/
def notes (engine : RuleEngine) : Op → List Note
  | .enqueueEvent entry => enqueueEventNotes rules clock engine entry
  | .systemMessage message => systemMessageLoopNotes rules clock message engine rules
  | .acceptAck eventId => acceptAckNotes rules engine eventId
  | .ackThread =>
      match ackThreadPass rules clock (engine.ackQueue.length + 1) engine with
      | none => []
      | some result => result.2.2

end

variable {rules : List RuleInfo} {clock : SteadyClock}

/-! ## The loop over the queue -/

/-- The ack thread gives up an entry at the given time. -/
def Expired (now : Timepoint) (pending : Pending) : Prop :=
  pending.entry.actionSent + milliseconds ackTimeout ≤ now ∧
    numActionRetries < pending.entry.numTries.toNat

instance (now : Timepoint) (pending : Pending) : Decidable (Expired now pending) :=
  inferInstanceAs (Decidable (_ ∧ _))

/-- The same entry, tried more often at most. -/
structure Same (before after : Pending) : Prop where
  call : after.call = before.call
  id : after.entry.id = before.entry.id
  event : after.entry.event = before.entry.event

theorem Same.refl (pending : Pending) : Same pending pending :=
  ⟨rfl, rfl, rfl⟩

theorem takeAction_ackQueue (engine : RuleEngine) (pending : Pending) :
    (takeAction rules clock engine pending).1.ackQueue = engine.ackQueue := by
  unfold takeAction
  split <;> rfl

theorem takeAction_ruleTimestamps_length (engine : RuleEngine) (pending : Pending) :
    (takeAction rules clock engine pending).1.ruleTimestamps.length =
      engine.ruleTimestamps.length := by
  unfold takeAction
  split
  · rfl
  · exact List.length_set

theorem same_takeAction (engine : RuleEngine) (pending : Pending) :
    Same pending (takeAction rules clock engine pending).2.1 := by
  unfold takeAction
  split
  · exact Same.refl pending
  · exact ⟨rfl, rfl, rfl⟩

/-- The loop keeps what has not expired, in its order. -/
theorem ackThreadLoop_queue (now : Timepoint) (engine : RuleEngine)
    (passed left : List Pending) (queue : engine.ackQueue = passed ++ left) :
    ∃ kept, (ackThreadLoop rules clock now engine passed left).1.ackQueue = passed ++ kept ∧
      List.Forall₂ Same (left.filter fun pending => ¬Expired now pending) kept := by
  induction left generalizing engine passed with
  | nil => exact ⟨[], queue, by simp⟩
  | cons pending left ih =>
      rw [ackThreadLoop]
      by_cases late : now - pending.entry.actionSent ≥ milliseconds ackTimeout
      · have due : pending.entry.actionSent + milliseconds ackTimeout ≤ now := by linarith
        rw [if_pos late]
        by_cases more : pending.entry.numTries.toNat ≤ numActionRetries
        · rw [if_pos more]
          have stays : ¬Expired now pending := fun expired => absurd expired.2 (not_lt.mpr more)
          rcases ih
            { (takeAction rules clock engine pending).1 with
              ackQueue := passed ++ (takeAction rules clock engine pending).2.1 :: left }
            (passed ++ [(takeAction rules clock engine pending).2.1]) (by simp)
            with ⟨kept, keptQueue, same⟩
          refine ⟨(takeAction rules clock engine pending).2.1 :: kept, ?_, ?_⟩
          · simpa using keptQueue
          · rw [List.filter_cons_of_pos (by simpa using stays)]
            exact List.Forall₂.cons (same_takeAction engine pending) same
        · rw [if_neg more]
          have expired : Expired now pending := ⟨due, not_le.mp more⟩
          rcases ih { engine with ackQueue := passed ++ left } passed rfl
            with ⟨kept, keptQueue, same⟩
          refine ⟨kept, keptQueue, ?_⟩
          rw [List.filter_cons_of_neg (by simpa using expired)]
          exact same
      · rw [if_neg late]
        have stays : ¬Expired now pending := fun expired => late (by linarith [expired.1])
        rcases ih engine (passed ++ [pending]) (by simp [queue]) with ⟨kept, keptQueue, same⟩
        refine ⟨pending :: kept, ?_, ?_⟩
        · simpa using keptQueue
        · rw [List.filter_cons_of_pos (by simpa using stays)]
          exact List.Forall₂.cons (Same.refl pending) same

theorem takeActionNotes_examined (engine : RuleEngine) (pending : Pending) :
    (takeActionNotes rules engine pending).filterMap Note.examined? = [] := by
  unfold takeActionNotes
  split <;> rfl

theorem getRuleNotes_examined (catcher : Catcher) (ruleId : RuleID) :
    (getRuleNotes rules catcher ruleId).filterMap Note.examined? = [] := by
  unfold getRuleNotes
  split <;> rfl

/-- With a round for each entry that is left and one for the end, the loop with the
iterator ends with the result of the recursion, after a look at every entry. -/
theorem ackThreadFrom_eq (now : Timepoint) (engine : RuleEngine)
    (passed left : List Pending) (queue : engine.ackQueue = passed ++ left) :
    ∃ notes, ackThreadFrom rules clock now (left.length + 1) engine passed.length =
        some ((ackThreadLoop rules clock now engine passed left).1,
          (ackThreadLoop rules clock now engine passed left).2, notes) ∧
      notes.filterMap Note.examined? = left := by
  induction left generalizing engine passed with
  | nil =>
      refine ⟨[], ?_, rfl⟩
      simp [ackThreadFrom, ackThreadLoop, queue]
  | cons pending left ih =>
      have here : engine.ackQueue[passed.length]? = some pending := by simp [queue]
      rw [List.length_cons, ackThreadFrom, ackThreadLoop]
      simp only [here]
      by_cases late : now - pending.entry.actionSent ≥ milliseconds ackTimeout
      · simp only [if_pos late]
        by_cases more : pending.entry.numTries.toNat ≤ numActionRetries
        · simp only [if_pos more]
          have moved : (takeAction rules clock engine pending).1.ackQueue.set passed.length
              (takeAction rules clock engine pending).2.1 =
                passed ++ (takeAction rules clock engine pending).2.1 :: left := by
            rw [takeAction_ackQueue, queue]
            simp
          rcases ih
            { (takeAction rules clock engine pending).1 with
              ackQueue := passed ++ (takeAction rules clock engine pending).2.1 :: left }
            (passed ++ [(takeAction rules clock engine pending).2.1]) (by simp)
            with ⟨notes, rest, examined⟩
          rw [List.length_append, List.length_singleton] at rest
          rw [moved, rest]
          refine ⟨_, rfl, ?_⟩
          simp [Note.examined?, takeActionNotes_examined, examined]
        · simp only [if_neg more]
          have erased : engine.ackQueue.eraseIdx passed.length = passed ++ left := by
            simp [queue, List.eraseIdx_append]
          rcases ih { engine with ackQueue := passed ++ left } passed rfl
            with ⟨notes, rest, examined⟩
          rw [erased, rest]
          refine ⟨_, rfl, ?_⟩
          simp [Note.examined?, getRuleNotes_examined, examined]
      · simp only [if_neg late]
        rcases ih engine (passed ++ [pending]) (by simp [queue]) with ⟨notes, rest, examined⟩
        rw [List.length_append, List.length_singleton] at rest
        rw [rest]
        refine ⟨_, rfl, ?_⟩
        simp [Note.examined?, examined]

/-! ## Every rule that is looked up exists -/

theorem getRule_eq_none_iff {ruleId : RuleID} :
    getRule rules ruleId = none ↔ rules.length ≤ ruleId :=
  List.getElem?_eq_none_iff

theorem lt_of_getRule {ruleId : RuleID} {rule : RuleInfo}
    (found : getRule rules ruleId = some rule) : ruleId < rules.length :=
  (List.getElem?_eq_some_iff.mp found).1

/-- The rules of all entries exist, and each of them has a timestamp. -/
structure Covered (rules : List RuleInfo) (engine : RuleEngine) : Prop where
  timestamps : engine.ruleTimestamps.length = rules.length
  known : ∀ pending ∈ engine.ackQueue, pending.entry.event.ruleId < rules.length

theorem fine_getRuleNotes {catcher : Catcher} {ruleId : RuleID}
    (known : ruleId < rules.length) : ∀ note ∈ getRuleNotes rules catcher ruleId, note.Fine := by
  cases found : getRule rules ruleId with
  | none => exact absurd (getRule_eq_none_iff.mp found) (not_le.mpr known)
  | some rule => simp [getRuleNotes, found]

theorem fine_takeActionNotes {engine : RuleEngine} {pending : Pending}
    (timestamps : engine.ruleTimestamps.length = rules.length)
    (known : pending.entry.event.ruleId < rules.length) :
    ∀ note ∈ takeActionNotes rules engine pending, note.Fine := by
  cases found : getRule rules pending.entry.event.ruleId with
  | none => exact absurd (getRule_eq_none_iff.mp found) (not_le.mpr known)
  | some rule => simpa [takeActionNotes, found, Note.Fine, timestamps] using known

theorem checkConstraints_ruleTimestamps (engine : RuleEngine) (ruleId : RuleID)
    (rule : RuleInfo) :
    (checkConstraints clock engine ruleId rule).1.ruleTimestamps = engine.ruleTimestamps := by
  unfold checkConstraints
  split
  · rfl
  · split <;> rfl

theorem fine_enqueueEventNotes {engine : RuleEngine} (covered : Covered rules engine)
    (entry : EventEntry) : ∀ note ∈ enqueueEventNotes rules clock engine entry, note.Fine := by
  cases found : getRule rules entry.event.ruleId with
  | none => simp [enqueueEventNotes, found, Note.Fine]
  | some rule =>
      have known := lt_of_getRule found
      have checks : ∀ note ∈ checkConstraintsNotes engine entry.event.ruleId rule,
          note.Fine := by
        unfold checkConstraintsNotes
        split
        · simp
        · split
          · simpa [Note.Fine, covered.timestamps] using known
          · simp
      simp only [enqueueEventNotes, found]
      split
      · apply List.forall_mem_append.mpr ⟨checks, fine_takeActionNotes _ known⟩
        rw [checkConstraints_ruleTimestamps]
        exact covered.timestamps
      · exact List.forall_mem_append.mpr ⟨checks, fine_getRuleNotes known⟩

theorem fine_acceptAckNotes {engine : RuleEngine} (covered : Covered rules engine)
    (eventId : EventID) : ∀ note ∈ acceptAckNotes rules engine eventId, note.Fine := by
  unfold acceptAckNotes
  split
  · simp
  · next pending search =>
      exact fine_getRuleNotes (covered.known pending (List.mem_of_find?_eq_some search))

theorem Covered.takeAction {engine : RuleEngine} {pending : Pending} {it : Nat}
    (covered : Covered rules engine) (present : engine.ackQueue[it]? = some pending) :
    Covered rules { (takeAction rules clock engine pending).1 with
      ackQueue := (takeAction rules clock engine pending).1.ackQueue.set it
        (takeAction rules clock engine pending).2.1 } := by
  constructor
  · exact (takeAction_ruleTimestamps_length engine pending).trans covered.timestamps
  · intro other member
    rw [takeAction_ackQueue] at member
    rcases List.mem_or_eq_of_mem_set member with old | rfl
    · exact covered.known other old
    · rw [(same_takeAction engine pending).event]
      exact covered.known pending (List.mem_of_getElem? present)

theorem Covered.eraseIdx {engine : RuleEngine} (covered : Covered rules engine) (it : Nat) :
    Covered rules { engine with ackQueue := engine.ackQueue.eraseIdx it } where
  timestamps := covered.timestamps
  known pending member := covered.known pending (List.mem_of_mem_eraseIdx member)

theorem fine_ackThreadFrom {now : Timepoint} {fuel : Nat} {engine : RuleEngine} {it : Nat}
    (covered : Covered rules engine) {result : RuleEngine × List Handed × List Note}
    (ends : ackThreadFrom rules clock now fuel engine it = some result) :
    ∀ note ∈ result.2.2, note.Fine := by
  induction fuel generalizing engine it result with
  | zero => simp [ackThreadFrom] at ends
  | succ fuel ih =>
      rw [ackThreadFrom] at ends
      cases here : engine.ackQueue[it]? with
      | none =>
          simp only [here, Option.some.injEq] at ends
          simp [← ends]
      | some pending =>
          have known := covered.known pending (List.mem_of_getElem? here)
          have looked : ∀ note ∈ [Note.examined pending], note.Fine := by simp [Note.Fine]
          simp only [here] at ends
          split at ends
          · split at ends
            · rcases Option.map_eq_some_iff.mp ends with ⟨rest, restEnds, rfl⟩
              apply List.forall_mem_append.mpr ⟨_, ih (covered.takeAction here) restEnds⟩
              exact List.forall_mem_append.mpr
                ⟨looked, fine_takeActionNotes covered.timestamps known⟩
            · rcases Option.map_eq_some_iff.mp ends with ⟨rest, restEnds, rfl⟩
              apply List.forall_mem_append.mpr ⟨_, ih (covered.eraseIdx it) restEnds⟩
              exact List.forall_mem_append.mpr ⟨looked, fine_getRuleNotes known⟩
          · rcases Option.map_eq_some_iff.mp ends with ⟨rest, restEnds, rfl⟩
            exact List.forall_mem_append.mpr ⟨looked, ih covered restEnds⟩

theorem Covered.action {op : Op} {engine next : RuleEngine} {handed : List Handed}
    (covered : Covered rules engine) (action : Action rules clock op engine next handed) :
    Covered rules next := by
  have part : ∀ {passed left : List Pending} {pending : Pending},
      engine.ackQueue = passed ++ pending :: left →
        Covered rules { engine with ackQueue := passed ++ left } := by
    intro passed left pending queue
    refine ⟨covered.timestamps, fun other member => covered.known other ?_⟩
    rw [queue]
    exact (List.Sublist.append_left (List.sublist_cons_self _ _) _).subset member
  cases action with
  | read => exact ⟨covered.timestamps, covered.known⟩
  | ignore => exact ⟨covered.timestamps, covered.known⟩
  | reject => exact ⟨covered.timestamps, covered.known⟩
  | accept inCall found =>
      constructor
      · exact List.length_set.trans covered.timestamps
      · intro pending member
        rcases List.mem_append.mp member with old | fresh
        · exact covered.known pending old
        · rw [List.mem_singleton.mp fresh]
          exact lt_of_getRule found
  | retry inPass queue found =>
      constructor
      · exact List.length_set.trans covered.timestamps
      · intro other member
        rcases List.mem_append.mp member with before | rest
        · exact covered.known other (by simp [queue, before])
        · rcases List.mem_cons.mp rest with moved | behind
          · rw [moved]
            exact lt_of_getRule found
          · exact covered.known other (by simp [queue, behind])
  | giveUp inPass queue => exact part queue
  | acknowledge inAck queue => exact part queue
  | forget queue => exact part queue

theorem Covered.actions {op : Op} {engine next : RuleEngine} {handed : List Handed}
    (covered : Covered rules engine) (actions : Actions rules clock op engine next handed) :
    Covered rules next := by
  induction actions with
  | done => exact covered
  | cons action _ ih => exact ih (covered.action action)

theorem fine_systemMessageLoopNotes {message : Str} {engine : RuleEngine}
    (covered : Covered rules engine) (left : List RuleInfo) :
    ∀ note ∈ systemMessageLoopNotes rules clock message engine left, note.Fine := by
  induction left generalizing engine with
  | nil => simp [systemMessageLoopNotes]
  | cons rule left ih =>
      rw [systemMessageLoopNotes]
      split
      · apply List.forall_mem_append.mpr ⟨fine_enqueueEventNotes covered _, ih _⟩
        have actions := @enqueueEvent_actions rules clock (.systemMessage message) (by simp)
        exact covered.actions (actions engine _)
      · exact ih covered

theorem Covered.tick {engine : RuleEngine} (covered : Covered rules engine) :
    Covered rules { engine with ticks := engine.ticks + 1 } :=
  ⟨covered.timestamps, covered.known⟩

/-- Where every rule of the queue exists, no operation looks for one in vain. -/
theorem fine_notes {engine : RuleEngine} (covered : Covered rules engine) (op : Op) :
    ∀ note ∈ notes rules clock engine op, note.Fine := by
  cases op with
  | enqueueEvent entry => exact fine_enqueueEventNotes covered entry
  | systemMessage message => exact fine_systemMessageLoopNotes covered rules
  | acceptAck eventId => exact fine_acceptAckNotes covered eventId
  | ackThread =>
      unfold notes
      cases pass : ackThreadPass rules clock (engine.ackQueue.length + 1) engine with
      | none => simp
      | some result => exact fine_ackThreadFrom covered.tick pass

/-! ## The invariant -/

/-- What is known of the entries of the queue after a run. -/
structure Represents (rules : List RuleInfo) (run : EngineRun) : Prop where
  covered : Covered rules run.state
  tried : ∀ pending ∈ run.state.ackQueue, 1 ≤ pending.entry.numTries.toNat ∧
    pending.entry.numTries.toNat ≤ numActionRetries + 1
  /-- The entries are numbered like the accepted events, and in their order. -/
  ordered : ∃ numbers : List Nat, numbers.Pairwise (· < ·) ∧
    (∀ n ∈ numbers, n < (firstActions run.trace).length) ∧
    run.state.ackQueue.map (·.entry.id) = numbers.map UInt64.ofNat

theorem attempt_tries {entry : EventEntry} (sent : Timepoint)
    (more : entry.numTries.toNat ≤ numActionRetries) :
    (entry.attempt sent).numTries.toNat = entry.numTries.toNat + 1 := by
  simp only [EventEntry.attempt, UInt16.toNat_add, UInt16.toNat_one]
  apply Nat.mod_eq_of_lt
  have small : numActionRetries + 1 < 2 ^ 16 := by decide
  omega

namespace Represents

variable {run : EngineRun} {op : Op}

theorem initial : Represents rules (machine rules clock).fresh where
  covered := ⟨by simp [Machine.fresh, machine, new], by simp [Machine.fresh, machine, new]⟩
  tried := by simp [Machine.fresh, machine, new]
  ordered := ⟨[], by simp [Machine.fresh, machine, new]⟩

/-- Everything but an accepted event leaves a part of the queue, with entries that may
have been tried once more. -/
theorem keep {engine : RuleEngine} {handed : List Handed} (represents : Represents rules run)
    (covered : Covered rules engine)
    (ids : (engine.ackQueue.map (·.entry.id)).Sublist
      (run.state.ackQueue.map (·.entry.id)))
    (entries : ∀ pending ∈ engine.ackQueue, pending ∈ run.state.ackQueue ∨
      1 ≤ pending.entry.numTries.toNat ∧
        pending.entry.numTries.toNat ≤ numActionRetries + 1) :
    Represents rules (after op run engine handed) := by
  refine ⟨covered, ?_, ?_⟩
  · intro pending member
    rcases entries pending member with old | tries
    · exact represents.tried pending old
    · exact tries
  · rcases represents.ordered with ⟨numbers, increasing, bound, idsEq⟩
    rw [idsEq] at ids
    rcases List.sublist_map_iff.mp ids with ⟨kept, keptSublist, keptEq⟩
    refine ⟨kept, increasing.sublist keptSublist, ?_, keptEq⟩
    intro n member
    apply (bound n (keptSublist.subset member)).trans_le
    simp [after, firstActions_append]

/-- An entry may leave the queue from any place. -/
theorem erase {handed : List Handed} {passed left : List Pending} {pending : Pending}
    (represents : Represents rules run)
    (covered : Covered rules { run.state with ackQueue := passed ++ left })
    (queue : run.state.ackQueue = passed ++ pending :: left) :
    Represents rules (after op run { run.state with ackQueue := passed ++ left } handed) := by
  have part : (passed ++ left).Sublist run.state.ackQueue := by
    rw [queue]
    exact List.Sublist.append_left (List.sublist_cons_self _ _) _
  exact represents.keep covered (part.map _) fun other member => .inl (part.subset member)

/-- An accepted event takes the next number and goes to the end. -/
theorem accept {engine : RuleEngine} {out : Handed} {pending : Pending}
    (represents : Represents rules run) (numbered : Numbered run)
    (covered : Covered rules engine) (inCall : op ≠ .ackThread)
    (isAction : out.delivery.message.type = .msgActio)
    (queue : engine.ackQueue = run.state.ackQueue ++ [pending])
    (id : pending.entry.id = run.state.eventId) (tries : pending.entry.numTries.toNat = 1) :
    Represents rules (after op run engine [out]) := by
  have one : (firstActions (after op run engine [out]).trace).length =
      (firstActions run.trace).length + 1 := by
    simp [after, firstActions, isFirstAction, inCall, isAction]
  refine ⟨covered, ?_, ?_⟩
  · intro other member
    change other ∈ engine.ackQueue at member
    rw [queue] at member
    rcases List.mem_append.mp member with old | fresh
    · exact represents.tried other old
    · rw [List.mem_singleton.mp fresh, tries]
      exact ⟨le_rfl, Nat.le_add_left _ _⟩
  · rcases represents.ordered with ⟨numbers, increasing, bound, idsEq⟩
    refine ⟨numbers ++ [(firstActions run.trace).length], ?_, ?_, ?_⟩
    · rw [List.pairwise_append]
      exact ⟨increasing, List.pairwise_singleton _ _, by simpa using bound⟩
    · rw [one]
      intro n member
      rcases List.mem_append.mp member with old | last
      · exact (bound n old).trans (Nat.lt_succ_self _)
      · rw [List.mem_singleton.mp last]
        exact Nat.lt_succ_self _
    · simp only [after, queue, List.map_append, List.map_singleton, idsEq, id, numbered.next]

theorem step {engine : RuleEngine} {handed : List Handed}
    (action : Action rules clock op run.state engine handed) (numbered : Numbered run)
    (represents : Represents rules run) : Represents rules (after op run engine handed) := by
  have covered := represents.covered.action action
  cases action with
  | read => exact represents.keep covered (List.Sublist.refl _) fun _ member => .inl member
  | ignore => exact represents.keep covered (List.Sublist.refl _) fun _ member => .inl member
  | reject => exact represents.keep covered (List.Sublist.refl _) fun _ member => .inl member
  | accept inCall => exact represents.accept numbered covered inCall rfl rfl rfl rfl
  | @retry passed left pending rule now inPass queue found past due more =>
      apply represents.keep covered
      · simp [queue]
      · intro other member
        rcases List.mem_append.mp member with before | rest
        · exact .inl (by simp [queue, before])
        · rcases List.mem_cons.mp rest with moved | behind
          · right
            rw [moved, attempt_tries _ more]
            exact ⟨Nat.le_add_left _ _, Nat.succ_le_succ more⟩
          · exact .inl (by simp [queue, behind])
  | giveUp inPass queue => exact represents.erase covered queue
  | acknowledge inAck queue => exact represents.erase covered queue
  | forget queue => exact represents.erase covered queue

end Represents

theorem represents_run (rules : List RuleInfo) (clock : SteadyClock) (ops : List Op) :
    Represents rules ((machine rules clock).run ops) := by
  have both : Represents rules ((machine rules clock).run ops) ∧
      Numbered ((machine rules clock).run ops) := by
    apply run_invariant_of_action
      (fun run : EngineRun => Represents rules run ∧ Numbered run)
    · exact ⟨Represents.initial, Numbered.initial⟩
    · intro op run engine handed action ⟨represents, numbered⟩
      exact ⟨represents.step action numbered, numbered.step action⟩
  exact both.1

/-- Below 2⁶⁴ the ids are in the order of the numbers. -/
theorem ofNat_lt_ofNat {m n : Nat} (less : m < n) (bound : n < 2 ^ 64) :
    UInt64.ofNat m < UInt64.ofNat n := by
  rw [UInt64.lt_iff_toNat_lt, UInt64.toNat_ofNat_of_lt' (less.trans bound),
    UInt64.toNat_ofNat_of_lt' bound]
  exact less

/-- Ids, rules and tries of the entries are as they should be in every reachable state,
no exception gets to the handlers of `takeAction`, `acceptAck` and `ackThread`, and a
pass of the ack thread looks at every entry once and keeps the order of those that it
does not give up. -/
theorem ack_queue_represents (rules : List RuleInfo) (clock : SteadyClock) (ops : List Op)
    (few : (firstActions ((machine rules clock).run ops).trace).length < 2 ^ 64) :
    let engine := ((machine rules clock).run ops).state
    let pass := (machine rules clock).step engine .ackThread
    (engine.ackQueue.map (·.entry.id)).Pairwise (· < ·) ∧
      (∀ pending ∈ engine.ackQueue, pending.entry.id < engine.eventId ∧
        pending.entry.event.ruleId < rules.length ∧ 1 ≤ pending.entry.numTries.toNat ∧
          pending.entry.numTries.toNat ≤ numActionRetries + 1) ∧
      engine.ruleTimestamps.length = rules.length ∧
      (∀ op, ∀ note ∈ notes rules clock engine op, note.Fine) ∧
      (∃ notes, ackThreadPass rules clock (engine.ackQueue.length + 1) engine =
          some (pass.1, pass.2, notes) ∧
        notes.filterMap Note.examined? = engine.ackQueue) ∧
      List.Forall₂ Same
        (engine.ackQueue.filter fun pending => ¬Expired (clock.reading engine.ticks) pending)
        pass.1.ackQueue := by
  intro engine pass
  have represents : Represents rules ((machine rules clock).run ops) :=
    represents_run rules clock ops
  have next : engine.eventId = _ := (numbered_run rules clock ops).next
  rcases represents.ordered with ⟨numbers, increasing, bound, idsEq⟩
  refine ⟨?_, ?_, represents.covered.timestamps, fine_notes represents.covered, ?_, ?_⟩
  · rw [idsEq, List.pairwise_map]
    apply increasing.imp_of_mem
    intro m n _ member less
    exact ofNat_lt_ofNat less ((bound n member).trans few)
  · intro pending member
    refine ⟨?_, represents.covered.known pending member, represents.tried pending member⟩
    have idMember : pending.entry.id ∈ numbers.map UInt64.ofNat := by
      rw [← idsEq]
      exact List.mem_map_of_mem member
    rcases List.mem_map.mp idMember with ⟨n, numberMember, idEq⟩
    rw [← idEq, next]
    exact ofNat_lt_ofNat (bound n numberMember) few
  · exact ackThreadFrom_eq _ { engine with ticks := engine.ticks + 1 } [] engine.ackQueue rfl
  · rcases ackThreadLoop_queue (clock.reading engine.ticks)
      { engine with ticks := engine.ticks + 1 } [] engine.ackQueue rfl with ⟨kept, queue, same⟩
    have passQueue : pass.1.ackQueue = kept := queue
    rw [passQueue]
    exact same

/-- Two events that are tried again after a minute. -/
theorem ack_queue_represents_motion :
    let ops := [Op.enqueueEvent motionEvent, .enqueueEvent motionEvent, .ackThread]
    let rules := [motionRule (Number.roundToDouble 0)]
    let clock := SteadyClock.ofList 0 [0, 0, 0, 60000000000]
    let engine := ((machine rules clock).run ops).state
    engine.ackQueue.map (·.entry.numTries) = [2, 2] ∧
      (engine.ackQueue.map (·.entry.id)).Pairwise (· < ·) := by
  intro ops rules clock engine
  exact ⟨by decide +kernel, (ack_queue_represents rules clock ops (by decide +kernel)).1⟩

end Sentri.Core.RuleEngine
