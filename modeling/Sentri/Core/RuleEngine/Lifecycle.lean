import Sentri.Core.RuleEngine.Actions
import Sentri.Transition.Retry

/-!
# The life of an event

Every event that is enqueued for an existing rule runs through the life of a
retried request: the entry in the acknowledgement queue is its pending phase,
and the messages handed to the messenger about it are its history.
-/

namespace Sentri.Core.RuleEngine

open Sentri.LibModule Sentri.Text Sentri.Transition

/-- The role of a handed message in the life of its event. -/
def kind (item : Op × Handed) : Retry.Kind :=
  match item.2.delivery.message with
  | .msgActio _ => .attempt
  | .msgAckev _ => .answer
  | .msgEvabt _ => .abort
  | _ => .other

def time (item : Op × Handed) : Timepoint :=
  item.2.time

/-- The life of an event under the constants of the rule engine. -/
abbrev EventLife : Retry.Phase → List (Op × Handed) → Prop :=
  Retry.Life kind time (numActionRetries + 1) (milliseconds ackTimeout)

/-- What was handed to the messenger about one call of `enqueueEvent`. -/
def history (call : Nat) (trace : List (Op × Handed)) : List (Op × Handed) :=
  trace.filter (·.2.call = call)

/-- The entries of one call of `enqueueEvent` in the queue. -/
def slot (call : Nat) (queue : List Pending) : List Pending :=
  queue.filter (·.call = call)

theorem mem_history {call : Nat} {trace : List (Op × Handed)} {item : Op × Handed} :
    item ∈ history call trace ↔ item ∈ trace ∧ item.2.call = call := by
  simp [history]

theorem mem_slot {call : Nat} {queue : List Pending} {pending : Pending} :
    pending ∈ slot call queue ↔ pending ∈ queue ∧ pending.call = call := by
  simp [slot]

theorem history_concat_same (trace : List (Op × Handed)) (op : Op) (out : Handed) :
    history out.call (trace ++ [(op, out)]) = history out.call trace ++ [(op, out)] := by
  simp [history]

theorem history_concat_other {call : Nat} (trace : List (Op × Handed)) (op : Op)
    {out : Handed} (other : out.call ≠ call) :
    history call (trace ++ [(op, out)]) = history call trace := by
  simp [history, other]

theorem slot_append (call : Nat) (first second : List Pending) :
    slot call (first ++ second) = slot call first ++ slot call second := by
  simp [slot]

theorem slot_cons_same (pending : Pending) (left : List Pending) :
    slot pending.call (pending :: left) = pending :: slot pending.call left := by
  simp [slot]

theorem slot_cons_other {call : Nat} {pending : Pending} (other : pending.call ≠ call)
    (left : List Pending) : slot call (pending :: left) = slot call left := by
  simp [slot, other]

/-- The queue entries that belong to a phase of an event. -/
inductive Waits : Retry.Phase → List Pending → Prop
  | rejected : Waits .rejected []
  | pending {sent : Timepoint} (pending : Pending)
      (sent_le : sent ≤ pending.entry.actionSent) :
      Waits (.pending pending.entry.numTries.toNat sent) [pending]
  | settled : Waits .settled []

/-- An entry found in the queue is the only one of its call, and its event is
pending. -/
theorem Waits.of_queue {phase : Retry.Phase} {passed left : List Pending}
    {pending : Pending}
    (waits : Waits phase (slot pending.call (passed ++ pending :: left))) :
    ∃ sent, phase = .pending pending.entry.numTries.toNat sent ∧
      sent ≤ pending.entry.actionSent ∧
      slot pending.call passed = [] ∧ slot pending.call left = [] := by
  rw [slot_append, slot_cons_same] at waits
  generalize entries : slot pending.call passed ++ pending :: slot pending.call left =
    queue at waits
  cases waits with
  | rejected => simp at entries
  | settled => simp at entries
  | @pending sent only sent_le =>
      obtain ⟨passedNil, rest⟩ :
          slot pending.call passed = [] ∧ pending :: slot pending.call left = [only] := by
        cases before : slot pending.call passed with
        | nil => exact ⟨rfl, by simpa [before] using entries⟩
        | cons other others => simp [before] at entries
      obtain ⟨rfl, leftNil⟩ := List.cons.inj rest
      exact ⟨sent, rfl, sent_le, passedNil, leftNil⟩

/-- Every event follows its life, and the queue holds exactly the pending ones. -/
structure Tracks (rules : List RuleInfo) (run : EngineRun) : Prop where
  queued : ∀ pending ∈ run.state.ackQueue, ∃ entry rule,
    run.state.calls[pending.call]? = some entry ∧ pending.entry.event = entry.event ∧
      getRule rules entry.event.ruleId = some rule
  silent : ∀ call,
    (∀ entry rule, run.state.calls[call]? = some entry →
      getRule rules entry.event.ruleId ≠ some rule) →
    history call run.trace = []
  lives : ∀ call entry rule, run.state.calls[call]? = some entry →
    getRule rules entry.event.ruleId = some rule →
    ∃ phase, EventLife phase (history call run.trace) ∧
      Waits phase (slot call run.state.ackQueue)

namespace Tracks

variable {rules : List RuleInfo} {clock : SteadyClock} {run : EngineRun} {op : Op}

theorem initial : Tracks rules (machine rules clock).fresh where
  queued := by simp [Machine.fresh, machine, new]
  silent := by simp [Machine.fresh, history]
  lives := by simp [Machine.fresh, machine, new]

/-- Nothing was handed about a call that is still to come. -/
theorem fresh_call (tracks : Tracks rules run) :
    history run.state.calls.length run.trace = [] ∧
      slot run.state.calls.length run.state.ackQueue = [] := by
  constructor
  · apply tracks.silent
    intro entry rule present
    simp at present
  · rw [slot, List.filter_eq_nil_iff]
    intro pending member equal
    obtain ⟨entry, _, present, _⟩ := tracks.queued pending member
    have := (List.getElem?_eq_some_iff.mp present).1
    simp only [decide_eq_true_eq] at equal
    omega

/-- The first message about a new call is its whole history. -/
theorem history_of_first (tracks : Tracks rules run) (item : Op × Handed)
    (about : item.2.call = run.state.calls.length) :
    history run.state.calls.length (run.trace ++ [item]) = [item] := by
  rw [← about, history_concat_same, about, tracks.fresh_call.1, List.nil_append]

/-- A new call keeps everything said about the older ones.  The new one has to
be shown `silent` or alive. -/
theorem add_call {engine : RuleEngine} {trace : List (Op × Handed)} {entry : EventEntry}
    (tracks : Tracks rules run)
    (calls : engine.calls = run.state.calls ++ [entry])
    (queued : ∀ pending ∈ engine.ackQueue, pending ∈ run.state.ackQueue ∨
      (pending.call = run.state.calls.length ∧ pending.entry.event = entry.event ∧
        ∃ rule, getRule rules entry.event.ruleId = some rule))
    (older : ∀ call, call ≠ run.state.calls.length →
      history call trace = history call run.trace ∧
        slot call engine.ackQueue = slot call run.state.ackQueue)
    (silent : getRule rules entry.event.ruleId = none →
      history run.state.calls.length trace = [])
    (lives : ∀ rule, getRule rules entry.event.ruleId = some rule →
      ∃ phase, EventLife phase (history run.state.calls.length trace) ∧
        Waits phase (slot run.state.calls.length engine.ackQueue)) :
    Tracks rules ⟨engine, trace⟩ where
  queued := by
    intro pending member
    rcases queued pending member with old | ⟨callEq, eventEq, rule, found⟩
    · obtain ⟨oldEntry, rule, present, rest⟩ := tracks.queued pending old
      have bound := (List.getElem?_eq_some_iff.mp present).1
      refine ⟨oldEntry, rule, ?_, rest⟩
      simpa [calls, List.getElem?_append_left bound] using present
    · exact ⟨entry, rule, by simp [calls, callEq], eventEq, found⟩
  silent := by
    intro call unknown
    by_cases new : call = run.state.calls.length
    · subst new
      apply silent
      cases found : getRule rules entry.event.ruleId with
      | none => rfl
      | some rule => exact absurd found (unknown entry rule (by simp [calls]))
    · rw [(older call new).1]
      apply tracks.silent
      intro oldEntry rule present
      have bound := (List.getElem?_eq_some_iff.mp present).1
      exact unknown oldEntry rule (by simpa [calls, List.getElem?_append_left bound] using present)
  lives := by
    intro call oldEntry rule present found
    by_cases new : call = run.state.calls.length
    · subst new
      have entryEq : entry = oldEntry := by simpa [calls] using present
      subst entryEq
      exact lives rule found
    · rw [(older call new).1, (older call new).2]
      apply tracks.lives call oldEntry rule _ found
      simp only [calls] at present
      rw [List.getElem?_append] at present
      split at present
      · exact present
      · have : call - run.state.calls.length = 0 := by
          have := (List.getElem?_eq_some_iff.mp present).1
          simp only [List.length_singleton] at this
          omega
        omega

/-- An action about one pending event moves only that event on. -/
theorem move_on {engine : RuleEngine} {out : Handed} {passed left : List Pending}
    {pending : Pending} (replaced : List Pending) (tracks : Tracks rules run)
    (queue : run.state.ackQueue = passed ++ pending :: left)
    (calls : engine.calls = run.state.calls)
    (newQueue : engine.ackQueue = passed ++ (replaced ++ left))
    (same : ∀ other ∈ replaced,
      other.call = pending.call ∧ other.entry.event = pending.entry.event)
    (about : out.call = pending.call)
    (moves : ∀ sent events, sent ≤ pending.entry.actionSent →
      EventLife (.pending pending.entry.numTries.toNat sent) events →
      ∃ phase, EventLife phase (events ++ [(op, out)]) ∧ Waits phase replaced) :
    Tracks rules ⟨engine, run.trace ++ [(op, out)]⟩ where
  queued := by
    intro other member
    rw [calls]
    have pendingQueued := tracks.queued pending (by simp [queue])
    rw [newQueue] at member
    rcases List.mem_append.mp member with before | rest
    · exact tracks.queued other (by simp [queue, before])
    · rcases List.mem_append.mp rest with moved | behind
      · rw [(same other moved).1, (same other moved).2]
        exact pendingQueued
      · exact tracks.queued other (by simp [queue, behind])
  silent := by
    intro call unknown
    rw [calls] at unknown
    have other : out.call ≠ call := by
      rintro rfl
      obtain ⟨entry, rule, present, _, found⟩ := tracks.queued pending (by simp [queue])
      exact unknown entry rule (about ▸ present) found
    rw [history_concat_other _ _ other]
    exact tracks.silent call unknown
  lives := by
    intro call entry rule present found
    rw [calls] at present
    obtain ⟨phase, life, waits⟩ := tracks.lives call entry rule present found
    rw [queue] at waits
    by_cases equal : pending.call = call
    · subst equal
      rcases waits.of_queue with ⟨sent, rfl, sentLe, passedNil, leftNil⟩
      obtain ⟨next, nextLife, nextWaits⟩ := moves sent _ sentLe life
      refine ⟨next, ?_, ?_⟩
      · rw [← about, history_concat_same, about]
        exact nextLife
      · have all : slot pending.call replaced = replaced := by
          rw [slot, List.filter_eq_self]
          intro other member
          simpa using (same other member).1
        rw [newQueue, slot_append, slot_append, passedNil, leftNil, all]
        simpa using nextWaits
    · refine ⟨phase, ?_, ?_⟩
      · rw [history_concat_other _ _ (by rw [about]; exact equal)]
        exact life
      · have gone : slot call replaced = [] := by
          rw [slot, List.filter_eq_nil_iff]
          intro other member
          simpa [(same other member).1] using equal
        rw [newQueue, slot_append, slot_append, gone]
        rw [slot_append, slot_cons_other equal] at waits
        simpa using waits

/-- Every action of the engine moves the events on along their lives. -/
theorem step {engine : RuleEngine} {handed : List Handed}
    (action : Action rules clock op run.state engine handed) (tracks : Tracks rules run) :
    Tracks rules (after op run engine handed) := by
  rcases tracks.fresh_call with ⟨noHistory, noSlot⟩
  cases action with
  | read => exact ⟨tracks.queued, by simpa [after] using tracks.silent,
      by simpa [after] using tracks.lives⟩
  | @ignore entry unknown =>
      apply tracks.add_call rfl
      · exact fun pending member => Or.inl member
      · exact fun call _ => ⟨by simp, rfl⟩
      · intro _
        simpa using noHistory
      · intro rule found
        rw [unknown] at found
        cases found
  | @reject entry rule found =>
      apply tracks.add_call rfl
      · exact fun pending member => Or.inl member
      · exact fun call new => ⟨history_concat_other _ _ (Ne.symm new), rfl⟩
      · intro unknown
        rw [unknown] at found
        cases found
      · intro _ _
        refine ⟨.rejected, ?_, by rw [noSlot]; exact .rejected⟩
        rw [List.map_singleton, tracks.history_of_first _ rfl]
        exact .reject rfl
  | @accept entry rule now _ found _ _ _ =>
      apply tracks.add_call rfl
      · intro pending member
        rcases List.mem_append.mp member with old | new
        · exact Or.inl old
        · rw [List.mem_singleton.mp new]
          exact Or.inr ⟨rfl, rfl, rule, found⟩
      · intro call new
        refine ⟨history_concat_other _ _ (Ne.symm new), ?_⟩
        rw [slot_append, slot_cons_other (Ne.symm new)]
        simp [slot]
      · intro unknown
        rw [unknown] at found
        cases found
      · intro _ _
        let first : Op × Handed := (op, ⟨run.state.calls.length,
          clock.reading run.state.ticks,
          Messenger.sendAction rule.action.module (acceptedEntry clock run.state entry)⟩)
        refine ⟨.pending 1 (time first), ?_, ?_⟩
        · have life : EventLife (.pending 1 (time first)) [first] := .start rfl
          rw [List.map_singleton, tracks.history_of_first first rfl]
          exact life
        · rw [slot_append, noSlot, slot_cons_same
            ⟨run.state.calls.length, acceptedEntry clock run.state entry⟩]
          exact Waits.pending ⟨run.state.calls.length, acceptedEntry clock run.state entry⟩
            (clock.reading_le (Nat.le_succ _))
  | @retry passed left pending rule now _ queue _ past due more =>
      refine move_on [⟨pending.call, _⟩] tracks queue rfl rfl (by simp) rfl ?_
      intro sent events sentLe life
      refine ⟨_, .retry life (Nat.lt_succ_of_le more) rfl ?_, ?_⟩
      · change sent + milliseconds ackTimeout ≤ clock.reading run.state.ticks
        linarith
      · have tries : (pending.entry.numTries + 1).toNat = pending.entry.numTries.toNat + 1 := by
          have small : pending.entry.numTries.toNat ≤ 3 := more
          rw [UInt16.toNat_add]
          change (pending.entry.numTries.toNat + 1) % 65536 = _
          omega
        rw [← tries]
        exact Waits.pending ⟨pending.call,
          pending.entry.attempt (clock.reading (run.state.ticks + 1))⟩
          (clock.reading_le (Nat.le_succ _))
  | @giveUp passed left pending rule now _ queue _ due noMore =>
      refine move_on [] tracks queue rfl rfl (by simp) rfl ?_
      intro sent events sentLe life
      refine ⟨.settled, .giveUp life noMore rfl ?_, .settled⟩
      change sent + milliseconds ackTimeout ≤ now
      linarith
  | @acknowledge passed left pending rule _ queue _ _ =>
      refine move_on [] tracks queue rfl rfl (by simp) rfl ?_
      intro sent events _ life
      exact ⟨.settled, .answer life rfl, .settled⟩
  | @forget passed left pending queue unknown =>
      obtain ⟨entry, rule, _, eventEq, found⟩ := tracks.queued pending (by simp [queue])
      rw [eventEq, found] at unknown
      cases unknown

end Tracks

/-- In every run every event follows its life. -/
theorem tracks_run (rules : List RuleInfo) (clock : SteadyClock) (ops : List Op) :
    Tracks rules ((machine rules clock).run ops) :=
  run_invariant_of_action _ Tracks.initial (fun _ _ _ _ action => Tracks.step action) ops

end Sentri.Core.RuleEngine
