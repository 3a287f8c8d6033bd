import Sentri.Core.RuleEngine.AckQueue
import Sentri.Core.RuleEngine.FireLimit

/-!
# Settling in time

An event that is never acknowledged does not wait for ever.  The ack thread looks
at the whole queue in every pass; as long as its passes follow each other within a
period and no operation takes longer than a given duration, every accepted event
is settled a bounded time after its first action.  Together with the fire limit of
a rule this bounds the number of its events in the queue.
-/

namespace Sentri.Core.RuleEngine

open Sentri.LibModule Sentri.Text Sentri.Transition

variable (rules : List RuleInfo) (clock : SteadyClock)

/-- A rule engine and the time of the last look at its queue. -/
structure Checked where
  engine : RuleEngine
  lastCheck : Timepoint

/-- The rule engine with the times of the passes of its ack thread.  Before the
first pass the start of the thread counts. -/
def checked : Machine Checked Op Handed where
  start := ⟨new rules, clock.reading 0⟩
  step state op :=
    let (engine, handed) := (machine rules clock).step state.engine op
    (⟨engine, if op = .ackThread then clock.reading state.engine.ticks else state.lastCheck⟩,
      handed)

/-- A pass of the ack thread comes at most `period` after the one before it, and an
operation takes at most `duration` from its first reading of the clock to its
last. -/
structure Prompt (period duration : Nat) (state : Checked) (op : Op) : Prop where
  soon : op = .ackThread → clock.reading state.engine.ticks ≤ state.lastCheck + period
  brief : clock.reading (((machine rules clock).step state.engine op).1.ticks - 1) ≤
    clock.reading state.engine.ticks + duration

/-- All operations are prompt. -/
def Punctual (period duration : Nat) (ops : List Op) : Prop :=
  Throughout
    (fun before op =>
      Prompt rules clock period duration ((checked rules clock).run before).state op)
    ops

/-- The longest time between two tries. -/
def lap (period duration : Nat) : Int :=
  milliseconds ackTimeout + period + duration

/-- No entry was due at the last check, and it was sent in time since each of the
messages about it. -/
structure InTime (period duration : Nat) (check : Timepoint) (run : EngineRun) : Prop where
  read : check ≤ clock.reading run.state.ticks
  fresh : ∀ pending ∈ run.state.ackQueue,
    check < pending.entry.actionSent + milliseconds ackTimeout
  sent : ∀ pending ∈ run.state.ackQueue, ∀ item ∈ run.trace, item.2.call = pending.call →
    pending.entry.actionSent ≤
      time item + duration + (pending.entry.numTries.toNat - 1) * lap period duration

variable {rules clock}

theorem checked_run (ops : List Op) :
    ((checked rules clock).run ops).state.engine = ((machine rules clock).run ops).state ∧
      ((checked rules clock).run ops).trace = ((machine rules clock).run ops).trace := by
  induction ops using List.reverseRecOn with
  | nil => exact ⟨rfl, rfl⟩
  | append_singleton ops op ih =>
      rcases ih with ⟨stateEq, traceEq⟩
      simp only [Machine.run_concat, Machine.extend_state, Machine.extend_trace, checked]
        at stateEq traceEq ⊢
      rw [stateEq, traceEq]
      exact ⟨rfl, rfl⟩

/-! ## Readings -/

theorem Actions.ticks_le {op : Op} {engine next : RuleEngine} {handed : List Handed}
    (actions : Actions rules clock op engine next handed) : engine.ticks ≤ next.ticks := by
  induction actions with
  | done => exact le_rfl
  | cons action _ ih => exact action.ticks_le.trans ih

/-- The entries behind an entry of the queue and before it belong to other calls. -/
theorem Tracks.other_call {run : EngineRun} (tracks : Tracks rules run)
    {passed left : List Pending} {pending other : Pending}
    (queue : run.state.ackQueue = passed ++ pending :: left)
    (member : other ∈ passed ++ left) : other.call ≠ pending.call := by
  intro same
  rcases tracks.queued pending (by simp [queue]) with ⟨entry, rule, present, _, found⟩
  rcases tracks.lives _ entry rule present found with ⟨phase, _, waits⟩
  rw [queue] at waits
  rcases waits.of_queue with ⟨_, _, _, passedNil, leftNil⟩
  have inSlot : other ∈ slot pending.call (passed ++ left) := mem_slot.mpr ⟨member, same⟩
  rw [slot_append, passedNil, leftNil] at inSlot
  cases inSlot

theorem Tracks.call_lt {run : EngineRun} (tracks : Tracks rules run) {pending : Pending}
    (member : pending ∈ run.state.ackQueue) : pending.call < run.state.calls.length := by
  rcases tracks.queued pending member with ⟨_, _, present, _⟩
  exact (List.getElem?_eq_some_iff.mp present).1

/-! ## One action -/

namespace InTime

variable {period duration : Nat} {check start : Timepoint} {run : EngineRun} {op : Op}

/-- Entries that were in the queue before, and messages about other calls. -/
theorem keep {engine : RuleEngine} {handed : List Handed}
    (inTime : InTime clock period duration check run) (ticks : run.state.ticks ≤ engine.ticks)
    (queue : ∀ pending ∈ engine.ackQueue, pending ∈ run.state.ackQueue)
    (others : ∀ pending ∈ engine.ackQueue, ∀ out ∈ handed, out.call ≠ pending.call) :
    InTime clock period duration check (after op run engine handed) where
  read := inTime.read.trans (clock.reading_le ticks)
  fresh pending member := inTime.fresh pending (queue pending member)
  sent := by
    intro pending member item itemMember same
    rcases List.mem_append.mp itemMember with old | new
    · exact inTime.sent pending (queue pending member) item old same
    · rcases List.mem_map.mp new with ⟨out, outMember, rfl⟩
      exact absurd same (others pending member out outMember)

/-- An entry leaves the queue. -/
theorem erase {engine : RuleEngine} {handed : List Handed} {passed left : List Pending}
    {pending : Pending} (inTime : InTime clock period duration check run)
    (tracks : Tracks rules run) (ticks : run.state.ticks ≤ engine.ticks)
    (queue : run.state.ackQueue = passed ++ pending :: left)
    (rest : engine.ackQueue = passed ++ left)
    (about : ∀ out ∈ handed, out.call = pending.call) :
    InTime clock period duration check (after op run engine handed) := by
  apply inTime.keep ticks
  · intro other member
    rw [rest] at member
    rw [queue]
    exact (List.Sublist.append_left (List.sublist_cons_self _ _) _).subset member
  · intro other member out outMember same
    rw [rest] at member
    exact tracks.other_call queue member (same.symm.trans (about out outMember))

/-- One entry is sent, the others stay. -/
theorem send {engine : RuleEngine} {out : Handed} (pending : Pending)
    (inTime : InTime clock period duration check run)
    (ticks : run.state.ticks ≤ engine.ticks) (about : out.call = pending.call)
    (entries : ∀ other ∈ engine.ackQueue, other = pending ∨
      other ∈ run.state.ackQueue ∧ other.call ≠ pending.call)
    (late : check ≤ pending.entry.actionSent)
    (soon : pending.entry.actionSent ≤ out.time + duration +
      (pending.entry.numTries.toNat - 1) * lap period duration)
    (older : ∀ item ∈ run.trace, item.2.call = pending.call → pending.entry.actionSent ≤
      time item + duration + (pending.entry.numTries.toNat - 1) * lap period duration) :
    InTime clock period duration check (after op run engine [out]) where
  read := inTime.read.trans (clock.reading_le ticks)
  fresh := by
    intro other member
    rcases entries other member with rfl | ⟨old, _⟩
    · have positive : 0 < milliseconds ackTimeout := by decide
      linarith
    · exact inTime.fresh other old
  sent := by
    intro other member item itemMember same
    rcases List.mem_append.mp itemMember with old | new
    · rcases entries other member with rfl | ⟨queued, _⟩
      · exact older item old same
      · exact inTime.sent other queued item old same
    · obtain rfl : item = (op, out) := by simpa using new
      rcases entries other member with rfl | ⟨_, different⟩
      · exact soon
      · exact absurd (same.symm.trans about) different

theorem lap_nonneg (period duration : Nat) : 0 ≤ lap period duration := by
  have positive : 0 ≤ milliseconds ackTimeout := by decide
  unfold lap
  linarith [Int.natCast_nonneg period, Int.natCast_nonneg duration]

/-- An action that keeps to the times of its operation, which began at `start`. -/
theorem step {engine : RuleEngine} {handed : List Handed}
    (action : Action rules clock op run.state engine handed) (tracks : Tracks rules run)
    (tried : ∀ pending ∈ run.state.ackQueue, 1 ≤ pending.entry.numTries.toNat)
    (began : start ≤ clock.reading run.state.ticks)
    (soon : op = .ackThread → start ≤ check + period)
    (brief : clock.reading (engine.ticks - 1) ≤ start + duration)
    (inTime : InTime clock period duration check run) :
    InTime clock period duration check (after op run engine handed) := by
  have ticks := action.ticks_le
  cases action with
  | read => exact inTime.keep ticks (fun _ member => member) (by simp)
  | ignore => exact inTime.keep ticks (fun _ member => member) (by simp)
  | reject =>
      apply inTime.keep ticks (fun _ member => member)
      intro pending member out outMember same
      rw [List.mem_singleton.mp outMember] at same
      exact absurd same.symm (tracks.call_lt member).ne
  | @accept entry rule now inCall found =>
      have last : clock.reading (run.state.ticks + 1) ≤ start + duration := brief
      have zero : (((0 : UInt16) + 1).toNat - 1 : Int) * lap period duration = 0 := by
        simp
      apply send ⟨run.state.calls.length, acceptedEntry clock run.state entry⟩ inTime ticks rfl
      · intro other member
        rcases List.mem_append.mp member with old | new
        · exact Or.inr ⟨old, (tracks.call_lt old).ne⟩
        · exact Or.inl (List.mem_singleton.mp new)
      · exact inTime.read.trans (clock.reading_le (Nat.le_succ _))
      · change clock.reading (run.state.ticks + 1) ≤ clock.reading run.state.ticks + duration +
          (((0 : UInt16) + 1).toNat - 1 : Int) * lap period duration
        linarith
      · intro item member same
        have inHistory : item ∈ history run.state.calls.length run.trace :=
          mem_history.mpr ⟨member, same⟩
        rw [tracks.fresh_call.1] at inHistory
        cases inHistory
  | @retry passed left pending rule now inPass queue found past due more =>
      have waiting : pending ∈ run.state.ackQueue := by simp [queue]
      have last : clock.reading (run.state.ticks + 1) ≤ start + duration := brief
      have positive : 0 ≤ (pending.entry.numTries.toNat : Int) - 1 := by
        have := tried pending waiting
        linarith [Int.ofNat_le.mpr this]
      have nonneg := lap_nonneg period duration
      have tries : ((pending.entry.attempt (clock.reading (run.state.ticks + 1))).numTries.toNat
          : Int) - 1 = (pending.entry.numTries.toNat - 1) + 1 := by
        rw [attempt_tries _ more]
        push_cast
        ring
      apply send ⟨pending.call, pending.entry.attempt (clock.reading (run.state.ticks + 1))⟩
        inTime ticks rfl
      · intro other member
        have otherCall : other ∈ passed ++ left →
            other ∈ run.state.ackQueue ∧ other.call ≠ pending.call := by
          intro rest
          refine ⟨?_, tracks.other_call queue rest⟩
          rw [queue]
          exact (List.Sublist.append_left (List.sublist_cons_self _ _) _).subset rest
        rcases List.mem_append.mp member with before | rest
        · exact Or.inr (otherCall (List.mem_append_left _ before))
        · rcases List.mem_cons.mp rest with moved | behind
          · exact Or.inl moved
          · exact Or.inr (otherCall (List.mem_append_right _ behind))
      · exact inTime.read.trans (clock.reading_le (Nat.le_succ _))
      · rw [tries]
        change clock.reading (run.state.ticks + 1) ≤ clock.reading run.state.ticks + duration + _
        have product := mul_nonneg (add_nonneg positive zero_le_one) nonneg
        linarith
      · intro item member same
        have sent := inTime.sent pending waiting item member same
        have fresh := inTime.fresh pending waiting
        have passed := soon inPass
        rw [tries, add_mul, one_mul]
        change clock.reading (run.state.ticks + 1) ≤ _
        have unfolded : lap period duration = milliseconds ackTimeout + period + duration := rfl
        linarith
  | giveUp inPass queue => exact inTime.erase tracks ticks queue rfl (by simp)
  | acknowledge inAck queue => exact inTime.erase tracks ticks queue rfl (by simp)
  | forget queue => exact inTime.erase tracks ticks queue rfl (by simp)

/-- A sequence of actions of one operation. -/
theorem steps {first second : RuleEngine} {handed : List Handed} {trace : List (Op × Handed)}
    (actions : Actions rules clock op first second handed) (tracks : Tracks rules ⟨first, trace⟩)
    (represents : Represents rules ⟨first, trace⟩) (numbered : Numbered ⟨first, trace⟩)
    (began : start ≤ clock.reading first.ticks)
    (soon : op = .ackThread → start ≤ check + period)
    (brief : clock.reading (second.ticks - 1) ≤ start + duration)
    (inTime : InTime clock period duration check ⟨first, trace⟩) :
    InTime clock period duration check (after op ⟨first, trace⟩ second handed) := by
  induction actions generalizing trace with
  | done => simpa [after] using inTime
  | @cons first middle last handed rest action more ih =>
      have briefFirst : clock.reading (middle.ticks - 1) ≤ start + duration :=
        (clock.reading_le (Nat.sub_le_sub_right more.ticks_le 1)).trans brief
      have stepped := inTime.step action tracks (fun pending member =>
        (represents.tried pending member).1) began soon briefFirst
      have finished := ih (tracks.step action) (represents.step action numbered)
        (numbered.step action) (began.trans (clock.reading_le action.ticks_le)) brief stepped
      simpa [after] using finished

end InTime

/-! ## A pass of the ack thread -/

/-- After a pass no entry is due at the time of its first reading. -/
theorem ackThreadLoop_fresh (now : Timepoint) (engine : RuleEngine)
    (passed left : List Pending) (queue : engine.ackQueue = passed ++ left)
    (past : now ≤ clock.reading engine.ticks)
    (known : ∀ pending ∈ left, pending.entry.event.ruleId < rules.length)
    (before : ∀ pending ∈ passed, now < pending.entry.actionSent + milliseconds ackTimeout) :
    ∀ pending ∈ (ackThreadLoop rules clock now engine passed left).1.ackQueue,
      now < pending.entry.actionSent + milliseconds ackTimeout := by
  induction left generalizing engine passed with
  | nil =>
      intro pending member
      apply before
      simpa [ackThreadLoop, queue] using member
  | cons pending left ih =>
      have others : ∀ other ∈ left, other.entry.event.ruleId < rules.length :=
        fun other member => known other (List.mem_cons_of_mem _ member)
      have grown : ∀ {tried : Pending},
          now < tried.entry.actionSent + milliseconds ackTimeout →
          ∀ other ∈ passed ++ [tried],
            now < other.entry.actionSent + milliseconds ackTimeout := by
        intro tried fresh other member
        rcases List.mem_append.mp member with old | new
        · exact before other old
        · rw [List.mem_singleton.mp new]
          exact fresh
      rw [ackThreadLoop]
      by_cases late : now - pending.entry.actionSent ≥ milliseconds ackTimeout
      · rw [if_pos late]
        by_cases more : pending.entry.numTries.toNat ≤ numActionRetries
        · rw [if_pos more]
          have inRange : pending.entry.event.ruleId < rules.length :=
            known pending List.mem_cons_self
          have found : getRule rules pending.entry.event.ruleId =
              some rules[pending.entry.event.ruleId] :=
            List.getElem?_eq_getElem inRange
          rw [takeAction_of_found found]
          apply ih
          · simp
          · exact past.trans (clock.reading_le (Nat.le_add_right _ _))
          · exact others
          · apply grown
            have positive : 0 < milliseconds ackTimeout := by decide
            have sent := past.trans (clock.reading_le (Nat.le_succ engine.ticks))
            change now < clock.reading (engine.ticks + 1) + milliseconds ackTimeout
            linarith
        · rw [if_neg more]
          exact ih _ passed rfl past others before
      · rw [if_neg late]
        apply ih engine (passed ++ [pending]) (by simp [queue]) past others
        apply grown
        linarith

/-! ## Runs -/

/-- The times are kept in every punctual run. -/
theorem inTime_run {period duration : Nat} (ops : List Op)
    (punctual : Punctual rules clock period duration ops) :
    InTime clock period duration ((checked rules clock).run ops).state.lastCheck
      ((machine rules clock).run ops) := by
  induction ops using List.reverseRecOn with
  | nil =>
      constructor
      · exact le_rfl
      · simp [Machine.fresh, machine, new]
      · simp [Machine.fresh]
  | append_singleton ops op ih =>
      rcases punctual.of_concat with ⟨earlier, prompt⟩
      rcases prompt with ⟨soon, brief⟩
      have inTime := ih earlier
      have represents := represents_run rules clock ops
      rw [Machine.run_concat, Machine.run_concat, Machine.extend_state]
      rw [(checked_run ops).1] at soon brief
      have actions := @step_actions rules clock ((machine rules clock).run ops).state op
      have stepped := inTime.steps actions (tracks_run rules clock ops) represents
        (numbered_run rules clock ops) le_rfl soon brief
      by_cases pass : op = .ackThread
      · subst pass
        have check : ((checked rules clock).step ((checked rules clock).run ops).state
            .ackThread).1.lastCheck =
              clock.reading ((machine rules clock).run ops).state.ticks := by
          rw [← (checked_run ops).1]
          rfl
        rw [check]
        refine ⟨clock.reading_le actions.ticks_le, ?_, stepped.sent⟩
        apply ackThreadLoop_fresh
        · rfl
        · exact clock.reading_le (Nat.le_succ _)
        · exact represents.covered.known
        · simp
      · have check : ((checked rules clock).step ((checked rules clock).run ops).state
            op).1.lastCheck = ((checked rules clock).run ops).state.lastCheck := by
          simp [checked, pass]
        rw [check]
        exact stepped

/-- A pending event was sent less than all its laps before the last check. -/
theorem InTime.lastCheck_lt {period duration : Nat} {check : Timepoint} {run : EngineRun}
    (inTime : InTime clock period duration check run) (represents : Represents rules run)
    {pending : Pending} (waiting : pending ∈ run.state.ackQueue) {item : Op × Handed}
    (member : item ∈ run.trace) (same : item.2.call = pending.call) :
    check < time item + (numActionRetries + 1) * lap period duration := by
  have fresh := inTime.fresh pending waiting
  have sent := inTime.sent pending waiting item member same
  have tries : (pending.entry.numTries.toNat : Int) - 1 ≤ numActionRetries := by
    have := (represents.tried pending waiting).2
    linarith [Int.ofNat_le.mpr this, Nat.cast_succ (R := Int) numActionRetries]
  have laps := mul_le_mul_of_nonneg_right tries (lap_nonneg period duration)
  have unfolded : lap period duration = milliseconds ackTimeout + period + duration := rfl
  have positive := Int.natCast_nonneg period
  rw [add_mul, one_mul]
  linarith

/-- Every accepted event is settled in time.  In a punctual run an event one of whose
actions lies all laps before the last check is no longer pending: its actions are
followed by its final message, an answer to an acknowledgement or the abort after
the last retry. -/
theorem settled_in_time (rules : List RuleInfo) (clock : SteadyClock) (period duration : Nat)
    (ops : List Op) (punctual : Punctual rules clock period duration ops) (call : Nat)
    (action : Op × Handed) (member : action ∈ history call ((machine rules clock).run ops).trace)
    (isAction : action.2.delivery.message.type = .msgActio)
    (old : time action + (numActionRetries + 1) * lap period duration ≤
      ((checked rules clock).run ops).state.lastCheck) :
    (∀ pending ∈ ((machine rules clock).run ops).state.ackQueue, pending.call ≠ call) ∧
      ∃ id actions final,
        history call ((machine rules clock).run ops).trace = actions ++ [final] ∧
          AcceptedHistory id actions [final] := by
  have tracks := tracks_run rules clock ops
  have consistent := consistent_run rules clock ops
  have inTime := inTime_run ops punctual
  rcases mem_history.mp member with ⟨inTrace, about⟩
  have gone : ∀ pending ∈ ((machine rules clock).run ops).state.ackQueue,
      pending.call ≠ call := by
    intro pending waiting same
    have late := inTime.lastCheck_lt (represents_run rules clock ops) waiting inTrace
      (about.trans same.symm)
    exact absurd old (not_le.mpr late)
  refine ⟨gone, ?_⟩
  rcases consistent.about action inTrace with ⟨entry, rule, body, isAbout⟩
  have called := isAbout.called
  rw [about] at called
  rcases tracks.accepted_history consistent called (lt_of_getRule isAbout.found) with
    ⟨item, single, isAbort, _⟩ | ⟨id, actions, final, split, accepted, pendingIff⟩
  · rw [single, List.mem_singleton] at member
    rw [member, isAbort] at isAction
    cases isAction
  · have closed : final ≠ [] := by
      intro empty
      rcases pendingIff.mp empty with ⟨pending, waiting, same, _⟩
      exact gone pending waiting same
    rcases List.exists_cons_of_ne_nil closed with ⟨last, rest, rfl⟩
    obtain rfl : rest = [] := by
      have := accepted.oneFinal
      simpa using this
    exact ⟨id, actions, last, split, accepted⟩

/-- An event that nobody acknowledges, and a look at the queue every four minutes. -/
def forgottenOps : List Op :=
  .enqueueEvent motionEvent :: List.replicate 5 .ackThread

def forgottenClock : SteadyClock :=
  SteadyClock.ofList 0 [0, 240000000000, 0, 0, 240000000000, 0, 0, 240000000000, 0, 0, 240000000000,
    240000000000]

/-- It is given up in the fourth look. -/
theorem settled_in_time_forgotten :
    let run := (machine [motionRule 0] forgottenClock).run forgottenOps
    (history 0 run.trace).length = 5 ∧ ∀ pending ∈ run.state.ackQueue, pending.call ≠ 0 := by
  have punctual : Punctual [motionRule 0] forgottenClock 240000000000 0
      ([] ++ [.enqueueEvent motionEvent] ++ [.ackThread] ++ [.ackThread] ++ [.ackThread] ++
        [.ackThread] ++ [.ackThread]) :=
    (((((Throughout.nil.concat ⟨nofun, by decide +kernel⟩).concat
      ⟨fun _ => by decide +kernel, by decide +kernel⟩).concat
      ⟨fun _ => by decide +kernel, by decide +kernel⟩).concat
      ⟨fun _ => by decide +kernel, by decide +kernel⟩).concat
      ⟨fun _ => by decide +kernel, by decide +kernel⟩).concat
      ⟨fun _ => by decide +kernel, by decide +kernel⟩
  intro run
  refine ⟨by decide +kernel, ?_⟩
  have settled := settled_in_time [motionRule 0] forgottenClock 240000000000 0 forgottenOps
    punctual 0 (.enqueueEvent motionEvent,
      ⟨0, 0, Messenger.sendAction "module_sms".toList (motionEvent.attempt 0)⟩)
    (by decide +kernel) rfl (by decide +kernel)
  exact settled.1

/-! ## The length of the queue -/

/-- An entry of the queue goes back to the first action of its event, which was not all
laps before the last check. -/
theorem InTime.exists_acceptance {period duration : Nat} {check : Timepoint} {run : EngineRun}
    (inTime : InTime clock period duration check run) (tracks : Tracks rules run)
    (consistent : Consistent rules run) (represents : Represents rules run)
    (stamped : Stamped rules clock run) {pending : Pending}
    (waiting : pending ∈ run.state.ackQueue) :
    ∃ first ∈ acceptances pending.entry.event.ruleId run.trace,
      first.2.call = pending.call ∧
        check - (numActionRetries + 1) * lap period duration ≤ time first ∧
          time first ≤ clock.reading run.state.ticks := by
  rcases earlier_action tracks consistent waiting with ⟨item, member, about, isAction⟩
  rcases RuleEngine.exists_acceptance member isAction with ⟨first, firstMember, same⟩
  rcases mem_of_mem_acceptances firstMember with ⟨inTrace, firstAction⟩
  have firstCall := same.trans about
  have late := inTime.lastCheck_lt represents waiting inTrace firstCall
  refine ⟨first, firstMember, firstCall, ?_, stamped.time_le inTrace firstAction⟩
  linarith

end Sentri.Core.RuleEngine
