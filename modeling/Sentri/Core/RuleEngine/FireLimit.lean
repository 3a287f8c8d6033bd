import Sentri.Core.RuleEngine.Correctness

/-!
# The fire limit

`ruleTimestamps` holds, for every rule, the time of its last action, or the
epoch of the clock as long as there was none.  With this invariant the check in
`checkConstraints` keeps the first action of an event away from all earlier
actions of its rule; and it rejects without reason exactly when the epoch is
taken for a last action.
-/

namespace Sentri.Core.RuleEngine

open Sentri.LibModule Sentri.Text Sentri.Transition

/-- Is the message an action of the rule? -/
def isActionOf (ruleId : RuleID) (item : Op × Handed) : Bool :=
  match item.2.delivery.message with
  | .msgActio body => body.ruleId = ruleId
  | _ => false

/-- The last occurrence of a rule as the engine knows it. -/
def timestamp (engine : RuleEngine) (ruleId : RuleID) : Timepoint :=
  engine.ruleTimestamps.getD ruleId 0

theorem fireLimit_pos {rule : RuleInfo} (positive : 0 < fireLimitMs rule) :
    0 < rule.fireLimit := by
  by_contra nonpos
  have scaled : rule.fireLimit * 1000 ≤ 0 := by linarith
  have rounded := Number.lround_nonpos (Number.roundToDouble_nonpos scaled)
  exact absurd positive (not_lt.mpr (Number.toLong_nonpos rounded))

/-- The next trigger after a timestamp, if the sum does not overflow. -/
theorem nextTrigger_eq {timestamp : Timepoint} {rule : RuleInfo}
    (fits : Representable (timestamp + milliseconds (fireLimitMs rule))) :
    nextTrigger timestamp rule = timestamp + milliseconds (fireLimitMs rule) := by
  rw [nextTrigger, nanoseconds_add, nanoseconds_of_representable fits]

/-- A limit that overflows only ends too early. -/
theorem nextTrigger_le {timestamp : Timepoint} {rule : RuleInfo} (epoch : 0 ≤ timestamp)
    (limited : 0 < rule.fireLimit) :
    nextTrigger timestamp rule ≤ timestamp ∨
      nextTrigger timestamp rule ≤ timestamp + milliseconds (fireLimitMs rule) := by
  rw [nextTrigger, nanoseconds_add]
  rcases Number.toLong_nonneg (Number.lround_nonneg (Number.roundToDouble_nonneg
      (mul_nonneg limited.le (by norm_num : (0 : Rat) ≤ 1000)))) with nonneg | least
  · right
    apply nanoseconds_le
    have scaled : 0 ≤ fireLimitMs rule * 1000000 := mul_nonneg nonneg (by norm_num)
    exact add_nonneg epoch scaled
  · left
    have whole : fireLimitMs rule = -9223372036854775808 := least
    have multiple : timestamp + milliseconds (fireLimitMs rule) =
        timestamp + (18446744073709551616 : Nat) * (-500000) := by
      rw [whole, milliseconds]
      norm_num
    rw [multiple, nanoseconds, Int.add_mul_bmod_self_left]
    exact nanoseconds_le epoch

/-- The timestamps are the times of the last actions. -/
structure Stamped (rules : List RuleInfo) (clock : SteadyClock) (run : EngineRun) : Prop where
  length : run.state.ruleTimestamps.length = rules.length
  past : ∀ ruleId, ∀ item ∈ run.trace, isActionOf ruleId item →
    time item ≤ timestamp run.state ruleId
  real : ∀ ruleId, (∃ item ∈ run.trace, isActionOf ruleId item ∧
      time item = timestamp run.state ruleId) ∨
    ((∀ item ∈ run.trace, ¬ isActionOf ruleId item) ∧ timestamp run.state ruleId = 0)
  ticked : ∀ ruleId, ∀ item ∈ run.trace, isActionOf ruleId item →
    ∃ n ≤ run.state.ticks, time item = clock.reading n

namespace Stamped

variable {rules : List RuleInfo} {clock : SteadyClock} {run : EngineRun} {op : Op}

theorem initial : Stamped rules clock (machine rules clock).fresh where
  length := by simp [Machine.fresh, machine, new]
  past := by simp [Machine.fresh]
  real := by
    intro ruleId
    refine Or.inr ⟨by simp [Machine.fresh], ?_⟩
    change (List.replicate rules.length 0).getD ruleId 0 = 0
    rw [List.getD_eq_getElem?_getD, List.getElem?_replicate]
    split <;> rfl
  ticked := by simp [Machine.fresh]

/-- No action is younger than the last reading. -/
theorem time_le (stamped : Stamped rules clock run) {ruleId : RuleID} {item : Op × Handed}
    (member : item ∈ run.trace) (isAction : isActionOf ruleId item) :
    time item ≤ clock.reading run.state.ticks := by
  rcases stamped.ticked ruleId item member isAction with ⟨n, le, read⟩
  rw [read]
  exact clock.reading_le le

/-- Nothing that is not an action concerns the timestamps. -/
theorem quiet {engine : RuleEngine} {handed : List Handed}
    (stamped : Stamped rules clock run)
    (stamps : engine.ruleTimestamps = run.state.ruleTimestamps)
    (ticks : run.state.ticks ≤ engine.ticks)
    (noAction : ∀ ruleId, ∀ out ∈ handed, ¬ isActionOf ruleId (op, out)) :
    Stamped rules clock (after op run engine handed) := by
  have same : ∀ ruleId, timestamp engine ruleId = timestamp run.state ruleId := by
    intro ruleId
    rw [timestamp, timestamp, stamps]
  have old : ∀ ruleId, ∀ item ∈ (after op run engine handed).trace,
      isActionOf ruleId item → item ∈ run.trace := by
    intro ruleId item member isAction
    rcases List.mem_append.mp member with before | new
    · exact before
    · obtain ⟨out, outMember, rfl⟩ := List.mem_map.mp new
      exact absurd isAction (noAction ruleId out outMember)
  constructor
  · exact (congrArg List.length stamps).trans stamped.length
  · intro ruleId item member isAction
    exact (stamped.past ruleId item (old _ _ member isAction) isAction).trans_eq
      (same ruleId).symm
  · intro ruleId
    rcases stamped.real ruleId with ⟨item, member, isAction, equal⟩ | ⟨never, zero⟩
    · exact Or.inl ⟨item, List.mem_append_left _ member, isAction,
        equal.trans (same ruleId).symm⟩
    · refine Or.inr ⟨?_, (same ruleId).trans zero⟩
      intro item member isAction
      exact never item (old _ _ member isAction) isAction
  · intro ruleId item member isAction
    rcases stamped.ticked ruleId item (old _ _ member isAction) isAction with ⟨n, le, read⟩
    exact ⟨n, le.trans ticks, read⟩

/-- An action sets the timestamp of its rule. -/
theorem act {engine : RuleEngine} {out : Handed} {ruleId : RuleID} {rule : RuleInfo}
    (stamped : Stamped rules clock run) (found : getRule rules ruleId = some rule)
    (stamps : engine.ruleTimestamps =
      run.state.ruleTimestamps.set ruleId (clock.reading run.state.ticks))
    (ticks : run.state.ticks ≤ engine.ticks)
    (outTime : out.time = clock.reading run.state.ticks)
    (isAction : ∀ other, isActionOf other (op, out) = decide (ruleId = other)) :
    Stamped rules clock (after op run engine [out]) := by
  have bound : ruleId < run.state.ruleTimestamps.length := by
    rw [stamped.length]
    exact (List.getElem?_eq_some_iff.mp found).1
  have own : timestamp engine ruleId = clock.reading run.state.ticks := by
    simp [timestamp, stamps, bound]
  have others : ∀ other, ruleId ≠ other →
      timestamp engine other = timestamp run.state other := by
    intro other different
    simp [timestamp, stamps, List.getElem?_set_ne different]
  constructor
  · change engine.ruleTimestamps.length = _
    rw [stamps, List.length_set, stamped.length]
  · intro other item member action
    change time item ≤ timestamp engine other
    by_cases equal : ruleId = other
    · subst equal
      rw [own]
      rcases List.mem_append.mp member with before | new
      · exact stamped.time_le before action
      · rw [List.map_singleton, List.mem_singleton] at new
        rw [new]
        exact outTime.le
    · rw [others other equal]
      rcases List.mem_append.mp member with before | new
      · exact stamped.past other item before action
      · rw [List.map_singleton, List.mem_singleton] at new
        simp [new, isAction, equal] at action
  · intro other
    change (∃ item ∈ _, _ ∧ time item = timestamp engine other) ∨
      (_ ∧ timestamp engine other = 0)
    by_cases equal : ruleId = other
    · subst equal
      rw [own]
      exact Or.inl ⟨(op, out), by simp [after], by simp [isAction], outTime⟩
    · rw [others other equal]
      rcases stamped.real other with ⟨item, member, action, stampEq⟩ | ⟨never, zero⟩
      · exact Or.inl ⟨item, List.mem_append_left _ member, action, stampEq⟩
      · refine Or.inr ⟨?_, zero⟩
        intro item member action
        rcases List.mem_append.mp member with before | new
        · exact never item before action
        · rw [List.map_singleton, List.mem_singleton] at new
          simp [new, isAction, equal] at action
  · intro other item member action
    rcases List.mem_append.mp member with before | new
    · rcases stamped.ticked other item before action with ⟨n, le, read⟩
      exact ⟨n, le.trans ticks, read⟩
    · rw [List.map_singleton, List.mem_singleton] at new
      rw [new]
      exact ⟨run.state.ticks, ticks, outTime⟩

theorem step {engine : RuleEngine} {handed : List Handed}
    (action : Action rules clock op run.state engine handed)
    (stamped : Stamped rules clock run) : Stamped rules clock (after op run engine handed) := by
  cases action with
  | read => exact stamped.quiet rfl (Nat.le_succ _) (by simp)
  | ignore => exact stamped.quiet rfl le_rfl (by simp)
  | reject =>
      exact stamped.quiet rfl le_rfl (by simp [isActionOf, Messenger.sendEventAbort])
  | accept _ found => exact stamped.act found rfl (Nat.le_add_right _ _) rfl (fun _ => rfl)
  | retry _ _ found => exact stamped.act found rfl (Nat.le_add_right _ _) rfl (fun _ => rfl)
  | giveUp =>
      exact stamped.quiet rfl le_rfl (by simp [isActionOf, Messenger.sendEventAbort])
  | acknowledge =>
      exact stamped.quiet rfl le_rfl (by simp [isActionOf, Messenger.sendEventAck])
  | forget => exact stamped.quiet rfl le_rfl (by simp)

end Stamped

/-- In every run the timestamps are the times of the last actions. -/
theorem stamped_run (rules : List RuleInfo) (clock : SteadyClock) (ops : List Op) :
    Stamped rules clock ((machine rules clock).run ops) :=
  run_invariant_of_action _ Stamped.initial (fun _ _ _ _ action => Stamped.step action) ops

/-! ## First actions -/

/-- An entry of the queue was sent before: the trace has an action about its
call and for its rule. -/
theorem earlier_action {rules : List RuleInfo} {run : EngineRun}
    (tracks : Tracks rules run) (consistent : Consistent rules run) {pending : Pending}
    (waiting : pending ∈ run.state.ackQueue) :
    ∃ item ∈ run.trace, item.2.call = pending.call ∧
      isActionOf pending.entry.event.ruleId item := by
  obtain ⟨entry, rule, present, eventEq, found⟩ := tracks.queued pending waiting
  obtain ⟨phase, life, waits⟩ := tracks.lives _ entry rule present found
  have inSlot : pending ∈ slot pending.call run.state.ackQueue := mem_slot.mpr ⟨waiting, rfl⟩
  generalize slot pending.call run.state.ackQueue = entries at waits inSlot
  cases waits with
  | rejected => simp at inSlot
  | settled => simp at inSlot
  | pending only =>
      have shape := life.pendingShape (by decide) (by decide)
      obtain ⟨item, member⟩ : ∃ item, item ∈ history pending.call run.trace := by
        apply List.exists_mem_of_length_pos
        rw [shape.length]
        exact shape.positive
      obtain ⟨inTrace, about⟩ := mem_history.mp member
      refine ⟨item, inTrace, about, ?_⟩
      have bodyEq := consistent.queued pending waiting item inTrace about
      have isAttempt := shape.attempts item member
      unfold kind at isAttempt
      unfold isActionOf
      split at isAttempt <;> simp_all [Message.action?, EventEntry.toActionBody]

/-- The first action about a call comes the fire limit after every earlier
action of its rule. -/
def KeepsLimit (ruleId : RuleID) (limit : Int) (before : List (Op × Handed))
    (item : Op × Handed) : Prop :=
  isActionOf ruleId item →
    (∀ earlier ∈ before, isActionOf ruleId earlier → earlier.2.call ≠ item.2.call) →
    ∀ earlier ∈ before, isActionOf ruleId earlier → time earlier + limit ≤ time item

theorem keepsLimit_step {rules : List RuleInfo} {clock : SteadyClock} {op : Op} {run : EngineRun}
    {engine : RuleEngine} {handed : List Handed} {ruleId : RuleID} {rule : RuleInfo}
    (known : getRule rules ruleId = some rule) (limited : 0 < fireLimitMs rule)
    (fits : ∀ n ≤ run.state.ticks,
      Representable (clock.reading n + milliseconds (fireLimitMs rule)))
    (action : Action rules clock op run.state engine handed)
    (tracks : Tracks rules run) (consistent : Consistent rules run)
    (stamped : Stamped rules clock run) :
    ∀ out ∈ handed, KeepsLimit ruleId (milliseconds (fireLimitMs rule)) run.trace (op, out) := by
  cases action with
  | read => simp
  | ignore => simp
  | reject => simp [KeepsLimit, isActionOf, Messenger.sendEventAbort]
  | @accept entry other now _ found _ past limit =>
      intro out member isAction _ earlier earlierMember earlierAction
      rw [List.mem_singleton.mp member] at isAction ⊢
      have same : entry.event.ruleId = ruleId := by
        simpa [isActionOf, Messenger.sendAction, EventEntry.toActionBody, acceptedEntry]
          using isAction
      subst same
      obtain rfl : other = rule := Option.some.inj (found.symm.trans known)
      change time earlier + _ ≤ clock.reading run.state.ticks
      have holds : Representable (timestamp run.state entry.event.ruleId +
          milliseconds (fireLimitMs other)) := by
        rcases stamped.real entry.event.ruleId with
          ⟨last, lastMember, lastAction, stampEq⟩ | ⟨never, _⟩
        · rcases stamped.ticked _ last lastMember lastAction with ⟨n, le, read⟩
          rw [← stampEq, read]
          exact fits n le
        · exact absurd earlierAction (never earlier earlierMember)
      calc time earlier + milliseconds (fireLimitMs other)
          ≤ timestamp run.state entry.event.ruleId + milliseconds (fireLimitMs other) := by
            linarith [stamped.past _ earlier earlierMember earlierAction]
        _ = nextTrigger (timestamp run.state entry.event.ruleId) other :=
            (nextTrigger_eq holds).symm
        _ ≤ now := limit (fireLimit_pos limited)
        _ ≤ clock.reading run.state.ticks := past
  | @retry passed left pending other now _ queue =>
      intro out member isAction isFirst
      rw [List.mem_singleton.mp member] at isAction isFirst
      have same : pending.entry.event.ruleId = ruleId := by
        simpa [isActionOf, Messenger.sendAction, EventEntry.toActionBody] using isAction
      subst same
      obtain ⟨first, firstMember, about, firstAction⟩ :=
        earlier_action tracks consistent (show pending ∈ run.state.ackQueue by simp [queue])
      exact absurd about (isFirst first firstMember firstAction)
  | giveUp => simp [KeepsLimit, isActionOf, Messenger.sendEventAbort]
  | acknowledge => simp [KeepsLimit, isActionOf, Messenger.sendEventAck]
  | forget => simp

/-- The first actions of the accepted events of a rule. -/
def acceptances (ruleId : RuleID) (trace : List (Op × Handed)) : List (Op × Handed) :=
  trace.foldl (fun firsts item =>
    if isActionOf ruleId item ∧ ∀ first ∈ firsts, first.2.call ≠ item.2.call then
      firsts ++ [item]
    else firsts) []

theorem acceptances_concat (ruleId : RuleID) (trace : List (Op × Handed))
    (item : Op × Handed) :
    acceptances ruleId (trace ++ [item]) =
      if isActionOf ruleId item ∧
          ∀ first ∈ acceptances ruleId trace, first.2.call ≠ item.2.call then
        acceptances ruleId trace ++ [item]
      else acceptances ruleId trace := by
  rw [acceptances, List.foldl_append]
  rfl

theorem mem_of_mem_acceptances {ruleId : RuleID} {trace : List (Op × Handed)}
    {item : Op × Handed} (member : item ∈ acceptances ruleId trace) :
    item ∈ trace ∧ isActionOf ruleId item := by
  induction trace using List.reverseRecOn with
  | nil => simp [acceptances] at member
  | append_singleton trace last ih =>
      rw [acceptances_concat] at member
      split at member
      · rename_i isFirst
        rcases List.mem_append.mp member with old | new
        · exact ⟨List.mem_append_left _ (ih old).1, (ih old).2⟩
        · rw [List.mem_singleton.mp new]
          exact ⟨by simp, isFirst.1⟩
      · exact ⟨List.mem_append_left _ (ih member).1, (ih member).2⟩

/-- Every action of the rule is about a call with a first action. -/
theorem exists_acceptance {ruleId : RuleID} {trace : List (Op × Handed)}
    {item : Op × Handed} (member : item ∈ trace) (isAction : isActionOf ruleId item) :
    ∃ first ∈ acceptances ruleId trace, first.2.call = item.2.call := by
  induction trace using List.reverseRecOn with
  | nil => simp at member
  | append_singleton trace last ih =>
      rw [acceptances_concat]
      rcases List.mem_append.mp member with old | new
      · obtain ⟨first, firstMember, same⟩ := ih old
        refine ⟨first, ?_, same⟩
        split
        · exact List.mem_append_left _ firstMember
        · exact firstMember
      · obtain rfl := List.mem_singleton.mp new
        split
        · exact ⟨item, by simp, rfl⟩
        · rename_i known
          simpa [isAction] using known

/-- When every first action keeps the limit, the first actions are spaced. -/
theorem spaced_acceptances {ruleId : RuleID} {limit : Int} {trace : List (Op × Handed)}
    (keeps : Throughout (KeepsLimit ruleId limit) trace) :
    Spaced limit ((acceptances ruleId trace).map time) := by
  induction trace using List.reverseRecOn with
  | nil => exact List.Pairwise.nil
  | append_singleton trace item ih =>
      rcases keeps.of_concat with ⟨old, new⟩
      rw [acceptances_concat]
      split
      · rename_i isFirst
        rw [Spaced, List.map_append, List.pairwise_append]
        refine ⟨ih old, List.pairwise_singleton _ _, ?_⟩
        intro earlierTime earlierMember lastTime lastMember
        obtain ⟨earlier, member, rfl⟩ := List.mem_map.mp earlierMember
        obtain rfl : lastTime = time item := by simpa using lastMember
        obtain ⟨inTrace, isAction⟩ := mem_of_mem_acceptances member
        apply new isFirst.1 _ earlier inTrace isAction
        intro other otherMember otherAction
        obtain ⟨first, firstMember, same⟩ := exists_acceptance otherMember otherAction
        rw [← same]
        exact isFirst.2 first firstMember
      · exact ih old

/-- Every first action keeps the limit, in every run in which no sum of a reading and the
limit overflows. -/
theorem keepsLimit_run (rules : List RuleInfo) (clock : SteadyClock) (ops : List Op)
    {ruleId : RuleID} {rule : RuleInfo} (known : getRule rules ruleId = some rule)
    (limited : 0 < fireLimitMs rule)
    (fits : ∀ n ≤ ((machine rules clock).run ops).state.ticks,
      Representable (clock.reading n + milliseconds (fireLimitMs rule))) :
    Throughout (KeepsLimit ruleId (milliseconds (fireLimitMs rule)))
      ((machine rules clock).run ops).trace := by
  have all : let run := (machine rules clock).run ops
      (Tracks rules run ∧ Consistent rules run ∧ Stamped rules clock run) ∧
        ((∀ n ≤ run.state.ticks,
            Representable (clock.reading n + milliseconds (fireLimitMs rule))) →
          Throughout (KeepsLimit ruleId (milliseconds (fireLimitMs rule))) run.trace) := by
    apply run_invariant_of_action (fun run =>
      (Tracks rules run ∧ Consistent rules run ∧ Stamped rules clock run) ∧
        ((∀ n ≤ run.state.ticks,
            Representable (clock.reading n + milliseconds (fireLimitMs rule))) →
          Throughout (KeepsLimit ruleId (milliseconds (fireLimitMs rule))) run.trace))
    · exact ⟨⟨Tracks.initial, Consistent.initial, Stamped.initial⟩, fun _ => Throughout.nil⟩
    · intro op run engine handed action inv
      rcases inv with ⟨⟨tracks, consistent, stamped⟩, keeps⟩
      refine ⟨⟨tracks.step action, consistent.step action tracks, stamped.step action⟩, ?_⟩
      intro fits
      have earlier := fun n le => fits n (le_trans le action.ticks_le)
      have new := keepsLimit_step known limited earlier action tracks consistent stamped
      rcases action.handed_le_one with nothing | ⟨out, one⟩
      · simpa [after, nothing] using keeps earlier
      · rw [after, one, List.map_singleton]
        exact (keeps earlier).concat (new out (by simp [one]))
  exact all.2 fits

/-- The accepted events of the rule are spaced, and few of them lie in one window. -/
theorem acceptances_run (rules : List RuleInfo) (clock : SteadyClock) (ops : List Op)
    {ruleId : RuleID} {rule : RuleInfo} (known : getRule rules ruleId = some rule)
    (limited : 0 < fireLimitMs rule)
    (fits : ∀ n ≤ ((machine rules clock).run ops).state.ticks,
      Representable (clock.reading n + milliseconds (fireLimitMs rule))) :
    Spaced (milliseconds (fireLimitMs rule))
        ((acceptances ruleId ((machine rules clock).run ops).trace).map time) ∧
      ∀ (first : Timepoint) (span : Int), 0 ≤ span →
        ((((acceptances ruleId ((machine rules clock).run ops).trace).map time).filter
          fun sent => first ≤ sent ∧ sent ≤ first + span).length : Int) ≤
            span / milliseconds (fireLimitMs rule) + 1 := by
  have spaced := spaced_acceptances (keepsLimit_run rules clock ops known limited fits)
  refine ⟨spaced, ?_⟩
  intro first span nonneg
  have positive : 0 < milliseconds (fireLimitMs rule) := by
    rw [milliseconds]
    linarith
  exact spaced.length_window_le positive nonneg first

/-- The fire limit is not violated as long as no sum of a reading of the clock and the limit
overflows: the first action of an event comes the fire limit after every earlier action of
its rule, so the accepted events of the rule are spaced and few of them lie in one window. -/
theorem fire_limit_respected (rules : List RuleInfo) (clock : SteadyClock) (ops : List Op)
    (ruleId : RuleID) (rule : RuleInfo) (known : getRule rules ruleId = some rule)
    (limited : 0 < fireLimitMs rule)
    (fits : ∀ n ≤ ((machine rules clock).run ops).state.ticks,
      Representable (clock.reading n + milliseconds (fireLimitMs rule))) :
    Throughout (KeepsLimit ruleId (milliseconds (fireLimitMs rule)))
        ((machine rules clock).run ops).trace ∧
      Spaced (milliseconds (fireLimitMs rule))
        ((acceptances ruleId ((machine rules clock).run ops).trace).map time) ∧
      ∀ (first : Timepoint) (span : Int), 0 ≤ span →
        ((((acceptances ruleId ((machine rules clock).run ops).trace).map time).filter
          fun sent => first ≤ sent ∧ sent ≤ first + span).length : Int) ≤
            span / milliseconds (fireLimitMs rule) + 1 := by
  exact ⟨keepsLimit_run rules clock ops known limited fits,
    acceptances_run rules clock ops known limited fits⟩

/-- A limit of three hundred years is more than 64 bits can hold in nanoseconds, and of two
events at once both are accepted. -/
theorem fire_limit_overflows :
    ¬ ∀ (rules : List RuleInfo) (clock : SteadyClock) (ops : List Op) (ruleId : RuleID)
        (rule : RuleInfo), getRule rules ruleId = some rule → 0 < fireLimitMs rule →
        Throughout (KeepsLimit ruleId (milliseconds (fireLimitMs rule)))
          ((machine rules clock).run ops).trace := by
  intro all
  let run := (machine [motionRule 9467280000] (SteadyClock.ofList 5000000000 [])).run
    [.enqueueEvent motionEvent, .enqueueEvent motionEvent]
  have keeps : Throughout _ run.trace := all [motionRule 9467280000]
    (SteadyClock.ofList 5000000000 []) [.enqueueEvent motionEvent, .enqueueEvent motionEvent] 0
    (motionRule 9467280000) rfl (by decide +kernel)
  have times : run.trace.map time = [5000000000, 5000000000] := by decide +kernel
  have calls : run.trace.map (·.2.call) = [0, 1] := by decide +kernel
  have actions : run.trace.map (isActionOf 0) = [true, true] := by decide +kernel
  have limit : 0 < milliseconds (fireLimitMs (motionRule 9467280000)) := by decide +kernel
  have pair : run.trace.length = 2 := by simpa using congrArg List.length times
  obtain ⟨first, second, traceEq⟩ := List.length_eq_two.mp pair
  rw [traceEq] at keeps times calls actions
  simp only [List.map_cons, List.map_nil, List.cons.injEq, and_true] at times calls actions
  have late := keeps [first] second [] rfl actions.2
    (by simp [calls]) first (List.mem_singleton_self _) actions.1
  linarith [times.1, times.2]

/-- With a limit of two seconds the second of three events is rejected. -/
theorem fire_limit_respected_two_seconds :
    let run := (machine [motionRule 2]
        (SteadyClock.ofList 5000000000 [0, 0, 1000000000, 1000000000])).run
      [.enqueueEvent motionEvent, .enqueueEvent motionEvent, .enqueueEvent motionEvent]
    Spaced (milliseconds 2000) ((acceptances 0 run.trace).map time) ∧
      (acceptances 0 run.trace).length = 2 ∧ run.trace.length = 3 := by
  have limit : fireLimitMs (motionRule 2) = 2000 := by decide +kernel
  have respected := fire_limit_respected [motionRule 2]
    (SteadyClock.ofList 5000000000 [0, 0, 1000000000, 1000000000])
    [.enqueueEvent motionEvent, .enqueueEvent motionEvent, .enqueueEvent motionEvent]
    0 (motionRule 2) rfl (by rw [limit]; decide) (by decide +kernel)
  rw [limit] at respected
  exact ⟨respected.2.1, by decide +kernel, by decide +kernel⟩

/-! ## Rejections -/

/-- The engine answers a call of `enqueueEvent` with an abort. -/
def Rejects (rules : List RuleInfo) (clock : SteadyClock) (engine : RuleEngine)
    (entry : EventEntry) : Prop :=
  ∃ out ∈ (enqueueEvent rules clock engine entry).2,
    out.delivery.message.type = .msgEvabt

/-- An action of the rule was sent less than the limit before `now`. -/
def RecentAction (ruleId : RuleID) (limit : Int) (now : Timepoint)
    (trace : List (Op × Handed)) : Prop :=
  ∃ item ∈ trace, isActionOf ruleId item ∧ now - time item < limit

theorem rejects_iff_checkConstraints {rules : List RuleInfo} {clock : SteadyClock}
    {engine : RuleEngine} {entry : EventEntry} {rule : RuleInfo}
    (found : getRule rules entry.event.ruleId = some rule) :
    Rejects rules clock engine entry ↔
      (checkConstraints clock engine entry.event.ruleId rule).2 = false := by
  simp only [Rejects, enqueueEvent, found]
  cases (checkConstraints clock engine entry.event.ruleId rule).2 with
  | false => simp [Messenger.sendEventAbort, Message.type]
  | true =>
      simp only [if_true]
      rw [takeAction_of_found found]
      simp [Messenger.sendAction, Message.type]

/-- An enabled rule rejects an event when its limit has not passed since its
timestamp. -/
theorem rejects_iff {rules : List RuleInfo} {clock : SteadyClock} {engine : RuleEngine}
    {entry : EventEntry} {rule : RuleInfo}
    (found : getRule rules entry.event.ruleId = some rule)
    (enabled : rule.isDisabled = false) :
    Rejects rules clock engine entry ↔ 0 < rule.fireLimit ∧
      clock.reading engine.ticks <
        nextTrigger (timestamp engine entry.event.ruleId) rule := by
  rw [rejects_iff_checkConstraints found]
  by_cases limited : 0 < rule.fireLimit
  · simp [checkConstraints, enabled, limited, timestamp]
  · simp [checkConstraints, enabled, limited]

/-- A rejection by the fire limit has a reason exactly when the rule had an
action before, or the clock is past the limit already: for a rule without
actions the engine takes the epoch of the clock for its last occurrence. -/
theorem rejection_justified_iff (rules : List RuleInfo) (clock : SteadyClock) (ops : List Op)
    (entry : EventEntry) (rule : RuleInfo)
    (epoch : 0 ≤ clock.reading 0)
    (found : getRule rules entry.event.ruleId = some rule)
    (enabled : rule.isDisabled = false) :
    let run := (machine rules clock).run ops
    let now := clock.reading run.state.ticks
    let limit := milliseconds (fireLimitMs rule)
    (Rejects rules clock run.state entry →
        RecentAction entry.event.ruleId limit now run.trace) ↔
      (∃ item ∈ run.trace, isActionOf entry.event.ruleId item) ∨ rule.fireLimit ≤ 0 ∨
        nanoseconds limit ≤ now := by
  have stamped := stamped_run rules clock ops
  generalize (machine rules clock).run ops = run at stamped ⊢
  intro run now limit
  have first : nextTrigger 0 rule = nanoseconds limit := by
    rw [nextTrigger, nanoseconds_add, zero_add]
  rw [rejects_iff found enabled]
  constructor
  · intro justified
    rcases stamped.real entry.event.ruleId with ⟨item, member, isAction, _⟩ | ⟨never, zero⟩
    · exact Or.inl ⟨item, member, isAction⟩
    · right
      by_contra neither
      rw [not_or, not_le, not_le] at neither
      rcases neither with ⟨limited, early⟩
      obtain ⟨item, member, isAction, _⟩ :=
        justified ⟨limited, by rw [zero, first]; exact early⟩
      exact never item member isAction
  · rintro known ⟨limited, early⟩
    rcases stamped.real entry.event.ruleId with
      ⟨item, member, isAction, stampEq⟩ | ⟨never, zero⟩
    · refine ⟨item, member, isAction, ?_⟩
      rcases stamped.ticked _ item member isAction with ⟨n, le, read⟩
      have past : time item ≤ now := stamped.time_le member isAction
      have began : 0 ≤ time item := by
        rw [read]
        exact epoch.trans (clock.reading_le (Nat.zero_le n))
      rw [← stampEq] at early
      rcases nextTrigger_le began limited with short | long
      · exact absurd (early.trans_le short) (not_lt.mpr past)
      · have := early.trans_le long
        linarith
    · exfalso
      rw [zero, first] at early
      rcases known with ⟨item, member, isAction⟩ | unlimited | late
      · exact never item member isAction
      · exact absurd limited (not_lt.mpr unlimited)
      · exact absurd late (not_le.mpr early)

/-- Three seconds after the start of the clock a limit of ten seconds rejects
the first event of its rule. -/
theorem spurious_rejection_after_boot :
    ¬ ∀ (rules : List RuleInfo) (clock : SteadyClock) (ops : List Op) (entry : EventEntry)
        (rule : RuleInfo), 0 ≤ clock.reading 0 →
        getRule rules entry.event.ruleId = some rule → rule.isDisabled = false →
        Rejects rules clock ((machine rules clock).run ops).state entry →
        RecentAction entry.event.ruleId (milliseconds (fireLimitMs rule))
          (clock.reading ((machine rules clock).run ops).state.ticks)
          ((machine rules clock).run ops).trace := by
  intro all
  have recent := all [motionRule 10] (SteadyClock.ofList 3000000000 []) [] motionEvent
    (motionRule 10) (by decide) rfl rfl
    ((rejects_iff rfl rfl).mpr ⟨by decide +kernel, by decide +kernel⟩)
  rcases recent with ⟨_, member, _⟩
  simp [Machine.fresh] at member

/-- Ten seconds after the start of the clock the same event is not rejected
without reason. -/
theorem rejection_justified_iff_ten_seconds :
    let run := (machine [motionRule 10] (SteadyClock.ofList 10000000000 [])).run []
    Rejects [motionRule 10] (SteadyClock.ofList 10000000000 []) run.state motionEvent →
      RecentAction 0 (milliseconds (fireLimitMs (motionRule 10))) 10000000000 run.trace :=
  (rejection_justified_iff [motionRule 10] (SteadyClock.ofList 10000000000 []) [] motionEvent
    (motionRule 10) (by decide) rfl rfl).mpr (Or.inr (Or.inr (by decide +kernel)))

end Sentri.Core.RuleEngine
