import Sentri.Core.RuleEngine.Lifecycle

/-!
# What the messages of the rule engine say

Every handed message is about an earlier call of `enqueueEvent` for an existing
rule.  It carries the rule and the variables of that call, goes to the module
of the rule that its type asks for, and all messages about one call have the
same body.
-/

namespace Sentri.Core.RuleEngine

open Sentri.LibModule Sentri.Text Sentri.Transition

/-- The module that a message about an event of the rule goes to. -/
def receiver (rule : RuleInfo) : MessageType → Str
  | .msgActio => rule.action.module
  | _ => rule.event.module

/-- The message is one of those the engine sends about the event of its call. -/
structure About (rules : List RuleInfo) (calls : List EventEntry) (item : Op × Handed)
    (entry : EventEntry) (rule : RuleInfo) (body : ActionBody) : Prop where
  called : calls[item.2.call]? = some entry
  found : getRule rules entry.event.ruleId = some rule
  body_eq : item.2.delivery.message.action? = some body
  ruleId_eq : body.ruleId = entry.event.ruleId
  vars_eq : body.vars = entry.event.vars
  receiver_eq : item.2.delivery.module = receiver rule item.2.delivery.message.type

theorem About.mono {rules : List RuleInfo} {calls : List EventEntry}
    {item : Op × Handed} {entry : EventEntry} {rule : RuleInfo} {body : ActionBody}
    (about : About rules calls item entry rule body) (more : List EventEntry) :
    About rules (calls ++ more) item entry rule body :=
  { about with
    called := by
      have bound := (List.getElem?_eq_some_iff.mp about.called).1
      rw [List.getElem?_append_left bound]
      exact about.called }

/-- A message built from an entry of the queue is about the call of the entry. -/
theorem Tracks.about_pending {rules : List RuleInfo} {run : EngineRun}
    (tracks : Tracks rules run) {pending : Pending} {rule : RuleInfo} {op : Op}
    {out : Handed} (member : pending ∈ run.state.ackQueue)
    (found : getRule rules pending.entry.event.ruleId = some rule)
    (call : out.call = pending.call)
    (body : out.delivery.message.action? = some pending.entry.toActionBody)
    (module : out.delivery.module = receiver rule out.delivery.message.type) :
    ∃ entry, About rules run.state.calls (op, out) entry rule
      pending.entry.toActionBody := by
  obtain ⟨entry, _, present, eventEq, _⟩ := tracks.queued pending member
  refine ⟨entry, ?_⟩
  exact
    { called := call ▸ present
      found := eventEq ▸ found
      body_eq := body
      ruleId_eq := congrArg Event.ruleId eventEq
      vars_eq := congrArg Event.vars eventEq
      receiver_eq := module }

/-- An entry of the queue is determined by its call. -/
theorem Tracks.unique_pending {rules : List RuleInfo} {run : EngineRun}
    (tracks : Tracks rules run) {pending other : Pending}
    (member : pending ∈ run.state.ackQueue) (otherMember : other ∈ run.state.ackQueue)
    (same : other.call = pending.call) : other = pending := by
  obtain ⟨entry, rule, present, eventEq, found⟩ := tracks.queued pending member
  obtain ⟨phase, _, waits⟩ := tracks.lives _ entry rule present found
  have first : pending ∈ slot pending.call run.state.ackQueue := mem_slot.mpr ⟨member, rfl⟩
  have second : other ∈ slot pending.call run.state.ackQueue := mem_slot.mpr ⟨otherMember, same⟩
  generalize slot pending.call run.state.ackQueue = entries at waits first second
  cases waits with
  | rejected => simp at first
  | settled => simp at first
  | pending only =>
      rw [List.mem_singleton.mp first, List.mem_singleton.mp second]

/-- Messages are about their calls, agree with the queue and with each other,
and acknowledgements answer an acknowledgement with their id. -/
structure Consistent (rules : List RuleInfo) (run : EngineRun) : Prop where
  about : ∀ item ∈ run.trace, ∃ entry rule body,
    About rules run.state.calls item entry rule body
  queued : ∀ pending ∈ run.state.ackQueue, ∀ item ∈ run.trace,
    item.2.call = pending.call →
      item.2.delivery.message.action? = some pending.entry.toActionBody
  agree : ∀ first ∈ run.trace, ∀ second ∈ run.trace, first.2.call = second.2.call →
    first.2.delivery.message.action? = second.2.delivery.message.action?
  answers : ∀ item ∈ run.trace, item.2.delivery.message.type = .msgAckev →
    ∀ body, item.2.delivery.message.action? = some body →
      item.1 = .acceptAck body.eventId

namespace Consistent

variable {rules : List RuleInfo} {clock : SteadyClock} {run : EngineRun} {op : Op}

theorem initial : Consistent rules (machine rules clock).fresh := by
  constructor <;> simp [Machine.fresh]

/-- The first message about a new call. -/
theorem add_first {engine : RuleEngine} {out : Handed} {entry : EventEntry}
    {rule : RuleInfo} {body : ActionBody}
    (consistent : Consistent rules run)
    (calls : engine.calls = run.state.calls ++ [entry])
    (about : About rules engine.calls (op, out) entry rule body)
    (new : out.call = run.state.calls.length)
    (queue : ∀ pending ∈ engine.ackQueue, (pending ∈ run.state.ackQueue ∧
      pending.call ≠ out.call) ∨
      (pending.call = out.call ∧ pending.entry.toActionBody = body))
    (noAnswer : out.delivery.message.type ≠ .msgAckev) :
    Consistent rules ⟨engine, run.trace ++ [(op, out)]⟩ := by
  have older : ∀ item ∈ run.trace, item.2.call ≠ out.call := by
    intro item member equal
    obtain ⟨_, _, _, old⟩ := consistent.about item member
    have := (List.getElem?_eq_some_iff.mp old.called).1
    omega
  constructor
  · intro item member
    rcases List.mem_append.mp member with old | fresh
    · obtain ⟨oldEntry, oldRule, oldBody, oldAbout⟩ := consistent.about item old
      exact ⟨oldEntry, oldRule, oldBody, by rw [calls]; exact oldAbout.mono _⟩
    · rw [List.mem_singleton.mp fresh]
      exact ⟨entry, rule, body, about⟩
  · intro pending member item itemMember same
    rcases List.mem_append.mp itemMember with old | fresh
    · rcases queue pending member with ⟨oldPending, _⟩ | ⟨newPending, _⟩
      · exact consistent.queued pending oldPending item old same
      · exact absurd (same.trans newPending) (older item old)
    · rw [List.mem_singleton.mp fresh] at same ⊢
      rcases queue pending member with ⟨_, other⟩ | ⟨_, bodyEq⟩
      · exact absurd same.symm other
      · rw [bodyEq]
        exact about.body_eq
  · intro first firstMember second secondMember same
    rcases List.mem_append.mp firstMember with oldFirst | newFirst <;>
      rcases List.mem_append.mp secondMember with oldSecond | newSecond
    · exact consistent.agree first oldFirst second oldSecond same
    · rw [List.mem_singleton.mp newSecond] at same
      exact absurd same (older first oldFirst)
    · rw [List.mem_singleton.mp newFirst] at same
      exact absurd same.symm (older second oldSecond)
    · rw [List.mem_singleton.mp newFirst, List.mem_singleton.mp newSecond]
  · intro item member answer
    rcases List.mem_append.mp member with old | fresh
    · exact consistent.answers item old answer
    · rw [List.mem_singleton.mp fresh] at answer
      exact absurd answer noAnswer

/-- One more message about a pending event. -/
theorem add_next {engine : RuleEngine} {out : Handed} {rule : RuleInfo}
    {pending : Pending} (consistent : Consistent rules run) (tracks : Tracks rules run)
    (calls : engine.calls = run.state.calls)
    (waiting : pending ∈ run.state.ackQueue)
    (found : getRule rules pending.entry.event.ruleId = some rule)
    (same : out.call = pending.call)
    (body : out.delivery.message.action? = some pending.entry.toActionBody)
    (module : out.delivery.module = receiver rule out.delivery.message.type)
    (queue : ∀ other ∈ engine.ackQueue, ∃ old ∈ run.state.ackQueue,
      other.call = old.call ∧ other.entry.toActionBody = old.entry.toActionBody)
    (answer : out.delivery.message.type = .msgAckev → op = .acceptAck pending.entry.id) :
    Consistent rules ⟨engine, run.trace ++ [(op, out)]⟩ := by
  constructor
  · intro item member
    rcases List.mem_append.mp member with old | fresh
    · obtain ⟨oldEntry, oldRule, oldBody, oldAbout⟩ := consistent.about item old
      exact ⟨oldEntry, oldRule, oldBody, by rw [calls]; exact oldAbout⟩
    · obtain ⟨entry, about⟩ := tracks.about_pending waiting found same body module
      rw [List.mem_singleton.mp fresh]
      exact ⟨entry, rule, _, by rw [calls]; exact about⟩
  · intro other member item itemMember sameCall
    obtain ⟨oldPending, oldMember, callEq, bodyEq⟩ := queue other member
    rw [bodyEq]
    rcases List.mem_append.mp itemMember with old | fresh
    · exact consistent.queued oldPending oldMember item old (sameCall.trans callEq)
    · rw [List.mem_singleton.mp fresh] at sameCall ⊢
      have equal : oldPending = pending :=
        tracks.unique_pending waiting oldMember (callEq.symm.trans (sameCall.symm.trans same))
      rw [equal]
      exact body
  · intro first firstMember second secondMember sameCall
    have known : ∀ item ∈ run.trace, item.2.call = pending.call →
        item.2.delivery.message.action? = out.delivery.message.action? := by
      intro item member equal
      rw [consistent.queued pending waiting item member equal, body]
    rcases List.mem_append.mp firstMember with oldFirst | newFirst <;>
      rcases List.mem_append.mp secondMember with oldSecond | newSecond
    · exact consistent.agree first oldFirst second oldSecond sameCall
    · rw [List.mem_singleton.mp newSecond] at sameCall ⊢
      exact known first oldFirst (sameCall.trans same)
    · rw [List.mem_singleton.mp newFirst] at sameCall ⊢
      exact (known second oldSecond (sameCall.symm.trans same)).symm
    · rw [List.mem_singleton.mp newFirst, List.mem_singleton.mp newSecond]
  · intro item member isAnswer other otherEq
    rcases List.mem_append.mp member with old | fresh
    · exact consistent.answers item old isAnswer other otherEq
    · rw [List.mem_singleton.mp fresh] at isAnswer otherEq ⊢
      have equal : other = pending.entry.toActionBody :=
        Option.some.inj (otherEq.symm.trans body)
      rw [equal]
      exact answer isAnswer

end Consistent

namespace Consistent

variable {rules : List RuleInfo} {clock : SteadyClock} {run : EngineRun} {op : Op}

theorem step {engine : RuleEngine} {handed : List Handed}
    (action : Action rules clock op run.state engine handed) (tracks : Tracks rules run)
    (consistent : Consistent rules run) : Consistent rules (after op run engine handed) := by
  cases action with
  | read =>
      exact ⟨by simpa [after] using consistent.about, by simpa [after] using consistent.queued,
        by simpa [after] using consistent.agree, by simpa [after] using consistent.answers⟩
  | @ignore entry unknown =>
      refine ⟨?_, by simpa [after] using consistent.queued,
        by simpa [after] using consistent.agree, by simpa [after] using consistent.answers⟩
      intro item member
      obtain ⟨oldEntry, rule, body, about⟩ := consistent.about item (by simpa [after] using member)
      exact ⟨oldEntry, rule, body, about.mono _⟩
  | @reject entry rule found =>
      refine consistent.add_first rfl ⟨?_, found, rfl, rfl, rfl, rfl⟩ rfl ?_ (by simp [
        Messenger.sendEventAbort, Message.type])
      · simp
      · intro pending member
        obtain ⟨_, _, present, _⟩ := tracks.queued pending member
        have := (List.getElem?_eq_some_iff.mp present).1
        exact Or.inl ⟨member, this.ne⟩
  | @accept entry rule now _ found _ _ _ =>
      refine consistent.add_first rfl ⟨?_, found, rfl, rfl, rfl, rfl⟩ rfl ?_ (by simp [
        Messenger.sendAction, Message.type])
      · simp
      · intro pending member
        rcases List.mem_append.mp member with old | new
        · obtain ⟨_, _, present, _⟩ := tracks.queued pending old
          have := (List.getElem?_eq_some_iff.mp present).1
          exact Or.inl ⟨old, this.ne⟩
        · rw [List.mem_singleton.mp new]
          exact Or.inr ⟨rfl, rfl⟩
  | @retry passed left pending rule now _ queue found _ _ _ =>
      have waiting : pending ∈ run.state.ackQueue := by simp [queue]
      refine consistent.add_next tracks rfl waiting found rfl rfl rfl ?_
        (by simp [Messenger.sendAction, Message.type])
      intro other member
      rcases List.mem_append.mp member with before | rest
      · exact ⟨other, by simp [queue, before], rfl, rfl⟩
      · rcases List.mem_cons.mp rest with moved | behind
        · exact ⟨pending, waiting, by rw [moved], by rw [moved]; rfl⟩
        · exact ⟨other, by simp [queue, behind], rfl, rfl⟩
  | @giveUp passed left pending rule now _ queue found _ _ =>
      have waiting : pending ∈ run.state.ackQueue := by simp [queue]
      refine consistent.add_next tracks rfl waiting found rfl rfl rfl ?_
        (by simp [Messenger.sendEventAbort, Message.type])
      intro other member
      refine ⟨other, ?_, rfl, rfl⟩
      rw [queue]
      exact (List.Sublist.append_left (List.sublist_cons_self _ _) _).subset member
  | @acknowledge passed left pending rule inAck queue _ found =>
      have waiting : pending ∈ run.state.ackQueue := by simp [queue]
      refine consistent.add_next tracks rfl waiting found rfl rfl rfl ?_
        (fun _ => inAck)
      intro other member
      refine ⟨other, ?_, rfl, rfl⟩
      rw [queue]
      exact (List.Sublist.append_left (List.sublist_cons_self _ _) _).subset member
  | @forget passed left pending queue unknown =>
      obtain ⟨entry, rule, _, eventEq, found⟩ := tracks.queued pending (by simp [queue])
      rw [eventEq, found] at unknown
      cases unknown

end Consistent

/-- In every run the messages are consistent with the calls and the queue. -/
theorem consistent_run (rules : List RuleInfo) (clock : SteadyClock) (ops : List Op) :
    Consistent rules ((machine rules clock).run ops) := by
  have both : Tracks rules ((machine rules clock).run ops) ∧
      Consistent rules ((machine rules clock).run ops) := by
    apply run_invariant_of_action (fun run => Tracks rules run ∧ Consistent rules run)
      ⟨Tracks.initial, Consistent.initial⟩
    intro _ _ _ _ action inv
    exact ⟨inv.1.step action, inv.2.step action inv.1⟩
  exact both.2

end Sentri.Core.RuleEngine
