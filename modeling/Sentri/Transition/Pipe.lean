import Sentri.Transition.Machine
import Mathlib.Data.List.Perm.Basic

/-!
# Machines joined by a bounded queue

A producer puts messages into a queue of limited capacity, which others may use as well, and
a consumer takes one message after the other, each of which may lead to an operation.  A
message that finds the queue full is refused, and nobody tries it again.  The consumer may
perform other operations in between, and all of them take turns in any order.
-/

namespace Sentri.Transition

universe u

/-- A message in the queue, from the producer or from another sender. -/
inductive Letter (Msg : Type u) where
  | own (message : Msg)
  | other (message : Msg)

namespace Letter

variable {Msg : Type u}

def message : Letter Msg → Msg
  | own message => message
  | other message => message

/-- The message of a letter from the producer. -/
def own? : Letter Msg → Option Msg
  | own message => some message
  | other _ => none

end Letter

/-- The states of both machines, the messages that the producer has yet to send, and the queue
between them. -/
structure Pipe (σ Msg τ : Type u) where
  producer : σ
  outbox : List Msg
  queue : List (Letter Msg)
  consumer : τ

namespace Pipe

variable {σ In Out Msg τ Op Reply : Type u}

inductive Turn (In Msg Op : Type u) where
  | produce (input : In)
  | send
  | arrive (message : Msg)
  | take
  | consume (op : Op)

/-- What can be seen of a turn. -/
inductive Sight (Out Msg Op Reply : Type u) where
  | produced (out : Out)
  | refused (message : Msg)
  | taken (letter : Letter Msg)
  | consumed (op : Op) (reply : Reply)

section

variable (producer : Machine σ In Out) (consumer : Machine τ Op Reply) (messages : Out → List Msg)
  (read : Msg → Option Op) (capacity : Nat)

/-- An operation of the producer, whose messages are to be sent. -/
def produce (pipe : Pipe σ Msg τ) (input : In) : Pipe σ Msg τ × List (Sight Out Msg Op Reply) :=
  let (state, outs) := producer.step pipe.producer input
  ({ pipe with producer := state, outbox := pipe.outbox ++ outs.flatMap messages },
    outs.map .produced)

/-- Try to put the next message of the producer into the queue. -/
def send (pipe : Pipe σ Msg τ) : Pipe σ Msg τ × List (Sight Out Msg Op Reply) :=
  match pipe.outbox with
  | [] => (pipe, [])
  | message :: left =>
      if pipe.queue.length < capacity then
        ({ pipe with outbox := left, queue := pipe.queue ++ [.own message] }, [])
      else
        ({ pipe with outbox := left }, [.refused message])

/-- A message of another sender. -/
def arrive (pipe : Pipe σ Msg τ) (message : Msg) : Pipe σ Msg τ :=
  if pipe.queue.length < capacity then
    { pipe with queue := pipe.queue ++ [.other message] }
  else
    pipe

def consume (pipe : Pipe σ Msg τ) (op : Op) : Pipe σ Msg τ × List (Sight Out Msg Op Reply) :=
  let (state, replies) := consumer.step pipe.consumer op
  ({ pipe with consumer := state }, replies.map (.consumed op))

/-- Take the next letter, and perform the operation that its message leads to. -/
def take (pipe : Pipe σ Msg τ) : Pipe σ Msg τ × List (Sight Out Msg Op Reply) :=
  match pipe.queue with
  | [] => (pipe, [])
  | letter :: left =>
      match read letter.message with
      | none => ({ pipe with queue := left }, [.taken letter])
      | some op =>
          let (pipe, sights) := consume consumer { pipe with queue := left } op
          (pipe, .taken letter :: sights)

/-- The machines side by side, with some messages to be sent at the beginning. -/
def machine (first : List Msg) :
    Machine (Pipe σ Msg τ) (Turn In Msg Op) (Sight Out Msg Op Reply) where
  start := ⟨producer.start, first, [], consumer.start⟩
  step pipe
    | .produce input => produce producer messages pipe input
    | .send => send capacity pipe
    | .arrive message => (arrive capacity pipe message, [])
    | .take => take consumer read pipe
    | .consume op => consume consumer pipe op

end

/-! ## What has passed the queue -/

/-- The operations of the producer. -/
def inputs (turns : List (Turn In Msg Op)) : List In :=
  turns.filterMap fun turn =>
    match turn with
    | .produce input => some input
    | _ => none

def taken? : Sight Out Msg Op Reply → Option Msg
  | .taken letter => letter.own?
  | _ => none

/-- The messages of the producer that were taken from the queue. -/
def taken (trace : List (Turn In Msg Op × Sight Out Msg Op Reply)) : List Msg :=
  trace.filterMap fun item => taken? item.2

def refused? : Sight Out Msg Op Reply → Option Msg
  | .refused message => some message
  | _ => none

/-- The messages of the producer that found the queue full. -/
def refused (trace : List (Turn In Msg Op × Sight Out Msg Op Reply)) : List Msg :=
  trace.filterMap fun item => refused? item.2

/-- The messages of the producer that wait in the queue or are yet to be sent. -/
def waiting (pipe : Pipe σ Msg τ) : List Msg :=
  pipe.queue.filterMap Letter.own? ++ pipe.outbox

theorem filterMap_turn {α : Type u} (f : Sight Out Msg Op Reply → Option α)
    (turn : Turn In Msg Op) (sights : List (Sight Out Msg Op Reply)) :
    (sights.map fun sight => (turn, sight)).filterMap (fun item => f item.2) =
      sights.filterMap f := by
  rw [List.filterMap_map]
  rfl

theorem taken_append (first second : List (Turn In Msg Op × Sight Out Msg Op Reply)) :
    taken (first ++ second) = taken first ++ taken second :=
  List.filterMap_append

theorem refused_append (first second : List (Turn In Msg Op × Sight Out Msg Op Reply)) :
    refused (first ++ second) = refused first ++ refused second :=
  List.filterMap_append

theorem taken_turn (turn : Turn In Msg Op) (sights : List (Sight Out Msg Op Reply)) :
    taken (sights.map fun sight => (turn, sight)) = sights.filterMap taken? :=
  filterMap_turn taken? turn sights

theorem refused_turn (turn : Turn In Msg Op) (sights : List (Sight Out Msg Op Reply)) :
    refused (sights.map fun sight => (turn, sight)) = sights.filterMap refused? :=
  filterMap_turn refused? turn sights

variable {producer : Machine σ In Out} {consumer : Machine τ Op Reply} {messages : Out → List Msg}
  {read : Msg → Option Op} {capacity : Nat}

theorem taken_produced (outs : List Out) :
    (outs.map .produced : List (Sight Out Msg Op Reply)).filterMap taken? = [] := by
  simp [List.filterMap_map, Function.comp_def, taken?]

theorem taken_consumed (op : Op) (replies : List Reply) :
    (replies.map (.consumed op) : List (Sight Out Msg Op Reply)).filterMap taken? = [] := by
  simp [List.filterMap_map, Function.comp_def, taken?]

theorem refused_produced (outs : List Out) :
    (outs.map .produced : List (Sight Out Msg Op Reply)).filterMap refused? = [] := by
  simp [List.filterMap_map, Function.comp_def, refused?]

theorem refused_consumed (op : Op) (replies : List Reply) :
    (replies.map (.consumed op) : List (Sight Out Msg Op Reply)).filterMap refused? = [] := by
  simp [List.filterMap_map, Function.comp_def, refused?]

/-- What a turn does with the messages of the producer: those that waited before and the
new ones are afterwards taken, waiting or refused, and the first two keep their order. -/
structure Moves (pipe : Pipe σ Msg τ) (fresh : List Msg)
    (turn : Pipe σ Msg τ × List (Sight Out Msg Op Reply)) : Prop where
  order : (turn.2.filterMap taken? ++ turn.1.waiting).Sublist (pipe.waiting ++ fresh)
  account : (turn.2.filterMap taken? ++ turn.1.waiting ++ turn.2.filterMap refused?).Perm
    (pipe.waiting ++ fresh)

theorem Moves.of_eq {pipe : Pipe σ Msg τ} {fresh : List Msg}
    {turn : Pipe σ Msg τ × List (Sight Out Msg Op Reply)}
    (same : turn.2.filterMap taken? ++ turn.1.waiting = pipe.waiting ++ fresh)
    (none : turn.2.filterMap refused? = []) : Moves pipe fresh turn := by
  constructor
  · rw [same]
  · rw [none, List.append_nil, same]

theorem produce_moves (pipe : Pipe σ Msg τ) (input : In) :
    Moves pipe ((producer.step pipe.producer input).2.flatMap messages)
      (produce producer messages pipe input : _ × List (Sight Out Msg Op Reply)) := by
  apply Moves.of_eq
  · change ((producer.step pipe.producer input).2.map .produced :
      List (Sight Out Msg Op Reply)).filterMap taken? ++
        (pipe.queue.filterMap Letter.own? ++ (pipe.outbox ++ _)) = _
    rw [taken_produced, List.nil_append, waiting, List.append_assoc]
  · exact refused_produced _

theorem consume_moves (pipe : Pipe σ Msg τ) (op : Op) :
    Moves pipe [] (consume consumer pipe op : _ × List (Sight Out Msg Op Reply)) := by
  apply Moves.of_eq
  · change ((consumer.step pipe.consumer op).2.map (.consumed op) :
      List (Sight Out Msg Op Reply)).filterMap taken? ++ pipe.waiting = _
    rw [taken_consumed, List.nil_append, List.append_nil]
  · exact refused_consumed _ _

theorem send_moves (pipe : Pipe σ Msg τ) :
    Moves pipe [] (send capacity pipe : _ × List (Sight Out Msg Op Reply)) := by
  unfold send
  cases outbox : pipe.outbox with
  | nil => exact Moves.of_eq (List.append_nil _).symm rfl
  | cons message left =>
      dsimp only
      split
      case isTrue =>
          apply Moves.of_eq
          · simp [waiting, outbox, Letter.own?]
          · rfl
      case isFalse =>
          have fewer : (pipe.queue.filterMap Letter.own? ++ left).Sublist
              (pipe.queue.filterMap Letter.own? ++ message :: left) :=
            (List.Sublist.refl _).append (List.sublist_cons_self message left)
          have back : (pipe.queue.filterMap Letter.own? ++ left ++ [message]).Perm
              (pipe.queue.filterMap Letter.own? ++ message :: left) := by
            rw [List.append_assoc]
            exact (List.perm_append_singleton message left).append_left _
          have before : pipe.waiting ++ [] =
              pipe.queue.filterMap Letter.own? ++ message :: left := by
            rw [waiting, outbox, List.append_nil]
          constructor
          · rw [before]
            exact fewer
          · rw [before]
            exact back

theorem send_producer (pipe : Pipe σ Msg τ) :
    (send capacity pipe : _ × List (Sight Out Msg Op Reply)).1.producer = pipe.producer := by
  unfold send
  split
  · rfl
  · split <;> rfl

theorem send_taken (pipe : Pipe σ Msg τ) :
    (send capacity pipe : _ × List (Sight Out Msg Op Reply)).2.filterMap taken? = [] := by
  unfold send
  split
  · rfl
  · split <;> rfl

theorem arrive_producer (pipe : Pipe σ Msg τ) (message : Msg) :
    (arrive capacity pipe message).producer = pipe.producer := by
  unfold arrive
  split <;> rfl

theorem arrive_moves (pipe : Pipe σ Msg τ) (message : Msg) :
    Moves pipe [] ((arrive capacity pipe message, []) :
      _ × List (Sight Out Msg Op Reply)) := by
  unfold arrive
  split
  · apply Moves.of_eq
    · simp [waiting, Letter.own?]
    · rfl
  · exact Moves.of_eq (List.append_nil _).symm rfl

variable (consumer read) in
/-- Nothing is taken from an empty queue; else the first letter is, and the consumer
performs its operation. -/
theorem take_cases (pipe : Pipe σ Msg τ) :
    (pipe.queue = [] ∧
      (take consumer read pipe : _ × List (Sight Out Msg Op Reply)) = (pipe, [])) ∨
    ∃ letter left, pipe.queue = letter :: left ∧
      (read letter.message = none ∧
          (take consumer read pipe : _ × List (Sight Out Msg Op Reply)) =
            ({ pipe with queue := left }, [.taken letter]) ∨
        ∃ op, read letter.message = some op ∧
          (take consumer read pipe : _ × List (Sight Out Msg Op Reply)) =
            (⟨pipe.producer, pipe.outbox, left, (consumer.step pipe.consumer op).1⟩,
              .taken letter :: (consumer.step pipe.consumer op).2.map (.consumed op))) := by
  cases queue : pipe.queue with
  | nil =>
      left
      refine ⟨rfl, ?_⟩
      rw [take, queue]
  | cons letter rest =>
      right
      refine ⟨letter, rest, rfl, ?_⟩
      rw [take, queue]
      dsimp only
      cases reads : read letter.message with
      | none => exact Or.inl ⟨rfl, rfl⟩
      | some op => exact Or.inr ⟨op, rfl, rfl⟩

theorem take_moves (pipe : Pipe σ Msg τ) :
    Moves pipe [] (take consumer read pipe : _ × List (Sight Out Msg Op Reply)) := by
  rcases @take_cases σ Out Msg τ Op Reply consumer read pipe with
    ⟨_, result⟩ | ⟨letter, left, queue, ⟨_, result⟩ | ⟨op, _, result⟩⟩
  · rw [result]
    exact Moves.of_eq (List.append_nil _).symm rfl
  · rw [result]
    apply Moves.of_eq
    · cases letter <;>
        simp [waiting, queue, taken?, Letter.own?, List.filterMap_cons]
    · rfl
  · rw [result]
    apply Moves.of_eq
    · cases letter <;> simp [waiting, queue, taken?, Letter.own?, List.filterMap_cons]
    · exact refused_consumed op _

theorem take_producer (pipe : Pipe σ Msg τ) :
    (take consumer read pipe : _ × List (Sight Out Msg Op Reply)).1.producer = pipe.producer := by
  rcases @take_cases σ Out Msg τ Op Reply consumer read pipe with
    ⟨_, result⟩ | ⟨letter, left, _, ⟨_, result⟩ | ⟨op, _, result⟩⟩ <;> rw [result]

/-- The operation that a letter leads to is performed when it is taken. -/
theorem take_answers (pipe : Pipe σ Msg τ) {message : Msg} {op : Op}
    (member : message ∈
      (take consumer read pipe : _ × List (Sight Out Msg Op Reply)).2.filterMap taken?)
    (reads : read message = some op) :
    ∀ reply ∈ (consumer.step pipe.consumer op).2, Sight.consumed op reply ∈
      (take consumer read pipe : _ × List (Sight Out Msg Op Reply)).2 := by
  rcases @take_cases σ Out Msg τ Op Reply consumer read pipe with
    ⟨_, result⟩ | ⟨letter, left, _, ⟨unread, result⟩ | ⟨performed, opens, result⟩⟩
  · rw [result] at member
    cases member
  · rw [result] at member
    cases letter with
    | other foreign => simp [taken?, Letter.own?] at member
    | own head =>
        obtain rfl : message = head := by simpa [taken?, Letter.own?] using member
        rw [Letter.message, reads] at unread
        cases unread
  · rw [result] at member ⊢
    cases letter with
    | other foreign =>
        simp [taken?, Letter.own?] at member
    | own head =>
        obtain rfl : message = head := by
          simpa [taken?, Letter.own?, taken_consumed, List.filterMap_cons] using member
        rw [Letter.message, reads] at opens
        cases opens
        intro reply inReplies
        exact List.mem_cons_of_mem _ (List.mem_map_of_mem inReplies)

/-! ## Runs -/

/-- The messages that the producer has sent or is to send. -/
def sent (producer : Machine σ In Out) (messages : Out → List Msg) (first : List Msg)
    (turns : List (Turn In Msg Op)) : List Msg :=
  first ++ ((producer.run (inputs turns)).trace.map Prod.snd).flatMap messages

theorem inputs_produce (turns : List (Turn In Msg Op)) (input : In) :
    inputs (turns ++ [.produce input]) = inputs turns ++ [input] := by
  simp [inputs]

theorem inputs_idle {turns more : List (Turn In Msg Op)} (idle : inputs more = []) :
    inputs (turns ++ more) = inputs turns := by
  rw [inputs, List.filterMap_append, ← inputs, ← inputs, idle, List.append_nil]

theorem sent_produce (first : List Msg) (turns : List (Turn In Msg Op)) (input : In) :
    sent producer messages first (turns ++ [.produce input]) =
      sent producer messages first turns ++
        (producer.step (producer.run (inputs turns)).state input).2.flatMap messages := by
  rw [sent, sent, inputs_produce, Machine.run_concat, Machine.extend_trace, List.map_append,
    List.flatMap_append, List.append_assoc, List.map_map]
  simp [Function.comp_def]

theorem sent_idle (first : List Msg) {turns more : List (Turn In Msg Op)}
    (idle : inputs more = []) :
    sent producer messages first (turns ++ more) = sent producer messages first turns := by
  rw [sent, sent, inputs_idle idle]

/-- What holds between the messages that were sent and a run of the pipe. -/
structure Conserved (producer : Machine σ In Out) (messages : Out → List Msg) (first : List Msg)
    (turns : List (Turn In Msg Op))
    (run : Run (Pipe σ Msg τ) (Turn In Msg Op) (Sight Out Msg Op Reply)) : Prop where
  producer_eq : run.state.producer = (producer.run (inputs turns)).state
  order : (taken run.trace ++ run.state.waiting).Sublist (sent producer messages first turns)
  account : (taken run.trace ++ run.state.waiting ++ refused run.trace).Perm
    (sent producer messages first turns)

theorem Conserved.step {first : List Msg} {turns : List (Turn In Msg Op)} {turn : Turn In Msg Op}
    {fresh : List Msg} {run : Run (Pipe σ Msg τ) (Turn In Msg Op) (Sight Out Msg Op Reply)}
    {result : Pipe σ Msg τ × List (Sight Out Msg Op Reply)}
    (conserved : Conserved producer messages first turns run)
    (moves : Moves run.state fresh result)
    (more : sent producer messages first (turns ++ [turn]) =
      sent producer messages first turns ++ fresh)
    (kept : result.1.producer = (producer.run (inputs (turns ++ [turn]))).state) :
    Conserved producer messages first (turns ++ [turn])
      ⟨result.1, run.trace ++ result.2.map fun sight => (turn, sight)⟩ := by
  refine ⟨kept, ?_, ?_⟩
  · rw [more, taken_append, taken_turn, List.append_assoc]
    have front := moves.order.append_left (taken run.trace)
    have back := conserved.order.append (List.Sublist.refl fresh)
    rw [List.append_assoc] at back
    exact front.trans back
  · rw [more, taken_append, taken_turn, refused_append, refused_turn]
    classical
    apply List.perm_iff_count.mpr
    intro message
    have old := conserved.account.count_eq message
    have new := moves.account.count_eq message
    simp only [List.count_append] at old new ⊢
    omega

/-- The producer is not disturbed.  Each of its messages has been taken, waits or was refused,
and the messages that were not refused keep their order. -/
theorem conserved (first : List Msg) (turns : List (Turn In Msg Op)) :
    Conserved producer messages first turns
      ((machine producer consumer messages read capacity first).run turns) := by
  induction turns using List.reverseRecOn with
  | nil =>
      have all : sent producer messages first ([] : List (Turn In Msg Op)) = first :=
        List.append_nil first
      refine ⟨rfl, ?_, ?_⟩
      · rw [all]
        exact List.Sublist.refl first
      · rw [all]
        exact List.Perm.of_eq (List.append_nil first)
  | append_singleton turns turn ih =>
      rw [Machine.run_concat]
      have idle : ∀ {turn : Turn In Msg Op}, inputs [turn] = [] →
          sent producer messages first (turns ++ [turn]) =
            sent producer messages first turns ++ [] := by
        intro turn none
        rw [sent_idle first none, List.append_nil]
      have kept : ∀ {turn : Turn In Msg Op}, inputs [turn] = [] →
          (producer.run (inputs turns)).state =
            (producer.run (inputs (turns ++ [turn]))).state := by
        intro turn none
        rw [inputs_idle none]
      cases turn with
      | produce input =>
          apply ih.step (produce_moves _ input)
          · rw [sent_produce, ih.producer_eq]
          · rw [inputs_produce, Machine.run_concat, Machine.extend_state, ← ih.producer_eq]
            rfl
      | send =>
          apply ih.step (send_moves _) (idle rfl)
          rw [send_producer, ih.producer_eq]
          exact kept rfl
      | arrive message =>
          apply ih.step (arrive_moves _ message) (idle rfl)
          rw [arrive_producer, ih.producer_eq]
          exact kept rfl
      | take =>
          apply ih.step (take_moves _) (idle rfl)
          rw [take_producer, ih.producer_eq]
          exact kept rfl
      | consume op =>
          apply ih.step (consume_moves _ op) (idle rfl)
          exact ih.producer_eq.trans (kept rfl)

/-- A producer none of whose messages is refused has them all taken in their order, but for
those that wait. -/
theorem conserved_of_room (first : List Msg) (turns : List (Turn In Msg Op))
    (room : refused ((machine producer consumer messages read capacity first).run turns).trace =
      []) :
    taken ((machine producer consumer messages read capacity first).run turns).trace ++
        ((machine producer consumer messages read capacity first).run turns).state.waiting =
      sent producer messages first turns := by
  have law : Conserved producer messages first turns
      ((machine producer consumer messages read capacity first).run turns) := conserved first turns
  have account := law.account
  rw [room, List.append_nil] at account
  exact law.order.eq_of_length account.length_eq

/-- What holds of every operation of the consumer and its replies holds of the operations
that messages lead to. -/
theorem answered {holds : Op → List Reply → Prop}
    (step : ∀ state op, holds op (consumer.step state op).2) (first : List Msg)
    (turns : List (Turn In Msg Op)) :
    let run := (machine producer consumer messages read capacity first).run turns
    ∀ message ∈ taken run.trace, ∀ op, read message = some op →
      ∃ replies, holds op replies ∧
        ∀ reply ∈ replies, .consumed op reply ∈ run.trace.map Prod.snd := by
  induction turns using List.reverseRecOn with
  | nil => simp [taken, Machine.fresh]
  | append_singleton turns turn ih =>
      dsimp only at ih ⊢
      rw [Machine.run_concat, Machine.extend_trace]
      generalize (machine producer consumer messages read capacity first).run turns = run at ih ⊢
      intro message member op reads
      rw [taken_append, taken_turn] at member
      rw [List.map_append, List.map_map]
      rcases List.mem_append.mp member with old | new
      · rcases ih message old op reads with ⟨replies, held, seen⟩
        exact ⟨replies, held, fun reply inReplies =>
          List.mem_append_left _ (seen reply inReplies)⟩
      · cases turn with
        | produce input =>
            change message ∈ ((producer.step run.state.producer input).2.map
              Sight.produced).filterMap taken? at new
            rw [taken_produced] at new
            cases new
        | send =>
            change message ∈ (send capacity run.state).2.filterMap taken? at new
            rw [send_taken] at new
            cases new
        | arrive foreign => cases new
        | consume other =>
            change message ∈ ((consumer.step run.state.consumer other).2.map
              (Sight.consumed other)).filterMap taken? at new
            rw [taken_consumed] at new
            cases new
        | take =>
            refine ⟨_, step run.state.consumer op, fun reply inReplies => ?_⟩
            apply List.mem_append_right
            have seen := take_answers run.state new reads reply inReplies
            exact List.mem_map.mpr ⟨_, seen, rfl⟩

end Pipe

end Sentri.Transition
