import Sentri.Modules.Video.Files

/-!
# The attachments of an output handler

Every output handler is shown every message of the core.  Here these messages
are arbitrary: the core may answer an event of any handler, answer twice, or
name any file.  Not every event reaches the core: flood protection or a full queue
refuses a message, and a writer whose second fork fails sends none, after the event was
counted.  The counts of a handler are right as long as none of its events is lost, and
it is only shown answers to events of its own that were not answered before.
-/

namespace Sentri.Modules.Video

open Sentri.Data Sentri.LibModule Sentri.Text Sentri.Transition

universe u

variable {α : Type u}

/-! ## Handlers and their events -/

/-- The functions that start writers. -/
inductive Starter where
  | out
  | forkImageWriter
  | forkVideoWriter

def Starter.perform (handler : OutputHandler α) (call : Call α) :
    Starter → OutputHandler α × List (Effect α)
  | out => handler.out call
  | forkImageWriter => handler.forkImageWriter call
  | forkVideoWriter => handler.forkVideoWriter call

/-- What the two threads of the engine do to the output handlers. -/
inductive Task (α : Type u) where
  | start (starter : Starter) (route : Nat) (call : Call α)
  /-- An event of a route does not reach the core. -/
  | lose (route : Nat) (event : Event)
  /-- A message of the core; `removable` tells for every route whether `remove`
  succeeds. -/
  | incomingMsg (message : Message) (removable : Nat → Str → Bool)

/-- The event that a message answers. -/
def answeredEvent? (message : Message) : Option Event :=
  if message.type = .msgEvabt ∨ message.type = .msgAckev then
    message.action?.map fun body => ⟨body.ruleId, body.vars⟩
  else
    none

/-- An output handler and, as far as the handler does not keep them itself, its
files and its events. -/
structure Account (α : Type u) where
  handler : OutputHandler α
  /-- The files that were registered for at least one rule. -/
  registered : List Str
  /-- The events of the writers and of the handler that are neither answered nor lost. -/
  unanswered : List Event

namespace Account

def new (route : Route) : Account α :=
  ⟨addRoute route, [], []⟩

/-- Start the writers of a call. -/
def start (account : Account α) (starter : Starter) (call : Call α) : Account α :=
  let (next, effects) := starter.perform account.handler call
  let files := (effects.filterMap Effect.file?).filter fun file =>
    account.handler.map.asking file.1 ≠ []
  ⟨next, account.registered ++ files.map Prod.snd,
    account.unanswered ++
      (effects.flatMap (account.handler.messages call)).filterMap Message.event?⟩

/-- An event does not reach the core, and the handler does not notice. -/
def lose (account : Account α) (event : Event) : Account α :=
  { account with unanswered := account.unanswered.erase event }

/-- Show a message to the handler. -/
def receive (account : Account α) (message : Message) (removable : Str → Bool) : Account α where
  handler := (account.handler.handlePendingAttachments message
    (MessageHandler.receivedVars message) removable).1
  registered := account.registered
  unanswered :=
    match answeredEvent? message with
    | some event => account.unanswered.erase event
    | none => account.unanswered

/-- What a task does to the handler of a route. -/
def step (route : Nat) (account : Account α) : Task α → Account α
  | .start starter target call => if target = route then account.start starter call else account
  | .lose target event => if target = route then account.lose event else account
  | .incomingMsg message removable => account.receive message (removable route)

/-- The handler of a route after a list of tasks. -/
def after (route : Nat) (settings : Route) (tasks : List (Task α)) : Account α :=
  tasks.foldl (step route) (new settings)

end Account

/-- The output handlers of the engine. -/
def engineStep (accounts : List (Account α)) (task : Task α) : List (Account α) :=
  accounts.mapIdx fun route account => account.step route task

def engineAfter (routes : List Route) (tasks : List (Task α)) : List (Account α) :=
  tasks.foldl engineStep (routes.map Account.new)

/-- The handlers do not depend on each other. -/
theorem getElem?_engineAfter (routes : List Route) (tasks : List (Task α)) (route : Nat) :
    (engineAfter routes tasks)[route]? =
      routes[route]?.map fun settings => Account.after route settings tasks := by
  induction tasks using List.reverseRecOn with
  | nil => simp [engineAfter, Account.after]
  | append_singleton tasks task ih =>
      have split : engineAfter routes (tasks ++ [task]) =
          engineStep (engineAfter routes tasks) task := by
        simp [engineAfter]
      rw [split, engineStep, List.getElem?_mapIdx, ih]
      simp [Account.after, Option.map_map, Function.comp_def]

/-! ## Sound counts -/

namespace Account

/-- The events of a file that are not answered. -/
def outstanding (account : Account α) (name : Str) : Nat :=
  account.unanswered.countP (Carries name)

/-- Every entry is about a registered file and counts its events that are not
answered, and there is an entry for every file with such an event. -/
structure Sound (account : Account α) : Prop where
  entry : ∀ (name : Str) count, account.handler.pendingAttachments[name]? = some count →
    1 ≤ count ∧ name ∈ account.registered ∧ count = account.outstanding name
  complete : ∀ event ∈ account.unanswered, ∀ name, Carries name event →
    name ∈ account.handler.pendingAttachments

/-- A message names a file as an attachment. -/
def Names (message : Message) (name : Str) : Prop :=
  ∃ attachment : Attachment,
    (MessageHandler.receivedVars message)[attachment.key]? = some name

/-- The video writer of a call cannot open the file that rules wait for. -/
def Fails (handler : OutputHandler α) (call : Call α) (effect : Effect α) : Prop :=
  call.opened = false ∧ ∃ name, effect.file? = some (.video, name) ∧ handler.map.asking .video ≠ []

/-- A task that keeps the counts of a handler: every writer opens its file, no event that
carries a file is lost, and an answer that names a file answers an event of this handler. -/
def Proper (route : Nat) (account : Account α) : Task α → Prop
  | .start starter target call => target = route →
      ∀ effect ∈ (starter.perform account.handler call).2, ¬ Fails account.handler call effect
  | .lose target event => target = route → event ∈ account.unanswered →
      ∀ name, ¬ Carries name event
  | .incomingMsg message _ => ∀ event, answeredEvent? message = some event →
      (∃ name, Names message name) → event ∈ account.unanswered

end Account

/-- In every state of a run the counts of the handler of a route are sound, and a
message that names no file of the handler leaves them as they are. -/
structure AttachmentsSound (routes : List Route) (route : Fin routes.length)
    (tasks : List (Task α)) : Prop where
  sound : ∀ before after, tasks = before ++ after → ∀ account,
    (engineAfter routes before)[route.val]? = some account → account.Sound
  untouched : ∀ before message removable after,
    tasks = before ++ .incomingMsg message removable :: after → ∀ account next,
    (engineAfter routes before)[route.val]? = some account →
    (engineAfter routes (before ++ [.incomingMsg message removable]))[route.val]? = some next →
    (∀ name, Account.Names message name → name ∉ account.registered) →
    next.handler.pendingAttachments = account.handler.pendingAttachments

/-- Every task of a run is proper for the handler of a route. -/
def AllProper (routes : List Route) (route : Fin routes.length) (tasks : List (Task α)) : Prop :=
  ∀ before task after, tasks = before ++ task :: after → ∀ account,
    (engineAfter routes before)[route.val]? = some account → account.Proper route task

/-! ## Starting writers -/

section Writers

variable {handler : OutputHandler α} {call : Call α} {pending : Pending}

theorem getD_nonneg (positive : ∀ (name : Str) count, pending[name]? = some count → 1 ≤ count)
    (name : Str) : 0 ≤ pending.getD name 0 := by
  rw [Std.ExtTreeMap.getD_eq_getD_getElem?]
  cases found : pending[name]? with
  | none => simp
  | some count =>
      have := positive name count found
      simp
      omega

theorem one_le_register {file : Str} {rules : List RuleID}
    (positive : ∀ (name : Str) count, pending[name]? = some count → 1 ≤ count) :
    ∀ (name : Str) count, (pending.register file rules)[name]? = some count → 1 ≤ count := by
  induction rules generalizing pending with
  | nil => exact positive
  | cons rule rules ih =>
      rw [Pending.register, List.foldl_cons, ← Pending.register]
      apply ih
      intro name count found
      have nonneg := getD_nonneg positive file
      rw [Std.ExtTreeMap.getElem?_insert] at found
      split at found
      · cases found
        omega
      · exact positive name count found

theorem one_le_foldl_register {map : RuleMap} {effects : List (Effect α)}
    (positive : ∀ (name : Str) count, pending[name]? = some count → 1 ≤ count) :
    ∀ (name : Str) count, (effects.foldl map.registerEffect pending)[name]? = some count →
      1 ≤ count := by
  induction effects generalizing pending with
  | nil => exact positive
  | cons effect effects ih =>
      apply ih
      rw [RuleMap.registerEffect]
      split
      · exact one_le_register positive
      · exact positive

/-- A writer that does not fail sends the events of all rules that wait for it. -/
theorem carrying_messages {effect : Effect α} {attachment : Attachment} {name : Str}
    (file : effect.file? = some (attachment, name))
    (works : ¬ Account.Fails handler call effect) (other : Str) :
    carrying other (handler.messages call effect) =
      carrying other (handler.announce attachment name) := by
  cases effect with
  | sent message => cases file
  | removed removedName => cases file
  | imageWriter imageName img =>
      cases file
      rfl
  | videoWriter videoName block =>
      cases file
      rw [OutputHandler.messages, OutputHandler.writeVideo]
      split
      next => rfl
      next closed =>
        have nobody : handler.map.asking .video = [] := by
          by_contra asked
          exact works ⟨by simpa using closed, name, rfl, asked⟩
        simp [carrying, MessageHandler.log, Message.event?, OutputHandler.announce, nobody]

theorem carrying_of_fails {effect : Effect α} (fails : Account.Fails handler call effect)
    (other : Str) : carrying other (handler.messages call effect) = 0 := by
  rcases fails with ⟨closed, name, file, _⟩
  cases effect with
  | sent message => cases file
  | removed removedName => cases file
  | imageWriter imageName img => cases file
  | videoWriter videoName block =>
      simp [carrying, OutputHandler.messages, OutputHandler.writeVideo, closed,
        MessageHandler.log, Message.event?]

/-- A writer counts just its events, unless it fails. -/
theorem getD_registerEffect_eq_iff {effect : Effect α} (below : effect.WritesBelow tempPath) :
    (∀ name, (handler.map.registerEffect pending effect).getD name 0 =
      pending.getD name 0 + carrying name (handler.messages call effect)) ↔
      ¬ Account.Fails handler call effect := by
  rcases below with ⟨attachment, img, time, file⟩
  have own := fileName_file attachment img time
  have registered : ∀ name, (handler.map.registerEffect pending effect).getD name 0 =
      pending.getD name 0 + carrying name
        (handler.announce attachment (attachment.file tempPath img time)) := by
    intro name
    rw [RuleMap.registerEffect, file, getD_register, carrying_announce handler attachment own]
    split <;> simp
  constructor
  · intro equal fails
    have same := equal (attachment.file tempPath img time)
    rcases fails with ⟨closed, name, video, asked⟩
    obtain rfl : Attachment.video = attachment := by
      rw [file] at video
      cases video
      rfl
    have positive := List.length_pos_iff.mpr asked
    rw [registered, carrying_announce handler .video own, if_pos rfl,
      carrying_of_fails ⟨closed, name, video, asked⟩] at same
    omega
  · intro works name
    rw [registered, carrying_messages file works]

/-- Writers count just their events, unless one of them fails. -/
theorem getD_foldl_register_eq_iff {effects : List (Effect α)}
    (below : ∀ effect ∈ effects, effect.WritesBelow tempPath) :
    (∀ name, (effects.foldl handler.map.registerEffect pending).getD name 0 =
      pending.getD name 0 + carrying name (effects.flatMap (handler.messages call))) ↔
      ∀ effect ∈ effects, ¬ Account.Fails handler call effect := by
  induction effects generalizing pending with
  | nil => simp [carrying]
  | cons effect effects ih =>
      have first : effect.WritesBelow tempPath := below effect List.mem_cons_self
      have later : ∀ other ∈ effects, other.WritesBelow tempPath :=
        fun other member => below other (List.mem_cons_of_mem _ member)
      let between := handler.map.registerEffect pending effect
      have total : ∀ name, carrying name ((effect :: effects).flatMap (handler.messages call)) =
          carrying name (handler.messages call effect) +
            carrying name (effects.flatMap (handler.messages call)) := by
        intro name
        rw [List.flatMap_cons, carrying_append]
      have one : (∀ name, between.getD name 0 =
          pending.getD name 0 + carrying name (handler.messages call effect)) ↔ _ :=
        getD_registerEffect_eq_iff first
      rw [List.forall_mem_cons, ← one, ← @ih between later]
      constructor
      · intro equal
        have grows : ∀ name, _ ≤ between.getD name 0 := fun name =>
          getD_registerEffect_ge handler call first pending name
        have growsOn := fun name => getD_foldl_register_ge handler call later between name
        have split : ∀ name, (effects.foldl handler.map.registerEffect between).getD name 0 =
            pending.getD name 0 + (carrying name (handler.messages call effect) +
              carrying name (effects.flatMap (handler.messages call)) : Nat) := by
          intro name
          rw [← total]
          exact equal name
        constructor
        · intro name
          have := split name
          have := grows name
          have := growsOn name
          omega
        · intro name
          have := split name
          have := grows name
          have := growsOn name
          omega
      · rintro ⟨counted, rest⟩ name
        rw [List.foldl_cons, rest name, counted name, total]
        push_cast
        ring

end Writers

/-- The functions that start writers register their files, and send the events of
the rules without an attachment at most. -/
theorem Starter.perform_starts (starter : Starter) (handler : OutputHandler α) (call : Call α) :
    ∃ writers plain, Starts handler (starter.perform handler call).1 writers ∧
      (starter.perform handler call).2 = writers ++ plain ∧ plain ⊆ handler.plainEvents := by
  cases starter with
  | out =>
      rcases OutputHandler.out_starts handler call with ⟨writers, starts, effects⟩
      exact ⟨writers, handler.plainEvents, starts, effects, List.Subset.refl _⟩
  | forkImageWriter =>
      exact ⟨_, [], OutputHandler.forkImageWriter_starts handler call,
        (List.append_nil _).symm, List.nil_subset _⟩
  | forkVideoWriter =>
      exact ⟨_, [], OutputHandler.forkVideoWriter_starts handler call,
        (List.append_nil _).symm, List.nil_subset _⟩

namespace Account

/-! ## One task -/

/-- What holds of an account in every run. -/
structure Kept (account : Account α) : Prop where
  path : account.handler.path = tempPath
  known : ∀ event ∈ account.unanswered, Known event
  registered : ∀ event ∈ account.unanswered, ∀ name, Carries name event →
    name ∈ account.registered

/-- The counts are those of the events, and none is zero. -/
structure Balanced (account : Account α) : Prop where
  positive : ∀ (name : Str) count, account.handler.pendingAttachments[name]? = some count →
    1 ≤ count
  count : ∀ name, account.handler.pendingAttachments.getD name 0 = account.outstanding name

theorem outstanding_pos_iff {account : Account α} {name : Str} :
    0 < account.outstanding name ↔ ∃ event ∈ account.unanswered, Carries name event := by
  simp [outstanding, List.countP_pos_iff]

theorem Sound.balanced {account : Account α} (sound : account.Sound) : account.Balanced where
  positive name count found := (sound.entry name count found).1
  count name := by
    rw [Std.ExtTreeMap.getD_eq_getD_getElem?]
    cases found : account.handler.pendingAttachments[name]? with
    | some count => simpa using (sound.entry name count found).2.2
    | none =>
        have nobody : ¬ 0 < account.outstanding name := by
          intro positive
          rcases outstanding_pos_iff.mp positive with ⟨event, member, carried⟩
          have present := sound.complete event member name carried
          rw [Std.ExtTreeMap.mem_iff_isSome_getElem?, found] at present
          cases present
        simp
        omega

theorem Balanced.sound {account : Account α} (balanced : account.Balanced)
    (kept : account.Kept) : account.Sound where
  entry name count found := by
    have positive := balanced.positive name count found
    have equal := balanced.count name
    rw [Std.ExtTreeMap.getD_eq_getD_getElem?, found, Option.getD_some] at equal
    refine ⟨positive, ?_, equal⟩
    have somebody : 0 < account.outstanding name := by omega
    rcases outstanding_pos_iff.mp somebody with ⟨event, member, carried⟩
    exact kept.registered event member name carried
  complete event member name carried := by
    have positive := outstanding_pos_iff.mpr ⟨event, member, carried⟩
    by_contra absent
    have zero := balanced.count name
    rw [Std.ExtTreeMap.getD_eq_fallback absent] at zero
    omega

section Start

variable {account : Account α} {starter : Starter} {call : Call α}

/-- An event that carries a file is sent by the writer of the file, for a rule that
waits for it. -/
theorem file_of_carries {handler : OutputHandler α} {effect : Effect α} {event : Event}
    {name : Str} (writes : effect.WritesBelow tempPath)
    (sent : event ∈ (handler.messages call effect).filterMap Message.event?)
    (carried : Carries name event) :
    ∃ attachment, effect.file? = some (attachment, name) ∧ handler.map.asking attachment ≠ [] := by
  rcases writes with ⟨attachment, img, time, file⟩
  rcases OutputHandler.messages_of_writer handler call file with announced | failed
  · have carriers : carrying name (handler.messages call effect) ≠ 0 := by
      rw [← Nat.pos_iff_ne_zero, carrying, List.countP_pos_iff]
      exact ⟨event, sent, decide_eq_true carried⟩
    rw [announced, carrying_announce handler attachment (fileName_file attachment img time)]
      at carriers
    split at carriers
    · next same =>
        refine ⟨attachment, same ▸ file, ?_⟩
        intro nobody
        exact carriers (by rw [nobody]; rfl)
    · exact absurd rfl carriers
  · rw [failed] at sent
    cases sent

theorem unanswered_start (account : Account α) (starter : Starter) (call : Call α) :
    (account.start starter call).unanswered = account.unanswered ++
      ((starter.perform account.handler call).2.flatMap
        (account.handler.messages call)).filterMap Message.event? :=
  rfl

theorem registered_start (account : Account α) (starter : Starter) (call : Call α) :
    (account.start starter call).registered = account.registered ++
      (((starter.perform account.handler call).2.filterMap Effect.file?).filter fun file =>
        account.handler.map.asking file.1 ≠ []).map Prod.snd :=
  rfl

theorem Kept.start (kept : account.Kept) (starter : Starter) (call : Call α) :
    (account.start starter call).Kept := by
  rcases starter.perform_starts account.handler call with
    ⟨writers, plain, starts, effects, plainSubset⟩
  have below := kept.path ▸ starts.writers
  refine ⟨starts.path.trans kept.path, ?_, ?_⟩
  · intro event member
    rw [unanswered_start, effects] at member
    rcases List.mem_append.mp member with old | new
    · exact kept.known event old
    · exact OutputHandler.known_messages below plainSubset call event new
  · intro event member name carried
    rw [unanswered_start, effects] at member
    rw [registered_start, effects]
    rcases List.mem_append.mp member with old | new
    · exact List.mem_append_left _ (kept.registered event old name carried)
    · apply List.mem_append_right
      simp only [List.filterMap_flatMap, List.mem_flatMap, List.mem_append] at new
      rcases new with ⟨effect, writer | isPlain, sent⟩
      · rcases file_of_carries (below effect writer) sent carried with ⟨attachment, file, asked⟩
        simp only [List.mem_map, List.mem_filter, List.mem_filterMap, List.mem_append]
        exact ⟨(attachment, name), ⟨⟨effect, Or.inl writer, file⟩, by simpa using asked⟩, rfl⟩
      · have noVars := OutputHandler.vars_of_plain (plainSubset isPlain) event sent
        exact absurd carried (not_carries_of_nil noVars name)

theorem not_fails_of_plain {handler : OutputHandler α} {effect : Effect α}
    (plain : effect ∈ handler.plainEvents) : ¬ Fails handler call effect := by
  rintro ⟨_, name, file, _⟩
  rcases List.mem_map.mp plain with ⟨rule, _, rfl⟩
  cases file

theorem outstanding_start (account : Account α) (starter : Starter) (call : Call α) (name : Str) :
    (account.start starter call).outstanding name = account.outstanding name +
      carrying name ((starter.perform account.handler call).2.flatMap
        (account.handler.messages call)) := by
  simp only [outstanding, unanswered_start, carrying, List.countP_append]

/-- The counts stay those of the events if and only if no writer fails. -/
theorem Balanced.start_iff (balanced : account.Balanced) (kept : account.Kept) :
    (account.start starter call).Balanced ↔
      ∀ effect ∈ (starter.perform account.handler call).2,
        ¬ Fails account.handler call effect := by
  rcases starter.perform_starts account.handler call with
    ⟨writers, plain, starts, effects, plainSubset⟩
  have below := kept.path ▸ starts.writers
  have quiet : ∀ name, carrying name (plain.flatMap (account.handler.messages call)) = 0 := by
    intro name
    rw [carrying, List.countP_eq_zero]
    intro event member
    simp only [List.filterMap_flatMap, List.mem_flatMap] at member
    rcases member with ⟨effect, isPlain, sent⟩
    have noVars := OutputHandler.vars_of_plain (plainSubset isPlain) event sent
    simpa using not_carries_of_nil noVars name
  have total : ∀ name, ((account.start starter call).outstanding name : Int) =
      account.handler.pendingAttachments.getD name 0 +
        carrying name (writers.flatMap (account.handler.messages call)) := by
    intro name
    rw [outstanding_start, effects, List.flatMap_append, carrying_append, quiet,
      balanced.count name]
    simp
  have works : (∀ effect ∈ writers, ¬ Fails account.handler call effect) ↔
      ∀ effect ∈ (starter.perform account.handler call).2,
        ¬ Fails account.handler call effect := by
    rw [effects, List.forall_mem_append]
    exact (and_iff_left fun effect isPlain => not_fails_of_plain (plainSubset isPlain)).symm
  have pendingEq : (account.start starter call).handler.pendingAttachments =
      writers.foldl account.handler.map.registerEffect account.handler.pendingAttachments :=
    starts.pending
  rw [← works, ← getD_foldl_register_eq_iff below]
  constructor
  · intro next name
    rw [← pendingEq, next.count, total]
  · intro equal
    refine ⟨?_, ?_⟩
    · rw [pendingEq]
      exact one_le_foldl_register balanced.positive
    · intro name
      rw [pendingEq, equal, total]

end Start

section Receive

variable {account : Account α} {message : Message} {event : Event} {removable : Str → Bool}

theorem eq_reply (answers : answeredEvent? message = some event) :
    ∃ accepted eventId, message = reply event accepted eventId := by
  unfold answeredEvent? at answers
  split at answers
  · next terminal =>
      cases message with
      | msgEvabt body =>
          cases answers
          exact ⟨false, body.eventId, rfl⟩
      | msgAckev body =>
          cases answers
          exact ⟨true, body.eventId, rfl⟩
      | _ => simp [Message.type] at terminal
  · cases answers

/-- Other messages do nothing. -/
theorem receive_of_none (other : answeredEvent? message = none) :
    account.receive message removable = account := by
  have notTerminal : ¬ (message.type = .msgEvabt ∨ message.type = .msgAckev) := by
    intro terminal
    cases message with
    | msgEvabt body => cases other
    | msgAckev body => cases other
    | _ => simp [Message.type] at terminal
  simp only [receive, other, OutputHandler.handlePendingAttachments, if_neg notTerminal]

theorem ne_zero_answered {pending : Pending} {file : Str} {succeeds : Bool}
    (nonzero : ∀ (name : Str) count, pending[name]? = some count → count ≠ 0) :
    ∀ (name : Str) count,
      (OutputHandler.answered (α := α) pending file succeeds).1[name]? = some count →
        count ≠ 0 := by
  intro name count found
  unfold OutputHandler.answered at found
  dsimp only at found
  split at found
  · rw [Std.ExtTreeMap.getElem?_erase, Std.ExtTreeMap.getElem?_insert] at found
    split at found
    · cases found
    · exact nonzero name count found
  · next left =>
      rw [Std.ExtTreeMap.getElem?_insert] at found
      split at found
      · cases found
        simpa using left
      · exact nonzero name count found

theorem ne_zero_answeredAttachment {pending : Pending} {vars : StrMap} {attachment : Attachment}
    (nonzero : ∀ (name : Str) count, pending[name]? = some count → count ≠ 0) :
    ∀ (name : Str) count, (OutputHandler.answeredAttachment (α := α) pending vars attachment
      removable).1[name]? = some count → count ≠ 0 := by
  unfold OutputHandler.answeredAttachment
  split
  · exact ne_zero_answered nonzero
  · exact nonzero

theorem getD_answeredAttachment (pending : Pending) (vars : StrMap) (attachment : Attachment)
    (name : Str) :
    (OutputHandler.answeredAttachment (α := α) pending vars attachment removable).1.getD name 0 =
      pending.getD name 0 - if vars[attachment.key]? = some name then 1 else 0 := by
  unfold OutputHandler.answeredAttachment
  split
  · next found => simp only [OutputHandler.getD_answered, found, Option.some.injEq]
  · next absent => simp [absent]

/-- The counts after an answer: every file that it names is counted down. -/
theorem pendingAttachments_receive (answers : answeredEvent? message = some event) :
    let vars := parseVars event.vars.text
    let videos := OutputHandler.answeredAttachment (α := α)
      account.handler.pendingAttachments vars .video removable
    (account.receive message removable).handler.pendingAttachments =
      (OutputHandler.answeredAttachment (α := α) videos.1 vars .image removable).1 := by
  rcases eq_reply answers with ⟨accepted, eventId, rfl⟩
  simp only [receive, OutputHandler.handlePendingAttachments_reply]

theorem ne_zero_receive (answers : answeredEvent? message = some event)
    (nonzero : ∀ (name : Str) count,
      account.handler.pendingAttachments[name]? = some count → count ≠ 0) :
    ∀ (name : Str) count,
      (account.receive message removable).handler.pendingAttachments[name]? = some count →
        count ≠ 0 := by
  rw [pendingAttachments_receive answers]
  exact ne_zero_answeredAttachment (ne_zero_answeredAttachment nonzero)

theorem names_iff (answers : answeredEvent? message = some event) (name : Str) :
    Names message name ↔ ∃ attachment : Attachment,
      (parseVars event.vars.text)[attachment.key]? = some name := by
  rcases eq_reply answers with ⟨accepted, eventId, rfl⟩
  cases accepted <;> rfl

theorem getD_receive (answers : answeredEvent? message = some event) (name : Str) :
    (account.receive message removable).handler.pendingAttachments.getD name 0 =
      account.handler.pendingAttachments.getD name 0 -
        (if (parseVars event.vars.text)[Attachment.video.key]? = some name then 1 else 0) -
        (if (parseVars event.vars.text)[Attachment.image.key]? = some name then 1 else 0) := by
  rw [pendingAttachments_receive answers, getD_answeredAttachment, getD_answeredAttachment]

/-- An event of a handler carries every file that its variables name. -/
theorem carries_of_names (answers : answeredEvent? message = some event) (known : Known event)
    {name : Str} (names : Names message name) : Carries name event := by
  rcases (names_iff answers name).mp names with ⟨attachment, found⟩
  rcases known with empty | ⟨own, file, fileName, vars⟩
  · rw [empty, show parseVars [] = ∅ by decide] at found
    simp at found
  · rw [vars, parseVars_attachmentVars own fileName] at found
    split at found
    · exact (carries_iff vars name).mpr (Option.some.inj found)
    · cases found

/-- A message that names no file leaves the counts as they are. -/
theorem receive_of_not_names (nameless : ¬ ∃ name, Names message name) :
    (account.receive message removable).handler.pendingAttachments =
      account.handler.pendingAttachments := by
  cases answers : answeredEvent? message with
  | none => rw [receive_of_none answers]
  | some event =>
      have absent : ∀ attachment : Attachment,
          (parseVars event.vars.text)[attachment.key]? = none := by
        intro attachment
        by_contra present
        rcases Option.ne_none_iff_exists'.mp present with ⟨name, found⟩
        exact nameless ⟨name, (names_iff answers name).mpr ⟨attachment, found⟩⟩
      rw [pendingAttachments_receive answers,
        OutputHandler.answeredAttachment_of_none (absent .video),
        OutputHandler.answeredAttachment_of_none (absent .image)]

theorem unanswered_receive (answers : answeredEvent? message = some event) :
    (account.receive message removable).unanswered = account.unanswered.erase event := by
  simp only [receive, answers]

theorem Kept.receive (kept : account.Kept) (message : Message) (removable : Str → Bool) :
    (account.receive message removable).Kept := by
  cases answers : answeredEvent? message with
  | none =>
      rw [receive_of_none answers]
      exact kept
  | some event =>
      have old : ∀ other ∈ (account.receive message removable).unanswered,
          other ∈ account.unanswered := by
        intro other member
        rw [unanswered_receive answers] at member
        exact List.mem_of_mem_erase member
      refine ⟨?_, fun other member => kept.known other (old other member), ?_⟩
      · rcases eq_reply answers with ⟨accepted, eventId, rfl⟩
        simp only [Account.receive, OutputHandler.handlePendingAttachments_reply]
        exact kept.path
      · intro other member
        exact kept.registered other (old other member)

/-- An answer to an event of the handler counts down the file that it carries. -/
theorem getD_receive_of_mem (answers : answeredEvent? message = some event)
    (known : Known event) (name : Str) :
    (account.receive message removable).handler.pendingAttachments.getD name 0 =
      account.handler.pendingAttachments.getD name 0 - if Carries name event then 1 else 0 := by
  rcases eq_reply answers with ⟨accepted, eventId, rfl⟩
  exact (OutputHandler.handle_reply known account.handler accepted eventId removable).2.1 name

theorem outstanding_receive (answers : answeredEvent? message = some event) (name : Str) :
    ((account.receive message removable).outstanding name : Int) =
      account.outstanding name -
        if event ∈ account.unanswered ∧ Carries name event then 1 else 0 := by
  rw [outstanding, unanswered_receive answers, outstanding]
  by_cases member : event ∈ account.unanswered
  · rw [(List.perm_cons_erase member).countP_eq, List.countP_cons]
    by_cases carried : Carries name event <;> simp [carried, member]
  · rw [List.erase_of_not_mem member]
    simp [member]

/-- The counts stay those of the events if and only if a message that names a file
answers an event of the handler. -/
theorem Balanced.receive_iff (balanced : account.Balanced) (kept : account.Kept) :
    (account.receive message removable).Balanced ↔ ∀ event, answeredEvent? message = some event →
      (∃ name, Names message name) → event ∈ account.unanswered := by
  constructor
  · rintro next event answers ⟨name, names⟩
    by_contra stranger
    have same : ((account.receive message removable).outstanding name : Int) =
        account.outstanding name := by
      rw [outstanding_receive answers, if_neg fun both => stranger both.1, Int.sub_zero]
    have counted := next.count name
    rw [same, getD_receive answers, balanced.count name] at counted
    rcases (names_iff answers name).mp names with ⟨attachment, found⟩
    cases attachment with
    | image =>
        rw [if_pos found] at counted
        split at counted <;> omega
    | video =>
        rw [if_pos found] at counted
        split at counted <;> omega
  · intro proper
    cases answers : answeredEvent? message with
    | none =>
        rw [receive_of_none answers]
        exact balanced
    | some event =>
        have count : ∀ name,
            (account.receive message removable).handler.pendingAttachments.getD name 0 =
              (account.receive message removable).outstanding name := by
          intro name
          rw [outstanding_receive answers, ← balanced.count name]
          by_cases member : event ∈ account.unanswered
          · rw [getD_receive_of_mem answers (kept.known event member)]
            simp only [member, true_and]
          · have nameless : ¬ ∃ name, Names message name :=
              fun names => member (proper event answers names)
            rw [receive_of_not_names nameless, if_neg (fun both => member both.1), Int.sub_zero]
        refine ⟨?_, count⟩
        intro name entry found
        have nonzero : entry ≠ 0 := by
          refine ne_zero_receive answers ?_ name entry found
          intro other otherCount present
          have := balanced.positive other otherCount present
          omega
        have equal := count name
        rw [Std.ExtTreeMap.getD_eq_getD_getElem?, found, Option.getD_some] at equal
        omega

end Receive

section Lose

variable {account : Account α} {event : Event}

theorem Kept.lose (kept : account.Kept) (event : Event) : (account.lose event).Kept where
  path := kept.path
  known other member := kept.known other (List.mem_of_mem_erase member)
  registered other member := kept.registered other (List.mem_of_mem_erase member)

theorem outstanding_lose (member : event ∈ account.unanswered) (name : Str) :
    (account.lose event).outstanding name + (if Carries name event then 1 else 0) =
      account.outstanding name := by
  rw [outstanding, outstanding, (List.perm_cons_erase member).countP_eq, List.countP_cons]
  by_cases carried : Carries name event <;> simp [carried, lose]

/-- The counts stay those of the events if and only if the lost event carries no file. -/
theorem Balanced.lose_iff (balanced : account.Balanced) :
    (account.lose event).Balanced ↔
      (event ∈ account.unanswered → ∀ name, ¬ Carries name event) := by
  constructor
  · intro next member name carried
    have fewer := outstanding_lose member name
    have before := balanced.count name
    have after : account.handler.pendingAttachments.getD name 0 =
        (account.lose event).outstanding name := next.count name
    rw [if_pos carried] at fewer
    omega
  · intro plain
    by_cases member : event ∈ account.unanswered
    · refine ⟨balanced.positive, fun name => ?_⟩
      have same := outstanding_lose member name
      rw [if_neg (plain member name)] at same
      change account.handler.pendingAttachments.getD name 0 = _
      rw [balanced.count name, ← same, Nat.add_zero]
    · have same : account.lose event = account := by
        rw [lose, List.erase_of_not_mem member]
      rw [same]
      exact balanced

end Lose

theorem Kept.step {account : Account α} (kept : account.Kept) (route : Nat) (task : Task α) :
    (account.step route task).Kept := by
  cases task with
  | start starter target call =>
      rw [Account.step]
      split
      · exact kept.start starter call
      · exact kept
  | lose target event =>
      rw [Account.step]
      split
      · exact kept.lose event
      · exact kept
  | incomingMsg message removable => exact kept.receive message (removable route)

theorem Balanced.step_iff {account : Account α} (balanced : account.Balanced)
    (kept : account.Kept) (route : Nat) (task : Task α) :
    (account.step route task).Balanced ↔ account.Proper route task := by
  cases task with
  | start starter target call =>
      rw [Account.step]
      split
      · next same =>
          rw [balanced.start_iff kept]
          exact ⟨fun works _ => works, fun works => works same⟩
      · next other => exact ⟨fun _ same => absurd same other, fun _ => balanced⟩
  | lose target event =>
      rw [Account.step]
      split
      · next same =>
          rw [balanced.lose_iff]
          exact ⟨fun plain _ => plain, fun plain => plain same⟩
      · next other => exact ⟨fun _ same => absurd same other, fun _ => balanced⟩
  | incomingMsg message removable => exact balanced.receive_iff kept

/-! ## Runs -/

section Runs

variable {settings : Route} {route : Nat}

theorem after_concat (tasks : List (Task α)) (task : Task α) :
    after route settings (tasks ++ [task]) = (after route settings tasks).step route task := by
  simp [after]

theorem kept_after (tasks : List (Task α)) : (after route settings tasks).Kept := by
  induction tasks using List.reverseRecOn with
  | nil => exact ⟨rfl, by simp [after, new], by simp [after, new]⟩
  | append_singleton tasks task ih =>
      rw [after_concat]
      exact ih.step route task

theorem balanced_new : (new settings : Account α).Balanced where
  positive := by simp [new, addRoute, OutputHandler.new]
  count := by simp [new, addRoute, OutputHandler.new, outstanding]

/-- The counts are right in every state of a run if and only if every task is
proper. -/
theorem balanced_iff_proper (tasks : List (Task α)) :
    (∀ before rest, tasks = before ++ rest → (after route settings before).Balanced) ↔
      ∀ before task rest, tasks = before ++ task :: rest →
        (after route settings before).Proper route task := by
  constructor
  · intro balanced before task rest split
    have here := balanced before (task :: rest) split
    rw [← here.step_iff (kept_after before), ← after_concat]
    exact balanced (before ++ [task]) rest (by simp [split])
  · intro proper before
    induction before using List.reverseRecOn with
    | nil => exact fun _ _ => balanced_new
    | append_singleton before task ih =>
        intro rest split
        have here := ih (task :: rest) (by simp [split])
        rw [after_concat, here.step_iff (kept_after before)]
        exact proper before task rest (by simp [split])

end Runs

end Account

theorem engineAfter_eq (routes : List Route) (route : Fin routes.length) (tasks : List (Task α)) :
    (engineAfter routes tasks)[route.val]? =
      some (Account.after route.val routes[route] tasks) := by
  rw [getElem?_engineAfter, List.getElem?_eq_getElem route.isLt]
  rfl

/-- The attachments of a handler are sound in a run if and only if all its writers open
their files, none of its events with a file is lost, and every answer that names a file
answers an event of this handler that was not answered before. -/
theorem attachments_sound_iff (routes : List Route) (route : Fin routes.length)
    (tasks : List (Task α)) :
    AttachmentsSound routes route tasks ↔ AllProper routes route tasks := by
  have accounts : AllProper routes route tasks ↔ ∀ before task after,
      tasks = before ++ task :: after →
        (Account.after route.val routes[route] before).Proper route task := by
    simp only [AllProper, engineAfter_eq, Option.some.injEq, forall_eq']
  rw [accounts, ← Account.balanced_iff_proper]
  constructor
  · intro sound before rest split
    exact (sound.sound before rest split _ (engineAfter_eq routes route before)).balanced
  · intro balanced
    refine ⟨?_, ?_⟩
    · intro before rest split account present
      rw [engineAfter_eq, Option.some.injEq] at present
      rw [← present]
      exact (balanced before rest split).sound (Account.kept_after before)
    · intro before message removable rest split account next present nextPresent strange
      rw [engineAfter_eq, Option.some.injEq] at present nextPresent
      subst present
      rw [Account.after_concat] at nextPresent
      subst nextPresent
      have kept : (Account.after route.val routes[route] before : Account α).Kept :=
        Account.kept_after before
      have proper := (Account.balanced_iff_proper tasks).mp balanced before _ rest split
      cases answers : answeredEvent? message with
      | none => rw [Account.step, Account.receive_of_none answers]
      | some event =>
          apply Account.receive_of_not_names
          rintro ⟨name, names⟩
          have member := proper event answers ⟨name, names⟩
          have carried := Account.carries_of_names answers (kept.known event member) names
          exact strange name names (kept.registered event member name carried)

/-! ## Two routes -/

/-- The first route sees a motion, and the core answers one of its events. -/
def firstAnswered : List (Task Unit) :=
  [.start .out 0 (motionCall 7), .incomingMsg (reply (imageEvent 1 7) true 0) fun _ _ => true]

/-- The second route counts the answer as well: its entry for the image of the first
one is negative. -/
theorem answer_of_other_route_counted :
    ¬ ∀ (routes : List Route) (route : Fin routes.length) (tasks : List (Task Unit)),
      AttachmentsSound routes route tasks := by
  intro always
  have sound := (always twoRoutes ⟨1, by decide⟩ firstAnswered).sound firstAnswered [] (by simp) _
    (engineAfter_eq twoRoutes ⟨1, by decide⟩ firstAnswered)
  have entry : (Account.after 1 (imageRoute [3]) firstAnswered).handler.pendingAttachments[
      imageOf 7]? = some (-1) := by
    decide +kernel
  have positive := (sound.entry _ _ entry).1
  omega

end Sentri.Modules.Video
