import Sentri.Core.RuleEngine.Basic
import Std.Data.ExtTreeSet

/-!
# The message queues

The messenger keeps a handler for the queue of every module.  The queues
themselves are named objects of the operating system: they stay until they are
removed by their name.  The handler removes the name it has stored, but its
constructor stores none, so that the queues of the system only ever grow.
-/

namespace Sentri.LibModule

open Sentri.Text

/-- The names of the message queues that exist in the operating system. -/
abbrev QueueNames := Std.ExtTreeSet Str

/-- A handler and the queue it sends to. -/
structure MessageHandler where
  msgQueueId : Str
  queue : Str
  deriving DecidableEq

namespace MessageHandler

/-- The constructor: the id keeps its initial value. -/
def new (queue : Str) : MessageHandler where
  msgQueueId := []
  queue := queue

/-- Make a new queue in place of one with the same name.  Without room for it the
result is a null pointer. -/
def create (room : QueueNames → Str → Bool) (id : Str) (names : QueueNames) :
    QueueNames × Option MessageHandler :=
  let names := names.erase id
  if room names id then
    (names.insert id, some (new id))
  else
    (names, none)

/-- The destructor.  There is nothing to do for a null pointer. -/
def destroy (handler : Option MessageHandler) (names : QueueNames) : QueueNames :=
  match handler with
  | none => names
  | some handler => names.erase handler.msgQueueId

end MessageHandler

end Sentri.LibModule

namespace Sentri.Core

open Sentri.LibModule Sentri.Text

structure Messenger where
  ucid : Str
  messageQueues : Std.ExtTreeMap Str (Option MessageHandler)

/-- The messenger and the queues of the operating system. -/
structure Queues where
  messenger : Messenger
  names : QueueNames

namespace Messenger

/-- What the names of all queues of a messenger start with. -/
def queueStem (ucid : Str) : Str :=
  ucid ++ ['-']

def uqid (ucid module : Str) : Str :=
  queueStem ucid ++ module

/-- Remove a queue if there is one.  The source reads the handler through the
iterator that it has just erased. -/
def removeQueue (module : Str) (queues : Queues) : Queues :=
  match queues.messenger.messageQueues[module]? with
  | none => queues
  | some handler =>
      { messenger := { queues.messenger with
          messageQueues := queues.messenger.messageQueues.erase module }
        names := MessageHandler.destroy handler queues.names }

def addQueue (room : QueueNames → Str → Bool) (module : Str) (queues : Queues) : Queues :=
  let id := uqid queues.messenger.ucid module
  let queues := removeQueue module queues
  let (names, handler) := MessageHandler.create room id queues.names
  { messenger := { queues.messenger with
      messageQueues := queues.messenger.messageQueues.insert module handler }
    names := names }

/-- The destructor. -/
def destroy (queues : Queues) : QueueNames :=
  queues.messenger.messageQueues.toList.foldl
    (fun names entry => MessageHandler.destroy entry.2 names) queues.names

/-- Send a message to a module.  `trySend` is the answer of its queue.  There is no
result when the handler is a null pointer, which is dereferenced all the same. -/
def sendMessage (trySend : MessageHandler → Message → Bool) (module : Str) (message : Message)
    (messenger : Messenger) : Option Bool :=
  if module = systemMessageModule then
    some false
  else
    match messenger.messageQueues[module]? with
    | some (some handler) => some (trySend handler message)
    | some none => none
    | none => some false

@[simp]
theorem addQueue_ucid (room : QueueNames → Str → Bool) (module : Str) (queues : Queues) :
    (addQueue room module queues).messenger.ucid = queues.messenger.ucid := by
  simp only [addQueue, removeQueue]
  split <;> rfl

@[simp]
theorem removeQueue_ucid (module : Str) (queues : Queues) :
    (removeQueue module queues).messenger.ucid = queues.messenger.ucid := by
  simp only [removeQueue]
  split <;> rfl

theorem mem_removeQueue {module other : Str} {queues : Queues} :
    other ∈ (removeQueue module queues).messenger.messageQueues ↔
      module ≠ other ∧ other ∈ queues.messenger.messageQueues := by
  cases found : queues.messenger.messageQueues[module]? with
  | none =>
      have absent : module ∉ queues.messenger.messageQueues := by
        rw [Std.ExtTreeMap.mem_iff_isSome_getElem?, found]
        simp
      simp only [removeQueue, found]
      constructor
      · intro member
        refine ⟨?_, member⟩
        rintro rfl
        exact absent member
      · exact And.right
  | some handler => simp [removeQueue, found, Std.ExtTreeMap.mem_erase]

theorem mem_addQueue {room : QueueNames → Str → Bool} {module other : Str} {queues : Queues} :
    other ∈ (addQueue room module queues).messenger.messageQueues ↔
      module = other ∨ other ∈ queues.messenger.messageQueues := by
  simp only [addQueue, Std.ExtTreeMap.mem_insert, Std.LawfulEqCmp.compare_eq_iff_eq]
  rw [mem_removeQueue]
  by_cases same : module = other
  · simp [same]
  · simp [same]

/-- The messenger has a queue for the module. -/
def HasQueue (module : Str) (queues : Queues) : Prop :=
  ∃ handler, queues.messenger.messageQueues[module]? = some (some handler)

/-- No send to a module without an entry succeeds. -/
theorem sendMessage_of_absent {module : Str} {queues : Queues}
    (absent : module ∉ queues.messenger.messageQueues)
    (trySend : MessageHandler → Message → Bool) (message : Message) :
    sendMessage trySend module message queues.messenger = some false := by
  have unknown : queues.messenger.messageQueues[module]? = none :=
    Std.ExtTreeMap.getElem?_eq_none absent
  simp [sendMessage, unknown]

theorem hasQueue_removeQueue {module other : Str} {queues : Queues} :
    HasQueue other (removeQueue module queues) ↔ module ≠ other ∧ HasQueue other queues := by
  cases found : queues.messenger.messageQueues[module]? with
  | none =>
      simp only [HasQueue, removeQueue, found]
      constructor
      · rintro ⟨handler, present⟩
        refine ⟨?_, handler, present⟩
        rintro rfl
        rw [found] at present
        cases present
      · exact And.right
  | some handler =>
      simp only [HasQueue, removeQueue, found, Std.ExtTreeMap.getElem?_erase,
        Std.LawfulEqCmp.compare_eq_iff_eq]
      by_cases same : module = other
      · simp [same]
      · simp [same]

theorem hasQueue_addQueue {room : QueueNames → Str → Bool}
    (roomy : ∀ names id, room names id = true) {module other : Str} {queues : Queues} :
    HasQueue other (addQueue room module queues) ↔ module = other ∨ HasQueue other queues := by
  have removed := @hasQueue_removeQueue module other queues
  simp only [HasQueue] at removed
  simp only [HasQueue, addQueue, MessageHandler.create, roomy, if_true,
    Std.ExtTreeMap.getElem?_insert, Std.LawfulEqCmp.compare_eq_iff_eq]
  by_cases same : module = other
  · simp [same]
  · simp [same, removed]

/-! ## Sequences of calls -/

inductive QueueCall where
  | addQueue (module : Str)
  | removeQueue (module : Str)
  deriving DecidableEq

def perform (room : QueueNames → Str → Bool) (queues : Queues) (call : QueueCall) : Queues :=
  match call with
  | .addQueue module => addQueue room module queues
  | .removeQueue module => removeQueue module queues

/-- A new messenger after some calls. -/
def performAll (room : QueueNames → Str → Bool) (ucid : Str) (names : QueueNames)
    (calls : List QueueCall) : Queues :=
  calls.foldl (perform room) ⟨⟨ucid, ∅⟩, names⟩

/-- The last call for the module added its queue. -/
def queued (module : Str) (calls : List QueueCall) : Bool :=
  calls.foldl (fun held call =>
    match call with
    | .addQueue other => held || other = module
    | .removeQueue other => held && other ≠ module) false

/-- The queues of the system that belong to this messenger are those of the
modules in its map. -/
def Agree (queues : Queues) : Prop :=
  ∀ name, queueStem queues.messenger.ucid <+: name →
    (name ∈ queues.names ↔ ∃ module ∈ queues.messenger.messageQueues,
      name = uqid queues.messenger.ucid module)

/-- There is no queue of the messenger. -/
def NoneLeft (ucid : Str) (names : QueueNames) : Prop :=
  ∀ name, queueStem ucid <+: name → name ∉ names

theorem uqid_ne_nil (ucid module : Str) : uqid ucid module ≠ [] := by
  simp [uqid, queueStem]

theorem uqid_inj {ucid first second : Str} (equal : uqid ucid first = uqid ucid second) :
    first = second :=
  List.append_cancel_left equal

theorem stem_uqid (ucid module : Str) : queueStem ucid <+: uqid ucid module :=
  List.prefix_append _ _

theorem queued_concat (module : Str) (calls : List QueueCall) (call : QueueCall) :
    queued module (calls ++ [call]) =
      match call with
      | .addQueue other => queued module calls || other = module
      | .removeQueue other => queued module calls && other ≠ module := by
  simp [queued]

theorem added_of_queued {module : Str} {calls : List QueueCall}
    (held : queued module calls = true) : .addQueue module ∈ calls := by
  induction calls using List.reverseRecOn with
  | nil => cases held
  | append_singleton calls call ih =>
      rw [queued_concat] at held
      cases call with
      | addQueue other =>
          rcases (Bool.or_eq_true _ _).mp held with old | same
          · exact List.mem_append_left _ (ih old)
          · simp [of_decide_eq_true same]
      | removeQueue other =>
          exact List.mem_append_left _ (ih ((Bool.and_eq_true _ _).mp held).1)

/-- What the calls so far have made of the map and of the system. -/
structure Kept (ucid : Str) (calls : List QueueCall) (queues : Queues) : Prop where
  ucid_eq : queues.messenger.ucid = ucid
  members : ∀ module, module ∈ queues.messenger.messageQueues ↔ queued module calls = true
  ids : ∀ (module : Str) (handler : Option MessageHandler),
    queues.messenger.messageQueues[module]? = some handler →
      ∀ name : Str, name ≠ [] →
        ∀ names, name ∈ MessageHandler.destroy handler names ↔ name ∈ names
  names : ∀ module, uqid ucid module ∈ queues.names ↔ .addQueue module ∈ calls

namespace Kept

variable {room : QueueNames → Str → Bool} {ucid : Str} {calls : List QueueCall}
  {queues : Queues}

theorem start {names : QueueNames} (fresh : NoneLeft ucid names) :
    Kept ucid [] ⟨⟨ucid, ∅⟩, names⟩ where
  ucid_eq := rfl
  members := by simp [queued]
  ids := by simp
  names := by
    intro module
    simpa using fresh _ (stem_uqid ucid module)

/-- A removal takes the queue out of the map and leaves it in the system. -/
theorem removeQueue (kept : Kept ucid calls queues) (module : Str) :
    Kept ucid (calls ++ [.removeQueue module]) (removeQueue module queues) where
  ucid_eq := by rw [removeQueue_ucid, kept.ucid_eq]
  members := by
    intro other
    rw [mem_removeQueue, queued_concat, kept.members]
    simp [and_comm]
  ids := by
    intro other handler present
    apply kept.ids other handler
    revert present
    simp only [Messenger.removeQueue]
    split
    · exact id
    · rw [Std.ExtTreeMap.getElem?_erase]
      split
      · simp
      · exact id
  names := by
    intro other
    have same : uqid ucid other ∈ (Messenger.removeQueue module queues).names ↔
        uqid ucid other ∈ queues.names := by
      simp only [Messenger.removeQueue]
      split
      · rfl
      · rename_i handler present
        exact kept.ids module handler present _ (uqid_ne_nil _ _) _
    rw [same, kept.names]
    simp

theorem addQueue (kept : Kept ucid calls queues) (roomy : ∀ names id, room names id = true)
    (module : Str) : Kept ucid (calls ++ [.addQueue module]) (addQueue room module queues) := by
  have removed := kept.removeQueue module
  let without := Messenger.removeQueue module queues
  have added : Messenger.addQueue room module queues =
      { messenger := { without.messenger with
          messageQueues := without.messenger.messageQueues.insert module
            (some (MessageHandler.new (uqid ucid module))) }
        names := (without.names.erase (uqid ucid module)).insert (uqid ucid module) } := by
    simp [Messenger.addQueue, MessageHandler.create, roomy, kept.ucid_eq, without]
  constructor
  · rw [addQueue_ucid, kept.ucid_eq]
  · intro other
    rw [mem_addQueue, queued_concat, kept.members]
    simp [or_comm]
  · intro other handler present name nonempty names
    rw [added] at present
    simp only [Std.ExtTreeMap.getElem?_insert] at present
    split at present
    · obtain rfl := Option.some.inj present
      simp [MessageHandler.destroy, MessageHandler.new, nonempty.symm]
    · exact removed.ids other handler present name nonempty names
  · intro other
    rw [added]
    have known := removed.names other
    simp only [List.mem_append, List.mem_singleton, reduceCtorEq, or_false] at known
    simp only [Std.ExtTreeSet.mem_insert, Std.ExtTreeSet.mem_erase,
      Std.LawfulEqCmp.compare_eq_iff_eq, List.mem_append, List.mem_singleton]
    by_cases same : module = other
    · subst same
      simp
    · have different : ¬ uqid ucid module = uqid ucid other := fun equal => same (uqid_inj equal)
      have other_ne : ¬ other = module := fun equal => same equal.symm
      simp [different, other_ne, without, known]

end Kept

theorem kept_performAll {room : QueueNames → Str → Bool}
    (roomy : ∀ names id, room names id = true) {ucid : Str} {names : QueueNames}
    (fresh : NoneLeft ucid names) (calls : List QueueCall) :
    Kept ucid calls (performAll room ucid names calls) := by
  induction calls using List.reverseRecOn with
  | nil => exact Kept.start fresh
  | append_singleton calls call ih =>
      rw [performAll, List.foldl_append, List.foldl_cons, List.foldl_nil, ← performAll]
      cases call with
      | addQueue module => exact ih.addQueue roomy module
      | removeQueue module => exact ih.removeQueue module

/-- Both sides agree as long as every queue that was ever added is still in the
map. -/
theorem Kept.agree_iff {ucid : Str} {calls : List QueueCall} {queues : Queues}
    (kept : Kept ucid calls queues) :
    Agree queues ↔ ∀ module, .addQueue module ∈ calls → queued module calls = true := by
  rw [Agree, kept.ucid_eq]
  constructor
  · intro agree module added
    obtain ⟨other, member, equal⟩ :=
      (agree _ (stem_uqid ucid module)).mp ((kept.names module).mpr added)
    rw [uqid_inj equal]
    exact (kept.members other).mp member
  · rintro still name ⟨module, rfl⟩
    change uqid ucid module ∈ queues.names ↔ _
    rw [kept.names]
    constructor
    · intro added
      exact ⟨module, (kept.members module).mpr (still module added), rfl⟩
    · rintro ⟨other, member, equal⟩
      rw [uqid_inj equal]
      exact added_of_queued ((kept.members other).mp member)

/-- No call removes a queue that is there. -/
def RemovesNothing (calls : List QueueCall) : Prop :=
  ∀ before module after, calls = before ++ .removeQueue module :: after →
    queued module before = false

theorem RemovesNothing.of_prefix {calls first : List QueueCall}
    (harmless : RemovesNothing calls) (isFirst : first <+: calls) : RemovesNothing first := by
  rcases isFirst with ⟨rest, rfl⟩
  rintro before module after rfl
  exact harmless before module (after ++ rest) (by simp)

/-- All added queues are still there after calls that remove nothing. -/
theorem queued_of_removesNothing {calls : List QueueCall} (harmless : RemovesNothing calls)
    {module : Str} (added : .addQueue module ∈ calls) : queued module calls = true := by
  induction calls using List.reverseRecOn with
  | nil => cases added
  | append_singleton calls call ih =>
      have held : .addQueue module ∈ calls → queued module calls = true :=
        ih (harmless.of_prefix (List.prefix_append _ _))
      rw [queued_concat]
      cases call with
      | addQueue other =>
          rcases List.mem_append.mp added with old | new
          · simp [held old]
          · simp only [List.mem_singleton, QueueCall.addQueue.injEq] at new
            simp [new]
      | removeQueue other =>
          have old : .addQueue module ∈ calls := by simpa using added
          have gone : queued other calls = false := harmless calls other [] rfl
          have different : other ≠ module := by
            rintro rfl
            rw [held old] at gone
            cases gone
          simp [held old, different]

theorem mem_destroy {ucid : Str} {calls : List QueueCall} {queues : Queues}
    (kept : Kept ucid calls queues) {name : Str} (nonempty : name ≠ []) :
    name ∈ destroy queues ↔ name ∈ queues.names := by
  have each : ∀ entry ∈ queues.messenger.messageQueues.toList, ∀ names,
      name ∈ MessageHandler.destroy entry.2 names ↔ name ∈ names := by
    intro entry member
    have present := Std.ExtTreeMap.mem_toList_iff_getElem?_eq_some.mp member
    exact kept.ids entry.1 entry.2 present name nonempty
  rw [destroy]
  generalize queues.names = names
  generalize queues.messenger.messageQueues.toList = entries at each
  induction entries generalizing names with
  | nil => rfl
  | cons entry entries ih =>
      have rest : ∀ other ∈ entries, ∀ names,
          name ∈ MessageHandler.destroy other.2 names ↔ name ∈ names := by
        intro other member
        exact each other (List.mem_cons_of_mem _ member)
      rw [List.foldl_cons]
      exact (ih _ rest).trans (each entry List.mem_cons_self names)

/-- The messenger and the operating system agree on the queues after each call as
long as no call removes a queue; and after the destructor there is no queue
left only if none was ever added. -/
theorem queues_agree_iff (room : QueueNames → Str → Bool)
    (roomy : ∀ names id, room names id = true) (ucid : Str) (names : QueueNames)
    (fresh : NoneLeft ucid names) (calls : List QueueCall) :
    ((∀ first, first <+: calls → Agree (performAll room ucid names first)) ↔
        RemovesNothing calls) ∧
      (NoneLeft ucid (destroy (performAll room ucid names calls)) ↔
        ∀ module, .addQueue module ∉ calls) := by
  constructor
  · constructor
    · rintro agree before module after rfl
      have removed : before ++ [.removeQueue module] <+: before ++ .removeQueue module :: after :=
        ⟨after, by simp⟩
      have still := (kept_performAll roomy fresh _).agree_iff.mp (agree _ removed) module
      by_contra held
      rw [Bool.not_eq_false] at held
      have queuedStill := still (List.mem_append_left _ (added_of_queued held))
      rw [queued_concat] at queuedStill
      simp at queuedStill
    · intro harmless first isFirst
      apply (kept_performAll roomy fresh first).agree_iff.mpr
      intro module added
      exact queued_of_removesNothing (harmless.of_prefix isFirst) added
  · have kept := kept_performAll roomy fresh calls
    constructor
    · intro noneLeft module added
      apply noneLeft _ (stem_uqid ucid module)
      rw [mem_destroy kept (uqid_ne_nil _ _), kept.names]
      exact added
    · rintro noneLeft name ⟨module, rfl⟩ member
      change uqid ucid module ∈ _ at member
      rw [mem_destroy kept (uqid_ne_nil _ _), kept.names] at member
      exact noneLeft module member

/-- After a queue has been added and removed again it is still there. -/
theorem removed_queue_stays :
    ¬ ∀ (calls : List QueueCall),
      (∀ first, first <+: calls →
        Agree (performAll (fun _ _ => true) "SENTRI_0".toList ∅ first)) ∧
      NoneLeft "SENTRI_0".toList
        (destroy (performAll (fun _ _ => true) "SENTRI_0".toList ∅ calls)) := by
  intro always
  let calls : List QueueCall :=
    [.addQueue "module_sms".toList, .removeQueue "module_sms".toList]
  have stays : uqid "SENTRI_0".toList "module_sms".toList ∈
      destroy (performAll (fun _ _ => true) "SENTRI_0".toList ∅ calls) := by
    decide +kernel
  exact (always calls).2 _ (stem_uqid _ _) stays

/-- Two queues that are added and kept agree with the system, and both are still
there after the destructor. -/
theorem queues_agree_iff_two_modules :
    let calls : List QueueCall :=
      [.addQueue "module_sms".toList, .addQueue "module_video".toList]
    (∀ first, first <+: calls →
      Agree (performAll (fun _ _ => true) "SENTRI_0".toList ∅ first)) ∧
    ¬ NoneLeft "SENTRI_0".toList
      (destroy (performAll (fun _ _ => true) "SENTRI_0".toList ∅ calls)) := by
  intro calls
  have both := queues_agree_iff (fun _ _ => true) (fun _ _ => rfl) "SENTRI_0".toList ∅
    (by simp [NoneLeft]) calls
  constructor
  · apply both.1.mpr
    intro before module after split
    have member : .removeQueue module ∈ calls := by simp [split]
    simp [calls] at member
  · intro noneLeft
    exact both.2.mp noneLeft "module_sms".toList List.mem_cons_self

end Messenger

end Sentri.Core
