import Sentri.Core.Queues
import Sentri.Transition.Objects

/-!
# The handlers of the messenger

The map of the messenger holds pointers to its message handlers.  A handler that
could not be created is kept there as a null pointer.  The handlers are numbered in
the order of their creation, and the messenger tells which of them it touches.

A removal erases the node of the map and reads the pointer from it afterwards.
Whether the storage of the node still holds the pointer then is up to the allocator:
each call comes with its answer (`intact`), next to those of the operating system
(`room`) and of the queue (`taken`).
-/

namespace Sentri.Core

open Sentri.LibModule Sentri.Text Sentri.Transition

/-- The part of the messenger that keeps the handlers. -/
structure Handlers where
  messageQueues : Std.ExtTreeMap Str (Option Nat)
  /-- Handlers created so far. -/
  created : Nat

namespace Handlers

inductive Event where
  | touched (touch : Touch Nat)
  /-- A send returns. -/
  | returned (success : Bool)
  deriving DecidableEq

inductive Call where
  | addQueue (module : Str) (intact room : Bool)
  | removeQueue (module : Str) (intact : Bool)
  | sendMessage (module : Str) (taken : Bool)
  deriving DecidableEq

/-- Delete a handler.  For a null pointer there is nothing to do. -/
def delete : Option Nat → List (Touch Nat)
  | none => []
  | some handler => [.release (some handler)]

/-- Delete what the erased node of a map holds.  Storage that has been overwritten holds a
pointer to nothing. -/
def deleteErased (intact : Bool) (handler : Option Nat) : List (Touch Nat) :=
  if intact then delete handler else [.release none]

def removeQueue (intact : Bool) (module : Str) (handlers : Handlers) :
    Handlers × List (Touch Nat) :=
  match handlers.messageQueues[module]? with
  | none => (handlers, [])
  | some handler =>
      ({ handlers with messageQueues := handlers.messageQueues.erase module },
        deleteErased intact handler)

/-- `MessageHandler::create`, which has no result without room for the queue. -/
def create (room : Bool) (handlers : Handlers) : Handlers × Option Nat × List (Touch Nat) :=
  if room then
    ({ handlers with created := handlers.created + 1 }, some handlers.created,
      [.create handlers.created])
  else
    (handlers, none, [])

def addQueue (intact room : Bool) (module : Str) (handlers : Handlers) :
    Handlers × List (Touch Nat) :=
  let (handlers, removed) := removeQueue intact module handlers
  let (handlers, handler, created) := create room handlers
  ({ handlers with messageQueues := handlers.messageQueues.insert module handler },
    removed ++ created)

/-- A send through a null pointer does not return. -/
def sendMessage (taken : Bool) (module : Str) (handlers : Handlers) : List Event :=
  if module = systemMessageModule then
    [.returned false]
  else
    match handlers.messageQueues[module]? with
    | none => [.returned false]
    | some none => [.touched (.use none)]
    | some (some handler) => [.touched (.use (some handler)), .returned taken]

/-- The destructor. -/
def destroy (handlers : Handlers) : List (Touch Nat) :=
  handlers.messageQueues.toList.flatMap fun entry => delete entry.2

def step (handlers : Handlers) : Call → Handlers × List Event
  | .addQueue module intact room =>
      let (handlers, touches) := addQueue intact room module handlers
      (handlers, touches.map .touched)
  | .removeQueue module intact =>
      let (handlers, touches) := removeQueue intact module handlers
      (handlers, touches.map .touched)
  | .sendMessage module taken => (handlers, sendMessage taken module handlers)

def machine : Machine Handlers Call Event where
  start := ⟨∅, 0⟩
  step := step

def touch? : Event → Option (Touch Nat)
  | .touched touch => some touch
  | .returned _ => none

/-- What is done to the handlers in a run. -/
def touches (run : Run Handlers Call Event) : List (Touch Nat) :=
  run.trace.filterMap fun item => touch? item.2

/-- The messenger has a handler for the module. -/
def Usable (handlers : Handlers) (module : Str) : Prop :=
  ∃ handler : Nat, handlers.messageQueues[module]? = some (some handler)

/-- A send to a module without a usable queue fails and changes nothing. -/
def Refuses (handlers : Handlers) : Call → Prop
  | .sendMessage module taken => ¬Usable handlers module →
      step handlers (.sendMessage module taken) = (handlers, [.returned false])
  | _ => True

/-- A failed creation of a queue breaks nothing in a run, its destructor included. -/
structure Sound (calls : List Call) : Prop where
  touches : Disciplined (touches (machine.run calls) ++ destroy (machine.run calls).state)
  sends : Throughout (fun before call => Refuses (machine.run before).state call) calls

/-- No send goes to a module whose handler is a null pointer, and no node of the map is
overwritten before its pointer is read. -/
def Harmless (handlers : Handlers) : Call → Prop
  | .addQueue module intact _ => module ∈ handlers.messageQueues → intact = true
  | .removeQueue module intact => module ∈ handlers.messageQueues → intact = true
  | .sendMessage module _ => module = systemMessageModule ∨
      handlers.messageQueues[module]? ≠ some none

/-! ## Handlers in the map are live -/

/-- The handlers in the map are live and different from each other. -/
structure Held (handlers : Handlers) (touches : List (Touch Nat)) : Prop where
  disciplined : Disciplined touches
  live : ∀ (module : Str) (handler : Nat),
    handlers.messageQueues[module]? = some (some handler) → Live touches handler
  apart : ∀ (first second : Str) (handler : Nat),
    handlers.messageQueues[first]? = some (some handler) →
      handlers.messageQueues[second]? = some (some handler) → first = second
  fresh : ∀ handler : Nat, .create handler ∈ touches → handler < handlers.created

namespace Held

variable {handlers : Handlers} {touches : List (Touch Nat)}

theorem start : Held machine.start [] where
  disciplined := Disciplined.nil
  live := by simp [machine]
  apart := by simp [machine]
  fresh := by simp

theorem erase (held : Held handlers touches) (module : Str) :
    Held { handlers with messageQueues := handlers.messageQueues.erase module } touches := by
  have kept : ∀ (other : Str) (handler : Nat),
      (handlers.messageQueues.erase module)[other]? = some (some handler) →
        handlers.messageQueues[other]? = some (some handler) := by
    intro other handler present
    rw [Std.ExtTreeMap.getElem?_erase] at present
    split at present
    · cases present
    · exact present
  refine ⟨held.disciplined, ?_, ?_, held.fresh⟩
  · intro other handler present
    exact held.live other handler (kept other handler present)
  · intro first second handler firstHas secondHas
    exact held.apart first second handler (kept first handler firstHas)
      (kept second handler secondHas)

/-- A live handler that is not in the map may be released. -/
theorem release (held : Held handlers touches) {handler : Nat} (live : Live touches handler)
    (outside : ∀ module : Str, handlers.messageQueues[module]? ≠ some (some handler)) :
    Held handlers (touches ++ [.release (some handler)]) := by
  refine ⟨held.disciplined.release live, ?_, held.apart, ?_⟩
  · intro module other present
    apply (held.live module other present).append
    intro released
    obtain rfl : other = handler := by simpa using released
    exact outside module present
  · intro other member
    exact held.fresh other (by simpa using member)

theorem removeQueue (held : Held handlers touches) {intact : Bool} {module : Str}
    (readable : module ∈ handlers.messageQueues → intact = true) :
    Held (removeQueue intact module handlers).1
      (touches ++ (Handlers.removeQueue intact module handlers).2) := by
  cases found : handlers.messageQueues[module]? with
  | none => simpa [Handlers.removeQueue, found] using held
  | some stored =>
      have present : module ∈ handlers.messageQueues := by
        rw [Std.ExtTreeMap.mem_iff_isSome_getElem?, found]
        rfl
      simp only [Handlers.removeQueue, found, deleteErased, readable present, if_true]
      cases stored with
      | none => simpa [delete] using held.erase module
      | some handler =>
          apply (held.erase module).release (held.live module handler found)
          intro other still
          rw [Std.ExtTreeMap.getElem?_erase] at still
          split at still
          · cases still
          · next different =>
              obtain rfl := held.apart module other handler found still
              simp at different

/-- What was in the map before a node was inserted. -/
theorem present_of_insert {module : Str} {stored : Option Nat} {other : Str} {handler : Nat}
    (different : stored ≠ some handler)
    (present : (handlers.messageQueues.insert module stored)[other]? = some (some handler)) :
    handlers.messageQueues[other]? = some (some handler) := by
  rw [Std.ExtTreeMap.getElem?_insert] at present
  split at present
  · exact absurd (Option.some.inj present) different
  · exact present

theorem insertNull (held : Held handlers touches) (module : Str) :
    Held { handlers with messageQueues := handlers.messageQueues.insert module none }
      touches := by
  have old : ∀ (other : Str) (handler : Nat),
      (handlers.messageQueues.insert module none)[other]? = some (some handler) →
        handlers.messageQueues[other]? = some (some handler) := by
    intro other handler present
    exact present_of_insert (by simp) present
  constructor
  · exact held.disciplined
  · intro other handler present
    exact held.live other handler (old other handler present)
  · intro first second handler firstHas secondHas
    exact held.apart first second handler (old first handler firstHas)
      (old second handler secondHas)
  · exact held.fresh

/-- The next handler was not touched before. -/
theorem unborn (held : Held handlers touches) : .create handlers.created ∉ touches := by
  intro member
  exact absurd (held.fresh _ member) (lt_irrefl _)

/-- A handler in the map after an insertion is the new one or was there before. -/
theorem present_of_insertNew (held : Held handlers touches) {module other : Str} {handler : Nat}
    (present : (handlers.messageQueues.insert module (some handlers.created))[other]? =
      some (some handler)) :
    other = module ∧ handler = handlers.created ∨
      handler ≠ handlers.created ∧ handlers.messageQueues[other]? = some (some handler) := by
  by_cases new : handlers.created = handler
  · left
    rw [Std.ExtTreeMap.getElem?_insert] at present
    split at present
    · next same => exact ⟨(Std.LawfulEqCmp.compare_eq_iff_eq.mp same).symm, new.symm⟩
    · rw [← new] at present
      exact absurd (held.live other _ present).1 held.unborn
  · right
    constructor
    · exact fun equal => new equal.symm
    · exact present_of_insert (by simpa using new) present

theorem insertNew (held : Held handlers touches) (module : Str) :
    Held
      { handlers with
        messageQueues := handlers.messageQueues.insert module (some handlers.created)
        created := handlers.created + 1 }
      (touches ++ [.create handlers.created]) := by
  constructor
  · exact held.disciplined.create held.unborn
  · intro other handler present
    rcases held.present_of_insertNew present with ⟨_, rfl⟩ | ⟨_, before⟩
    · exact Live.create fun member => held.unborn (held.disciplined.created_of_released member)
    · exact (held.live other handler before).append (by simp)
  · intro first second handler firstHas secondHas
    rcases held.present_of_insertNew firstHas with ⟨rfl, new⟩ | ⟨other, firstBefore⟩
    · rcases held.present_of_insertNew secondHas with ⟨rfl, _⟩ | ⟨other, _⟩
      · rfl
      · exact absurd new other
    · rcases held.present_of_insertNew secondHas with ⟨_, new⟩ | ⟨_, secondBefore⟩
      · exact absurd new other
      · exact held.apart first second handler firstBefore secondBefore
  · intro handler member
    rcases List.mem_append.mp member with before | new
    · exact (held.fresh handler before).trans (Nat.lt_succ_self _)
    · obtain rfl : handler = handlers.created := by simpa using new
      exact Nat.lt_succ_self _

theorem create (held : Held handlers touches) (room : Bool) (module : Str) :
    Held
      { (create room handlers).1 with
        messageQueues :=
          (create room handlers).1.messageQueues.insert module (create room handlers).2.1 }
      (touches ++ (create room handlers).2.2) := by
  cases room with
  | false => simpa [Handlers.create] using held.insertNull module
  | true => exact held.insertNew module

theorem addQueue (held : Held handlers touches) {intact : Bool} (room : Bool) {module : Str}
    (readable : module ∈ handlers.messageQueues → intact = true) :
    Held (addQueue intact room module handlers).1
      (touches ++ (Handlers.addQueue intact room module handlers).2) := by
  have added := (held.removeQueue readable).create room module
  rw [List.append_assoc] at added
  exact added

theorem destroy (held : Held handlers touches) :
    Disciplined (touches ++ destroy handlers) := by
  have releases : Handlers.destroy handlers =
      (handlers.messageQueues.toList.filterMap Prod.snd).map fun handler =>
        .release (some handler) := by
    rw [Handlers.destroy]
    induction handlers.messageQueues.toList with
    | nil => rfl
    | cons entry entries ih =>
        rcases entry with ⟨module, stored⟩
        rw [List.flatMap_cons, ih]
        cases stored <;> rfl
  rw [releases]
  apply held.disciplined.release_all
  · intro handler member
    rcases List.mem_filterMap.mp member with ⟨⟨module, stored⟩, entry, rfl⟩
    exact held.live module handler (Std.ExtTreeMap.mem_toList_iff_getElem?_eq_some.mp entry)
  · rw [List.Nodup, List.pairwise_filterMap]
    apply (Std.ExtTreeMap.distinct_keys_toList).imp_of_mem
    intro first second firstMember secondMember different handler firstEq other secondEq equal
    have firstHas := Std.ExtTreeMap.mem_toList_iff_getElem?_eq_some.mp firstMember
    have secondHas := Std.ExtTreeMap.mem_toList_iff_getElem?_eq_some.mp secondMember
    rw [firstEq] at firstHas
    rw [secondEq, ← equal] at secondHas
    have same := held.apart first.1 second.1 handler firstHas secondHas
    simp [same] at different

theorem use (held : Held handlers touches) {module : Str} {handler : Nat}
    (found : handlers.messageQueues[module]? = some (some handler)) :
    Held handlers (touches ++ [.use (some handler)]) := by
  refine ⟨held.disciplined.use (held.live module handler found), ?_, held.apart, ?_⟩
  · intro other stored present
    exact (held.live other stored present).append (by simp)
  · intro other member
    exact held.fresh other (by simpa using member)

theorem sendMessage (held : Held handlers touches) {module : Str} (taken : Bool)
    (notNull : module = systemMessageModule ∨
      handlers.messageQueues[module]? ≠ some none) :
    Held handlers (touches ++ (sendMessage taken module handlers).filterMap touch?) := by
  have refused : Held handlers (touches ++ [Event.returned false].filterMap touch?) := by
    simpa only [List.filterMap_cons, touch?, List.filterMap_nil, List.append_nil] using held
  unfold Handlers.sendMessage
  split
  · exact refused
  · next other =>
      split
      · exact refused
      · next null => exact absurd null (notNull.resolve_left other)
      · next handler found => exact held.use found

end Held

theorem filterMap_touched (touches : List (Touch Nat)) :
    (touches.map Event.touched).filterMap touch? = touches := by
  induction touches with
  | nil => rfl
  | cons touch touches ih => simp only [List.map_cons, List.filterMap_cons, touch?, ih]

theorem Held.step {handlers : Handlers} {touches : List (Touch Nat)}
    (held : Held handlers touches) {call : Call} (harmless : Harmless handlers call) :
    Held (step handlers call).1 (touches ++ (step handlers call).2.filterMap touch?) := by
  cases call with
  | addQueue module intact room =>
      simp only [Handlers.step, filterMap_touched]
      exact held.addQueue room harmless
  | removeQueue module intact =>
      simp only [Handlers.step, filterMap_touched]
      exact held.removeQueue harmless
  | sendMessage module taken => exact held.sendMessage taken harmless

theorem touches_concat (calls : List Call) (call : Call) :
    touches (machine.run (calls ++ [call])) = touches (machine.run calls) ++
      (step (machine.run calls).state call).2.filterMap touch? := by
  rw [Machine.run_concat, touches, Machine.extend_trace, List.filterMap_append,
    List.filterMap_map]
  rfl

theorem held_run {calls : List Call}
    (harmless : Throughout (fun before call => Harmless (machine.run before).state call) calls) :
    Held (machine.run calls).state (touches (machine.run calls)) := by
  induction calls using List.reverseRecOn with
  | nil => exact Held.start
  | append_singleton calls call ih =>
      rcases harmless.of_concat with ⟨before, last⟩
      rw [touches_concat, Machine.run_concat]
      exact (ih before).step last

/-! ## Which sequences of calls are sound -/

/-- What one call of a run touches is among what the run touches. -/
theorem mem_touches {before after : List Call} {call : Call} {touch : Touch Nat}
    (member : touch ∈ (step (machine.run before).state call).2.filterMap touch?) :
    touch ∈ touches (machine.run (before ++ call :: after)) := by
  have earlier : touch ∈ touches (machine.run (before ++ [call])) := by
    rw [touches_concat]
    exact List.mem_append_right _ member
  rw [List.append_cons, Machine.run_append, Machine.foldl_extend_trace, touches,
    List.filterMap_append]
  exact List.mem_append_left _ earlier

theorem refuses_of_harmless {handlers : Handlers} {call : Call}
    (harmless : Harmless handlers call) : Refuses handlers call := by
  cases call with
  | addQueue => trivial
  | removeQueue => trivial
  | sendMessage module taken =>
      intro unusable
      simp only [step, sendMessage]
      split
      · rfl
      · next other =>
          split
          · rfl
          · next null => exact absurd null (harmless.resolve_left other)
          · next handler found => exact absurd ⟨handler, found⟩ unusable

/-- A call that is not harmless touches a pointer to nothing. -/
theorem touches_nothing {handlers : Handlers} {call : Call}
    (harmful : ¬Harmless handlers call) :
    .use none ∈ (step handlers call).2.filterMap touch? ∨
      .release none ∈ (step handlers call).2.filterMap touch? := by
  have erased : ∀ {module : Str}, module ∈ handlers.messageQueues →
      .release none ∈ (removeQueue false module handlers).2 := by
    intro module present
    rw [Std.ExtTreeMap.mem_iff_isSome_getElem?] at present
    rcases Option.isSome_iff_exists.mp present with ⟨handler, found⟩
    simp [removeQueue, found, deleteErased]
  cases call with
  | addQueue module intact room =>
      simp only [Harmless, not_forall, Bool.not_eq_true] at harmful
      rcases harmful with ⟨present, rfl⟩
      right
      simp only [step, filterMap_touched]
      exact List.mem_append_left _ (erased present)
  | removeQueue module intact =>
      simp only [Harmless, not_forall, Bool.not_eq_true] at harmful
      rcases harmful with ⟨present, rfl⟩
      right
      simp only [step, filterMap_touched]
      exact erased present
  | sendMessage module taken =>
      simp only [Harmless, not_or, not_not] at harmful
      rcases harmful with ⟨other, null⟩
      left
      simp [step, sendMessage, other, null, touch?]

/-- Failed creations break nothing, in any run, if and only if all its calls are
harmless. -/
theorem sound_iff (calls : List Call) :
    Sound calls ↔
      Throughout (fun before call => Harmless (machine.run before).state call) calls := by
  constructor
  · intro sound before call after split
    by_contra harmful
    subst split
    have touched := sound.touches.of_append
    rcases touches_nothing harmful with used | released
    · exact (Disciplined.of_mem touched (mem_touches used)).1 rfl
    · exact (Disciplined.of_mem touched (mem_touches released)).2 rfl
  · intro harmless
    constructor
    · exact (held_run harmless).destroy
    · intro before call after split
      exact refuses_of_harmless (harmless before call after split)

/-- A message to a module whose queue could not be created. -/
theorem send_after_failed_creation :
    ¬ Sound [.addQueue "module_sms".toList true false,
      .sendMessage "module_sms".toList true] := by
  intro sound
  have used : .use none ∈ touches (machine.run
      [.addQueue "module_sms".toList true false, .sendMessage "module_sms".toList true]) := by
    decide +kernel
  exact (Disciplined.of_mem sound.touches.of_append used).1 rfl

/-! ## The queues of the system -/

/-- The handlers of a messenger, told apart, and its queues in the system. -/
structure Shadows (handlers : Handlers) (queues : Queues) : Prop where
  handlers : ∀ module : Str, queues.messenger.messageQueues[module]? =
    handlers.messageQueues[module]?.map fun handler =>
      handler.map fun _ => MessageHandler.new (Messenger.uqid queues.messenger.ucid module)

/-- A call with the answer of the operating system, where the storage of an erased node
is never overwritten before it is read. -/
def answered (room : QueueNames → Str → Bool) (queues : Queues) : Messenger.QueueCall → Call
  | .addQueue module =>
      .addQueue module true (room
        ((Messenger.removeQueue module queues).names.erase
          (Messenger.uqid queues.messenger.ucid module))
        (Messenger.uqid queues.messenger.ucid module))
  | .removeQueue module => .removeQueue module true

namespace Shadows

variable {handlers : Handlers} {queues : Queues}

theorem removeQueue (shadows : Shadows handlers queues) (module : Str) :
    Shadows (removeQueue true module handlers).1 (Messenger.removeQueue module queues) := by
  constructor
  intro other
  have same := shadows.handlers module
  rw [Messenger.removeQueue_ucid]
  cases found : handlers.messageQueues[module]? with
  | none =>
      rw [found, Option.map_none] at same
      simp only [Handlers.removeQueue, Messenger.removeQueue, found, same]
      exact shadows.handlers other
  | some handler =>
      rw [found, Option.map_some] at same
      simp only [Handlers.removeQueue, Messenger.removeQueue, found, same,
        Std.ExtTreeMap.getElem?_erase]
      split
      · rfl
      · exact shadows.handlers other

theorem perform (shadows : Shadows handlers queues) (room : QueueNames → Str → Bool)
    (call : Messenger.QueueCall) :
    Shadows (step handlers (answered room queues call)).1
      (Messenger.perform room queues call) := by
  cases call with
  | removeQueue module => exact shadows.removeQueue module
  | addQueue module =>
      constructor
      intro other
      have removed := (shadows.removeQueue module).handlers other
      rw [Messenger.removeQueue_ucid] at removed
      have kept := @Messenger.removeQueue_ucid module queues
      simp only [step, answered, addQueue, create, Messenger.perform, Messenger.addQueue,
        MessageHandler.create]
      generalize (room _ _) = created
      cases created with
      | false =>
          simp only [Bool.false_eq_true, if_false, kept, Std.ExtTreeMap.getElem?_insert]
          split
          · rfl
          · exact removed
      | true =>
          simp only [if_true, kept, Std.ExtTreeMap.getElem?_insert]
          split
          · next same =>
              rw [Std.LawfulEqCmp.compare_eq_iff_eq.mp same]
              rfl
          · exact removed

/-- A send returns what it returns in the system, and does not return when it has no
result there. -/
theorem returned_mem_sendMessage (shadows : Shadows handlers queues)
    (trySend : MessageHandler → Message → Bool) (module : Str) (message : Message)
    (success : Bool) :
    .returned success ∈ sendMessage
        (trySend (MessageHandler.new (Messenger.uqid queues.messenger.ucid module)) message)
        module handlers ↔
      Messenger.sendMessage trySend module message queues.messenger = some success := by
  have same := shadows.handlers module
  simp only [sendMessage, Messenger.sendMessage]
  split
  · simp [eq_comm]
  · cases found : handlers.messageQueues[module]? with
    | none =>
        rw [found, Option.map_none] at same
        simp [same, eq_comm]
    | some handler =>
        rw [found, Option.map_some] at same
        cases handler with
        | none => simp [same]
        | some handler => simp [same, eq_comm]

end Shadows

/-- The queues of the system after some calls are those of a harmless run. -/
theorem shadowed_performAll (room : QueueNames → Str → Bool) (ucid : Str)
    (names : QueueNames) (calls : List Messenger.QueueCall) :
    ∃ answers, Throughout (fun before call => Harmless (machine.run before).state call) answers ∧
      Shadows (machine.run answers).state (Messenger.performAll room ucid names calls) := by
  induction calls using List.reverseRecOn with
  | nil => exact ⟨[], Throughout.nil, ⟨by simp [machine, Machine.fresh, Messenger.performAll]⟩⟩
  | append_singleton calls call ih =>
      rcases ih with ⟨answers, harmless, shadows⟩
      refine ⟨answers ++ [answered room (Messenger.performAll room ucid names calls) call],
        harmless.concat ?_, ?_⟩
      · cases call <;> exact fun _ => rfl
      · have last : Messenger.performAll room ucid names (calls ++ [call]) =
            Messenger.perform room (Messenger.performAll room ucid names calls) call := by
          simp only [Messenger.performAll, List.foldl_append, List.foldl_cons, List.foldl_nil]
        rw [Machine.run_concat, Machine.extend_state, last]
        exact shadows.perform room call

end Handlers

end Sentri.Core
