import Sentri.Modules.Video.Writers
import Sentri.Transition.Machine

/-!
# The engine of the video module

The engine passes frames to the output handlers of its routes, and every answer
of the core to all of them.  Messages are on their way to the core in any order:
a writer sends its events when it is done, and none when it fails.
-/

namespace Sentri.Modules.Video

open Sentri.Data Sentri.LibModule Sentri.Text Sentri.Transition

universe u

variable {α : Type u}

/-- `getTempPath() + "/"`, the path of every output handler. -/
def tempPath : Str :=
  "/tmp/sentri/".toList

/-- The settings of a route. -/
structure Route where
  /-- What the memory of the output handler held before. -/
  storage : Bool
  /-- The maximum number of frames of a video. -/
  size : Nat
  /-- The rules with the event configuration of the route. -/
  map : RuleMap

/-- The output handler of a new route. -/
def addRoute (route : Route) : OutputHandler α :=
  .new route.storage tempPath route.size route.map

/-- The engine together with its writers and the core. -/
structure System (α : Type u) where
  /-- The output handlers, one for every route. -/
  routes : List (OutputHandler α)
  /-- Messages that are not sent yet. -/
  outgoing : List Message
  /-- Events that were sent and are not answered yet. -/
  waiting : List Event

inductive Op (α : Type u) where
  /-- The engine passes a frame to the output handler of a route. -/
  | out (route : Nat) (call : Call α)
  /-- A message is sent to the core. -/
  | send (message : Message)
  /-- A message does not reach the core: its writer fails, or flood protection or a full queue
  refuses it. -/
  | lose (message : Message)
  /-- The core answers an event; `removable` tells for every route whether
  `remove` succeeds. -/
  | answer (event : Event) (accepted : Bool) (eventId : EventID) (removable : Nat → Str → Bool)

/-- The answer of the core carries the variables of the event. -/
def reply (event : Event) (accepted : Bool) (eventId : EventID) : Message :=
  let body : ActionBody := ⟨eventId, event.ruleId, event.vars⟩
  if accepted then .msgAckev body else .msgEvabt body

/-- Forward a message to all output handlers. -/
def handleIncomingMsg (routes : List (OutputHandler α)) (message : Message)
    (removable : Nat → Str → Bool) : List (OutputHandler α) × List (Effect α) :=
  let vars := MessageHandler.receivedVars message
  let results := routes.mapIdx fun i handler =>
    handler.handlePendingAttachments message vars (removable i)
  (results.map Prod.fst, (results.map Prod.snd).flatten)

namespace System

def step (system : System α) : Op α → System α × List (Effect α)
  | .out route call =>
      match system.routes[route]? with
      | none => (system, [])
      | some handler =>
          let (next, effects) := handler.out call
          ({ system with
              routes := system.routes.set route next
              outgoing := system.outgoing ++ effects.flatMap (handler.messages call) }, effects)
  | .send message =>
      if message ∈ system.outgoing then
        ({ system with
            outgoing := system.outgoing.erase message
            waiting := system.waiting ++ message.event?.toList }, [])
      else
        (system, [])
  | .lose message => ({ system with outgoing := system.outgoing.erase message }, [])
  | .answer event accepted eventId removable =>
      if event ∈ system.waiting then
        let (routes, effects) :=
          handleIncomingMsg system.routes (reply event accepted eventId) removable
        ({ system with
            routes := routes
            waiting := system.waiting.erase event }, effects)
      else
        (system, [])

/-- All events that are not answered, whether they were sent already or not. -/
def events (system : System α) : List Event :=
  system.outgoing.filterMap Message.event? ++ system.waiting

end System

/-- The engine with its routes, before the first frame. -/
def engineMachine (routes : List Route) : Machine (System α) (Op α) (Effect α) :=
  ⟨⟨routes.map addRoute, [], []⟩, System.step⟩

/-! ## Files and their events -/

/-- An event that carries `image=name` or `video=name`. -/
def Carries (name : Str) (event : Event) : Prop :=
  event.vars.text = Attachment.image.key ++ '=' :: name ∨
    event.vars.text = Attachment.video.key ++ '=' :: name

instance (name : Str) : DecidablePred (Carries name) :=
  fun event => inferInstanceAs (Decidable (event.vars.text = Attachment.image.key ++ '=' :: name ∨
    event.vars.text = Attachment.video.key ++ '=' :: name))

/-- The files whose writers a call starts for at least one rule. -/
def OutputHandler.announced (handler : OutputHandler α) (call : Call α) : List Str :=
  (((handler.out call).2.filterMap Effect.file?).filter fun file =>
    handler.map.asking file.1 ≠ []).map Prod.snd

end Sentri.Modules.Video
