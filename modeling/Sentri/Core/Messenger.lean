import Sentri.LibModule.Message
import Sentri.Transition.Clock

/-!
# Event entries and the messages about them

The core keeps an entry for every pending event.  The three messages the
messenger builds from an entry carry its id, its rule and its variables.
-/

namespace Sentri.Core

open Sentri.LibModule Sentri.Text Sentri.Transition

/-- An event of the system. -/
structure EventEntry where
  event : Event
  id : EventID
  /-- When the action was last sent. -/
  actionSent : Timepoint
  /-- How often the rule engine tried to take the action. -/
  numTries : UInt16
  deriving DecidableEq

/-- A message and the module it is to be put into the queue of. -/
structure Delivery where
  module : Str
  message : Message
  deriving DecidableEq

namespace EventEntry

/-- The entry after one more try at its action. -/
def attempt (entry : EventEntry) (sent : Timepoint) : EventEntry :=
  { entry with numTries := entry.numTries + 1, actionSent := sent }

def toActionBody (entry : EventEntry) : ActionBody where
  eventId := entry.id
  ruleId := entry.event.ruleId
  vars := entry.event.vars

@[simp]
theorem attempt_event (entry : EventEntry) (sent : Timepoint) :
    (entry.attempt sent).event = entry.event :=
  rfl

@[simp]
theorem attempt_id (entry : EventEntry) (sent : Timepoint) :
    (entry.attempt sent).id = entry.id :=
  rfl

@[simp]
theorem toActionBody_attempt (entry : EventEntry) (sent : Timepoint) :
    (entry.attempt sent).toActionBody = entry.toActionBody :=
  rfl

end EventEntry

namespace Messenger

def sendAction (module : Str) (entry : EventEntry) : Delivery :=
  ⟨module, .msgActio entry.toActionBody⟩

def sendEventAck (module : Str) (entry : EventEntry) : Delivery :=
  ⟨module, .msgAckev entry.toActionBody⟩

def sendEventAbort (module : Str) (entry : EventEntry) : Delivery :=
  ⟨module, .msgEvabt entry.toActionBody⟩

end Messenger

end Sentri.Core
