import Sentri.Core.RuleEngine.Basic
import Sentri.LibModule.MessageHandler

/-!
# The core loop

The core reads one message after the other from its queue and hands each to the
unit in charge of the message type.
-/

namespace Sentri.Core

open Sentri.LibModule Sentri.Text

/-- The call that a message leads to. -/
inductive Reaction where
  | engine (op : RuleEngine.Op)
  | heartbeat (module : Str)
  | setHeartbeatInterval (module : Str) (interval : UInt32)
  | log (sender : Str) (severity : LogSeverity) (message : Str)

/-- The logging name of the core. -/
def loggingName : Str :=
  "core".toList

def unknownMessageType (type : Nat) : Reaction :=
  .log loggingName .warning ("Unknown message type ".toList ++ toDecimal type)

def readMessage : Message → Reaction
  | .msgEvent event => .engine (.enqueueEvent ⟨event, 0, 0, 0⟩)
  | .msgHbeat module => .heartbeat module.text
  | .msgHbint module interval => .setHeartbeatInterval module.text interval
  | .msgAckac eventId => .engine (.acceptAck eventId)
  | .msgActio _ => .log loggingName .warning "Illegal action message".toList
  | .msgLog module severity logMessage => .log module.text severity logMessage.text
  | .msgSys message => .engine (.systemMessage message.text)
  | .msgEvabt _ => unknownMessageType 1
  | .msgAckev _ => unknownMessageType 6

namespace CoreLogger

/-- A system message of the core itself goes straight to the rule engine. -/
def systemMessage (message : Str) : RuleEngine.Op :=
  .systemMessage message

end CoreLogger

end Sentri.Core
