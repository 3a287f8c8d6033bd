import Sentri.Text.Basic

/-!
# Messages

The messages exchanged between the core and its modules.  A message is one
constructor for each message type, carrying the body that the type uses: a
message whose type and body disagree cannot be built.
-/

namespace Sentri.LibModule

open Sentri.Text

/-- Rule ids are only compared and copied, never computed with. -/
abbrev RuleID := Nat

/-- Event ids are counted with 64-bit wrap-around. -/
abbrev EventID := UInt64

/-- Size of the variables of a message. -/
def msgVarSize : Nat :=
  1016

/-- Size of a module name in a message. -/
def msgModNameSize : Nat :=
  128

/-- Size of the text of a log message. -/
def msgLogSize : Nat :=
  2048

instance : NeZero msgVarSize :=
  ⟨by decide⟩

instance : NeZero msgModNameSize :=
  ⟨by decide⟩

instance : NeZero msgLogSize :=
  ⟨by decide⟩

inductive LogSeverity where
  | localOnly
  | trace
  | debug
  | info
  | warning
  | error
  | fatal
  deriving DecidableEq

inductive MessageType where
  | msgEvent
  | msgEvabt
  | msgActio
  | msgHbeat
  | msgHbint
  | msgAckac
  | msgAckev
  | msgLog
  | msgSys
  deriving DecidableEq

/-- The number of a message type. -/
def typeNumber : MessageType → Nat
  | .msgEvent => 0
  | .msgEvabt => 1
  | .msgActio => 2
  | .msgHbeat => 3
  | .msgHbint => 4
  | .msgAckac => 5
  | .msgAckev => 6
  | .msgLog => 7
  | .msgSys => 8

/-- An event: the rule it belongs to and the variables it carries. -/
structure Event where
  ruleId : RuleID
  vars : CString msgVarSize
  deriving DecidableEq

/-- The body of the three messages the core sends about an event. -/
structure ActionBody where
  eventId : EventID
  ruleId : RuleID
  vars : CString msgVarSize
  deriving DecidableEq

inductive Message where
  /-- Event, from an event module to the core. -/
  | msgEvent (event : Event)
  /-- Event abort, from the core to the event module. -/
  | msgEvabt (action : ActionBody)
  /-- Action, from the core to an action module. -/
  | msgActio (action : ActionBody)
  /-- Heartbeat of a module. -/
  | msgHbeat (module : CString msgModNameSize)
  /-- New heartbeat interval of a module, in milliseconds. -/
  | msgHbint (module : CString msgModNameSize) (interval : UInt32)
  /-- Acknowledgement of an action, from the action module to the core. -/
  | msgAckac (eventId : EventID)
  /-- Acknowledgement of an event, from the core to the event module. -/
  | msgAckev (action : ActionBody)
  | msgLog (module : CString msgModNameSize) (severity : LogSeverity)
      (logMessage : CString msgLogSize)
  | msgSys (message : CString msgVarSize)
  deriving DecidableEq

namespace Message

def type : Message → MessageType
  | msgEvent _ => .msgEvent
  | msgEvabt _ => .msgEvabt
  | msgActio _ => .msgActio
  | msgHbeat _ => .msgHbeat
  | msgHbint _ _ => .msgHbint
  | msgAckac _ => .msgAckac
  | msgAckev _ => .msgAckev
  | msgLog _ _ _ => .msgLog
  | msgSys _ => .msgSys

/-- The body of a message about an event: `MSG_ACTIO`, `MSG_ACKEV` and
`MSG_EVABT` share one. -/
def action? : Message → Option ActionBody
  | msgEvabt action => some action
  | msgActio action => some action
  | msgAckev action => some action
  | _ => none

def event? : Message → Option Event
  | msgEvent event => some event
  | _ => none

end Message

end Sentri.LibModule
