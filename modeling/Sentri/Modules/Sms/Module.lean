import Sentri.LibModule.MessageHandler
import Sentri.LibModule.Rule

/-!
# The SMS module

The SMS module waits for actions and sends a text message to every receiver of
an action.  The transfer library is a parameter: every answer may depend on how
many text messages were sent before.
-/

namespace Sentri.Modules.Sms

open Sentri.LibModule Sentri.Text

def moduleName : Str :=
  "module_sms".toList

def url : Str :=
  "http://http.gtx-messaging.net/smsc.php?user=".toList

/-- The key of the only action of the module. -/
def actionTitle : Str :=
  "send".toList

structure Settings where
  fromNumber : Str
  key : Str
  pass : Str

/-- The transfer library, asked for the text message number `n`. -/
structure Curl where
  /-- Does `curl_easy_init` give a handle? -/
  init : Nat → Bool
  escape : Nat → Str → Option Str
  /-- Does the request of a link succeed?  If not, the text of the error. -/
  perform : Nat → Str → Except Str Unit

/-- What the module does to the outside. -/
inductive Output where
  /-- A request for one text message. -/
  | request (receiver link : Str) (success : Bool)
  /-- A message put into the queue of the core. -/
  | sent (message : Message)

/-- The module process between two messages. -/
structure SMSModule where
  settings : Settings
  rules : List RuleInfo
  /-- Text messages sent so far. -/
  count : Nat

variable (curl : Curl)

def log (severity : LogSeverity) (message : Str) : Output :=
  .sent (MessageHandler.log moduleName severity message)

/-- Send one text message; the number returned is always zero. -/
def sendSMS (settings : Settings) (count : Nat) (receiver body : Str) : Int × List Output :=
  if curl.init count then
    match curl.escape count body with
    | some output =>
        let link := url ++ settings.key ++ "&pass=".toList ++ settings.pass ++
          "&from=".toList ++ settings.fromNumber ++ "&to=".toList ++ receiver ++
          "&text=".toList ++ output
        match curl.perform count link with
        | .ok _ => (0, [.request receiver link true])
        | .error message =>
            (0, [.request receiver link false,
              log .error ("curl_easy_perform() failed: ".toList ++ message)])
    | none => (0, [])
  else
    (0, [log .error "curl_easy_init failed".toList])

/-- Send a text message to one receiver after the other. -/
def sendAll (settings : Settings) (body : Str) : Nat → List Str → Nat × List Output
  | count, [] => (count, [])
  | count, receiver :: left =>
      let (_, first) := sendSMS curl settings count receiver body
      let (count, rest) := sendAll settings body (count + 1) left
      (count, first ++ rest)

/-- The receivers of an action: its setting `to`, split at commas and blanks. -/
def receivers (action : ActionInfo) (vars : StrMap) : List Str :=
  (Module.replaceVars (action.configuration.getD "to".toList []) vars).splitOnP
    fun c => c = ',' || c = ' '

/-- React to an action.  Without a rule for it the program dereferences `NULL`
and ends, which `none` stands for. -/
def takeAction (module : SMSModule) (body : ActionBody) (vars : StrMap) :
    Option (Int × SMSModule × List Output) :=
  match lookupAction module.rules body.ruleId with
  | none => none
  | some action =>
      if action.key = actionTitle then
        let text := Module.replaceVars (action.configuration.getD "body".toList []) vars
        let (count, outputs) :=
          sendAll curl module.settings text module.count (receivers action vars)
        some (0, { module with count := count }, outputs)
      else
        some (0, module, [])

/-- The text logged when an action was received. -/
def receivedText (body : ActionBody) : Str :=
  "SMS Module rceived action message with EVENT_ID: ".toList ++ toDecimal body.eventId.toNat ++
    " and RULE_ID: ".toList ++ toDecimal body.ruleId

def acknowledgedText (id : EventID) : Str :=
  "Acknowledgement sent with event id: ".toList ++ toDecimal id.toNat

/-- One round of the message loop after its first heartbeat, with the message
received.  `none` stands for the end of the process. -/
def handleMessage (module : SMSModule) (message : Message) :
    Option SMSModule × List Output :=
  let beat : Output := .sent (MessageHandler.sendHeartbeat moduleName)
  match message with
  | .msgActio body =>
      match takeAction curl module body (MessageHandler.receivedVars message) with
      | none => (none, [beat, log .debug (receivedText body)])
      | some (result, module, outputs) =>
          let acknowledged : List Output :=
            if result ≠ 0 then
              [.sent (MessageHandler.acknowledgeEvent body.eventId),
                log .debug (acknowledgedText body.eventId)]
            else
              []
          (some module, [beat, log .debug (receivedText body)] ++ outputs ++ acknowledged)
  | message => (some module,
      [beat, log .warning ("Received messege of type: ".toList ++
        toDecimal (typeNumber message.type) ++ ". This is not an action message.".toList)])

/-! ## No acknowledgement -/

/-- The messages the module puts into the queue of the core. -/
def Output.message? : Output → Option Message
  | .sent message => some message
  | .request _ _ _ => none

/-- A heartbeat, a heartbeat interval or a log message. -/
def IsReport (message : Message) : Prop :=
  message.type = .msgHbeat ∨ message.type = .msgHbint ∨ message.type = .msgLog

/-- The module puts only reports into the queue of the core. -/
def Silent (outputs : List Output) : Prop :=
  ∀ output ∈ outputs, ∀ message, output.message? = some message → IsReport message

theorem Silent.append {first second : List Output} (firstSilent : Silent first)
    (secondSilent : Silent second) : Silent (first ++ second) := by
  rintro output member
  rcases List.mem_append.mp member with old | new
  · exact firstSilent output old
  · exact secondSilent output new

theorem silent_nil : Silent [] := by
  simp [Silent]

theorem silent_log (severity : LogSeverity) (message : Str) : Silent [log severity message] := by
  simp [Silent, Output.message?, log, MessageHandler.log, IsReport, Message.type]

theorem silent_request (receiver link : Str) (success : Bool) :
    Silent [.request receiver link success] := by
  simp [Silent, Output.message?]

theorem silent_heartbeat : Silent [.sent (MessageHandler.sendHeartbeat moduleName)] := by
  simp [Silent, Output.message?, MessageHandler.sendHeartbeat, IsReport, Message.type]

theorem sendSMS_silent (settings : Settings) (count : Nat) (receiver body : Str) :
    Silent (sendSMS curl settings count receiver body).2 := by
  unfold sendSMS
  split
  · split
    · dsimp only
      split
      · exact silent_request _ _ _
      · exact (silent_request _ _ _).append (silent_log _ _)
    · exact silent_nil
  · exact silent_log _ _

theorem sendAll_silent (settings : Settings) (body : Str) (count : Nat)
    (left : List Str) : Silent (sendAll curl settings body count left).2 := by
  induction left generalizing count with
  | nil => exact silent_nil
  | cons receiver left ih =>
      exact (sendSMS_silent curl settings count receiver body).append (ih (count + 1))

/-- `takeAction` always returns zero, although its header promises one for a
text message that was sent. -/
theorem takeAction_zero {module next : SMSModule} {body : ActionBody} {vars : StrMap}
    {result : Int} {outputs : List Output}
    (taken : takeAction curl module body vars = some (result, next, outputs)) :
    result = 0 ∧ Silent outputs := by
  unfold takeAction at taken
  split at taken
  · cases taken
  · split at taken
    · cases taken
      exact ⟨rfl, sendAll_silent curl _ _ _ _⟩
    · cases taken
      exact ⟨rfl, silent_nil⟩

/-- No message makes the module acknowledge. -/
theorem handleMessage_silent (module : SMSModule) (message : Message) :
    Silent (handleMessage curl module message).2 := by
  unfold handleMessage
  dsimp only
  split
  · split
    · exact silent_heartbeat.append (silent_log _ _)
    · rename_i taken
      obtain ⟨rfl, silent⟩ := takeAction_zero curl taken
      exact ((silent_heartbeat.append (silent_log _ _)).append silent).append silent_nil
  · exact silent_heartbeat.append (silent_log _ _)

end Sentri.Modules.Sms
