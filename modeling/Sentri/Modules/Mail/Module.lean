import Sentri.LibModule.MessageHandler
import Sentri.LibModule.Rule

/-!
# The mail module

The mail module waits for actions and sends a mail to the receivers of an action,
with the files that the variables of its event name.  The mail library is a
parameter: every answer may depend on how many mails were sent before.
-/

namespace Sentri.Modules.Mail

open Sentri.LibModule Sentri.Text

def moduleName : Str :=
  "module_mail".toList

/-- The key of the only action of the module. -/
def actionTitle : Str :=
  "send".toList

structure SMTPSettings where
  fromAddress : Str
  server : Str
  port : UInt32
  user : Str
  pass : Str

/-- What is handed to `sendMail`. -/
structure Outgoing where
  receivers : List Str
  subject : Str
  body : Str
  attachments : List Str
  deriving DecidableEq

/-- The mail as the library sees it: every text ends at its first NUL. -/
def Outgoing.cStrings (outgoing : Outgoing) : Outgoing where
  receivers := outgoing.receivers.map cStr
  subject := cStr outgoing.subject
  body := cStr outgoing.body
  attachments := outgoing.attachments.map cStr

/-- The mail library: the error, if any, of sending the mail number `n`. -/
abbrev Quickmail :=
  Nat → SMTPSettings → Outgoing → Option Str

/-- What the module does to the outside. -/
inductive Output where
  | mail (outgoing : Outgoing) (success : Bool)
  /-- A message put into the queue of the core. -/
  | sent (message : Message)

/-- The module process between two messages. -/
structure MailModule where
  settings : SMTPSettings
  rules : List RuleInfo
  /-- Mails sent so far. -/
  count : Nat

variable (quickmail : Quickmail)

def log (severity : LogSeverity) (message : Str) : Output :=
  .sent (MessageHandler.log moduleName severity message)

def sendMail (settings : SMTPSettings) (count : Nat) (outgoing : Outgoing) :
    Int × List Output :=
  match quickmail count settings outgoing.cStrings with
  | some errmsg =>
      (0, [.mail outgoing false, log .error ("Error sendin email: ".toList ++ errmsg)])
  | none => (1, [.mail outgoing true])

/-- `boost::replace_all`, which does not find an empty string anywhere. -/
def replaceKey (text key value : Str) : Str :=
  if key = [] then text else replaceAll text key value

/-- Replace every key in the whole text, one after the other. -/
def replaceKeys (entries : List (Str × Str)) (text : Str) : Str :=
  entries.foldl (fun text entry => replaceKey text entry.1 entry.2) text

def attachments (action : ActionInfo) (vars : StrMap) : List Str :=
  (replaceKeys vars.toList (action.configuration.getD "attachments".toList [])).splitOn ','

/-- The receivers of an action: its setting `to`, split at commas and blanks. -/
def receivers (action : ActionInfo) : List Str :=
  (action.configuration.getD "to".toList []).splitOnP fun c => c = ',' || c = ' '

/-- The mail for an action and the variables of its event. -/
def mailOf (action : ActionInfo) (vars : StrMap) : Outgoing where
  receivers := receivers action
  subject := Module.replaceVars (action.configuration.getD "subject".toList []) vars
  body := Module.replaceVars (action.configuration.getD "body".toList []) vars
  attachments := attachments action vars

def noActionText (ruleId : RuleID) : Str :=
  "For action message with RULE_ID: ".toList ++ toDecimal ruleId ++
    " was no action found in rules".toList

def otherKeyText (ruleId : RuleID) : Str :=
  "For action message with RULE_ID: ".toList ++ toDecimal ruleId ++
    " exists no action with this key".toList

/-- React to an action. -/
def takeAction (module : MailModule) (body : ActionBody) (vars : StrMap) :
    Int × MailModule × List Output :=
  match lookupAction module.rules body.ruleId with
  | none => (0, module, [log .error (noActionText body.ruleId)])
  | some action =>
      if action.key = actionTitle then
        let (result, outputs) :=
          sendMail quickmail module.settings module.count (mailOf action vars)
        (result, { module with count := module.count + 1 }, outputs)
      else
        (0, module, [log .error (otherKeyText body.ruleId)])

/-- The text logged when an action was received. -/
def receivedText (body : ActionBody) : Str :=
  "Received action message with EVENT_ID: ".toList ++ toDecimal body.eventId.toNat ++
    " and RULE_ID: ".toList ++ toDecimal body.ruleId

def acknowledgedText (id : EventID) : Str :=
  "Acknowledgement sent with event id: ".toList ++ toDecimal id.toNat

/-- One round of the message loop after its first heartbeat, with the message
received. -/
def handleMessage (module : MailModule) (message : Message) : MailModule × List Output :=
  let beat : Output := .sent (MessageHandler.sendHeartbeat moduleName)
  match message with
  | .msgActio body =>
      let (result, next, outputs) :=
        takeAction quickmail module body (MessageHandler.receivedVars message)
      let acknowledged : List Output :=
        if result ≠ 0 then
          [.sent (MessageHandler.acknowledgeEvent body.eventId),
            log .debug (acknowledgedText body.eventId)]
        else
          []
      (next, [beat, log .debug (receivedText body)] ++ outputs ++ acknowledged)
  | message => (module,
      [beat, log .warning ("Received messege of type: ".toList ++
        toDecimal (typeNumber message.type) ++ ". This is not an action message.".toList)])

/-! ## Acknowledgements -/

/-- The messages the module puts into the queue of the core. -/
def Output.message? : Output → Option Message
  | .sent message => some message
  | .mail _ _ => none

/-- The module acknowledges the action of an event. -/
def Acknowledges (id : EventID) (outputs : List Output) : Prop :=
  .msgAckac id ∈ outputs.filterMap Output.message?

theorem acknowledges_append {id : EventID} {first second : List Output} :
    Acknowledges id (first ++ second) ↔ Acknowledges id first ∨ Acknowledges id second := by
  simp [Acknowledges]

theorem acknowledges_cons {id : EventID} {first second : Output} {rest : List Output} :
    Acknowledges id (first :: second :: rest) ↔
      Acknowledges id [first] ∨ Acknowledges id (second :: rest) :=
  @acknowledges_append id [first] (second :: rest)

/-- The mail for an action is sent without an error. -/
def Delivers (module : MailModule) (body : ActionBody) (vars : StrMap) : Prop :=
  ∃ action, lookupAction module.rules body.ruleId = some action ∧ action.key = actionTitle ∧
    quickmail module.count module.settings (mailOf action vars).cStrings = none

/-- `takeAction` returns one for a mail that was sent, else zero, and acknowledges
nothing itself. -/
theorem takeAction_result (module : MailModule) (body : ActionBody) (vars : StrMap) :
    ((takeAction quickmail module body vars).1 ≠ 0 ↔ Delivers quickmail module body vars) ∧
      ∀ id, ¬ Acknowledges id (takeAction quickmail module body vars).2.2 := by
  cases found : lookupAction module.rules body.ruleId with
  | none =>
      simp [takeAction, found, Delivers, Acknowledges, Output.message?, log, MessageHandler.log]
  | some action =>
      by_cases own : action.key = actionTitle
      · cases answer : quickmail module.count module.settings (mailOf action vars).cStrings <;>
          simp [takeAction, sendMail, found, own, answer, Delivers, Acknowledges,
            Output.message?, log, MessageHandler.log]
      · simp [takeAction, found, own, Delivers, Acknowledges, Output.message?, log,
          MessageHandler.log]

/-- An action is acknowledged if and only if its mail was sent. -/
theorem handleMessage_acknowledges_iff (module : MailModule) (message : Message) (id : EventID) :
    Acknowledges id (handleMessage quickmail module message).2 ↔
      ∃ body, message = .msgActio body ∧ body.eventId = id ∧
        Delivers quickmail module body (MessageHandler.receivedVars message) := by
  have reports : ∀ severity text, ¬ Acknowledges id [log severity text] := by
    simp [Acknowledges, Output.message?, log, MessageHandler.log]
  have beat : ¬ Acknowledges id [.sent (MessageHandler.sendHeartbeat moduleName)] := by
    simp [Acknowledges, Output.message?, MessageHandler.sendHeartbeat]
  cases message with
  | msgActio body =>
      rcases takeAction_result quickmail module body
        (MessageHandler.receivedVars (.msgActio body)) with ⟨result, silent⟩
      simp only [handleMessage, acknowledges_append, acknowledges_cons, Message.msgActio.injEq,
        beat, reports, silent id, false_or]
      rw [exists_eq_left', ← result]
      split
      · next sent =>
          simp [sent, Acknowledges, Output.message?, MessageHandler.acknowledgeEvent, log,
            MessageHandler.log, eq_comm]
      · next failed => simp [failed, Acknowledges]
  | _ =>
      simp only [handleMessage, acknowledges_cons, beat, reports]
      simp

end Sentri.Modules.Mail
