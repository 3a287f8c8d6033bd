import Sentri.LibModule.Json
import Sentri.LibModule.MessageHandler
import Sentri.LibModule.Rule
import Sentri.Number.Stod

/-!
# The Firebase module

The Firebase module waits for actions and asks a server to notify the devices that are
registered with its service token.  The token is kept in a file, and a hook file tells the
web tool about it.  The server is a parameter: every answer may depend on how many
requests were sent before.
-/

namespace Sentri.Modules.Firebase

open Sentri.LibModule Sentri.Number Sentri.Text

open Json (Value Object)

def moduleName : Str :=
  "module_firebase".toList

def reqSysRegUri : Str :=
  "/register/system".toList

def reqDevAddUri (token : Str) : Str :=
  "/notify/".toList ++ token

def evtNotifyKey : Str :=
  "notify".toList

def invalidTokenError : Str :=
  "Invalid token".toList

structure Request where
  host : Str
  port : Int
  header : Str
  method : Str
  uri : Str := []
  body : Object := []

/-- What comes of a request. -/
inductive Response where
  /-- `perform` throws. -/
  | unreachable
  /-- An answer, with its body if that is an object. -/
  | answer (statusCode : Int) (body : Option Object)

/-- What the module has to do with outside of the core. -/
structure Environment where
  /-- The answer to the request number `n`. -/
  server : Nat → Request → Response
  /-- Can the token file be opened for writing after `n` requests? -/
  tokenFileOpens : Nat → Bool
  hookWrites : Bool
  /-- What a failed write leaves in the hook file. -/
  hookLeft : Option Str

/-- What the module does to the outside, next to its two files. -/
inductive Output where
  | request (request : Request)
  /-- A message put into the queue of the core. -/
  | sent (message : Message)

/-- The module process between two messages, and its files. -/
structure FirebaseModule where
  config : StrMap
  rules : List RuleInfo
  /-- Service token. -/
  token : Str
  /-- The content of the token file, if it can be read. -/
  tokenFile : Option Str
  /-- The content of the hook file. -/
  hook : Option Str
  /-- Requests sent so far. -/
  requests : Nat

/-- How a call ends: it returns, throws, or ends the process. -/
inductive Outcome (α : Type) where
  | returned (value : α)
  | thrown
  | exited

variable (environment : Environment)

def log (severity : LogSeverity) (message : Str) : Output :=
  .sent (MessageHandler.log moduleName severity message)

def systemMessage (message : Str) : Output :=
  .sent (ModuleLogger.systemMessage message)

/-! ## Files -/

/-- The first line of the token file, or nothing. -/
def readToken (tokenFile : Option Str) : Str :=
  match tokenFile with
  | some content => content.takeWhile (· ≠ '\n')
  | none => []

def writeToken (module : FirebaseModule) : FirebaseModule × List Output :=
  if environment.tokenFileOpens module.requests then
    ({ module with tokenFile := some (module.token ++ ['\n']) }, [])
  else
    (module, [log .error "Could not write token file".toList])

/-- The text of the hook file for a token. -/
def hookData (token : Str) : Str :=
  "\x7b \"token\": \"".toList ++ token ++ "\" \x7d\n".toList

def writeHook (module : FirebaseModule) (data : Str) : FirebaseModule × List Output :=
  if environment.hookWrites then
    ({ module with hook := some data }, [])
  else
    ({ module with hook := environment.hookLeft },
      [log .warning "Couldn't write hook!".toList])

/-! ## Requests -/

/-- `std::stoi`: a decimal number after blanks and a sign, if it is an `int`; else it
throws. -/
def stoi (text : Str) : Option Int :=
  let (sign, rest) := readSign (text.dropWhile isSpace)
  let digits := rest.takeWhile (isDigitOf 10)
  let value := sign * ofDigits 10 digits
  if digits = [] ∨ value < -2147483648 ∨ 2147483647 < value then none else some value

def createRequest (config : StrMap) : Option Request :=
  (stoi (config.getD "port".toList [])).map fun port => {
    host := config.getD "server".toList []
    port := port
    header := "Content-Type: application/json".toList
    method := "POST".toList }

/-- The request for a new token. -/
def registration (config : StrMap) : Option Request :=
  (createRequest config).map fun request => { request with uri := reqSysRegUri }

/-- The request to notify the devices that are registered with a token. -/
def notification (config : StrMap) (token title message : Str) (useStream : Bool) :
    Option Request :=
  (createRequest config).map fun request => { request with
    uri := reqDevAddUri token
    body := [("title".toList, .string title), ("message".toList, .string message),
      ("useStream".toList, .boolean useStream)] }

def unreachableText : Str :=
  "Couldn't request token, server unreachable!".toList

def checkConnectionText : Str :=
  ("firebase module was unable to request a service token! ".toList ++
    "Check your device's internet connection and".toList ++
    " check the module configuration.".toList)

/-- Request a new token and save it.  Without one the token is empty. -/
def requestToken (module : FirebaseModule) : Outcome Unit × FirebaseModule × List Output :=
  let cleared := { module with token := [] }
  let started := log .info "Request new service token".toList
  match registration module.config with
  | none => (.thrown, cleared, [started])
  | some request =>
      let asked := { cleared with requests := cleared.requests + 1 }
      match environment.server cleared.requests request with
      | .unreachable => (.exited, asked,
          [started, .request request, log .fatal unreachableText,
            systemMessage checkConnectionText])
      | .answer statusCode body =>
          if statusCode = 200 then
            match body.bind fun parser => parser.find Value.string? "token".toList with
            | some token =>
                let (written, outputs) := writeToken environment { asked with token := token }
                (.returned (), written, [started, .request request] ++ outputs)
            | none => (.returned (), asked, [started, .request request])
          else
            (.returned (), asked,
              [started, .request request, log .error "Request token: Server faulty".toList])

def newTokenText : Str :=
  "Firebase module has an invalid token, a new token was requested.".toList ++
    " You need to reregister your devices to receive notifications on your phone".toList

def couldNotNotifyText : Str :=
  "Couldn't notify, server unreachable!".toList

/-- Send a push notification.  With an invalid token a new one is requested. -/
def notify (module : FirebaseModule) (title message : Str) (useStream : Bool) :
    Outcome Bool × FirebaseModule × List Output :=
  match notification module.config module.token title message useStream with
  | none => (.thrown, module, [])
  | some request =>
      let asked := { module with requests := module.requests + 1 }
      match environment.server module.requests request with
      | .unreachable =>
          (.returned false, asked, [.request request, log .error couldNotNotifyText])
      | .answer statusCode body =>
          if statusCode = 200 then
            match body with
            | none => (.returned false, asked, [.request request])
            | some parser =>
                match parser.find Value.boolean? "success".toList with
                | none => (.returned false, asked, [.request request])
                | some true => (.returned true, asked, [.request request])
                | some false =>
                    match parser.find Value.string? "error".toList with
                    | none => (.returned false, asked,
                        [.request request, log .warning "Notify: Unknown error".toList])
                    | some error =>
                        let warned := [.request request,
                          log .warning ("Notify: ".toList ++ error)]
                        if error = invalidTokenError then
                          let told := warned ++ [systemMessage newTokenText]
                          match requestToken environment asked with
                          | (.returned _, renewed, outputs) =>
                              (.returned false, renewed, told ++ outputs)
                          | (.thrown, renewed, outputs) => (.returned false, renewed,
                              told ++ outputs ++ [log .error couldNotNotifyText])
                          | (.exited, renewed, outputs) =>
                              (.exited, renewed, told ++ outputs)
                        else
                          (.returned false, asked, warned)
          else
            (.returned false, asked,
              [.request request, log .error "Notify: Server faulty".toList])

/-! ## The module -/

/-- The constructor.  `none` stands for the end of the process. -/
def FirebaseModule.new (config : StrMap) (rules : List RuleInfo) (tokenFile hook : Option Str) :
    Option FirebaseModule × List Output :=
  let module : FirebaseModule :=
    { config := config, rules := rules, token := [], tokenFile := tokenFile, hook := hook,
      requests := 0 }
  let token := readToken tokenFile
  if token ≠ [] then
    let (module, outputs) :=
      writeHook environment { module with token := token } (hookData token)
    (some module, outputs)
  else
    match requestToken environment module with
    | (.returned _, module, first) =>
        let (module, outputs) := writeHook environment module (hookData module.token)
        (some module, first ++ outputs)
    | (_, _, outputs) => (none, outputs)

def noActionText (ruleId : RuleID) : Str :=
  "For action message with RULE_ID: ".toList ++ toDecimal ruleId ++
    " was no action found in rules".toList

def invalidActionText (action : ActionInfo) (ruleId : RuleID) : Str :=
  "Invalid action ".toList ++ action.key ++ "for RULE_ID: ".toList ++ toDecimal ruleId

def titleOf (action : ActionInfo) (vars : StrMap) : Str :=
  Module.replaceVars (action.configuration.getD "title".toList []) vars

def messageOf (action : ActionInfo) (vars : StrMap) : Str :=
  Module.replaceVars (action.configuration.getD "message".toList []) vars

def useStreamOf (action : ActionInfo) : Bool :=
  action.configuration.getD "useStream".toList [] = "true".toList

/-- React to an action. -/
def takeAction (module : FirebaseModule) (body : ActionBody) (vars : StrMap) :
    Option FirebaseModule × List Output :=
  match lookupAction module.rules body.ruleId with
  | none => (some module, [log .error (noActionText body.ruleId)])
  | some action =>
      if action.key = evtNotifyKey then
        match notify environment module (titleOf action vars) (messageOf action vars)
            (useStreamOf action) with
        | (.returned true, module, outputs) =>
            (some module, outputs ++ [.sent (MessageHandler.acknowledgeEvent body.eventId)])
        | (.returned false, module, outputs) => (some module, outputs)
        | (_, _, outputs) => (none, outputs)
      else
        (some module, [log .error (invalidActionText action body.ruleId)])

/-- The text logged when an action was received. -/
def receivedText (body : ActionBody) : Str :=
  "Received action message with EVENT_ID: ".toList ++ toDecimal body.eventId.toNat ++
    " and RULE_ID: ".toList ++ toDecimal body.ruleId

/-- One round of the message loop, with the message received.  `none` stands for the end
of the process. -/
def handleMessage (module : FirebaseModule) (message : Message) :
    Option FirebaseModule × List Output :=
  let beat : Output := .sent (MessageHandler.sendHeartbeat moduleName)
  match message with
  | .msgActio body =>
      let (next, outputs) :=
        takeAction environment module body (MessageHandler.receivedVars message)
      (next, [beat, log .debug (receivedText body)] ++ outputs)
  | _ => (some module, [beat])

end Sentri.Modules.Firebase
