import Sentri.Core.RuleEngine.Variables
import Sentri.Modules.Firebase.Module
import Sentri.Modules.Mail.Module
import Sentri.Modules.Protocol
import Sentri.Modules.Sms.Module

/-!
# The action modules

The mail module, the SMS module and the Firebase module, side by side with the rule engine.
Each acknowledges an event only after it has done what the event asks for, so that an event
module that hears of an acknowledgement can rely on it.
-/

namespace Sentri.Modules

open Sentri.Core Sentri.LibModule Sentri.Text Sentri.Transition

/-! ## The mail module -/

namespace Mail

variable (quickmail : Quickmail)

/-- What the module does before it acknowledges, and the acknowledgement of a mail that was
sent. -/
theorem handleMessage_parts (module : MailModule) (message : Message) :
    ∃ first rest : List Output, (handleMessage quickmail module message).2 = first ++ rest ∧
      (∀ output ∈ first, ∀ id, output.message? ≠ some (.msgAckac id)) ∧
      ∀ output ∈ rest, ∀ id, output.message? = some (.msgAckac id) →
        ∃ body, message = .msgActio body ∧ body.eventId = id ∧
          ∃ outgoing, .mail outgoing true ∈ first := by
  have reports : ∀ severity text, ∀ output ∈ [Output.sent
      (MessageHandler.sendHeartbeat moduleName), log severity text],
      ∀ id, output.message? ≠ some (.msgAckac id) := by
    rintro severity text output member id isAck
    rcases List.mem_cons.mp member with rfl | last
    · cases isAck
    · rw [List.mem_singleton.mp last] at isAck
      cases isAck
  cases message with
  | msgActio body =>
      let vars := MessageHandler.receivedVars (.msgActio body)
      rcases takeAction_result quickmail module body vars with ⟨result, silent⟩
      have quiet : ∀ output ∈ [.sent (MessageHandler.sendHeartbeat moduleName),
          log .debug (receivedText body)] ++ (takeAction quickmail module body vars).2.2,
          ∀ id, output.message? ≠ some (.msgAckac id) := by
        rintro output member id isAck
        rcases List.mem_append.mp member with report | own
        · exact reports _ _ output report id isAck
        · exact silent id (List.mem_filterMap.mpr ⟨output, own, isAck⟩)
      by_cases success : (takeAction quickmail module body vars).1 ≠ 0
      · refine ⟨_, [.sent (MessageHandler.acknowledgeEvent body.eventId),
          log .debug (acknowledgedText body.eventId)], ?_, quiet, ?_⟩
        · simp only [handleMessage]
          rw [if_pos success]
        · rintro output member id isAck
          rcases result.mp success with ⟨action, found, isKey, delivered⟩
          rcases List.mem_cons.mp member with rfl | last
          · cases isAck
            refine ⟨body, rfl, rfl, mailOf action vars, ?_⟩
            apply List.mem_append_right
            simp [takeAction, sendMail, found, isKey, delivered]
          · rw [List.mem_singleton.mp last] at isAck
            cases isAck
      · refine ⟨_, [], ?_, quiet, by simp⟩
        simp only [handleMessage]
        rw [if_neg success]
  | msgEvent | msgHbeat | msgHbint | msgAckac | msgLog | msgSys | msgEvabt | msgAckev =>
      exact ⟨_, [], (List.append_nil _).symm, reports _ _, by simp⟩

/-- The mail module, whose action is completed when the library has sent the mail. -/
def mailAgent : Agent where
  State := MailModule
  Output := Output
  name := moduleName
  react module message :=
    let (next, outputs) := handleMessage quickmail module message
    (some next, outputs)
  message? := Output.message?
  completes
    | .mail _ success => success
    | .sent _ => false

theorem mailAgent_honest : (mailAgent quickmail).Honest := by
  apply Agent.honest_of_parts
  rintro module message
  rcases handleMessage_parts quickmail module message with ⟨first, rest, whole, quiet, answers⟩
  refine ⟨first, rest, whole, quiet, ?_⟩
  rintro output member id isAck
  rcases answers output member id isAck with ⟨body, isAction, same, outgoing, sent⟩
  exact ⟨body, isAction, same, .mail outgoing true, sent, rfl⟩

end Mail

/-! ## The SMS module -/

namespace Sms

variable (curl : Curl)

/-- The SMS module, whose action is completed with every text message. -/
def smsAgent : Agent where
  State := SMSModule
  Output := Output
  name := moduleName
  react := handleMessage curl
  message? := Output.message?
  completes
    | .request _ _ success => success
    | .sent _ => false

theorem smsAgent_mute : (smsAgent curl).Mute := by
  rintro module message output member id isAck
  have report := handleMessage_silent curl module message output member _ isAck
  simp [IsReport, Message.type] at report

theorem smsAgent_honest : (smsAgent curl).Honest :=
  (smsAgent_mute curl).honest

end Sms

/-! ## The Firebase module -/

namespace Firebase

variable (environment : Environment)

/-- The messages the module puts into the queue of the core. -/
def Output.message? : Output → Option Message
  | .sent message => some message
  | .request _ => none

/-- The answer to a notification that the devices were notified. -/
def Response.confirms : Response → Bool
  | .answer statusCode (some parser) =>
      statusCode = 200 && parser.find Json.Value.boolean? "success".toList = some true
  | _ => false

/-- The outputs of the module after `n` requests, each with whether it is a notification
that the server confirms. -/
def confirmed : Nat → List Output → List (Output × Bool)
  | _, [] => []
  | n, .request request :: left =>
      (.request request, request.uri ≠ reqSysRegUri && (environment.server n request).confirms) ::
        confirmed (n + 1) left
  | n, .sent message :: left => (.sent message, false) :: confirmed n left

/-- The Firebase module, whose action is completed when the server confirms it. -/
def firebaseAgent : Agent where
  State := FirebaseModule
  Output := Output × Bool
  name := moduleName
  react module message :=
    let (next, outputs) := handleMessage environment module message
    (next, confirmed environment module.requests outputs)
  message? output := output.1.message?
  completes := Prod.snd

theorem of_mem_confirmed {n : Nat} {outputs : List Output} {output : Output × Bool}
    (member : output ∈ confirmed environment n outputs) : output.1 ∈ outputs := by
  induction outputs generalizing n with
  | nil => cases member
  | cons head left ih =>
      cases head with
      | request request =>
          rcases List.mem_cons.mp member with rfl | rest
          · exact List.mem_cons_self
          · exact List.mem_cons_of_mem _ (ih rest)
      | sent message =>
          rcases List.mem_cons.mp member with rfl | rest
          · exact List.mem_cons_self
          · exact List.mem_cons_of_mem _ (ih rest)

/-- None of the outputs acknowledges an event. -/
def Quiet (outputs : List Output) : Prop :=
  ∀ output ∈ outputs, ∀ id, output.message? ≠ some (.msgAckac id)

theorem Quiet.append {first second : List Output} (firstQuiet : Quiet first)
    (secondQuiet : Quiet second) : Quiet (first ++ second) := by
  rintro output member
  rcases List.mem_append.mp member with old | new
  · exact firstQuiet output old
  · exact secondQuiet output new

theorem requestToken_quiet (module : FirebaseModule) :
    Quiet (requestToken environment module).2.2 := by
  unfold requestToken
  dsimp only
  split
  · simp [Quiet, Output.message?, log, MessageHandler.log]
  · split
    · simp [Quiet, Output.message?, log, MessageHandler.log, systemMessage,
        ModuleLogger.systemMessage]
    · split
      · split
        · dsimp only
          apply Quiet.append
          · simp [Quiet, Output.message?, log, MessageHandler.log]
          · unfold writeToken
            split
            · simp [Quiet]
            · simp [Quiet, Output.message?, log, MessageHandler.log]
        · simp [Quiet, Output.message?, log, MessageHandler.log]
      · simp [Quiet, Output.message?, log, MessageHandler.log]

theorem notify_quiet (module : FirebaseModule) (title message : Str) (useStream : Bool) :
    Quiet (notify environment module title message useStream).2.2 := by
  have plain : ∀ (request : Request) (severity : LogSeverity) (text : Str),
      Quiet [.request request, log severity text] := by
    simp [Quiet, Output.message?, log, MessageHandler.log]
  have alone : ∀ request : Request, Quiet [.request request] := by
    simp [Quiet, Output.message?]
  unfold notify
  dsimp only
  split
  · simp [Quiet]
  · split
    · exact plain _ _ _
    · split
      · split
        · exact alone _
        · split
          · exact alone _
          · exact alone _
          · split
            · exact plain _ _ _
            · split
              · have told : ∀ request text, Quiet ([.request request, log .warning text] ++
                    [systemMessage newTokenText]) := by
                  rintro request text
                  apply (plain request _ text).append
                  simp [Quiet, Output.message?, systemMessage, ModuleLogger.systemMessage]
                have renewed := requestToken_quiet environment
                  { module with requests := module.requests + 1 }
                split
                · rename_i equal
                  rw [equal] at renewed
                  exact (told _ _).append renewed
                · rename_i equal
                  rw [equal] at renewed
                  apply ((told _ _).append renewed).append
                  simp [Quiet, Output.message?, log, MessageHandler.log]
                · rename_i equal
                  rw [equal] at renewed
                  exact (told _ _).append renewed
              · exact plain _ _ _
      · exact plain _ _ _

/-- A notification is a success only if the server confirms it. -/
theorem confirms_of_notify {module next : FirebaseModule} {title message : Str}
    {useStream : Bool} {outputs : List Output}
    (success : notify environment module title message useStream =
      (.returned true, next, outputs)) :
    ∃ request, notification module.config module.token title message useStream = some request ∧
      outputs = [.request request] ∧
        (environment.server module.requests request).confirms = true := by
  unfold notify at success
  split at success
  · cases success
  · rename_i request sent
    dsimp only at success
    split at success
    · cases success
    · rename_i statusCode body answer
      split at success
      · rename_i isOk
        split at success
        · cases success
        · rename_i parser
          split at success
          · cases success
          · rename_i confirmed
            cases success
            refine ⟨request, sent, rfl, ?_⟩
            rw [answer]
            simp only [Response.confirms, isOk, confirmed, decide_true, Bool.and_self]
          · split at success
            · cases success
            · split at success
              · split at success
                · cases success
                · cases success
                · cases success
              · cases success
      · cases success

/-- What the module does before it acknowledges, and the acknowledgement of a notification
that the server confirmed. -/
theorem handleMessage_parts (module : FirebaseModule) (message : Message) :
    (Quiet (handleMessage environment module message).2) ∨
      ∃ body request, message = .msgActio body ∧
        request.uri = reqDevAddUri module.token ∧
        (environment.server module.requests request).confirms = true ∧
        (handleMessage environment module message).2 =
          [.sent (MessageHandler.sendHeartbeat moduleName), log .debug (receivedText body),
            .request request, .sent (MessageHandler.acknowledgeEvent body.eventId)] := by
  have beat : Quiet [.sent (MessageHandler.sendHeartbeat moduleName)] := by
    simp [Quiet, Output.message?, MessageHandler.sendHeartbeat]
  have report : ∀ severity text, Quiet [log severity text] := by
    simp [Quiet, Output.message?, log, MessageHandler.log]
  cases message with
  | msgActio body =>
      let vars := MessageHandler.receivedVars (.msgActio body)
      have begun := beat.append (report .debug (receivedText body))
      simp only [handleMessage, takeAction]
      cases found : lookupAction module.rules body.ruleId with
      | none => exact Or.inl (begun.append (report .error _))
      | some action =>
          by_cases isKey : action.key = evtNotifyKey
          · have quiet := notify_quiet environment module (titleOf action vars)
              (messageOf action vars) (useStreamOf action)
            simp only [isKey, if_true]
            cases notified : notify environment module (titleOf action vars)
              (messageOf action vars) (useStreamOf action) with
            | mk outcome rest =>
                rcases rest with ⟨next, outputs⟩
                rw [notified] at quiet
                cases outcome with
                | returned success =>
                    cases success with
                    | true =>
                        rcases confirms_of_notify environment notified with
                          ⟨request, sent, rfl, confirms⟩
                        refine Or.inr ⟨body, request, rfl, ?_, confirms, rfl⟩
                        rcases Option.map_eq_some_iff.mp sent with ⟨created, _, rfl⟩
                        rfl
                    | false => exact Or.inl (begun.append quiet)
                | thrown => exact Or.inl (begun.append quiet)
                | exited => exact Or.inl (begun.append quiet)
          · simp only [isKey, if_false]
            exact Or.inl (begun.append (report .error _))
  | msgEvent | msgHbeat | msgHbint | msgAckac | msgLog | msgSys | msgEvabt | msgAckev =>
      exact Or.inl beat

omit environment in
/-- The two addresses differ in their second letter. -/
theorem reqDevAddUri_ne (token : Str) : reqDevAddUri token ≠ reqSysRegUri := by
  have notify : "/notify/".toList[1]? = some 'n' := by decide +kernel
  have register : reqSysRegUri[1]? = some 'r' := by decide +kernel
  have long : 1 < "/notify/".toList.length := by decide +kernel
  have added : (reqDevAddUri token)[1]? = some 'n' :=
    (List.getElem?_append_left long).trans notify
  intro same
  have equal : some 'n' = some 'r' := added.symm.trans ((congrArg (·[1]?) same).trans register)
  exact absurd equal (by decide)

theorem confirmed_parts (module : FirebaseModule) (message : Message) :
    ∃ first rest : List (Output × Bool),
      confirmed environment module.requests (handleMessage environment module message).2 =
        first ++ rest ∧
      (∀ output ∈ first, ∀ id, output.1.message? ≠ some (.msgAckac id)) ∧
      ∀ output ∈ rest, ∀ id, output.1.message? = some (.msgAckac id) →
        ∃ body, message = .msgActio body ∧ body.eventId = id ∧
          ∃ request, (.request request, true) ∈ first := by
  rcases handleMessage_parts environment module message with
    quiet | ⟨body, request, rfl, uri, confirms, whole⟩
  · refine ⟨_, [], (List.append_nil _).symm, ?_, by simp⟩
    rintro output member
    exact quiet output.1 (of_mem_confirmed environment member)
  · have other : request.uri ≠ reqSysRegUri := by
      rw [uri]
      exact reqDevAddUri_ne module.token
    refine ⟨[(.sent (MessageHandler.sendHeartbeat moduleName), false),
      (log .debug (receivedText body), false), (.request request, true)],
      [(.sent (MessageHandler.acknowledgeEvent body.eventId), false)], ?_, ?_, ?_⟩
    · rw [whole]
      simp [confirmed, other, confirms, log]
    · rintro output member id isAck
      simp only [List.mem_cons, List.not_mem_nil, or_false] at member
      rcases member with rfl | rfl | rfl
      · cases isAck
      · cases isAck
      · cases isAck
    · rintro output member id isAck
      rw [List.mem_singleton.mp member] at isAck
      cases isAck
      exact ⟨body, rfl, rfl, request, by simp⟩

theorem firebaseAgent_honest : (firebaseAgent environment).Honest := by
  apply Agent.honest_of_parts
  rintro module message
  rcases confirmed_parts environment module message with ⟨first, rest, whole, quiet, answers⟩
  refine ⟨first, rest, whole, quiet, ?_⟩
  rintro output member id isAck
  rcases answers output member id isAck with ⟨body, isAction, same, request, sent⟩
  exact ⟨body, isAction, same, (.request request, true), sent, rfl⟩

end Firebase

/-! ## All of them -/

/-- The action modules of the repository. -/
inductive ActionModule where
  | mail
  | sms
  | firebase
  deriving DecidableEq

section All

variable (quickmail : Mail.Quickmail) (curl : Sms.Curl) (environment : Firebase.Environment)

def actionModules : ActionModule → Agent
  | .mail => Mail.mailAgent quickmail
  | .sms => Sms.smsAgent curl
  | .firebase => Firebase.firebaseAgent environment

theorem actionModules_honest : ∀ i, (actionModules quickmail curl environment i).Honest := by
  intro i
  cases i with
  | mail => exact Mail.mailAgent_honest quickmail
  | sms => exact Sms.smsAgent_honest curl
  | firebase => exact Firebase.firebaseAgent_honest environment

/-- An event module that is told of an acknowledgement can rely on it: the mail for the
event has been sent, or the server has confirmed the notification, by the module that the
action was handed out for.  Messages may be lost, and modules killed, at any time.  As long
as the ids of accepted events do not wrap, an id belongs to one event. -/
theorem acknowledged_events_done (rules : List RuleInfo) (clock : SteadyClock)
    (ops : List (Office.Op (actionModules quickmail curl environment)))
    (few : (RuleEngine.firstActions (engineTrace ((office (actionModules quickmail curl
      environment) rules clock).run ops).trace)).length < 2 ^ 64)
    (item : RuleEngine.Op × Handed)
    (member : item ∈ engineTrace ((office (actionModules quickmail curl environment) rules
      clock).run ops).trace)
    (isAnswer : item.2.delivery.message.type = .msgAckev) :
    ∃ i body output op, i ≠ .sms ∧
      (op, Office.Event.output i (.msgActio body) output) ∈
        ((office (actionModules quickmail curl environment) rules clock).run ops).trace ∧
      (actionModules quickmail curl environment i).completes output = true ∧
      ∃ sent ∈ engineTrace ((office (actionModules quickmail curl environment) rules
          clock).run ops).trace,
        sent.2.call = item.2.call ∧
          sent.2.delivery =
            ⟨(actionModules quickmail curl environment i).name, .msgActio body⟩ := by
  rcases acknowledged_completed _ (actionModules_honest quickmail curl environment) rules clock
    ops few item member isAnswer with ⟨i, body, output, op, answers, rest⟩
  have notSms : i ≠ .sms := by
    rintro rfl
    exact answers (Sms.smsAgent_mute curl)
  exact ⟨i, body, output, op, notSms, rest⟩

/-- The action modules with libraries that never fail and a server out of reach. -/
def withoutServer : ActionModule → Agent :=
  actionModules (fun _ _ _ => none)
    { init := fun _ => true
      escape := fun _ text => some text
      perform := fun _ _ => .ok () }
    { server := fun _ _ => .unreachable
      tokenFileOpens := fun _ => true
      hookWrites := true
      hookLeft := none }

/-- A mail module that is started, and an event that it mails and acknowledges. -/
def mailActs : List (Office.Act withoutServer) :=
  [.spawnModule .mail ⟨⟨[], [], 25, [], []⟩, [RuleEngine.systemMessageRule], 0⟩,
    .enqueueEvent RuleEngine.motionEvent, .handleMessage .mail none, .readMessage, .readMessage,
    .readMessage, .readMessage]

/-- No message is lost. -/
def mailRun : Run (Office withoutServer) (Office.Op withoutServer) (Office.Event withoutServer) :=
  (office withoutServer [RuleEngine.systemMessageRule] (SteadyClock.ofList 0 [])).run
    (mailActs.map fun act => ⟨act, fun _ => true⟩)

theorem acknowledged_events_done_mail :
    ∃ item ∈ engineTrace mailRun.trace, item.2.delivery.message.type = .msgAckev ∧
      ∃ i body output op, i ≠ .sms ∧
        (op, Office.Event.output i (.msgActio body) output) ∈ mailRun.trace ∧
        (withoutServer i).completes output = true ∧
        ∃ sent ∈ engineTrace mailRun.trace, sent.2.call = item.2.call ∧
          sent.2.delivery = ⟨(withoutServer i).name, .msgActio body⟩ := by
  have answered : ∃ item ∈ engineTrace mailRun.trace,
      item.2.delivery.message.type = .msgAckev := by
    decide +kernel
  rcases answered with ⟨item, member, isAnswer⟩
  exact ⟨item, member, isAnswer, acknowledged_events_done _ _ _ _ _ _ (by decide +kernel) item
    member isAnswer⟩

/-- No event makes a module act more than four times. -/
theorem events_taken_bounded (rules : List RuleInfo) (clock : SteadyClock)
    (ops : List (Office.Op (actionModules quickmail curl environment)))
    (few : (RuleEngine.firstActions (engineTrace ((office (actionModules quickmail curl
      environment) rules clock).run ops).trace)).length < 2 ^ 64)
    (i : ActionModule) (id : EventID) :
    ((received i ((office (actionModules quickmail curl environment) rules clock).run
      ops).trace).filter (isActionFor id)).length ≤ numActionRetries + 1 :=
  taken_bounded _ (actionModules_honest quickmail curl environment) rules clock ops few i id

/-- The mail module takes the event once. -/
theorem events_taken_bounded_mail :
    ((received .mail mailRun.trace).filter (isActionFor 0)).length = 1 ∧
      ((received .mail mailRun.trace).filter (isActionFor 0)).length ≤ numActionRetries + 1 :=
  ⟨by decide +kernel, events_taken_bounded _ _ _ _ _ _ (by decide +kernel) .mail 0⟩

end All

end Sentri.Modules
