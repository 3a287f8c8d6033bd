import Sentri.LibModule.MessageHandler
import Sentri.LibModule.Rule
import Sentri.Transition.Machine

/-!
# The noise detection module

In every round of its main loop the module listens for a moment.  A noise is
recorded into a file, and the event of every rule that was loud enough carries
the file.  The file is then removed by `deleteFile`, which waits for one message
of the core for each of these rules, and for each at most thirty seconds.  The
call is asynchronous, but the destructor of its future ends the round, so that
the main loop goes on only after it.
-/

namespace Sentri.Modules.NoiseDetection

open Sentri.LibModule Sentri.Text Sentri.Transition

def moduleName : Str :=
  "module_noise_detection".toList

/-- The file of a recording that starts at a local time in whole seconds, as
`to_iso_string` writes it. -/
def audioFile (time : Str) : Str :=
  "/tmp/sentri/audio/noise".toList ++ time ++ ".wav".toList

/-- An event message: the recording it belongs to, and the number of its rule
among those that were loud enough. -/
structure EventRef where
  recording : Nat
  rule : Nat
  deriving DecidableEq

/-- An answer of the core to an event message. -/
structure Reply where
  ref : EventRef
  accepted : Bool
  body : ActionBody
  deriving DecidableEq

def Reply.message (reply : Reply) : Message :=
  if reply.accepted then .msgAckev reply.body else .msgEvabt reply.body

/-- What the module does to the outside. -/
inductive Effect where
  /-- An event message that the core gets. -/
  | sentEvent (ref : EventRef) (event : Event)
  /-- Any other message to the core. -/
  | sent (message : Message)
  /-- A message received by the call of `deleteFile` for a recording. -/
  | counted (recording : Nat) (reply : Reply)
  /-- Thirty seconds without a message in the call for a recording. -/
  | timedOut (recording : Nat)
  /-- The file of a recording is removed. -/
  | removed (recording : Nat) (fileName : Str)
  deriving DecidableEq

/-! ## The main loop -/

/-- What one round of the main loop reads from the outside. -/
structure Round where
  /-- Is the amplitude above the threshold times the overhead of the rule? -/
  loud : RuleInfo → Bool
  /-- The local time when the recording starts. -/
  time : Str
  /-- Is an event message sent?  The flood protection may refuse it, and the
  queue of the core may be full. -/
  passes : Nat → Bool
  /-- Is the asynchronous call started?  Without a thread for it, it is deferred
  until somebody asks for its result. -/
  launched : Bool

/-- The variables of the loop over the rules. -/
structure Detection where
  fileGenerated : Bool
  numOfRules : Nat
  filePath : Str

def Detection.none : Detection where
  fileGenerated := false
  numOfRules := 0
  filePath := []

/-- Record the noise, unless a previous rule did.  A recording that fails ends the module; here
it succeeds. -/
def recordNoise (round : Round) (detection : Detection) : Detection × List Effect :=
  if detection.fileGenerated then
    (detection, [])
  else
    ({ detection with fileGenerated := true, filePath := audioFile round.time },
      [.sent (MessageHandler.sendHeartbeat moduleName),
        .sent (MessageHandler.log moduleName .info
          "Sound detected: Recording started".toList),
        .sent (MessageHandler.log moduleName .info
          "Sound detected: Recording finished".toList)])

/-- The event of a rule and its message. -/
def sendEvent (recording : Nat) (round : Round) (detection : Detection) (rule : RuleInfo) :
    List Effect :=
  if round.passes detection.numOfRules then
    [.sentEvent ⟨recording, detection.numOfRules⟩
      ⟨rule.id, snprintf msgVarSize ("audioFile=".toList ++ detection.filePath)⟩]
  else
    []

/-- The loop over the rules. -/
def ruleLoop (recording : Nat) (round : Round) (detection : Detection) :
    List RuleInfo → Detection × List Effect
  | [] => (detection, [])
  | rule :: left =>
      if round.loud rule then
        let (detection, recorded) := recordNoise round detection
        let events := sendEvent recording round detection rule
        let (next, rest) := ruleLoop recording round
          { detection with numOfRules := detection.numOfRules + 1 } left
        (next, recorded ++ events ++
          .sent (MessageHandler.sendHeartbeat moduleName) :: rest)
      else
        ruleLoop recording round detection left

/-! ## Removing files -/

/-- A call of `deleteFile` for a recording. -/
structure Deletion where
  recording : Nat
  fileName : Str
  nrOfRules : Nat
  hasMessage : Bool
  deriving DecidableEq

/-- The module, the queue in which it receives messages, and the core. -/
structure System where
  /-- Recordings made so far. -/
  recordings : Nat
  deletion : Option Deletion
  queue : List Reply
  /-- Event messages that the core has not answered. -/
  unanswered : List (EventRef × Event)

/-- The head of the loop of `deleteFile` and what follows the loop. -/
def deleteFile (system : System) (deletion : Deletion) : System × List Effect :=
  if deletion.nrOfRules ≠ 0 then
    ({ system with deletion := some deletion }, [])
  else
    ({ system with deletion := none },
      [.sent (if deletion.hasMessage then
          MessageHandler.log moduleName .info
            "Acknowledgement-messages received. Deleting tmp noise audio file".toList
        else
          MessageHandler.log moduleName .error
            "No acknowledgement-message or abort message received, still deleting the file".toList),
        .removed deletion.recording deletion.fileName])

/-- The body of the loop of `deleteFile`. -/
def Deletion.receive (deletion : Deletion) (hasMessage : Bool) : Deletion :=
  { deletion with nrOfRules := deletion.nrOfRules - 1, hasMessage := hasMessage }

inductive Op where
  /-- One round of the main loop. -/
  | round (round : Round)
  /-- The core answers an event message. -/
  | answer (ref : EventRef) (accepted : Bool) (eventId : EventID)
  /-- `deleteFile` receives the next message of the queue. -/
  | receive
  /-- No message comes for thirty seconds. -/
  | timeout

def Effect.event? : Effect → Option (EventRef × Event)
  | .sentEvent ref event => some (ref, event)
  | _ => none

/-- One step.  The main loop stands still while a file is to be removed, and the
wait for a message ends without one only when there is none. -/
def step (rules : List RuleInfo) (system : System) : Op → System × List Effect
  | .round round =>
      match system.deletion with
      | some _ => (system, [])
      | none =>
          let (detection, sent) := ruleLoop system.recordings round .none rules
          let heard := { system with
            unanswered := system.unanswered ++ sent.filterMap Effect.event? }
          if detection.fileGenerated then
            let recorded := { heard with recordings := heard.recordings + 1 }
            if round.launched then
              let (next, removed) := deleteFile recorded
                ⟨system.recordings, detection.filePath, detection.numOfRules, false⟩
              (next, sent ++ removed)
            else
              (recorded, sent)
          else
            (heard, sent)
  | .answer ref accepted eventId =>
      match system.unanswered.find? (·.1 = ref) with
      | none => (system, [])
      | some (_, event) =>
          ({ system with
              queue := system.queue ++ [⟨ref, accepted, ⟨eventId, event.ruleId, event.vars⟩⟩]
              unanswered := system.unanswered.eraseP (·.1 = ref) }, [])
  | .receive =>
      match system.deletion, system.queue with
      | some deletion, reply :: left =>
          let (next, removed) := deleteFile { system with queue := left }
            (deletion.receive true)
          (next, .counted deletion.recording reply :: removed)
      | _, _ => (system, [])
  | .timeout =>
      match system.deletion, system.queue with
      | some deletion, [] =>
          let (next, removed) := deleteFile system (deletion.receive false)
          (next, .timedOut deletion.recording :: removed)
      | _, _ => (system, [])

/-- The module with its rules, before the first round. -/
def machine (rules : List RuleInfo) : Machine System Op Effect :=
  ⟨⟨0, none, [], []⟩, step rules⟩

end Sentri.Modules.NoiseDetection
