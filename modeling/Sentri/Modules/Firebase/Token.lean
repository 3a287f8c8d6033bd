import Sentri.Modules.Firebase.Module
import Sentri.Text.JsonString
import Sentri.Transition.Halting

/-!
# The service token

There are three copies of the service token: the one in use, the one in the token file, and
the one in the hook file, which the web tool shows for the registration of devices.  The
hook file is only written when the module starts, so a token that is requested later is not
published.
-/

namespace Sentri.Modules.Firebase

open Sentri.LibModule Sentri.Text
open Sentri.Transition.Halting (Always EachStep always_iff always_of_preserved stateAfter)

open Json (Value Object)

/-- The token in a hook file, as a reader of JSON finds it.  A file with anything else in
its object has none. -/
def hookToken (text : Str) : Option Str :=
  match text.dropPrefix? "\x7b \"token\": \"".toList with
  | none => none
  | some rest =>
      match JsonString.readString none rest with
      | some (token, rest) => if rest = " \x7d\n".toList then some token else none
      | none => none

/-- The published token is the one in use, and the token file has it if there is one. -/
structure Published (module : FirebaseModule) : Prop where
  hook : ∃ text, module.hook = some text ∧ hookToken text = some module.token
  file : module.token ≠ [] → readToken module.tokenFile = module.token

variable (environment : Environment)

/-- All writes of files succeed. -/
structure Environment.Writes : Prop where
  tokenFile : ∀ n, environment.tokenFileOpens n = true
  hook : environment.hookWrites = true

/-! ## What the server answers -/

/-- The token that an answer to a registration leaves the module with.  An answer without
one leaves it with the empty token, and without an answer the process ends. -/
def Response.token : Response → Option Str
  | .unreachable => none
  | .answer statusCode body =>
      some (if statusCode = 200 then
        (body.bind fun parser => parser.find Value.string? "token".toList).getD [] else [])

/-- The answer to a notification that its token is invalid. -/
def Response.rejects : Response → Bool
  | .answer statusCode (some parser) =>
      statusCode = 200 && parser.find Value.boolean? "success".toList = some false &&
        parser.find Value.string? "error".toList = some invalidTokenError
  | _ => false

/-- The token with which the module starts, if it does: the first line of its file, or
else what the server gives. -/
def startToken (config : StrMap) (tokenFile : Option Str) : Option Str :=
  if readToken tokenFile ≠ [] then
    some (readToken tokenFile)
  else
    (registration config).bind fun request => (environment.server 0 request).token

/-- The notification that a message makes the module send. -/
def notificationOf (module : FirebaseModule) : Message → Option Request
  | .msgActio body => do
      let action ← lookupAction module.rules body.ruleId
      let vars := MessageHandler.receivedVars (.msgActio body)
      if action.key = evtNotifyKey then
        notification module.config module.token (titleOf action vars) (messageOf action vars)
          (useStreamOf action)
      else
        none
  | _ => none

/-- If the server rejects the token of the notification for a message, and then answers to
the registration, it gives the same token again. -/
def KeepsToken (module : FirebaseModule) (message : Message) : Prop :=
  ∀ notified registered token, notificationOf module message = some notified →
    (environment.server module.requests notified).rejects = true →
    registration module.config = some registered →
    (environment.server (module.requests + 1) registered).token = some token →
    token = module.token

/-- Handle one more message. -/
def handleNext (module : FirebaseModule) (message : Message) : Option FirebaseModule :=
  (handleMessage environment module message).1

/-! ## What one message does -/

/-- What becomes of the copies of the token when a notification, if any, is sent. -/
inductive Handled (module : FirebaseModule) (notified : Option Request) :
    Option FirebaseModule → Prop
  | kept {next : FirebaseModule}
      (accepted : ∀ request, notified = some request →
        (environment.server module.requests request).rejects = false)
      (token : next.token = module.token) (file : next.tokenFile = module.tokenFile)
      (hook : next.hook = module.hook) : Handled module notified (some next)
  | renewed {next : FirebaseModule} {request registered : Request}
      (sent : notified = some request)
      (rejected : (environment.server module.requests request).rejects = true)
      (registers : registration module.config = some registered)
      (answer : (environment.server (module.requests + 1) registered).token = some next.token)
      (file : next.token ≠ [] → next.tokenFile = some (next.token ++ ['\n']))
      (hook : next.hook = module.hook) : Handled module notified (some next)
  | ended
      (silent : ∀ request registered, notified = some request →
        (environment.server module.requests request).rejects = true →
        registration module.config = some registered →
        (environment.server (module.requests + 1) registered).token = none) :
      Handled module notified none

/-- The module after a call, if the process goes on. -/
def remaining {α : Type} : Outcome α × FirebaseModule × List Output → Option FirebaseModule
  | (.returned _, module, _) => some module
  | _ => none

theorem registration_of_notification {config : StrMap} {token title message : Str}
    {useStream : Bool} {request : Request}
    (sent : notification config token title message useStream = some request) :
    ∃ registered, registration config = some registered := by
  rcases Option.map_eq_some_iff.mp sent with ⟨created, creates, _⟩
  exact ⟨_, by rw [registration, creates, Option.map_some]⟩

/-- A notification whose token is not rejected changes no copy of the token. -/
theorem notify_of_accepted {module : FirebaseModule} {title message : Str} {useStream : Bool}
    {request : Request}
    (sent : notification module.config module.token title message useStream = some request)
    (accepted : (environment.server module.requests request).rejects = false) :
    ∃ success outputs, notify environment module title message useStream =
      (.returned success, { module with requests := module.requests + 1 }, outputs) := by
  unfold notify
  rw [sent]
  cases answer : environment.server module.requests request with
  | unreachable =>
      simp only [answer]
      exact ⟨_, _, rfl⟩
  | answer statusCode body =>
      simp only [answer]
      by_cases fine : statusCode = 200
      · cases body with
        | none =>
            simp only [if_pos fine]
            exact ⟨_, _, rfl⟩
        | some parser =>
            simp only [answer, Response.rejects, fine] at accepted
            simp only [if_pos fine]
            cases success : parser.find Value.boolean? "success".toList with
            | none => exact ⟨_, _, rfl⟩
            | some succeeded =>
                cases succeeded with
                | true => exact ⟨_, _, rfl⟩
                | false =>
                    cases error : parser.find Value.string? "error".toList with
                    | none => exact ⟨_, _, rfl⟩
                    | some text =>
                        have other : text ≠ invalidTokenError := by
                          rintro rfl
                          simp only [success, error, decide_true, Bool.and_self,
                            Bool.true_eq_false] at accepted
                        simp only [if_neg other]
                        exact ⟨_, _, rfl⟩
      · simp only [if_neg fine]
        exact ⟨_, _, rfl⟩

/-- A notification whose token is rejected requests a new one. -/
theorem notify_of_rejected {module : FirebaseModule} {title message : Str} {useStream : Bool}
    {request : Request}
    (sent : notification module.config module.token title message useStream = some request)
    (rejected : (environment.server module.requests request).rejects = true) :
    ∃ told, notify environment module title message useStream =
      match requestToken environment { module with requests := module.requests + 1 } with
      | (.returned _, renewed, outputs) => (.returned false, renewed, told ++ outputs)
      | (.thrown, renewed, outputs) =>
          (.returned false, renewed, told ++ outputs ++ [log .error couldNotNotifyText])
      | (.exited, renewed, outputs) => (.exited, renewed, told ++ outputs) := by
  unfold notify
  rw [sent]
  cases answer : environment.server module.requests request with
  | unreachable =>
      rw [answer] at rejected
      cases rejected
  | answer statusCode body =>
      cases body with
      | none =>
          rw [answer] at rejected
          cases rejected
      | some parser =>
          simp only [answer, Response.rejects, Bool.and_eq_true, decide_eq_true_eq] at rejected
          rcases rejected with ⟨⟨rfl, success⟩, error⟩
          simp only [answer, if_true, success, error]
          exact ⟨_, rfl⟩

section

variable {environment} (writes : environment.Writes)
include writes

/-- A request for a token takes what the server gives, or ends the process. -/
theorem requestToken_cases {module : FirebaseModule} {registered : Request}
    (registers : registration module.config = some registered) :
    (∃ next outputs, requestToken environment module = (.returned (), next, outputs) ∧
      (environment.server module.requests registered).token = some next.token ∧
      (next.token ≠ [] → next.tokenFile = some (next.token ++ ['\n'])) ∧
      next.hook = module.hook) ∨
    (∃ next outputs, requestToken environment module = (.exited, next, outputs) ∧
      (environment.server module.requests registered).token = none) := by
  cases answer : environment.server module.requests registered with
  | unreachable =>
      right
      simp only [requestToken, registers, answer]
      exact ⟨_, _, rfl, rfl⟩
  | answer statusCode body =>
      left
      simp only [requestToken, registers, answer, Response.token]
      by_cases fine : statusCode = 200
      · cases given : body.bind fun parser => parser.find Value.string? "token".toList with
        | none =>
            simp only [fine, if_true]
            exact ⟨_, _, rfl, rfl, fun nonempty => absurd rfl nonempty, rfl⟩
        | some token =>
            simp only [fine, if_true, writeToken, writes.tokenFile]
            exact ⟨_, _, rfl, rfl, fun _ => rfl, rfl⟩
      · simp only [fine, if_false]
        exact ⟨_, _, rfl, rfl, fun nonempty => absurd rfl nonempty, rfl⟩

theorem notify_handled (module : FirebaseModule) (title message : Str) (useStream : Bool) :
    Handled environment module (notification module.config module.token title message useStream)
      (remaining (notify environment module title message useStream)) := by
  cases sent : notification module.config module.token title message useStream with
  | none =>
      have threw : remaining (notify environment module title message useStream) = none := by
        rw [notify, sent]
        rfl
      rw [threw]
      apply Handled.ended
      intro request registered impossible
      cases impossible
  | some request =>
      cases answer : (environment.server module.requests request).rejects with
      | false =>
          rcases notify_of_accepted environment sent answer with ⟨success, outputs, notified⟩
          rw [notified]
          apply Handled.kept
          · intro _ same
            cases same
            exact answer
          · rfl
          · rfl
          · rfl
      | true =>
          rcases registration_of_notification sent with ⟨registered, registers⟩
          rcases notify_of_rejected environment sent answer with ⟨told, notified⟩
          rcases @requestToken_cases _ writes
              { module with requests := module.requests + 1 } _ registers with
            ⟨next, outputs, requested, token, file, hook⟩ | ⟨next, outputs, requested, silent⟩
          · rw [notified, requested]
            exact Handled.renewed rfl answer registers token file hook
          · rw [notified, requested]
            apply Handled.ended
            intro _ other _ _ registersOther
            obtain rfl : registered = other := Option.some.inj (registers.symm.trans registersOther)
            exact silent

theorem handleNext_handled (module : FirebaseModule) (message : Message) :
    Handled environment module (notificationOf module message)
      (handleNext environment module message) := by
  have untouched : ∀ notified, notified = none →
      Handled environment module notified (some module) := by
    rintro _ rfl
    apply Handled.kept
    · intro request impossible
      cases impossible
    · rfl
    · rfl
    · rfl
  cases message with
  | msgActio body =>
      simp only [handleNext, handleMessage, takeAction, notificationOf]
      cases found : lookupAction module.rules body.ruleId with
      | none => exact untouched _ rfl
      | some action =>
          by_cases own : action.key = evtNotifyKey
          · simp only [own, if_true, Option.bind_eq_bind, Option.bind_some]
            have handled := notify_handled writes module
              (titleOf action (MessageHandler.receivedVars (.msgActio body)))
              (messageOf action (MessageHandler.receivedVars (.msgActio body)))
              (useStreamOf action)
            revert handled
            rcases notify environment module _ _ _ with ⟨outcome, next, outputs⟩
            intro handled
            cases outcome with
            | returned success => cases success <;> exact handled
            | thrown => exact handled
            | exited => exact handled
          · simp only [own, if_false, Option.bind_eq_bind, Option.bind_some]
            exact untouched _ rfl
  | _ => exact untouched _ rfl

/-! ## The start -/

/-- The module starts with the token of its file or of the server, and publishes it. -/
theorem new_cases (config : StrMap) (rules : List RuleInfo) (tokenFile hook : Option Str) :
    let started := (FirebaseModule.new environment config rules tokenFile hook).1
    started.map FirebaseModule.token = startToken environment config tokenFile ∧
      ∀ module, started = some module → module.hook = some (hookData module.token) ∧
        (module.token ≠ [] → module.tokenFile = some (module.token ++ ['\n']) ∨
          readToken module.tokenFile = module.token) := by
  by_cases saved : readToken tokenFile = []
  · cases registers : registration config with
    | none =>
        simp [FirebaseModule.new, startToken, saved, requestToken, registers]
    | some registered =>
        rcases @requestToken_cases _ writes ⟨config, rules, [], tokenFile, hook, 0⟩ _
            registers with
          ⟨next, outputs, requested, token, file, _⟩ | ⟨next, outputs, requested, silent⟩
        · simp only [FirebaseModule.new, startToken, saved, requested, registers, writeHook,
            writes.hook, if_true, ne_eq, not_true_eq_false, if_false, Option.bind_some,
            Option.map_some]
          constructor
          · exact token.symm
          · intro module started
            cases started
            exact ⟨rfl, fun nonempty => .inl (file nonempty)⟩
        · simp [FirebaseModule.new, startToken, saved, requested, registers, silent]
  · simp only [FirebaseModule.new, startToken, writeHook, writes.hook, ne_eq, saved,
      not_false_eq_true, if_true, Option.map_some, true_and]
    intro module started
    cases started
    exact ⟨rfl, fun _ => .inr rfl⟩

end

/-! ## The published token -/

theorem readToken_line {token : Str} (oneLine : '\n' ∉ token) :
    readToken (some (token ++ ['\n'])) = token := by
  rw [readToken, List.takeWhile_append_of_pos, List.takeWhile_cons_of_neg (by simp),
    List.append_nil]
  intro c member
  rw [decide_eq_true_eq]
  rintro rfl
  exact oneLine member

/-- A reader of the hook file finds the token if and only if all its characters are plain. -/
theorem hookToken_hookData_iff (token : Str) :
    hookToken (hookData token) = some token ↔ token.all JsonString.isPlain := by
  have inner : (hookData token).dropPrefix? "\x7b \"token\": \"".toList =
      some (token ++ '"' :: " \x7d\n".toList) := by
    unfold hookData
    simp [List.dropPrefix?]
  rw [← @JsonString.readString_self_iff token " \x7d\n".toList]
  simp only [hookToken, inner]
  cases read : JsonString.readString none (token ++ '"' :: " \x7d\n".toList) with
  | none => simp
  | some found =>
      rcases found with ⟨value, rest⟩
      by_cases closed : rest = " \x7d\n".toList
      · simp only [closed, if_true, Option.some.injEq, Prod.mk.injEq, and_true]
      · simp only [closed, if_false, Option.some.injEq, Prod.mk.injEq, and_false,
          reduceCtorEq]

theorem newline_notMem_of_plain {token : Str} (plain : token.all JsonString.isPlain) :
    '\n' ∉ token := by
  intro member
  have own := List.all_eq_true.mp plain _ member
  revert own
  decide

/-- The hook file was written for a token with plain characters. -/
def Hooked (module : FirebaseModule) : Prop :=
  ∃ token, token.all JsonString.isPlain ∧ module.hook = some (hookData token)

theorem published_iff {module : FirebaseModule} {token : Str}
    (plain : token.all JsonString.isPlain) (hook : module.hook = some (hookData token)) :
    Published module ↔ module.token = token ∧
      (module.token ≠ [] → readToken module.tokenFile = module.token) := by
  have read := (hookToken_hookData_iff token).mpr plain
  constructor
  · rintro ⟨⟨text, written, found⟩, file⟩
    obtain rfl : hookData token = text := Option.some.inj (hook.symm.trans written)
    exact ⟨(Option.some.inj (read.symm.trans found)).symm, file⟩
  · rintro ⟨same, file⟩
    exact ⟨⟨_, hook, by rw [read, same]⟩, file⟩

/-- The module publishes its first token if and only if its characters are plain. -/
theorem published_start_iff {module : FirebaseModule}
    (hook : module.hook = some (hookData module.token))
    (file : module.token ≠ [] → module.tokenFile = some (module.token ++ ['\n']) ∨
      readToken module.tokenFile = module.token) :
    Published module ↔ module.token.all JsonString.isPlain := by
  constructor
  · rintro ⟨⟨text, written, found⟩, _⟩
    obtain rfl : hookData module.token = text := Option.some.inj (hook.symm.trans written)
    exact (hookToken_hookData_iff module.token).mp found
  · intro plain
    rw [published_iff plain hook]
    constructor
    · rfl
    · intro nonempty
      rcases file nonempty with written | read
      · rw [written, readToken_line (newline_notMem_of_plain plain)]
      · exact read

section

variable {environment} (writes : environment.Writes)
include writes

theorem Hooked.handleNext {module next : FirebaseModule} {message : Message}
    (hooked : Hooked module) (handled : handleNext environment module message = some next) :
    Hooked next := by
  have outcomes := handleNext_handled writes module message
  rw [handled] at outcomes
  rcases hooked with ⟨token, plain, hook⟩
  refine ⟨token, plain, ?_⟩
  cases outcomes with
  | kept _ _ _ same => rw [same, hook]
  | renewed _ _ _ _ _ same => rw [same, hook]

/-- The step lemma: a published token stays published if and only if it is kept. -/
theorem published_handleNext_iff {module next : FirebaseModule} {message : Message}
    (hooked : Hooked module) (published : Published module)
    (handled : handleNext environment module message = some next) :
    Published next ↔ KeepsToken environment module message := by
  have outcomes := handleNext_handled writes module message
  rw [handled] at outcomes
  rcases hooked with ⟨token, plain, hook⟩
  rcases (published_iff plain hook).mp published with ⟨rfl, file⟩
  cases outcomes with
  | kept accepted sameToken sameFile sameHook =>
      constructor
      · intro _ notified registered token sent rejected
        rw [accepted notified sent] at rejected
        cases rejected
      · intro _
        rw [published_iff plain (sameHook.trans hook), sameToken, sameFile]
        exact ⟨rfl, file⟩
  | renewed sent rejected registers answer newFile sameHook =>
      rw [published_iff plain (sameHook.trans hook)]
      constructor
      · rintro ⟨same, _⟩ notified registered token sent' _ registers' answer'
        obtain rfl := Option.some.inj (registers.symm.trans registers')
        rw [← same]
        exact Option.some.inj (answer'.symm.trans answer)
      · intro keeps
        have same := keeps _ _ _ sent rejected registers answer
        constructor
        · exact same
        · intro nonempty
          rw [newFile nonempty, same, readToken_line (newline_notMem_of_plain plain)]

theorem keepsToken_of_ended {module : FirebaseModule} {message : Message}
    (handled : handleNext environment module message = none) :
    KeepsToken environment module message := by
  have outcomes := handleNext_handled writes module message
  rw [handled] at outcomes
  cases outcomes with
  | ended silent =>
      intro notified registered token sent rejected registers answer
      rw [silent notified registered sent rejected registers] at answer
      cases answer

/-- The module starts with a published token if and only if the characters of the token
are plain. -/
theorem published_new_iff (config : StrMap) (rules : List RuleInfo)
    (tokenFile hook : Option Str) :
    (∀ module, (FirebaseModule.new environment config rules tokenFile hook).1 = some module →
      Published module) ↔
      ∀ token, startToken environment config tokenFile = some token →
        token.all JsonString.isPlain := by
  rcases new_cases writes config rules tokenFile hook with ⟨tokenEq, files⟩
  rw [← tokenEq]
  constructor
  · intro published token started
    rcases Option.map_eq_some_iff.mp started with ⟨module, isStart, rfl⟩
    rcases files module isStart with ⟨hookEq, file⟩
    exact (published_start_iff hookEq file).mp (published module isStart)
  · intro plain module isStart
    rcases files module isStart with ⟨hookEq, file⟩
    exact (published_start_iff hookEq file).mpr
      (plain _ (Option.map_eq_some_iff.mpr ⟨module, isStart, rfl⟩))

/-- After a start with a published token the hook file always has a token with plain
characters. -/
theorem always_hooked {config : StrMap} {rules : List RuleInfo} {tokenFile hook : Option Str}
    (published : ∀ module,
      (FirebaseModule.new environment config rules tokenFile hook).1 = some module →
        Published module)
    (messages : List Message) :
    Always (handleNext environment)
      (FirebaseModule.new environment config rules tokenFile hook).1 Hooked messages := by
  apply always_of_preserved
  · intro module isStart
    rcases (new_cases writes config rules tokenFile hook).2 module isStart with ⟨hookEq, file⟩
    have plain := (published_start_iff hookEq file).mp (published module isStart)
    exact ⟨module.token, plain, hookEq⟩
  · intro module message next hooked handled
    exact hooked.handleNext writes handled

/-- In every run the token in use is the published one after the start and after each
message, if and only if the first token has only plain characters and is kept by every
message. -/
theorem token_published_iff (config : StrMap) (rules : List RuleInfo)
    (tokenFile hook : Option Str) (messages : List Message) :
    let start := (FirebaseModule.new environment config rules tokenFile hook).1
    Always (handleNext environment) start Published messages ↔
      (∀ token, startToken environment config tokenFile = some token →
        token.all JsonString.isPlain) ∧
      EachStep (handleNext environment) start (KeepsToken environment) messages := by
  intro start
  have steps : (∀ module, start = some module → Published module) →
      (Always (handleNext environment) start Published messages ↔
        (∀ module, start = some module → Published module) ∧
          EachStep (handleNext environment) start (KeepsToken environment) messages) := by
    intro published
    apply always_iff (always_hooked writes published messages)
    · intro module message next hooked published handled
      exact published_handleNext_iff writes hooked published handled
    · intro module message handled
      exact keepsToken_of_ended writes handled
  rw [← published_new_iff writes config rules tokenFile hook]
  constructor
  · intro always
    exact (steps (always [] List.nil_prefix)).mp always
  · intro both
    exact (steps both.1).mpr both

end

/-! ## A renewed token -/

/-- Files that can be written, and a server that gives the same answers to everybody. -/
def answering (answers : Nat → Response) : Environment where
  server n _ := answers n
  tokenFileOpens _ := true
  hookWrites := true
  hookLeft := none

theorem answering_writes (answers : Nat → Response) : (answering answers).Writes :=
  ⟨fun _ => rfl, rfl⟩

def notifyRule : RuleInfo where
  title := []
  id := 0
  event := { module := [], key := [], configuration := ∅ }
  action := { module := moduleName, key := evtNotifyKey, configuration := ∅ }
  fireLimit := 0
  isDisabled := false

/-- The module after its start with the token `old` in its file. -/
def startWithOld (answers : Nat → Response) : Option FirebaseModule :=
  (FirebaseModule.new (answering answers) (Std.ExtTreeMap.ofList [("port".toList, "80".toList)])
    [notifyRule] (some "old\n".toList) none).1

def notifyMessage : Message :=
  .msgActio ⟨0, 0, snprintf msgVarSize []⟩

def success : Response :=
  .answer 200 (some [("success".toList, .boolean true)])

/-- The server rejects the first notification, and then gives an answer to the
registration. -/
def rejecting (answer : Object) : Nat → Response
  | 0 => .answer 200 (some [("success".toList, .boolean false),
      ("error".toList, .string invalidTokenError)])
  | _ => .answer 200 (some answer)

/-- The server rejects the first notification and gives the token out again. -/
def renewing : Nat → Response
  | 0 => .answer 200 (some [("success".toList, .boolean false),
      ("error".toList, .string invalidTokenError)])
  | 1 => .answer 200 (some [("token".toList, .string "old".toList)])
  | _ => success

theorem renewing_keeps {module : FirebaseModule} (message : Message)
    (begun : module.requests = 0 ∨ module.requests = 2) (old : module.token = "old".toList) :
    KeepsToken (answering renewing) module message := by
  intro notified registered token _ rejected _ given
  change (renewing module.requests).rejects = true at rejected
  change (renewing (module.requests + 1)).token = some token at given
  rcases begun with zero | two
  · have answer : (renewing (0 + 1)).token = some "old".toList := by decide +kernel
    rw [zero, answer] at given
    rw [old]
    exact (Option.some.inj given).symm
  · have accepted : (renewing 2).rejects = false := by decide +kernel
    rw [two, accepted] at rejected
    cases rejected

/-- The token survives a rejection, a renewal and a notification that succeeds. -/
theorem token_published_renewed :
    Always (handleNext (answering renewing)) (startWithOld renewing) Published
      [notifyMessage, notifyMessage] := by
  have value : startToken (answering renewing)
      (Std.ExtTreeMap.ofList [("port".toList, "80".toList)]) (some "old\n".toList) =
        some "old".toList := by
    decide +kernel
  have first : (stateAfter (handleNext (answering renewing)) (startWithOld renewing) []).map
      (fun module => (module.requests, module.token)) = some (0, "old".toList) := by
    decide +kernel
  have second : (stateAfter (handleNext (answering renewing)) (startWithOld renewing)
      [notifyMessage]).map (fun module => (module.requests, module.token)) =
        some (2, "old".toList) := by
    decide +kernel
  apply (token_published_iff (answering_writes renewing) _ _ _ _ _).mpr
  constructor
  · rw [value]
    intro token started
    cases started
    decide +kernel
  · intro before message inside module reached
    change stateAfter (handleNext (answering renewing)) (startWithOld renewing) before =
      some module at reached
    cases before with
    | nil =>
        rw [reached, Option.map_some, Option.some.injEq] at first
        rcases Prod.mk.inj first with ⟨requests, token⟩
        exact renewing_keeps message (Or.inl requests) token
    | cons head before =>
        rcases List.cons_prefix_cons.mp inside with ⟨rfl, rest⟩
        have short : (before ++ [message]).length ≤ [notifyMessage].length := rest.length_le
        rw [List.length_append, List.length_singleton] at short
        obtain rfl : before = [] := List.eq_nil_of_length_eq_zero (Nat.le_zero.mp
          (Nat.le_of_succ_le_succ short))
        rw [reached, Option.map_some, Option.some.injEq] at second
        rcases Prod.mk.inj second with ⟨requests, token⟩
        exact renewing_keeps message (Or.inr requests) token

theorem not_always_of_hook {answers : Nat → Response} {old token : Str}
    (after : (stateAfter (handleNext (answering answers)) (startWithOld answers)
      [notifyMessage]).map (fun module => (module.token, module.hook)) =
        some (token, some (hookData old)))
    (differ : hookToken (hookData old) ≠ some token) :
    ¬ Always (handleNext (answering answers)) (startWithOld answers) Published
      [notifyMessage] := by
  intro always
  rcases Option.map_eq_some_iff.mp after with ⟨module, reached, copies⟩
  rcases Prod.mk.inj copies with ⟨rfl, hook⟩
  rcases (always [notifyMessage] List.prefix_rfl module reached).hook with ⟨text, written, found⟩
  obtain rfl : hookData old = text := Option.some.inj (hook.symm.trans written)
  exact differ found

/-- A token that the server replaces stays published, and so does one that it takes away. -/
theorem renewed_token_unpublished :
    ¬ Always (handleNext (answering (rejecting [("token".toList, .string "new".toList)])))
        (startWithOld (rejecting [("token".toList, .string "new".toList)])) Published
        [notifyMessage] ∧
      ¬ Always (handleNext (answering (rejecting []))) (startWithOld (rejecting [])) Published
        [notifyMessage] := by
  have old : hookToken (hookData "old".toList) = some "old".toList := by decide +kernel
  constructor
  · apply @not_always_of_hook _ "old".toList "new".toList
    · decide +kernel
    · rw [old]
      decide +kernel
  · apply @not_always_of_hook _ "old".toList []
    · decide +kernel
    · rw [old]
      decide +kernel

end Sentri.Modules.Firebase
