import Sentri.Modules.Mail.Module
import Sentri.Modules.Sms.Module
import Sentri.Text.Replace
import Sentri.Text.Split

/-!
# Lists of receivers

The receivers of an action are entered as one text, with a comma, a comma and a blank,
or for mails a blank between two of them.  Both modules split the text at every comma
and every blank.
-/

namespace Sentri.Modules

open Sentri.LibModule Sentri.Text

/-- An address that can stand in a list. -/
structure Address where
  text : Str
  nonempty : text ≠ []
  comma : ',' ∉ text
  blank : ' ' ∉ text

/-- The separators of the mail module: `, ?| `. -/
inductive MailSeparator where
  | comma
  | commaBlank
  | blank
  deriving DecidableEq

/-- The separators of the SMS module: `, ?`. -/
inductive SmsSeparator where
  | comma
  | commaBlank
  deriving DecidableEq

def MailSeparator.text : MailSeparator → Str
  | comma => [',']
  | commaBlank => [',', ' ']
  | blank => [' ']

def SmsSeparator.text : SmsSeparator → Str
  | comma => [',']
  | commaBlank => [',', ' ']

/-- A list as it is entered: the first address, and the others behind their separators. -/
structure Entered (σ : Type) where
  first : Address
  rest : List (σ × Address)

namespace Entered

variable {σ : Type}

def text (shown : σ → Str) (list : Entered σ) : Str :=
  joinWords list.first.text (list.rest.map fun part => (shown part.1, part.2.text))

def addresses (list : Entered σ) : List Str :=
  list.first.text :: list.rest.map fun part => part.2.text

end Entered

/-- The character at which both modules split. -/
def isSeparator (c : Char) : Bool :=
  c = ',' || c = ' '

/-- The action with a text for its receivers. -/
def withReceivers (action : ActionInfo) (text : Str) : ActionInfo :=
  { action with configuration := action.configuration.insert "to".toList text }

/-! ## What the modules do with a list -/

/-- The receivers of the mails that are handed to the library. -/
def Mail.mailed (outputs : List Mail.Output) : List (List Str) :=
  outputs.filterMap fun output =>
    match output with
    | .mail outgoing _ => some outgoing.receivers
    | .sent _ => none

/-- The receivers of the text messages that are requested. -/
def Sms.texted (outputs : List Sms.Output) : List Str :=
  outputs.filterMap fun output =>
    match output with
    | .request receiver _ _ => some receiver
    | .sent _ => none

/-- The transfer library that can request every text message. -/
def Sms.Curl.Works (curl : Sms.Curl) : Prop :=
  ∀ n, curl.init n = true ∧ ∀ text, (curl.escape n text).isSome = true

/-- Every mail for the list goes to the addresses that were entered. -/
def MailsAll (list : Entered MailSeparator) : Prop :=
  ∀ (quickmail : Mail.Quickmail) (module : Mail.MailModule) (action : ActionInfo)
    (body : ActionBody), action.key = Mail.actionTitle →
    lookupAction module.rules body.ruleId =
      some (withReceivers action (list.text MailSeparator.text)) →
    Mail.mailed (Mail.takeAction quickmail module body
      (MessageHandler.receivedVars (.msgActio body))).2.2 = [list.addresses]

/-- Every text message for the list is sent once to each of the addresses that were
entered, whatever the variables of the event are. -/
def TextsAll (list : Entered SmsSeparator) : Prop :=
  ∀ (curl : Sms.Curl) (module : Sms.SMSModule) (action : ActionInfo) (body : ActionBody),
    curl.Works → action.key = Sms.actionTitle →
    lookupAction module.rules body.ruleId =
      some (withReceivers action (list.text SmsSeparator.text)) →
    ∃ result next outputs, Sms.takeAction curl module body
        (MessageHandler.receivedVars (.msgActio body)) = some (result, next, outputs) ∧
      Sms.texted outputs = list.addresses

theorem Mail.mailed_takeAction {quickmail : Mail.Quickmail} {module : Mail.MailModule}
    {body : ActionBody} {action : ActionInfo} (own : action.key = Mail.actionTitle)
    (found : lookupAction module.rules body.ruleId = some action) (vars : StrMap) :
    Mail.mailed (Mail.takeAction quickmail module body vars).2.2 = [Mail.receivers action] := by
  cases answer : quickmail module.count module.settings (Mail.mailOf action vars).cStrings <;>
    simp only [Mail.takeAction, found, own, if_true, Mail.sendMail, answer] <;> rfl

theorem Sms.texted_append (first second : List Sms.Output) :
    Sms.texted (first ++ second) = Sms.texted first ++ Sms.texted second :=
  List.filterMap_append

theorem Sms.texted_sendSMS {curl : Sms.Curl} (works : curl.Works) (settings : Sms.Settings)
    (count : Nat) (receiver body : Str) :
    Sms.texted (Sms.sendSMS curl settings count receiver body).2 = [receiver] := by
  rcases works count with ⟨init, escapes⟩
  rcases Option.isSome_iff_exists.mp (escapes body) with ⟨output, escape⟩
  simp only [Sms.sendSMS, init, if_true, escape]
  split <;> rfl

theorem Sms.texted_sendAll {curl : Sms.Curl} (works : curl.Works) (settings : Sms.Settings)
    (body : Str) (count : Nat) (receivers : List Str) :
    Sms.texted (Sms.sendAll curl settings body count receivers).2 = receivers := by
  induction receivers generalizing count with
  | nil => rfl
  | cons receiver left ih =>
      change Sms.texted ((Sms.sendSMS curl settings count receiver body).2 ++ _) = _
      rw [Sms.texted_append, Sms.texted_sendSMS works, ih, List.singleton_append]

theorem Sms.takeAction_of_send {curl : Sms.Curl} {module : Sms.SMSModule} {body : ActionBody}
    {action : ActionInfo} (own : action.key = Sms.actionTitle)
    (found : lookupAction module.rules body.ruleId = some action) (vars : StrMap) :
    Sms.takeAction curl module body vars =
      let text := Module.replaceVars (action.configuration.getD "body".toList []) vars
      let sent := Sms.sendAll curl module.settings text module.count (Sms.receivers action vars)
      some (0, { module with count := sent.1 }, sent.2) := by
  simp only [Sms.takeAction, found, own, if_true]

/-! ## Which lists are split back -/

namespace Entered

variable {σ : Type} {shown : σ → Str}

/-- The addresses come back if and only if every separator is a single character. -/
theorem splitOnP_text_iff (separators : ∀ separator, (shown separator).all isSeparator)
    (separates : ∀ separator, shown separator ≠ []) (list : Entered σ) :
    (list.text shown).splitOnP isSeparator = list.addresses ↔
      ∀ part ∈ list.rest, (shown part.1).length = 1 := by
  have free : ∀ address : Address, ∀ c ∈ address.text, isSeparator c = false := by
    intro address c member
    have comma : c ≠ ',' := fun equal => address.comma (equal ▸ member)
    have blank : c ≠ ' ' := fun equal => address.blank (equal ▸ member)
    simp [isSeparator, comma, blank]
  have words := @splitOnP_joinWords_iff isSeparator list.first.text
    (list.rest.map fun part => (shown part.1, part.2.text)) (free list.first)
    (by
      intro part member
      rcases List.mem_map.mp member with ⟨entry, _, rfl⟩
      exact ⟨List.all_eq_true.mp (separators entry.1), separates entry.1, free entry.2⟩)
    (by
      intro part member
      rcases List.mem_map.mp member with ⟨entry, _, rfl⟩
      exact entry.2.nonempty)
  simp only [List.map_map, Function.comp_def, List.forall_mem_map] at words
  exact words

theorem notMem_text {c : Char} (unshown : ∀ separator, c ∉ shown separator) {list : Entered σ}
    (missing : ∀ address ∈ list.addresses, c ∉ address) : c ∉ list.text shown := by
  intro member
  rcases List.mem_append.mp member with inFirst | inRest
  · exact missing _ List.mem_cons_self inFirst
  · rcases List.mem_flatMap.mp inRest with ⟨part, partMember, inPart⟩
    rcases List.mem_map.mp partMember with ⟨entry, entryMember, rfl⟩
    rcases List.mem_append.mp inPart with inSeparator | inWord
    · exact unshown entry.1 inSeparator
    · exact missing _ (List.mem_cons_of_mem _ (List.mem_map_of_mem entryMember)) inWord

end Entered

theorem receivers_withReceivers (action : ActionInfo) (text : Str) :
    Mail.receivers (withReceivers action text) = text.splitOnP isSeparator := by
  rw [Mail.receivers, withReceivers, Std.ExtTreeMap.getD_insert_self]
  rfl

theorem smsReceivers_withReceivers (action : ActionInfo) (text : Str) (vars : StrMap) :
    Sms.receivers (withReceivers action text) vars =
      (Module.replaceVars text vars).splitOnP isSeparator := by
  rw [Sms.receivers, withReceivers, Std.ExtTreeMap.getD_insert_self]
  rfl

/-- An action with a key and no configuration. -/
def bareAction (key : Str) : ActionInfo where
  module := []
  key := key
  configuration := ∅

/-- The only rule of a module, with the given action. -/
def onlyRule (action : ActionInfo) : RuleInfo where
  title := []
  id := 0
  event := { module := [], key := [], configuration := ∅ }
  action := action
  fireLimit := 0
  isDisabled := false

/-- An event of that rule. -/
def eventOf (vars : Str) : ActionBody :=
  ⟨0, 0, snprintf msgVarSize vars⟩

theorem lookupAction_onlyRule (action : ActionInfo) :
    lookupAction [onlyRule action] 0 = some action :=
  rfl

theorem mailsAll_iff_splitOnP (list : Entered MailSeparator) :
    MailsAll list ↔
      (list.text MailSeparator.text).splitOnP isSeparator = list.addresses := by
  constructor
  · intro all
    let action := withReceivers (bareAction Mail.actionTitle) (list.text MailSeparator.text)
    have mailed := all (fun _ _ _ => none) ⟨⟨[], [], 0, [], []⟩, [onlyRule action], 0⟩
      (bareAction Mail.actionTitle) (eventOf []) rfl rfl
    rw [Mail.mailed_takeAction rfl (lookupAction_onlyRule action),
      receivers_withReceivers] at mailed
    exact (List.cons.inj mailed).1
  · intro split quickmail module action body own found
    have same : (withReceivers action (list.text MailSeparator.text)).key = Mail.actionTitle :=
      own
    rw [Mail.mailed_takeAction same found, receivers_withReceivers, split]

/-- A transfer library without errors. -/
def Sms.flawless : Sms.Curl where
  init _ := true
  escape _ text := some text
  perform _ _ := .ok ()

theorem textsAll_iff_splitOnP (list : Entered SmsSeparator) :
    TextsAll list ↔ ∀ body : ActionBody,
      (Module.replaceVars (list.text SmsSeparator.text)
        (MessageHandler.receivedVars (.msgActio body))).splitOnP isSeparator =
          list.addresses := by
  constructor
  · intro all body
    let action := withReceivers (bareAction Sms.actionTitle) (list.text SmsSeparator.text)
    let rule : RuleInfo := { onlyRule action with id := body.ruleId }
    have found : lookupAction [rule] body.ruleId = some action := by
      simp [lookupAction, rule, onlyRule]
    have works : Sms.flawless.Works := fun _ => ⟨rfl, fun _ => rfl⟩
    rcases all Sms.flawless ⟨⟨[], [], []⟩, [rule], 0⟩ (bareAction Sms.actionTitle) body works rfl
      found with ⟨result, next, outputs, taken, texted⟩
    rw [Sms.takeAction_of_send rfl found] at taken
    cases taken
    rwa [Sms.texted_sendAll works, smsReceivers_withReceivers] at texted
  · intro split curl module action body works own found
    have same : (withReceivers action (list.text SmsSeparator.text)).key = Sms.actionTitle :=
      own
    refine ⟨_, _, _, Sms.takeAction_of_send same found _, ?_⟩
    rw [Sms.texted_sendAll works, smsReceivers_withReceivers, split body]

theorem mailsAll_iff (list : Entered MailSeparator) :
    MailsAll list ↔ ∀ part ∈ list.rest, part.1 ≠ .commaBlank := by
  have single : ∀ separator : MailSeparator,
      separator.text.length = 1 ↔ separator ≠ .commaBlank := by
    intro separator
    cases separator <;> decide
  rw [mailsAll_iff_splitOnP, Entered.splitOnP_text_iff]
  · simp only [single]
  · intro separator
    cases separator <;> decide
  · intro separator
    cases separator <;> decide

/-- A text without a percent sign has no variables. -/
theorem replaceVars_of_notMem {text : Str} (plain : '%' ∉ text) (vars : StrMap) :
    Module.replaceVars text vars = text := by
  unfold Module.replaceVars
  induction vars.toList with
  | nil => rfl
  | cons entry entries ih =>
      rw [List.foldl_cons, replaceAll_of_notMem plain]
      exact ih

/-- With an empty key, every percent sign is replaced. -/
theorem replaceVars_emptyKey (text : Str) :
    Module.replaceVars text (MessageHandler.receivedVars (.msgActio (eventOf "=x".toList))) =
      replaceAll text ['%'] ['x'] := by
  have entries : (MessageHandler.receivedVars (.msgActio (eventOf "=x".toList))).toList =
      [([], ['x'])] := by
    decide +kernel
  rw [Module.replaceVars, entries]
  rfl

theorem textsAll_iff (list : Entered SmsSeparator) :
    TextsAll list ↔ (∀ part ∈ list.rest, part.1 ≠ .commaBlank) ∧
      ∀ address ∈ list.addresses, '%' ∉ address := by
  have single : ∀ separator : SmsSeparator,
      separator.text.length = 1 ↔ separator ≠ .commaBlank := by
    intro separator
    cases separator <;> decide
  have splits : (list.text SmsSeparator.text).splitOnP isSeparator = list.addresses ↔
      ∀ part ∈ list.rest, part.1 ≠ .commaBlank := by
    rw [Entered.splitOnP_text_iff]
    · simp only [single]
    · intro separator
      cases separator <;> decide
    · intro separator
      cases separator <;> decide
  rw [textsAll_iff_splitOnP, ← splits]
  constructor
  · intro all
    constructor
    · exact all (eventOf [])
    · intro address member percent
      have words := all (eventOf "=x".toList)
      rw [replaceVars_emptyKey] at words
      rw [← words] at member
      exact notMem_replaceAll_singleton (by decide) _ (mem_of_mem_splitOnP member percent).1
  · rintro ⟨split, plain⟩ body
    rw [replaceVars_of_notMem (Entered.notMem_text _ plain), split]
    intro separator
    cases separator <;> decide

/-- The receivers of a mail are those that were entered if and only if no separator is a
comma with a blank, and so are those of a text message if, besides, no address contains a
percent sign. -/
theorem receivers_split_back_iff (mails : Entered MailSeparator) (texts : Entered SmsSeparator) :
    (MailsAll mails ↔ ∀ part ∈ mails.rest, part.1 ≠ .commaBlank) ∧
      (TextsAll texts ↔ (∀ part ∈ texts.rest, part.1 ≠ .commaBlank) ∧
        ∀ address ∈ texts.addresses, '%' ∉ address) :=
  ⟨mailsAll_iff mails, textsAll_iff texts⟩

/-- Two addresses. -/
def twoAddresses {σ : Type} (separator : σ) : Entered σ where
  first := ⟨"4915201".toList, by decide, by decide, by decide⟩
  rest := [(separator, ⟨"4915202".toList, by decide, by decide, by decide⟩)]

/-- With a comma and a blank between them there is a third, empty receiver. -/
theorem empty_receiver :
    ¬ MailsAll (twoAddresses .commaBlank) ∧ ¬ TextsAll (twoAddresses .commaBlank) := by
  constructor
  · rw [mailsAll_iff_splitOnP]
    decide
  · rw [textsAll_iff_splitOnP]
    intro all
    have split := all (eventOf [])
    revert split
    decide +kernel

end Sentri.Modules
