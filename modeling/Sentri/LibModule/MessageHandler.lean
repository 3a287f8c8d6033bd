import Sentri.LibModule.Message

/-!
# The message handler

The functions by which modules build messages for the core, and the decoding
of the variables of a received message.  A message queue delivers messages
unchanged, so that sending is building the message.
-/

namespace Sentri.LibModule

open Sentri.Text

/-! ## Variables -/

/-- Split a variable at its first `=`; without one it is not clear what is the
key and what the value. -/
def parseVar (text : Str) : Option (Str × Str) :=
  let pos := text.findIdx (· = '=')
  if pos < text.length then
    some (text.take pos, text.drop (pos + 1))
  else
    none

/-- The map of a comma separated list of variables.  An earlier variable wins
over a later one with the same key. -/
def parseVars (vars : Str) : StrMap :=
  insertFirst ∅ ((vars.splitOn ',').filterMap parseVar)

/-- The text of one variable. -/
def encodeVar (entry : Str × Str) : Str :=
  entry.1 ++ '=' :: entry.2

/-- The text of a list of variables: `key1=value1,key2=value2,...`. -/
def encodeVars (entries : List (Str × Str)) : Str :=
  [','].intercalate (entries.map encodeVar)

/-- A variable that can be written down: no separator in its key, no comma in
its value. -/
structure Encodable (entry : Str × Str) : Prop where
  key_comma : ',' ∉ entry.1
  key_equals : '=' ∉ entry.1
  value_comma : ',' ∉ entry.2

instance (entry : Str × Str) : Decidable (Encodable entry) :=
  decidable_of_iff (',' ∉ entry.1 ∧ '=' ∉ entry.1 ∧ ',' ∉ entry.2)
    ⟨fun ⟨key, equals, value⟩ => ⟨key, equals, value⟩,
      fun ⟨key, equals, value⟩ => ⟨key, equals, value⟩⟩

theorem parseVar_append {key : Str} (noEquals : '=' ∉ key) (value : Str) :
    parseVar (key ++ '=' :: value) = some (key, value) := by
  have noMatch : ∀ c ∈ key, decide (c = '=') = false := by
    rintro c member
    simpa using fun equal : c = '=' => noEquals (equal ▸ member)
  have keyEnd : key.findIdx (· = '=') = key.length := List.findIdx_eq_length.mpr noMatch
  have pos : (key ++ '=' :: value).findIdx (· = '=') = key.length := by
    rw [List.findIdx_append, keyEnd, if_neg (lt_irrefl _), List.findIdx_cons]
    simp
  simp [parseVar, pos]

theorem Encodable.parseVar_encodeVar {entry : Str × Str} (encodable : Encodable entry) :
    parseVar (encodeVar entry) = some entry :=
  parseVar_append encodable.key_equals entry.2

theorem Encodable.comma_notMem {entry : Str × Str} (encodable : Encodable entry) :
    ',' ∉ encodeVar entry := by
  simp [encodeVar, encodable.key_comma, encodable.value_comma]

theorem encodeVars_cons_cons (first second : Str × Str) (rest : List (Str × Str)) :
    encodeVars (first :: second :: rest) =
      encodeVar first ++ ',' :: encodeVars (second :: rest) := by
  simp [encodeVars, List.intercalate_cons_cons]

theorem nul_notMem_encodeVars {entries : List (Str × Str)}
    (noNul : ∀ entry ∈ entries, nul ∉ entry.1 ∧ nul ∉ entry.2) :
    nul ∉ encodeVars entries := by
  have free : ∀ entry ∈ entries, nul ∉ encodeVar entry := by
    rintro entry member
    obtain ⟨inKey, inValue⟩ := noNul entry member
    rw [encodeVar, List.mem_append, List.mem_cons, not_or, not_or]
    exact ⟨inKey, by decide, inValue⟩
  clear noNul
  induction entries with
  | nil => simp [encodeVars]
  | cons first rest ih =>
      cases rest with
      | nil => simpa [encodeVars] using free first List.mem_cons_self
      | cons second rest =>
          rw [encodeVars_cons_cons, List.mem_append, List.mem_cons, not_or, not_or]
          exact ⟨free first List.mem_cons_self, by decide,
            ih fun entry member => free entry (List.mem_cons_of_mem _ member)⟩

/-- Decoding gives back the encoded list, inserted in its order. -/
theorem parseVars_encodeVars {entries : List (Str × Str)}
    (encodable : ∀ entry ∈ entries, Encodable entry) :
    parseVars (encodeVars entries) = insertFirst ∅ entries := by
  cases entries with
  | nil => decide
  | cons first rest =>
      have split : (encodeVars (first :: rest)).splitOn ',' =
          (first :: rest).map encodeVar := by
        apply List.splitOn_intercalate
        · rintro text member
          obtain ⟨entry, entryMember, rfl⟩ := List.mem_map.mp member
          exact (encodable entry entryMember).comma_notMem
        · simp
      have parsed : ((first :: rest).map encodeVar).filterMap parseVar = first :: rest := by
        rw [List.filterMap_map, List.filterMap_congr (g := some), List.filterMap_some]
        rintro entry member
        exact (encodable entry member).parseVar_encodeVar
      rw [parseVars, split, parsed]

/-- A comma in the value of the first variable ends the value. -/
theorem getElem?_parseVars_comma {key value : Str} (noComma : ',' ∉ key)
    (noEquals : '=' ∉ key) (valueComma : ',' ∉ value) (rest : Str) :
    (parseVars (key ++ '=' :: (value ++ ',' :: rest)))[key]? = some value := by
  have first : ∀ c ∈ key ++ '=' :: value, (c == ',') = false := by
    rintro c member
    rcases List.mem_append.mp member with inKey | inRest
    · simpa using fun equal : c = ',' => noComma (equal ▸ inKey)
    · rcases List.mem_cons.mp inRest with rfl | inValue
      · decide
      · simpa using fun equal : c = ',' => valueComma (equal ▸ inValue)
  have split : (key ++ '=' :: (value ++ ',' :: rest)).splitOn ',' =
      (key ++ '=' :: value) :: rest.splitOn ',' := by
    have shape : key ++ '=' :: (value ++ ',' :: rest) =
        (key ++ '=' :: value) ++ ',' :: rest := by simp
    rw [shape, List.splitOn_eq_splitOnP, List.splitOnP_append_cons_of_forall_mem first _ (by simp)]
    rfl
  rw [parseVars, split, List.filterMap_cons, parseVar_append noEquals, getElem?_insertFirst]
  simp

/-! ## Messages of a module -/

namespace MessageHandler

def sendEventMessage (ruleId : RuleID) (vars : Str) : Message :=
  .msgEvent ⟨ruleId, snprintf msgVarSize vars⟩

def acknowledgeEvent (id : EventID) : Message :=
  .msgAckac id

def sendHeartbeat (name : Str) : Message :=
  .msgHbeat (snprintf msgModNameSize name)

/-- The longest time between two heartbeats, in milliseconds. -/
def maxHeartbeatInterval : UInt32 :=
  15000

def setHeartbeatInterval (module : Str) (interval : UInt32) : Message :=
  .msgHbint (snprintf msgModNameSize module)
    (if interval > maxHeartbeatInterval then maxHeartbeatInterval else interval)

def log (module : Str) (severity : LogSeverity) (logMessage : Str) : Message :=
  .msgLog (snprintf msgModNameSize module) severity (snprintf msgLogSize logMessage)

/-- The map that `receiveMessageBlocking` and `receiveMessageNonBlocking` fill
for a received message. -/
def receivedVars : Message → StrMap
  | .msgEvent event => parseVars event.vars.text
  | .msgActio action => parseVars action.vars.text
  | .msgAckev action => parseVars action.vars.text
  | .msgEvabt action => parseVars action.vars.text
  | _ => parseVars []

theorem receivedVars_of_action {message : Message} {body : ActionBody}
    (bodyEq : message.action? = some body) :
    receivedVars message = parseVars body.vars.text := by
  cases message <;> simp_all [Message.action?, receivedVars]

end MessageHandler

namespace ModuleLogger

def systemMessage (message : Str) : Message :=
  .msgSys (snprintf msgVarSize message)

end ModuleLogger

namespace Module

/-- Replace `%key` by its value for every variable, in the order of the keys. -/
def replaceVars (text : Str) (varsMap : StrMap) : Str :=
  varsMap.toList.foldl
    (fun result entry => replaceAll result ('%' :: entry.1) entry.2) text

end Module

end Sentri.LibModule
