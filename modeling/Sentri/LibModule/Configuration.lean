import Mathlib.Data.List.Forall2
import Mathlib.Data.List.Nodup
import Sentri.LibModule.Json
import Sentri.LibModule.Message

/-!
# Loading the configuration of a module

The configuration loader merges what the user configured with the defaults of the
module.  The first loop keeps the first value of a key, the second one overwrites
empty values.
-/

namespace Sentri.LibModule

open Sentri.Text

open Json (Value Object)

/-- The files of a module, and the parsed contents of its `.config` and `.info` file. -/
structure ConfigDocuments where
  moduleConfigFile : Str
  moduleInfoFile : Str
  parser : Object
  defaultParser : Object

namespace ConfigDocuments

/-- The loop over what the user configured, which ends at the first value that is no
object. -/
def readUser (outMap : StrMap) : List Value → Except Int StrMap
  | .object userConf :: left => do
      let key ← Object.get Value.string? userConf "key".toList
      let value ← Object.get Value.string? userConf "value".toList
      readUser (outMap.insertIfNew key value) left
  | _ => .ok outMap

/-- The loop over the defaults.  A default is only read where it is needed. -/
def readDefaults (outMap : StrMap) : List Value → Except Int StrMap
  | .object defaultConf :: left => do
      let defaultKey ← Object.get Value.string? defaultConf "key".toList
      if outMap[defaultKey]? = some [] then
        let default ← Object.get Value.string? defaultConf "default".toList
        readDefaults (outMap.insert defaultKey default) left
      else if defaultKey ∉ outMap then
        let default ← Object.get Value.string? defaultConf "default".toList
        readDefaults (outMap.insertIfNew defaultKey default) left
      else
        readDefaults outMap left
  | _ => .ok outMap

/-- One of the loops on its document, which may have no configuration. -/
def readArray (read : StrMap → List Value → Except Int StrMap) (document : Object)
    (outMap : StrMap) : Except Int StrMap :=
  match document.find Value.array? "configuration".toList with
  | some values => read outMap values
  | none => .ok outMap

/-- The message about a document without configuration. -/
def missing (document : Object) (severity : LogSeverity) (text : Str) : List (LogSeverity × Str) :=
  match document.find Value.array? "configuration".toList with
  | some _ => []
  | none => [(severity, text)]

/-- The log messages, and the configuration unless the program ends. -/
def getConfig (documents : ConfigDocuments) : List (LogSeverity × Str) × Option StrMap :=
  let userLog := missing documents.parser .info
    ("Missing or corrupted .config-File: ".toList ++ documents.moduleConfigFile)
  let defaultLog := missing documents.defaultParser .error
    ("Missing or corrupted .info-File: ".toList ++ documents.moduleInfoFile)
  let fatal := (.fatal, "It occured an error while reading a configuration.".toList)
  match readArray readUser documents.parser ∅ with
  | .error _ => (userLog ++ [fatal], none)
  | .ok userMap =>
      match readArray readDefaults documents.defaultParser userMap with
      | .error _ => (userLog ++ defaultLog ++ [fatal], none)
      | .ok outMap => (userLog ++ defaultLog, some outMap)

/-! ## Configuration entries -/

/-- A configuration object with string fields. -/
def Entry (field : Str) (value : Value) (entry : Str × Str) : Prop :=
  ∃ conf : Object, value = .object conf ∧ conf.find Value.string? "key".toList = some entry.1 ∧
    conf.find Value.string? field = some entry.2

/-- The entries of the configuration array of a document, which may be missing. -/
def Lists (document : Object) (field : Str) (entries : List (Str × Str)) : Prop :=
  match document.find Value.array? "configuration".toList with
  | some values => List.Forall₂ (Entry field) values entries
  | none => entries = []

/-- An empty value gives way to a default. -/
def fillDefault (outMap : StrMap) (entry : Str × Str) : StrMap :=
  if outMap[entry.1]?.getD [] = [] then outMap.insert entry.1 entry.2 else outMap

def fillDefaults (outMap : StrMap) (entries : List (Str × Str)) : StrMap :=
  entries.foldl fillDefault outMap

/-- The first default of a key that is not empty, and the empty string without one. -/
def firstDefault (entries : List (Str × Str)) (key : Str) : Str :=
  ((entries.find? fun entry => entry.1 = key ∧ entry.2 ≠ []).map Prod.snd).getD []

/-- The first value of the user unless it is empty, else the default. -/
def setting (user defaults : List (Str × Str)) (key : Str) : Str :=
  match user.lookup key with
  | some (c :: value) => c :: value
  | _ => firstDefault defaults key

/-! ## The loops on entries -/

theorem get_of_find {α : Type} {as : Value → Option α} {object : Object} {key : Str} {value : α}
    (found : object.find as key = some value) : object.get as key = .ok value := by
  unfold Object.get
  rw [found]

theorem readUser_of_entries {values : List Value} {entries : List (Str × Str)}
    (listed : List.Forall₂ (Entry "value".toList) values entries) (outMap : StrMap) :
    readUser outMap values = .ok (insertFirst outMap entries) := by
  induction listed generalizing outMap with
  | nil => rfl
  | cons head _ ih =>
      rcases head with ⟨conf, rfl, keyFound, valueFound⟩
      rw [readUser, get_of_find keyFound, get_of_find valueFound]
      exact ih _

/-- The cases of the loop over the defaults are one. -/
theorem readDefaults_of_entries {values : List Value} {entries : List (Str × Str)}
    (listed : List.Forall₂ (Entry "default".toList) values entries) (outMap : StrMap) :
    readDefaults outMap values = .ok (fillDefaults outMap entries) := by
  induction listed generalizing outMap with
  | nil => rfl
  | @cons _ entry _ _ head _ ih =>
      rcases head with ⟨conf, rfl, keyFound, defaultFound⟩
      rw [readDefaults, get_of_find keyFound, get_of_find defaultFound, fillDefaults,
        List.foldl_cons, ← fillDefaults]
      change (if outMap[entry.1]? = some [] then readDefaults (outMap.insert entry.1 entry.2) _
        else if entry.1 ∉ outMap then readDefaults (outMap.insertIfNew entry.1 entry.2) _
        else readDefaults outMap _) = _
      by_cases present : entry.1 ∈ outMap
      · by_cases empty : outMap[entry.1]? = some []
        · rw [if_pos empty, ih, fillDefault, empty]
          rfl
        · have kept : outMap[entry.1]?.getD [] ≠ [] := by
            rw [Std.ExtTreeMap.getElem?_eq_some_getElem present] at empty ⊢
            simpa using empty
          rw [if_neg empty, if_neg (not_not.mpr present), ih, fillDefault, if_neg kept]
      · have absent := Std.ExtTreeMap.getElem?_eq_none present
        rw [if_neg (by simp [absent]), if_pos present, ih, fillDefault, absent]
        have same : outMap.insertIfNew entry.1 entry.2 = outMap.insert entry.1 entry.2 := by
          apply Std.ExtTreeMap.ext_getElem?
          intro key
          rw [Std.ExtTreeMap.getElem?_insertIfNew, Std.ExtTreeMap.getElem?_insert]
          simp [present]
        rw [same]
        rfl

/-- The keys after the defaults. -/
theorem mem_fillDefaults (outMap : StrMap) (entries : List (Str × Str)) (key : Str) :
    key ∈ fillDefaults outMap entries ↔ key ∈ outMap ∨ key ∈ entries.map Prod.fst := by
  induction entries generalizing outMap with
  | nil => simp [fillDefaults]
  | cons entry entries ih =>
      rw [fillDefaults, List.foldl_cons, ← fillDefaults, ih, fillDefault]
      by_cases empty : outMap[entry.1]?.getD [] = []
      · rw [if_pos empty, Std.ExtTreeMap.mem_insert]
        simp only [Std.LawfulEqCmp.compare_eq_iff_eq, List.map_cons, List.mem_cons]
        tauto
      · have present : entry.1 ∈ outMap := by
          by_contra absent
          rw [Std.ExtTreeMap.getElem?_eq_none absent] at empty
          exact empty rfl
        rw [if_neg empty, List.map_cons, List.mem_cons]
        constructor
        · rintro (old | new)
          · exact Or.inl old
          · exact Or.inr (Or.inr new)
        · rintro (old | rfl | new)
          · exact Or.inl old
          · exact Or.inl present
          · exact Or.inr new

theorem firstDefault_cons (entry : Str × Str) (entries : List (Str × Str)) (key : Str) :
    firstDefault (entry :: entries) key =
      if entry.1 = key ∧ entry.2 ≠ [] then entry.2 else firstDefault entries key := by
  unfold firstDefault
  by_cases own : entry.1 = key ∧ entry.2 ≠ []
  · rw [List.find?_cons_of_pos (by simpa using own), if_pos own]
    rfl
  · rw [List.find?_cons_of_neg (by simpa using own), if_neg own]

/-- The values after the defaults: an empty one is the first default. -/
theorem getD_fillDefaults (outMap : StrMap) (entries : List (Str × Str)) (key : Str) :
    (fillDefaults outMap entries)[key]?.getD [] =
      if outMap[key]?.getD [] = [] then firstDefault entries key else outMap[key]?.getD [] := by
  induction entries generalizing outMap with
  | nil =>
      change outMap[key]?.getD [] = _
      split
      case isTrue empty => exact empty
      case isFalse => rfl
  | cons entry entries ih =>
      rw [fillDefaults, List.foldl_cons, ← fillDefaults, ih, firstDefault_cons, fillDefault]
      by_cases own : entry.1 = key
      · subst own
        by_cases empty : outMap[entry.1]?.getD [] = []
        · rw [if_pos empty, if_pos empty, Std.ExtTreeMap.getElem?_insert_self]
          by_cases unset : entry.2 = [] <;> simp [unset]
        · simp only [if_neg empty]
      · have untouched : (if outMap[entry.1]?.getD [] = [] then outMap.insert entry.1 entry.2
            else outMap)[key]? = outMap[key]? := by
          split
          case isTrue =>
              rw [Std.ExtTreeMap.getElem?_insert, if_neg]
              simpa using own
          case isFalse => rfl
        rw [untouched, if_neg (fun both : entry.1 = key ∧ _ => own both.1)]

/-! ## The merged configuration -/

theorem readArray_user {document : Object} {entries : List (Str × Str)}
    (listed : Lists document "value".toList entries) :
    readArray readUser document ∅ = .ok (insertFirst ∅ entries) := by
  unfold Lists at listed
  unfold readArray
  cases found : document.find Value.array? "configuration".toList with
  | none =>
      rw [found] at listed
      cases listed
      rfl
  | some values =>
      rw [found] at listed
      exact readUser_of_entries listed ∅

theorem readArray_defaults {document : Object} {entries : List (Str × Str)}
    (listed : Lists document "default".toList entries) (outMap : StrMap) :
    readArray readDefaults document outMap = .ok (fillDefaults outMap entries) := by
  unfold Lists at listed
  unfold readArray
  cases found : document.find Value.array? "configuration".toList with
  | none =>
      rw [found] at listed
      cases listed
      rfl
  | some values =>
      rw [found] at listed
      exact readDefaults_of_entries listed outMap

/-- What is loaded from two documents with string fields. -/
def merged (user defaults : List (Str × Str)) : StrMap :=
  fillDefaults (insertFirst ∅ user) defaults

theorem getConfig_eq_merged {documents : ConfigDocuments} {user defaults : List (Str × Str)}
    (userListed : Lists documents.parser "value".toList user)
    (defaultsListed : Lists documents.defaultParser "default".toList defaults) :
    documents.getConfig.2 = some (merged user defaults) := by
  unfold getConfig
  rw [readArray_user userListed]
  simp only [readArray_defaults defaultsListed]
  rfl

theorem mem_merged (user defaults : List (Str × Str)) (key : Str) :
    key ∈ merged user defaults ↔ key ∈ user.map Prod.fst ∨ key ∈ defaults.map Prod.fst := by
  rw [merged, mem_fillDefaults, Std.ExtTreeMap.mem_iff_isSome_getElem?, getElem?_insertFirst]
  have looked : (((∅ : StrMap)[key]?).or (user.lookup key)).isSome ↔ key ∈ user.map Prod.fst := by
    simp only [Std.ExtTreeMap.getElem?_empty, Option.none_or, List.lookup_isSome_iff,
      List.mem_map, beq_iff_eq]
    exact exists_congr fun entry => and_congr_right fun _ => eq_comm
  rw [looked]

theorem merged_getElem? {user defaults : List (Str × Str)} {key : Str}
    (present : key ∈ merged user defaults) :
    (merged user defaults)[key]? = some (setting user defaults key) := by
  have value := getD_fillDefaults (insertFirst ∅ user) defaults key
  rw [← merged, Std.ExtTreeMap.getElem?_eq_some_getElem present, getElem?_insertFirst] at value
  rw [Std.ExtTreeMap.getElem?_eq_some_getElem present]
  congr 1
  rw [Option.getD_some] at value
  rw [value, setting]
  rcases user.lookup key with _ | _ | ⟨c, text⟩ <;> simp

/-! ## Order of the entries -/

/-- In a list with different keys, the value of a key is that of its only entry. -/
theorem lookup_eq_some_iff_mem {entries : List (Str × Str)} (nodup : (entries.map Prod.fst).Nodup)
    (key value : Str) : entries.lookup key = some value ↔ (key, value) ∈ entries := by
  induction entries with
  | nil => simp
  | cons entry entries ih =>
      rw [List.map_cons, List.nodup_cons] at nodup
      rcases nodup with ⟨fresh, nodup⟩
      rcases entry with ⟨first, text⟩
      rw [List.lookup_cons]
      by_cases own : key = first
      · subst own
        have notLater : (key, value) ∉ entries := fun later =>
          fresh (List.mem_map.mpr ⟨_, later, rfl⟩)
        simp [notLater, eq_comm]
      · have different : (key == first) = false := by simpa using own
        rw [different]
        simp [own, ih nodup]

theorem lookup_perm {entries entries' : List (Str × Str)} (perm : entries.Perm entries')
    (nodup : (entries.map Prod.fst).Nodup) (key : Str) :
    entries.lookup key = entries'.lookup key := by
  have nodup' := (perm.map Prod.fst).nodup_iff.mp nodup
  apply Option.ext
  intro value
  rw [lookup_eq_some_iff_mem nodup, lookup_eq_some_iff_mem nodup', perm.mem_iff]

/-- With different keys, the first default is the only one. -/
theorem firstDefault_eq_lookup {entries : List (Str × Str)}
    (nodup : (entries.map Prod.fst).Nodup) (key : Str) :
    firstDefault entries key = (entries.lookup key).getD [] := by
  induction entries with
  | nil => rfl
  | cons entry entries ih =>
      rw [List.map_cons, List.nodup_cons] at nodup
      rcases nodup with ⟨fresh, nodup⟩
      rcases entry with ⟨first, text⟩
      rw [firstDefault_cons, ih nodup, List.lookup_cons]
      by_cases own : first = key
      · subst own
        have later : entries.lookup first = none := by
          rw [List.lookup_eq_none_iff]
          intro other member
          simpa using fun equal : first = other.1 =>
            fresh (equal ▸ List.mem_map.mpr ⟨_, member, rfl⟩)
        by_cases unset : text = [] <;> simp [unset, later]
      · have different : (key == first) = false := by simpa using Ne.symm own
        simp [own, different]

theorem merged_perm {user user' defaults defaults' : List (Str × Str)}
    (userPerm : user.Perm user') (defaultsPerm : defaults.Perm defaults')
    (userNodup : (user.map Prod.fst).Nodup) (defaultsNodup : (defaults.map Prod.fst).Nodup) :
    merged user defaults = merged user' defaults' := by
  have defaultsNodup' := (defaultsPerm.map Prod.fst).nodup_iff.mp defaultsNodup
  have sameKeys : ∀ key, key ∈ merged user defaults ↔ key ∈ merged user' defaults' := by
    intro key
    rw [mem_merged, mem_merged, (userPerm.map Prod.fst).mem_iff,
      (defaultsPerm.map Prod.fst).mem_iff]
  apply Std.ExtTreeMap.ext_getElem?
  intro key
  by_cases present : key ∈ merged user defaults
  · rw [merged_getElem? present, merged_getElem? ((sameKeys key).mp present), setting, setting,
      lookup_perm userPerm userNodup, firstDefault_eq_lookup defaultsNodup,
      firstDefault_eq_lookup defaultsNodup', lookup_perm defaultsPerm defaultsNodup]
  · rw [Std.ExtTreeMap.getElem?_eq_none present,
      Std.ExtTreeMap.getElem?_eq_none (fun other => present ((sameKeys key).mpr other))]

/-- The configuration has the keys of both documents, each with the first value of
the user, or the first default where it is empty.  Without repeated keys the order
of the entries does not matter. -/
theorem config_merged {documents : ConfigDocuments} {user defaults : List (Str × Str)}
    (userListed : Lists documents.parser "value".toList user)
    (defaultsListed : Lists documents.defaultParser "default".toList defaults) :
    ∃ config, documents.getConfig.2 = some config ∧
      (∀ key, key ∈ config ↔ key ∈ user.map Prod.fst ∨ key ∈ defaults.map Prod.fst) ∧
      (∀ key ∈ config, config[key]? = some (setting user defaults key)) ∧
      ∀ (documents' : ConfigDocuments) (user' defaults' : List (Str × Str)),
        Lists documents'.parser "value".toList user' →
        Lists documents'.defaultParser "default".toList defaults' →
        user.Perm user' → defaults.Perm defaults' →
        (user.map Prod.fst).Nodup → (defaults.map Prod.fst).Nodup →
        documents'.getConfig.2 = some config := by
  refine ⟨merged user defaults, getConfig_eq_merged userListed defaultsListed,
    mem_merged user defaults, fun key present => merged_getElem? present, ?_⟩
  intro documents' user' defaults' userListed' defaultsListed' userPerm defaultsPerm userNodup
    defaultsNodup
  rw [merged_perm userPerm defaultsPerm userNodup defaultsNodup]
  exact getConfig_eq_merged userListed' defaultsListed'

/-- An entry of a document. -/
def entryOf (field : String) (entry : String × String) : Value :=
  .object [("key".toList, .string entry.1.toList), (field.toList, .string entry.2.toList)]

/-- A host that the user has given twice, an interval that is left empty, and a port of which
the info file first has no default. -/
def repeatedKeys : ConfigDocuments where
  moduleConfigFile := "module.config".toList
  moduleInfoFile := "module.info".toList
  parser := [("configuration".toList, .array
    ([("interval", ""), ("host", "first"), ("host", "second")].map (entryOf "value")))]
  defaultParser := [("configuration".toList, .array
    ([("port", ""), ("interval", "60"), ("port", "80"), ("port", "8080")].map
      (entryOf "default")))]

theorem config_merged_repeatedKeys :
    ∃ config, repeatedKeys.getConfig.2 = some config ∧
      config["interval".toList]? = some "60".toList ∧
      config["host".toList]? = some "first".toList ∧
      config["port".toList]? = some "80".toList ∧ "other".toList ∉ config := by
  have user : Lists repeatedKeys.parser "value".toList
      [("interval".toList, []), ("host".toList, "first".toList),
        ("host".toList, "second".toList)] :=
    .cons ⟨_, rfl, rfl, rfl⟩ (.cons ⟨_, rfl, rfl, rfl⟩ (.cons ⟨_, rfl, rfl, rfl⟩ .nil))
  have defaults : Lists repeatedKeys.defaultParser "default".toList
      [("port".toList, []), ("interval".toList, "60".toList), ("port".toList, "80".toList),
        ("port".toList, "8080".toList)] :=
    .cons ⟨_, rfl, rfl, rfl⟩ (.cons ⟨_, rfl, rfl, rfl⟩
      (.cons ⟨_, rfl, rfl, rfl⟩ (.cons ⟨_, rfl, rfl, rfl⟩ .nil)))
  rcases config_merged user defaults with ⟨config, loaded, keys, values, _⟩
  refine ⟨config, loaded, ?_, ?_, ?_, ?_⟩
  · exact values _ ((keys _).mpr (Or.inl (by decide)))
  · exact values _ ((keys _).mpr (Or.inl (by decide)))
  · exact values _ ((keys _).mpr (Or.inr (by decide)))
  · intro present
    have known := (keys _).mp present
    revert known
    decide

end ConfigDocuments

end Sentri.LibModule
