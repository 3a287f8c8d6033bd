import Sentri.LibModule.Substitution
import Sentri.Modules.Mail.Module
import Sentri.Text.Replace
import Sentri.Text.Split

/-!
# Attachments of a mail

The attachments of an action are configured as the names of variables.  The module
replaces every key of the event in the whole configuration, one after the other, and
splits the result at the commas.  As neither keys nor values have commas, this is done
to every name by itself.
-/

namespace Sentri.Modules.Mail

open Sentri.LibModule Sentri.Text

/-- The name of a variable as it can be configured. -/
structure VarName where
  text : Str
  noComma : ',' ∉ text

/-- The configuration for some names. -/
def configured (names : List VarName) : Str :=
  [','].intercalate (names.map VarName.text)

/-- The action of an event is a mail with the configured names as attachments. -/
structure Mails (module : MailModule) (body : ActionBody) (names : List VarName)
    (action : ActionInfo) : Prop where
  found : lookupAction module.rules body.ruleId = some action
  own : action.key = actionTitle
  configured : action.configuration.getD "attachments".toList [] = configured names

/-- The vectors of attachments that were handed to `sendMail`. -/
def handedAttachments (outputs : List Output) : List (List Str) :=
  outputs.filterMap fun
    | .mail outgoing _ => some outgoing.attachments
    | .sent _ => none

/-- The values of the names that are variables of the event. -/
def files (vars : StrMap) (names : List VarName) : List Str :=
  names.filterMap fun name => vars[name.text]?

/-- What stands between the commas after some keys were replaced. -/
def stage (names : List VarName) (entries : List (Str × Str)) : List Str :=
  (replaceKeys entries (configured names)).splitOn ','

/-- The replacement of a key changes nothing but what stands for its name. -/
def Unaltered (vars : StrMap) (names : List VarName) : Prop :=
  ∀ before key value after, vars.toList = before ++ (key, value) :: after →
    ∀ (i : Nat) (name : VarName), names[i]? = some name → key ≠ name.text →
      (stage names (before ++ [(key, value)]))[i]? = (stage names before)[i]?

/-- No other key gets in the way of a name: a key before it in the order of the map does
not occur in the name, and one after it does not occur in its value.  An empty key is
never found, and a key may be replaced by itself. -/
structure Apart (vars : StrMap) (name value : Str) : Prop where
  own : vars[name]? = some value
  empty : name = [] → value = []
  others : ∀ key other : Str, vars[key]? = some other → key ≠ name → key ≠ [] →
    other = key ∨ occurs key (if compare key name = .lt then name else value) = false

/-! ## One name -/

theorem replaceKey_eq_self_iff {text key value : Str} :
    replaceKey text key value = text ↔ key = [] ∨ value = key ∨ occurs key text = false := by
  by_cases empty : key = []
  · simp [replaceKey, empty]
  · rw [replaceKey, if_neg empty, replaceAll_eq_self_iff empty]
    simp [empty]

theorem replaceKey_own (name value : Str) :
    replaceKey name name value = if name = [] then [] else value := by
  by_cases empty : name = []
  · simp [replaceKey, empty]
  · have hit := @replaceFrom_hit name value empty []
    rw [List.append_nil] at hit
    rw [replaceKey, if_neg empty, if_neg empty, replaceAll, hit]
    exact List.append_nil value

theorem replaceKeys_concat (entries : List (Str × Str)) (entry : Str × Str) (text : Str) :
    replaceKeys (entries ++ [entry]) text =
      replaceKey (replaceKeys entries text) entry.1 entry.2 := by
  simp [replaceKeys]

/-- What stands for a name after some keys. -/
def standing (name value : Str) (entries : List (Str × Str)) : Str :=
  if (name, value) ∈ entries then value else name

section

variable {vars : StrMap} {name value : Str}

/-- The replacement of another key leaves what stands for a name as it is. -/
def Quiet (vars : StrMap) (name value : Str) : Prop :=
  ∀ before key other after, vars.toList = before ++ (key, other) :: after → key ≠ name →
    replaceKeys before name = standing name value before →
      replaceKey (standing name value before) key other = standing name value before

/-- If the replacement of every other key leaves what stands for a name as it is, the
replacement of all keys gives its value. -/
theorem Quiet.replaceKeys_eq (quiet : Quiet vars name value) (own : vars[name]? = some value)
    (empty : name = [] → value = [])
    {entries rest : List (Str × Str)} (split : vars.toList = entries ++ rest) :
    replaceKeys entries name = standing name value entries := by
  induction entries using List.reverseRecOn generalizing rest with
  | nil => rfl
  | append_singleton entries entry ih =>
      rcases entry with ⟨key, other⟩
      rw [List.append_assoc, List.singleton_append] at split
      have before := ih split
      have present := Module.getElem?_of_split split
      rw [replaceKeys_concat, before]
      by_cases same : key = name
      · subst same
        obtain rfl : other = value := Option.some.inj (present.symm.trans own)
        have absent : (key, other) ∉ entries := fun member =>
          Module.key_notMem split (List.mem_map_of_mem member)
        have last : (key, other) ∈ entries ++ [(key, other)] := by simp
        rw [standing, standing, if_neg absent, if_pos last, replaceKey_own]
        split
        · next nameless => exact (empty nameless).symm
        · rfl
      · rw [quiet entries key other rest split same before]
        simp [standing, Ne.symm same]

/-- An entry has been replaced before a key if and only if the key comes behind it. -/
theorem mem_before_iff {before after : List (Str × Str)} {key other : Str}
    (own : vars[name]? = some value) (split : vars.toList = before ++ (key, other) :: after)
    (different : key ≠ name) : (name, value) ∈ before ↔ compare key name ≠ .lt := by
  have ordered := vars.ordered_keys_toList
  have member : (name, value) ∈ vars.toList :=
    Std.ExtTreeMap.mem_toList_iff_getElem?_eq_some.mpr own
  rw [split] at ordered member
  constructor
  · intro early
    have less := (List.pairwise_append.mp ordered).2.2 _ early _ List.mem_cons_self
    rw [Std.OrientedCmp.gt_of_lt less]
    decide
  · intro notLess
    rcases List.mem_append.mp member with early | rest
    · exact early
    · rcases List.mem_cons.mp rest with same | late
      · exact absurd (congrArg Prod.fst same).symm different
      · have behind := (List.pairwise_append.mp ordered).2.1
        exact absurd ((List.pairwise_cons.mp behind).1 _ late) notLess

theorem replaceKeys_nil (entries : List (Str × Str)) : replaceKeys entries [] = [] := by
  induction entries with
  | nil => rfl
  | cons entry entries ih =>
      have same : replaceKey [] entry.1 entry.2 = [] := by
        unfold replaceKey
        split <;> rfl
      rw [replaceKeys, List.foldl_cons, same]
      exact ih

theorem Apart.quiet (apart : Apart vars name value) : Quiet vars name value := by
  intro before key other after split different _
  rw [replaceKey_eq_self_iff]
  by_cases nameless : key = []
  · exact .inl nameless
  · have free := apart.others key other (Module.getElem?_of_split split) different nameless
    have early := mem_before_iff apart.own split different
    right
    by_cases less : compare key name = .lt
    · simpa [standing, early, less] using free
    · simpa [standing, early, less] using free

theorem Quiet.apart (quiet : Quiet vars name value) (own : vars[name]? = some value)
    (empty : name = [] → value = []) : Apart vars name value := by
  constructor
  · exact own
  · exact empty
  · intro key other present different nonempty
    rcases List.append_of_mem (Std.ExtTreeMap.mem_toList_iff_getElem?_eq_some.mpr present)
      with ⟨before, after, split⟩
    have stands := quiet.replaceKeys_eq own empty split
    have early := mem_before_iff own split different
    have free := (replaceKey_eq_self_iff.mp
      (quiet before key other after split different stands)).resolve_left nonempty
    by_cases less : compare key name = .lt
    · simpa [standing, early, less] using free
    · simpa [standing, early, less] using free

/-- Names that are apart from the other keys are replaced by their values, and no other key
changes what stands for them; and the other way round. -/
theorem apart_iff (own : vars[name]? = some value) :
    Apart vars name value ↔ replaceKeys vars.toList name = value ∧
      ∀ before key other after, vars.toList = before ++ (key, other) :: after → key ≠ name →
        replaceKeys (before ++ [(key, other)]) name = replaceKeys before name := by
  have member : (name, value) ∈ vars.toList :=
    Std.ExtTreeMap.mem_toList_iff_getElem?_eq_some.mpr own
  constructor
  · intro apart
    constructor
    · have whole := apart.quiet.replaceKeys_eq own apart.empty (List.append_nil _).symm
      rw [whole, standing, if_pos member]
    · intro before key other after split different
      have stands := apart.quiet.replaceKeys_eq own apart.empty split
      rw [replaceKeys_concat, stands]
      exact apart.quiet before key other after split different stands
  · rintro ⟨whole, unchanged⟩
    have quiet : Quiet vars name value := by
      intro before key other after split different stands
      have step := unchanged before key other after split different
      rwa [replaceKeys_concat, stands] at step
    apply quiet.apart own
    rintro rfl
    rw [← whole, replaceKeys_nil]

end

/-! ## All names -/

/-- Keys and values of an event have no commas. -/
theorem noComma_receivedVars {body : ActionBody} {key value : Str}
    (present : (MessageHandler.receivedVars (.msgActio body))[key]? = some value) :
    ',' ∉ key ∧ ',' ∉ value := by
  rw [MessageHandler.receivedVars, parseVars, getElem?_insertFirst] at present
  have found : ((body.vars.text.splitOn ',').filterMap parseVar).lookup key = some value := by
    simpa using present
  rcases List.lookup_eq_some_iff.mp found with ⟨before, after, split, _⟩
  have member : (key, value) ∈ (body.vars.text.splitOn ',').filterMap parseVar := by
    rw [split]
    simp
  rcases List.mem_filterMap.mp member with ⟨text, piece, parsed⟩
  have free : ',' ∉ text := by
    intro inText
    have other := (mem_of_mem_splitOnP piece inText).2
    simp at other
  simp only [parseVar] at parsed
  split at parsed
  · cases parsed
    exact ⟨fun inKey => free (List.mem_of_mem_take inKey),
      fun inValue => free (List.mem_of_mem_drop inValue)⟩
  · cases parsed

/-- The replacement of keys without commas is done to every part. -/
theorem replaceKeys_intercalate {entries : List (Str × Str)}
    (noComma : ∀ entry ∈ entries, ',' ∉ entry.1) (parts : List Str) :
    replaceKeys entries ([','].intercalate parts) =
      [','].intercalate (parts.map (replaceKeys entries)) := by
  induction entries generalizing parts with
  | nil =>
      have same : parts.map (replaceKeys []) = parts := List.map_id parts
      rw [same]
      rfl
  | cons entry entries ih =>
      rcases List.forall_mem_cons.mp noComma with ⟨own, others⟩
      have first : replaceKey ([','].intercalate parts) entry.1 entry.2 =
          [','].intercalate (parts.map fun part => replaceKey part entry.1 entry.2) := by
        by_cases nameless : entry.1 = []
        · simp [replaceKey, nameless]
        · simp only [replaceKey, if_neg nameless]
          exact replaceAll_intercalate own nameless parts
      have rest := ih others (parts.map fun part => replaceKey part entry.1 entry.2)
      rw [List.map_map] at rest
      rw [replaceKeys, List.foldl_cons, first]
      exact rest

theorem noComma_replaceKeys {entries : List (Str × Str)}
    (noComma : ∀ entry ∈ entries, ',' ∉ entry.2) {part : Str} (free : ',' ∉ part) :
    ',' ∉ replaceKeys entries part := by
  induction entries generalizing part with
  | nil => exact free
  | cons entry entries ih =>
      rcases List.forall_mem_cons.mp noComma with ⟨own, others⟩
      have first : ',' ∉ replaceKey part entry.1 entry.2 := by
        unfold replaceKey
        split
        · exact free
        · exact fun member => (mem_replaceFrom member).elim free own
      exact ih others first

theorem stage_eq {names : List VarName} (nonempty : names ≠ []) {entries : List (Str × Str)}
    (noComma : ∀ entry ∈ entries, ',' ∉ entry.1 ∧ ',' ∉ entry.2) :
    stage names entries = names.map fun name => replaceKeys entries name.text := by
  rw [stage, configured, replaceKeys_intercalate fun entry member => (noComma entry member).1,
    List.map_map]
  apply List.splitOn_intercalate
  · intro part member
    rcases List.mem_map.mp member with ⟨name, _, rfl⟩
    exact noComma_replaceKeys (fun entry member => (noComma entry member).2) name.noComma
  · simpa using nonempty

theorem map_eq_filterMap_iff {α β : Type} {f : α → β} {g : α → Option β} {list : List α} :
    list.map f = list.filterMap g ↔ ∀ a ∈ list, g a = some (f a) := by
  induction list with
  | nil => simp
  | cons a list ih =>
      rw [List.forall_mem_cons]
      cases image : g a with
      | none =>
          have short := List.length_filterMap_le g list
          constructor
          · intro equal
            rw [List.filterMap_cons_none image] at equal
            have lengths := congrArg List.length equal
            simp at lengths
            omega
          · rintro ⟨impossible, _⟩
            cases impossible
      | some b =>
          rw [List.filterMap_cons_some image, List.map_cons, List.cons.injEq, ih,
            Option.some.injEq, eq_comm]

/-- Every name is looked at by itself. -/
theorem unaltered_iff {vars : StrMap} {names : List VarName} (nonempty : names ≠ [])
    (noComma : ∀ entry ∈ vars.toList, ',' ∉ entry.1 ∧ ',' ∉ entry.2) :
    Unaltered vars names ↔ ∀ name ∈ names, ∀ before key value after,
      vars.toList = before ++ (key, value) :: after → key ≠ name.text →
        replaceKeys (before ++ [(key, value)]) name.text = replaceKeys before name.text := by
  have stages : ∀ before key value after, vars.toList = before ++ (key, value) :: after →
      (stage names (before ++ [(key, value)]) =
        names.map fun name => replaceKeys (before ++ [(key, value)]) name.text) ∧
      stage names before = names.map fun name => replaceKeys before name.text := by
    intro before key value after split
    constructor
    · apply stage_eq nonempty
      intro entry member
      apply noComma
      rw [split, List.append_cons]
      exact List.mem_append_left _ member
    · apply stage_eq nonempty
      intro entry member
      apply noComma
      rw [split]
      exact List.mem_append_left _ member
  constructor
  · intro unaltered name member before key value after split different
    rcases List.mem_iff_getElem?.mp member with ⟨i, present⟩
    have same := unaltered before key value after split i name present different
    rw [(stages before key value after split).1, (stages before key value after split).2,
      List.getElem?_map, List.getElem?_map, present] at same
    exact Option.some.inj same
  · intro each before key value after split i name present different
    rw [(stages before key value after split).1, (stages before key value after split).2,
      List.getElem?_map, List.getElem?_map, present, Option.map_some, Option.map_some,
      each name (List.mem_of_getElem? present) before key value after split different]

/-- `takeAction` hands one vector to `sendMail`: what stands between the commas after all
keys were replaced. -/
theorem handedAttachments_takeAction (quickmail : Quickmail) {module : MailModule}
    {body : ActionBody} {names : List VarName} {action : ActionInfo}
    (mails : Mails module body names action) (vars : StrMap) :
    handedAttachments (takeAction quickmail module body vars).2.2 =
      [stage names vars.toList] := by
  have attached : (mailOf action vars).attachments = stage names vars.toList := by
    simp only [mailOf, attachments, mails.configured, stage]
  simp only [takeAction, mails.found, mails.own, if_true, sendMail]
  cases quickmail module.count module.settings (mailOf action vars).cStrings with
  | some errmsg => exact congrArg (fun vector => [vector]) attached
  | none => exact congrArg (fun vector => [vector]) attached

/-- The attachments that `takeAction` hands to `sendMail` are the files of the configured
names, in their order, if and only if there is a name and each of them is a variable of the
event that the replacement of all keys turns into its value.  They are, with no empty file
name and no key changing what stands for another name, if and only if there is a name and
each of them is a variable of the event with a value that is not empty, and apart from the
other keys. -/
theorem attachments_iff (quickmail : Quickmail) {module : MailModule} {body : ActionBody}
    {names : List VarName} {action : ActionInfo} (mails : Mails module body names action) :
    let vars := MessageHandler.receivedVars (.msgActio body)
    ∃ handed, handedAttachments (takeAction quickmail module body vars).2.2 = [handed] ∧
      (handed = files vars names ↔ names ≠ [] ∧ ∀ name ∈ names,
        vars[name.text]? = some (replaceKeys vars.toList name.text)) ∧
      (handed = files vars names ∧ Unaltered vars names ∧ [] ∉ handed ↔ names ≠ [] ∧
        ∀ name ∈ names, ∃ value, Apart vars name.text value ∧ value ≠ []) := by
  intro vars
  refine ⟨stage names vars.toList, handedAttachments_takeAction quickmail mails vars, ?_⟩
  generalize handedEq : stage names vars.toList = handed
  replace handedEq := handedEq.symm
  have noComma : ∀ entry ∈ vars.toList, ',' ∉ entry.1 ∧ ',' ∉ entry.2 := by
    intro entry member
    exact noComma_receivedVars (Std.ExtTreeMap.mem_toList_iff_getElem?_eq_some.mp member)
  by_cases nonempty : names = []
  · subst nonempty
    have empty : handed = [[]] := by
      rw [handedEq, stage, configured]
      change (replaceKeys vars.toList []).splitOn ',' = [[]]
      rw [replaceKeys_nil]
      rfl
    rw [empty]
    simp [files]
  · have each : handed = names.map fun name => replaceKeys vars.toList name.text := by
      rw [handedEq, stage_eq nonempty noComma]
    have right : handed = files vars names ↔ ∀ name ∈ names,
        vars[name.text]? = some (replaceKeys vars.toList name.text) := by
      rw [each, files, map_eq_filterMap_iff]
    have filled : [] ∉ handed ↔ ∀ name ∈ names, replaceKeys vars.toList name.text ≠ [] := by
      rw [each]
      simp
    constructor
    · rw [right, and_iff_right nonempty]
    · rw [right, unaltered_iff nonempty noComma, filled, and_iff_right nonempty,
        ← forall₂_and, ← forall₂_and]
      apply forall₂_congr
      intro name member
      constructor
      · rintro ⟨own, unchanged, full⟩
        exact ⟨_, (apart_iff own).mpr ⟨rfl, unchanged⟩, full⟩
      · rintro ⟨value, apart, full⟩
        rcases (apart_iff apart.own).mp apart with ⟨whole, unchanged⟩
        rw [whole]
        exact ⟨apart.own, unchanged, full⟩

/-- A module with one rule, whose action is a mail with some attachments. -/
def mailing (text : Str) : MailModule where
  settings := ⟨[], [], 25, [], []⟩
  rules := [{
    title := []
    id := 0
    event := { module := [], key := [], configuration := ∅ }
    action := {
      module := moduleName
      key := actionTitle
      configuration := (∅ : StrMap).insert "attachments".toList text }
    fireLimit := 0
    isDisabled := false }]
  count := 0

/-- An action with some variables. -/
def carrying (vars : String) : ActionBody where
  eventId := 0
  ruleId := 0
  vars := snprintf msgVarSize vars.toList

/-- The attachments that the module hands over for some names and variables. -/
def handedFor (names : List VarName) (vars : String) : List (List Str) :=
  handedAttachments (takeAction (fun _ _ _ => none) (mailing (configured names)) (carrying vars)
    (MessageHandler.receivedVars (.msgActio (carrying vars)))).2.2

/-- An image and a video are both attached. -/
theorem attachments_iff_both :
    handedFor [⟨"video".toList, by decide⟩, ⟨"image".toList, by decide⟩] "image=/a,video=/b" =
      [["/b".toList, "/a".toList]] := by
  rcases attachments_iff (fun _ _ _ => none)
    (⟨rfl, rfl, Std.ExtTreeMap.getD_insert_self⟩ : Mails
      (mailing (configured [⟨"video".toList, by decide⟩, ⟨"image".toList, by decide⟩]))
      (carrying "image=/a,video=/b") [⟨"video".toList, by decide⟩, ⟨"image".toList, by decide⟩] _)
    with ⟨handed, once, whole, _⟩
  have right := whole.mpr (by decide +kernel)
  rw [handedFor, once, right]
  decide +kernel

/-- Without a name there is an attachment with an empty file name, and of two names the one
that contains the other is not found. -/
theorem unnamed_attachment :
    let vars := MessageHandler.receivedVars (.msgActio (carrying "image=/a,image2=/b"))
    let image2 : VarName := ⟨"image2".toList, by decide⟩
    handedFor [] "image=/a,image2=/b" = [[[]]] ∧ files vars [] = [] ∧
      handedFor [image2] "image=/a,image2=/b" = [["/a2".toList]] ∧
      files vars [image2] = ["/b".toList] := by
  decide +kernel

end Sentri.Modules.Mail
