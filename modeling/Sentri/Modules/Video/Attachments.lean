import Mathlib.Data.Nat.Digits.Defs
import Sentri.Modules.Video.Engine

/-!
# Counting the events of a file

The name of a file reaches the core and comes back unchanged, so that a handler
counts a file up for the events that carry it and down for their answers.
-/

namespace Sentri.Modules.Video

open Sentri.Data Sentri.LibModule Sentri.Text Sentri.Transition

universe u

variable {α : Type u}

/-! ## File names -/

/-- A text without a comma and without NUL. -/
structure Clean (text : Str) : Prop where
  comma : ',' ∉ text
  noNul : nul ∉ text

/-- A file name that fits into the variables of a message. -/
structure FileName (name : Str) : Prop extends Clean name where
  short : name.length ≤ 100

theorem length_toDecimal_le (id : UInt64) : (toDecimal id.toNat).length ≤ 20 :=
  Nat.toDigits_length 10 id.toNat 20 (by decide) (id.toNat_lt.trans (by decide))

theorem Clean.append {first second : Str} (one : Clean first) (two : Clean second) :
    Clean (first ++ second) where
  comma := by simp [one.comma, two.comma]
  noNul := by simp [one.noNul, two.noNul]

theorem clean_toDecimal (n : Nat) : Clean (toDecimal n) where
  comma := fun member => absurd (isDigit_of_mem_toDecimal member) (by decide)
  noNul := fun member => absurd (isDigit_of_mem_toDecimal member) (by decide)

theorem clean_isoTime (time : IsoTime) : Clean time.text where
  comma := fun member => absurd (List.all_eq_true.mp time.digits _ member) (by decide)
  noNul := fun member => absurd (List.all_eq_true.mp time.digits _ member) (by decide)

theorem clean_file (attachment : Attachment) (img : Image α) (time : IsoTime) :
    Clean (attachment.file tempPath img time) := by
  have directory : Clean (tempPath ++ attachment.directory) := by
    cases attachment <;> exact ⟨by decide, by decide⟩
  have suffix : Clean attachment.suffix := by
    cases attachment <;> exact ⟨by decide, by decide⟩
  have cam : Clean "cam_id_".toList := ⟨by decide, by decide⟩
  have id : Clean "_img_id_".toList := ⟨by decide, by decide⟩
  have separator : Clean ['_'] := ⟨by decide, by decide⟩
  have camera := (directory.append cam).append (clean_toDecimal img.camId.toNat)
  have frame := (camera.append id).append (clean_toDecimal img.imageId.toNat)
  exact ((frame.append separator).append (clean_isoTime time)).append suffix

theorem length_file_le (attachment : Attachment) (img : Image α) (time : IsoTime) :
    (attachment.file tempPath img time).length ≤ 100 := by
  have camId := length_toDecimal_le img.camId
  have imageId := length_toDecimal_le img.imageId
  have directory : (tempPath ++ attachment.directory).length ≤ 18 := by
    cases attachment <;> decide
  have suffix : attachment.suffix.length = 4 := by cases attachment <;> decide
  have cam : "cam_id_".toList.length = 7 := by decide
  have id : "_img_id_".toList.length = 8 := by decide
  simp only [List.length_append] at directory
  simp only [Attachment.file, List.length_append, time.length, suffix, cam, id,
    List.length_singleton]
  omega

theorem fileName_file (attachment : Attachment) (img : Image α) (time : IsoTime) :
    FileName (attachment.file tempPath img time) where
  toClean := clean_file attachment img time
  short := length_file_le attachment img time

theorem key_length (attachment : Attachment) : attachment.key.length = 5 := by
  cases attachment <;> decide

/-- The variables of an event with an attachment. -/
def attachmentVars (attachment : Attachment) (name : Str) : Str :=
  attachment.key ++ '=' :: name

theorem snprintf_attachmentVars {attachment : Attachment} {name : Str} (file : FileName name) :
    (snprintf msgVarSize (attachmentVars attachment name)).text =
      attachmentVars attachment name := by
  have keyNul : nul ∉ attachment.key := by cases attachment <;> decide
  have short := file.short
  apply snprintf_text
  · rw [attachmentVars, List.mem_append, List.mem_cons, not_or, not_or]
    exact ⟨keyNul, by decide, file.noNul⟩
  · rw [attachmentVars, List.length_append, List.length_cons, key_length, msgVarSize]
    omega

theorem encodable_attachment {attachment : Attachment} {name : Str} (file : FileName name) :
    Encodable (attachment.key, name) where
  key_comma := show ',' ∉ attachment.key by cases attachment <;> decide
  key_equals := show '=' ∉ attachment.key by cases attachment <;> decide
  value_comma := file.comma

theorem parseVars_attachmentVars (attachment : Attachment) {name : Str} (file : FileName name)
    (key : Str) :
    (parseVars (attachmentVars attachment name))[key]? =
      if key = attachment.key then some name else none := by
  have encoded : attachmentVars attachment name = encodeVars [(attachment.key, name)] := by
    simp [attachmentVars, encodeVars, encodeVar]
  rw [encoded, parseVars_encodeVars, getElem?_insertFirst]
  · by_cases equal : key = attachment.key
    · simp [equal]
    · have different : (key == attachment.key) = false := by simpa using equal
      simp [equal, List.lookup_cons, different]
  · intro entry member
    rw [List.mem_singleton.mp member]
    exact encodable_attachment file

/-- The event of an attachment carries its file and no other. -/
theorem carries_iff {attachment : Attachment} {event : Event} {name : Str}
    (vars : event.vars.text = attachmentVars attachment name) (other : Str) :
    Carries other event ↔ name = other := by
  have same : ∀ key : Attachment, attachmentVars attachment name = key.key ++ '=' :: other →
      name = other := by
    intro key equal
    have length : attachment.key.length = key.key.length := by rw [key_length, key_length]
    exact List.tail_eq_of_cons_eq (List.append_inj_right equal length)
  constructor
  · rintro (image | video)
    · exact same .image (vars.symm.trans image)
    · exact same .video (vars.symm.trans video)
  · rintro rfl
    cases attachment with
    | image => exact Or.inl vars
    | video => exact Or.inr vars

/-! ## Registration -/

/-- The events among the messages of a call that carry a file. -/
def carrying (name : Str) (messages : List Message) : Nat :=
  (messages.filterMap Message.event?).countP (Carries name)

theorem carrying_append (name : Str) (first second : List Message) :
    carrying name (first ++ second) = carrying name first + carrying name second := by
  simp [carrying]

theorem getD_register (pending : Pending) (name other : Str) (rules : List RuleID) :
    (pending.register name rules).getD other 0 =
      pending.getD other 0 + if name = other then (rules.length : Int) else 0 := by
  induction rules generalizing pending with
  | nil => simp [Pending.register]
  | cons rule rules ih =>
      rw [Pending.register, List.foldl_cons, ← Pending.register, ih]
      by_cases equal : name = other
      · subst equal
        simp
        omega
      · simp [equal, Std.ExtTreeMap.getD_insert]

theorem carrying_announce (handler : OutputHandler α) (attachment : Attachment) {name : Str}
    (file : FileName name) (other : Str) :
    carrying other (handler.announce attachment name) =
      if name = other then (handler.map.asking attachment).length else 0 := by
  have sent : (handler.announce attachment name).filterMap Message.event? =
      (handler.map.asking attachment).map fun rule =>
        ⟨rule, snprintf msgVarSize (attachmentVars attachment name)⟩ := by
    simp [OutputHandler.announce, List.filterMap_map, Function.comp_def,
      MessageHandler.sendEventMessage, Message.event?, attachmentVars]
  rw [carrying, sent, List.countP_map]
  by_cases equal : name = other
  · rw [if_pos equal, List.countP_eq_length]
    intro rule _
    exact decide_eq_true ((carries_iff (snprintf_attachmentVars file) other).mpr equal)
  · rw [if_neg equal, List.countP_eq_zero]
    intro rule _
    simpa using fun carried => equal ((carries_iff (snprintf_attachmentVars file) other).mp carried)

/-- A writer sends the events of its file, unless it fails. -/
theorem OutputHandler.messages_of_writer (handler : OutputHandler α) (call : Call α)
    {effect : Effect α} {attachment : Attachment} {name : Str}
    (file : effect.file? = some (attachment, name)) :
    handler.messages call effect = handler.announce attachment name ∨
      (handler.messages call effect).filterMap Message.event? = [] := by
  cases effect with
  | sent message => cases file
  | removed removedName => cases file
  | imageWriter imageName img =>
      cases file
      exact Or.inl rfl
  | videoWriter videoName block =>
      cases file
      rw [messages, writeVideo]
      split
      · exact Or.inl rfl
      · exact Or.inr rfl

/-- A writer registers at least the events that it sends. -/
theorem getD_registerEffect_ge (handler : OutputHandler α) (call : Call α) {effect : Effect α}
    (below : effect.WritesBelow tempPath) (pending : Pending) (name : Str) :
    pending.getD name 0 + carrying name (handler.messages call effect) ≤
      (handler.map.registerEffect pending effect).getD name 0 := by
  rcases below with ⟨attachment, img, time, file⟩
  have sent : carrying name (handler.messages call effect) ≤
      carrying name (handler.announce attachment (attachment.file tempPath img time)) := by
    rcases OutputHandler.messages_of_writer handler call file with announced | failed
    · rw [announced]
    · simp [carrying, failed]
  rw [carrying_announce handler attachment (fileName_file attachment img time)] at sent
  rw [RuleMap.registerEffect, file, getD_register]
  by_cases same : attachment.file tempPath img time = name
  · rw [if_pos same] at sent ⊢
    omega
  · rw [if_neg same] at sent ⊢
    omega

/-- Writers of other files do not change the count of a file. -/
theorem getD_registerEffect_of_ne {map : RuleMap} {effect : Effect α} {name : Str}
    (other : ∀ attachment, effect.file? = some (attachment, name) → map.asking attachment = [])
    (pending : Pending) :
    (map.registerEffect pending effect).getD name 0 = pending.getD name 0 := by
  cases file : effect.file? with
  | none => rw [RuleMap.registerEffect, file]
  | some entry =>
      rcases entry with ⟨attachment, written⟩
      rw [RuleMap.registerEffect, file, getD_register]
      by_cases equal : written = name
      · subst equal
        simp [other attachment file]
      · simp [equal]

theorem getD_foldl_register_ge (handler : OutputHandler α) (call : Call α)
    {effects : List (Effect α)} (below : ∀ effect ∈ effects, effect.WritesBelow tempPath)
    (pending : Pending) (name : Str) :
    pending.getD name 0 + carrying name (effects.flatMap (handler.messages call)) ≤
      (effects.foldl handler.map.registerEffect pending).getD name 0 := by
  induction effects generalizing pending with
  | nil => simp [carrying]
  | cons effect effects ih =>
      have first := getD_registerEffect_ge handler call (below effect List.mem_cons_self)
        pending name
      have rest := ih (fun other member => below other (List.mem_cons_of_mem _ member))
        (handler.map.registerEffect pending effect)
      rw [List.flatMap_cons, carrying_append, List.foldl_cons]
      omega

theorem getD_foldl_register_of_ne {map : RuleMap} {effects : List (Effect α)} {name : Str}
    (other : ∀ effect ∈ effects, ∀ attachment, effect.file? = some (attachment, name) →
      map.asking attachment = []) (pending : Pending) :
    (effects.foldl map.registerEffect pending).getD name 0 = pending.getD name 0 := by
  induction effects generalizing pending with
  | nil => rfl
  | cons effect effects ih =>
      rw [List.foldl_cons, ih fun next member => other next (List.mem_cons_of_mem _ member)]
      exact getD_registerEffect_of_ne (other effect List.mem_cons_self) pending

namespace OutputHandler

theorem carrying_plainEvents (handler : OutputHandler α) (call : Call α) (name : Str) :
    carrying name (handler.plainEvents.flatMap (handler.messages call)) = 0 := by
  have empty : ∀ rule, ¬ Carries name ⟨rule, snprintf msgVarSize []⟩ := by
    rintro rule (image | video)
    · simp [snprintf, cStr] at image
    · simp [snprintf, cStr] at video
  simp [carrying, plainEvents, messages, List.flatMap_map, MessageHandler.sendEventMessage,
    List.countP_eq_zero, Message.event?, empty]

/-- A call counts at least the events it leads to. -/
theorem out_counts {handler : OutputHandler α} (path : handler.path = tempPath) (call : Call α)
    (name : Str) :
    handler.pendingAttachments.getD name 0 +
        carrying name ((handler.out call).2.flatMap (handler.messages call)) ≤
      (handler.out call).1.pendingAttachments.getD name 0 := by
  obtain ⟨writers, starts, effects⟩ := out_starts handler call
  have registered := getD_foldl_register_ge handler call (path ▸ starts.writers)
    handler.pendingAttachments name
  have plain := carrying_plainEvents handler call name
  rw [effects, List.flatMap_append, carrying_append, starts.pending, plain]
  exact registered

/-- A call only counts the files it announces. -/
theorem out_counts_of_not_announced {handler : OutputHandler α} {call : Call α} {name : Str}
    (absent : name ∉ handler.announced call) :
    (handler.out call).1.pendingAttachments.getD name 0 =
      handler.pendingAttachments.getD name 0 := by
  obtain ⟨writers, starts, effects⟩ := out_starts handler call
  rw [starts.pending]
  apply getD_foldl_register_of_ne
  intro effect member attachment file
  by_contra asked
  apply absent
  rw [announced, List.mem_map]
  refine ⟨(attachment, name), List.mem_filter.mpr ⟨?_, by simpa using asked⟩, rfl⟩
  rw [effects, List.mem_filterMap]
  exact ⟨effect, List.mem_append_left _ member, file⟩

end OutputHandler

/-! ## Answers -/

/-- The variables that output handlers send: none, or those of an attachment. -/
def Known (event : Event) : Prop :=
  event.vars.text = [] ∨ ∃ attachment name, FileName name ∧
    event.vars.text = attachmentVars attachment name

theorem not_carries_of_nil {event : Event} (empty : event.vars.text = []) (name : Str) :
    ¬ Carries name event := by
  rintro (image | video)
  · simp [empty] at image
  · simp [empty] at video

namespace OutputHandler

theorem known_announce (handler : OutputHandler α) {attachment : Attachment} {name : Str}
    (file : FileName name) :
    ∀ event ∈ (handler.announce attachment name).filterMap Message.event?, Known event := by
  intro event member
  simp only [announce, List.filterMap_map, List.mem_filterMap, Function.comp_apply,
    MessageHandler.sendEventMessage, Message.event?, Option.some.injEq] at member
  rcases member with ⟨rule, _, rfl⟩
  exact Or.inr ⟨attachment, name, file, snprintf_attachmentVars file⟩

theorem vars_of_plain {handler : OutputHandler α} {call : Call α} {effect : Effect α}
    (plain : effect ∈ handler.plainEvents) :
    ∀ event ∈ (handler.messages call effect).filterMap Message.event?, event.vars.text = [] := by
  intro event sent
  obtain ⟨rule, _, rfl⟩ := List.mem_map.mp plain
  simp only [messages, MessageHandler.sendEventMessage, List.filterMap_cons, Message.event?,
    List.filterMap_nil, List.mem_singleton] at sent
  rw [sent]
  rfl

theorem known_messages {handler : OutputHandler α} {writers plain : List (Effect α)}
    (below : ∀ effect ∈ writers, effect.WritesBelow tempPath)
    (plainSubset : plain ⊆ handler.plainEvents) (call : Call α) :
    ∀ event ∈ ((writers ++ plain).flatMap (handler.messages call)).filterMap Message.event?,
      Known event := by
  intro event member
  simp only [List.filterMap_flatMap, List.mem_flatMap, List.mem_append] at member
  rcases member with ⟨effect, writer | isPlain, sent⟩
  · obtain ⟨attachment, img, time, file⟩ := below effect writer
    rcases messages_of_writer handler call file with announced | failed
    · rw [announced] at sent
      exact known_announce handler (fileName_file attachment img time) event sent
    · simp [failed] at sent
  · exact Or.inl (vars_of_plain (plainSubset isPlain) event sent)

/-- The module sends no other variables. -/
theorem known_out {handler : OutputHandler α} (path : handler.path = tempPath) (call : Call α) :
    ∀ event ∈ ((handler.out call).2.flatMap (handler.messages call)).filterMap Message.event?,
      Known event := by
  obtain ⟨writers, starts, effects⟩ := out_starts handler call
  rw [effects]
  exact known_messages (path ▸ starts.writers) (List.Subset.refl _) call

theorem getD_answered (pending : Pending) (name other : Str) (removable : Bool) :
    (answered (α := α) pending name removable).1.getD other 0 =
      pending.getD other 0 - if name = other then 1 else 0 := by
  by_cases equal : name = other
  · subst equal
    unfold answered
    dsimp only
    split
    next last =>
      rw [Std.ExtTreeMap.getD_erase_self, if_pos rfl]
      simpa using last.symm
    next => simp
  · unfold answered
    dsimp only
    split <;> simp [equal, Std.ExtTreeMap.getD_insert, Std.ExtTreeMap.getD_erase]

/-- A file is removed when its count reaches zero. -/
theorem removed_mem_answered {pending : Pending} {name other : Str} {removable : Bool}
    (removed : Effect.removed (α := α) other ∈ (answered pending name removable).2) :
    name = other ∧ pending.getD other 0 = 1 := by
  unfold answered at removed
  dsimp only at removed
  split at removed
  next last =>
    have equal : other = name := by
      cases removable <;> simpa using removed
    subst equal
    rw [Std.ExtTreeMap.getD_insert_self] at last
    constructor
    · rfl
    · omega
  next => simp at removed

theorem handlePendingAttachments_reply (handler : OutputHandler α) (event : Event)
    (accepted : Bool) (eventId : EventID) (removable : Str → Bool) :
    let message := reply event accepted eventId
    let vars := parseVars event.vars.text
    let videos := answeredAttachment handler.pendingAttachments vars .video removable
    let images := answeredAttachment videos.1 vars .image removable
    handler.handlePendingAttachments message (MessageHandler.receivedVars message) removable =
      ({ handler with pendingAttachments := images.1 }, videos.2 ++ images.2) := by
  cases accepted <;> rfl

theorem answeredAttachment_of_eq {vars : StrMap} {attachment : Attachment} {name : Str}
    (carried : vars[attachment.key]? = some name) (pending : Pending) (removable : Str → Bool) :
    answeredAttachment (α := α) pending vars attachment removable =
      answered pending name (removable name) := by
  rw [answeredAttachment, carried]

theorem answeredAttachment_of_none {vars : StrMap} {attachment : Attachment}
    (absent : vars[attachment.key]? = none) (pending : Pending) (removable : Str → Bool) :
    answeredAttachment (α := α) pending vars attachment removable = (pending, []) := by
  rw [answeredAttachment, absent]

/-- What an answer to an event does to a handler. -/
theorem handle_reply {event : Event} (known : Known event) (handler : OutputHandler α)
    (accepted : Bool) (eventId : EventID) (removable : Str → Bool) :
    let message := reply event accepted eventId
    let result := handler.handlePendingAttachments message
      (MessageHandler.receivedVars message) removable
    result.1.path = handler.path ∧
      (∀ name, result.1.pendingAttachments.getD name 0 =
        handler.pendingAttachments.getD name 0 - if Carries name event then 1 else 0) ∧
      ∀ name, Effect.removed name ∈ result.2 →
        Carries name event ∧ handler.pendingAttachments.getD name 0 = 1 := by
  intro message result
  have split := handlePendingAttachments_reply handler event accepted eventId removable
  rcases known with empty | ⟨attachment, file, fileName, vars⟩
  · have noVars : ∀ key : Str, (parseVars event.vars.text)[key]? = none := by
      intro key
      rw [empty, show parseVars [] = ∅ by decide]
      simp
    simp only [answeredAttachment_of_none (noVars _)] at split
    have resultEq : result = (handler, []) := split
    simp [resultEq, not_carries_of_nil empty]
  · have found := parseVars_attachmentVars attachment fileName
    rw [← vars] at found
    have resultEq : result = ({ handler with
        pendingAttachments :=
          (answered (α := α) handler.pendingAttachments file (removable file)).1 },
        (answered handler.pendingAttachments file (removable file)).2) := by
      cases attachment with
      | image =>
          have absent : (parseVars event.vars.text)[Attachment.video.key]? = none := by
            rw [found, if_neg (by decide)]
          have present : (parseVars event.vars.text)[Attachment.image.key]? = some file := by
            rw [found, if_pos rfl]
          simp only [answeredAttachment_of_none absent, answeredAttachment_of_eq present,
            List.nil_append] at split
          exact split
      | video =>
          have absent : (parseVars event.vars.text)[Attachment.image.key]? = none := by
            rw [found, if_neg (by decide)]
          have present : (parseVars event.vars.text)[Attachment.video.key]? = some file := by
            rw [found, if_pos rfl]
          simp only [answeredAttachment_of_none absent, answeredAttachment_of_eq present,
            List.append_nil] at split
          exact split
    rw [resultEq]
    simp only [carries_iff vars, true_and]
    exact ⟨fun name => getD_answered _ _ _ _, fun name => removed_mem_answered⟩

end OutputHandler

end Sentri.Modules.Video
