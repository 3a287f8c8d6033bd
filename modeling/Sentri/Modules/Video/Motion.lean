import Sentri.Modules.Video.Writers
import Sentri.Transition.Machine

/-!
# Events and motion

Runs of one output handler over all frames of a camera.  Images and videos are
only announced on account of a motion, but the events of rules without an
attachment are sent for every frame.
-/

namespace Sentri.Modules.Video

open Sentri.Data Sentri.LibModule Sentri.Text Sentri.Transition

universe u

variable {α : Type u}

/-- A handler that is given one frame after the other. -/
def handlerMachine (storage : Bool) (path : Str) (size : Nat) (map : RuleMap) :
    Machine (OutputHandler α) (Call α) (Effect α) :=
  ⟨OutputHandler.new storage path size map, OutputHandler.out⟩

/-- A motion accounts for an effect of a call: it was detected in the frame of
the call, or the effect is a video with a frame in which it was detected. -/
def Motivated (calls : List (Call α)) (call : Call α) (effect : Effect α) : Prop :=
  call.b = true ∨ ∃ name block, effect = .videoWriter name block ∧
    ∃ past ∈ calls, past.b = true ∧ past.img ∈ block

/-- Every event sent on account of a call is motivated by the calls so far. -/
def MotionSound (machine : Machine (OutputHandler α) (Call α) (Effect α))
    (calls : List (Call α)) : Prop :=
  ∀ before call after, calls = before ++ call :: after →
    let handler := (machine.run before).state
    ∀ effect ∈ (machine.step handler call).2, ∀ message ∈ handler.messages call effect,
      message.type = .msgEvent → Motivated (before ++ [call]) call effect

namespace OutputHandler

/-! ## Frames with motion -/

@[simp]
theorem closeBlock_buf (handler : OutputHandler α) (call : Call α) :
    (handler.closeBlock call).1.buf.elements = [] :=
  rfl

/-- A closed block has at least three frames with motion. -/
theorem mem_closeBlock {handler : OutputHandler α} {call : Call α} {effect : Effect α}
    (member : effect ∈ (handler.closeBlock call).2) :
    3 ≤ handler.buf.size ∧ ∃ name, effect = .videoWriter name handler.block := by
  by_cases long : 15 ≤ handler.buf.size + handler.buf2.size + handler.buf3.size ∧
      3 ≤ handler.buf.size
  · simp only [closeBlock, if_pos long, forkVideoWriter, List.mem_singleton] at member
    exact ⟨long.2, _, member⟩
  · simp [closeBlock, if_neg long] at member

theorem recordAgain_of_still {handler : OutputHandler α} {call : Call α}
    (still : call.b = false) : handler.recordAgain call = (handler, []) := by
  simp [recordAgain, still]

theorem mem_buf_recordAgain {handler : OutputHandler α} {call : Call α} {frame : Image α}
    (member : frame ∈ (handler.recordAgain call).1.buf.elements) :
    frame ∈ handler.buf.elements := by
  unfold recordAgain at member
  split at member
  · simp at member
  · exact member

theorem mem_buf_recordMotion {handler : OutputHandler α} {call : Call α} {frame : Image α}
    (member : frame ∈ (handler.recordMotion call).1.buf.elements) :
    frame ∈ handler.buf.elements ∨ call.b = true ∧ frame = call.img := by
  by_cases motion : call.b = true
  · by_cases full : handler.buf.full = true
    · simp only [recordMotion, if_pos motion, if_pos full] at member
      rcases CircularBuffer.mem_of_mem_pushBack member with old | new
      · simp at old
      · exact Or.inr ⟨motion, new⟩
    · simp only [recordMotion, if_pos motion, if_neg full] at member
      rcases CircularBuffer.mem_of_mem_pushBack member with old | new
      · exact Or.inl old
      · exact Or.inr ⟨motion, new⟩
  · left
    unfold recordMotion at member
    rw [if_neg motion] at member
    split at member <;> exact member

theorem recordMotion_of_still (handler : OutputHandler α) {call : Call α}
    (still : call.b = false) :
    (handler.recordMotion call).1.buf = handler.buf ∧ (handler.recordMotion call).2 = [] := by
  unfold recordMotion
  rw [if_neg (by simp [still])]
  split <;> exact ⟨rfl, rfl⟩

@[simp]
theorem recordBefore_buf (handler : OutputHandler α) (call : Call α) :
    (handler.recordBefore call).buf = handler.buf := by
  unfold recordBefore
  split <;> rfl

theorem mem_buf_recordAfter {handler : OutputHandler α} {call : Call α} {frame : Image α}
    (member : frame ∈ (handler.recordAfter call).1.buf.elements) :
    frame ∈ handler.buf.elements := by
  unfold recordAfter at member
  split at member
  · split at member
    · simp at member
    · exact member
  · exact member

theorem mem_recordAfter {handler : OutputHandler α} {call : Call α} {effect : Effect α}
    (member : effect ∈ (handler.recordAfter call).2) :
    3 ≤ handler.buf.size ∧ ∃ name, effect = .videoWriter name handler.block := by
  unfold recordAfter at member
  split at member
  · split at member
    · exact mem_closeBlock member
    · simp at member
  · simp at member

@[simp]
theorem snapshot_buf (handler : OutputHandler α) (call : Call α) :
    (handler.snapshot call).1.buf = handler.buf := by
  unfold snapshot
  split <;> rfl

theorem snapshot_of_still {handler : OutputHandler α} {call : Call α}
    (still : call.b = false) : handler.snapshot call = (handler, []) := by
  simp [snapshot, still]

/-- A frame enters the buffer of frames with motion only with motion. -/
theorem mem_buf_record {handler : OutputHandler α} {call : Call α} {frame : Image α}
    (member : frame ∈ (handler.record call).1.buf.elements) :
    frame ∈ handler.buf.elements ∨ call.b = true ∧ frame = call.img := by
  have afterMotion := mem_buf_recordAfter member
  rw [recordBefore_buf] at afterMotion
  rcases mem_buf_recordMotion afterMotion with old | new
  · exact Or.inl (mem_buf_recordAgain old)
  · exact Or.inr new

theorem mem_buf_out {handler : OutputHandler α} {call : Call α} {frame : Image α}
    (member : frame ∈ (handler.out call).1.buf.elements) :
    frame ∈ handler.buf.elements ∨ call.b = true ∧ frame = call.img := by
  by_cases writing : handler.write = true
  · simp only [out, if_pos writing, snapshot_buf] at member
    exact mem_buf_record member
  · simp only [out, if_neg writing, snapshot_buf] at member
    exact Or.inl member

/-- A video written without a motion in the current frame has a frame with
motion. -/
theorem mem_record_of_still {handler : OutputHandler α} {call : Call α} {effect : Effect α}
    (still : call.b = false) (member : effect ∈ (handler.record call).2) :
    ∃ name block, effect = .videoWriter name block ∧
      ∃ frame ∈ handler.buf.elements, frame ∈ block := by
  obtain ⟨bufEq, quiet⟩ := recordMotion_of_still handler still
  simp only [record, recordAgain_of_still still, quiet, List.nil_append] at member
  obtain ⟨frames, name, rfl⟩ := mem_recordAfter member
  rw [recordBefore_buf, bufEq] at frames
  have positive : 0 < handler.buf.elements.length :=
    Nat.lt_of_lt_of_le (by decide) frames
  obtain ⟨frame, inside⟩ := List.exists_mem_of_length_pos positive
  refine ⟨name, _, rfl, frame, inside, ?_⟩
  simp [block, bufEq, inside]

/-- Without a motion in the frame a call only writes videos with motion and
sends the events of the rules without an attachment. -/
theorem mem_out_of_still {handler : OutputHandler α} {call : Call α} {effect : Effect α}
    (still : call.b = false) (member : effect ∈ (handler.out call).2) :
    (∃ name block, effect = .videoWriter name block ∧
      ∃ frame ∈ handler.buf.elements, frame ∈ block) ∨
    effect ∈ handler.plainEvents := by
  have same : (handler.out call).1.plainEvents = handler.plainEvents := by
    rw [plainEvents, plainEvents, out_map]
  rw [← same]
  by_cases writing : handler.write = true
  · simp only [out, if_pos writing, snapshot_of_still still, List.append_nil,
      List.mem_append] at member ⊢
    rcases member with video | plain
    · exact Or.inl (mem_record_of_still still video)
    · exact Or.inr plain
  · right
    simpa only [out, if_neg writing, snapshot_of_still still, List.append_nil,
      List.nil_append] using member

/-! ## Rules -/

theorem mem_plain_iff {map : RuleMap} {id : RuleID} :
    id ∈ map.plain ↔ ∃ action, map[id]? = some action ∧
      asksFor .video action = false ∧ asksFor .image action = false := by
  simp [RuleMap.plain, Std.ExtTreeMap.mem_toList_iff_getElem?_eq_some]

end OutputHandler

/-! ## Runs -/

section Runs

variable {storage : Bool} {path : Str} {size : Nat} {map : RuleMap}

theorem handlerMachine_map (calls : List (Call α)) :
    ((handlerMachine storage path size map).run calls).state.map = map := by
  induction calls using List.reverseRecOn with
  | nil => rfl
  | append_singleton calls call ih =>
      rw [Machine.run_concat]
      exact (OutputHandler.out_map _ call).trans ih

/-- Every frame in the buffer of frames with motion was passed with motion. -/
theorem handlerMachine_buf (calls : List (Call α)) :
    ∀ frame ∈ ((handlerMachine storage path size map).run calls).state.buf.elements,
      ∃ past ∈ calls, past.b = true ∧ past.img = frame := by
  induction calls using List.reverseRecOn with
  | nil =>
      intro frame member
      simp [handlerMachine, Machine.fresh, OutputHandler.new] at member
  | append_singleton calls call ih =>
      intro frame member
      rw [Machine.run_concat] at member
      rcases OutputHandler.mem_buf_out member with old | ⟨motion, rfl⟩
      · obtain ⟨past, pastMember, pastMotion, rfl⟩ := ih frame old
        exact ⟨past, List.mem_append_left _ pastMember, pastMotion, rfl⟩
      · exact ⟨call, by simp, motion, rfl⟩

/-- All events of a handler are motivated if and only if every frame of the
camera shows a motion or every rule of the handler asks for an attachment. -/
theorem motion_sound_iff (storage : Bool) (path : Str) (size : Nat) (map : RuleMap)
    (calls : List (Call α)) :
    MotionSound (handlerMachine storage path size map) calls ↔
      (∀ call ∈ calls, call.b = true) ∨
      ∀ (id : RuleID) (action : ActionInfo), map[id]? = some action →
        asksFor .video action = true ∨ asksFor .image action = true := by
  constructor
  · intro sound
    by_contra neither
    obtain ⟨someStill, somePlain⟩ := not_or.mp neither
    obtain ⟨call, member, still⟩ : ∃ call ∈ calls, call.b = false := by
      simpa using someStill
    obtain ⟨id, action, rule, noVideo, noImage⟩ : ∃ (id : RuleID) (action : ActionInfo),
        map[id]? = some action ∧ asksFor .video action = false ∧
          asksFor .image action = false := by
      simpa using somePlain
    obtain ⟨before, after, split⟩ := List.append_of_mem member
    have plain : id ∈ map.plain :=
      OutputHandler.mem_plain_iff.mpr ⟨action, rule, noVideo, noImage⟩
    have sent : Effect.sent (MessageHandler.sendEventMessage id []) ∈
        ((handlerMachine storage path size map).step
          ((handlerMachine storage path size map).run before).state call).2 := by
      apply OutputHandler.plainEvents_subset_out
      rw [OutputHandler.plainEvents, handlerMachine_map]
      exact List.mem_map_of_mem plain
    rcases sound before call after split _ sent _ (List.mem_singleton_self _) rfl with
      motion | ⟨name, block, equal, _⟩
    · simp [still] at motion
    · cases equal
  · rintro (motion | attached) before call after rfl handler effect member message _ _
    · exact Or.inl (motion call (by simp))
    · by_cases motion : call.b = true
      · exact Or.inl motion
      · right
        rcases OutputHandler.mem_out_of_still (by simpa using motion) member with
          ⟨name, block, rfl, frame, inBuf, inBlock⟩ | plain
        · obtain ⟨past, pastMember, pastMotion, rfl⟩ := handlerMachine_buf before frame inBuf
          exact ⟨name, block, rfl, past, List.mem_append_left _ pastMember, pastMotion, inBlock⟩
        · rw [OutputHandler.plainEvents, handlerMachine_map] at plain
          obtain ⟨id, idPlain, rfl⟩ := List.mem_map.mp plain
          obtain ⟨action, rule, noVideo, noImage⟩ := OutputHandler.mem_plain_iff.mp idPlain
          rcases attached id action rule with video | image
          · simp [video] at noVideo
          · simp [image] at noImage

end Runs

/-! ## An event without motion -/

/-- A rule without an attachment. -/
def plainAction : ActionInfo where
  module := "module_sms".toList
  key := "send".toList
  configuration := ∅

/-- A frame without motion. -/
def stillCall : Call Unit where
  img := ⟨(), 1, 1⟩
  b := false
  imageTime := ⟨"20160131T100001".toList, by decide, by decide⟩
  videoTime := ⟨"20160131T100001".toList, by decide, by decide⟩
  opened := true
  stray := ⟨(), 0, 0⟩

/-- A single frame without motion sends an event. -/
theorem event_without_motion :
    ¬ MotionSound
      (handlerMachine false "/tmp/sentri/".toList 20 (.ofList [(1, plainAction)]))
      [stillCall] := by
  intro sound
  have sent : Effect.sent (MessageHandler.sendEventMessage 1 []) ∈
      ((OutputHandler.new false "/tmp/sentri/".toList 20
        (.ofList [(1, plainAction)])).out stillCall).2 := by
    decide +kernel
  rcases sound [] stillCall [] rfl _ sent _ (List.mem_singleton_self _) rfl with
    motion | ⟨name, block, equal, _⟩
  · cases motion
  · cases equal

end Sentri.Modules.Video
