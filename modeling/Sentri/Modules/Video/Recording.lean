import Sentri.Modules.Video.Motion

/-!
# Recorded blocks

A handler with a video rule cuts the frames of its camera into segments: still
frames before a motion, the frames with motion, and still frames after it.
A segment is written as a video or, when it is too short, dropped.  The state of
the handler is the segment that is not finished yet, so nothing that shows a
motion is lost between segments and nothing is written twice.
-/

namespace Sentri.Modules.Video

open Sentri.Data Sentri.LibModule Sentri.Text Sentri.Transition

universe u

variable {α : Type u}

/-- The frames that the buffers give up together. -/
structure Segment (α : Type u) where
  before : List (Image α)
  motion : List (Image α)
  after : List (Image α)
  /-- Was a writer started for the frames? -/
  written : Bool
  deriving DecidableEq

namespace Segment

def frames (segment : Segment α) : List (Image α) :=
  segment.before ++ segment.motion ++ segment.after

/-- The frames of the segment were passed by these calls, one after the other,
and the middle ones with motion. -/
def PassedBy (segment : Segment α) (calls : List (Call α)) : Prop :=
  calls.map (fun call => (call.img, call.b)) =
    segment.before.map (·, false) ++ segment.motion.map (·, true) ++
      segment.after.map (·, false)

/-- The bounds on a video of a handler that keeps `size` frames with motion. -/
structure Fits (segment : Segment α) (size : Nat) : Prop where
  before : segment.before.length ≤ 10
  motion : 1 ≤ segment.motion.length ∧ segment.motion.length ≤ size
  after : segment.after.length ≤ 10

/-- Too short for a video: less than three frames with motion, or less than
fifteen frames. -/
def Short (segment : Segment α) : Prop :=
  segment.motion.length < 3 ∨ segment.frames.length < 15

end Segment

/-- The calls are the segments in their order, with still frames between
them. -/
inductive CutInto : List (Call α) → List (Segment α) → Prop where
  | nil : CutInto [] []
  | still {calls : List (Call α)} {segments : List (Segment α)} {call : Call α} :
      CutInto calls segments → call.b = false → CutInto (calls ++ [call]) segments
  | segment {calls block : List (Call α)} {segments : List (Segment α)}
      {segment : Segment α} :
      CutInto calls segments → segment.PassedBy block →
        CutInto (calls ++ block) (segments ++ [segment])

/-- The frames that a writer writes into a video. -/
def Effect.video? : Effect α → Option (List (Image α))
  | .videoWriter _ block => some block
  | _ => none

/-- The videos among the segments. -/
def videosOf (segments : List (Segment α)) : List (List (Image α)) :=
  (segments.filter Segment.written).map Segment.frames

/-- The frames that calls passed with motion. -/
def motionOf (calls : List (Call α)) : List (Image α) :=
  (calls.filter Call.b).map Call.img

namespace OutputHandler

/-! ## Segments of a call -/

/-- The contents of the buffers. -/
def contents (handler : OutputHandler α) (written : Bool) : Segment α :=
  ⟨handler.buf2.elements, handler.buf.elements, handler.buf3.elements, written⟩

/-- The segment that `closeBlock` clears. -/
def closed (handler : OutputHandler α) : Segment α :=
  handler.contents (15 ≤ handler.buf.size + handler.buf2.size + handler.buf3.size ∧
    3 ≤ handler.buf.size)

/-- The segment that a motion after the end of a block clears. -/
def clearedAgain (handler : OutputHandler α) (call : Call α) : List (Segment α) :=
  if call.b && handler.post then [handler.closed] else []

/-- The segment that a motion clears from a full buffer. -/
def clearedMotion (handler : OutputHandler α) (call : Call α) : List (Segment α) :=
  if call.b && handler.buf.full then [handler.contents true] else []

/-- The segment that the eleventh frame after a motion clears. -/
def clearedAfter (handler : OutputHandler α) (call : Call α) : List (Segment α) :=
  if !call.b && handler.post && handler.buf3.full then [handler.closed] else []

/-- The segments that the parts of `record` clear. -/
def clearedRecord (handler : OutputHandler α) (call : Call α) : List (Segment α) :=
  let again := handler.clearedAgain call
  let handler := (handler.recordAgain call).1
  let motion := handler.clearedMotion call
  let handler := (handler.recordMotion call).1.recordBefore call
  again ++ motion ++ handler.clearedAfter call

def cleared (handler : OutputHandler α) (call : Call α) : List (Segment α) :=
  if handler.write then handler.clearedRecord call else []

end OutputHandler

/-- The handler of `handlerMachine`, observed for the segments it clears. -/
def segmentMachine (storage : Bool) (path : Str) (size : Nat) (map : RuleMap) :
    Machine (OutputHandler α) (Call α) (Segment α) :=
  ⟨OutputHandler.new storage path size map,
    fun handler call => ((handler.out call).1, handler.cleared call)⟩

/-- What a recording keeps of the frames it was given.  `handler` is the state
after the calls, `videos` are the blocks its writers were given and `segments`
those that its buffers gave up. -/
structure Recorded (size : Nat) (calls : List (Call α)) (handler : OutputHandler α)
    (videos : List (List (Image α))) (segments : List (Segment α)) : Prop where
  /-- The writers get the written segments, in order. -/
  videos : videos = videosOf segments
  /-- A written segment is a block around a motion. -/
  written : ∀ segment ∈ segments, segment.written = true → segment.Fits size
  /-- Any other segment was too short. -/
  dropped : ∀ segment ∈ segments, segment.written = false → segment.Short
  /-- The calls are the segments in order, then the contents of the buffers; what
  lies between them shows no motion. -/
  cut : ∃ earlier rest, calls = earlier ++ rest ∧ CutInto earlier segments ∧
    (handler.contents false).PassedBy rest
  /-- Every frame with motion is in exactly one segment, or in the buffer. -/
  motion : motionOf calls = segments.flatMap Segment.motion ++ handler.buf.elements
  /-- The handler does not wait for a motion and for its end at once. -/
  flags : ¬(handler.pre = true ∧ handler.post = true)

/-! ## Videos of a call -/

@[simp]
theorem videosOf_nil : videosOf ([] : List (Segment α)) = [] :=
  rfl

theorem videosOf_append (first second : List (Segment α)) :
    videosOf (first ++ second) = videosOf first ++ videosOf second := by
  simp [videosOf]

namespace OutputHandler

theorem forkVideoWriter_videos (handler : OutputHandler α) (call : Call α) :
    (handler.forkVideoWriter call).2.filterMap Effect.video? = [handler.block] :=
  rfl

theorem closeBlock_videos (handler : OutputHandler α) (call : Call α) :
    (handler.closeBlock call).2.filterMap Effect.video? = videosOf [handler.closed] := by
  by_cases long : 15 ≤ handler.buf.size + handler.buf2.size + handler.buf3.size ∧
      3 ≤ handler.buf.size
  · simp only [closeBlock, if_pos long, forkVideoWriter_videos]
    simp [videosOf, closed, contents, long, Segment.frames, block]
  · simp only [closeBlock, if_neg long]
    simp [videosOf, closed, contents, long]

theorem recordAgain_videos (handler : OutputHandler α) (call : Call α) :
    (handler.recordAgain call).2.filterMap Effect.video? =
      videosOf (handler.clearedAgain call) := by
  unfold recordAgain clearedAgain
  split
  · exact closeBlock_videos handler call
  · rfl

theorem recordMotion_videos (handler : OutputHandler α) (call : Call α) :
    (handler.recordMotion call).2.filterMap Effect.video? =
      videosOf (handler.clearedMotion call) := by
  by_cases motion : call.b = true
  · by_cases full : handler.buf.full = true
    · simp only [recordMotion, clearedMotion, motion, full]
      exact forkVideoWriter_videos handler call
    · simp [recordMotion, clearedMotion, motion, full]
  · simp only [recordMotion, clearedMotion, motion]
    by_cases pre : handler.pre = true
    · simp [pre]
    · simp [pre]

theorem recordAfter_videos (handler : OutputHandler α) (call : Call α) :
    (handler.recordAfter call).2.filterMap Effect.video? =
      videosOf (handler.clearedAfter call) := by
  by_cases ending : (!call.b && handler.post) = true
  · by_cases full : handler.buf3.full = true
    · simp only [recordAfter, clearedAfter, ending, full]
      exact closeBlock_videos handler call
    · simp [recordAfter, clearedAfter, ending, full]
  · simp [recordAfter, clearedAfter, ending]

theorem record_videos (handler : OutputHandler α) (call : Call α) :
    (handler.record call).2.filterMap Effect.video? =
      videosOf (handler.clearedRecord call) := by
  simp only [record, clearedRecord, List.filterMap_append, videosOf_append,
    recordAgain_videos, recordMotion_videos, recordAfter_videos]

theorem snapshot_videos (handler : OutputHandler α) (call : Call α) :
    (handler.snapshot call).2.filterMap Effect.video? = [] := by
  unfold snapshot
  split <;> rfl

theorem plainEvents_videos (handler : OutputHandler α) :
    handler.plainEvents.filterMap Effect.video? = [] := by
  simp [plainEvents, Effect.video?]

/-- The writers of a call get the written segments that the call clears. -/
theorem out_videos (handler : OutputHandler α) (call : Call α) :
    (handler.out call).2.filterMap Effect.video? = videosOf (handler.cleared call) := by
  by_cases writing : handler.write = true
  · simp only [out, cleared, if_pos writing, List.filterMap_append, record_videos,
      snapshot_videos, plainEvents_videos, List.append_nil]
  · simp only [out, cleared, if_neg writing, List.filterMap_append, List.filterMap_nil,
      snapshot_videos, plainEvents_videos, List.append_nil, videosOf_nil]

end OutputHandler

/-! ## Segments of a run -/

theorem motionOf_append (first second : List (Call α)) :
    motionOf (first ++ second) = motionOf first ++ motionOf second := by
  simp [motionOf]

theorem Segment.PassedBy.motionOf {segment : Segment α} {calls : List (Call α)}
    (passed : segment.PassedBy calls) : motionOf calls = segment.motion := by
  have frames : Video.motionOf calls =
      ((calls.map fun call => (call.img, call.b)).filter Prod.snd).map Prod.fst := by
    simp [Video.motionOf, List.filter_map, Function.comp_def]
  rw [frames, passed]
  simp [List.filter_map, Function.comp_def]

/-- Between the segments nothing shows a motion. -/
theorem CutInto.motionOf {calls : List (Call α)} {segments : List (Segment α)}
    (cut : CutInto calls segments) : motionOf calls = segments.flatMap Segment.motion := by
  induction cut with
  | nil => rfl
  | still _ still ih =>
      rw [motionOf_append, ih]
      simp [Video.motionOf, still]
  | segment _ passed ih =>
      rw [motionOf_append, ih, passed.motionOf]
      simp

namespace OutputHandler

theorem closeBlock_clears (handler : OutputHandler α) (call : Call α) :
    (handler.closeBlock call).1.write = handler.write ∧
    (handler.closeBlock call).1.buf = handler.buf.clear ∧
    (handler.closeBlock call).1.buf2 = handler.buf2.clear ∧
    (handler.closeBlock call).1.buf3 = handler.buf3.clear := by
  by_cases long : 15 ≤ handler.buf.size + handler.buf2.size + handler.buf3.size ∧
      3 ≤ handler.buf.size
  · simp only [closeBlock, if_pos long]
    exact ⟨rfl, rfl, rfl, rfl⟩
  · simp only [closeBlock, if_neg long, and_self]

/-- What the flags of a handler say about its buffers. -/
inductive Phase (handler : OutputHandler α) : Prop where
  | before (pre : handler.pre = true) (post : handler.post = false)
      (buf : handler.buf.elements = []) (buf3 : handler.buf3.elements = [])
  | during (pre : handler.pre = false) (post : handler.post = false)
      (buf : handler.buf.elements ≠ []) (buf3 : handler.buf3.elements = [])
  | after (pre : handler.pre = false) (post : handler.post = true)
      (buf : handler.buf.elements ≠ [])

theorem Phase.flags {handler : OutputHandler α} (phase : handler.Phase) :
    ¬(handler.pre = true ∧ handler.post = true) := by
  rintro ⟨pre, post⟩
  cases phase with
  | before _ noPost => simp [noPost] at post
  | during noPre => simp [noPre] at pre
  | after noPre => simp [noPre] at pre

/-- The handler in the middle of a recording: the calls were cut into the
segments, and the buffers hold the calls since then. -/
structure Filming (size : Nat) (calls : List (Call α)) (segments : List (Segment α))
    (handler : OutputHandler α) : Prop where
  write : handler.write = true
  buf : handler.buf.capacity = size
  buf2 : handler.buf2.capacity = 10
  buf3 : handler.buf3.capacity = 10
  phase : handler.Phase
  written : ∀ segment ∈ segments, segment.written = true → segment.Fits size
  dropped : ∀ segment ∈ segments, segment.written = false → segment.Short
  cut : ∃ earlier rest, calls = earlier ++ rest ∧ CutInto earlier segments ∧
    (handler.contents false).PassedBy rest

namespace Filming

variable {size : Nat} {calls : List (Call α)} {segments : List (Segment α)}
  {handler : OutputHandler α}

/-- A buffer with motion holds a segment within the bounds. -/
theorem fits (filming : Filming size calls segments handler)
    (motion : handler.buf.elements ≠ []) (written : Bool) :
    (handler.contents written).Fits size where
  before := filming.buf2 ▸ handler.buf2.fits
  motion := ⟨List.length_pos_iff.mpr motion, filming.buf ▸ handler.buf.fits⟩
  after := filming.buf3 ▸ handler.buf3.fits

/-- The buffers are given up and the next segment starts with the next call. -/
theorem clear (filming : Filming size calls segments handler) {next : OutputHandler α}
    {segment : Segment α} (contents : segment = handler.contents segment.written)
    (written : segment.written = true → segment.Fits size)
    (dropped : segment.written = false → segment.Short)
    (write : next.write = handler.write)
    (buf : next.buf = handler.buf.clear) (buf2 : next.buf2 = handler.buf2.clear)
    (buf3 : next.buf3.elements = []) (capacity : next.buf3.capacity = handler.buf3.capacity)
    (pre : next.pre = true) (post : next.post = false) :
    Filming size calls (segments ++ [segment]) next where
  write := write.trans filming.write
  buf := by rw [buf, CircularBuffer.capacity_clear, filming.buf]
  buf2 := by rw [buf2, CircularBuffer.capacity_clear, filming.buf2]
  buf3 := capacity.trans filming.buf3
  phase := .before pre post (by rw [buf, CircularBuffer.elements_clear]) buf3
  written := by
    intro other member
    rcases List.mem_append.mp member with old | new
    · exact filming.written other old
    · rw [List.mem_singleton.mp new]
      exact written
  dropped := by
    intro other member
    rcases List.mem_append.mp member with old | new
    · exact filming.dropped other old
    · rw [List.mem_singleton.mp new]
      exact dropped
  cut := by
    rcases filming.cut with ⟨earlier, rest, rfl, cut, passed⟩
    have block : segment.PassedBy rest := by
      rw [contents]
      exact passed
    refine ⟨earlier ++ rest, [], by simp, .segment cut block, ?_⟩
    simp [Segment.PassedBy, OutputHandler.contents, buf, buf2, buf3]

/-- A closed segment is written within the bounds, and dropped when it is
short. -/
theorem close (filming : Filming size calls segments handler) (call : Call α) :
    Filming size calls (segments ++ [handler.closed]) (handler.closeBlock call).1 := by
  rcases handler.closeBlock_clears call with ⟨write, buf, buf2, buf3⟩
  refine filming.clear rfl ?_ ?_ write buf buf2 (by rw [buf3, CircularBuffer.elements_clear])
    (by rw [buf3, CircularBuffer.capacity_clear]) rfl rfl
  · intro written
    have long : 15 ≤ handler.buf.size + handler.buf2.size + handler.buf3.size ∧
        3 ≤ handler.buf.size := of_decide_eq_true written
    have motion : handler.buf.elements ≠ [] := by
      apply List.ne_nil_of_length_pos
      exact Nat.lt_of_lt_of_le (by decide) long.2
    exact filming.fits motion _
  · intro dropped
    have short : ¬(15 ≤ handler.buf.size + handler.buf2.size + handler.buf3.size ∧
        3 ≤ handler.buf.size) := of_decide_eq_false dropped
    simp only [Segment.Short, Segment.frames, closed, contents, List.length_append]
    simp only [CircularBuffer.size] at short
    omega

theorem recordAgain (filming : Filming size calls segments handler) (call : Call α) :
    Filming size calls (segments ++ handler.clearedAgain call)
      (handler.recordAgain call).1 := by
  unfold OutputHandler.recordAgain clearedAgain
  split
  · exact filming.close call
  · simpa using filming

/-- Keep a frame with motion in a buffer with space. -/
theorem keep (filming : Filming size calls segments handler) {call : Call α}
    (motion : call.b = true) (post : handler.post = false)
    (space : ¬handler.buf.full = true) :
    Filming size (calls ++ [call]) segments
      { handler with pre := false, buf := handler.buf.pushBack call.img } := by
  have buf3 : handler.buf3.elements = [] := by
    cases filming.phase with
    | before _ _ _ buf3 => exact buf3
    | during _ _ _ buf3 => exact buf3
    | after _ ended => simp [ended] at post
  have elements := CircularBuffer.elements_pushBack_of_space space call.img
  rcases filming.cut with ⟨earlier, rest, rfl, cut, passed⟩
  refine ⟨filming.write, filming.buf, filming.buf2, filming.buf3,
    .during rfl post ?_ buf3, filming.written, filming.dropped,
    earlier, rest ++ [call], by simp, cut, ?_⟩
  · rw [elements]
    simp
  · simp only [Segment.PassedBy, contents, buf3] at passed ⊢
    rw [elements, List.map_append, passed]
    simp [motion]

/-- A frame with motion enters the buffer, which is given up before when it is
full. -/
theorem recordMotion (filming : Filming size calls segments handler) {call : Call α}
    (motion : call.b = true) (capacity : 0 < size) (post : handler.post = false) :
    Filming size (calls ++ [call]) (segments ++ handler.clearedMotion call)
      (handler.recordMotion call).1 := by
  by_cases full : handler.buf.full = true
  · simp only [clearedMotion, OutputHandler.recordMotion, motion, full]
    have some : handler.buf.elements ≠ [] := by
      apply List.ne_nil_of_length_pos
      rw [CircularBuffer.full_iff.mp full, filming.buf]
      exact capacity
    have buf3 : handler.buf3.elements = [] := by
      cases filming.phase with
      | before _ _ buf => exact absurd buf some
      | during _ _ _ buf3 => exact buf3
      | after _ ended => simp [ended] at post
    have cleared : Filming size calls (segments ++ [handler.contents true])
        { (handler.forkVideoWriter call).1 with
          buf := handler.buf.clear, buf2 := handler.buf2.clear, pre := true } := by
      refine filming.clear rfl ?_ ?_ rfl rfl rfl buf3 rfl rfl post
      · intro _
        exact filming.fits some _
      · intro dropped
        cases dropped
    apply cleared.keep motion post
    rw [CircularBuffer.full_iff]
    simp only [CircularBuffer.elements_clear, CircularBuffer.capacity_clear, filming.buf]
    exact capacity.ne
  · simp only [clearedMotion, OutputHandler.recordMotion, motion, full]
    simpa using filming.keep motion post full

/-- The first frame without motion ends the motion. -/
theorem endMotion (filming : Filming size calls segments handler) {call : Call α}
    (still : call.b = false) :
    Filming size calls (segments ++ handler.clearedMotion call)
      (handler.recordMotion call).1 ∧
    ((handler.recordMotion call).1.pre = !(handler.recordMotion call).1.post) := by
  rcases filming with ⟨write, buf, buf2, buf3, phase, written, dropped, cut⟩
  simp only [clearedMotion, OutputHandler.recordMotion, still]
  cases phase with
  | before pre post noBuf noBuf3 =>
      simp only [pre, Bool.false_and, Bool.false_eq_true, if_false, Bool.not_true,
        List.append_nil]
      exact ⟨⟨write, buf, buf2, buf3, .before pre post noBuf noBuf3, written, dropped, cut⟩,
        by simp [post]⟩
  | during pre post motion _ =>
      simp only [pre, Bool.false_and, Bool.false_eq_true, if_false, Bool.not_false,
        if_true, List.append_nil]
      exact ⟨⟨write, buf, buf2, buf3, .after rfl rfl motion, written, dropped, cut⟩, by simp⟩
  | after pre post motion =>
      simp only [pre, Bool.false_and, Bool.false_eq_true, if_false, Bool.not_false,
        if_true, List.append_nil]
      exact ⟨⟨write, buf, buf2, buf3, .after rfl rfl motion, written, dropped, cut⟩, by simp⟩

/-- A frame before a motion enters the second buffer, which may give up its
oldest one. -/
theorem recordBefore (filming : Filming size calls segments handler) {call : Call α}
    (still : call.b = false) (pre : handler.pre = true) :
    Filming size (calls ++ [call]) segments (handler.recordBefore call) := by
  rcases filming.cut with ⟨earlier, rest, rfl, cut, passed⟩
  cases filming.phase with
  | during noPre => simp [noPre] at pre
  | after noPre => simp [noPre] at pre
  | before _ post buf buf3 =>
      simp only [OutputHandler.recordBefore, still, pre, Bool.not_false, Bool.true_and, if_true]
      simp only [Segment.PassedBy, contents, buf, buf3, List.map_nil, List.append_nil] at passed
      refine ⟨filming.write, filming.buf, filming.buf2, filming.buf3,
        .before rfl post buf buf3, filming.written, filming.dropped, ?_⟩
      by_cases full : handler.buf2.full = true
      · have elements := CircularBuffer.elements_pushBack_of_full full call.img
        cases rest with
        | nil =>
            have none : handler.buf2.elements = [] := by simpa using passed.symm
            have length := CircularBuffer.full_iff.mp full
            rw [none, filming.buf2] at length
            cases length
        | cons oldest rest =>
            obtain ⟨first, others, split⟩ : ∃ first others,
                handler.buf2.elements = first :: others := by
              cases shape : handler.buf2.elements with
              | nil => simp [shape] at passed
              | cons first others => exact ⟨first, others, rfl⟩
            simp only [split, List.map_cons, List.cons.injEq, Prod.mk.injEq] at passed
            refine ⟨earlier ++ [oldest], rest ++ [call], by simp, .still cut passed.1.2, ?_⟩
            simp [Segment.PassedBy, contents, buf, buf3, elements, split, passed.2, still]
      · have elements := CircularBuffer.elements_pushBack_of_space full call.img
        refine ⟨earlier, rest ++ [call], by simp, cut, ?_⟩
        simp [Segment.PassedBy, contents, buf, buf3, elements, passed, still]

/-- A frame after a motion enters the third buffer, or closes the block. -/
theorem recordAfter (filming : Filming size calls segments handler) {call : Call α}
    (still : call.b = false) (post : handler.post = true) :
    Filming size (calls ++ [call]) (segments ++ handler.clearedAfter call)
      (handler.recordAfter call).1 := by
  by_cases full : handler.buf3.full = true
  · simp only [OutputHandler.recordAfter, clearedAfter, still, post, full, Bool.not_false,
      Bool.and_true, if_true]
    obtain ⟨write, buf, buf2, buf3, phase, written, dropped, earlier, rest, rfl, cut, passed⟩ :=
      filming.close call
    have none : rest = [] := by
      simpa [Segment.PassedBy, contents, closeBlock] using passed
    refine ⟨write, buf, buf2, buf3, phase, written, dropped, earlier ++ [call], rest, ?_,
      .still cut still, passed⟩
    simp [none]
  · simp only [OutputHandler.recordAfter, clearedAfter, still, post, full, Bool.not_false,
      Bool.true_and, Bool.and_false, Bool.false_eq_true, if_false, if_true, List.append_nil]
    rcases filming.cut with ⟨earlier, rest, rfl, cut, passed⟩
    cases filming.phase with
    | before _ noPost => simp [noPost] at post
    | during _ noPost => simp [noPost] at post
    | after pre _ motion =>
        refine ⟨filming.write, filming.buf, filming.buf2, filming.buf3, .after pre rfl motion,
          filming.written, filming.dropped, earlier, rest ++ [call], by simp, cut, ?_⟩
        have elements := CircularBuffer.elements_pushBack_of_space full call.img
        simp only [Segment.PassedBy, contents] at passed ⊢
        rw [elements, List.map_append, passed]
        simp [still]

/-- A call continues the recording. -/
theorem record (filming : Filming size calls segments handler) (call : Call α)
    (capacity : 0 < size) :
    Filming size (calls ++ [call]) (segments ++ handler.clearedRecord call)
      (handler.record call).1 := by
  have again := filming.recordAgain call
  by_cases motion : call.b = true
  · have post : (handler.recordAgain call).1.post = false := by
      unfold OutputHandler.recordAgain
      by_cases ended : handler.post = true
      · rw [if_pos (by simp [motion, ended])]
        rfl
      · rw [if_neg (by simp [ended])]
        simpa using ended
    have kept := again.recordMotion motion capacity post
    simpa [OutputHandler.record, clearedRecord, clearedAfter, OutputHandler.recordAfter,
      OutputHandler.recordBefore, motion] using kept
  · have still : call.b = false := by simpa using motion
    rcases again.endMotion still with ⟨ended, flags⟩
    by_cases pre : ((handler.recordAgain call).1.recordMotion call).1.pre = true
    · have post : ((handler.recordAgain call).1.recordMotion call).1.post = false := by
        simpa [pre] using flags
      have kept := ended.recordBefore still pre
      simpa [OutputHandler.record, clearedRecord, clearedAfter, OutputHandler.recordAfter,
        OutputHandler.recordBefore, still, pre, post] using kept
    · have post : ((handler.recordAgain call).1.recordMotion call).1.post = true := by
        simpa [pre] using flags
      have kept := ended.recordAfter still post
      simpa [OutputHandler.record, clearedRecord, OutputHandler.recordBefore, still, pre]
        using kept

theorem out (filming : Filming size calls segments handler) (call : Call α)
    (capacity : 0 < size) :
    Filming size (calls ++ [call]) (segments ++ handler.cleared call)
      (handler.out call).1 := by
  rcases filming.record call capacity with ⟨write, buf, buf2, buf3, phase, written, dropped, cut⟩
  simp only [OutputHandler.out, cleared, if_pos filming.write]
  unfold snapshot
  split
  · refine ⟨write, buf, buf2, buf3, ?_, written, dropped, cut⟩
    cases phase with
    | before pre post buf buf3 => exact .before pre post buf buf3
    | during pre post buf buf3 => exact .during pre post buf buf3
    | after pre post buf => exact .after pre post buf
  · exact ⟨write, buf, buf2, buf3, phase, written, dropped, cut⟩

theorem recorded (filming : Filming size calls segments handler)
    {videos : List (List (Image α))} (blocks : videos = videosOf segments) :
    Recorded size calls handler videos segments where
  videos := blocks
  written := filming.written
  dropped := filming.dropped
  cut := filming.cut
  motion := by
    rcases filming.cut with ⟨earlier, rest, rfl, cut, passed⟩
    rw [motionOf_append, cut.motionOf, passed.motionOf]
    rfl
  flags := filming.phase.flags

end Filming

end OutputHandler

/-! ## Recordings -/

section Runs

variable {storage : Bool} {path : Str} {size : Nat} {map : RuleMap}

theorem segmentMachine_state (calls : List (Call α)) :
    ((segmentMachine storage path size map).run calls).state =
      ((handlerMachine storage path size map).run calls).state := by
  induction calls using List.reverseRecOn with
  | nil => rfl
  | append_singleton calls call ih =>
      rw [Machine.run_concat, Machine.run_concat, Machine.extend_state, Machine.extend_state, ih]
      rfl

theorem new_filming (video : map.asking .video ≠ []) :
    OutputHandler.Filming size [] []
      (OutputHandler.new storage path size map : OutputHandler α) where
  write := by
    rcases List.exists_mem_of_ne_nil _ video with ⟨rule, member⟩
    rcases List.mem_map.mp member with ⟨entry, found, rfl⟩
    rw [List.mem_filter] at found
    exact List.any_eq_true.mpr ⟨entry, found⟩
  buf := rfl
  buf2 := rfl
  buf3 := rfl
  phase := .before rfl rfl rfl rfl
  written := by simp
  dropped := by simp
  cut := ⟨[], [], rfl, .nil, rfl⟩

theorem filming_run (capacity : 0 < size) (video : map.asking .video ≠ [])
    (calls : List (Call α)) :
    OutputHandler.Filming size calls
      (((segmentMachine storage path size map).run calls).trace.map Prod.snd)
      ((handlerMachine storage path size map).run calls).state := by
  induction calls using List.reverseRecOn with
  | nil => exact new_filming video
  | append_singleton calls call ih =>
      rw [Machine.run_concat, Machine.run_concat, Machine.extend_trace, segmentMachine_state]
      simp only [List.map_append, List.map_map, Function.comp_def, List.map_id']
      exact ih.out call capacity

theorem videos_run (calls : List (Call α)) :
    ((handlerMachine storage path size map).run calls).trace.filterMap
        (fun item => item.2.video?) =
      videosOf (((segmentMachine storage path size map).run calls).trace.map Prod.snd) := by
  induction calls using List.reverseRecOn with
  | nil => rfl
  | append_singleton calls call ih =>
      rw [Machine.run_concat, Machine.run_concat, Machine.extend_trace, Machine.extend_trace,
        segmentMachine_state, List.filterMap_append, ih, List.map_append, videosOf_append,
        List.filterMap_map, List.map_map]
      congr 1
      have videos := OutputHandler.out_videos
        ((handlerMachine storage path size map).run calls).state call
      simpa [Function.comp_def, segmentMachine, handlerMachine] using videos

/-- A handler with a video rule and space for a frame with motion records
without loss: its videos are disjoint blocks of the input in input order, and a
frame with motion that is in no video is still in the buffer or was in a segment
that was too short. -/
theorem recording_without_loss (storage : Bool) (path : Str) (size : Nat) (map : RuleMap)
    (capacity : 0 < size) (video : map.asking .video ≠ []) (calls : List (Call α)) :
    Recorded size calls ((handlerMachine storage path size map).run calls).state
      (((handlerMachine storage path size map).run calls).trace.filterMap
        fun item => item.2.video?)
      (((segmentMachine storage path size map).run calls).trace.map Prod.snd) :=
  (filming_run capacity video calls).recorded (videos_run calls)

end Runs

/-! ## A recording -/

/-- A rule with a video. -/
def videoAction : ActionInfo where
  module := "module_sms".toList
  key := "send".toList
  configuration := .ofList [("attachments".toList, "video".toList)]

/-- A frame with or without motion. -/
def frameCall (imageId : UInt64) (b : Bool) : Call Unit :=
  { stillCall with img := ⟨(), imageId, 1⟩, b := b }

/-- Two motions in a row fill a buffer for one frame with motion. -/
theorem recording_of_two_frames :
    Recorded 1 [frameCall 1 false, frameCall 2 true, frameCall 3 true]
      ((handlerMachine false "/tmp/sentri/".toList 1 (.ofList [(1, videoAction)])).run
        [frameCall 1 false, frameCall 2 true, frameCall 3 true]).state
      [[⟨(), 1, 1⟩, ⟨(), 2, 1⟩]]
      [⟨[⟨(), 1, 1⟩], [⟨(), 2, 1⟩], [], true⟩] := by
  have recorded := recording_without_loss false "/tmp/sentri/".toList 1
    (.ofList [(1, videoAction)]) (by decide) (by decide +kernel)
    [frameCall 1 false, frameCall 2 true, frameCall 3 true]
  have segments : ((segmentMachine false "/tmp/sentri/".toList 1
      (.ofList [(1, videoAction)])).run
      [frameCall 1 false, frameCall 2 true, frameCall 3 true]).trace.map Prod.snd =
        [⟨[⟨(), 1, 1⟩], [⟨(), 2, 1⟩], [], true⟩] := by
    decide +kernel
  rw [segments] at recorded
  have videos := recorded.videos
  rw [videos] at recorded
  exact recorded

end Sentri.Modules.Video
