import Sentri.Modules.Video.Motion

/-!
# Images and videos on demand

An output handler writes videos only when a rule asks for them.  It should do the same
with images, but the flag for them keeps what the memory held before when no rule sets
it.
-/

namespace Sentri.Modules.Video

open Sentri.Data Sentri.LibModule Sentri.Text Sentri.Transition

universe u

variable {α : Type u}

/-- Some rule asks for the attachment. -/
def RuleMap.asks (map : RuleMap) (attachment : Attachment) : Bool :=
  map.toList.any fun rule => asksFor attachment rule.2

/-- The attachment that a writer writes. -/
def Effect.attachment? (effect : Effect α) : Option Attachment :=
  effect.file?.map Prod.fst

/-- How many writers of an attachment were started. -/
def started (attachment : Attachment) (effects : List (Effect α)) : Nat :=
  effects.countP fun effect => effect.attachment? = some attachment

/-- In every call the image writer is started once if the frame shows a motion and some
rule asks for images, else not at all, and the video writer is started only if some rule
asks for videos. -/
def WritesOnDemand (machine : Machine (OutputHandler α) (Call α) (Effect α)) (map : RuleMap)
    (calls : List (Call α)) : Prop :=
  Throughout (fun before call =>
    let effects := (machine.step (machine.run before).state call).2
    started .image effects = (if call.b && map.asks .image then 1 else 0) ∧
      (0 < started .video effects → map.asks .video = true)) calls

@[simp]
theorem started_nil (attachment : Attachment) :
    started attachment ([] : List (Effect α)) = 0 :=
  rfl

theorem started_append (attachment : Attachment) (first second : List (Effect α)) :
    started attachment (first ++ second) =
      started attachment first + started attachment second :=
  List.countP_append

namespace OutputHandler

/-- The rules and the flags that tell what they ask for. -/
def demand (handler : OutputHandler α) : RuleMap × Bool × Bool :=
  (handler.map, handler.write, handler.image)

/-! ## The demand never changes -/

theorem closeBlock_demand (handler : OutputHandler α) (call : Call α) :
    (handler.closeBlock call).1.demand = handler.demand := by
  by_cases long : 15 ≤ handler.buf.size + handler.buf2.size + handler.buf3.size ∧
      3 ≤ handler.buf.size
  · simp only [closeBlock, if_pos long]
    rfl
  · simp only [closeBlock, if_neg long]
    rfl

theorem recordAgain_demand (handler : OutputHandler α) (call : Call α) :
    (handler.recordAgain call).1.demand = handler.demand := by
  unfold recordAgain
  split
  · exact closeBlock_demand handler call
  · rfl

theorem recordMotion_demand (handler : OutputHandler α) (call : Call α) :
    (handler.recordMotion call).1.demand = handler.demand := by
  by_cases motion : call.b = true
  · by_cases full : handler.buf.full = true
    · simp only [recordMotion, if_pos motion, if_pos full]
      rfl
    · simp only [recordMotion, if_pos motion, if_neg full]
      rfl
  · unfold recordMotion
    rw [if_neg motion]
    split <;> rfl

theorem recordBefore_demand (handler : OutputHandler α) (call : Call α) :
    (handler.recordBefore call).demand = handler.demand := by
  unfold recordBefore
  split <;> rfl

theorem recordAfter_demand (handler : OutputHandler α) (call : Call α) :
    (handler.recordAfter call).1.demand = handler.demand := by
  unfold recordAfter
  split
  · split
    · exact closeBlock_demand handler call
    · rfl
  · rfl

theorem record_demand (handler : OutputHandler α) (call : Call α) :
    (handler.record call).1.demand = handler.demand :=
  calc (handler.record call).1.demand
    _ = (((handler.recordAgain call).1.recordMotion call).1.recordBefore call).demand :=
        recordAfter_demand _ call
    _ = ((handler.recordAgain call).1.recordMotion call).1.demand := recordBefore_demand _ call
    _ = (handler.recordAgain call).1.demand := recordMotion_demand _ call
    _ = handler.demand := recordAgain_demand handler call

theorem snapshot_demand (handler : OutputHandler α) (call : Call α) :
    (handler.snapshot call).1.demand = handler.demand := by
  unfold snapshot
  split <;> rfl

theorem out_demand (handler : OutputHandler α) (call : Call α) :
    (handler.out call).1.demand = handler.demand := by
  by_cases writing : handler.write = true
  · simp only [out, if_pos writing]
    exact (snapshot_demand _ call).trans (record_demand handler call)
  · simp only [out, if_neg writing]
    exact snapshot_demand handler call

/-! ## What a call starts -/

theorem started_plainEvents (attachment : Attachment) (handler : OutputHandler α) :
    started attachment handler.plainEvents = 0 := by
  simp [started, plainEvents, Effect.attachment?, Effect.file?]

theorem started_snapshot (handler : OutputHandler α) (call : Call α) :
    started .image (handler.snapshot call).2 = (if call.b && handler.image then 1 else 0) ∧
      started .video (handler.snapshot call).2 = 0 := by
  rw [Bool.and_comm]
  by_cases due : (handler.image && call.b) = true
  · simp only [snapshot, if_pos due]
    exact ⟨rfl, rfl⟩
  · simp only [snapshot, if_neg due]
    exact ⟨rfl, rfl⟩

/-- All that is started for the recording are video writers. -/
theorem attachment_of_mem_record {handler : OutputHandler α} {call : Call α}
    {effect : Effect α} (member : effect ∈ (handler.record call).2) :
    effect.attachment? = some .video := by
  simp only [record, List.mem_append] at member
  rcases member with (again | motion) | after
  · unfold recordAgain at again
    split at again
    · rcases mem_closeBlock again with ⟨_, name, rfl⟩
      rfl
    · cases again
  · generalize (handler.recordAgain call).1 = recording at motion
    by_cases moves : call.b = true
    · by_cases full : recording.buf.full = true
      · simp only [recordMotion, if_pos moves, if_pos full, forkVideoWriter,
          List.mem_singleton] at motion
        rw [motion]
        rfl
      · simp only [recordMotion, if_pos moves, if_neg full] at motion
        cases motion
    · unfold recordMotion at motion
      rw [if_neg moves] at motion
      split at motion <;> cases motion
  · rcases mem_recordAfter after with ⟨_, name, rfl⟩
    rfl

/-- Recording starts no image writer. -/
theorem started_record (handler : OutputHandler α) (call : Call α) :
    started .image (handler.record call).2 = 0 := by
  rw [started, List.countP_eq_zero]
  intro effect member
  rw [attachment_of_mem_record member]
  decide

/-- A call starts an image writer if it is to write images and the frame shows a motion,
and a video writer only if it is to write videos. -/
theorem started_out (handler : OutputHandler α) (call : Call α) :
    started .image (handler.out call).2 = (if call.b && handler.image then 1 else 0) ∧
      (0 < started .video (handler.out call).2 → handler.write = true) := by
  by_cases writing : handler.write = true
  · have image : (handler.record call).1.image = handler.image :=
      congrArg (fun demand => demand.2.2) (record_demand handler call)
    refine ⟨?_, fun _ => writing⟩
    simp only [out, if_pos writing, started_append, started_plainEvents, started_record,
      (started_snapshot _ call).1, image, Nat.zero_add, Nat.add_zero]
  · simp only [out, if_neg writing, started_append, started_plainEvents, started_nil,
      (started_snapshot handler call).1, (started_snapshot handler call).2, Nat.zero_add,
      Nat.add_zero]
    exact ⟨trivial, fun positive => absurd positive (lt_irrefl 0)⟩

end OutputHandler

/-! ## Runs -/

section Runs

variable {storage : Bool} {path : Str} {size : Nat} {map : RuleMap}

theorem handlerMachine_demand (calls : List (Call α)) :
    ((handlerMachine storage path size map).run calls).state.demand =
      (map, map.asks .video, storage || map.asks .image) := by
  induction calls using List.reverseRecOn with
  | nil => rfl
  | append_singleton calls call ih =>
      rw [Machine.run_concat]
      exact (OutputHandler.out_demand _ call).trans ih

/-- Images are only written when asked for if and only if the memory of the flag held
false, or some rule asks for images, or no frame shows a motion. -/
theorem writes_on_demand_iff (storage : Bool) (path : Str) (size : Nat) (map : RuleMap)
    (calls : List (Call α)) :
    WritesOnDemand (handlerMachine storage path size map) map calls ↔
      storage = false ∨ map.asks .image = true ∨ ∀ call ∈ calls, call.b = false := by
  have flags : ∀ before : List (Call α),
      ((handlerMachine storage path size map).run before).state.write = map.asks .video ∧
        ((handlerMachine storage path size map).run before).state.image =
          (storage || map.asks .image) := by
    intro before
    have demand := @handlerMachine_demand α storage path size map before
    exact ⟨congrArg (fun demand => demand.2.1) demand,
      congrArg (fun demand => demand.2.2) demand⟩
  constructor
  · intro onDemand
    by_contra neither
    obtain ⟨held, unasked, someMotion⟩ :
        storage = true ∧ map.asks .image = false ∧ ∃ call ∈ calls, call.b = true := by
      simpa using neither
    subst held
    rcases someMotion with ⟨call, member, motion⟩
    rcases List.append_of_mem member with ⟨before, after, split⟩
    have asked := (onDemand before call after split).1
    have written := (OutputHandler.started_out
      ((handlerMachine true path size map).run before).state call).1
    rw [(flags before).2, motion, Bool.true_or, Bool.and_true, if_pos rfl] at written
    rw [motion, unasked, Bool.and_false, if_neg Bool.false_ne_true] at asked
    exact Nat.one_ne_zero (written.symm.trans asked)
  · intro harmless before call after split
    have wrote := OutputHandler.started_out
      ((handlerMachine storage path size map).run before).state call
    rw [(flags before).1, (flags before).2] at wrote
    refine ⟨wrote.1.trans ?_, wrote.2⟩
    rcases harmless with clear | asked | still
    · rw [clear, Bool.false_or]
    · rw [asked, Bool.or_true]
    · rw [still call (by simp [split]), Bool.false_and, Bool.false_and]

end Runs

/-- A frame with motion. -/
def movingCall : Call Unit :=
  { stillCall with b := true }

/-- Memory that held true makes an image of a frame that no rule wants. -/
theorem image_without_demand :
    ¬ WritesOnDemand (handlerMachine true "/tmp/sentri/".toList 20 (.ofList [(1, plainAction)]))
      (.ofList [(1, plainAction)]) [movingCall] := by
  intro onDemand
  have asked := (onDemand [] movingCall [] rfl).1
  revert asked
  decide +kernel

end Sentri.Modules.Video
