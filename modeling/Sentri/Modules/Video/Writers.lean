import Sentri.Modules.Video.OutputHandler

/-!
# Writers and their files

Apart from its buffers and flags, a call of `out` changes a handler only by
starting writers: every file is registered with the rules that ask for it.
-/

namespace Sentri.Modules.Video

open Sentri.Data Sentri.LibModule Sentri.Text

universe u

variable {α : Type u}

/-- The file that a writer writes. -/
def Effect.file? : Effect α → Option (Attachment × Str)
  | .imageWriter name _ => some (.image, name)
  | .videoWriter name _ => some (.video, name)
  | .sent _ => none
  | .removed _ => none

/-- The counts after a writer was started. -/
def RuleMap.registerEffect (map : RuleMap) (pending : Pending) (effect : Effect α) : Pending :=
  match effect.file? with
  | some (attachment, name) => pending.register name (map.asking attachment)
  | none => pending

/-- A writer of a file below a path. -/
def Effect.WritesBelow (path : Str) (effect : Effect α) : Prop :=
  ∃ (attachment : Attachment) (img : Image α) (time : IsoTime),
    effect.file? = some (attachment, attachment.file path img time)

/-- From one state of a handler to another, writers were started and their
files registered. -/
structure Starts (handler next : OutputHandler α) (effects : List (Effect α)) : Prop where
  path : next.path = handler.path
  map : next.map = handler.map
  pending : next.pendingAttachments =
    effects.foldl handler.map.registerEffect handler.pendingAttachments
  writers : ∀ effect ∈ effects, effect.WritesBelow handler.path

namespace Starts

theorem refl (handler : OutputHandler α) : Starts handler handler [] :=
  ⟨rfl, rfl, rfl, by simp⟩

theorem trans {handler middle next : OutputHandler α} {first second : List (Effect α)}
    (one : Starts handler middle first) (two : Starts middle next second) :
    Starts handler next (first ++ second) where
  path := two.path.trans one.path
  map := two.map.trans one.map
  pending := by rw [two.pending, one.map, one.pending, List.foldl_append]
  writers := by
    intro effect member
    rcases List.mem_append.mp member with old | new
    · exact one.writers effect old
    · exact one.path ▸ two.writers effect new

end Starts

namespace OutputHandler

theorem forkImageWriter_starts (handler : OutputHandler α) (call : Call α) :
    Starts handler (handler.forkImageWriter call).1 (handler.forkImageWriter call).2 where
  path := rfl
  map := rfl
  pending := rfl
  writers := by
    intro effect member
    rw [List.mem_singleton.mp member]
    exact ⟨.image, call.img, call.imageTime, rfl⟩

theorem forkVideoWriter_starts (handler : OutputHandler α) (call : Call α) :
    Starts handler (handler.forkVideoWriter call).1 (handler.forkVideoWriter call).2 where
  path := rfl
  map := rfl
  pending := rfl
  writers := by
    intro effect member
    rw [List.mem_singleton.mp member]
    exact ⟨.video, _, call.videoTime, rfl⟩

theorem closeBlock_starts (handler : OutputHandler α) (call : Call α) :
    Starts handler (handler.closeBlock call).1 (handler.closeBlock call).2 := by
  by_cases long : 15 ≤ handler.buf.size + handler.buf2.size + handler.buf3.size ∧
      3 ≤ handler.buf.size
  · simp only [closeBlock, if_pos long]
    obtain ⟨path, map, pending, writers⟩ := forkVideoWriter_starts handler call
    exact ⟨path, map, pending, writers⟩
  · simp only [closeBlock, if_neg long]
    exact ⟨rfl, rfl, rfl, by simp⟩

theorem recordAgain_starts (handler : OutputHandler α) (call : Call α) :
    Starts handler (handler.recordAgain call).1 (handler.recordAgain call).2 := by
  unfold recordAgain
  split
  · exact closeBlock_starts handler call
  · exact Starts.refl handler

theorem recordMotion_starts (handler : OutputHandler α) (call : Call α) :
    Starts handler (handler.recordMotion call).1 (handler.recordMotion call).2 := by
  by_cases motion : call.b = true
  · by_cases full : handler.buf.full = true
    · simp only [recordMotion, if_pos motion, if_pos full]
      obtain ⟨path, map, pending, writers⟩ := forkVideoWriter_starts handler call
      exact ⟨path, map, pending, writers⟩
    · simp only [recordMotion, if_pos motion, if_neg full]
      exact ⟨rfl, rfl, rfl, by simp⟩
  · unfold recordMotion
    rw [if_neg motion]
    split <;> exact ⟨rfl, rfl, rfl, by simp⟩

theorem recordBefore_starts (handler : OutputHandler α) (call : Call α) :
    Starts handler (handler.recordBefore call) [] := by
  unfold recordBefore
  split <;> exact ⟨rfl, rfl, rfl, by simp⟩

theorem recordAfter_starts (handler : OutputHandler α) (call : Call α) :
    Starts handler (handler.recordAfter call).1 (handler.recordAfter call).2 := by
  unfold recordAfter
  split
  · split
    · exact closeBlock_starts handler call
    · exact ⟨rfl, rfl, rfl, by simp⟩
  · exact Starts.refl handler

theorem record_starts (handler : OutputHandler α) (call : Call α) :
    Starts handler (handler.record call).1 (handler.record call).2 := by
  have again := recordAgain_starts handler call
  have motion := again.trans (recordMotion_starts (handler.recordAgain call).1 call)
  have before := motion.trans (recordBefore_starts _ call)
  rw [List.append_nil] at before
  exact before.trans (recordAfter_starts _ call)

theorem snapshot_starts (handler : OutputHandler α) (call : Call α) :
    Starts handler (handler.snapshot call).1 (handler.snapshot call).2 := by
  unfold snapshot
  split
  · exact forkImageWriter_starts handler call
  · exact Starts.refl handler

/-- A call starts writers, and sends the events of the rules without an
attachment. -/
theorem out_starts (handler : OutputHandler α) (call : Call α) :
    ∃ writers, Starts handler (handler.out call).1 writers ∧
      (handler.out call).2 = writers ++ handler.plainEvents := by
  by_cases writing : handler.write = true
  · have starts := (record_starts handler call).trans
      (snapshot_starts (handler.record call).1 call)
    refine ⟨(handler.record call).2 ++ ((handler.record call).1.snapshot call).2, ?_, ?_⟩
    · simpa only [out, if_pos writing] using starts
    · simp only [out, if_pos writing, plainEvents, starts.map]
  · have starts := snapshot_starts handler call
    refine ⟨(handler.snapshot call).2, ?_, ?_⟩
    · simpa only [out, if_neg writing] using starts
    · simp only [out, if_neg writing, plainEvents, starts.map, List.nil_append]

theorem out_map (handler : OutputHandler α) (call : Call α) :
    (handler.out call).1.map = handler.map := by
  obtain ⟨writers, starts, _⟩ := out_starts handler call
  exact starts.map

/-- Every call sends the events of the rules without an attachment. -/
theorem plainEvents_subset_out (handler : OutputHandler α) (call : Call α) :
    handler.plainEvents ⊆ (handler.out call).2 := by
  obtain ⟨writers, _, effects⟩ := out_starts handler call
  rw [effects]
  exact List.subset_append_right _ _

end OutputHandler

end Sentri.Modules.Video
