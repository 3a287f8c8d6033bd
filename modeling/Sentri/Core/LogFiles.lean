import Sentri.Data.Least
import Sentri.Text.Basic
import Mathlib.Data.List.Nodup

/-!
# The log files

Before the core logs anything it makes room in the log directory.  It counts the
files, and for each one too many searches the directory for the oldest file and
removes it.  Each pass over the directory gives the files in an order of its own.
The sinks of the logging library come after that and are not part of it.
-/

namespace Sentri.Core.CoreLogger

open Sentri.Data Sentri.Text

/-- Rotary logs of a session. -/
def rotaries : Nat :=
  5

/-- Maximum number of files in the log directory. -/
def maxLogs : Nat :=
  20

structure LogFile where
  path : Str
  lastWriteTime : Int
  deriving DecidableEq

/-- The first file was not written after the second. -/
def LogFile.notAfter (first second : LogFile) : Bool :=
  decide (first.lastWriteTime ≤ second.lastWriteTime)

/-- The files of a directory. -/
structure Directory where
  files : List LogFile
  distinct : (files.map LogFile.path).Nodup

namespace Directory

def empty : Directory :=
  ⟨[], List.nodup_nil⟩

/-- The directory without the file at a path. -/
def remove (path : Str) (directory : Directory) : Directory where
  files := directory.files.filter fun file => file.path ≠ path
  distinct := directory.distinct.sublist (List.filter_sublist.map LogFile.path)

end Directory

/-- How the operating system answers.  A removal that fails throws. -/
structure FileSystem where
  /-- The order in which a pass over the directory gives its files. -/
  iterate : Nat → Directory → List LogFile
  perm : ∀ pass directory, (iterate pass directory).Perm directory.files
  removes : Nat → Bool
  createsDirectories : Bool

/-- Remove the oldest file, and again for the number of files that are left to be
removed.  The exception of a removal that fails ends the loop.  Nothing is at the path
of an entry that was never set. -/
def removeOldest (system : FileSystem) (pass : Nat) : Nat → Directory → Directory
  | 0, directory => directory
  | i + 1, directory =>
      match leastFrom LogFile.notAfter none (system.iterate pass directory) with
      | none => removeOldest system (pass + 1) i directory
      | some oldest =>
          if system.removes pass then
            removeOldest system (pass + 1) i (directory.remove oldest.path)
          else
            directory

/-- What the constructor does to the log directory.  There is no result when the program
is terminated. -/
def new (system : FileSystem) : Option Directory → Option Directory
  | some directory =>
      let logCount := (system.iterate 0 directory).length
      let i : Int := logCount - maxLogs + rotaries
      some (removeOldest system 1 i.toNat directory)
  | none => if system.createsDirectories then some Directory.empty else none

/-! ## Removing one file -/

namespace Directory

/-- A file is told by its path. -/
theorem mem_remove {directory : Directory} {file other : LogFile}
    (member : file ∈ directory.files) :
    other ∈ (directory.remove file.path).files ↔ other ∈ directory.files ∧ other ≠ file := by
  simp only [remove, List.mem_filter, decide_eq_true_eq]
  constructor
  · rintro ⟨otherMember, different⟩
    exact ⟨otherMember, fun equal => different (congrArg LogFile.path equal)⟩
  · rintro ⟨otherMember, different⟩
    refine ⟨otherMember, fun same => different ?_⟩
    exact List.inj_on_of_nodup_map directory.distinct otherMember member same

theorem length_remove {directory : Directory} {file : LogFile}
    (member : file ∈ directory.files) :
    (directory.remove file.path).files.length = directory.files.length - 1 := by
  have distinct : directory.files.Nodup := List.Nodup.of_map _ directory.distinct
  have erased : (directory.remove file.path).files = directory.files.erase file := by
    rw [distinct.erase_eq_filter, remove]
    apply List.filter_congr
    intro other otherMember
    have same : other.path = file.path ↔ other = file :=
      ⟨List.inj_on_of_nodup_map directory.distinct otherMember member, congrArg LogFile.path⟩
    simp [same, bne, beq_eq_decide]
  rw [erased, List.length_erase_of_mem member]

end Directory

/-! ## Removing the oldest files -/

/-- A pass over a directory with files finds one that is not more recent than any. -/
theorem oldest_of_files (system : FileSystem) (pass : Nat) {directory : Directory}
    (nonempty : directory.files ≠ []) :
    ∃ oldest, leastFrom LogFile.notAfter none (system.iterate pass directory) =
        some oldest ∧ oldest ∈ directory.files ∧
      ∀ file ∈ directory.files, oldest.lastWriteTime ≤ file.lastWriteTime := by
  have order := system.perm pass directory
  have listed : system.iterate pass directory ≠ [] := fun empty =>
    nonempty (List.nil_perm.mp (empty ▸ order))
  have total : ∀ first second : LogFile,
      first.notAfter second = true ∨ second.notAfter first = true := by
    intro first second
    simpa [LogFile.notAfter] using le_total first.lastWriteTime second.lastWriteTime
  have trans : ∀ first second third : LogFile, first.notAfter second = true →
      second.notAfter third = true → first.notAfter third = true := by
    intro first second third
    simpa [LogFile.notAfter] using le_trans
  rcases leastFrom_none total trans listed with ⟨oldest, found, member, least⟩
  refine ⟨oldest, found, order.mem_iff.mp member, fun file fileMember => ?_⟩
  exact of_decide_eq_true (least file (order.mem_iff.mpr fileMember))

/-- The loop leaves so many files less, and removes none that is more recent than one that
it leaves. -/
theorem removeOldest_spec {system : FileSystem} (succeed : ∀ pass, system.removes pass = true)
    (pass i : Nat) (directory : Directory) :
    (removeOldest system pass i directory).files.length = directory.files.length - i ∧
      (removeOldest system pass i directory).files ⊆ directory.files ∧
      ∀ removed ∈ directory.files, removed ∉ (removeOldest system pass i directory).files →
        ∀ left ∈ (removeOldest system pass i directory).files,
          removed.lastWriteTime ≤ left.lastWriteTime := by
  induction i generalizing pass directory with
  | zero => exact ⟨rfl, List.Subset.refl _, fun removed member gone => absurd member gone⟩
  | succ i ih =>
      by_cases nonempty : directory.files = []
      · have order := system.perm pass directory
        rw [nonempty, List.perm_nil] at order
        simp only [removeOldest, order, leastFrom]
        have rest := ih (pass + 1) directory
        rw [nonempty] at rest ⊢
        simpa using rest
      · rcases oldest_of_files system pass nonempty with ⟨oldest, found, member, least⟩
        simp only [removeOldest, found, succeed, if_true]
        rcases ih (pass + 1) (directory.remove oldest.path) with ⟨length, subset, recent⟩
        have smaller : (directory.remove oldest.path).files ⊆ directory.files := fun file kept =>
          ((Directory.mem_remove member).mp kept).1
        refine ⟨?_, fun file kept => smaller (subset kept), ?_⟩
        · rw [length, Directory.length_remove member]
          omega
        · intro removed removedMember gone left leftMember
          by_cases same : removed = oldest
          · rw [same]
            exact least left (smaller (subset leftMember))
          · exact recent removed ((Directory.mem_remove member).mpr ⟨removedMember, same⟩) gone
              left leftMember

/-- The constructor leaves as many files as there may be beside those of a session, or
all if there are less, and removes no file that is more recent than one it leaves. -/
theorem new_prunes (system : FileSystem) (succeed : ∀ pass, system.removes pass = true)
    (directory : Directory) :
    ∃ left, new system (some directory) = some left ∧
      left.files ⊆ directory.files ∧
      left.files.length = min directory.files.length (maxLogs - rotaries) ∧
      ∀ removed ∈ directory.files, removed ∉ left.files → ∀ file ∈ left.files,
        removed.lastWriteTime ≤ file.lastWriteTime := by
  have counted : (system.iterate 0 directory).length = directory.files.length :=
    (system.perm 0 directory).length_eq
  refine ⟨_, rfl, ?_⟩
  rw [counted]
  rcases removeOldest_spec succeed 1
    ((directory.files.length : Int) - maxLogs + rotaries).toNat directory
    with ⟨length, subset, recent⟩
  refine ⟨subset, ?_, recent⟩
  rw [length, maxLogs, rotaries]
  omega

/-- Sixteen files of the same time. -/
def sameTimes : Directory where
  files := (List.range 16).map fun n => ⟨List.replicate (n + 1) 'l', 0⟩
  distinct := by decide +kernel

/-- One of them is removed. -/
theorem new_prunes_sameTimes :
    ∃ left, new ⟨fun _ directory => directory.files.reverse,
        fun _ directory => List.reverse_perm directory.files, fun _ => true, true⟩
        (some sameTimes) = some left ∧ left.files.length = 15 := by
  rcases new_prunes ⟨fun _ directory => directory.files.reverse,
    fun _ directory => List.reverse_perm directory.files, fun _ => true, true⟩
    (fun _ => rfl) sameTimes with ⟨left, pruned, _, length, _⟩
  exact ⟨left, pruned, length⟩

end Sentri.Core.CoreLogger
