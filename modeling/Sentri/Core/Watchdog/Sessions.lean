import Sentri.Core.Watchdog.Frames
import Sentri.Core.Watchdog.Processes

/-!
# A process table with sessions

Every process that the core forks leads a session and a process group of its own
at once, and may fork children, which stay in this group.  No pid is given twice.
A signal reaches its target before the system call ends.
-/

namespace Sentri.Core

open Sentri.Text Sentri.Transition

/-- What the processes of the modules do on their own. -/
inductive Deed where
  | exit (pid : Int)
  /-- A process forks a child, which stays in its group. -/
  | fork (parent pid : Int)

/-- No process comes to life, appears or changes its group. -/
def ProcessTable.Wanes (processes next : ProcessTable) : Prop :=
  ∀ (pid : Int) (process : Process), next[pid]? = some process →
    ∃ before : Process, processes[pid]? = some before ∧ before.group = process.group ∧
      (process.alive = true → before.alive = true)

/-- The processes of the modules.  The core itself is not in the table. -/
@[ext]
structure Sessions where
  processes : ProcessTable
  /-- The process group of the core. -/
  coreGroup : Int
  /-- All pids that were ever given. -/
  pids : List Int
  /-- The number of system calls so far. -/
  time : Nat
  given : ∀ (pid : Int) (process : Process), processes[pid]? = some process →
    1 < pid ∧ pid ∈ pids

/-- What the other processes and the kernel decide. -/
structure Schedule where
  /-- What processes do before a system call. -/
  deeds : Nat → List Deed
  /-- The pid of a new process; there is none when the fork fails. -/
  newPid : Sessions → Option Int
  killPolls : Nat → Nat

namespace ProcessTable.Wanes

variable {processes next : ProcessTable}

theorem exit (processes : ProcessTable) (pid : Int) :
    processes.Wanes (processes.alter pid (·.bind Process.ended)) := by
  intro other process found
  rw [Std.ExtTreeMap.getElem?_alter] at found
  split at found
  · rename_i same
    obtain rfl := Std.LawfulEqCmp.compare_eq_iff_eq.mp same
    rcases Option.bind_eq_some_iff.mp found with ⟨before, present, ended⟩
    simp only [Process.ended] at ended
    split at ended
    · cases ended
      exact ⟨before, present, rfl, by simp⟩
    · cases ended
  · exact ⟨process, found, rfl, id⟩

theorem erase (processes : ProcessTable) (pid : Int) : processes.Wanes (processes.erase pid) := by
  intro other process found
  rw [Std.ExtTreeMap.getElem?_erase] at found
  split at found
  · cases found
  · exact ⟨process, found, rfl, id⟩

/-- Some processes end. -/
theorem ending (processes : ProcessTable) (ends : Int → Process → Bool) :
    processes.Wanes (processes.filterMap fun pid process =>
      if ends pid process then process.ended else some process) := by
  intro pid process found
  rw [Std.ExtTreeMap.getElem?_filterMap'] at found
  rcases Option.bind_eq_some_iff.mp found with ⟨before, present, left⟩
  refine ⟨before, present, ?_⟩
  split at left
  · simp only [Process.ended] at left
    split at left
    · cases left
      exact ⟨rfl, by simp⟩
    · cases left
  · cases left
    exact ⟨rfl, id⟩

end ProcessTable.Wanes

namespace Sessions

/-! ## System calls -/

/-- The table before the first system call of the core.  Its own pid is given. -/
def new (coreGroup : Int) : Sessions where
  processes := ∅
  coreGroup := coreGroup
  pids := [coreGroup]
  time := 0
  given := by simp

/-- Is a process of the group alive? -/
def lives (state : Sessions) (group : Int) : Bool :=
  state.processes.toList.any fun entry => entry.2.alive && entry.2.group = group

/-- Go on with a table that has less in it. -/
def wane (state : Sessions) (processes : ProcessTable) (wanes : state.processes.Wanes processes) :
    Sessions :=
  { state with
    processes := processes
    given := by
      intro pid process found
      rcases wanes pid process found with ⟨before, present, _⟩
      exact state.given pid before present }

/-- A process with a new pid. -/
def enter (state : Sessions) (pid : Int) (process : Process) (above : 1 < pid) : Sessions :=
  { state with
    processes := state.processes.insert pid process
    pids := pid :: state.pids
    given := by
      intro other found present
      rw [Std.ExtTreeMap.getElem?_insert] at present
      split at present
      · rename_i same
        obtain rfl := Std.LawfulEqCmp.compare_eq_iff_eq.mp same
        exact ⟨above, List.mem_cons_self⟩
      · rcases state.given other found present with ⟨above, member⟩
        exact ⟨above, List.mem_cons_of_mem _ member⟩ }

/-- Only a process that is alive can fork. -/
def act (state : Sessions) : Deed → Sessions
  | .exit pid => state.wane _ (.exit state.processes pid)
  | .fork parent pid =>
      match state.processes[parent]? with
      | none => state
      | some process =>
          if new : process.alive = true ∧ 1 < pid ∧ pid ∉ state.pids then
            state.enter pid ⟨none, process.group, true⟩ new.2.1
          else
            state

variable (schedule : Schedule)

/-- Time passes until the next system call. -/
def elapse (state : Sessions) : Sessions :=
  { (schedule.deeds state.time).foldl act state with time := state.time + 1 }

/-- Fork a process for a module, which calls `setsid` first. -/
def fork (module : Str) (state : Sessions) : Sessions × Int :=
  let state := state.elapse schedule
  match schedule.newPid state with
  | none => (state, -1)
  | some pid =>
      if new : 1 < pid ∧ pid ∉ state.pids then
        (state.enter pid ⟨some module, pid, true⟩ new.1, pid)
      else
        (state, -1)

/-- The group of a process; zero means the core. -/
def getpgid (state : Sessions) (pid : Int) : Int :=
  if pid < 0 then
    -1
  else if pid = 0 then
    state.coreGroup
  else
    match state.processes[pid]? with
    | none => -1
    | some process => process.group

/-- Send the signal that cannot be caught. -/
def kill (state : Sessions) (target : Int) : Sessions :=
  let state := state.elapse schedule
  state.wane _ (.ending state.processes fun pid process =>
    selects state.coreGroup target pid process.group)

/-- Wait for a child without blocking.  One that has ended is removed. -/
def waitpid (state : Sessions) (target : Int) : Sessions × Int :=
  let state := state.elapse schedule
  let children := state.processes.toList.filter (Kernel.awaited state.coreGroup target)
  match children.find? fun entry => !entry.2.alive with
  | some (pid, _) => (state.wane _ (.erase state.processes pid), pid)
  | none => (state, if children = [] then -1 else 0)

/-- The operating system, as it is called for a module. -/
def os (module : Str) : Os Sessions where
  fork := fork schedule module
  getpgid := getpgid
  kill := kill schedule
  waitpid := waitpid schedule
  killPolls state := schedule.killPolls state.time

theorem lives_iff {state : Sessions} {group : Int} :
    state.lives group = true ↔ ∃ (pid : Int) (process : Process),
      state.processes[pid]? = some process ∧ process.alive = true ∧ process.group = group := by
  simp only [lives, List.any_eq_true, Bool.and_eq_true, decide_eq_true_eq]
  constructor
  · rintro ⟨⟨pid, process⟩, listed, alive, same⟩
    exact ⟨pid, process, Std.ExtTreeMap.mem_toList_iff_getElem?_eq_some.mp listed, alive, same⟩
  · rintro ⟨pid, process, found, alive, same⟩
    exact ⟨(pid, process), Std.ExtTreeMap.mem_toList_iff_getElem?_eq_some.mpr found, alive, same⟩

/-! ## What lasts -/

/-- Pids stay given, and a process keeps its group until it is gone. -/
structure Ages (state next : Sessions) : Prop where
  pids : ∀ pid ∈ state.pids, pid ∈ next.pids
  group : ∀ pid ∈ state.pids, ∀ process : Process, next.processes[pid]? = some process →
    ∃ before : Process, state.processes[pid]? = some before ∧ before.group = process.group

/-- Besides, a group that has died out does not come to life again. -/
structure Dwindles (state next : Sessions) : Prop where
  ages : Ages state next
  lives : ∀ group, next.lives group = true → state.lives group = true

theorem Ages.refl (state : Sessions) : Ages state state where
  pids _ member := member
  group _ _ process found := ⟨process, found, rfl⟩

theorem Ages.trans {first second third : Sessions} (one : Ages first second)
    (two : Ages second third) : Ages first third where
  pids pid member := two.pids pid (one.pids pid member)
  group pid member process found := by
    rcases two.group pid (one.pids pid member) process found with ⟨between, found, same⟩
    rcases one.group pid member between found with ⟨before, found, same'⟩
    exact ⟨before, found, same'.trans same⟩

theorem Dwindles.refl (state : Sessions) : Dwindles state state :=
  ⟨Ages.refl state, fun _ lives => lives⟩

theorem Dwindles.trans {first second third : Sessions} (one : Dwindles first second)
    (two : Dwindles second third) : Dwindles first third :=
  ⟨one.ages.trans two.ages, fun group lives => one.lives group (two.lives group lives)⟩

theorem wane_dwindles (state : Sessions) (processes : ProcessTable)
    (wanes : state.processes.Wanes processes) : Dwindles state (state.wane processes wanes) where
  ages := {
    pids := fun _ member => member
    group := by
      intro pid _ process found
      rcases wanes pid process found with ⟨before, present, same, _⟩
      exact ⟨before, present, same⟩ }
  lives group lives := by
    rcases lives_iff.mp lives with ⟨pid, process, found, alive, same⟩
    rcases wanes pid process found with ⟨before, present, same', wasAlive⟩
    exact lives_iff.mpr ⟨pid, before, present, wasAlive alive, same'.trans same⟩

/-- The processes after a new one was entered. -/
theorem enter_processes (state : Sessions) {pid : Int} (process : Process) (above : 1 < pid)
    (other : Int) : (state.enter pid process above).processes[other]? =
      if pid = other then some process else state.processes[other]? := by
  simp only [enter, Std.ExtTreeMap.getElem?_insert, Std.LawfulEqCmp.compare_eq_iff_eq]

theorem enter_ages (state : Sessions) {pid : Int} (process : Process) (above : 1 < pid)
    (new : pid ∉ state.pids) : Ages state (state.enter pid process above) where
  pids _ member := List.mem_cons_of_mem _ member
  group other member found present := by
    have different : pid ≠ other := by
      rintro rfl
      exact new member
    rw [enter_processes, if_neg different] at present
    exact ⟨found, present, rfl⟩

/-- A new process brings only its own group to life. -/
theorem enter_lives {state : Sessions} {pid group : Int} {process : Process} {above : 1 < pid}
    (lives : (state.enter pid process above).lives group = true) :
    process.group = group ∨ state.lives group = true := by
  rcases lives_iff.mp lives with ⟨other, found, present, alive, same⟩
  rw [enter_processes] at present
  split at present
  · cases present
    exact Or.inl same
  · exact Or.inr (lives_iff.mpr ⟨other, found, present, alive, same⟩)

theorem act_dwindles (state : Sessions) (deed : Deed) : Dwindles state (state.act deed) := by
  cases deed with
  | exit pid => exact wane_dwindles state _ (.exit state.processes pid)
  | fork parent pid =>
      simp only [act]
      split
      · exact Dwindles.refl state
      · rename_i process found
        split
        · rename_i new
          refine ⟨enter_ages state _ new.2.1 new.2.2, ?_⟩
          intro group lives
          rcases enter_lives lives with same | before
          · exact lives_iff.mpr ⟨parent, process, found, new.1, same⟩
          · exact before
        · exact Dwindles.refl state

theorem acts_dwindle (state : Sessions) (deeds : List Deed) :
    Dwindles state (deeds.foldl act state) := by
  induction deeds generalizing state with
  | nil => exact Dwindles.refl state
  | cons deed deeds ih => exact (act_dwindles state deed).trans (ih _)

variable (schedule : Schedule)

theorem elapse_dwindles (state : Sessions) : Dwindles state (state.elapse schedule) := by
  rcases acts_dwindle state (schedule.deeds state.time) with ⟨⟨pids, group⟩, lives⟩
  exact ⟨⟨pids, group⟩, lives⟩

theorem kill_dwindles (state : Sessions) (target : Int) :
    Dwindles state (state.kill schedule target) :=
  (elapse_dwindles schedule state).trans (wane_dwindles _ _ (.ending _ _))

theorem waitpid_dwindles (state : Sessions) (target : Int) :
    Dwindles state (state.waitpid schedule target).1 := by
  apply (elapse_dwindles schedule state).trans
  simp only [waitpid]
  split
  · exact wane_dwindles _ _ (.erase _ _)
  · exact Dwindles.refl _

theorem os_dwindles (module : Str) (pid : Int) : (os schedule module).Keeps pid Dwindles where
  refl := Dwindles.refl
  trans := Dwindles.trans
  kill state target _ := kill_dwindles schedule state target
  waitpid state target _ := waitpid_dwindles schedule state target

theorem os_ages (module : Str) (pid : Int) : (os schedule module).Keeps pid Ages where
  refl := Ages.refl
  trans := Ages.trans
  kill state target _ := (kill_dwindles schedule state target).ages
  waitpid state target _ := (waitpid_dwindles schedule state target).ages

/-- A fork fails, or starts a group. -/
theorem fork_cases (module : Str) (state : Sessions) :
    state.fork schedule module = (state.elapse schedule, -1) ∨
    ∃ pid, ∃ above : 1 < pid, pid ∉ (state.elapse schedule).pids ∧
      state.fork schedule module =
        ((state.elapse schedule).enter pid ⟨some module, pid, true⟩ above, pid) := by
  simp only [fork]
  split
  · exact Or.inl rfl
  · rename_i pid _
    split
    · rename_i new
      exact Or.inr ⟨pid, new.1, new.2, rfl⟩
    · exact Or.inl rfl

theorem fork_ages (module : Str) (state : Sessions) :
    Ages state (state.fork schedule module).1 := by
  apply (elapse_dwindles schedule state).ages.trans
  rcases fork_cases schedule module state with failed | ⟨pid, above, new, forked⟩
  · rw [failed]
    exact Ages.refl _
  · rw [forked]
    exact enter_ages _ _ above new

/-! ## Signals -/

/-- A signal to a group leaves nobody alive in it. -/
theorem kill_group (state : Sessions) {group : Int} (above : 1 < group) :
    (state.kill schedule (-group)).lives group = false := by
  rw [Bool.eq_false_iff]
  intro lives
  rcases lives_iff.mp lives with ⟨pid, process, found, alive, same⟩
  simp only [kill, wane, Std.ExtTreeMap.getElem?_filterMap'] at found
  rcases Option.bind_eq_some_iff.mp found with ⟨before, _, left⟩
  split at left
  · simp only [Process.ended] at left
    split at left
    · cases left
      cases alive
    · cases left
  · rename_i spared
    cases left
    apply spared
    unfold selects
    rw [if_neg (by omega), if_neg (by omega), if_neg (by omega)]
    simp [same]

/-- No process has this pid, and none will have it. -/
structure Vacant (target : Int) (state : Sessions) : Prop where
  positive : 0 < target
  absent : state.processes[target]? = none
  spent : target = 1 ∨ target ∈ state.pids

theorem Vacant.later {target : Int} {state next : Sessions} (vacant : Vacant target state)
    (ages : Ages state next) : Vacant target next where
  positive := vacant.positive
  absent := by
    cases found : next.processes[target]? with
    | none => rfl
    | some process =>
        rcases vacant.spent with rfl | member
        · exact absurd (next.given 1 process found).1 (by omega)
        · rcases ages.group target member process found with ⟨before, present, _⟩
          rw [vacant.absent] at present
          cases present
  spent := vacant.spent.imp id (ages.pids target)

/-- A process with another pid is not selected. -/
theorem Vacant.spares {target : Int} {state : Sessions} (vacant : Vacant target state)
    {pid : Int} {process : Process} (found : state.processes[pid]? = some process) :
    selects state.coreGroup target pid process.group = false := by
  have different : pid ≠ target := by
    rintro rfl
    rw [vacant.absent] at found
    cases found
  simp [selects, vacant.positive, different]

variable {target : Int} {state : Sessions}

/-- A signal to nobody only takes time. -/
theorem Vacant.kill (vacant : Vacant target state) :
    state.kill schedule target = state.elapse schedule := by
  have later := vacant.later (elapse_dwindles schedule state).ages
  have same : (state.kill schedule target).processes = (state.elapse schedule).processes := by
    apply Std.ExtTreeMap.ext_getElem?
    intro pid
    simp only [Sessions.kill, wane, Std.ExtTreeMap.getElem?_filterMap']
    cases found : (state.elapse schedule).processes[pid]? with
    | none => rfl
    | some process => simp [later.spares found]
  exact Sessions.ext same rfl rfl rfl

theorem Vacant.waitpid (vacant : Vacant target state) :
    state.waitpid schedule target = (state.elapse schedule, -1) := by
  have later := vacant.later (elapse_dwindles schedule state).ages
  have nobody : (state.elapse schedule).processes.toList.filter
      (Kernel.awaited (state.elapse schedule).coreGroup target) = [] := by
    rw [List.filter_eq_nil_iff]
    rintro ⟨pid, process⟩ listed
    have found := Std.ExtTreeMap.mem_toList_iff_getElem?_eq_some.mp listed
    simp [Kernel.awaited, later.spares found]
  simp only [Sessions.waitpid, nobody]
  rfl

end Sessions

end Sentri.Core
