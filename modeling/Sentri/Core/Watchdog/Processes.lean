import Sentri.Core.Watchdog.Visits

/-!
# A process table

An operating system for the watchdog, with pids, process groups and children of
the core.  A child that has ended stays in the table until it is waited for;
afterwards its pid may be used again.  Processes end, leave their group or appear
at any time, and a fork may fail.
-/

namespace Sentri.Core

open Sentri.Text Sentri.Transition

universe u

/-! ## Processes -/

structure Process where
  /-- The module that the core forked the process for; a process that is no child
  of the core has none. -/
  owner : Option Str
  group : Int
  /-- A child that has ended and was not waited for is not alive. -/
  alive : Bool
  deriving DecidableEq

/-- A process after its end: a child waits for its parent, others are gone. -/
def Process.ended (process : Process) : Option Process :=
  if process.owner.isSome then some { process with alive := false } else none

abbrev ProcessTable := Std.ExtTreeMap Int Process

/-- What processes do on their own. -/
inductive Move where
  | exit (pid : Int)
  | setsid (pid : Int)
  /-- A process that is no child of the core. -/
  | appear (pid group : Int)

def Move.apply (processes : ProcessTable) : Move → ProcessTable
  | .exit pid => processes.alter pid (·.bind Process.ended)
  | .setsid pid => processes.modify pid fun process => { process with group := pid }
  | .appear pid group =>
      if 0 < pid then processes.insertIfNew pid ⟨none, group, true⟩ else processes

/-- Does the first argument of `kill` or `waitpid` mean a process? -/
def selects (coreGroup target pid group : Int) : Bool :=
  if target > 0 then
    pid = target
  else if target = 0 then
    group = coreGroup
  else if target = -1 then
    true
  else
    group = -target

/-- A call of `kill` for a module, and the processes that existed then. -/
structure Kill where
  module : Str
  target : Int
  processes : ProcessTable

/-- The kernel as far as the core sees it.  The core itself is not in the table. -/
structure Kernel where
  processes : ProcessTable
  /-- The process group of the core. -/
  coreGroup : Int
  /-- The number of system calls so far. -/
  time : Nat
  /-- The calls of `kill` so far. -/
  kills : List Kill

/-- What the kernel and the other processes decide. -/
structure Environment where
  /-- What processes do before a system call. -/
  moves : Nat → List Move
  /-- The pid of a new process; there is none when the fork fails. -/
  newPid : Kernel → Option Int
  /-- Does a signal end a process before the next system call? -/
  obeys : Nat → Int → Bool
  killPolls : Nat → Nat

namespace Kernel

variable (env : Environment)

/-- The kernel before the first system call of the core. -/
def new (coreGroup : Int) : Kernel :=
  ⟨∅, coreGroup, 0, []⟩

/-- Time passes until the next system call. -/
def elapse (kernel : Kernel) : Kernel :=
  { kernel with
    processes := (env.moves kernel.time).foldl Move.apply kernel.processes
    time := kernel.time + 1 }

/-- Fork a process for a module.  Its pid is not in use, neither by a process nor
by the group of the core. -/
def fork (module : Str) (kernel : Kernel) : Kernel × Int :=
  let kernel := kernel.elapse env
  match env.newPid kernel with
  | none => (kernel, -1)
  | some pid =>
      if 1 < pid ∧ pid ≠ kernel.coreGroup ∧ pid ∉ kernel.processes then
        ({ kernel with
            processes := kernel.processes.insert pid ⟨some module, kernel.coreGroup, true⟩ }, pid)
      else
        (kernel, -1)

/-- The group of a process; zero means the core. -/
def getpgid (kernel : Kernel) (pid : Int) : Int :=
  if pid < 0 then
    -1
  else if pid = 0 then
    kernel.coreGroup
  else
    match kernel.processes[pid]? with
    | none => -1
    | some process => process.group

/-- Send the signal that cannot be caught. -/
def kill (module : Str) (kernel : Kernel) (target : Int) : Kernel :=
  let kernel := kernel.elapse env
  { kernel with
    kills := kernel.kills ++ [⟨module, target, kernel.processes⟩]
    processes := kernel.processes.filterMap fun pid process =>
      if selects kernel.coreGroup target pid process.group && env.obeys kernel.time pid then
        process.ended
      else
        some process }

/-- Is the process a child that a call of `waitpid` is for? -/
def awaited (coreGroup target : Int) (entry : Int × Process) : Bool :=
  entry.2.owner.isSome && selects coreGroup target entry.1 entry.2.group

/-- Wait for a child without blocking.  One that has ended is removed. -/
def waitpid (kernel : Kernel) (target : Int) : Kernel × Int :=
  let kernel := kernel.elapse env
  let children := kernel.processes.toList.filter (awaited kernel.coreGroup target)
  match children.find? fun entry => !entry.2.alive with
  | some (pid, _) => ({ kernel with processes := kernel.processes.erase pid }, pid)
  | none => (kernel, if children = [] then -1 else 0)

/-- The operating system, as it is called for a module. -/
def os (module : Str) : Os Kernel where
  fork := fork env module
  getpgid := getpgid
  kill := kill env module
  waitpid := waitpid env
  killPolls kernel := env.killPolls kernel.time

end Kernel

/-! ## Children -/

namespace ProcessTable

/-- The module and the process group of a child of the core. -/
def childAt (processes : ProcessTable) (pid : Int) : Option (Str × Int) :=
  processes[pid]?.bind fun process => process.owner.map fun owner => (owner, process.group)

/-- The module of a child that is alive. -/
def livingAt (processes : ProcessTable) (pid : Int) : Option Str :=
  processes[pid]?.bind fun process => if process.alive then process.owner else none

theorem childAt_of_livingAt {processes : ProcessTable} {pid : Int} {owner : Str}
    (living : processes.livingAt pid = some owner) :
    ∃ group, processes.childAt pid = some (owner, group) := by
  rcases Option.bind_eq_some_iff.mp living with ⟨process, found, alive⟩
  have owned : process.owner = some owner := by
    split at alive
    · exact alive
    · cases alive
  exact ⟨process.group, by simp [childAt, found, owned]⟩

end ProcessTable

/-- A change after which every child is still there; it may have got a group of
its own. -/
def Evolves (processes next : ProcessTable) : Prop :=
  ∀ pid, next.childAt pid = processes.childAt pid ∨
    ∃ owner group, processes.childAt pid = some (owner, group) ∧
      next.childAt pid = some (owner, pid)

/-- A change that brings no child of a module to life. -/
structure Fades (module : Str) (processes next : ProcessTable) : Prop where
  child : ∀ pid group, next.childAt pid = some (module, group) →
    ∃ before, processes.childAt pid = some (module, before) ∧ (group = before ∨ group = pid)
  living : ∀ pid, next.livingAt pid = some module → processes.livingAt pid = some module

namespace Evolves

theorem refl (processes : ProcessTable) : Evolves processes processes :=
  fun _ => Or.inl rfl

theorem trans {first second third : ProcessTable} (one : Evolves first second)
    (two : Evolves second third) : Evolves first third := by
  intro pid
  rcases two pid with same | ⟨owner, group, before, after⟩
  · rw [same]
    exact one pid
  · rcases one pid with same | ⟨owner', group', before', after'⟩
    · rw [same] at before
      exact Or.inr ⟨owner, group, before, after⟩
    · rw [after'] at before
      cases before
      exact Or.inr ⟨owner, group', before', after⟩

variable {processes next : ProcessTable} {pid : Int} {owner : Str} {group : Int}

theorem onward (evolves : Evolves processes next)
    (child : processes.childAt pid = some (owner, group)) :
    ∃ after, next.childAt pid = some (owner, after) ∧ (after = group ∨ after = pid) := by
  rcases evolves pid with same | ⟨owner', group', before, after⟩
  · exact ⟨group, same.trans child, Or.inl rfl⟩
  · rw [child] at before
    cases before
    exact ⟨pid, after, Or.inr rfl⟩

theorem backward (evolves : Evolves processes next)
    (child : next.childAt pid = some (owner, group)) :
    ∃ before, processes.childAt pid = some (owner, before) ∧ (group = before ∨ group = pid) := by
  rcases evolves pid with same | ⟨owner', group', before, after⟩
  · exact ⟨group, same.symm.trans child, Or.inl rfl⟩
  · rw [child] at after
    cases after
    exact ⟨group', before, Or.inr rfl⟩

end Evolves

namespace Fades

variable {module : Str}

theorem refl (processes : ProcessTable) : Fades module processes processes where
  child _ group child := ⟨group, child, Or.inl rfl⟩
  living _ living := living

theorem trans {first second third : ProcessTable} (one : Fades module first second)
    (two : Fades module second third) : Fades module first third where
  child pid group child := by
    rcases two.child pid group child with ⟨between, child, same⟩
    rcases one.child pid between child with ⟨before, child, same'⟩
    refine ⟨before, child, ?_⟩
    rcases same with rfl | own
    · exact same'
    · exact Or.inr own
  living pid living := one.living pid (two.living pid living)

end Fades

theorem childAt_ended (process? : Option Process) :
    ((process?.bind Process.ended).bind fun process =>
        process.owner.map fun owner => (owner, process.group)) =
      process?.bind fun process => process.owner.map fun owner => (owner, process.group) := by
  cases process? with
  | none => rfl
  | some process =>
      cases owned : process.owner with
      | none => simp [Process.ended, owned]
      | some owner => simp [Process.ended, owned]

theorem livingAt_ended (process? : Option Process) :
    ((process?.bind Process.ended).bind fun process =>
        if process.alive then process.owner else none) = none := by
  cases process? with
  | none => rfl
  | some process => cases owned : process.owner <;> simp [Process.ended, owned]

theorem appear_cases (processes : ProcessTable) (pid group other : Int) :
    ((Move.appear pid group).apply processes)[other]? = processes[other]? ∨
      processes[other]? = none ∧
        ((Move.appear pid group).apply processes)[other]? = some ⟨none, group, true⟩ := by
  simp only [Move.apply]
  split
  · simp only [Std.ExtTreeMap.getElem?_insertIfNew, Std.LawfulEqCmp.compare_eq_iff_eq]
    split
    · rename_i new
      rw [← new.1]
      exact Or.inr ⟨Std.ExtTreeMap.getElem?_eq_none new.2, rfl⟩
    · exact Or.inl rfl
  · exact Or.inl rfl

theorem move_evolves (processes : ProcessTable) (move : Move) :
    Evolves processes (move.apply processes) := by
  intro other
  cases move with
  | exit pid =>
      left
      simp only [Move.apply, ProcessTable.childAt, Std.ExtTreeMap.getElem?_alter,
        Std.LawfulEqCmp.compare_eq_iff_eq]
      split
      · rename_i same
        rw [← same]
        exact childAt_ended _
      · rfl
  | setsid pid =>
      simp only [Move.apply, ProcessTable.childAt, Std.ExtTreeMap.getElem?_modify,
        Std.LawfulEqCmp.compare_eq_iff_eq]
      split
      · rename_i same
        subst same
        cases processes[pid]? with
        | none => exact Or.inl rfl
        | some process =>
            cases owned : process.owner with
            | none => simp [owned]
            | some owner => exact Or.inr ⟨owner, process.group, by simp [owned], by simp [owned]⟩
      · exact Or.inl rfl
  | appear pid group =>
      left
      rcases appear_cases processes pid group other with same | ⟨absent, new⟩
      · simp only [ProcessTable.childAt, same]
      · simp only [ProcessTable.childAt, absent, new]
        rfl

theorem move_living (processes : ProcessTable) (move : Move) (other : Int) :
    (move.apply processes).livingAt other = processes.livingAt other ∨
      (move.apply processes).livingAt other = none := by
  cases move with
  | exit pid =>
      simp only [Move.apply, ProcessTable.livingAt, Std.ExtTreeMap.getElem?_alter,
        Std.LawfulEqCmp.compare_eq_iff_eq]
      split
      · rename_i same
        rw [← same]
        exact Or.inr (livingAt_ended _)
      · exact Or.inl rfl
  | setsid pid =>
      left
      simp only [Move.apply, ProcessTable.livingAt, Std.ExtTreeMap.getElem?_modify,
        Std.LawfulEqCmp.compare_eq_iff_eq]
      split
      · rename_i same
        subst same
        cases processes[pid]? <;> rfl
      · rfl
  | appear pid group =>
      rcases appear_cases processes pid group other with same | ⟨absent, new⟩
      · exact Or.inl (by simp only [ProcessTable.livingAt, same])
      · exact Or.inr (by simp only [ProcessTable.livingAt, new]; rfl)

theorem move_fades (module : Str) (processes : ProcessTable) (move : Move) :
    Fades module processes (move.apply processes) where
  child pid group child := (move_evolves processes move).backward child
  living pid living := by
    rcases move_living processes move pid with same | gone
    · exact same.symm.trans living
    · rw [gone] at living
      cases living

theorem moves_evolve (processes : ProcessTable) (moves : List Move) :
    Evolves processes (moves.foldl Move.apply processes) := by
  induction moves generalizing processes with
  | nil => exact Evolves.refl processes
  | cons move moves ih => exact (move_evolves processes move).trans (ih _)

theorem moves_fade (module : Str) (processes : ProcessTable) (moves : List Move) :
    Fades module processes (moves.foldl Move.apply processes) := by
  induction moves generalizing processes with
  | nil => exact Fades.refl processes
  | cons move moves ih => exact (move_fades module processes move).trans (ih _)

/-! ## System calls -/

namespace Kernel

variable (env : Environment) (kernel : Kernel)

theorem elapse_evolves : Evolves kernel.processes (kernel.elapse env).processes :=
  moves_evolve _ _

theorem elapse_fades (module : Str) :
    Fades module kernel.processes (kernel.elapse env).processes :=
  moves_fade _ _ _

/-- A fork fails, or the pid of the new child was not in use. -/
theorem fork_cases (module : Str) :
    kernel.fork env module = (kernel.elapse env, -1) ∨
    ∃ pid, 1 < pid ∧ pid ≠ kernel.coreGroup ∧ (kernel.elapse env).processes.childAt pid = none ∧
      kernel.fork env module = ({ kernel.elapse env with
        processes := (kernel.elapse env).processes.insert pid
          ⟨some module, kernel.coreGroup, true⟩ }, pid) := by
  simp only [fork]
  split
  · exact Or.inl rfl
  · rename_i pid _
    split
    · rename_i new
      refine Or.inr ⟨pid, new.1, new.2.1, ?_, rfl⟩
      simp [ProcessTable.childAt, Std.ExtTreeMap.getElem?_eq_none new.2.2]
    · exact Or.inl rfl

/-- A process is killed only if the target selects it, and no child is lost. -/
theorem kill_childAt (module : Str) (target pid : Int) :
    (kernel.kill env module target).processes.childAt pid =
      (kernel.elapse env).processes.childAt pid := by
  simp only [kill, ProcessTable.childAt, Std.ExtTreeMap.getElem?_filterMap']
  cases found : (kernel.elapse env).processes[pid]? with
  | none => rfl
  | some process =>
      simp only [Option.bind_some]
      split
      · exact childAt_ended (some process)
      · rfl

theorem kill_livingAt (module : Str) (target pid : Int) :
    (kernel.kill env module target).processes.livingAt pid =
        (kernel.elapse env).processes.livingAt pid ∨
      (kernel.kill env module target).processes.livingAt pid = none := by
  simp only [kill, ProcessTable.livingAt, Std.ExtTreeMap.getElem?_filterMap']
  cases found : (kernel.elapse env).processes[pid]? with
  | none => exact Or.inl rfl
  | some process =>
      simp only [Option.bind_some]
      split
      · exact Or.inr (livingAt_ended (some process))
      · exact Or.inl rfl

theorem kill_fades (module owner : Str) (target : Int) :
    Fades owner kernel.processes (kernel.kill env module target).processes := by
  apply (elapse_fades env kernel owner).trans
  constructor
  · intro pid group child
    rw [kill_childAt] at child
    exact ⟨group, child, Or.inl rfl⟩
  · intro pid living
    rcases kill_livingAt env kernel module target pid with same | gone
    · exact same.symm.trans living
    · rw [gone] at living
      cases living

/-- A signal that works leaves no child alive that its target selects. -/
theorem kill_obeyed (obeys : ∀ time pid, env.obeys time pid = true) {module owner : Str}
    {target pid group : Int}
    (child : (kernel.elapse env).processes.childAt pid = some (owner, group))
    (selected : selects kernel.coreGroup target pid group) :
    (kernel.kill env module target).processes.livingAt pid = none := by
  rcases Option.bind_eq_some_iff.mp child with ⟨process, found, owned⟩
  rcases Option.map_eq_some_iff.mp owned with ⟨_, _, equal⟩
  obtain rfl : process.group = group := congrArg Prod.snd equal
  have selected : selects (kernel.elapse env).coreGroup target pid process.group = true :=
    selected
  simp only [kill, ProcessTable.livingAt, Std.ExtTreeMap.getElem?_filterMap', found,
    Option.bind_some, selected, obeys, Bool.and_self, if_true]
  exact livingAt_ended (some process)

theorem fork_fades {module owner : Str} (different : owner ≠ module) :
    Fades owner kernel.processes (kernel.fork env module).1.processes := by
  rcases fork_cases env kernel module with same | ⟨new, _, _, _, forked⟩
  · rw [same]
    exact elapse_fades env kernel owner
  · rw [forked]
    apply (elapse_fades env kernel owner).trans
    constructor
    · intro pid group child
      simp only [ProcessTable.childAt, Std.ExtTreeMap.getElem?_insert] at child
      split at child
      · exact absurd (congrArg Prod.fst (Option.some.inj child)) different.symm
      · exact ⟨group, child, Or.inl rfl⟩
    · intro pid living
      simp only [ProcessTable.livingAt, Std.ExtTreeMap.getElem?_insert] at living
      split at living
      · exact absurd (Option.some.inj living) different.symm
      · exact living

theorem mem_awaited {target pid : Int} {process : Process} :
    (pid, process) ∈ kernel.processes.toList.filter (awaited kernel.coreGroup target) ↔
      kernel.processes[pid]? = some process ∧ process.owner.isSome ∧
        selects kernel.coreGroup target pid process.group := by
  simp [awaited, Std.ExtTreeMap.mem_toList_iff_getElem?_eq_some]

/-- Waiting reaps a child that has ended, or a child is alive, or there is none. -/
theorem waitpid_cases (target : Int) :
    let elapsed := kernel.elapse env
    (∃ pid owner group, elapsed.processes.childAt pid = some (owner, group) ∧
      selects kernel.coreGroup target pid group ∧ elapsed.processes.livingAt pid = none ∧
      kernel.waitpid env target =
        ({ elapsed with processes := elapsed.processes.erase pid }, pid)) ∨
    (kernel.waitpid env target = (elapsed, 0) ∧
      ∃ pid owner group, elapsed.processes.childAt pid = some (owner, group) ∧
        selects kernel.coreGroup target pid group ∧
        elapsed.processes.livingAt pid = some owner) ∨
    (kernel.waitpid env target = (elapsed, -1) ∧
      ∀ pid owner group, elapsed.processes.childAt pid = some (owner, group) →
        ¬ selects kernel.coreGroup target pid group) := by
  intro elapsed
  have member : ∀ pid process, (pid, process) ∈ elapsed.processes.toList.filter
      (awaited elapsed.coreGroup target) ↔ _ := fun pid process => mem_awaited elapsed
  simp only [waitpid]
  split
  · rename_i pid process found
    rcases (member pid process).mp (List.mem_of_find?_eq_some found) with ⟨present, owned, selected⟩
    rcases Option.isSome_iff_exists.mp owned with ⟨owner, owned⟩
    have ended : process.alive = false := by simpa using List.find?_some found
    left
    refine ⟨pid, owner, process.group, ?_, selected, ?_, rfl⟩
    · simp [ProcessTable.childAt, present, owned]
    · simp [ProcessTable.livingAt, present, ended]
  · rename_i found
    right
    split
    · rename_i nobody
      refine Or.inr ⟨rfl, ?_⟩
      intro pid owner group child selected
      rcases Option.bind_eq_some_iff.mp child with ⟨process, present, mapped⟩
      rcases Option.map_eq_some_iff.mp mapped with ⟨owner', owned, equal⟩
      cases equal
      have isChild : process.owner.isSome := Option.isSome_of_eq_some owned
      have listed := (member pid process).mpr ⟨present, isChild, selected⟩
      have nobody : elapsed.processes.toList.filter (awaited elapsed.coreGroup target) = [] :=
        nobody
      rw [nobody] at listed
      cases listed
    · rename_i somebody
      refine Or.inl ⟨rfl, ?_⟩
      rcases List.exists_mem_of_ne_nil _ somebody with ⟨⟨pid, process⟩, listed⟩
      rcases (member pid process).mp listed with ⟨present, owned, selected⟩
      rcases Option.isSome_iff_exists.mp owned with ⟨owner, owned⟩
      have alive : process.alive = true := by
        simpa using List.find?_eq_none.mp found _ listed
      refine ⟨pid, owner, process.group, ?_, selected, ?_⟩
      · simp [ProcessTable.childAt, present, owned]
      · simp [ProcessTable.livingAt, present, alive, owned]

theorem waitpid_fades (owner : Str) (target : Int) :
    Fades owner kernel.processes (kernel.waitpid env target).1.processes := by
  apply (elapse_fades env kernel owner).trans
  rcases waitpid_cases env kernel target with
    ⟨pid, _, _, _, _, _, equal⟩ | ⟨equal, _⟩ | ⟨equal, _⟩
  · rw [equal]
    constructor
    · intro other group child
      simp only [ProcessTable.childAt, Std.ExtTreeMap.getElem?_erase] at child
      split at child
      · cases child
      · exact ⟨group, child, Or.inl rfl⟩
    · intro other living
      simp only [ProcessTable.livingAt, Std.ExtTreeMap.getElem?_erase] at living
      split at living
      · cases living
      · exact living
  · rw [equal]
    exact Fades.refl _
  · rw [equal]
    exact Fades.refl _

end Kernel

end Sentri.Core
