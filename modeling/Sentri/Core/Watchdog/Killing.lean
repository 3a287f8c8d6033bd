import Sentri.Core.Watchdog.Threads

/-!
# A module that is being killed

The shutdown kills a module in several system calls.  What it knows of the children
of the module in between stays true while the guard thread visits other modules.
-/

namespace Sentri.Core.Watchdog

open Sentri.Text Sentri.Transition Kernel

/-! ## Modules that the watchdog keeps track of -/

/-- A pid is that of no process, or it comes from a fork. -/
def Given (kernel : Kernel) (pid : Int) : Prop :=
  pid = -1 ∨ 1 < pid ∧ pid ≠ kernel.coreGroup

/-- The watchdog knows all children of the module, which may be gone. -/
structure Tracked (module : Str) (data : ModuleData) (kernel : Kernel) : Prop where
  known : Known module data kernel
  given : Given kernel data.pid

theorem Tracked.onward {module : Str} {data next : ModuleData} {kernel kernel' : Kernel}
    (tracked : Tracked module data kernel)
    (onward : Onward (fun other => other = module) kernel kernel') (pid : next.pid = data.pid)
    (running : next.running = data.running) : Tracked module next kernel' where
  known := tracked.known.onward onward pid running
  given := by
    rw [Given, pid, onward.coreGroup]
    exact tracked.given

section Tracking

variable (env : Environment) (clock : Clock) {module : Str} {world : World Kernel}
  {data : ModuleData}

theorem killModule_tracked (grouped : world.os.Grouped) (tracked : Tracked module data world.os) :
    let effect := killModule (Kernel.os env module) world data
    Tracked module effect.2 effect.1.os := by
  intro effect
  have onward : ∀ modules, Onward modules world.os effect.1.os := fun modules =>
    killModule_keeps world data (os_keeps env modules module data.pid)
  rcases killModule_pid (Kernel.os env module) world data with ⟨samePid, _, _⟩
  have given : Given effect.1.os effect.2.pid := by
    rw [Given, samePid, (onward fun _ => True).coreGroup]
    exact tracked.given
  refine ⟨?_, given⟩
  by_cases child : ∃ group, world.os.processes.childAt data.pid = some (module, group)
  · rcases child with ⟨group, child⟩
    exact (killModule_owned env grouped tracked.known child).2.1.known
  · intro pid group found
    obtain ⟨before, found, _⟩ := ((onward fun _ => True).fades module trivial).child pid group found
    rcases tracked.known pid before found with ⟨rfl, _⟩
    exact absurd ⟨before, found⟩ child

theorem spawnModule_tracked (tracked : Tracked module data world.os) :
    let effect := spawnModule (Kernel.os env module) clock world data
    Tracked module effect.2.1 effect.1.os := by
  intro effect
  refine ⟨spawnModule_known env clock tracked.known, ?_⟩
  rcases spawnModule_forked env clock module world data with
    ⟨_, equal⟩ | ⟨_, _, equal⟩ | ⟨_, _, pid, above, notCore, equal⟩
  · simp only [effect, equal]
    exact tracked.given
  · simp only [effect, equal]
    exact tracked.given
  · simp only [effect, equal]
    exact Or.inr ⟨above, notCore⟩

theorem buryModule_tracked (grouped : world.os.Grouped) (tracked : Tracked module data world.os) :
    let effect := buryModule (Kernel.os env module) module world data
    Tracked module effect.2.1 effect.1.os := by
  intro effect
  let after : World Kernel := { world with os := (world.os.waitpid env data.pid).1 }
  have onward : ∀ modules, Onward modules world.os after.os := fun modules =>
    (os_keeps env modules module data.pid).waitpid world.os data.pid (Or.inl rfl)
  have waited : Tracked module data after.os := tracked.onward (onward _) rfl rfl
  have killed := killModule_tracked env ((onward fun _ => True).grouped grouped) waited
  simp only [effect, buryModule]
  split
  · exact killed.onward (Onward.refl _) rfl rfl
  · exact waited.onward (Onward.refl _) rfl rfl

theorem resurrectModule_tracked (grouped : world.os.Grouped)
    (tracked : Tracked module data world.os) :
    let effect := resurrectModule (Kernel.os env module) clock module world data
    Tracked module effect.2.1 effect.1.os := by
  have killed := killModule_tracked env grouped tracked
  have onward : Onward (fun _ => True) world.os
      (killModule (Kernel.os env module) world data).1.os :=
    killModule_keeps world data (os_keeps env _ module data.pid)
  unfold resurrectModule
  dsimp only
  split
  · exact (spawnModule_tracked env clock killed).onward (Onward.refl _) rfl rfl
  · exact buryModule_tracked env (onward.grouped grouped) killed

theorem guardModule_tracked (grouped : world.os.Grouped)
    (tracked : Tracked module data world.os) :
    let effect := guardModule (Kernel.os env module) clock module world data
    Tracked module effect.2.1 effect.1.os := by
  let polled := world.os.waitpid env data.pid
  have onward : ∀ modules, Onward modules world.os polled.1 := fun modules =>
    (os_keeps env modules module data.pid).waitpid world.os data.pid (Or.inl rfl)
  let holds : World Kernel → ModuleData → Prop := fun after next => Tracked module next after.os
  refine @guardModule_rule Kernel (Kernel.os env module) clock holds module world data ?_ ?_ ?_ ?_
  · intro after next _ _ _ held
    exact held.onward (Onward.refl _) rfl rfl
  · exact tracked
  · intro _ _ _ _ _
    exact tracked.onward (onward _) rfl rfl
  · intro _ ticks missed
    exact @resurrectModule_tracked env clock module ⟨polled.1, ticks⟩
      { data with missedHeartbeats := missed } ((onward fun _ => True).grouped grouped)
      (tracked.onward (onward _) rfl rfl)

end Tracking

/-! ## Inside `killModule` -/

/-- The pid that the target of a signal is made of. -/
def Meant (coreGroup target pid : Int) : Prop :=
  (target = 1 ∧ pid = 1) ∨ (1 < pid ∧ pid ≠ coreGroup ∧ (target = pid ∨ target = -pid))

/-- The target means all children of the module. -/
structure Aimed (kernel : Kernel) (module : Str) (target pid : Int) : Prop where
  meant : Meant kernel.coreGroup target pid
  hits : ∀ other group, kernel.processes.childAt other = some (module, group) →
    other = pid ∧ Hits target pid group

/-- No child of the module is alive. -/
def Dead (kernel : Kernel) (module : Str) : Prop :=
  ∀ pid, kernel.processes.livingAt pid ≠ some module

/-- What holds while the main thread is in `killModule`.  The modules that the guard
thread may still visit are given. -/
def InKill (kernel : Kernel) (visits : List Str) : MainThread → Prop
  | .signalling module target _ => ∃ pid, Aimed kernel module target pid ∧
      (module ∈ visits → ∀ owner group, kernel.processes.childAt pid = some (owner, group) →
        Hits target pid group)
  | .polling module target _ _ => ∃ pid, Aimed kernel module target pid ∧ Dead kernel module ∧
      (module ∈ visits → kernel.processes.livingAt pid = none)
  | .confirming module target _ => ∃ pid, Meant kernel.coreGroup target pid ∧
      (∀ other group, kernel.processes.childAt other ≠ some (module, group)) ∧
      (module ∈ visits → kernel.processes.livingAt pid = none)
  | _ => True

section Aiming

variable {kernel next : Kernel} {module : Str} {target pid : Int}

theorem Meant.eq_of_selects (meant : Meant kernel.coreGroup target pid)
    (grouped : kernel.Grouped) {other group : Int} {owner : Str}
    (child : kernel.processes.childAt other = some (owner, group))
    (selected : selects kernel.coreGroup target other group) : other = pid := by
  rcases meant with ⟨rfl, rfl⟩ | ⟨above, notCore, aimed⟩
  · exact (selects_process (by omega)).mp selected
  · exact grouped.eq_of_selects above notCore aimed child selected

theorem Dead.fades (dead : Dead kernel module)
    (fades : Fades module kernel.processes next.processes) : Dead next module :=
  fun pid living => dead pid (fades.living pid living)

theorem Aimed.fades (aimed : Aimed kernel module target pid)
    (coreGroup : next.coreGroup = kernel.coreGroup)
    (fades : Fades module kernel.processes next.processes) : Aimed next module target pid where
  meant := by
    rw [coreGroup]
    exact aimed.meant
  hits other group child := by
    rcases fades.child other group child with ⟨before, child, same⟩
    rcases aimed.hits other before child with ⟨rfl, hits⟩
    exact ⟨rfl, Hits.later hits same⟩

/-- The guard thread may visit a module if it is not the victim of the shutdown, or
does not start it again. -/
theorem InKill.fades {visits left : List Str} {main : MainThread}
    (inKill : InKill kernel visits main) (coreGroup : next.coreGroup = kernel.coreGroup)
    (fades : ∀ victim, main.victim? = some victim →
      Fades victim kernel.processes next.processes ∧ victim ∉ left) :
    InKill next left main := by
  cases main with
  | signalling module target remaining =>
      rcases inKill with ⟨pid, aimed, _⟩
      rcases fades module rfl with ⟨fades, absent⟩
      exact ⟨pid, aimed.fades coreGroup fades, fun member => absurd member absent⟩
  | polling module target polls remaining =>
      rcases inKill with ⟨pid, aimed, dead, _⟩
      rcases fades module rfl with ⟨fades, absent⟩
      exact ⟨pid, aimed.fades coreGroup fades, dead.fades fades, fun member => absurd member absent⟩
  | confirming module target remaining =>
      rcases inKill with ⟨pid, meant, childless, _⟩
      rcases fades module rfl with ⟨fades, absent⟩
      refine ⟨pid, by rw [coreGroup]; exact meant, ?_, fun member => absurd member absent⟩
      intro other group child
      rcases fades.child other group child with ⟨before, child, _⟩
      exact childless other before child
  | _ => trivial

theorem InKill.mono {visits left : List Str} {main : MainThread}
    (inKill : InKill kernel visits main)
    (subset : left ⊆ visits) : InKill kernel left main := by
  cases main with
  | signalling module target remaining =>
      rcases inKill with ⟨pid, aimed, all⟩
      exact ⟨pid, aimed, fun member => all (subset member)⟩
  | polling module target polls remaining =>
      rcases inKill with ⟨pid, aimed, dead, all⟩
      exact ⟨pid, aimed, dead, fun member => all (subset member)⟩
  | confirming module target remaining =>
      rcases inKill with ⟨pid, meant, childless, all⟩
      exact ⟨pid, meant, childless, fun member => all (subset member)⟩
  | _ => trivial

variable (env : Environment) {visits left : List Str}

/-- The target that `killModule` takes. -/
theorem InKill.aim {data : ModuleData} (grouped : kernel.Grouped)
    (tracked : Tracked module data kernel) :
    InKill kernel visits
      (.signalling module (killTarget (Kernel.os env module) kernel data) left) := by
  have hits : ∀ owner group, kernel.processes.childAt data.pid = some (owner, group) →
      Hits (killTarget (Kernel.os env module) kernel data) data.pid group := by
    intro owner group child
    have getpgid : (Kernel.os env module).getpgid kernel data.pid = group :=
      getpgid_childAt grouped child
    unfold killTarget
    rw [getpgid]
    split
    · rename_i own
      exact Or.inr ⟨rfl, own.symm⟩
    · exact Or.inl rfl
  rcases tracked.given with initial | ⟨above, notCore⟩
  · have target : killTarget (Kernel.os env module) kernel data = 1 := by
      simp [killTarget, initial, Kernel.os, Kernel.getpgid]
    rw [target]
    refine ⟨1, ⟨Or.inl ⟨rfl, rfl⟩, ?_⟩, ?_⟩
    · intro other group child
      have positive := (grouped other module group child).1
      have same := (tracked.known other group child).1
      omega
    · intro _ owner group child
      have positive := (grouped 1 owner group child).1
      omega
  · refine ⟨data.pid, ⟨Or.inr ⟨above, notCore, ?_⟩, ?_⟩, fun _ => hits⟩
    · exact killTarget_aimed (Kernel.os env module) kernel data
    · intro other group child
      rcases tracked.known other group child with ⟨rfl, _⟩
      exact ⟨rfl, hits module group child⟩

/-- A signal that works kills all children of the module. -/
theorem InKill.kill (obeys : ∀ time pid, env.obeys time pid = true) (grouped : kernel.Grouped)
    {polls : Nat} (inKill : InKill kernel visits (.signalling module target left)) :
    InKill (kernel.kill env module target) visits (.polling module target polls left) := by
  rcases inKill with ⟨pid, aimed, all⟩
  have elapsed := elapse_grouped env kernel grouped
  have killed : ∀ other owner, (kernel.kill env module target).processes.livingAt other =
      some owner → (∀ group, (kernel.elapse env).processes.childAt other = some (owner, group) →
        Hits target other group) → False := by
    intro other owner living hits
    have before : (kernel.elapse env).processes.livingAt other = some owner := by
      rcases kill_livingAt env kernel module target other with same | gone
      · exact same.symm.trans living
      · rw [gone] at living
        cases living
    rcases ProcessTable.childAt_of_livingAt before with ⟨group, child⟩
    have above := (elapsed other owner group child).1
    have gone : (kernel.kill env module target).processes.livingAt other = none :=
      kill_obeyed env kernel obeys child (selects_of_hits above (hits group child))
    rw [gone] at living
    cases living
  refine ⟨pid, aimed.fades rfl (kill_fades env kernel module module target), ?_, ?_⟩
  · intro other living
    apply killed other module living
    intro group child
    rcases (elapse_evolves env kernel).backward child with ⟨before, child, same⟩
    rcases aimed.hits other before child with ⟨rfl, hits⟩
    exact Hits.later hits same
  · intro member
    cases living : (kernel.kill env module target).processes.livingAt pid with
    | none => rfl
    | some owner =>
        exfalso
        apply killed pid owner living
        intro group child
        rcases (elapse_evolves env kernel).backward child with ⟨before, child, same⟩
        exact Hits.later (all member owner before child) same

/-- The first poll reaps the child of the module. -/
theorem InKill.poll (grouped : kernel.Grouped) {polls : Nat}
    (inKill : InKill kernel visits (.polling module target polls left)) :
    InKill (kernel.waitpid env target).1 visits (.confirming module target left) := by
  rcases inKill with ⟨pid, aimed, dead, all⟩
  have coreGroup := (waitpid_coreGroup env kernel target).1
  have fades := fun owner => waitpid_fades env kernel owner target
  refine ⟨pid, by rw [coreGroup]; exact aimed.meant, ?_, ?_⟩
  · intro other group child
    rcases (fades module).child other group child with ⟨before, old, _⟩
    rcases aimed.hits other before old with ⟨rfl, hits⟩
    rcases grouped other module before old with ⟨above, notCore, _⟩
    have aims : kernel.Aims target other := by
      refine ⟨grouped, above, notCore, ?_, hits.imp id And.left⟩
      intro owner group found
      rw [old] at found
      cases found
      exact hits
    rcases Aims.waitpid env aims with ⟨_, _, childless⟩ | ⟨_, owner, after, there, living⟩
    · rw [childless] at child
      cases child
    · rw [child] at there
      cases there
      exact dead other ((elapse_fades env kernel module).living other living)
  · intro member
    cases living : (kernel.waitpid env target).1.processes.livingAt pid with
    | none => rfl
    | some owner =>
        have before := (fades owner).living pid living
        rw [all member] at before
        cases before

theorem InKill.again {polls : Nat}
    (inKill : InKill kernel visits (.confirming module target left)) :
    InKill kernel visits (.polling module target polls left) := by
  rcases inKill with ⟨pid, meant, childless, all⟩
  refine ⟨pid, ⟨meant, fun other group child => absurd child (childless other group)⟩, ?_, all⟩
  intro other living
  rcases ProcessTable.childAt_of_livingAt living with ⟨group, child⟩
  exact childless other group child

/-- The last call of `waitpid` finds nobody, unless the guard thread is past the
module. -/
theorem InKill.confirm (grouped : kernel.Grouped)
    (inKill : InKill kernel visits (.confirming module target left)) :
    (∀ other group,
      (kernel.waitpid env target).1.processes.childAt other ≠ some (module, group)) ∧
    (module ∈ visits → (kernel.waitpid env target).2 ≠ 0) := by
  rcases inKill with ⟨pid, meant, childless, all⟩
  constructor
  · intro other group child
    rcases (waitpid_fades env kernel module target).child other group child with ⟨before, old, _⟩
    exact childless other before old
  · intro member
    rcases waitpid_cases env kernel target with
      ⟨other, owner, group, child, _, _, equal⟩ |
      ⟨equal, other, owner, group, child, selected, living⟩ | ⟨equal, _⟩
    · have above := (elapse_grouped env kernel grouped other owner group child).1
      rw [equal]
      change other ≠ 0
      omega
    · obtain rfl := @Meant.eq_of_selects (kernel.elapse env) target pid meant
        (elapse_grouped env kernel grouped) other group owner child selected
      have before := (elapse_fades env kernel owner).living other living
      rw [all member] at before
      cases before
    · rw [equal]
      simp

end Aiming

end Sentri.Core.Watchdog
