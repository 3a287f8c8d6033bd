import Sentri.Core.Watchdog.Children

/-!
# Whom the watchdog kills

A pid stands for a module only until the child with this pid has been waited for.
The watchdog keeps every pid, and never asks whether it still has this child
before it kills.  As long as it has, it only kills its own modules.
-/

namespace Sentri.Core

open Sentri.Text Sentri.Transition

universe u

/-! ## The children of a module -/

namespace Watchdog

open Kernel

/-- The watchdog knows every child of the module. -/
def Known (module : Str) (data : ModuleData) (kernel : Kernel) : Prop :=
  ∀ pid group, kernel.processes.childAt pid = some (module, group) →
    pid = data.pid ∧ data.running = true

/-- The watchdog has a child of the module if it thinks so. -/
structure Owned (module : Str) (data : ModuleData) (kernel : Kernel) : Prop where
  known : Known module data kernel
  present : data.running = true → data.buried = false →
    ∃ group, kernel.processes.childAt data.pid = some (module, group)

/-- All calls of `kill` between two states of the kernel are rightful. -/
def KillsByRight (kernel next : Kernel) : Prop :=
  ∃ kills, next.kills = kernel.kills ++ kills ∧ ∀ kill ∈ kills, kill.Rightful

theorem KillsByRight.of_eq {kernel next : Kernel} (same : next.kills = kernel.kills) :
    KillsByRight kernel next :=
  ⟨[], by simpa using same, by simp⟩

theorem KillsByRight.trans {first second third : Kernel} (one : KillsByRight first second)
    (two : KillsByRight second third) : KillsByRight first third := by
  rcases one with ⟨kills, equal, rightful⟩
  rcases two with ⟨more, equal', rightful'⟩
  refine ⟨kills ++ more, by rw [equal', equal, List.append_assoc], ?_⟩
  intro kill member
  rcases List.mem_append.mp member with old | new
  · exact rightful kill old
  · exact rightful' kill new

theorem Known.onward {module : Str} {data next : ModuleData} {kernel kernel' : Kernel}
    (known : Known module data kernel)
    (onward : Onward (fun other => other = module) kernel kernel') (pid : next.pid = data.pid)
    (running : next.running = data.running) : Known module next kernel' := by
  intro other group child
  rcases (onward.fades module rfl).child other group child with ⟨before, child, _⟩
  rw [pid, running]
  exact known other before child

theorem Owned.of_fields {module : Str} {data next : ModuleData} {kernel : Kernel}
    (owned : Owned module data kernel) (pid : next.pid = data.pid)
    (running : next.running = data.running) (buried : next.buried = data.buried) :
    Owned module next kernel where
  known := owned.known.onward (Onward.refl _) pid running
  present := by
    rw [pid, running, buried]
    exact owned.present

variable (env : Environment) (clock : Clock)

theorem awaitKilled_kills (module : Str) (target : Int) (polls : Nat) (kernel : Kernel) :
    (awaitKilled (Kernel.os env module) target polls kernel).kills = kernel.kills := by
  induction polls generalizing kernel with
  | zero => exact (waitpid_coreGroup env kernel target).2
  | succ polls ih =>
      have polled := (waitpid_coreGroup env kernel target).2
      simp only [awaitKilled]
      split
      · exact polled
      · exact (ih _).trans polled

/-- Killing a module calls `kill` once. -/
theorem killModule_kills (module : Str) (world : World Kernel) (data : ModuleData) :
    (killModule (Kernel.os env module) world data).1.os.kills = world.os.kills ++
      [⟨module, killTarget (Kernel.os env module) world.os data,
        (world.os.elapse env).processes⟩] := by
  rw [killModule_eq]
  change (Kernel.waitpid env _ _).1.kills = _
  rw [(waitpid_coreGroup env _ _).2, awaitKilled_kills]
  rfl

variable {module : Str} {world : World Kernel} {data : ModuleData}

/-- A child that is there is killed by right, and it is known afterwards whether it
is still there. -/
theorem killModule_child {group : Int} (grouped : world.os.Grouped)
    (child : world.os.processes.childAt data.pid = some (module, group)) :
    let effect := killModule (Kernel.os env module) world data
    (∃ kill : Kill, kill.Rightful ∧ effect.1.os.kills = world.os.kills ++ [kill]) ∧
      ((effect.2 = { data with running := false } ∧
          effect.1.os.processes.childAt data.pid = none) ∨
        (effect.2 = data ∧
          ∃ group, effect.1.os.processes.childAt data.pid = some (module, group))) := by
  intro effect
  let os := Kernel.os env module
  let target := killTarget os world.os data
  let killed := os.kill world.os target
  let awaited := awaitKilled os target (os.killPolls killed) killed
  rcases grouped data.pid module group child with ⟨above, notCore, _⟩
  have getpgid : os.getpgid world.os data.pid = group := getpgid_childAt grouped child
  have hits : Hits target data.pid group := by
    simp only [target, killTarget, getpgid]
    split
    · rename_i own
      exact Or.inr ⟨rfl, own.symm⟩
    · exact Or.inl rfl
  have aims : world.os.Aims target data.pid := by
    refine ⟨grouped, above, notCore, ?_, killTarget_aimed os world.os data⟩
    intro owner other found
    rw [child] at found
    cases found
    exact hits
  constructor
  · refine ⟨_, ?_, killModule_kills env module world data⟩
    rcases (elapse_evolves env world.os).onward child with ⟨after, found, same⟩
    exact Kill.Rightful.of_hits found above (Hits.later hits same)
  · have aimed := killTarget_aimed os world.os data
    have keeps := os_keeps env (fun _ => True) module data.pid
    have killing : Onward (fun _ => True) world.os awaited :=
      keeps.trans (keeps.kill _ _ aimed) (awaitKilled_keeps keeps aimed _ _)
    have equal : effect = ({ world with os := (Kernel.waitpid env awaited target).1 },
        if (Kernel.waitpid env awaited target).2 ≠ 0 then { data with running := false }
        else data) := killModule_eq os world data
    have osEq := congrArg (fun effect => effect.1.os) equal
    have dataEq := congrArg Prod.snd equal
    rcases Aims.waitpid env (aims.onward killing) with
      ⟨gone, _, childless⟩ | ⟨zero, owner, after, there, _⟩
    · rw [if_pos gone] at dataEq
      rw [osEq]
      exact Or.inl ⟨dataEq, childless⟩
    · rw [if_neg (not_not.mpr zero)] at dataEq
      have back := killing.trans (keeps.waitpid awaited target aimed)
      rcases (back.fades owner trivial).child data.pid after there with ⟨before, found, _⟩
      rw [child] at found
      cases found
      rw [osEq]
      exact Or.inr ⟨dataEq, after, there⟩

/-- A call of `kill` for a module without a child is not rightful. -/
theorem killModule_stray
    (childless : ∀ pid group, world.os.processes.childAt pid ≠ some (module, group)) :
    ∃ kill : Kill, ¬ kill.Rightful ∧
      (killModule (Kernel.os env module) world data).1.os.kills = world.os.kills ++ [kill] := by
  refine ⟨_, ?_, killModule_kills env module world data⟩
  rintro ⟨⟨pid, group, child, _⟩, _, _⟩
  rcases (elapse_evolves env world.os).backward child with ⟨before, child, _⟩
  exact childless pid before child

/-- Killing a known child leaves it known. -/
theorem killModule_owned {group : Int} (grouped : world.os.Grouped)
    (known : Known module data world.os)
    (child : world.os.processes.childAt data.pid = some (module, group)) :
    let effect := killModule (Kernel.os env module) world data
    KillsByRight world.os effect.1.os ∧ Owned module effect.2 effect.1.os ∧
      ∀ owner group, effect.1.os.processes.childAt data.pid = some (owner, group) →
        owner = module := by
  intro effect
  have onward : ∀ modules, Onward modules world.os effect.1.os := fun modules =>
    killModule_keeps world data (os_keeps env modules module data.pid)
  obtain ⟨⟨kill, rightful, kills⟩, gone | there⟩ := killModule_child env grouped child
  · rcases gone with ⟨dataEq, childless⟩
    refine ⟨⟨[kill], kills, by simpa using rightful⟩, ⟨?_, ?_⟩, ?_⟩
    · intro pid after found
      obtain ⟨before, old, _⟩ :=
        ((onward (fun _ => True)).fades module trivial).child pid after found
      rcases known pid before old with ⟨rfl, _⟩
      rw [childless] at found
      cases found
    · intro stillRunning
      rw [dataEq] at stillRunning
      cases stillRunning
    · intro owner after found
      rw [childless] at found
      cases found
  · rcases there with ⟨dataEq, after, found⟩
    refine ⟨⟨[kill], kills, by simpa using rightful⟩, ⟨?_, ?_⟩, ?_⟩
    · exact known.onward (onward _) (by rw [dataEq]) (by rw [dataEq])
    · intro _ _
      rw [dataEq]
      exact ⟨after, found⟩
    · intro owner other found'
      rw [found] at found'
      cases found'
      rfl

/-- A module that is neither running nor buried gets a child, unless the fork fails. -/
theorem spawnModule_forked (module : Str) (world : World Kernel) (data : ModuleData) :
    let effect := spawnModule (Kernel.os env module) clock world data
    ((data.running = true ∨ data.buried = true) ∧ effect = (world, data, [])) ∨
    (data.running = false ∧ data.buried = false ∧
      effect = (⟨world.os.elapse env, world.ticks⟩, data, [])) ∨
    (data.running = false ∧ data.buried = false ∧ ∃ pid, 1 < pid ∧ pid ≠ world.os.coreGroup ∧
      effect =
        (⟨{ world.os.elapse env with
            processes := (world.os.elapse env).processes.insert pid
              ⟨some module, world.os.coreGroup, true⟩ }, world.ticks + 2⟩,
          { data with
            running := true
            pid := pid
            lastHeartbeat := clock.reading world.ticks
            missedHeartbeats := 0
            lastStabilityCheck := clock.reading (world.ticks + 1) },
          [.spawned (clock.reading world.ticks) (clock.reading (world.ticks + 1))])) := by
  intro effect
  cases running : data.running with
  | true => exact Or.inl ⟨Or.inl rfl, by simp [effect, spawnModule, running]⟩
  | false =>
      cases buried : data.buried with
      | true => exact Or.inl ⟨Or.inr rfl, by simp [effect, spawnModule, buried]⟩
      | false =>
          right
          have forks : effect = if (world.os.fork env module).2 > 0 then
                (⟨(world.os.fork env module).1, world.ticks + 2⟩,
                  { data with
                    running := true
                    pid := (world.os.fork env module).2
                    lastHeartbeat := clock.reading world.ticks
                    missedHeartbeats := 0
                    lastStabilityCheck := clock.reading (world.ticks + 1) },
                  [.spawned (clock.reading world.ticks) (clock.reading (world.ticks + 1))])
              else
                (⟨(world.os.fork env module).1, world.ticks⟩, data, []) := by
            simp only [effect, spawnModule, running, buried, Bool.not_false, Bool.and_self, if_true]
            rfl
          rcases fork_cases env world.os module with failed | ⟨pid, above, notCore, _, forked⟩
          · rw [failed] at forks
            exact Or.inl ⟨rfl, rfl, forks⟩
          · rw [forked, if_pos (by show pid > 0; omega)] at forks
            rw [buried] at forks
            exact Or.inr ⟨rfl, rfl, pid, above, notCore, forks⟩

/-- The children of a module after a fork that may have failed. -/
theorem spawnModule_known (known : Known module data world.os) :
    let effect := spawnModule (Kernel.os env module) clock world data
    Known module effect.2.1 effect.1.os := by
  intro effect
  have elapsed : data.running = false → ∀ pid group,
      (world.os.elapse env).processes.childAt pid ≠ some (module, group) := by
    intro idle pid group child
    rcases (elapse_evolves env world.os).backward child with ⟨before, child, _⟩
    have running := (known pid before child).2
    rw [idle] at running
    cases running
  rcases spawnModule_forked env clock module world data with
    ⟨_, equal⟩ | ⟨idle, _, equal⟩ | ⟨idle, _, new, _, _, equal⟩
  · simp only [effect, equal]
    exact known
  · simp only [effect, equal]
    intro pid group child
    exact absurd child (elapsed idle pid group)
  · simp only [effect, equal]
    intro pid group child
    simp only [ProcessTable.childAt, Std.ExtTreeMap.getElem?_insert,
      Std.LawfulEqCmp.compare_eq_iff_eq] at child
    split at child
    · rename_i same
      exact ⟨same.symm, rfl⟩
    · exact absurd child (elapsed idle pid group)

theorem spawnModule_owned (owned : Owned module data world.os) :
    let effect := spawnModule (Kernel.os env module) clock world data
    KillsByRight world.os effect.1.os ∧ Owned module effect.2.1 effect.1.os := by
  intro effect
  have known := spawnModule_known env clock owned.known
  rcases spawnModule_forked env clock module world data with
    ⟨_, equal⟩ | ⟨idle, _, equal⟩ | ⟨_, _, new, _, _, equal⟩
  · simp only [effect, equal]
    exact ⟨KillsByRight.of_eq rfl, owned⟩
  · simp only [effect, equal] at known ⊢
    refine ⟨KillsByRight.of_eq rfl, known, ?_⟩
    intro running
    rw [idle] at running
    cases running
  · simp only [effect, equal] at known ⊢
    refine ⟨KillsByRight.of_eq rfl, known, ?_⟩
    intro _ _
    exact ⟨world.os.coreGroup, by simp [ProcessTable.childAt]⟩

theorem buryModule_owned (grouped : world.os.Grouped) (above : 1 < data.pid)
    (notCore : data.pid ≠ world.os.coreGroup) (known : Known module data world.os)
    (mine : ∀ owner group, world.os.processes.childAt data.pid = some (owner, group) →
      owner = module) :
    let effect := buryModule (Kernel.os env module) module world data
    KillsByRight world.os effect.1.os ∧ Owned module effect.2.1 effect.1.os := by
  intro effect
  let polled := world.os.waitpid env data.pid
  let after : World Kernel := { world with os := polled.1 }
  have aims : world.os.Aims data.pid data.pid :=
    ⟨grouped, above, notCore, fun _ _ _ => Or.inl rfl, Or.inl rfl⟩
  have onward : ∀ modules, Onward modules world.os polled.1 := fun modules =>
    (os_keeps env modules module data.pid).waitpid world.os data.pid (Or.inl rfl)
  have kills : polled.1.kills = world.os.kills := (waitpid_coreGroup env world.os data.pid).2
  have knownAfter : Known module data polled.1 := known.onward (onward _) rfl rfl
  rcases Aims.waitpid env aims with ⟨gone, _, _⟩ | ⟨zero, owner, group, there, _⟩
  · have equal : effect = (after, { data with buried := true }, effect.2.2) := by
      simp only [effect, buryModule]
      rw [if_neg (show ¬ ((Kernel.os env module).waitpid world.os data.pid).2 = 0 from gone)]
      rfl
    rw [equal]
    refine ⟨KillsByRight.of_eq kills, knownAfter, ?_⟩
    intro _ free
    cases free
  · have equal : effect = ((killModule (Kernel.os env module) after data).1,
        { (killModule (Kernel.os env module) after data).2 with buried := true }, effect.2.2) := by
      simp only [effect, buryModule]
      rw [if_pos (show ((Kernel.os env module).waitpid world.os data.pid).2 = 0 from zero)]
      rfl
    obtain ⟨before, child, _⟩ :=
      ((onward fun _ => True).fades owner trivial).child data.pid group there
    obtain rfl := mine owner before child
    obtain ⟨byRight, owned, _⟩ := @killModule_owned env owner after data group
      ((onward fun _ => True).grouped grouped) knownAfter there
    rw [equal]
    refine ⟨(KillsByRight.of_eq kills).trans byRight, owned.known, ?_⟩
    intro _ free
    cases free

theorem resurrectModule_owned {group : Int} (grouped : world.os.Grouped)
    (known : Known module data world.os)
    (child : world.os.processes.childAt data.pid = some (module, group)) :
    let effect := resurrectModule (Kernel.os env module) clock module world data
    KillsByRight world.os effect.1.os ∧ Owned module effect.2.1 effect.1.os := by
  rcases killModule_owned env grouped known child with ⟨byRight, owned, mine⟩
  rcases killModule_pid (Kernel.os env module) world data with ⟨samePid, _, _⟩
  have onward : Onward (fun _ => True) world.os
      (killModule (Kernel.os env module) world data).1.os :=
    killModule_keeps world data (os_keeps env _ module data.pid)
  rcases grouped data.pid module group child with ⟨above, notCore, _⟩
  unfold resurrectModule
  dsimp only
  split
  · rcases spawnModule_owned env clock owned with ⟨more, spawned⟩
    exact ⟨byRight.trans more, spawned.of_fields rfl rfl rfl⟩
  · rw [← samePid] at above notCore mine
    rw [← onward.coreGroup] at notCore
    obtain ⟨more, buried⟩ :=
      buryModule_owned env (onward.grouped grouped) above notCore owned.known mine
    exact ⟨byRight.trans more, buried⟩

/-- The process of the module is alive when the guard loop looks at it. -/
def FoundAlive (env : Environment) (module : Str) (world : World Kernel) (data : ModuleData) :
    Prop :=
  data.buried = false → data.running = true →
    (world.os.elapse env).processes.livingAt data.pid = some module

/-- The poll of the guard loop reaps the child, or leaves it there. -/
theorem Owned.polled (owned : Owned module data world.os) (grouped : world.os.Grouped)
    (free : data.buried = false) (running : data.running = true) :
    let polled := world.os.waitpid env data.pid
    let living := (world.os.elapse env).processes.livingAt data.pid
    (polled.2 ≠ 0 ∧ living ≠ some module ∧
      ∀ pid group, polled.1.processes.childAt pid ≠ some (module, group)) ∨
    (polled.2 = 0 ∧ living = some module ∧
      ∃ group, polled.1.processes.childAt data.pid = some (module, group)) := by
  intro polled living
  rcases owned.present running free with ⟨group, child⟩
  rcases grouped data.pid module group child with ⟨above, notCore, _⟩
  have aims : world.os.Aims data.pid data.pid :=
    ⟨grouped, above, notCore, fun _ _ _ => Or.inl rfl, Or.inl rfl⟩
  have onward : Onward (fun _ => True) world.os polled.1 :=
    (os_keeps env _ module data.pid).waitpid world.os data.pid (Or.inl rfl)
  rcases Aims.waitpid env aims with ⟨gone, ended, childless⟩ | ⟨zero, owner, after, there, alive⟩
  · refine Or.inl ⟨gone, by simp [living, ended], ?_⟩
    intro pid group found
    rcases (onward.fades module trivial).child pid group found with ⟨before, old, _⟩
    rcases owned.known pid before old with ⟨rfl, _⟩
    rw [childless] at found
    cases found
  · rcases (onward.fades owner trivial).child data.pid after there with ⟨before, old, _⟩
    rw [child] at old
    cases old
    exact Or.inr ⟨zero, alive, after, there⟩

theorem guardModule_owned (grouped : world.os.Grouped) (owned : Owned module data world.os)
    (alive : FoundAlive env module world data) :
    let effect := guardModule (Kernel.os env module) clock module world data
    KillsByRight world.os effect.1.os ∧ Owned module effect.2.1 effect.1.os := by
  let polled := world.os.waitpid env data.pid
  have onward : ∀ modules, Onward modules world.os polled.1 := fun modules =>
    (os_keeps env modules module data.pid).waitpid world.os data.pid (Or.inl rfl)
  have kills : KillsByRight world.os polled.1 :=
    KillsByRight.of_eq (waitpid_coreGroup env world.os data.pid).2
  have known : Known module data polled.1 := owned.known.onward (onward _) rfl rfl
  have there : data.buried = false → data.running = true →
      ∃ group, polled.1.processes.childAt data.pid = some (module, group) := by
    intro free running
    rcases owned.polled env grouped free running with ⟨_, ended, _⟩ | ⟨_, _, there⟩
    · exact absurd (alive free running) ended
    · exact there
  let holds : World Kernel → ModuleData → Prop := fun after next =>
    KillsByRight world.os after.os ∧ Owned module next after.os
  refine @guardModule_rule Kernel (Kernel.os env module) clock holds module world data ?_ ?_ ?_ ?_
  · intro after next _ _ _ held
    exact ⟨held.1, held.2.of_fields rfl rfl rfl⟩
  · exact ⟨KillsByRight.of_eq rfl, owned⟩
  · intro free running _ _ _
    exact ⟨kills, known, fun _ _ => there free running⟩
  · intro handed ticks missed
    rcases there handed.1 handed.2.1 with ⟨group, child⟩
    obtain ⟨more, owned⟩ := @resurrectModule_owned env clock module ⟨polled.1, ticks⟩
      { data with missedHeartbeats := missed } group
      ((onward fun _ => True).grouped grouped) known child
    exact ⟨kills.trans more, owned⟩

/-- The guard loop kills a module whose process it finds dead, and has just reaped. -/
theorem guardModule_stray (grouped : world.os.Grouped) (owned : Owned module data world.os)
    (dead : ¬ FoundAlive env module world data) :
    ∃ kill ∈ (guardModule (Kernel.os env module) clock module world data).1.os.kills,
      ¬ kill.Rightful := by
  let os := Kernel.os env module
  let reaped : World Kernel := { world with os := (world.os.waitpid env data.pid).1 }
  simp only [FoundAlive, Classical.not_imp] at dead
  rcases dead with ⟨free, running, ended⟩
  rcases owned.polled env grouped free running with ⟨gone, _, childless⟩ | ⟨_, alive, _⟩
  · rcases @killModule_stray env module reaped data childless with ⟨kill, stray, kills⟩
    have handed : guardModule os clock module world data =
        resurrectModule os clock module reaped data := by
      rcases guardModule_cases os clock module world data with
        ⟨buried | idle, _⟩ | ⟨_, _, _, equal⟩ | ⟨_, _, zero, _⟩
      · rw [free] at buried
        cases buried
      · rw [running] at idle
        cases idle
      · exact equal
      · exact absurd zero gone
    have later : Onward (· ≠ module) (killModule os reaped data).1.os
        (resurrectModule os clock module reaped data).1.os := by
      apply resurrectModule_after clock module reaped data (os_keeps env _ module data.pid)
      intro _ kernel
      exact fork_onward env kernel _ (by simp)
    refine ⟨kill, ?_, stray⟩
    rw [handed]
    apply later.kills.subset
    rw [kills]
    simp
  · exact absurd alive ended

/-! ## Runs over a process table -/

/-- What a watchdog over a process table does.  The rounds end with `stopGuarding`,
which does nothing else. -/
inductive Command where
  | start
  | round
  | heartbeat (module : Str)
  | setHeartbeatInterval (module : Str) (interval : UInt32)
  | killAll

/-- The function that a command calls for its modules. -/
def Command.effect (env : Environment) (clock : Clock) (command : Command) (module : Str) :
    World Kernel → ModuleData → Effect Kernel :=
  match command with
  | .start => spawnModule (Kernel.os env module) clock
  | .round => guardModule (Kernel.os env module) clock module
  | .heartbeat _ => Watchdog.heartbeat clock
  | .setHeartbeatInterval _ interval => Watchdog.setHeartbeatInterval interval
  | .killAll => fun world data =>
      let (world, data) := killModule (Kernel.os env module) world data
      (world, data, [])

/-- The modules that a command is for. -/
def Command.modules (watchdog : Watchdog Kernel) : Command → List Str
  | .heartbeat module => [module]
  | .setHeartbeatInterval module _ => [module]
  | _ => watchdog.modules.keys

/-- A watchdog over a process table.  Its outputs are the visits. -/
def overProcesses (names : List Str) (coreGroup : Int) :
    Machine (Watchdog Kernel) Command (Visit Kernel) where
  start := new clock names (Kernel.new coreGroup)
  step watchdog command :=
    ((changeAll (command.effect env clock) watchdog (command.modules watchdog)).1,
      visits (command.effect env clock) watchdog (command.modules watchdog))

/-- The watchdog has a child of the module: when `killAll` comes to it, and still
after the guard loop has looked at it. -/
def Justified (item : Command × Visit Kernel) : Prop :=
  match item.1 with
  | .round => FoundAlive env item.2.module item.2.world item.2.data
  | .killAll =>
      ∃ pid group, item.2.world.os.processes.childAt pid = some (item.2.module, group)
  | _ => True

variable {other : Str} {otherData : ModuleData}

/-- Calls for the child of a module do not concern the others. -/
theorem Owned.of_spares {group : Int} {next : Kernel} (owned : Owned other otherData world.os)
    (spares : Spares (· ≠ module) data.pid world.os next) (grouped : world.os.Grouped)
    (child : world.os.processes.childAt data.pid = some (module, group))
    (different : other ≠ module) : Owned other otherData next where
  known pid after found := by
    rcases (spares.onward.fades other different).child pid after found with ⟨before, found, _⟩
    exact owned.known pid before found
  present running free := by
    rcases owned.present running free with ⟨before, found⟩
    rcases grouped data.pid module group child with ⟨above, notCore, _⟩
    apply spares.spared grouped above notCore otherData.pid other before _ found
    intro same
    rw [same, child] at found
    cases found
    exact different rfl

theorem Owned.of_fork (owned : Owned other otherData world.os) (different : other ≠ module) :
    Owned other otherData (world.os.fork env module).1 where
  known pid after found := by
    rcases (fork_fades env world.os different).child pid after found with ⟨before, found, _⟩
    exact owned.known pid before found
  present running free := by
    rcases owned.present running free with ⟨before, found⟩
    exact fork_childAt env world.os found

theorem spawnModule_others (owned : Owned other otherData world.os) (different : other ≠ module) :
    Owned other otherData (spawnModule (Kernel.os env module) clock world data).1.os :=
  @spawnModule_keeps Kernel (Kernel.os env module) clock
    (fun _ next => Owned other otherData next) world data owned (owned.of_fork env different)

theorem guardModule_others (owned : Owned other otherData world.os) (grouped : world.os.Grouped)
    (here : Owned module data world.os) (different : other ≠ module) :
    Owned other otherData (guardModule (Kernel.os env module) clock module world data).1.os := by
  by_cases looked : data.buried = false ∧ data.running = true
  · rcases here.present looked.2 looked.1 with ⟨group, child⟩
    apply owned.of_spares _ grouped child different
    apply guardModule_keeps clock module world data (os_spares env _ module data.pid)
    intro _ _ kernel
    exact fork_spares env kernel _ (by simp) _
  · rcases guardModule_cases (Kernel.os env module) clock module world data with
      ⟨_, equal⟩ | ⟨free, running, _⟩ | ⟨free, running, _⟩
    · rw [equal]
      exact owned
    · exact absurd ⟨free, running⟩ looked
    · exact absurd ⟨free, running⟩ looked

/-- The kernel only goes on. -/
theorem effect_onward (command : Command) (module : Str) (world : World Kernel)
    (data : ModuleData) :
    Onward (· ≠ module) world.os (command.effect env clock module world data).1.os := by
  have keeps := os_keeps env (· ≠ module) module data.pid
  have forks : ∀ kernel, Onward (· ≠ module) kernel (kernel.fork env module).1 :=
    fun kernel => fork_onward env kernel _ (by simp)
  cases command with
  | start => exact spawnModule_keeps clock world data (Onward.refl _) (forks _)
  | round => exact guardModule_keeps clock module world data keeps fun _ _ => forks
  | heartbeat _ => exact Onward.refl _
  | setHeartbeatInterval _ _ => exact Onward.refl _
  | killAll => exact killModule_keeps world data keeps

/-- A justified visit kills by right, and keeps all modules owned. -/
theorem effect_owned {command : Command} (grouped : world.os.Grouped)
    (owned : Owned module data world.os)
    (justified : Justified env
      (command, ⟨module, world, data, command.effect env clock module world data⟩)) :
    let effect := command.effect env clock module world data
    KillsByRight world.os effect.1.os ∧ Owned module effect.2.1 effect.1.os ∧
      ∀ other otherData, other ≠ module → Owned other otherData world.os →
        Owned other otherData effect.1.os := by
  cases command with
  | start =>
      rcases spawnModule_owned env clock owned with ⟨byRight, next⟩
      exact ⟨byRight, next, fun other otherData different held =>
        spawnModule_others env clock held different⟩
  | round =>
      rcases guardModule_owned env clock grouped owned justified with ⟨byRight, next⟩
      exact ⟨byRight, next, fun other otherData different held =>
        guardModule_others env clock held grouped owned different⟩
  | heartbeat _ =>
      exact ⟨KillsByRight.of_eq rfl, owned.of_fields rfl rfl rfl, fun _ _ _ held => held⟩
  | setHeartbeatInterval _ _ =>
      exact ⟨KillsByRight.of_eq rfl, owned.of_fields rfl rfl rfl, fun _ _ _ held => held⟩
  | killAll =>
      rcases justified with ⟨pid, group, child⟩
      rcases owned.known pid group child with ⟨rfl, running⟩
      rcases killModule_owned env grouped owned.known child with ⟨byRight, next, _⟩
      refine ⟨byRight, next, fun other otherData different held => ?_⟩
      exact held.of_spares
        (killModule_keeps world data (os_spares env _ module data.pid)) grouped child different

theorem effect_stray {command : Command} (grouped : world.os.Grouped)
    (owned : Owned module data world.os)
    (unjustified : ¬ Justified env
      (command, ⟨module, world, data, command.effect env clock module world data⟩)) :
    ∃ kill ∈ (command.effect env clock module world data).1.os.kills, ¬ kill.Rightful := by
  cases command with
  | round => exact guardModule_stray env clock grouped owned unjustified
  | killAll =>
      obtain ⟨kill, stray, kills⟩ := @killModule_stray env module world data
        fun pid group child => unjustified ⟨pid, group, child⟩
      refine ⟨kill, ?_, stray⟩
      change kill ∈ (killModule (Kernel.os env module) world data).1.os.kills
      rw [kills]
      simp
  | start => exact absurd trivial unjustified
  | heartbeat _ => exact absurd trivial unjustified
  | setHeartbeatInterval _ _ => exact absurd trivial unjustified

/-- Everything was justified, and all modules are owned. -/
structure Orderly (watchdog : Watchdog Kernel) (trace : List (Command × Visit Kernel)) : Prop where
  grouped : watchdog.world.os.Grouped
  owned : ∀ module data, watchdog.modules[module]? = some data →
    Owned module data watchdog.world.os
  rightful : ∀ kill ∈ watchdog.world.os.kills, kill.Rightful
  justified : ∀ item ∈ trace, Justified env item

/-- Something was not justified. -/
structure Guilty (watchdog : Watchdog Kernel) (trace : List (Command × Visit Kernel)) : Prop where
  stray : ∃ kill ∈ watchdog.world.os.kills, ¬ kill.Rightful
  unjustified : ∃ item ∈ trace, ¬ Justified env item

/-- One more visit, after which something was not justified if it was not before. -/
theorem visit_orderly_or_guilty (command : Command) {watchdog : Watchdog Kernel}
    {trace : List (Command × Visit Kernel)} (found : watchdog.modules[module]? = some data)
    (held : Orderly env watchdog trace ∨ Guilty env watchdog trace) :
    let effect := command.effect env clock module watchdog.world data
    let next : Watchdog Kernel := ⟨watchdog.modules.insert module effect.2.1, effect.1⟩
    let item : Command × Visit Kernel := (command, ⟨module, watchdog.world, data, effect⟩)
    Orderly env next (trace ++ [item]) ∨ Guilty env next (trace ++ [item]) := by
  intro effect next item
  have onward := effect_onward env clock command module watchdog.world data
  rcases held with orderly | guilty
  · have here := orderly.owned module data found
    by_cases justified : Justified env item
    · left
      obtain ⟨⟨kills, equal, byRight⟩, owned, others⟩ :=
        effect_owned env clock orderly.grouped here justified
      refine ⟨onward.grouped orderly.grouped, ?_, ?_, ?_⟩
      · intro other otherData present
        change (watchdog.modules.insert module effect.2.1)[other]? = some otherData at present
        rw [Std.ExtTreeMap.getElem?_insert] at present
        by_cases same : module = other
        · subst same
          obtain rfl : effect.2.1 = otherData := by simpa using present
          exact owned
        · apply others other otherData (Ne.symm same)
          exact orderly.owned other otherData (by simpa [same] using present)
      · intro kill member
        change kill ∈ effect.1.os.kills at member
        rw [equal] at member
        rcases List.mem_append.mp member with old | new
        · exact orderly.rightful kill old
        · exact byRight kill new
      · intro other member
        rcases List.mem_append.mp member with old | new
        · exact orderly.justified other old
        · rw [List.mem_singleton.mp new]
          exact justified
    · right
      exact ⟨effect_stray env clock orderly.grouped here justified, item, by simp, justified⟩
  · rcases guilty.stray with ⟨kill, member, stray⟩
    rcases guilty.unjustified with ⟨old, oldMember, unjustified⟩
    exact Or.inr ⟨⟨kill, onward.kills.subset member, stray⟩, old,
      List.mem_append_left _ oldMember, unjustified⟩

/-- The invariant of all runs. -/
theorem run_orderly_or_guilty (names : List Str) (coreGroup : Int) (commands : List Command) :
    let run := (overProcesses env clock names coreGroup).run commands
    Orderly env run.state run.trace ∨ Guilty env run.state run.trace := by
  let machine := overProcesses env clock names coreGroup
  let holds : Run (Watchdog Kernel) Command (Visit Kernel) → Prop := fun run =>
    Orderly env run.state run.trace ∨ Guilty env run.state run.trace
  have osEq : (new clock names (Kernel.new coreGroup)).world.os = Kernel.new coreGroup :=
    new_os names _
  have initial : holds machine.fresh := by
    refine Or.inl ⟨?_, ?_, ?_, ?_⟩
    · change (new clock names (Kernel.new coreGroup)).world.os.Grouped
      rw [osEq]
      exact new_grouped coreGroup
    · intro module data present
      rcases new_modules names _ module data present with ⟨now, rfl⟩
      change Owned module (newModule now) (new clock names (Kernel.new coreGroup)).world.os
      rw [osEq]
      refine ⟨?_, fun running => absurd running (by simp [newModule])⟩
      intro pid group child
      simp [Kernel.new, ProcessTable.childAt] at child
    · change ∀ kill ∈ (new clock names (Kernel.new coreGroup)).world.os.kills, _
      rw [osEq]
      simp [Kernel.new]
    · simp [machine, Machine.fresh]
  apply Machine.run_invariant machine initial
  intro run command held
  let holdsSeen : List Str → Watchdog Kernel → List (Visit Kernel) → Prop :=
    fun _ watchdog seen =>
      Orderly env watchdog (run.trace ++ seen.map fun visit => (command, visit)) ∨
        Guilty env watchdog (run.trace ++ seen.map fun visit => (command, visit))
  have before : holdsSeen (command.modules run.state) run.state [] := by
    simpa [holdsSeen] using held
  have final := @changeAll_visits Kernel holdsSeen (command.effect env clock) ?_ ?_
    (command.modules run.state) run.state [] before
  · exact final
  · intro watchdog seen module left _ held
    exact held
  · intro watchdog seen module left data found held
    have next := visit_orderly_or_guilty env clock command found held
    simpa [holdsSeen] using next

/-- The watchdog kills only its own modules, if it has a child of the module whenever
it comes to kill: all targets of a run are children of the module in question, or
their process groups, exactly when `killAll` finds a child of every module and the
guard loop finds no child dead. -/
theorem kills_rightful_iff (names : List Str) (coreGroup : Int) (commands : List Command) :
    let run := (overProcesses env clock names coreGroup).run commands
    (∀ kill ∈ run.state.world.os.kills, kill.Rightful) ↔
      ∀ item ∈ run.trace, Justified env item := by
  intro run
  rcases run_orderly_or_guilty env clock names coreGroup commands with orderly | guilty
  · exact ⟨fun _ => orderly.justified, fun _ => orderly.rightful⟩
  · constructor
    · intro rightful
      rcases guilty.stray with ⟨kill, member, stray⟩
      exact absurd (rightful kill member) stray
    · intro justified
      rcases guilty.unjustified with ⟨item, member, unjustified⟩
      exact absurd (justified item member) unjustified

/-- An environment in which nothing happens and every fork fails. -/
def Environment.barren : Environment where
  moves _ := []
  newPid _ := none
  obeys _ _ := true
  killPolls _ := 1

/-- When the fork of a module fails, the shutdown sends the signal to process 1. -/
theorem killAll_kills_first_process :
    ¬ ∀ (env : Environment) (names : List Str) (coreGroup : Int) (commands : List Command),
      ∀ kill ∈ ((overProcesses env (Clock.ofList 0 []) names coreGroup).run
        commands).state.world.os.kills, kill.Rightful := by
  intro always
  let run := (overProcesses Environment.barren (Clock.ofList 0 []) ["module_sms".toList] 500).run
    [.start, .killAll]
  have first : ∃ kill ∈ run.state.world.os.kills, kill.target = 1 := by
    decide +kernel
  rcases first with ⟨kill, member, target⟩
  exact (always Environment.barren ["module_sms".toList] 500 [.start, .killAll] kill
    member).notFirst
    target

end Watchdog

end Sentri.Core
