import Sentri.Core.Watchdog.Frames
import Sentri.Core.Watchdog.Processes

/-!
# Children of the core

Between two states of the kernel the children of a module come, go and move into
their own process groups.  A call whose target is made of a pid can take away
only the child with this pid.
-/

namespace Sentri.Core

open Sentri.Text Sentri.Transition

/-! ## Children and targets -/

/-- The target means the child or its own process group. -/
def Hits (target pid group : Int) : Prop :=
  target = pid ∨ target = -pid ∧ group = pid

theorem Hits.later {target pid group after : Int} (hits : Hits target pid group)
    (same : after = group ∨ after = pid) : Hits target pid after := by
  rcases hits with direct | ⟨negative, own⟩
  · exact Or.inl direct
  · refine Or.inr ⟨negative, ?_⟩
    rcases same with rfl | own'
    · exact own
    · exact own'

/-- A call of `kill` for a module has a child of this module as its target, neither
the first process of the system nor all processes. -/
structure Kill.Rightful (kill : Kill) : Prop where
  child : ∃ pid group, kill.processes.childAt pid = some (kill.module, group) ∧
    Hits kill.target pid group
  notFirst : kill.target ≠ 1
  notAll : kill.target ≠ -1

theorem Kill.Rightful.of_hits {kill : Kill} {pid group : Int}
    (child : kill.processes.childAt pid = some (kill.module, group)) (above : 1 < pid)
    (hits : Hits kill.target pid group) : kill.Rightful := by
  refine ⟨⟨pid, group, child, hits⟩, ?_, ?_⟩
  · rcases hits with direct | ⟨negative, _⟩ <;> omega
  · rcases hits with direct | ⟨negative, _⟩ <;> omega

theorem selects_process {coreGroup target pid group : Int} (positive : 0 < target) :
    selects coreGroup target pid group = true ↔ pid = target := by
  simp [selects, positive]

theorem selects_group {coreGroup target pid group : Int} (negative : target < -1) :
    selects coreGroup target pid group = true ↔ group = -target := by
  have notPositive : ¬ target > 0 := by omega
  have nonzero : target ≠ 0 := by omega
  have notAll : target ≠ -1 := by omega
  simp [selects, notPositive, nonzero, notAll]

namespace Kernel

/-- Every child is in the group of the core or in one of its own. -/
def Grouped (kernel : Kernel) : Prop :=
  ∀ pid owner group, kernel.processes.childAt pid = some (owner, group) →
    1 < pid ∧ pid ≠ kernel.coreGroup ∧ (group = kernel.coreGroup ∨ group = pid)

/-- The kernel goes on, and some modules get no new children. -/
structure Onward (modules : Str → Prop) (kernel next : Kernel) : Prop where
  coreGroup : next.coreGroup = kernel.coreGroup
  kills : kernel.kills <+: next.kills
  grouped : kernel.Grouped → next.Grouped
  fades : ∀ owner, modules owner → Fades owner kernel.processes next.processes

theorem new_grouped (coreGroup : Int) : (new coreGroup).Grouped := by
  intro pid owner group child
  simp [new, ProcessTable.childAt] at child

theorem grouped_of_fades {kernel next : Kernel} (coreGroup : next.coreGroup = kernel.coreGroup)
    (fades : ∀ owner, Fades owner kernel.processes next.processes) (grouped : kernel.Grouped) :
    next.Grouped := by
  intro pid owner group child
  rcases (fades owner).child pid group child with ⟨before, childBefore, same⟩
  rcases grouped pid owner before childBefore with ⟨above, notCore, groups⟩
  rw [coreGroup]
  refine ⟨above, notCore, ?_⟩
  rcases same with rfl | own
  · exact groups
  · exact Or.inr own

variable (env : Environment) (kernel : Kernel)

theorem waitpid_coreGroup (target : Int) :
    (kernel.waitpid env target).1.coreGroup = kernel.coreGroup ∧
      (kernel.waitpid env target).1.kills = kernel.kills := by
  rcases waitpid_cases env kernel target with
    ⟨_, _, _, _, _, _, equal⟩ | ⟨equal, _⟩ | ⟨equal, _⟩
  all_goals
    rw [equal]
    exact ⟨rfl, rfl⟩

theorem fork_grouped (module : Str) (grouped : kernel.Grouped) :
    (kernel.fork env module).1.Grouped := by
  have elapsed : (kernel.elapse env).Grouped :=
    @grouped_of_fades kernel (kernel.elapse env) rfl (elapse_fades env kernel) grouped
  rcases fork_cases env kernel module with same | ⟨new, above, notCore, _, forked⟩
  · rw [same]
    exact elapsed
  · rw [forked]
    intro pid owner group child
    simp only [ProcessTable.childAt, Std.ExtTreeMap.getElem?_insert,
      Std.LawfulEqCmp.compare_eq_iff_eq] at child
    split at child
    · rename_i same
      cases child
      rw [← same]
      exact ⟨above, notCore, Or.inl rfl⟩
    · exact elapsed pid owner group child

namespace Onward

variable {modules : Str → Prop} {kernel}

theorem refl (kernel : Kernel) : Onward modules kernel kernel :=
  ⟨rfl, List.prefix_rfl, id, fun _ _ => Fades.refl _⟩

theorem trans {first second third : Kernel} (one : Onward modules first second)
    (two : Onward modules second third) : Onward modules first third where
  coreGroup := two.coreGroup.trans one.coreGroup
  kills := one.kills.trans two.kills
  grouped grouped := two.grouped (one.grouped grouped)
  fades owner member := (one.fades owner member).trans (two.fades owner member)

theorem mono {fewer : Str → Prop} {next : Kernel} (onward : Onward modules kernel next)
    (subset : ∀ owner, fewer owner → modules owner) : Onward fewer kernel next :=
  ⟨onward.coreGroup, onward.kills, onward.grouped,
    fun owner member => onward.fades owner (subset owner member)⟩

theorem of_fades {next : Kernel} (coreGroup : next.coreGroup = kernel.coreGroup)
    (kills : kernel.kills <+: next.kills)
    (fades : ∀ owner, Fades owner kernel.processes next.processes) :
    Onward modules kernel next where
  coreGroup := coreGroup
  kills := kills
  grouped := grouped_of_fades coreGroup fades
  fades owner _ := fades owner

end Onward

/-- Without a fork no module gets a new child. -/
theorem os_keeps (modules : Str → Prop) (module : Str) (pid : Int) :
    (os env module).Keeps pid (Onward modules) where
  refl := Onward.refl
  trans := Onward.trans
  kill kernel target _ := Onward.of_fades rfl (List.prefix_append _ _)
    fun owner => kill_fades env kernel module owner target
  waitpid kernel target _ := by
    rcases waitpid_coreGroup env kernel target with ⟨coreGroup, kills⟩
    apply Onward.of_fades coreGroup
    · rw [kills]
    · exact fun owner => waitpid_fades env kernel owner target

theorem fork_onward (modules : Str → Prop) {module : Str} (new : ¬ modules module) :
    Onward modules kernel (kernel.fork env module).1 where
  coreGroup := by
    rcases fork_cases env kernel module with same | ⟨_, _, _, _, forked⟩
    · rw [same]
      rfl
    · rw [forked]
      rfl
  kills := by
    rcases fork_cases env kernel module with same | ⟨_, _, _, _, forked⟩
    · rw [same]
      exact List.prefix_rfl
    · rw [forked]
      exact List.prefix_rfl
  grouped := fork_grouped env kernel module
  fades owner member := by
    apply fork_fades
    rintro rfl
    exact new member

/-! ## Calls for one child -/

/-- A target made of a pid selects no child but the one with this pid. -/
theorem Grouped.eq_of_selects {kernel : Kernel} (grouped : kernel.Grouped) {target pid : Int}
    (above : 1 < pid) (notCore : pid ≠ kernel.coreGroup) (aimed : target = pid ∨ target = -pid)
    {other group : Int} {owner : Str}
    (child : kernel.processes.childAt other = some (owner, group))
    (selected : selects kernel.coreGroup target other group) : other = pid := by
  rcases grouped other owner group child with ⟨_, _, groups⟩
  rcases aimed with rfl | rfl
  · exact (selects_process (by omega)).mp selected
  · have same : group = pid := by
      simpa using (selects_group (by omega)).mp selected
    rcases groups with core | own
    · exact absurd (same.symm.trans core) notCore
    · exact own.symm.trans same

/-- The pid may be that of a child, and a target means this child if it is one. -/
structure Aims (kernel : Kernel) (target pid : Int) : Prop where
  grouped : kernel.Grouped
  above : 1 < pid
  notCore : pid ≠ kernel.coreGroup
  hits : ∀ owner group, kernel.processes.childAt pid = some (owner, group) →
    Hits target pid group
  target : target = pid ∨ target = -pid

namespace Aims

variable {env kernel} {target pid : Int}

theorem onward {next : Kernel} (aims : kernel.Aims target pid)
    (onward : Onward (fun _ => True) kernel next) : next.Aims target pid where
  grouped := onward.grouped aims.grouped
  above := aims.above
  notCore := by
    rw [onward.coreGroup]
    exact aims.notCore
  hits owner group child := by
    rcases (onward.fades owner trivial).child pid group child with ⟨before, child, same⟩
    exact Hits.later (aims.hits owner before child) same
  target := aims.target

end Aims

theorem getpgid_childAt {kernel : Kernel} {pid group : Int} {owner : Str}
    (grouped : kernel.Grouped) (child : kernel.processes.childAt pid = some (owner, group)) :
    kernel.getpgid pid = group := by
  rcases grouped pid owner group child with ⟨above, _, _⟩
  rcases Option.bind_eq_some_iff.mp child with ⟨process, found, mapped⟩
  rcases Option.map_eq_some_iff.mp mapped with ⟨_, _, equal⟩
  rw [Kernel.getpgid, if_neg (by omega), if_neg (by omega), found]
  exact congrArg Prod.snd equal

theorem selects_of_hits {coreGroup target pid group : Int} (above : 1 < pid)
    (hits : Hits target pid group) : selects coreGroup target pid group = true := by
  rcases hits with rfl | ⟨rfl, rfl⟩
  · exact (selects_process (by omega)).mpr rfl
  · exact (selects_group (by omega)).mpr (by simp)

/-- Waiting for the child tells whether it is still there afterwards. -/
theorem Aims.waitpid {target pid : Int} {kernel : Kernel} (aims : kernel.Aims target pid) :
    ((kernel.waitpid env target).2 ≠ 0 ∧
      (kernel.elapse env).processes.livingAt pid = none ∧
      (kernel.waitpid env target).1.processes.childAt pid = none) ∨
    ((kernel.waitpid env target).2 = 0 ∧ ∃ owner group,
      (kernel.waitpid env target).1.processes.childAt pid = some (owner, group) ∧
      (kernel.elapse env).processes.livingAt pid = some owner) := by
  have elapsed : (kernel.elapse env).Aims target pid :=
    aims.onward (Onward.of_fades rfl List.prefix_rfl (elapse_fades env kernel))
  rcases waitpid_cases env kernel target with
    ⟨other, owner, group, child, selected, ended, equal⟩ |
    ⟨equal, other, owner, group, child, selected, living⟩ | ⟨equal, nobody⟩
  · obtain rfl := elapsed.grouped.eq_of_selects elapsed.above elapsed.notCore elapsed.target
      child selected
    rw [equal]
    refine Or.inl ⟨?_, ended, ?_⟩
    · have above := aims.above
      omega
    · simp [ProcessTable.childAt]
  · obtain rfl := elapsed.grouped.eq_of_selects elapsed.above elapsed.notCore elapsed.target
      child selected
    rw [equal]
    exact Or.inr ⟨rfl, owner, group, child, living⟩
  · rw [equal]
    have childless : (kernel.elapse env).processes.childAt pid = none := by
      cases child : (kernel.elapse env).processes.childAt pid with
      | none => rfl
      | some entry =>
          exact absurd (selects_of_hits aims.above (elapsed.hits entry.1 entry.2 child))
            (nobody pid entry.1 entry.2 child)
    refine Or.inl ⟨by simp, ?_, childless⟩
    cases living : (kernel.elapse env).processes.livingAt pid with
    | none => rfl
    | some owner =>
        rcases ProcessTable.childAt_of_livingAt living with ⟨group, child⟩
        rw [childless] at child
        cases child

/-- No child is lost but perhaps the one with the pid. -/
structure Spares (modules : Str → Prop) (pid : Int) (kernel next : Kernel) : Prop where
  onward : Onward modules kernel next
  spared : kernel.Grouped → 1 < pid → pid ≠ kernel.coreGroup → ∀ other owner group, other ≠ pid →
    kernel.processes.childAt other = some (owner, group) →
    ∃ after, next.processes.childAt other = some (owner, after)

namespace Spares

variable {modules : Str → Prop} {pid : Int}

theorem of_evolves {kernel next : Kernel} (onward : Onward modules kernel next)
    (evolves : Evolves kernel.processes next.processes) : Spares modules pid kernel next where
  onward := onward
  spared _ _ _ other owner group _ child := by
    rcases evolves.onward child with ⟨after, child, _⟩
    exact ⟨after, child⟩

theorem trans {first second third : Kernel} (one : Spares modules pid first second)
    (two : Spares modules pid second third) : Spares modules pid first third where
  onward := one.onward.trans two.onward
  spared grouped above notCore other owner group different child := by
    rcases one.spared grouped above notCore other owner group different child with ⟨between, child⟩
    rw [← one.onward.coreGroup] at notCore
    exact two.spared (one.onward.grouped grouped) above notCore other owner between different child

end Spares

theorem kill_evolves (module : Str) (target : Int) :
    Evolves kernel.processes (kernel.kill env module target).processes := by
  intro pid
  rw [kill_childAt]
  exact elapse_evolves env kernel pid

theorem elapse_grouped (grouped : kernel.Grouped) : (kernel.elapse env).Grouped :=
  @grouped_of_fades kernel (kernel.elapse env) rfl (elapse_fades env kernel) grouped

theorem waitpid_spares (modules : Str → Prop) {target pid : Int}
    (aimed : target = pid ∨ target = -pid) :
    Spares modules pid kernel (kernel.waitpid env target).1 where
  onward := (os_keeps env _ [] pid).waitpid kernel target aimed
  spared grouped above notCore other owner group different child := by
    rcases (elapse_evolves env kernel).onward child with ⟨after, child, _⟩
    rcases waitpid_cases env kernel target with
      ⟨reaped, _, _, found, selected, _, equal⟩ | ⟨equal, _⟩ | ⟨equal, _⟩
    · obtain rfl := (elapse_grouped env kernel grouped).eq_of_selects above notCore aimed
        found selected
      rw [equal]
      refine ⟨after, ?_⟩
      simpa [ProcessTable.childAt, Std.ExtTreeMap.getElem?_erase, different.symm] using child
    · rw [equal]
      exact ⟨after, child⟩
    · rw [equal]
      exact ⟨after, child⟩

theorem os_spares (modules : Str → Prop) (module : Str) (pid : Int) :
    (os env module).Keeps pid (Spares modules pid) where
  refl kernel := Spares.of_evolves (Onward.refl kernel) (Evolves.refl _)
  trans := Spares.trans
  kill kernel target aimed :=
    Spares.of_evolves ((os_keeps env _ module pid).kill kernel target aimed)
      (kill_evolves env kernel module target)
  waitpid kernel _ aimed := waitpid_spares env kernel modules aimed

theorem fork_childAt {module owner : Str} {pid group : Int}
    (child : kernel.processes.childAt pid = some (owner, group)) :
    ∃ after, (kernel.fork env module).1.processes.childAt pid = some (owner, after) := by
  rcases (elapse_evolves env kernel).onward child with ⟨after, child, _⟩
  rcases fork_cases env kernel module with same | ⟨new, _, _, unused, forked⟩
  · rw [same]
    exact ⟨after, child⟩
  · rw [forked]
    have different : new ≠ pid := by
      rintro rfl
      rw [unused] at child
      cases child
    refine ⟨after, ?_⟩
    simpa [ProcessTable.childAt, Std.ExtTreeMap.getElem?_insert, different] using child

theorem fork_spares (modules : Str → Prop) {module : Str} (new : ¬ modules module) (pid : Int) :
    Spares modules pid kernel (kernel.fork env module).1 where
  onward := fork_onward env kernel modules new
  spared _ _ _ _ _ _ _ child := fork_childAt env kernel child

end Kernel

end Sentri.Core
