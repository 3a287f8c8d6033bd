import Sentri.Core.Watchdog.Basic

/-!
# Runs of the watchdog, module by module

Every function changes the data of one module only, so an invariant of a run is
an invariant of each of its modules.  Such an invariant speaks of the number of
clock readings, of the data of the module and of what happened to it.
-/

namespace Sentri.Core.Watchdog

open Sentri.Text Sentri.Transition

universe u

variable {ω : Type u} {os : Os ω} {clock : Clock}

/-- The run of a watchdog: its state and the reports about all modules. -/
abbrev WatchdogRun (ω : Type u) := Run (Watchdog ω) (Op ω) Report

/-- What happened to a module, each time with the operation. -/
def about (module : Str) (trace : List (Op ω × Report)) : List (Op ω × Happening) :=
  trace.filterMap fun item =>
    if item.2.module = module then some (item.1, item.2.happening) else none

/-- An invariant of a single module. -/
abbrev ModuleInvariant (ω : Type u) :=
  Nat → ModuleData → List (Op ω × Happening) → Prop

/-- Every module of the run meets the invariant. -/
def All (holds : ModuleInvariant ω) (run : WatchdogRun ω) : Prop :=
  ∀ module data, run.state.modules[module]? = some data →
    holds run.state.world.ticks data (about module run.trace)

/-- An invariant that survives clock readings taken for other modules. -/
def Stable (holds : ModuleInvariant ω) : Prop :=
  ∀ ticks later data items, ticks ≤ later → holds ticks data items → holds later data items

/-- A function called in an operation keeps the invariant of its module. -/
def Keeps (holds : ModuleInvariant ω) (op : Op ω)
    (effect : Str → World ω → ModuleData → Effect ω) : Prop :=
  ∀ module world data items, holds world.ticks data items →
    world.ticks ≤ (effect module world data).1.ticks ∧
      holds (effect module world data).1.ticks (effect module world data).2.1
        (items ++ (effect module world data).2.2.map fun happening => (op, happening))

theorem about_reports_same (module : Str) (op : Op ω) (happenings : List Happening) :
    about module ((happenings.map (Report.mk module)).map fun report => (op, report)) =
      happenings.map fun happening => (op, happening) := by
  simp [about]

theorem about_reports_other {module other : Str} (different : other ≠ module) (op : Op ω)
    (happenings : List Happening) :
    about module ((happenings.map (Report.mk other)).map fun report => (op, report)) = [] := by
  simp [about, different]

theorem about_append (module : Str) (first second : List (Op ω × Report)) :
    about module (first ++ second) = about module first ++ about module second := by
  simp [about]

theorem all_change {holds : ModuleInvariant ω} (stable : Stable holds) {op : Op ω}
    {effect : Str → World ω → ModuleData → Effect ω} (keeps : Keeps holds op effect)
    {watchdog : Watchdog ω} {trace : List (Op ω × Report)} (module : Str)
    (all : All holds ⟨watchdog, trace⟩) :
    All holds ⟨(change effect watchdog module).1,
      trace ++ (change effect watchdog module).2.map fun report => (op, report)⟩ := by
  cases found : watchdog.modules[module]? with
  | none => simpa [change, found] using all
  | some data =>
      obtain ⟨ticksLe, kept⟩ := keeps module watchdog.world data _ (all module data found)
      simp only [change, found]
      intro other otherData present
      rw [Std.ExtTreeMap.getElem?_insert] at present
      change holds (effect module watchdog.world data).1.ticks otherData _
      rw [about_append]
      by_cases same : module = other
      · subst same
        obtain rfl : (effect module watchdog.world data).2.1 = otherData := by
          simpa using present
        rw [about_reports_same]
        exact kept
      · rw [about_reports_other same, List.append_nil]
        apply stable _ _ _ _ ticksLe
        exact all other otherData (by simpa [same] using present)

theorem all_changeAll {holds : ModuleInvariant ω} (stable : Stable holds) {op : Op ω}
    {effect : Str → World ω → ModuleData → Effect ω} (keeps : Keeps holds op effect)
    (left : List Str) {watchdog : Watchdog ω} {trace : List (Op ω × Report)}
    (all : All holds ⟨watchdog, trace⟩) :
    All holds ⟨(changeAll effect watchdog left).1,
      trace ++ (changeAll effect watchdog left).2.map fun report => (op, report)⟩ := by
  induction left generalizing watchdog trace with
  | nil => simpa [changeAll] using all
  | cons module left ih =>
      have rest := ih (all_change stable keeps module all)
      simpa [changeAll] using rest

theorem new_modules (names : List Str) (state : ω) (module : Str) (data : ModuleData)
    (present : (new clock names state).modules[module]? = some data) :
    ∃ now, data = newModule now := by
  induction names using List.reverseRecOn with
  | nil => simp [new] at present
  | append_singleton names name ih =>
      rw [new, List.foldl_append, List.foldl_cons, List.foldl_nil, ← new] at present
      simp only [Std.ExtTreeMap.getElem?_insertIfNew] at present
      split at present
      · exact ⟨_, (Option.some.inj present).symm⟩
      · exact ih present

/-- The constructor leaves every module as new, and nothing has happened. -/
theorem all_fresh {holds : ModuleInvariant ω} {names : List Str} {state : ω}
    (initial : ∀ now, holds (new clock names state).world.ticks (newModule now) []) :
    All holds (machine os clock names state).fresh := by
  intro module data present
  obtain ⟨now, rfl⟩ := new_modules names state module data present
  exact initial now

/-- The invariant rule for single modules, after the start. -/
theorem all_foldl (os : Os ω) (names : List Str) (state : ω) {holds : ModuleInvariant ω}
    (stable : Stable holds)
    (guard : Keeps holds .round (guardModule os clock))
    (beat : ∀ module, Keeps holds (.heartbeat module) fun _ => heartbeat clock)
    (interval : ∀ module value, Keeps holds (.setHeartbeatInterval module value)
      fun _ => setHeartbeatInterval value)
    {ops : List (Op ω)} (once : ∀ op ∈ ops, op ≠ .start)
    {run : WatchdogRun ω} (initial : All holds run) :
    All holds (ops.foldl (machine os clock names state).extend run) := by
  apply Machine.foldl_invariant _ _ initial
  intro run op member all
  cases op with
  | start => exact absurd rfl (once _ member)
  | round => exact all_changeAll stable guard _ all
  | heartbeat module => exact all_change stable (beat module) module all
  | setHeartbeatInterval module value =>
      exact all_change stable (interval module value) module all
  | system change =>
      intro module data present
      simpa [Machine.extend, machine] using all module data present

end Sentri.Core.Watchdog
