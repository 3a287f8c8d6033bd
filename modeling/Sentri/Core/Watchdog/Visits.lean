import Sentri.Core.Watchdog.Mortality

/-!
# Visits of the watchdog

An observer records every call of a function for a module: how the call finds
the module, and what it makes of it.  The history of a module is the list of
the visits to it, and an invariant may speak of this history.
-/

namespace Sentri.Core.Watchdog

open Sentri.Text Sentri.Transition

universe u

variable {ω : Type u} (os : Os ω) (clock : Clock)

/-! ## The observer -/

/-- A call of a function for a module. -/
structure Visit (ω : Type u) where
  module : Str
  world : World ω
  data : ModuleData
  effect : Effect ω

/-- The calls made by `changeAll`. -/
def visits (effect : Str → World ω → ModuleData → Effect ω) :
    Watchdog ω → List Str → List (Visit ω)
  | _, [] => []
  | watchdog, module :: left =>
      let here := match watchdog.modules[module]? with
        | none => []
        | some data => [⟨module, watchdog.world, data, effect module watchdog.world data⟩]
      here ++ visits effect (change effect watchdog module).1 left

/-- The watchdog again; its outputs are the visits. -/
def observer (names : List Str) (state : ω) : Machine (Watchdog ω) (Op ω) (Visit ω) where
  start := new clock names state
  step watchdog op :=
    (((machine os clock names state).step watchdog op).1,
      match op with
      | .start => visits (fun _ => spawnModule os clock) watchdog watchdog.modules.keys
      | .round => visits (guardModule os clock) watchdog watchdog.modules.keys
      | .heartbeat module => visits (fun _ => heartbeat clock) watchdog [module]
      | .setHeartbeatInterval module interval =>
          visits (fun _ => setHeartbeatInterval interval) watchdog [module]
      | .system _ => [])

/-- The run of an observed watchdog. -/
abbrev Observation (ω : Type u) := Run (Watchdog ω) (Op ω) (Visit ω)

/-- The visits to a module, each with the operation. -/
def visitsTo (module : Str) (trace : List (Op ω × Visit ω)) : List (Op ω × Visit ω) :=
  trace.filter fun item => item.2.module = module

/-- All that the visits made happen. -/
def happeningsOf (items : List (Op ω × Visit ω)) : List Happening :=
  items.flatMap fun item => item.2.effect.2.2

variable {os clock}

@[simp]
theorem visitsTo_append (module : Str) (first second : List (Op ω × Visit ω)) :
    visitsTo module (first ++ second) = visitsTo module first ++ visitsTo module second := by
  simp [visitsTo]

@[simp]
theorem happeningsOf_concat (items : List (Op ω × Visit ω)) (item : Op ω × Visit ω) :
    happeningsOf (items ++ [item]) = happeningsOf items ++ item.2.effect.2.2 := by
  simp [happeningsOf]

theorem mem_visitsTo {module : Str} {trace : List (Op ω × Visit ω)} {item : Op ω × Visit ω} :
    item ∈ visitsTo module trace ↔ item ∈ trace ∧ item.2.module = module := by
  simp [visitsTo]

theorem visitsTo_singleton (item : Op ω × Visit ω) : visitsTo item.2.module [item] = [item] := by
  simp [visitsTo]

theorem visitsTo_singleton_of_ne {module : Str} {item : Op ω × Visit ω}
    (different : item.2.module ≠ module) : visitsTo module [item] = [] := by
  simp [visitsTo, different]

/-- The observer sees the states of the watchdog. -/
theorem observer_state (names : List Str) (state : ω) (ops : List (Op ω)) :
    ((observer os clock names state).run ops).state =
      ((machine os clock names state).run ops).state := by
  induction ops using List.reverseRecOn with
  | nil => rfl
  | append_singleton ops op ih =>
      rw [Machine.run_concat, Machine.run_concat, Machine.extend_state, Machine.extend_state,
        ← ih]
      rfl

/-- What the watchdog reports is what the visits make happen. -/
theorem visits_reports (effect : Str → World ω → ModuleData → Effect ω)
    (watchdog : Watchdog ω) (left : List Str) :
    (changeAll effect watchdog left).2 =
      (visits effect watchdog left).flatMap fun visit =>
        visit.effect.2.2.map (Report.mk visit.module) := by
  induction left generalizing watchdog with
  | nil => rfl
  | cons module left ih =>
      cases found : watchdog.modules[module]? with
      | none => simp [changeAll, visits, change, found, ih]
      | some data => simp [changeAll, visits, change, found, ih]

theorem change_reports (effect : Str → World ω → ModuleData → Effect ω)
    (watchdog : Watchdog ω) (module : Str) :
    (change effect watchdog module).2 = (visits effect watchdog [module]).flatMap fun visit =>
      visit.effect.2.2.map (Report.mk visit.module) := by
  rw [← visits_reports]
  simp [changeAll]

/-- The trace of the watchdog is what the visits made happen. -/
theorem observer_trace (names : List Str) (state : ω) (ops : List (Op ω)) :
    ((machine os clock names state).run ops).trace =
      ((observer os clock names state).run ops).trace.flatMap fun item =>
        (item.2.effect.2.2.map (Report.mk item.2.module)).map fun report => (item.1, report) := by
  induction ops using List.reverseRecOn with
  | nil => rfl
  | append_singleton ops op ih =>
      rw [Machine.run_concat, Machine.run_concat, Machine.extend_trace, Machine.extend_trace,
        List.flatMap_append, ← ih, ← observer_state]
      congr 1
      cases op with
      | start => simp [machine, observer, visits_reports, List.flatMap_map, List.map_flatMap]
      | round => simp [machine, observer, visits_reports, List.flatMap_map, List.map_flatMap]
      | heartbeat module =>
          simp [machine, observer, change_reports, List.flatMap_map, List.map_flatMap]
      | setHeartbeatInterval module interval =>
          simp [machine, observer, change_reports, List.flatMap_map, List.map_flatMap]
      | system change => rfl

/-- What happened to a module, visit by visit. -/
theorem about_observed (module : Str) (trace : List (Op ω × Visit ω)) :
    about module (trace.flatMap fun item =>
        (item.2.effect.2.2.map (Report.mk item.2.module)).map fun report => (item.1, report)) =
      (visitsTo module trace).flatMap fun item =>
        item.2.effect.2.2.map fun happening => (item.1, happening) := by
  induction trace with
  | nil => rfl
  | cons item trace ih =>
      rw [List.flatMap_cons, about_append, ih]
      by_cases same : item.2.module = module
      · subst same
        rw [about_reports_same]
        simp [visitsTo]
      · rw [about_reports_other same]
        simp [visitsTo, same]

/-- What happened to a module, in the run of the watchdog and in the observation. -/
theorem about_run (names : List Str) (state : ω) (ops : List (Op ω)) (module : Str) :
    (about module ((machine os clock names state).run ops).trace).map Prod.snd =
      happeningsOf (visitsTo module ((observer os clock names state).run ops).trace) := by
  rw [observer_trace, about_observed]
  simp [happeningsOf, List.map_flatMap]

/-- New data does not change the order of the modules. -/
theorem keys_insert {modules : Std.ExtTreeMap Str ModuleData} {module : Str} {data : ModuleData}
    (found : modules[module]? = some data) (next : ModuleData) :
    (modules.insert module next).keys = modules.keys := by
  have member : module ∈ modules := by
    rw [Std.ExtTreeMap.mem_iff_isSome_getElem?, found]
    rfl
  have same : (modules.insert module next).keys.Perm modules.keys := by
    rw [List.perm_ext_iff_of_nodup Std.ExtTreeMap.nodup_keys Std.ExtTreeMap.nodup_keys]
    intro other
    simp only [Std.ExtTreeMap.mem_keys, Std.ExtTreeMap.mem_insert,
      Std.LawfulEqCmp.compare_eq_iff_eq, or_iff_right_iff_imp]
    rintro rfl
    exact member
  apply List.Perm.eq_of_pairwise _ Std.ExtTreeMap.ordered_keys Std.ExtTreeMap.ordered_keys same
  intro first second _ _ before after
  rw [Std.OrientedCmp.gt_of_lt before] at after
  cases after

/-! ## Invariants of observations -/

variable (os clock) in
/-- The function an operation calls for its modules. -/
def called (op : Op ω) : Option (Str → World ω → ModuleData → Effect ω) :=
  match op with
  | .start => some fun _ => spawnModule os clock
  | .round => some (guardModule os clock)
  | .heartbeat _ => some fun _ => heartbeat clock
  | .setHeartbeatInterval _ interval => some fun _ => setHeartbeatInterval interval
  | .system _ => none

/-- Only four steps call a function for modules. -/
theorem called_cases {motive : ∀ (op : Op ω) (effect : Str → World ω → ModuleData → Effect ω),
      called os clock op = some effect → Prop}
    (start : motive .start (fun _ => spawnModule os clock) rfl)
    (round : motive .round (guardModule os clock) rfl)
    (heartbeat : ∀ name, motive (.heartbeat name) (fun _ => heartbeat clock) rfl)
    (setHeartbeatInterval : ∀ name interval,
      motive (.setHeartbeatInterval name interval) (fun _ => setHeartbeatInterval interval) rfl)
    (op : Op ω) (effect : Str → World ω → ModuleData → Effect ω)
    (equal : called os clock op = some effect) : motive op effect equal := by
  cases op with
  | start =>
      cases equal
      exact start
  | round =>
      cases equal
      exact round
  | heartbeat name =>
      cases equal
      exact heartbeat name
  | setHeartbeatInterval name interval =>
      cases equal
      exact setHeartbeatInterval name interval
  | system change => cases equal

/-- After a call of the function for the module one property follows from the
other. -/
def Follows (before after : Observation ω → Prop) (op : Op ω)
    (effect : Str → World ω → ModuleData → Effect ω) (module : Str) : Prop :=
  ∀ watchdog trace data, watchdog.modules[module]? = some data → before ⟨watchdog, trace⟩ →
    after ⟨⟨watchdog.modules.insert module (effect module watchdog.world data).2.1,
        (effect module watchdog.world data).1⟩,
      trace ++ [(op, ⟨module, watchdog.world, data, effect module watchdog.world data⟩)]⟩

/-- The calls of the function keep a property of observations. -/
def Preserves (holds : Observation ω → Prop) (op : Op ω)
    (effect : Str → World ω → ModuleData → Effect ω) : Prop :=
  ∀ module, Follows holds holds op effect module

/-- The rule for calls to one module after the other, with the visits made so far.
The property may speak of the modules that are still left. -/
theorem changeAll_visits {holds : List Str → Watchdog ω → List (Visit ω) → Prop}
    {effect : Str → World ω → ModuleData → Effect ω}
    (absent : ∀ watchdog seen module left, watchdog.modules[module]? = none →
      holds (module :: left) watchdog seen → holds left watchdog seen)
    (present : ∀ watchdog seen module left data, watchdog.modules[module]? = some data →
      holds (module :: left) watchdog seen →
      holds left ⟨watchdog.modules.insert module (effect module watchdog.world data).2.1,
          (effect module watchdog.world data).1⟩
        (seen ++ [⟨module, watchdog.world, data, effect module watchdog.world data⟩]))
    (left : List Str) {watchdog : Watchdog ω} {seen : List (Visit ω)}
    (initial : holds left watchdog seen) :
    holds [] (changeAll effect watchdog left).1 (seen ++ visits effect watchdog left) := by
  induction left generalizing watchdog seen with
  | nil => simpa [changeAll, visits] using initial
  | cons module left ih =>
      cases found : watchdog.modules[module]? with
      | none =>
          have rest := ih (absent watchdog seen module left found initial)
          simpa [changeAll, visits, change, found] using rest
      | some data =>
          have rest := ih (present watchdog seen module left data found initial)
          simpa [changeAll, visits, change, found] using rest

theorem observed_changeAll_left {holds : List Str → Observation ω → Prop} {op : Op ω}
    {effect : Str → World ω → ModuleData → Effect ω}
    (absent : ∀ watchdog trace module left, watchdog.modules[module]? = none →
      holds (module :: left) ⟨watchdog, trace⟩ → holds left ⟨watchdog, trace⟩)
    (present : ∀ module left, Follows (holds (module :: left)) (holds left) op effect module)
    (left : List Str) {watchdog : Watchdog ω} {trace : List (Op ω × Visit ω)}
    (initial : holds left ⟨watchdog, trace⟩) :
    holds [] ⟨(changeAll effect watchdog left).1,
      trace ++ (visits effect watchdog left).map fun visit => (op, visit)⟩ := by
  let holdsSeen : List Str → Watchdog ω → List (Visit ω) → Prop := fun left watchdog seen =>
    holds left ⟨watchdog, trace ++ seen.map fun visit => (op, visit)⟩
  have initial : holdsSeen left watchdog [] := by simpa [holdsSeen] using initial
  have final := @changeAll_visits ω holdsSeen effect ?_ ?_ left watchdog [] initial
  · simpa [holdsSeen] using final
  · intro watchdog seen module left found held
    exact absent watchdog _ module left found held
  · intro watchdog seen module left data found held
    have next := present module left watchdog _ data found held
    simpa [holdsSeen] using next

theorem observed_changeAll {holds : Observation ω → Prop} {op : Op ω}
    {effect : Str → World ω → ModuleData → Effect ω} (preserves : Preserves holds op effect)
    (left : List Str) {watchdog : Watchdog ω} {trace : List (Op ω × Visit ω)}
    (initial : holds ⟨watchdog, trace⟩) :
    holds ⟨(changeAll effect watchdog left).1,
      trace ++ (visits effect watchdog left).map fun visit => (op, visit)⟩ := by
  let holdsLeft : List Str → Observation ω → Prop := fun _ => holds
  have initial : holdsLeft left ⟨watchdog, trace⟩ := initial
  apply observed_changeAll_left _ _ left initial
  · intro watchdog trace module left _ held
    exact held
  · intro module left
    exact preserves module

/-- The invariant rule for one more operation. -/
theorem observed_extend {holds : Observation ω → Prop} {names : List Str} {state : ω}
    {run : Observation ω} {op : Op ω}
    (preserves : ∀ effect, called os clock op = some effect → Preserves holds op effect)
    (system : ∀ change watchdog trace, op = .system change → holds ⟨watchdog, trace⟩ →
      holds ⟨⟨watchdog.modules, ⟨change watchdog.world.os, watchdog.world.ticks⟩⟩, trace⟩)
    (initial : holds run) : holds ((observer os clock names state).extend run op) := by
  cases op with
  | start => exact observed_changeAll (preserves _ rfl) _ initial
  | round => exact observed_changeAll (preserves _ rfl) _ initial
  | heartbeat module =>
      have kept := observed_changeAll (preserves _ rfl) [module] initial
      simpa [Machine.extend, observer, machine, changeAll] using kept
  | setHeartbeatInterval module value =>
      have kept := observed_changeAll (preserves _ rfl) [module] initial
      simpa [Machine.extend, observer, machine, changeAll] using kept
  | system change =>
      have kept := system change run.state run.trace rfl initial
      simpa [Machine.extend, observer, machine] using kept

/-! ## The body of the guard loop -/

variable (os clock) in
/-- What the guard loop does with a module: nothing with one that is buried or not
running; it resurrects one whose process is gone; and it checks the heartbeat
and then the stability of the others. -/
theorem guardModule_cases (module : Str) (world : World ω) (data : ModuleData) :
    let polled := os.waitpid world.os data.pid
    let reaped : World ω := { world with os := polled.1 }
    ((data.buried = true ∨ data.running = false) ∧
      guardModule os clock module world data = (world, data, [])) ∨
    (data.buried = false ∧ data.running = true ∧ polled.2 ≠ 0 ∧
      guardModule os clock module world data = resurrectModule os clock module reaped data) ∨
    (data.buried = false ∧ data.running = true ∧ polled.2 = 0 ∧
      guardModule os clock module world data =
        let (world, data, first) := checkHeartbeat os clock module reaped data
        let (world, data, second) := checkStability clock world data
        (world, data, first ++ second)) := by
  intro polled reaped
  unfold guardModule
  cases buried : data.buried with
  | true => simp
  | false =>
      cases running : data.running with
      | false => simp
      | true =>
          by_cases alive : (os.waitpid world.os data.pid).2 = 0
          · simp [polled, reaped, alive]
          · simp [polled, reaped, alive]

section Ticks

variable (os clock)

theorem resurrectModule_ticks (module : Str) (world : World ω) (data : ModuleData) :
    world.ticks ≤ (resurrectModule os clock module world data).1.ticks := by
  have revived := resurrectModule_revived os clock module world data
  generalize (resurrectModule os clock module world data).1.ticks = ticks at revived ⊢
  generalize (resurrectModule os clock module world data).2.1 = next at revived
  generalize (resurrectModule os clock module world data).2.2 = happenings at revived
  cases revived with
  | restarted pid missed below => exact Nat.le_add_right _ _
  | failed running below => exact le_rfl
  | buried running => exact le_rfl

theorem checkHeartbeat_ticks (module : Str) (world : World ω) (data : ModuleData) :
    world.ticks ≤ (checkHeartbeat os clock module world data).1.ticks := by
  simp only [checkHeartbeat]
  split
  · split
    · exact (Nat.le_succ _).trans
        (resurrectModule_ticks os clock module { world with ticks := world.ticks + 1 } _)
    · exact Nat.le_succ _
  · exact Nat.le_succ _

theorem checkStability_ticks (world : World ω) (data : ModuleData) :
    world.ticks ≤ (checkStability clock world data).1.ticks := by
  simp only [checkStability]
  split
  · exact Nat.le_add_right _ _
  · exact Nat.le_succ _

theorem guardModule_ticks (module : Str) (world : World ω) (data : ModuleData) :
    world.ticks ≤ (guardModule os clock module world data).1.ticks := by
  let reaped : World ω := { world with os := (os.waitpid world.os data.pid).1 }
  rcases guardModule_cases os clock module world data with
    ⟨_, equal⟩ | ⟨_, _, _, equal⟩ | ⟨_, _, _, equal⟩
  · rw [equal]
  · rw [equal]
    exact resurrectModule_ticks os clock module reaped data
  · rw [equal]
    exact (checkHeartbeat_ticks os clock module reaped data).trans
      (checkStability_ticks clock _ _)

theorem spawnModule_ticks (world : World ω) (data : ModuleData) :
    world.ticks ≤ (spawnModule os clock world data).1.ticks := by
  rcases spawnModule_cases os clock world data with ⟨state, equal⟩ | ⟨_, state, pid, equal⟩
  · rw [equal]
  · rw [equal]
    exact Nat.le_add_right _ _

end Ticks

/-- The clock is only read on. -/
theorem called_ticks {op : Op ω} {effect : Str → World ω → ModuleData → Effect ω}
    (equal : called os clock op = some effect) (module : Str) (world : World ω)
    (data : ModuleData) : world.ticks ≤ (effect module world data).1.ticks := by
  cases op, effect, equal using called_cases with
  | start =>
      exact spawnModule_ticks os clock world data
  | round =>
      exact guardModule_ticks os clock module world data
  | heartbeat name =>
      exact Nat.le_succ _
  | setHeartbeatInterval name interval =>
      exact le_rfl

/-! ## Invariants of single modules -/

/-- An invariant of a single module and of the visits to it. -/
abbrev VisitInvariant (ω : Type u) :=
  Str → Nat → ModuleData → List (Op ω × Visit ω) → Prop

/-- Every module of the observation meets the invariant. -/
def Everywhere (holds : VisitInvariant ω) (run : Observation ω) : Prop :=
  ∀ module data, run.state.modules[module]? = some data →
    holds module run.state.world.ticks data (visitsTo module run.trace)

/-- An invariant that survives clock readings taken for other modules. -/
def Lasting (holds : VisitInvariant ω) : Prop :=
  ∀ module ticks later data items, ticks ≤ later →
    holds module ticks data items → holds module later data items

/-- A visit in an operation keeps the invariant of its module. -/
def Survives (holds : VisitInvariant ω) (op : Op ω)
    (effect : Str → World ω → ModuleData → Effect ω) : Prop :=
  ∀ module world data items, holds module world.ticks data items →
    holds module (effect module world data).1.ticks (effect module world data).2.1
      (items ++ [(op, ⟨module, world, data, effect module world data⟩)])

theorem Survives.preserves {holds : VisitInvariant ω} (lasting : Lasting holds) {op : Op ω}
    {effect : Str → World ω → ModuleData → Effect ω} (equal : called os clock op = some effect)
    (survives : Survives holds op effect) :
    Preserves (Everywhere holds) op effect := by
  intro module watchdog trace data found all other otherData present
  have kept := survives module watchdog.world data _ (all module data found)
  have ticksLe := called_ticks equal module watchdog.world data
  rw [Std.ExtTreeMap.getElem?_insert] at present
  change holds other (effect module watchdog.world data).1.ticks otherData _
  rw [visitsTo_append]
  by_cases same : module = other
  · subst same
    obtain rfl : (effect module watchdog.world data).2.1 = otherData := by
      simpa using present
    simpa [visitsTo] using kept
  · rw [visitsTo_singleton_of_ne (by exact same), List.append_nil]
    apply lasting _ _ _ _ _ ticksLe
    exact all other otherData (by simpa [same] using present)

theorem new_concat (names : List Str) (name : Str) (state : ω) :
    new clock (names ++ [name]) state =
      { modules := (new clock names state).modules.insertIfNew name
          (newModule (clock.reading (new clock names state).world.ticks))
        world := { (new clock names state).world with
          ticks := (new clock names state).world.ticks + 1 } } := by
  simp [new]

theorem new_os (names : List Str) (state : ω) : (new clock names state).world.os = state := by
  induction names using List.reverseRecOn with
  | nil => rfl
  | append_singleton names name ih => rw [new_concat, ih]

theorem mem_new (names : List Str) (state : ω) (module : Str) :
    module ∈ (new clock names state).modules ↔ module ∈ names := by
  induction names using List.reverseRecOn with
  | nil => simp [new]
  | append_singleton names name ih =>
      rw [new_concat, List.mem_append, List.mem_singleton, ← ih]
      simp only [Std.ExtTreeMap.mem_insertIfNew, Std.LawfulEqCmp.compare_eq_iff_eq]
      rw [or_comm, eq_comm]

/-- The constructor leaves every module as new and unvisited. -/
theorem everywhere_fresh {holds : VisitInvariant ω} (names : List Str) (state : ω)
    (initial : ∀ module ticks now, holds module ticks (newModule now) []) :
    Everywhere holds (observer os clock names state).fresh := by
  intro module data present
  rcases new_modules names state module data present with ⟨now, rfl⟩
  exact initial module _ now

/-- The invariant rule for single modules and the operations after a given run. -/
theorem everywhere_foldl {holds : VisitInvariant ω} (names : List Str) (state : ω)
    (lasting : Lasting holds) {ops : List (Op ω)}
    (survives : ∀ op ∈ ops, ∀ effect, called os clock op = some effect →
      Survives holds op effect)
    {run : Observation ω} (initial : Everywhere holds run) :
    Everywhere holds (ops.foldl (observer os clock names state).extend run) := by
  apply Machine.foldl_invariant _ _ initial
  intro run op member all
  apply observed_extend _ _ all
  · intro effect equal
    exact (survives op member effect equal).preserves lasting equal
  · intro change watchdog trace _ all
    exact all

/-- The modules are those of the module directory. -/
theorem mem_modules_run (names : List Str) (state : ω) (ops : List (Op ω)) (module : Str) :
    module ∈ ((observer os clock names state).run ops).state.modules ↔ module ∈ names := by
  let holds : Observation ω → Prop := fun run => module ∈ run.state.modules ↔ module ∈ names
  have fresh : holds (observer os clock names state).fresh := mem_new names state module
  refine Machine.run_invariant (observer os clock names state) fresh ?_ ops
  intro run op held
  apply observed_extend _ _ held
  · intro effect _ name watchdog trace data found held
    have known : name ∈ watchdog.modules := by
      rw [Std.ExtTreeMap.mem_iff_isSome_getElem?, found]
      rfl
    have held : module ∈ watchdog.modules ↔ module ∈ names := held
    change module ∈ watchdog.modules.insert name _ ↔ module ∈ names
    rw [Std.ExtTreeMap.mem_insert, Std.LawfulEqCmp.compare_eq_iff_eq, ← held]
    constructor
    · rintro (rfl | member)
      · exact known
      · exact member
    · exact Or.inr
  · intro change watchdog trace _ held
    exact held

variable (os clock) in
/-- Only known modules are visited. -/
theorem visited_known (names : List Str) (state : ω) (ops : List (Op ω)) :
    ∀ item ∈ ((observer os clock names state).run ops).trace, ∃ data,
      ((observer os clock names state).run ops).state.modules[item.2.module]? = some data := by
  let holds : Observation ω → Prop := fun run =>
    ∀ item ∈ run.trace, ∃ data, run.state.modules[item.2.module]? = some data
  have fresh : holds (observer os clock names state).fresh := by
    intro item member
    cases member
  refine Machine.run_invariant (observer os clock names state) fresh ?_ ops
  intro run op held
  apply observed_extend _ _ held
  · intro effect _ name watchdog trace data found held item member
    rw [Std.ExtTreeMap.getElem?_insert]
    split
    · exact ⟨_, rfl⟩
    · rename_i different
      rcases List.mem_append.mp member with old | new
      · exact held item old
      · rw [List.mem_singleton.mp new] at different
        simp at different
  · intro change watchdog trace _ held
    exact held

/-- The invariant rule for single modules and whole runs. -/
theorem everywhere_run {holds : VisitInvariant ω} (names : List Str) (state : ω)
    (lasting : Lasting holds)
    (initial : ∀ module ticks now, holds module ticks (newModule now) [])
    (survives : ∀ op effect, called os clock op = some effect → Survives holds op effect)
    (ops : List (Op ω)) : Everywhere holds ((observer os clock names state).run ops) :=
  everywhere_foldl names state lasting (fun op _ => survives op)
    (everywhere_fresh names state initial)

end Sentri.Core.Watchdog
