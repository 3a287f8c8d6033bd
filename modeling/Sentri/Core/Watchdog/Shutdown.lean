import Mathlib.Algebra.Order.BigOperators.Group.List
import Sentri.Core.Watchdog.Killing

/-!
# Shutdown

Once the shutdown has finished no module is left, in every interleaving of the two
threads in which the guard thread does not start a module again while the shutdown
is killing it.
-/

namespace Sentri.Core.Watchdog

open Sentri.Text Sentri.Transition Kernel

universe u

/-! ## The order of the modules -/

theorem keys_modify (modules : Std.ExtTreeMap Str ModuleData) (module : Str)
    (f : ModuleData → ModuleData) : (modules.modify module f).keys = modules.keys := by
  cases found : modules[module]? with
  | none =>
      have same : modules.modify module f = modules := by
        apply Std.ExtTreeMap.ext_getElem?
        intro other
        simp only [Std.ExtTreeMap.getElem?_modify, Std.LawfulEqCmp.compare_eq_iff_eq]
        split
        · rename_i here
          rw [← here, found]
          rfl
        · rfl
      rw [same]
  | some data => rw [modify_eq_insert found, keys_insert found]

theorem not_mem_of_suffix {left right : List Str} {first second : Str}
    (nodup : (second :: right).Nodup) (inner : first :: left <:+ second :: right) :
    second ∉ left := by
  rcases List.nodup_cons.mp nodup with ⟨fresh, _⟩
  rcases List.suffix_cons_iff.mp inner with same | inside
  · cases same
    exact fresh
  · intro member
    exact fresh (inside.mem (List.mem_cons_of_mem _ member))

/-- Of two modules one comes first. -/
theorem not_before_and_after {names left right : List Str} {first second : Str}
    (nodup : names.Nodup) (one : first :: left <:+ names) (other : second :: right <:+ names)
    (after : second ∈ left) : first ∉ right := by
  rcases List.suffix_or_suffix_of_suffix one other with inner | inner
  · exact absurd after (not_mem_of_suffix (nodup.sublist other.sublist) inner)
  · exact not_mem_of_suffix (nodup.sublist one.sublist) inner

/-! ## The invariant -/

/-- The modules that the guard thread may still visit, before it sleeps. -/
def Threads.visits (threads : Threads) : List Str :=
  match threads.guard with
  | .awake => threads.watchdog.modules.keys
  | .guarding left => left
  | _ => []

/-- A module that the shutdown has done with. -/
structure Passed (kernel : Kernel) (visits : List Str) (module : Str) (data : ModuleData) :
    Prop where
  dead : Dead kernel module
  stays : module ∈ visits → data.running = false ∨ data.buried = true

structure Safe (threads : Threads) : Prop where
  grouped : threads.watchdog.world.os.Grouped
  tracked : ∀ module data, threads.watchdog.modules[module]? = some data →
    Tracked module data threads.watchdog.world.os
  owned : ∀ module, threads.watchdog.modules[module]? = none →
    Dead threads.watchdog.world.os module
  round : threads.visits <:+ threads.watchdog.modules.keys
  order : ∀ left, threads.main.remaining? = some left →
    left <:+ threads.watchdog.modules.keys
  stopped : ∀ left, threads.main.remaining? = some left →
    threads.guard = .absent ∨ threads.interrupted = true
  passed : ∀ left, threads.main.remaining? = some left → ∀ module data,
    threads.watchdog.modules[module]? = some data → module ∉ left →
      Passed threads.watchdog.world.os threads.visits module data
  inKill : InKill threads.watchdog.world.os threads.visits threads.main

/-! ## Steps -/

/-- The guard loop starts the module again. -/
def Respawns {ω : Type u} (os : Os ω) (clock : Clock) (world : World ω) (data : ModuleData) :
    Prop :=
  HandsOver os clock world data ∧ data.mortalityRate < criticalMortalityRate

/-- The guard thread does not start a module again while the shutdown is in
`killModule` for it. -/
def Undisturbed (env : Environment) (clock : Clock) (item : Action × Moment) : Prop :=
  item.1 = .guard → ∀ module left data,
    item.2.threads.guard = .guarding (module :: left) →
    item.2.threads.main.victim? = some module →
    item.2.threads.watchdog.modules[module]? = some data →
      ¬ Respawns (Kernel.os env module) clock item.2.threads.watchdog.world data

theorem remaining_of_victim {main : MainThread} {victim : Str}
    (killing : main.victim? = some victim) : ∃ left, main.remaining? = some (victim :: left) := by
  cases main with
  | signalling module target left =>
      obtain rfl := Option.some.inj killing
      exact ⟨left, rfl⟩
  | polling module target polls left =>
      obtain rfl := Option.some.inj killing
      exact ⟨left, rfl⟩
  | confirming module target left =>
      obtain rfl := Option.some.inj killing
      exact ⟨left, rfl⟩
  | _ => cases killing

theorem InKill.of_remaining {kernel : Kernel} {visits : List Str} {main : MainThread}
    (idle : main.remaining? = none) : InKill kernel visits main := by
  cases main with
  | signalling module target left => cases idle
  | polling module target polls left => cases idle
  | confirming module target left => cases idle
  | _ => trivial

theorem Passed.onward {kernel next : Kernel} {visits left : List Str} {module : Str}
    {data : ModuleData} (passed : Passed kernel visits module data)
    (fades : Fades module kernel.processes next.processes) (subset : left ⊆ visits) :
    Passed next left module data where
  dead := passed.dead.fades fades
  stays member := passed.stays (subset member)

namespace Safe

variable {threads next : Threads}

/-- A step that changes no data and forks no process. -/
theorem proceed (safe : Safe threads)
    (modules : next.watchdog.modules = threads.watchdog.modules)
    (onward : Onward (fun _ => True) threads.watchdog.world.os next.watchdog.world.os)
    (remaining : next.main.remaining? = threads.main.remaining?)
    (round : next.visits <:+ threads.watchdog.modules.keys)
    (subset : ∀ left, threads.main.remaining? = some left → next.visits ⊆ threads.visits)
    (stopped : ∀ left, threads.main.remaining? = some left →
      next.guard = .absent ∨ next.interrupted = true)
    (inKill : InKill next.watchdog.world.os next.visits next.main) : Safe next where
  grouped := onward.grouped safe.grouped
  tracked module data found := by
    rw [modules] at found
    exact (safe.tracked module data found).onward (onward.mono fun _ _ => trivial) rfl rfl
  owned module absent := by
    rw [modules] at absent
    exact (safe.owned module absent).fades (onward.fades module trivial)
  round := by
    rw [modules]
    exact round
  order left equal := by
    rw [modules]
    rw [remaining] at equal
    exact safe.order left equal
  stopped left equal := by
    rw [remaining] at equal
    exact stopped left equal
  passed left equal module data found fresh := by
    rw [modules] at found
    rw [remaining] at equal
    exact (safe.passed left equal module data found fresh).onward (onward.fades module trivial)
      (subset left equal)
  inKill := inKill

/-- A step that changes the data of one module.  The shutdown may do with this module,
but with no other. -/
theorem alter (safe : Safe threads) {module : Str}
    (keys : next.watchdog.modules.keys = threads.watchdog.modules.keys)
    (others : ∀ other, other ≠ module →
      next.watchdog.modules[other]? = threads.watchdog.modules[other]?)
    (onward : Onward (· ≠ module) threads.watchdog.world.os next.watchdog.world.os)
    (owned : next.watchdog.modules[module]? = none → Dead next.watchdog.world.os module)
    (tracked : ∀ data, next.watchdog.modules[module]? = some data →
      Tracked module data next.watchdog.world.os)
    (round : next.visits <:+ threads.watchdog.modules.keys)
    (remaining : ∀ left, next.main.remaining? = some left → ∃ before,
      threads.main.remaining? = some before ∧ left <:+ before ∧
        (∀ other ∈ before, other ≠ module → other ∈ left) ∧ next.visits ⊆ threads.visits ∧
        (next.guard = .absent ∨ next.interrupted = true))
    (passed : ∀ left, next.main.remaining? = some left → module ∉ left → ∀ data,
      next.watchdog.modules[module]? = some data →
        Passed next.watchdog.world.os next.visits module data)
    (inKill : InKill next.watchdog.world.os next.visits next.main) : Safe next := by
  refine ⟨onward.grouped safe.grouped, ?_, ?_, ?_, ?_, ?_, ?_, inKill⟩
  · intro other data found
    by_cases same : other = module
    · subst same
      exact tracked data found
    · rw [others other same] at found
      apply (safe.tracked other data found).onward _ rfl rfl
      apply onward.mono
      rintro owner rfl
      exact same
  · intro other absent
    by_cases same : other = module
    · subst same
      exact owned absent
    · rw [others other same] at absent
      exact (safe.owned other absent).fades (onward.fades other same)
  · rw [keys]
    exact round
  · intro left equal
    rcases remaining left equal with ⟨before, old, suffix, _⟩
    rw [keys]
    exact suffix.trans (safe.order before old)
  · intro left equal
    rcases remaining left equal with ⟨_, _, _, _, _, stopped⟩
    exact stopped
  · intro left equal other data found fresh
    by_cases same : other = module
    · subst same
      exact passed left equal fresh data found
    · rcases remaining left equal with ⟨before, old, _, kept, subset, _⟩
      rw [others other same] at found
      have waiting : other ∉ before := fun member => fresh (kept other member same)
      exact (safe.passed before old other data found waiting).onward (onward.fades other same)
        subset

/-- A visit to a module that the shutdown has not done with. -/
theorem visit (safe : Safe threads) {module : Str} {data : ModuleData} {effect : Effect Kernel}
    (found : threads.watchdog.modules[module]? = some data)
    (onward : Onward (· ≠ module) threads.watchdog.world.os effect.1.os)
    (tracked : Tracked module effect.2.1 effect.1.os)
    (watchdog : next.watchdog = ⟨threads.watchdog.modules.insert module effect.2.1, effect.1⟩)
    (remaining : next.main.remaining? = threads.main.remaining?)
    (round : next.visits <:+ threads.watchdog.modules.keys)
    (subset : ∀ left, threads.main.remaining? = some left → next.visits ⊆ threads.visits)
    (stopped : ∀ left, threads.main.remaining? = some left →
      next.guard = .absent ∨ next.interrupted = true)
    (waiting : ∀ left, threads.main.remaining? = some left → module ∈ left)
    (inKill : InKill next.watchdog.world.os next.visits next.main) : Safe next := by
  have osEq : next.watchdog.world.os = effect.1.os := by rw [watchdog]
  have here : next.watchdog.modules[module]? = some effect.2.1 := by simp [watchdog]
  rw [← osEq] at onward tracked
  apply @alter threads next safe module _ _ onward _ _ round _ _ inKill
  · rw [watchdog]
    exact keys_insert found _
  · intro other different
    simp [watchdog, Std.ExtTreeMap.getElem?_insert, different.symm]
  · intro absent
    rw [here] at absent
    cases absent
  · intro next equal
    rw [here] at equal
    cases equal
    exact tracked
  · intro left equal
    rw [remaining] at equal
    exact ⟨left, equal, List.suffix_rfl, fun _ member _ => member, subset left equal,
      stopped left equal⟩
  · intro left equal fresh
    rw [remaining] at equal
    exact absurd (waiting left equal) fresh

/-- The shutdown has done with one more module. -/
theorem finish (safe : Safe threads) {module : Str} {left : List Str}
    (remaining : threads.main.remaining? = some (module :: left))
    (guard : next.guard = threads.guard) (interrupted : next.interrupted = threads.interrupted)
    (main : next.main = .killing left)
    (keys : next.watchdog.modules.keys = threads.watchdog.modules.keys)
    (others : ∀ other, other ≠ module →
      next.watchdog.modules[other]? = threads.watchdog.modules[other]?)
    (onward : Onward (fun _ => True) threads.watchdog.world.os next.watchdog.world.os)
    (absent : next.watchdog.modules[module]? = none → threads.watchdog.modules[module]? = none)
    (here : ∀ data, next.watchdog.modules[module]? = some data →
      Tracked module data next.watchdog.world.os ∧
        Passed next.watchdog.world.os threads.visits module data) : Safe next := by
  have visits : next.visits = threads.visits := by
    simp only [Threads.visits, guard, keys]
  apply @alter threads next safe module keys others (onward.mono fun _ _ => trivial)
  · intro gone
    exact (safe.owned module (absent gone)).fades (onward.fades module trivial)
  · exact fun data found => (here data found).1
  · rw [visits]
    exact safe.round
  · intro rest equal
    rw [main] at equal
    cases equal
    refine ⟨module :: left, remaining, List.suffix_cons module left, ?_, ?_, ?_⟩
    · intro other member different
      exact List.mem_of_ne_of_mem different member
    · rw [visits]
      exact List.Subset.refl _
    · rw [guard, interrupted]
      exact safe.stopped _ remaining
  · intro rest _ _ data found
    rw [visits]
    exact (here data found).2
  · rw [main]
    trivial

variable (env : Environment) (clock : Clock)

/-- Another place of the guard thread. -/
theorem regard (safe : Safe threads) (guard : GuardThread)
    (round : { threads with guard := guard }.visits <:+ threads.watchdog.modules.keys)
    (subset : ∀ left, threads.main.remaining? = some left →
      { threads with guard := guard }.visits ⊆ threads.visits ∧
        (guard = .absent ∨ threads.interrupted = true)) :
    Safe { threads with guard := guard } := by
  refine safe.proceed rfl (Onward.refl _) rfl round (fun left equal => (subset left equal).1)
    (fun left equal => (subset left equal).2) ?_
  cases remaining : threads.main.remaining? with
  | none => exact InKill.of_remaining remaining
  | some left => exact safe.inKill.mono (subset left remaining).1

theorem interrupted_of_guard (safe : Safe threads) {left : List Str}
    (remaining : threads.main.remaining? = some left) (present : threads.guard ≠ .absent) :
    threads.interrupted = true := by
  rcases safe.stopped left remaining with absent | set
  · exact absurd absent present
  · exact set

theorem guardModule_idle {ω : Type u} (os : Os ω) (module : Str) (world : World ω)
    {data : ModuleData} (idle : data.running = false ∨ data.buried = true) :
    guardModule os clock module world data = (world, data, []) := by
  rcases guardModule_cases os clock module world data with
    ⟨_, equal⟩ | ⟨free, running, _⟩ | ⟨free, running, _⟩
  · exact equal
  · rcases idle with stopped | buried
    · rw [running] at stopped
      cases stopped
    · rw [free] at buried
      cases buried
  · rcases idle with stopped | buried
    · rw [running] at stopped
      cases stopped
    · rw [free] at buried
      cases buried

/-- A visit starts no module again but the one that is visited, and this one only if
it respawns. -/
theorem guardModule_onward (module : Str) (world : World Kernel) (data : ModuleData) :
    let os := Kernel.os env module
    Onward (fun other => other ≠ module ∨ ¬ Respawns os clock world data) world.os
      (guardModule os clock module world data).1.os := by
  intro os
  apply guardModule_keeps clock module world data (os_keeps env _ module data.pid)
  intro handed below kernel
  apply fork_onward
  rintro (different | quiet)
  · exact different rfl
  · exact quiet ⟨handed, below⟩

/-- A visit of the guard thread. -/
theorem guardVisit (safe : Safe threads) {module : Str} {left : List Str}
    (guarding : threads.guard = .guarding (module :: left)) {reports : List Report}
    (undisturbed : Undisturbed env clock (.guard, ⟨threads, reports⟩)) :
    Safe { threads with
      watchdog := (change (fun module => guardModule (Kernel.os env module) clock module)
        threads.watchdog module).1
      guard := .guarding left } := by
  have visits : threads.visits = module :: left := by simp only [Threads.visits, guarding]
  have all : module :: left <:+ threads.watchdog.modules.keys := visits ▸ safe.round
  have round : left <:+ threads.watchdog.modules.keys := (List.suffix_cons module left).trans all
  have subset : left ⊆ threads.visits := by
    rw [visits]
    exact List.subset_cons_self _ _
  have stopped : ∀ remaining, threads.main.remaining? = some remaining →
      GuardThread.guarding left = .absent ∨ threads.interrupted = true := by
    intro remaining equal
    exact Or.inr (safe.interrupted_of_guard equal (by simp [guarding]))
  have quiet : Safe { threads with guard := .guarding left } :=
    safe.regard _ round fun remaining equal => ⟨subset, stopped remaining equal⟩
  cases found : threads.watchdog.modules[module]? with
  | none =>
      simp only [change, found]
      exact quiet
  | some data =>
      let os := Kernel.os env module
      let effect := guardModule os clock module threads.watchdog.world data
      simp only [change, found]
      by_cases idle : data.running = false ∨ data.buried = true
      · rw [guardModule_idle clock os module _ idle]
        dsimp only
        rw [insert_eq_self found]
        exact quiet
      · have waiting : ∀ remaining, threads.main.remaining? = some remaining →
            module ∈ remaining := by
          intro remaining equal
          by_contra fresh
          apply idle
          exact (safe.passed remaining equal module data found fresh).stays (by simp [visits])
        have onward := guardModule_onward env clock module threads.watchdog.world data
        refine safe.visit found (onward.mono fun _ different => Or.inl different)
          (guardModule_tracked env clock safe.grouped (safe.tracked module data found)) rfl rfl
          round (fun _ _ => subset) stopped waiting ?_
        apply safe.inKill.fades onward.coreGroup
        intro victim killing
        rcases remaining_of_victim killing with ⟨rest, remaining⟩
        have nodup : threads.watchdog.modules.keys.Nodup := Std.ExtTreeMap.nodup_keys
        by_cases same : victim = module
        · subst same
          have calm := undisturbed rfl victim left data guarding killing found
          exact ⟨onward.fades victim (Or.inr calm),
            (List.nodup_cons.mp (nodup.sublist all.sublist)).1⟩
        · have later : module ∈ rest := by
            rcases List.mem_cons.mp (waiting _ remaining) with here | later
            · exact absurd here.symm same
            · exact later
          exact ⟨onward.fades victim (Or.inl same),
            not_before_and_after nodup (safe.order _ remaining) all later⟩

/-- A step of the guard thread, unless it starts the victim of the shutdown again. -/
theorem guardStep (safe : Safe threads) {reports : List Report}
    (undisturbed : Undisturbed env clock (.guard, ⟨threads, reports⟩)) :
    Safe (threads.guardStep env clock).1 := by
  unfold Threads.guardStep
  split
  · exact safe
  · rename_i asleep
    by_cases interrupted : threads.interrupted = true
    · rw [if_pos interrupted]
      exact safe.regard _ List.nil_suffix fun left _ => ⟨List.nil_subset _, Or.inl rfl⟩
    · rw [if_neg interrupted]
      refine safe.regard _ List.suffix_rfl fun left remaining => ?_
      exact absurd (safe.interrupted_of_guard remaining (by simp [asleep])) interrupted
  · rename_i awake
    have same : threads.visits = threads.watchdog.modules.keys := by
      simp only [Threads.visits, awake]
    refine safe.regard _ List.suffix_rfl fun left remaining => ⟨?_, Or.inr ?_⟩
    · rw [same]
      exact List.Subset.refl _
    · exact safe.interrupted_of_guard remaining (by simp [awake])
  · rename_i guarding
    refine safe.regard _ List.nil_suffix fun left remaining => ⟨List.nil_subset _, Or.inr ?_⟩
    exact safe.interrupted_of_guard remaining (by simp [guarding])
  · rename_i module left guarding
    exact safe.guardVisit env clock guarding undisturbed

/-- A call of the main thread for a module, before the shutdown. -/
theorem changeBefore (safe : Safe threads) (unstopped : threads.main.remaining? = none)
    {main : MainThread} (still : main.remaining? = none)
    (effect : Str → World Kernel → ModuleData → Effect Kernel) (module : Str)
    (onward : ∀ data, Onward (· ≠ module) threads.watchdog.world.os
      (effect module threads.watchdog.world data).1.os)
    (tracked : ∀ data, Tracked module data threads.watchdog.world.os →
      Tracked module (effect module threads.watchdog.world data).2.1
        (effect module threads.watchdog.world data).1.os) :
    Safe { threads with
      watchdog := (change effect threads.watchdog module).1
      main := main } := by
  have never : ∀ {P : Prop} left, threads.main.remaining? = some left → P := by
    intro P left remaining
    rw [unstopped] at remaining
    cases remaining
  cases found : threads.watchdog.modules[module]? with
  | none =>
      simp only [change, found]
      exact safe.proceed rfl (Onward.refl _) (still.trans unstopped.symm) safe.round
        (fun left remaining => never left remaining) (fun left remaining => never left remaining)
        (InKill.of_remaining still)
  | some data =>
      simp only [change, found]
      refine safe.visit found (onward data) (tracked data (safe.tracked module data found)) rfl
        (still.trans unstopped.symm) ?_ (fun left remaining => never left remaining)
        (fun left remaining => never left remaining) (fun left remaining => never left remaining)
        (InKill.of_remaining still)
      have same : Threads.visits
          { threads with
            watchdog := ⟨threads.watchdog.modules.insert module
              (effect module threads.watchdog.world data).2.1,
              (effect module threads.watchdog.world data).1⟩
            main := main } = threads.visits := by
        simp only [Threads.visits, keys_insert found]
      exact same ▸ safe.round

/-- The last call of `waitpid` for a module. -/
theorem mainStep_confirming (safe : Safe threads) {module : Str} {target : Int} {left : List Str}
    (confirming : threads.main = .confirming module target left) :
    Safe (threads.mainStep env clock).1 := by
  unfold Threads.mainStep
  simp only [confirming]
  have remaining : threads.main.remaining? = some (module :: left) := by rw [confirming]; rfl
  have inKill := safe.inKill
  rw [confirming] at inKill
  have onward : Onward (fun _ => True) threads.watchdog.world.os
      (threads.watchdog.world.os.waitpid env target).1 :=
    (os_keeps env _ module target).waitpid _ target (Or.inl rfl)
  rcases inKill.confirm env safe.grouped with ⟨childless, poll⟩
  have dead : Dead (threads.watchdog.world.os.waitpid env target).1 module := by
    intro pid living
    rcases ProcessTable.childAt_of_livingAt living with ⟨group, child⟩
    exact childless pid group child
  have known : ∀ data, Known module data (threads.watchdog.world.os.waitpid env target).1 :=
    fun data pid group child => absurd child (childless pid group)
  split
  · let stopped : ModuleData → ModuleData := fun data => { data with running := false }
    have lookup : ∀ other, (threads.watchdog.modules.modify module stopped)[other]? =
        if module = other then threads.watchdog.modules[module]?.map stopped
        else threads.watchdog.modules[other]? := by
      intro other
      simp [Std.ExtTreeMap.getElem?_modify]
    refine safe.finish remaining rfl rfl rfl (keys_modify _ module stopped) ?_ onward ?_ ?_
    · intro other different
      exact (lookup other).trans (if_neg different.symm)
    · intro absent
      have gone := (lookup module).symm.trans absent
      rw [if_pos rfl] at gone
      exact Option.map_eq_none_iff.mp gone
    · intro data found
      have there := (lookup module).symm.trans found
      rw [if_pos rfl] at there
      rcases Option.map_eq_some_iff.mp there with ⟨old, present, rfl⟩
      have tracked := (safe.tracked module old present).onward (onward.mono fun _ _ => trivial)
        rfl rfl
      exact ⟨⟨known _, tracked.given⟩, dead, fun _ => Or.inl rfl⟩
  · rename_i there
    refine safe.finish remaining rfl rfl rfl rfl (fun _ _ => rfl) onward id ?_
    intro data found
    have old := (safe.tracked module data found).onward (onward.mono fun _ _ => trivial) rfl rfl
    exact ⟨old, dead, fun member => absurd (poll member) there⟩

/-- A step of the main thread. -/
theorem mainStep (safe : Safe threads) (obeys : ∀ time pid, env.obeys time pid = true) :
    Safe (threads.mainStep env clock).1 := by
  have subset := List.Subset.refl threads.visits
  unfold Threads.mainStep
  dsimp only
  split
  · exact safe
  · rename_i starting
    refine safe.proceed rfl (Onward.refl _) (by rw [starting]; rfl) List.nil_suffix
      (fun left remaining => ?_) (fun left remaining => ?_) trivial
    · exact List.nil_subset _
    · rw [starting] at remaining
      cases remaining
  · rename_i module left starting
    refine safe.changeBefore (by rw [starting]; rfl) rfl _ module (fun data => ?_)
      (fun data tracked => spawnModule_tracked env clock tracked)
    exact effect_onward env clock .start module threads.watchdog.world data
  · exact safe
  · exact safe
  · rename_i module left killing
    have remaining : threads.main.remaining? = some (module :: left) := by rw [killing]; rfl
    split
    · rename_i absent
      refine safe.finish remaining rfl rfl rfl rfl (fun _ _ => rfl) (Onward.refl _) id ?_
      intro data found
      rw [absent] at found
      cases found
    · rename_i data found
      exact safe.proceed rfl (Onward.refl _) remaining.symm safe.round (fun _ _ => subset)
        safe.stopped (InKill.aim env safe.grouped (safe.tracked module data found))
  · rename_i module target left signalling
    have remaining : threads.main.remaining? = some (module :: left) := by rw [signalling]; rfl
    have inKill := safe.inKill
    rw [signalling] at inKill
    exact safe.proceed rfl ((os_keeps env _ module target).kill _ target (Or.inl rfl))
      remaining.symm safe.round (fun _ _ => subset) safe.stopped
      (inKill.kill env obeys safe.grouped)
  · rename_i module target polls left polling
    have remaining : threads.main.remaining? = some (module :: left) := by rw [polling]; rfl
    have inKill := safe.inKill
    rw [polling] at inKill
    have polled := inKill.poll env safe.grouped
    have onward : Onward (fun _ => True) threads.watchdog.world.os
        (threads.watchdog.world.os.waitpid env target).1 :=
      (os_keeps env _ module target).waitpid _ target (Or.inl rfl)
    split
    · exact safe.proceed rfl onward remaining.symm safe.round (fun _ _ => subset) safe.stopped
        polled
    · split
      · exact safe.proceed rfl onward remaining.symm safe.round (fun _ _ => subset) safe.stopped
          polled
      · exact safe.proceed rfl onward remaining.symm safe.round (fun _ _ => subset) safe.stopped
          polled.again
  · rename_i module target left confirming
    have confirmed := safe.mainStep_confirming env clock confirming
    unfold Threads.mainStep at confirmed
    simp only [confirming] at confirmed
    exact confirmed

theorem stop (safe : Safe threads) :
    Safe { threads with
      interrupted := threads.guard ≠ .absent
      main := .killing threads.watchdog.modules.keys } where
  grouped := safe.grouped
  tracked := safe.tracked
  owned := safe.owned
  round := safe.round
  order left remaining := by
    obtain rfl := Option.some.inj remaining
    exact List.suffix_rfl
  stopped left _ := by
    by_cases absent : threads.guard = .absent
    · exact Or.inl absent
    · exact Or.inr (by simpa using absent)
  passed left remaining module data found fresh := by
    obtain rfl := Option.some.inj remaining
    apply absurd _ fresh
    have found : threads.watchdog.modules[module]? = some data := found
    change module ∈ threads.watchdog.modules.keys
    rw [Std.ExtTreeMap.mem_keys, Std.ExtTreeMap.mem_iff_isSome_getElem?, found]
    rfl
  inKill := trivial

theorem heartbeat_step (safe : Safe threads) (serves : threads.serves = true)
    (effect : Str → World Kernel → ModuleData → Effect Kernel) (module : Str)
    (same : ∀ data, (effect module threads.watchdog.world data).1.os = threads.watchdog.world.os ∧
      (effect module threads.watchdog.world data).2.1.pid = data.pid ∧
      (effect module threads.watchdog.world data).2.1.running = data.running) :
    Safe { threads with watchdog := (change effect threads.watchdog module).1 } := by
  have serving : threads.main = .serving := by
    simp only [Threads.serves, Bool.and_eq_true, decide_eq_true_eq] at serves
    exact serves.1
  have unstopped : threads.main.remaining? = none := by
    rw [serving]
    rfl
  refine safe.changeBefore unstopped unstopped effect module (fun data => ?_)
    (fun data tracked => ?_)
  · rw [(same data).1]
    exact Onward.refl _
  · rcases same data with ⟨os, pid, running⟩
    rw [os]
    exact tracked.onward (Onward.refl _) pid running

/-- One action of either thread. -/
theorem step (safe : Safe threads) (obeys : ∀ time pid, env.obeys time pid = true)
    (action : Action) {reports : List Report}
    (undisturbed : Undisturbed env clock (action, ⟨threads, reports⟩)) :
    Safe (threads.step env clock action).1 := by
  cases action with
  | start =>
      simp only [Threads.step]
      split
      · rename_i fresh
        refine safe.proceed rfl (Onward.refl _) (by rw [fresh]; rfl) safe.round
          (fun _ _ => List.Subset.refl _) safe.stopped trivial
      · exact safe
  | stop =>
      simp only [Threads.step]
      split
      · exact safe.stop
      · exact safe
  | main => exact safe.mainStep env clock obeys
  | guard => exact safe.guardStep env clock undisturbed
  | heartbeat module =>
      simp only [Threads.step]
      split
      · rename_i serves
        exact safe.heartbeat_step serves _ module fun data => ⟨rfl, rfl, rfl⟩
      · exact safe
  | setHeartbeatInterval module interval =>
      simp only [Threads.step]
      split
      · rename_i serves
        exact safe.heartbeat_step serves _ module fun data => ⟨rfl, rfl, rfl⟩
      · exact safe

/-- After the shutdown no child is alive. -/
theorem vacant (safe : Safe threads) (finished : threads.finished) (pid : Int) :
    threads.watchdog.world.os.processes.livingAt pid = none := by
  have remaining : threads.main.remaining? = some [] := by
    rw [show threads.main = .killing [] from finished]
    rfl
  cases living : threads.watchdog.world.os.processes.livingAt pid with
  | none => rfl
  | some owner =>
      exfalso
      cases found : threads.watchdog.modules[owner]? with
      | none => exact safe.owned owner found pid living
      | some data =>
          exact (safe.passed [] remaining owner data found List.not_mem_nil).dead pid living

/-- After the shutdown nothing is reported. -/
theorem silent (safe : Safe threads) (finished : threads.finished) (action : Action) :
    (threads.step env clock action).2 = [] := by
  have main : threads.main = .killing [] := finished
  cases action with
  | start => simp [Threads.step, main]
  | stop => simp [Threads.step, Threads.unstopped, MainThread.remaining?, main]
  | main => simp [Threads.step, Threads.mainStep, main]
  | heartbeat module => simp [Threads.step, Threads.serves, main]
  | setHeartbeatInterval module interval => simp [Threads.step, Threads.serves, main]
  | guard =>
      simp only [Threads.step, Threads.guardStep]
      split
      · rfl
      · rfl
      · rfl
      · rfl
      · rename_i module left guarding
        cases found : threads.watchdog.modules[module]? with
        | none => simp only [change, found]
        | some data =>
            have remaining : threads.main.remaining? = some [] := by
              rw [main]
              rfl
            have passed := safe.passed [] remaining module data found List.not_mem_nil
            have idle := passed.stays (by simp [Threads.visits, guarding])
            simp only [change, found]
            rw [guardModule_idle clock _ module _ idle]
            rfl

end Safe

/-! ## Runs -/

/-- Runs of the threads that the guard thread does not disturb. -/
theorem safe_run (env : Environment) (clock : Clock) (names : List Str) (coreGroup : Int)
    (obeys : ∀ time pid, env.obeys time pid = true) (actions : List Action) :
    let run := (threaded env clock names coreGroup).run actions
    (∀ item ∈ run.trace, Undisturbed env clock item) →
      Safe run.state ∧ ∀ item ∈ run.trace, Safe item.2.threads ∧
        item.2.reports = (item.2.threads.step env clock item.1).2 := by
  let machine := threaded env clock names coreGroup
  let holds : Run Threads Action Moment → Prop := fun run =>
    (∀ item ∈ run.trace, Undisturbed env clock item) →
      Safe run.state ∧ ∀ item ∈ run.trace, Safe item.2.threads ∧
        item.2.reports = (item.2.threads.step env clock item.1).2
  have initial : holds machine.fresh := by
    intro _
    refine ⟨?_, fun item member => absurd member List.not_mem_nil⟩
    have osEq : (new clock names (Kernel.new coreGroup)).world.os = Kernel.new coreGroup :=
      new_os names _
    have nobody : ∀ pid, (new clock names (Kernel.new coreGroup)).world.os.processes.childAt pid =
        none := by
      intro pid
      rw [osEq]
      simp [Kernel.new, ProcessTable.childAt]
    refine ⟨?_, ?_, ?_, List.nil_suffix, ?_, ?_, ?_, trivial⟩
    · intro pid owner group child
      exact absurd (child.symm.trans (nobody pid)) (by simp)
    · intro module data found
      rcases new_modules names _ module data found with ⟨now, rfl⟩
      refine ⟨?_, Or.inl rfl⟩
      intro pid group child
      exact absurd (child.symm.trans (nobody pid)) (by simp)
    · intro module _ pid living
      rcases ProcessTable.childAt_of_livingAt living with ⟨group, child⟩
      exact absurd (child.symm.trans (nobody pid)) (by simp)
    · intro left remaining
      cases remaining
    · intro left remaining
      cases remaining
    · intro left remaining
      cases remaining
  apply Machine.run_invariant machine initial
  intro run action held undisturbed
  have trace : (machine.extend run action).trace =
      run.trace ++ [(action, ⟨run.state, (run.state.step env clock action).2⟩)] := rfl
  rw [trace] at undisturbed ⊢
  rcases held fun item member => undisturbed item (List.mem_append_left _ member) with ⟨safe, items⟩
  refine ⟨safe.step env clock obeys action (undisturbed _ (List.mem_append_right _
    (List.mem_singleton_self _))), ?_⟩
  intro item member
  rcases List.mem_append.mp member with old | new
  · exact items item old
  · rw [List.mem_singleton.mp new]
    exact ⟨safe, rfl⟩

/-- The shutdown leaves no module behind, if the guard thread does not start a module
again while the shutdown is killing it: once `killAll` has finished, no child is
alive in any state of the run, and none is spawned. -/
theorem shutdown_complete (env : Environment) (clock : Clock) (names : List Str)
    (coreGroup : Int) (actions : List Action)
    (obeys : ∀ time pid, env.obeys time pid = true)
    (undisturbed : ∀ item ∈ ((threaded env clock names coreGroup).run actions).trace,
      Undisturbed env clock item) :
    let run := (threaded env clock names coreGroup).run actions
    (run.state.finished → ∀ pid, run.state.watchdog.world.os.processes.livingAt pid = none) ∧
      ∀ item ∈ run.trace, item.2.threads.finished →
        (∀ pid, item.2.threads.watchdog.world.os.processes.livingAt pid = none) ∧
          ∀ report ∈ item.2.reports, isSpawn report.happening = false := by
  intro run
  rcases safe_run env clock names coreGroup obeys actions undisturbed with ⟨safe, items⟩
  refine ⟨safe.vacant, ?_⟩
  intro item member finished
  rcases items item member with ⟨safe, reports⟩
  refine ⟨safe.vacant finished, ?_⟩
  rw [reports, safe.silent env clock finished]
  simp

/-- An environment in which signals work and forks succeed: a new pid is above all
others. -/
def Environment.willing : Environment where
  moves _ := []
  newPid kernel :=
    some (2 + kernel.time + kernel.coreGroup.natAbs +
      (kernel.processes.keys.map Int.natAbs).sum : Nat)
  obeys _ _ := true
  killPolls _ := 1

theorem willing_forks (kernel : Kernel) (module : Str) :
    0 < (kernel.fork Environment.willing module).2 := by
  let elapsed := kernel.elapse Environment.willing
  let pid : Int := (2 + elapsed.time + elapsed.coreGroup.natAbs +
    (elapsed.processes.keys.map Int.natAbs).sum : Nat)
  have unused : pid ∉ elapsed.processes := by
    intro used
    have member : pid ∈ elapsed.processes.keys := Std.ExtTreeMap.mem_keys.mpr used
    have below := List.single_le_sum (fun _ _ => Nat.zero_le _) _
      (List.mem_map.mpr ⟨pid, member, rfl⟩ : pid.natAbs ∈ elapsed.processes.keys.map Int.natAbs)
    omega
  have fits : 1 < pid ∧ pid ≠ elapsed.coreGroup ∧ pid ∉ elapsed.processes :=
    ⟨by omega, by omega, unused⟩
  have forked : (kernel.fork Environment.willing module).2 = pid := by
    change (if 1 < pid ∧ pid ≠ elapsed.coreGroup ∧ pid ∉ elapsed.processes then
      (_, pid) else (elapsed, -1)).2 = pid
    rw [if_pos fits]
  omega

/-- The guard thread is not about to visit the victim of the shutdown. -/
def elsewhere (item : Action × Moment) : Bool :=
  match item.2.threads.guard with
  | .guarding (module :: _) => item.2.threads.main.victim? ≠ some module
  | _ => true

theorem Undisturbed.of_elsewhere {env : Environment} {clock : Clock} {item : Action × Moment}
    (apart : elsewhere item = true) : Undisturbed env clock item := by
  intro _ module left data guarding killing _
  simp [elsewhere, guarding, killing] at apart

/-- The shutdown begins in the middle of a round, which goes on while the first of two
modules is killed. -/
def midRound : List Action :=
  [.start, .main, .main, .main, .guard, .guard, .guard, .stop, .main, .main, .guard,
    .main, .main, .main, .main, .main, .main, .guard, .guard]

/-- The round does not keep the shutdown from killing both modules. -/
theorem shutdown_complete_mid_round :
    let run := (threaded Environment.willing (Clock.ofList 0 [])
      ["module_sms".toList, "module_video".toList] 500).run midRound
    run.state.finished ∧ ∀ pid, run.state.watchdog.world.os.processes.livingAt pid = none := by
  have apart : ((threaded Environment.willing (Clock.ofList 0 [])
      ["module_sms".toList, "module_video".toList] 500).run midRound).trace.all elsewhere
      = true := by
    decide +kernel
  have finished : ((threaded Environment.willing (Clock.ofList 0 [])
      ["module_sms".toList, "module_video".toList] 500).run midRound).state.main = .killing [] := by
    decide +kernel
  have complete := shutdown_complete Environment.willing (Clock.ofList 0 [])
    ["module_sms".toList, "module_video".toList] 500 midRound (fun _ _ => rfl)
    fun item member => Undisturbed.of_elsewhere (List.all_eq_true.mp apart item member)
  exact ⟨finished, complete.1 finished⟩

/-- The guard thread visits the module between the signal and the first poll of the
shutdown: it reaps the process, starts the module again, and the polls find nobody. -/
def lateVisit : List Action :=
  [.start, .main, .main, .guard, .guard, .stop, .main, .main, .guard, .main, .main]

theorem not_vacant {threads : Threads} (finished : threads.main = .killing [])
    (left : threads.watchdog.world.os.processes.keys.any
      (fun pid => (threads.watchdog.world.os.processes.livingAt pid).isSome) = true) :
    ¬ (threads.finished → ∀ pid, threads.watchdog.world.os.processes.livingAt pid = none) := by
  intro vacant
  rcases List.any_eq_true.mp left with ⟨pid, _, living⟩
  rw [vacant finished pid] at living
  cases living

/-- A module is left behind when the guard thread starts it again in the middle of the
shutdown. -/
theorem module_left_behind :
    ¬ ∀ (env : Environment) (names : List Str) (coreGroup : Int) (actions : List Action),
      (∀ time pid, env.obeys time pid = true) →
      (∀ kernel module, 0 < (Kernel.fork env module kernel).2) →
      let run := (threaded env (Clock.ofList 0 []) names coreGroup).run actions
      run.state.finished → ∀ pid, run.state.watchdog.world.os.processes.livingAt pid = none := by
  intro always
  have vacant := always Environment.willing ["module_sms".toList] 500 lateVisit (fun _ _ => rfl)
    fun kernel module => willing_forks kernel module
  exact not_vacant (by decide +kernel) (by decide +kernel) vacant

end Sentri.Core.Watchdog
