import Sentri.Core.Watchdog.Calls
import Sentri.Core.Watchdog.Sessions

/-!
# The process groups of the modules

The function `killModule` asks for the group of the module's process.  Once that
process has been waited for there is no answer, and the signal goes to a single
pid that nobody has.
-/

namespace Sentri.Core

open Sentri.Text Sentri.Transition

namespace Watchdog

/-! ## One call -/

section Sessions

open Sessions

variable (schedule : Schedule)

/-- Once the flag is down, nobody in the group of the module's last process is alive. -/
def KillCall.Clears (call : KillCall Sessions) : Prop :=
  let effect := killModule (Sessions.os schedule call.module) call.world call.data
  effect.2.running = false → effect.1.os.lives call.data.pid = false

/-- The process of the module was not waited for, or its group dies out without help
within three system calls. -/
def KillCall.Timely (call : KillCall Sessions) : Prop :=
  call.data.pid ∈ call.world.os.processes ∨
    ((elapse schedule)^[3] call.world.os).lives call.data.pid = false

/-- A pid of the module was given, and as long as there is a process with it, this
process leads its group. -/
def Placed (state : Sessions) (data : ModuleData) : Prop :=
  data.pid = -1 ∨ 1 < data.pid ∧ data.pid ∈ state.pids ∧
    ∀ process : Process, state.processes[data.pid]? = some process → process.group = data.pid

variable {schedule} {module : Str} {world : World Sessions} {data : ModuleData}

theorem Placed.later {state next : Sessions} {other : ModuleData} (placed : Placed state data)
    (ages : Ages state next) (same : other.pid = data.pid) : Placed next other := by
  unfold Placed
  rw [same]
  rcases placed with unborn | ⟨above, member, leads⟩
  · exact Or.inl unborn
  · refine Or.inr ⟨above, ages.pids _ member, ?_⟩
    intro process found
    rcases ages.group _ member process found with ⟨before, present, sameGroup⟩
    exact sameGroup.symm.trans (leads before present)

/-- A signal to the process of the module goes to its group. -/
theorem killTarget_leader {process : Process} (above : 1 < data.pid)
    (found : world.os.processes[data.pid]? = some process) (leads : process.group = data.pid) :
    killTarget (Sessions.os schedule module) world.os data = -data.pid := by
  have answer : (Sessions.os schedule module).getpgid world.os data.pid = data.pid := by
    change getpgid world.os data.pid = data.pid
    unfold getpgid
    rw [if_neg (by omega), if_neg (by omega), found]
    exact leads
  rw [killTarget, answer, if_pos rfl]

/-- Without the process of the module there is nobody who could get the signal. -/
theorem killTarget_vacant (placed : Placed world.os data)
    (gone : world.os.processes[data.pid]? = none) :
    Vacant (killTarget (Sessions.os schedule module) world.os data) world.os := by
  rcases placed with unborn | ⟨above, member, _⟩
  · have target : killTarget (Sessions.os schedule module) world.os data = 1 := by
      have answer : (Sessions.os schedule module).getpgid world.os (-1) = -1 := rfl
      rw [killTarget, unborn, answer]
      rfl
    rw [target]
    refine ⟨by omega, ?_, Or.inl rfl⟩
    cases found : world.os.processes[(1 : Int)]? with
    | none => rfl
    | some process => exact absurd (world.os.given 1 process found).1 (by omega)
  · have target : killTarget (Sessions.os schedule module) world.os data = data.pid := by
      have answer : (Sessions.os schedule module).getpgid world.os data.pid = -1 := by
        change getpgid world.os data.pid = -1
        unfold getpgid
        rw [if_neg (by omega), if_neg (by omega), gone]
      rw [killTarget, answer, if_neg (by omega)]
    rw [target]
    exact ⟨by omega, gone, Or.inr member⟩

/-- While its process is in the table, killing the module kills the group. -/
theorem killModule_kills_group {process : Process} (above : 1 < data.pid)
    (found : world.os.processes[data.pid]? = some process) (leads : process.group = data.pid) :
    (killModule (Sessions.os schedule module) world data).1.os.lives data.pid = false := by
  have target : killTarget (Sessions.os schedule module) world.os data = -data.pid :=
    killTarget_leader above found leads
  have aimed : -data.pid = data.pid ∨ -data.pid = -data.pid := Or.inr rfl
  have keeps := os_dwindles schedule module data.pid
  rw [killModule_eq, target, Bool.eq_false_iff]
  intro lives
  have waited := (waitpid_dwindles schedule _ _).lives _ lives
  have awaited := (awaitKilled_keeps keeps aimed _ _).lives _ waited
  have dead := kill_group schedule world.os above
  exact absurd (dead.symm.trans awaited) (by simp)

/-- Without its process, killing the module only takes time. -/
theorem killModule_idles (placed : Placed world.os data)
    (gone : world.os.processes[data.pid]? = none) :
    killModule (Sessions.os schedule module) world data =
      ({ world with os := (elapse schedule)^[3] world.os }, { data with running := false }) := by
  have vacant := @killTarget_vacant schedule module world data placed gone
  rw [killModule_eq]
  generalize killTarget (Sessions.os schedule module) world.os data = target at vacant
  have elapsed := vacant.later (elapse_dwindles schedule world.os).ages
  have again := elapsed.later (elapse_dwindles schedule _).ages
  have killed : (Sessions.os schedule module).kill world.os target = world.os.elapse schedule :=
    vacant.kill schedule
  have awaited : ∀ polls, awaitKilled (Sessions.os schedule module) target polls
      (world.os.elapse schedule) = (world.os.elapse schedule).elapse schedule := by
    have polled : (Sessions.os schedule module).waitpid (world.os.elapse schedule) target = _ :=
      elapsed.waitpid schedule
    intro polls
    cases polls with
    | zero => rw [awaitKilled, polled]
    | succ polls =>
        rw [awaitKilled, polled]
        rfl
  have waited : (Sessions.os schedule module).waitpid
      ((world.os.elapse schedule).elapse schedule) target = _ := again.waitpid schedule
  simp only [killed, awaited, waited]
  rfl

/-- A call clears the group exactly if it comes in time. -/
theorem clears_iff_timely {call : KillCall Sessions} (placed : Placed call.world.os call.data) :
    call.Clears schedule ↔ call.Timely schedule := by
  cases found : call.world.os.processes[call.data.pid]? with
  | none =>
      have absent : call.data.pid ∉ call.world.os.processes := by
        rw [Std.ExtTreeMap.mem_iff_isSome_getElem?, found]
        simp
      have idles := @killModule_idles schedule call.module call.world call.data placed found
      simp only [KillCall.Clears, KillCall.Timely, idles, absent, false_or, true_implies]
  | some process =>
      have present : call.data.pid ∈ call.world.os.processes := by
        rw [Std.ExtTreeMap.mem_iff_isSome_getElem?, found]
        rfl
      rcases call.world.os.given _ process found with ⟨above, _⟩
      have leads : process.group = call.data.pid := by
        rcases placed with unborn | ⟨_, _, leads⟩
        · omega
        · exact leads process found
      constructor
      · exact fun _ => Or.inl present
      · exact fun _ _ => killModule_kills_group above found leads

/-- A process that does not let itself be waited for is in the table. -/
theorem waitpid_present {state : Sessions} {target : Int} (positive : 0 < target)
    (zero : (state.waitpid schedule target).2 = 0) :
    target ∈ (state.waitpid schedule target).1.processes := by
  simp only [Sessions.waitpid] at zero ⊢
  split at zero
  · rename_i pid process found
    have listed := List.mem_of_mem_filter (List.mem_of_find?_eq_some found)
    have present := Std.ExtTreeMap.mem_toList_iff_getElem?_eq_some.mp listed
    have above := ((state.elapse schedule).given pid process present).1
    simp only at zero
    omega
  · split at zero
    · cases zero
    · rename_i somebody
      rcases List.exists_mem_of_ne_nil _ somebody with ⟨⟨pid, process⟩, listed⟩
      rcases List.mem_filter.mp listed with ⟨inTable, awaited⟩
      have same : pid = target := by
        simp only [Kernel.awaited, selects, Bool.and_eq_true] at awaited
        simpa [positive] using awaited.2
      have found := Std.ExtTreeMap.mem_toList_iff_getElem?_eq_some.mp inTable
      rw [← same, Std.ExtTreeMap.mem_iff_isSome_getElem?, found]
      rfl

theorem buryCalls_timely (positive : 0 < data.pid) :
    ∀ call ∈ buryCalls (Sessions.os schedule module) module world data,
      call.Timely schedule := by
  intro call member
  simp only [buryCalls] at member
  split at member
  · rename_i zero
    rw [List.mem_singleton.mp member]
    exact Or.inl (waitpid_present positive zero)
  · cases member

/-- The calls for a module that is only silent are in time. -/
theorem guardCalls_timely {clock : Clock} (positive : 0 < data.pid)
    (zero : (world.os.waitpid schedule data.pid).2 = 0) :
    ∀ call ∈ guardCalls (Sessions.os schedule module) clock module world data,
      call.Timely schedule := by
  rcases @guardCalls_cases Sessions (Sessions.os schedule module) clock module world data with
    ⟨noCalls, _⟩ | ⟨ticks, missed, same, _⟩
  · simp [noCalls]
  · rw [same]
    intro call member
    simp only [resurrectCalls] at member
    rcases List.mem_cons.mp member with rfl | later
    · exact Or.inl (waitpid_present positive zero)
    · split at later
      · cases later
      · apply buryCalls_timely _ call later
        rw [(killModule_pid _ _ _).1]
        exact positive

/-! ## Inheritance -/

/-- Only the group of the module may come to life, and only for a running module. -/
def Inherits (state : Sessions) (data : ModuleData) (next : Sessions) (later : ModuleData) : Prop :=
  ∀ group, next.lives group = true →
    (later.running = true ∧ later.pid = group) ∨
      (state.lives group = true ∧ ¬ (data.running = true ∧ data.pid = group))

theorem Inherits.trans {first second third : Sessions} {data other last : ModuleData}
    (one : Inherits first data second other) (two : Inherits second other third last) :
    Inherits first data third last := by
  intro group lives
  rcases two group lives with own | ⟨before, notOwn⟩
  · exact Or.inl own
  · rcases one group before with own | old
    · exact absurd own notOwn
    · exact Or.inr old

/-- Only the flag and the pid of the module matter. -/
theorem Inherits.to_fields {state next : Sessions} {later other : ModuleData}
    (inherits : Inherits state data next later) (running : other.running = later.running)
    (pid : other.pid = later.pid) : Inherits state data next other := by
  intro group lives
  rw [running, pid]
  exact inherits group lives

/-- Nothing comes to life without a fork. -/
theorem Inherits.of_dwindles {state next : Sessions} {other : ModuleData}
    (dwindles : Dwindles state next) (running : other.running = data.running)
    (pid : other.pid = data.pid) : Inherits state data next other := by
  intro group lives
  rw [running, pid]
  by_cases own : data.running = true ∧ data.pid = group
  · exact Or.inl own
  · exact Or.inr ⟨dwindles.lives group lives, own⟩

variable (clock : Clock)

theorem killModule_inherits (clears : KillCall.Clears schedule ⟨module, world, data⟩) :
    let effect := killModule (Sessions.os schedule module) world data
    Inherits world.os data effect.1.os effect.2 := by
  intro effect
  have dwindles : Dwindles world.os effect.1.os :=
    killModule_keeps world data (os_dwindles schedule module data.pid)
  have pid : effect.2.pid = data.pid := (killModule_pid _ world data).1
  cases flag : effect.2.running with
  | true =>
      intro group lives
      by_cases own : data.running = true ∧ data.pid = group
      · exact Or.inl ⟨flag, pid.trans own.2⟩
      · exact Or.inr ⟨dwindles.lives group lives, own⟩
  | false =>
      intro group lives
      refine Or.inr ⟨dwindles.lives group lives, ?_⟩
      rintro ⟨_, rfl⟩
      exact absurd ((clears flag).symm.trans lives) (by simp)

/-- A module that is running gets no new process; another may get one. -/
theorem spawnModule_enters (module : Str) (world : World Sessions) (data : ModuleData) :
    let effect := spawnModule (Sessions.os schedule module) clock world data
    (effect.1.os = world.os ∧ effect.2.1 = data) ∨
    (data.running = false ∧ effect.1.os = world.os.elapse schedule ∧ effect.2.1 = data) ∨
    (data.running = false ∧ effect.2.1.running = true ∧
      ∃ above : 1 < effect.2.1.pid, effect.2.1.pid ∉ (world.os.elapse schedule).pids ∧
        effect.1.os = (world.os.elapse schedule).enter effect.2.1.pid
          ⟨some module, effect.2.1.pid, true⟩ above) := by
  intro effect
  by_cases free : (!data.running && !data.buried) = true
  · have idle : data.running = false := by
      cases running : data.running with
      | false => rfl
      | true => simp [running] at free
    right
    rcases fork_cases schedule module world.os with failed | ⟨pid, above, new, forked⟩
    · have failed' : (Sessions.os schedule module).fork world.os = _ := failed
      have equal : effect = (⟨world.os.elapse schedule, world.ticks⟩, data, []) := by
        simp only [effect, spawnModule, free, if_true, failed']
        rfl
      rw [equal]
      exact Or.inl ⟨idle, rfl, rfl⟩
    · have forked' : (Sessions.os schedule module).fork world.os = _ := forked
      have positive : pid > 0 := by omega
      have osEq : effect.1.os =
          (world.os.elapse schedule).enter pid ⟨some module, pid, true⟩ above := by
        simp only [effect, spawnModule, free, if_true, forked', positive]
      have pidEq : effect.2.1.pid = pid ∧ effect.2.1.running = true := by
        simp only [effect, spawnModule, free, if_true, forked', positive, and_self]
      right
      refine ⟨idle, pidEq.2, ?_⟩
      rw [pidEq.1]
      exact ⟨above, new, osEq⟩
  · left
    have equal : effect = (world, data, []) := by
      simp only [effect, spawnModule, free, Bool.false_eq_true, if_false]
    rw [equal]
    exact ⟨rfl, rfl⟩

theorem spawnModule_inherits (module : Str) (world : World Sessions) (data : ModuleData) :
    let effect := spawnModule (Sessions.os schedule module) clock world data
    Inherits world.os data effect.1.os effect.2.1 := by
  intro effect
  rcases @spawnModule_enters schedule clock module world data with
    ⟨osEq, dataEq⟩ | ⟨_, osEq, dataEq⟩ | ⟨idle, running, above, _, osEq⟩
  · rw [osEq, dataEq]
    exact Inherits.of_dwindles (Dwindles.refl _) rfl rfl
  · rw [osEq, dataEq]
    exact Inherits.of_dwindles (elapse_dwindles schedule _) rfl rfl
  · rw [osEq]
    intro group lives
    rcases enter_lives lives with own | before
    · exact Or.inl ⟨running, own⟩
    · exact Or.inr ⟨(elapse_dwindles schedule _).lives group before, by simp [idle]⟩

theorem spawnModule_placed (placed : Placed world.os data) :
    let effect := spawnModule (Sessions.os schedule module) clock world data
    Placed effect.1.os effect.2.1 := by
  intro effect
  rcases @spawnModule_enters schedule clock module world data with
    ⟨osEq, dataEq⟩ | ⟨_, osEq, dataEq⟩ | ⟨_, _, above, _, osEq⟩
  · rw [osEq, dataEq]
    exact placed
  · rw [osEq, dataEq]
    exact placed.later (elapse_dwindles schedule _).ages rfl
  · rw [osEq]
    refine Or.inr ⟨above, List.mem_cons_self, ?_⟩
    intro process found
    rw [enter_processes, if_pos rfl] at found
    cases found
    rfl

theorem buryModule_inherits
    (clear : ∀ call ∈ buryCalls (Sessions.os schedule module) module world data,
      call.Clears schedule) :
    let effect := buryModule (Sessions.os schedule module) module world data
    Inherits world.os data effect.1.os effect.2.1 := by
  intro effect
  have waited := waitpid_dwindles schedule world.os data.pid
  rcases @buryCalls_cases Sessions (Sessions.os schedule module) module world data with
    ⟨calls, osEq, running, pid⟩ | ⟨_, osEq, running, pid⟩
  · rw [calls] at clear
    have killed := killModule_inherits (clear _ List.mem_cons_self)
    rw [osEq]
    apply (@Inherits.of_dwindles data world.os _ data waited rfl rfl).trans
    exact killed.to_fields running pid
  · rw [osEq]
    exact Inherits.of_dwindles waited running pid

theorem resurrectModule_inherits
    (clear : ∀ call ∈ resurrectCalls (Sessions.os schedule module) module world data,
      call.Clears schedule) :
    let effect := resurrectModule (Sessions.os schedule module) clock module world data
    Inherits world.os data effect.1.os effect.2.1 := by
  intro effect
  rcases @resurrectCalls_cases Sessions (Sessions.os schedule module) clock module world data with
    ⟨calls, osEq, running, pid⟩ | ⟨calls, equal⟩
  · rw [calls] at clear
    rw [osEq]
    apply (killModule_inherits (clear _ List.mem_cons_self)).trans
    exact (spawnModule_inherits clock module _ _).to_fields running pid
  · rw [calls] at clear
    apply (killModule_inherits (clear _ List.mem_cons_self)).trans
    rw [show effect = _ from equal]
    exact buryModule_inherits fun call member => clear call (List.mem_cons_of_mem _ member)

theorem guardModule_inherits
    (clear : ∀ call ∈ guardCalls (Sessions.os schedule module) clock module world data,
      call.Clears schedule) :
    let effect := guardModule (Sessions.os schedule module) clock module world data
    Inherits world.os data effect.1.os effect.2.1 := by
  intro effect
  have waited := waitpid_dwindles schedule world.os data.pid
  rcases @guardCalls_cases Sessions (Sessions.os schedule module) clock module world data with
    ⟨_, osEq, running, pid⟩ | ⟨ticks, missed, same, osEq, running, pid⟩
  · rcases osEq with unchanged | polled
    · rw [unchanged]
      exact Inherits.of_dwindles (Dwindles.refl _) running pid
    · rw [polled]
      exact Inherits.of_dwindles waited running pid
  · have handed : Inherits world.os data (world.os.waitpid schedule data.pid).1
        { data with missedHeartbeats := missed } :=
      Inherits.of_dwindles waited rfl rfl
    rw [same] at clear
    rw [osEq]
    apply handed.trans
    exact (resurrectModule_inherits clock clear).to_fields running pid

theorem killModule_placed (placed : Placed world.os data) :
    let effect := killModule (Sessions.os schedule module) world data
    Placed effect.1.os effect.2 :=
  placed.later (killModule_keeps world data (os_ages schedule module data.pid))
    (killModule_pid _ world data).1

theorem resurrectModule_placed (placed : Placed world.os data) :
    let effect := resurrectModule (Sessions.os schedule module) clock module world data
    Placed effect.1.os effect.2.1 := by
  intro effect
  have killed := @killModule_placed schedule module world data placed
  rcases @resurrectCalls_cases Sessions (Sessions.os schedule module) clock module world data with
    ⟨_, osEq, _, pid⟩ | ⟨_, equal⟩
  · rw [osEq]
    exact (spawnModule_placed clock killed).later (Ages.refl _) pid
  · rw [show effect = _ from equal]
    apply killed.later (buryModule_keeps module _ _ (os_ages schedule module _))
    rcases @buryCalls_cases Sessions (Sessions.os schedule module) module
        (killModule (Sessions.os schedule module) world data).1
        (killModule (Sessions.os schedule module) world data).2 with
      ⟨_, _, _, pid⟩ | ⟨_, _, _, pid⟩
    · exact pid.trans (killModule_pid _ _ _).1
    · exact pid

theorem guardModule_placed (placed : Placed world.os data) :
    let effect := guardModule (Sessions.os schedule module) clock module world data
    Placed effect.1.os effect.2.1 := by
  intro effect
  have waited := (waitpid_dwindles schedule world.os data.pid).ages
  rcases @guardCalls_cases Sessions (Sessions.os schedule module) clock module world data with
    ⟨_, osEq, _, pid⟩ | ⟨ticks, missed, _, osEq, _, pid⟩
  · rcases osEq with unchanged | polled
    · rw [unchanged]
      exact placed.later (Ages.refl _) pid
    · rw [polled]
      exact placed.later waited pid
  · have handed : Placed (world.os.waitpid schedule data.pid).1
        { data with missedHeartbeats := missed } := placed.later waited rfl
    have resurrected := @resurrectModule_placed schedule module
      ⟨(world.os.waitpid schedule data.pid).1, ticks⟩ _ clock handed
    rw [osEq]
    exact resurrected.later (Ages.refl _) pid

end Sessions

/-! ## Runs over sessions -/

section Runs

open Sessions

variable (schedule : Schedule) (clock : Clock)

/-- The function that a command calls for its modules. -/
def Command.inSessions (command : Command) (module : Str) :
    World Sessions → ModuleData → Effect Sessions :=
  match command with
  | .start => spawnModule (Sessions.os schedule module) clock
  | .round => guardModule (Sessions.os schedule module) clock module
  | .heartbeat _ => Watchdog.heartbeat clock
  | .setHeartbeatInterval _ interval => Watchdog.setHeartbeatInterval interval
  | .killAll => fun world data =>
      let (world, data) := killModule (Sessions.os schedule module) world data
      (world, data, [])

/-- The modules that a command is for. -/
def Command.callees (watchdog : Watchdog Sessions) : Command → List Str
  | .heartbeat module => [module]
  | .setHeartbeatInterval module _ => [module]
  | _ => watchdog.modules.keys

/-- The calls of `killModule` during a visit. -/
def Command.killCalls (command : Command) (visit : Visit Sessions) : List (KillCall Sessions) :=
  match command with
  | .round =>
      guardCalls (Sessions.os schedule visit.module) clock visit.module visit.world visit.data
  | .killAll => [⟨visit.module, visit.world, visit.data⟩]
  | _ => []

/-- A watchdog over sessions.  Its outputs are the visits. -/
def overSessions (names : List Str) (coreGroup : Int) :
    Machine (Watchdog Sessions) Command (Visit Sessions) where
  start := new clock names (Sessions.new coreGroup)
  step watchdog command :=
    ((changeAll (command.inSessions schedule clock) watchdog (command.callees watchdog)).1,
      visits (command.inSessions schedule clock) watchdog (command.callees watchdog))

/-- All calls of `killModule` in a run. -/
def killCalls (trace : List (Command × Visit Sessions)) : List (KillCall Sessions) :=
  trace.flatMap fun item => item.1.killCalls schedule clock item.2

/-- All processes that are alive belong to the last instance of a running module. -/
def Tidy (watchdog : Watchdog Sessions) : Prop :=
  ∀ group, watchdog.world.os.lives group = true →
    ∃ (module : Str) (data : ModuleData), watchdog.modules[module]? = some data ∧
      data.running = true ∧ data.pid = group

/-- The invariant of all runs. -/
structure Kept (watchdog : Watchdog Sessions) (trace : List (Command × Visit Sessions)) :
    Prop where
  placed : ∀ (module : Str) (data : ModuleData), watchdog.modules[module]? = some data →
    Placed watchdog.world.os data
  calls : ∀ call ∈ killCalls schedule clock trace, Placed call.world.os call.data
  tidy : (∀ call ∈ killCalls schedule clock trace, call.Clears schedule) → Tidy watchdog

variable {schedule clock} {module : Str} {world : World Sessions} {data : ModuleData}

theorem inSessions_ages (command : Command) (module : Str) (world : World Sessions)
    (data : ModuleData) :
    Ages world.os (command.inSessions schedule clock module world data).1.os := by
  have keeps := os_ages schedule module data.pid
  cases command with
  | start => exact spawnModule_keeps clock world data (Ages.refl _) (fork_ages schedule module _)
  | round =>
      exact guardModule_keeps clock module world data keeps fun _ _ => fork_ages schedule module
  | heartbeat _ => exact Ages.refl _
  | setHeartbeatInterval _ _ => exact Ages.refl _
  | killAll => exact killModule_keeps world data keeps

theorem inSessions_placed (command : Command) (placed : Placed world.os data) :
    let effect := command.inSessions schedule clock module world data
    Placed effect.1.os effect.2.1 := by
  cases command with
  | start => exact spawnModule_placed clock placed
  | round => exact guardModule_placed clock placed
  | heartbeat _ => exact placed.later (Ages.refl _) rfl
  | setHeartbeatInterval _ _ => exact placed.later (Ages.refl _) rfl
  | killAll => exact killModule_placed placed

theorem killCalls_placed (command : Command) {visit : Visit Sessions}
    (placed : Placed visit.world.os visit.data) :
    ∀ call ∈ command.killCalls schedule clock visit, Placed call.world.os call.data := by
  intro call member
  cases command with
  | round =>
      have keeps := os_ages schedule visit.module visit.data.pid
      rcases guardCalls_follow visit.world visit.data keeps call member with ⟨pid, ages⟩
      exact placed.later ages pid
  | killAll =>
      rw [List.mem_singleton.mp member]
      exact placed
  | start => cases member
  | heartbeat _ => cases member
  | setHeartbeatInterval _ _ => cases member

theorem inSessions_inherits (command : Command)
    (clear : ∀ call ∈ command.killCalls schedule clock
      ⟨module, world, data, command.inSessions schedule clock module world data⟩,
      call.Clears schedule) :
    let effect := command.inSessions schedule clock module world data
    Inherits world.os data effect.1.os effect.2.1 := by
  cases command with
  | start => exact spawnModule_inherits clock module world data
  | round => exact guardModule_inherits clock clear
  | heartbeat _ => exact Inherits.of_dwindles (Dwindles.refl _) rfl rfl
  | setHeartbeatInterval _ _ => exact Inherits.of_dwindles (Dwindles.refl _) rfl rfl
  | killAll => exact killModule_inherits (clear _ List.mem_cons_self)

/-- The groups of the other modules are not concerned. -/
theorem Tidy.inherited {watchdog : Watchdog Sessions} (tidy : Tidy watchdog)
    (found : watchdog.modules[module]? = some data) {effect : Effect Sessions}
    (inherits : Inherits watchdog.world.os data effect.1.os effect.2.1) :
    Tidy ⟨watchdog.modules.insert module effect.2.1, effect.1⟩ := by
  intro group lives
  rcases inherits group lives with ⟨running, pid⟩ | ⟨before, notOwn⟩
  · exact ⟨module, effect.2.1, by simp, running, pid⟩
  · rcases tidy group before with ⟨other, otherData, present, running, pid⟩
    have different : module ≠ other := by
      rintro rfl
      rw [found] at present
      cases present
      exact notOwn ⟨running, pid⟩
    refine ⟨other, otherData, ?_, running, pid⟩
    simpa [Std.ExtTreeMap.getElem?_insert, different] using present

theorem visit_kept (command : Command) {watchdog : Watchdog Sessions}
    {trace : List (Command × Visit Sessions)} (found : watchdog.modules[module]? = some data)
    (kept : Kept schedule clock watchdog trace) :
    let effect := command.inSessions schedule clock module watchdog.world data
    Kept schedule clock ⟨watchdog.modules.insert module effect.2.1, effect.1⟩
      (trace ++ [(command, ⟨module, watchdog.world, data, effect⟩)]) := by
  intro effect
  let visit : Visit Sessions := ⟨module, watchdog.world, data, effect⟩
  have here := kept.placed module data found
  have calls : killCalls schedule clock (trace ++ [(command, visit)]) =
      killCalls schedule clock trace ++ command.killCalls schedule clock visit := by
    simp [killCalls]
  constructor
  · intro other otherData present
    rw [Std.ExtTreeMap.getElem?_insert] at present
    by_cases same : module = other
    · obtain rfl : effect.2.1 = otherData := by simpa [same] using present
      exact inSessions_placed command here
    · have before := kept.placed other otherData (by simpa [same] using present)
      exact before.later (inSessions_ages command module watchdog.world data) rfl
  · rw [calls]
    intro call member
    rcases List.mem_append.mp member with old | new
    · exact kept.calls call old
    · exact killCalls_placed command here call new
  · rw [calls]
    intro clear
    apply (kept.tidy fun call member => clear call (List.mem_append_left _ member)).inherited found
    apply inSessions_inherits command
    exact fun call member => clear call (List.mem_append_right _ member)

variable (schedule clock)

theorem run_kept (names : List Str) (coreGroup : Int) (commands : List Command) :
    let run := (overSessions schedule clock names coreGroup).run commands
    Kept schedule clock run.state run.trace := by
  let machine := overSessions schedule clock names coreGroup
  let holds : Run (Watchdog Sessions) Command (Visit Sessions) → Prop := fun run =>
    Kept schedule clock run.state run.trace
  have initial : holds machine.fresh := by
    constructor
    · intro module data present
      rcases new_modules names _ module data present with ⟨now, rfl⟩
      exact Or.inl rfl
    · simp [machine, Machine.fresh, killCalls]
    · intro _ group lives
      change (new clock names (Sessions.new coreGroup)).world.os.lives group = true at lives
      rw [new_os] at lives
      simp [Sessions.lives, Sessions.new] at lives
  apply Machine.run_invariant machine initial
  intro run command kept
  let holdsSeen : List Str → Watchdog Sessions → List (Visit Sessions) → Prop :=
    fun _ watchdog seen =>
      Kept schedule clock watchdog (run.trace ++ seen.map fun visit => (command, visit))
  have before : holdsSeen (command.callees run.state) run.state [] := by
    simpa [holdsSeen] using kept
  refine @changeAll_visits Sessions holdsSeen (command.inSessions schedule clock) ?_ ?_
    (command.callees run.state) run.state [] before
  · intro watchdog seen module left _ kept
    exact kept
  · intro watchdog seen module left data found kept
    have next := visit_kept command found kept
    simpa [holdsSeen] using next

/-- In every run, the calls of `killModule` clear the groups of the modules, and only
the last instances of the running modules and their children are alive, exactly if
every call finds the process of its module not yet waited for, or its group about to
die out. -/
theorem groups_cleared_iff (names : List Str) (coreGroup : Int) (commands : List Command) :
    let run := (overSessions schedule clock names coreGroup).run commands
    ((∀ call ∈ killCalls schedule clock run.trace, call.Clears schedule) ∧ Tidy run.state) ↔
      ∀ call ∈ killCalls schedule clock run.trace, call.Timely schedule := by
  intro run
  have kept := run_kept schedule clock names coreGroup commands
  constructor
  · rintro ⟨clear, _⟩ call member
    exact (clears_iff_timely (kept.calls call member)).mp (clear call member)
  · intro timely
    have clear : ∀ call ∈ killCalls schedule clock run.trace, call.Clears schedule :=
      fun call member => (clears_iff_timely (kept.calls call member)).mpr (timely call member)
    exact ⟨clear, kept.tidy clear⟩

/-- A module forks a child and exits before the first round. -/
def Schedule.orphaning : Schedule where
  deeds time := if time = 1 then [.fork 1001 2000, .exit 1001] else []
  newPid state := some (1000 + state.time)
  killPolls _ := 1

/-- The child survives the killing of a module that the guard loop has waited for. -/
theorem orphan_survives :
    ¬ ∀ (schedule : Schedule) (clock : Clock) (names : List Str) (coreGroup : Int)
      (commands : List Command),
      let run := (overSessions schedule clock names coreGroup).run commands
      (∀ call ∈ killCalls schedule clock run.trace, call.Clears schedule) ∧ Tidy run.state := by
  intro always
  let clock := Clock.ofList 0 []
  let run := (overSessions Schedule.orphaning clock ["module_video".toList] 500).run
    [.start, .round]
  have failed : ∃ call ∈ killCalls Schedule.orphaning clock run.trace,
      let effect := killModule (Sessions.os Schedule.orphaning call.module) call.world call.data
      effect.2.running = false ∧ effect.1.os.lives call.data.pid = true := by
    decide +kernel
  rcases failed with ⟨call, member, stopped, lives⟩
  have clears := (always Schedule.orphaning clock ["module_video".toList] 500
    [.start, .round]).1 call member
  exact absurd ((clears stopped).symm.trans lives) (by simp)

end Runs

end Watchdog

end Sentri.Core
