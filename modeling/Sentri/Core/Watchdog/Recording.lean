import Sentri.Core.Watchdog.Visits

/-!
# Finer operating systems, recorded system calls

An operating system may be looked at more closely without a change in what the
watchdog does.  One such system keeps a log of the calls that change it.
-/

namespace Sentri.Core

open Sentri.Text Sentri.Transition

universe u v

/-! ## Simulation -/

/-- A finer system gives the same answers, and its states abstract to those of
the coarser one. -/
structure Os.Simulates {σ : Type u} {ω : Type v} (abstract : σ → ω) (fine : Os σ) (os : Os ω) :
    Prop where
  fork : ∀ state, os.fork (abstract state) = (abstract (fine.fork state).1, (fine.fork state).2)
  getpgid : ∀ state pid, os.getpgid (abstract state) pid = fine.getpgid state pid
  kill : ∀ state pid, os.kill (abstract state) pid = abstract (fine.kill state pid)
  waitpid : ∀ state pid, os.waitpid (abstract state) pid =
    (abstract (fine.waitpid state pid).1, (fine.waitpid state pid).2)
  killPolls : ∀ state, os.killPolls (abstract state) = fine.killPolls state

/-- The world as the coarser system has it. -/
def World.abstract {σ : Type u} {ω : Type v} (abstract : σ → ω) (world : World σ) : World ω :=
  ⟨abstract world.os, world.ticks⟩

namespace Watchdog

section Simulation

variable {σ : Type u} {ω : Type v} {abstract : σ → ω} {fine : Os σ} {os : Os ω} {clock : Clock}

/-- A function does the same on both systems. -/
def Agrees (abstract : σ → ω) (fine : Str → World σ → ModuleData → Effect σ)
    (coarse : Str → World ω → ModuleData → Effect ω) : Prop :=
  ∀ module world data, coarse module (world.abstract abstract) data =
    ((fine module world data).1.abstract abstract, (fine module world data).2)

variable (clock) in
theorem spawnModule_agrees (simulates : Os.Simulates abstract fine os) :
    Agrees abstract (fun _ => spawnModule fine clock) fun _ => spawnModule os clock := by
  intro _ world data
  simp only [spawnModule, World.abstract, simulates.fork]
  split
  · split <;> rfl
  · rfl

theorem awaitKilled_agrees (simulates : Os.Simulates abstract fine os) (pid : Int) (polls : Nat)
    (state : σ) :
    awaitKilled os pid polls (abstract state) = abstract (awaitKilled fine pid polls state) := by
  induction polls generalizing state with
  | zero => simp only [awaitKilled, simulates.waitpid]
  | succ polls ih =>
      simp only [awaitKilled, simulates.waitpid]
      split
      · rfl
      · exact ih _

theorem killTarget_agrees (simulates : Os.Simulates abstract fine os) (state : σ)
    (data : ModuleData) :
    killTarget os (abstract state) data = killTarget fine state data := by
  simp only [killTarget, simulates.getpgid]

theorem killModule_agrees (simulates : Os.Simulates abstract fine os) (world : World σ)
    (data : ModuleData) :
    killModule os (world.abstract abstract) data =
      ((killModule fine world data).1.abstract abstract, (killModule fine world data).2) := by
  simp only [killModule, World.abstract, killTarget_agrees simulates, simulates.kill,
    simulates.killPolls, awaitKilled_agrees simulates, simulates.waitpid]
  split <;> rfl

theorem buryModule_agrees (simulates : Os.Simulates abstract fine os) :
    Agrees abstract (buryModule fine) (buryModule os) := by
  intro module world data
  have killed := killModule_agrees simulates
    { world with os := (fine.waitpid world.os data.pid).1 } data
  simp only [World.abstract] at killed
  simp only [buryModule, World.abstract, simulates.waitpid, killed]
  split <;> rfl

variable (clock) in
theorem resurrectModule_agrees (simulates : Os.Simulates abstract fine os) :
    Agrees abstract (resurrectModule fine clock) (resurrectModule os clock) := by
  intro module world data
  have spawned := spawnModule_agrees clock simulates module
    (killModule fine world data).1 (killModule fine world data).2
  simp only [resurrectModule, killModule_agrees simulates]
  split
  · simp only [spawned]
  · exact buryModule_agrees simulates module _ _

variable (abstract clock) in
theorem checkStability_agrees (world : World σ) (data : ModuleData) :
    checkStability clock (world.abstract abstract) data =
      ((checkStability clock world data).1.abstract abstract,
        (checkStability clock world data).2) := by
  by_cases due : clock.reading world.ticks - data.lastStabilityCheck ≥
      milliseconds stabilityCheckInterval
  · simp [checkStability, World.abstract, due]
  · simp [checkStability, World.abstract, due]

variable (clock) in
theorem checkHeartbeat_agrees (simulates : Os.Simulates abstract fine os) :
    Agrees abstract (checkHeartbeat fine clock) (checkHeartbeat os clock) := by
  intro module world data
  have revived := resurrectModule_agrees clock simulates module
    { world with ticks := world.ticks + 1 }
    { data with missedHeartbeats := data.missedHeartbeats + 1 }
  simp only [World.abstract] at revived
  by_cases late : clock.reading world.ticks - data.lastHeartbeat >
      milliseconds data.heartbeatInterval.toNat
  · by_cases many : data.missedHeartbeats + 1 ≥ maxMissedHeartbeats
    · simpa [checkHeartbeat, World.abstract, late, many] using revived
    · simp [checkHeartbeat, World.abstract, late, many]
  · simp [checkHeartbeat, World.abstract, late]

variable (clock) in
theorem guardModule_agrees (simulates : Os.Simulates abstract fine os) :
    Agrees abstract (guardModule fine clock) (guardModule os clock) := by
  intro module world data
  let reaped : World σ := { world with os := (fine.waitpid world.os data.pid).1 }
  have checked := checkHeartbeat_agrees clock simulates module reaped data
  have revived := resurrectModule_agrees clock simulates module reaped data
  have stable := checkStability_agrees abstract clock
    (checkHeartbeat fine clock module reaped data).1
    (checkHeartbeat fine clock module reaped data).2.1
  simp only [World.abstract, reaped] at checked revived stable
  simp only [guardModule, World.abstract, simulates.waitpid]
  split
  · split
    · split
      · simp only [checked, stable]
      · exact revived
    · rfl
  · rfl

/-- The watchdog as the coarser system has it. -/
def mapSystem (abstract : σ → ω) (watchdog : Watchdog σ) : Watchdog ω :=
  ⟨watchdog.modules, watchdog.world.abstract abstract⟩

theorem change_agrees {finer : Str → World σ → ModuleData → Effect σ}
    {coarse : Str → World ω → ModuleData → Effect ω} (agrees : Agrees abstract finer coarse)
    (watchdog : Watchdog σ) (module : Str) :
    change coarse (watchdog.mapSystem abstract) module =
      ((change finer watchdog module).1.mapSystem abstract, (change finer watchdog module).2) := by
  cases found : watchdog.modules[module]? with
  | none => simp [change, mapSystem, found]
  | some data =>
      have same := agrees module watchdog.world data
      simp [change, mapSystem, found, same]

theorem changeAll_agrees {finer : Str → World σ → ModuleData → Effect σ}
    {coarse : Str → World ω → ModuleData → Effect ω} (agrees : Agrees abstract finer coarse)
    (watchdog : Watchdog σ) (left : List Str) :
    changeAll coarse (watchdog.mapSystem abstract) left =
      ((changeAll finer watchdog left).1.mapSystem abstract,
        (changeAll finer watchdog left).2) := by
  induction left generalizing watchdog with
  | nil => rfl
  | cons module left ih => simp [changeAll, change_agrees agrees, ih]

end Simulation

end Watchdog

/-! ## The log of the system calls -/

/-- A system call and its answer. -/
inductive SystemCall where
  | fork (answer : Int)
  | kill (target : Int)
  | waitpid (pid answer : Int)
  deriving DecidableEq

/-- The state of a system and the log of the calls so far. -/
structure Recorded (ω : Type u) where
  system : ω
  log : List SystemCall

/-- The operating system with a log. -/
def Os.recorded {ω : Type u} (os : Os ω) : Os (Recorded ω) where
  fork state :=
    let (system, pid) := os.fork state.system
    (⟨system, state.log ++ [.fork pid]⟩, pid)
  getpgid state pid := os.getpgid state.system pid
  kill state pid := ⟨os.kill state.system pid, state.log ++ [.kill pid]⟩
  waitpid state pid :=
    let (system, result) := os.waitpid state.system pid
    (⟨system, state.log ++ [.waitpid pid result]⟩, result)
  killPolls state := os.killPolls state.system

namespace Watchdog

variable {ω : Type u} {os : Os ω} {clock : Clock}

theorem recorded_simulates (os : Os ω) : Os.Simulates Recorded.system os.recorded os where
  fork _ := rfl
  getpgid _ _ := rfl
  kill _ _ := rfl
  waitpid _ _ := rfl
  killPolls _ := rfl

/-- The same operation on the recorded system. -/
def Op.recorded (op : Op ω) : Op (Recorded ω) :=
  match op with
  | .start => .start
  | .round => .round
  | .heartbeat module => .heartbeat module
  | .setHeartbeatInterval module interval => .setHeartbeatInterval module interval
  | .system change => .system fun state => ⟨change state.system, state.log⟩

theorem new_recorded (names : List Str) (state : ω) :
    (new clock names (⟨state, []⟩ : Recorded ω)).mapSystem Recorded.system =
      new clock names state := by
  induction names using List.reverseRecOn with
  | nil => rfl
  | append_singleton names name ih =>
      rw [new_concat, new_concat, ← ih]
      rfl

variable (os clock) in
theorem step_recorded (names : List Str) (state : ω) (watchdog : Watchdog (Recorded ω))
    (op : Op ω) :
    (machine os clock names state).step (watchdog.mapSystem Recorded.system) op =
      (((machine os.recorded clock names ⟨state, []⟩).step watchdog op.recorded).1.mapSystem
          Recorded.system,
        ((machine os.recorded clock names ⟨state, []⟩).step watchdog op.recorded).2) := by
  have simulates := recorded_simulates os
  cases op with
  | start => exact changeAll_agrees (spawnModule_agrees clock simulates) watchdog _
  | round => exact changeAll_agrees (guardModule_agrees clock simulates) watchdog _
  | heartbeat module =>
      have agrees : Agrees (Recorded.system (ω := ω)) (fun _ => heartbeat clock)
        fun _ => heartbeat clock := fun _ _ _ => rfl
      exact change_agrees agrees watchdog module
  | setHeartbeatInterval module interval =>
      have agrees : Agrees (Recorded.system (ω := ω)) (fun _ => setHeartbeatInterval interval)
        fun _ => setHeartbeatInterval interval := fun _ _ _ => rfl
      exact change_agrees agrees watchdog module
  | system change => rfl

/-- A run on the recorded system is a run on the system itself. -/
theorem recorded_run (names : List Str) (state : ω) (ops : List (Op ω)) :
    let fine := (machine os.recorded clock names ⟨state, []⟩).run (ops.map Op.recorded)
    let run := (machine os clock names state).run ops
    fine.state.mapSystem Recorded.system = run.state ∧
      fine.trace = run.trace.map fun item => (item.1.recorded, item.2) := by
  induction ops using List.reverseRecOn with
  | nil => exact ⟨new_recorded names state, rfl⟩
  | append_singleton ops op ih =>
      rcases ih with ⟨stateEq, traceEq⟩
      have step := step_recorded os clock names state
        ((machine os.recorded clock names ⟨state, []⟩).run (ops.map Op.recorded)).state op
      rw [stateEq] at step
      simp only [List.map_append, List.map_cons, List.map_nil, Machine.run_concat,
        Machine.extend_state, Machine.extend_trace, traceEq, step, List.map_map, true_and]
      rfl

end Watchdog

end Sentri.Core
