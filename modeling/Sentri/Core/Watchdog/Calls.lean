import Sentri.Core.Watchdog.Ownership

/-!
# Calls of `killModule`

The guard loop comes to `killModule` through `resurrectModule` and `buryModule`.
Every such call is listed here with the state in which it is made.
-/

namespace Sentri.Core

open Sentri.Text Sentri.Transition

universe u

namespace Watchdog

/-- A call of `killModule`. -/
structure KillCall (ω : Type u) where
  module : Str
  world : World ω
  data : ModuleData

variable {ω : Type u} (os : Os ω) (clock : Clock) (module : Str)

/-- The calls of `killModule` that `buryModule` makes. -/
def buryCalls (world : World ω) (data : ModuleData) : List (KillCall ω) :=
  let (state, result) := os.waitpid world.os data.pid
  let world := { world with os := state }
  if result = 0 then [⟨module, world, data⟩] else []

def resurrectCalls (world : World ω) (data : ModuleData) : List (KillCall ω) :=
  let call : KillCall ω := ⟨module, world, data⟩
  let (world, data) := killModule os world data
  call :: if data.mortalityRate < criticalMortalityRate then [] else buryCalls os module world data

def checkHeartbeatCalls (world : World ω) (data : ModuleData) : List (KillCall ω) :=
  let now := clock.reading world.ticks
  let world := { world with ticks := world.ticks + 1 }
  if now - data.lastHeartbeat > milliseconds data.heartbeatInterval.toNat then
    let data := { data with missedHeartbeats := data.missedHeartbeats + 1 }
    if data.missedHeartbeats ≥ maxMissedHeartbeats then
      resurrectCalls os module world data
    else
      []
  else
    []

def guardCalls (world : World ω) (data : ModuleData) : List (KillCall ω) :=
  if !data.buried then
    if data.running then
      let (state, result) := os.waitpid world.os data.pid
      let world := { world with os := state }
      if result = 0 then
        checkHeartbeatCalls os clock module world data
      else
        resurrectCalls os module world data
    else
      []
  else
    []

variable {os clock module}

/-- The stability check touches neither the system nor the process of the module. -/
theorem checkStability_process (world : World ω) (data : ModuleData) :
    (checkStability clock world data).1.os = world.os ∧
      (checkStability clock world data).2.1.running = data.running ∧
      (checkStability clock world data).2.1.pid = data.pid := by
  rcases checkStability_cases clock world data with ⟨_, _, _, worldEq, dataEq, _⟩ | ⟨_, same⟩
  · rw [worldEq, dataEq]
    exact ⟨rfl, rfl, rfl⟩
  · rw [same]
    exact ⟨rfl, rfl, rfl⟩

theorem checkHeartbeatCalls_cases (world : World ω) (data : ModuleData) :
    let effect := checkHeartbeat os clock module world data
    (checkHeartbeatCalls os clock module world data = [] ∧ effect.1.os = world.os ∧
      effect.2.1.running = data.running ∧ effect.2.1.pid = data.pid) ∨
    ∃ ticks missed,
      let handed : World ω := ⟨world.os, ticks⟩
      let counted := { data with missedHeartbeats := missed }
      checkHeartbeatCalls os clock module world data = resurrectCalls os module handed counted ∧
        effect = resurrectModule os clock module handed counted := by
  intro effect
  rcases checkHeartbeat_cases os clock module world data with
    ⟨early, same⟩ | ⟨late, few, same⟩ | ⟨late, many, same⟩
  · left
    rw [show effect = _ from same]
    exact ⟨by simp [checkHeartbeatCalls, early], rfl, rfl, rfl⟩
  · left
    rw [show effect = _ from same]
    exact ⟨by simp [checkHeartbeatCalls, late, few], rfl, rfl, rfl⟩
  · right
    exact ⟨world.ticks + 1, data.missedHeartbeats + 1,
      by simp [checkHeartbeatCalls, late, many], same⟩

/-- The calls of the guard loop are those of `resurrectModule`, if there are any. -/
theorem guardCalls_cases (world : World ω) (data : ModuleData) :
    let effect := guardModule os clock module world data
    let state := (os.waitpid world.os data.pid).1
    (guardCalls os clock module world data = [] ∧
      (effect.1.os = world.os ∨ effect.1.os = state) ∧
      effect.2.1.running = data.running ∧ effect.2.1.pid = data.pid) ∨
    ∃ ticks missed,
      let handed : World ω := ⟨state, ticks⟩
      let counted := { data with missedHeartbeats := missed }
      let resurrected := resurrectModule os clock module handed counted
      guardCalls os clock module world data = resurrectCalls os module handed counted ∧
        effect.1.os = resurrected.1.os ∧ effect.2.1.running = resurrected.2.1.running ∧
        effect.2.1.pid = resurrected.2.1.pid := by
  intro effect state
  let reaped : World ω := { world with os := state }
  rcases guardModule_cases os clock module world data with
    ⟨idle, equal⟩ | ⟨free, running, gone, equal⟩ | ⟨free, running, zero, equal⟩
  · left
    constructor
    · rcases idle with buried | stopped
      · simp [guardCalls, buried]
      · simp [guardCalls, stopped]
    · rw [show effect = (world, data, []) from equal]
      exact ⟨Or.inl rfl, rfl, rfl⟩
  · right
    refine ⟨world.ticks, data.missedHeartbeats, ?_⟩
    intro handed counted resurrected
    have calls : guardCalls os clock module world data =
        resurrectCalls os module handed counted := by
      simp only [guardCalls, free, running, Bool.not_false, if_true]
      exact if_neg gone
    rw [calls, show effect = resurrected from equal]
    exact ⟨rfl, rfl, rfl, rfl⟩
  · have calls : guardCalls os clock module world data =
        checkHeartbeatCalls os clock module reaped data := by
      simp [guardCalls, free, running, zero, reaped, state]
    let stage := checkHeartbeat os clock module reaped data
    have effectEq : effect.1.os = stage.1.os ∧ effect.2.1.running = stage.2.1.running ∧
        effect.2.1.pid = stage.2.1.pid := by
      simp only [effect, equal]
      exact checkStability_process stage.1 stage.2.1
    rw [effectEq.1, effectEq.2.1, effectEq.2.2, calls]
    rcases @checkHeartbeatCalls_cases ω os clock module reaped data with
      ⟨noCalls, osEq, rest⟩ | ⟨ticks, missed, calls, same⟩
    · exact Or.inl ⟨noCalls, Or.inr osEq, rest⟩
    · right
      refine ⟨ticks, missed, calls, ?_⟩
      rw [show stage = _ from same]
      exact ⟨rfl, rfl, rfl⟩

/-- Burying kills the process if it is still there. -/
theorem buryCalls_cases (world : World ω) (data : ModuleData) :
    let effect := buryModule os module world data
    let polled := os.waitpid world.os data.pid
    let killed := killModule os { world with os := polled.1 } data
    (buryCalls os module world data = [⟨module, { world with os := polled.1 }, data⟩] ∧
      effect.1.os = killed.1.os ∧ effect.2.1.running = killed.2.running ∧
      effect.2.1.pid = killed.2.pid) ∨
    (buryCalls os module world data = [] ∧ effect.1.os = polled.1 ∧
      effect.2.1.running = data.running ∧ effect.2.1.pid = data.pid) := by
  intro effect polled killed
  by_cases zero : polled.2 = 0
  · left
    simp only [effect, buryModule, buryCalls]
    rw [if_pos (show (os.waitpid world.os data.pid).2 = 0 from zero),
      if_pos (show (os.waitpid world.os data.pid).2 = 0 from zero)]
    exact ⟨rfl, rfl, rfl, rfl⟩
  · right
    simp only [effect, buryModule, buryCalls]
    rw [if_neg (show ¬ (os.waitpid world.os data.pid).2 = 0 from zero),
      if_neg (show ¬ (os.waitpid world.os data.pid).2 = 0 from zero)]
    exact ⟨rfl, rfl, rfl, rfl⟩

/-- After the killing the module is spawned again or buried. -/
theorem resurrectCalls_cases (world : World ω) (data : ModuleData) :
    let effect := resurrectModule os clock module world data
    let call : KillCall ω := ⟨module, world, data⟩
    let killed := killModule os world data
    let spawned := spawnModule os clock killed.1 killed.2
    (resurrectCalls os module world data = [call] ∧ effect.1.os = spawned.1.os ∧
      effect.2.1.running = spawned.2.1.running ∧ effect.2.1.pid = spawned.2.1.pid) ∨
    (resurrectCalls os module world data = call :: buryCalls os module killed.1 killed.2 ∧
      effect = buryModule os module killed.1 killed.2) := by
  intro effect call killed spawned
  by_cases below : killed.2.mortalityRate < criticalMortalityRate
  · left
    simp only [effect, resurrectModule, resurrectCalls]
    rw [if_pos below, if_pos below]
    exact ⟨rfl, rfl, rfl, rfl⟩
  · right
    simp only [effect, resurrectModule, resurrectCalls]
    rw [if_neg below, if_neg below]
    exact ⟨rfl, rfl⟩

variable {related : ω → ω → Prop}

/-- A call that is made for the pid of the module in a state that came later. -/
def KillCall.Follows (related : ω → ω → Prop) (world : World ω) (data : ModuleData)
    (call : KillCall ω) : Prop :=
  call.data.pid = data.pid ∧ related world.os call.world.os

theorem buryCalls_follow (world : World ω) (data : ModuleData) (keeps : os.Keeps data.pid related) :
    ∀ call ∈ buryCalls os module world data, call.Follows related world data := by
  intro call member
  simp only [buryCalls] at member
  split at member
  · rw [List.mem_singleton.mp member]
    exact ⟨rfl, keeps.waitpid world.os data.pid (Or.inl rfl)⟩
  · cases member

theorem resurrectCalls_follow (world : World ω) (data : ModuleData)
    (keeps : os.Keeps data.pid related) :
    ∀ call ∈ resurrectCalls os module world data, call.Follows related world data := by
  have samePid := (killModule_pid os world data).1
  intro call member
  simp only [resurrectCalls] at member
  rcases List.mem_cons.mp member with rfl | later
  · exact ⟨rfl, keeps.refl _⟩
  · split at later
    · cases later
    · have keeps' : os.Keeps (killModule os world data).2.pid related := by
        rw [samePid]
        exact keeps
      rcases buryCalls_follow _ _ keeps' call later with ⟨pid, after⟩
      exact ⟨pid.trans samePid, keeps.trans (killModule_keeps world data keeps) after⟩

theorem guardCalls_follow (world : World ω) (data : ModuleData)
    (keeps : os.Keeps data.pid related) :
    ∀ call ∈ guardCalls os clock module world data, call.Follows related world data := by
  rcases @guardCalls_cases ω os clock module world data with
    ⟨noCalls, _⟩ | ⟨ticks, missed, same, _⟩
  · simp [noCalls]
  · intro call member
    rw [same] at member
    have keeps' : os.Keeps ({ data with missedHeartbeats := missed } : ModuleData).pid related :=
      keeps
    rcases resurrectCalls_follow _ _ keeps' call member with ⟨pid, after⟩
    exact ⟨pid, keeps.trans (keeps.waitpid world.os data.pid (Or.inl rfl)) after⟩

/-- An operating system that notes every signal. -/
structure Notes {κ : Type u} (os : Os ω) (log : ω → List κ) (entry : ω → Int → κ) : Prop where
  fork : ∀ state, log (os.fork state).1 = log state
  waitpid : ∀ state target, log (os.waitpid state target).1 = log state
  kill : ∀ state target, log (os.kill state target) = log state ++ [entry state target]

section Notes

variable {κ : Type u} {log : ω → List κ} {entry : ω → Int → κ}
  (notes : Notes os log entry)

include notes

theorem awaitKilled_notes (target : Int) (polls : Nat) (state : ω) :
    log (awaitKilled os target polls state) = log state := by
  induction polls generalizing state with
  | zero => exact notes.waitpid state target
  | succ polls ih =>
      simp only [awaitKilled]
      split
      · exact notes.waitpid state target
      · exact (ih _).trans (notes.waitpid state target)

theorem killModule_notes (world : World ω) (data : ModuleData) :
    log (killModule os world data).1.os =
      log world.os ++ [entry world.os (killTarget os world.os data)] := by
  rw [killModule_eq, notes.waitpid, awaitKilled_notes notes, notes.kill]

theorem spawnModule_notes (world : World ω) (data : ModuleData) :
    log (spawnModule os clock world data).1.os = log world.os :=
  @spawnModule_keeps ω os clock (fun state next => log next = log state) world data rfl
    (notes.fork world.os)

theorem buryModule_notes (world : World ω) (data : ModuleData) :
    log (buryModule os module world data).1.os =
      log world.os ++ (buryCalls os module world data).map fun call =>
        entry call.world.os (killTarget os call.world.os call.data) := by
  rcases @buryCalls_cases ω os module world data with ⟨calls, osEq, _⟩ | ⟨calls, osEq, _⟩
  · rw [calls, osEq, killModule_notes notes, notes.waitpid]
    rfl
  · rw [calls, osEq, notes.waitpid]
    simp

theorem resurrectModule_notes (world : World ω) (data : ModuleData) :
    log (resurrectModule os clock module world data).1.os =
      log world.os ++ (resurrectCalls os module world data).map fun call =>
        entry call.world.os (killTarget os call.world.os call.data) := by
  rcases @resurrectCalls_cases ω os clock module world data with ⟨calls, osEq, _⟩ | ⟨calls, equal⟩
  · rw [calls, osEq, spawnModule_notes notes, killModule_notes notes]
    rfl
  · rw [calls, equal, buryModule_notes notes, killModule_notes notes]
    simp

/-- The calls are those that send a signal. -/
theorem guardModule_notes (world : World ω) (data : ModuleData) :
    log (guardModule os clock module world data).1.os =
      log world.os ++ (guardCalls os clock module world data).map fun call =>
        entry call.world.os (killTarget os call.world.os call.data) := by
  rcases @guardCalls_cases ω os clock module world data with
    ⟨calls, osEq, _⟩ | ⟨ticks, missed, calls, osEq, _⟩
  · rcases osEq with unchanged | polled
    · rw [calls, unchanged]
      simp
    · rw [calls, polled, notes.waitpid]
      simp
  · rw [calls, osEq, resurrectModule_notes notes, notes.waitpid]

end Notes

theorem kernel_notes (env : Environment) :
    Notes (Kernel.os env module) Kernel.kills fun kernel target =>
      ⟨module, target, (kernel.elapse env).processes⟩ where
  fork kernel := by
    rcases Kernel.fork_cases env kernel module with failed | ⟨pid, _, _, _, forked⟩
    · exact congrArg (fun result => result.1.kills) failed
    · exact congrArg (fun result => result.1.kills) forked
  waitpid kernel target := (Kernel.waitpid_coreGroup env kernel target).2
  kill _ _ := rfl

/-- Over a process table, the calls of `kill` are those of `killModule`. -/
theorem guardModule_kills (env : Environment) (world : World Kernel) (data : ModuleData) :
    (guardModule (Kernel.os env module) clock module world data).1.os.kills = world.os.kills ++
      (guardCalls (Kernel.os env module) clock module world data).map fun call =>
        ⟨module, killTarget (Kernel.os env module) call.world.os call.data,
          (call.world.os.elapse env).processes⟩ :=
  guardModule_notes (kernel_notes env) world data

end Watchdog

end Sentri.Core
