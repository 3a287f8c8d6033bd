import Sentri.Core.Watchdog.Checks

/-!
# Frames

What a function of the watchdog does to the operating system is made up of calls
for the pid of one module, and perhaps a fork.  A relation between states of the
system that these calls keep is kept by the function.
-/

namespace Sentri.Core

open Sentri.Text Sentri.Transition

universe u

/-- A preorder on the states of the system.  It is kept by the calls that are made
for a module with this pid, except the fork. -/
structure Os.Keeps {ω : Type u} (os : Os ω) (pid : Int) (related : ω → ω → Prop) : Prop where
  refl : ∀ state, related state state
  trans : ∀ {first second third}, related first second → related second third →
    related first third
  kill : ∀ state target, target = pid ∨ target = -pid → related state (os.kill state target)
  waitpid : ∀ state target, target = pid ∨ target = -pid →
    related state (os.waitpid state target).1

namespace Watchdog

section Frames

variable {ω : Type u} {os : Os ω} (clock : Clock) {related : ω → ω → Prop}

theorem awaitKilled_keeps {pid target : Int} (keeps : os.Keeps pid related)
    (aimed : target = pid ∨ target = -pid) (polls : Nat) (state : ω) :
    related state (awaitKilled os target polls state) := by
  induction polls generalizing state with
  | zero => exact keeps.waitpid state target aimed
  | succ polls ih =>
      have polled := keeps.waitpid state target aimed
      simp only [awaitKilled]
      split
      · exact polled
      · exact keeps.trans polled (ih _)

theorem killTarget_aimed (os : Os ω) (state : ω) (data : ModuleData) :
    killTarget os state data = data.pid ∨ killTarget os state data = -data.pid := by
  unfold killTarget
  split
  · exact Or.inr rfl
  · exact Or.inl rfl

/-- The calls of `killModule`; the last one decides about the flag. -/
theorem killModule_eq (os : Os ω) (world : World ω) (data : ModuleData) :
    let target := killTarget os world.os data
    let killed := os.kill world.os target
    let waited := os.waitpid (awaitKilled os target (os.killPolls killed) killed) target
    killModule os world data = ({ world with os := waited.1 },
      if waited.2 ≠ 0 then { data with running := false } else data) := by
  intro target killed waited
  unfold killModule
  dsimp only
  split <;> rfl

theorem killModule_keeps (world : World ω) (data : ModuleData)
    (keeps : os.Keeps data.pid related) : related world.os (killModule os world data).1.os := by
  rw [killModule_eq]
  have aimed := killTarget_aimed os world.os data
  apply keeps.trans (keeps.kill world.os _ aimed)
  apply keeps.trans (awaitKilled_keeps keeps aimed _ _)
  exact keeps.waitpid _ _ aimed

theorem buryModule_keeps (module : Str) (world : World ω) (data : ModuleData)
    (keeps : os.Keeps data.pid related) :
    related world.os (buryModule os module world data).1.os := by
  have polled := keeps.waitpid world.os data.pid (Or.inl rfl)
  unfold buryModule
  dsimp only
  split
  · exact keeps.trans polled
      (killModule_keeps { world with os := (os.waitpid world.os data.pid).1 } data keeps)
  · exact polled

theorem spawnModule_keeps (world : World ω) (data : ModuleData)
    (refl : related world.os world.os) (fork : related world.os (os.fork world.os).1) :
    related world.os (spawnModule os clock world data).1.os := by
  unfold spawnModule
  dsimp only
  split
  · split
    · exact fork
    · exact fork
  · exact refl

theorem killModule_pid (os : Os ω) (world : World ω) (data : ModuleData) :
    (killModule os world data).2.pid = data.pid ∧
      (killModule os world data).2.buried = data.buried ∧
      (killModule os world data).2.mortalityRate = data.mortalityRate := by
  rcases killModule_cases os world data with ⟨state, running, equal⟩
  rw [equal]
  exact ⟨rfl, rfl, rfl⟩

/-- What `resurrectModule` does after the call of `killModule`. -/
theorem resurrectModule_after (module : Str) (world : World ω) (data : ModuleData)
    (keeps : os.Keeps data.pid related)
    (fork : data.mortalityRate < criticalMortalityRate →
      ∀ state, related state (os.fork state).1) :
    related (killModule os world data).1.os
      (resurrectModule os clock module world data).1.os := by
  rcases killModule_pid os world data with ⟨samePid, _, sameRate⟩
  unfold resurrectModule
  dsimp only
  split
  · rename_i below
    rw [sameRate] at below
    exact spawnModule_keeps clock _ _ (keeps.refl _) (fork below _)
  · apply buryModule_keeps
    rw [samePid]
    exact keeps

theorem resurrectModule_keeps (module : Str) (world : World ω) (data : ModuleData)
    (keeps : os.Keeps data.pid related)
    (fork : data.mortalityRate < criticalMortalityRate →
      ∀ state, related state (os.fork state).1) :
    related world.os (resurrectModule os clock module world data).1.os :=
  keeps.trans (killModule_keeps world data keeps)
    (resurrectModule_after clock module world data keeps fork)

/-- The guard loop hands the module over to `resurrectModule`: its process is gone,
or it has missed too many heartbeats. -/
def HandsOver (os : Os ω) (clock : Clock) (world : World ω) (data : ModuleData) : Prop :=
  data.buried = false ∧ data.running = true ∧
    ((os.waitpid world.os data.pid).2 ≠ 0 ∨
      clock.reading world.ticks - data.lastHeartbeat >
        milliseconds data.heartbeatInterval.toNat ∧
      maxMissedHeartbeats ≤ data.missedHeartbeats + 1)

/-- The rule for the body of the guard loop.  The property does not speak of the rate,
and is shown for the cases in which nothing is done, the module is only looked at,
and it is handed over. -/
theorem guardModule_rule {holds : World ω → ModuleData → Prop} (module : Str) (world : World ω)
    (data : ModuleData)
    (stable : ∀ world data ticks rate time, holds world data →
      holds { world with ticks := ticks }
        { data with mortalityRate := rate, lastStabilityCheck := time })
    (idle : holds world data)
    (seen : data.buried = false → data.running = true → (os.waitpid world.os data.pid).2 = 0 →
      ∀ ticks missed, holds ⟨(os.waitpid world.os data.pid).1, ticks⟩
        { data with missedHeartbeats := missed })
    (handed : HandsOver os clock world data → ∀ ticks missed,
      let effect := resurrectModule os clock module ⟨(os.waitpid world.os data.pid).1, ticks⟩
        { data with missedHeartbeats := missed }
      holds effect.1 effect.2.1) :
    holds (guardModule os clock module world data).1
      (guardModule os clock module world data).2.1 := by
  let reaped : World ω := { world with os := (os.waitpid world.os data.pid).1 }
  rcases guardModule_cases os clock module world data with
    ⟨_, equal⟩ | ⟨free, running, gone, equal⟩ | ⟨free, running, zero, equal⟩
  · rw [equal]
    exact idle
  · rw [equal]
    exact handed ⟨free, running, Or.inl gone⟩ world.ticks data.missedHeartbeats
  · rw [equal]
    let stage := checkHeartbeat os clock module reaped data
    have checked : holds stage.1 stage.2.1 := by
      rcases checkHeartbeat_cases os clock module reaped data with
        ⟨_, same⟩ | ⟨_, _, same⟩ | ⟨late, many, same⟩
      · simp only [stage, same]
        exact seen free running zero _ data.missedHeartbeats
      · simp only [stage, same]
        exact seen free running zero _ _
      · simp only [stage, same]
        exact handed ⟨free, running, Or.inr ⟨late, many⟩⟩ _ _
    change holds (checkStability clock stage.1 stage.2.1).1
      (checkStability clock stage.1 stage.2.1).2.1
    rcases checkStability_cases clock stage.1 stage.2.1 with
      ⟨_, rate, _, worldEq, dataEq, _⟩ | ⟨_, same⟩
    · rw [worldEq, dataEq]
      exact stable _ _ _ _ _ checked
    · rw [same]
      exact stable _ _ _ stage.2.1.mortalityRate stage.2.1.lastStabilityCheck checked

theorem guardModule_keeps (module : Str) (world : World ω) (data : ModuleData)
    (keeps : os.Keeps data.pid related)
    (fork : HandsOver os clock world data → data.mortalityRate < criticalMortalityRate →
      ∀ state, related state (os.fork state).1) :
    related world.os (guardModule os clock module world data).1.os := by
  have polled := keeps.waitpid world.os data.pid (Or.inl rfl)
  let holds : World ω → ModuleData → Prop := fun after _ => related world.os after.os
  refine @guardModule_rule ω os clock holds module world data ?_ ?_ ?_ ?_
  · intro after _ _ _ _ held
    exact held
  · exact keeps.refl _
  · intro _ _ _ _ _
    exact polled
  · intro handed ticks missed
    apply keeps.trans polled
    exact resurrectModule_keeps clock module ⟨(os.waitpid world.os data.pid).1, ticks⟩
      { data with missedHeartbeats := missed } keeps (fork handed)

end Frames

end Watchdog

end Sentri.Core
