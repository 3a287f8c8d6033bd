import Sentri.Core.Watchdog.Visits

/-!
# The checks of the guard loop

What the guard loop does with a module whose process is there: it counts a late
heartbeat, and the fifth hands the module over; then it may lower the mortality rate.
-/

namespace Sentri.Core.Watchdog

open Sentri.Text Sentri.Transition

universe u

variable {ω : Type u} (os : Os ω) (clock : Clock)

/-! ## What a visit shows -/

def isRound (op : Op ω) : Bool :=
  match op with
  | .round => true
  | _ => false

def isHeartbeat (op : Op ω) : Bool :=
  match op with
  | .heartbeat _ => true
  | _ => false

def isSpawn (happening : Happening) : Bool :=
  match happening with
  | .spawned _ _ => true
  | _ => false

/-- The time from which the heartbeats of a new process count. -/
def shown? : Happening → Option Timepoint
  | .spawned shown _ => some shown
  | _ => none

/-- `resurrectModule` was called: it either reports a resurrection or removes the
queue of a module that it buries. -/
def isHandedOver (happening : Happening) : Bool :=
  match happening with
  | .resurrected => true
  | .queueRemoved => true
  | _ => false

namespace Visit

/-- The process of the module is there when the visit begins. -/
def alive (visit : Visit ω) : Bool :=
  (os.waitpid visit.world.os visit.data.pid).2 = 0

/-- The last heartbeat, as the watchdog has recorded it, is older than the heartbeat
interval. -/
def late (visit : Visit ω) : Bool :=
  clock.reading visit.world.ticks - visit.data.lastHeartbeat >
    milliseconds visit.data.heartbeatInterval.toNat

def handsOver (visit : Visit ω) : Bool :=
  visit.effect.2.2.any isHandedOver

end Visit

/-- A round finds the module running, alive and not buried, and its heartbeat
late. -/
def overdue (item : Op ω × Visit ω) : Bool :=
  isRound item.1 && item.2.data.running && !item.2.data.buried && item.2.alive os &&
    item.2.late clock

/-! ## The checks -/

/-- A heartbeat in time changes nothing; a late one is counted, and the fifth
hands the module over. -/
theorem checkHeartbeat_cases (module : Str) (world : World ω) (data : ModuleData) :
    let read : World ω := { world with ticks := world.ticks + 1 }
    let counted : ModuleData := { data with missedHeartbeats := data.missedHeartbeats + 1 }
    let late := clock.reading world.ticks - data.lastHeartbeat >
      milliseconds data.heartbeatInterval.toNat
    (¬ late ∧ checkHeartbeat os clock module world data = (read, data, [])) ∨
    (late ∧ data.missedHeartbeats + 1 < maxMissedHeartbeats ∧
      checkHeartbeat os clock module world data = (read, counted, [])) ∨
    (late ∧ maxMissedHeartbeats ≤ data.missedHeartbeats + 1 ∧
      checkHeartbeat os clock module world data =
        resurrectModule os clock module read counted) := by
  intro read counted late
  unfold checkHeartbeat
  by_cases overdue : late
  · by_cases many : maxMissedHeartbeats ≤ data.missedHeartbeats + 1
    · exact Or.inr (Or.inr ⟨overdue, many, by
          simp [late, read, counted] at overdue ⊢
          simp [overdue, many]⟩)
    · have few : data.missedHeartbeats + 1 < maxMissedHeartbeats := UInt32.not_le.mp many
      exact Or.inr (Or.inl ⟨overdue, few, by
          simp [late, read, counted] at overdue ⊢
          simp [overdue, many]⟩)
  · exact Or.inl ⟨overdue, by simp [late, read] at overdue ⊢; simp [overdue]⟩

/-- A stability check that is due lowers the rate by one at most. -/
theorem checkStability_cases (world : World ω) (data : ModuleData) :
    (clock.reading world.ticks - data.lastStabilityCheck ≥ milliseconds stabilityCheckInterval ∧
      ∃ rate : UInt32, rate.toNat = data.mortalityRate.toNat - 1 ∧
        (checkStability clock world data).1 = { world with ticks := world.ticks + 2 } ∧
        (checkStability clock world data).2.1 = { data with
          mortalityRate := rate
          lastStabilityCheck := clock.reading (world.ticks + 1) } ∧
        (checkStability clock world data).2.2 =
          [.checked (clock.reading world.ticks) data.running,
            .decreased (clock.reading world.ticks) data.mortalityRate rate]) ∨
    (clock.reading world.ticks - data.lastStabilityCheck < milliseconds stabilityCheckInterval ∧
      checkStability clock world data = ({ world with ticks := world.ticks + 1 }, data,
        [.checked (clock.reading world.ticks) data.running])) := by
  unfold checkStability
  by_cases due : clock.reading world.ticks - data.lastStabilityCheck ≥
      milliseconds stabilityCheckInterval
  · exact Or.inl ⟨due, _, Ledger.rate_decrease data.mortalityRate, by simp [due]⟩
  · exact Or.inr ⟨by linarith, by simp [due]⟩

/-- A stability check concerns the rate only. -/
theorem checkStability_quiet (world : World ω) (data : ModuleData) :
    let effect := checkStability clock world data
    effect.2.2.any isSpawn = false ∧ effect.2.2.any isHandedOver = false ∧
      effect.2.1.missedHeartbeats = data.missedHeartbeats ∧
      effect.2.1.running = data.running ∧ effect.2.1.buried = data.buried ∧
      effect.1.os = world.os := by
  intro effect
  rcases checkStability_cases clock world data with
    ⟨_, rate, _, worldEq, dataEq, happeningsEq⟩ | ⟨_, equal⟩
  · simp [effect, worldEq, dataEq, happeningsEq, isSpawn, isHandedOver]
  · simp [effect, equal, isSpawn, isHandedOver]

/-- A stability check leaves the heartbeats alone. -/
theorem checkStability_shown (world : World ω) (data : ModuleData) :
    let effect := checkStability clock world data
    effect.2.2.findSome? shown? = none ∧ effect.2.1.lastHeartbeat = data.lastHeartbeat ∧
      effect.2.1.heartbeatInterval = data.heartbeatInterval := by
  intro effect
  rcases checkStability_cases clock world data with
    ⟨_, rate, _, _, dataEq, happeningsEq⟩ | ⟨_, equal⟩
  · simp [effect, dataEq, happeningsEq, shown?]
  · simp [effect, equal, shown?]

/-- A resurrection that forks resets the counter and records a heartbeat, and any other
one leaves them. -/
theorem resurrectModule_missed (module : Str) (world : World ω) (data : ModuleData) :
    let effect := resurrectModule os clock module world data
    effect.2.2.any isHandedOver = true ∧
      effect.2.1.heartbeatInterval = data.heartbeatInterval ∧
      ((effect.2.2.findSome? shown? = some effect.2.1.lastHeartbeat ∧
          effect.2.1.missedHeartbeats = 0) ∨
        (effect.2.2.findSome? shown? = none ∧
          effect.2.1.missedHeartbeats = data.missedHeartbeats ∧
          effect.2.1.lastHeartbeat = data.lastHeartbeat)) := by
  intro effect
  rcases killModule_cases os world data with ⟨state, running, killed⟩
  by_cases below : data.mortalityRate < criticalMortalityRate
  · rcases spawnModule_cases os clock ⟨state, world.ticks⟩
        { data with running := running } with ⟨next, spawned⟩ | ⟨_, next, pid, spawned⟩
    · simp [effect, resurrectModule, killed, below, spawned, isHandedOver, shown?]
    · simp [effect, resurrectModule, killed, below, spawned, isHandedOver, List.findSome?_cons,
        shown?]
  · obtain ⟨next, running', buried⟩ := buryModule_cases os module
      ⟨state, world.ticks⟩ { data with running := running }
    simp [effect, resurrectModule, killed, below, buried, isHandedOver, shown?]

end Sentri.Core.Watchdog
