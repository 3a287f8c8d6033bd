import Sentri.Core.Watchdog.Supervision

/-!
# The mortality rate of buried modules

A module is buried when its rate is critical, but the visit that buries it goes
on to the stability check, which may take one off again.
-/

namespace Sentri.Core.Watchdog

open Sentri.Text Sentri.Transition

universe u

variable {ω : Type u} {os : Os ω} {clock : Clock}

/-- A round misses the last heartbeat of a module whose rate is just critical, and
its stability check is due. -/
def Slips (os : Os ω) (clock : Clock) (item : Op ω × Visit ω) : Prop :=
  overdue os clock item = true ∧
    maxMissedHeartbeats ≤ item.2.data.missedHeartbeats + 1 ∧
    item.2.data.mortalityRate = criticalMortalityRate ∧
    milliseconds stabilityCheckInterval ≤
      clock.reading (item.2.world.ticks + 1) - item.2.data.lastStabilityCheck

/-- A module is buried with a critical rate exactly when no visit slips. -/
structure Critical (os : Os ω) (clock : Clock) (data : ModuleData)
    (items : List (Op ω × Visit ω)) : Prop where
  alive : data.buried = false → ∀ item ∈ items, ¬ Slips os clock item
  buried : data.buried = true →
    (criticalMortalityRate ≤ data.mortalityRate ↔ ∀ item ∈ items, ¬ Slips os clock item)

namespace Critical

variable {data next : ModuleData} {items : List (Op ω × Visit ω)} {item : Op ω × Visit ω}

/-- A visit that neither buries nor slips. -/
theorem pass (critical : Critical os clock data items) (steady : ¬ Slips os clock item)
    (buried : next.buried = data.buried)
    (rate : data.buried = true → next.mortalityRate = data.mortalityRate) :
    Critical os clock next (items ++ [item]) where
  alive := by
    intro free
    rw [List.forall_mem_append, List.forall_mem_singleton]
    exact ⟨critical.alive (buried.symm.trans free), steady⟩
  buried := by
    intro isBuried
    have wasBuried := buried.symm.trans isBuried
    rw [rate wasBuried, critical.buried wasBuried, List.forall_mem_append,
      List.forall_mem_singleton, and_iff_left steady]

/-- A visit that buries a module. -/
theorem bury (critical : Critical os clock data items) (free : data.buried = false)
    (isBuried : next.buried = true)
    (slips : criticalMortalityRate ≤ next.mortalityRate ↔ ¬ Slips os clock item) :
    Critical os clock next (items ++ [item]) where
  alive := by
    intro isFree
    rw [isBuried] at isFree
    cases isFree
  buried := by
    intro _
    rw [slips, List.forall_mem_append, List.forall_mem_singleton,
      and_iff_right (critical.alive free)]

end Critical

variable (clock) in
/-- A stability check keeps a critical rate critical, unless it is due and the rate
is just critical. -/
theorem checkStability_critical (world : World ω) {data : ModuleData}
    (critical : criticalMortalityRate ≤ data.mortalityRate) :
    criticalMortalityRate ≤ (checkStability clock world data).2.1.mortalityRate ↔
      ¬ (data.mortalityRate = criticalMortalityRate ∧ milliseconds stabilityCheckInterval ≤
        clock.reading world.ticks - data.lastStabilityCheck) := by
  have large : 100 ≤ data.mortalityRate.toNat := UInt32.le_iff_toNat_le.mp critical
  have criticalIff : data.mortalityRate = criticalMortalityRate ↔ data.mortalityRate.toNat = 100 :=
    UInt32.toNat_inj.symm
  rcases checkStability_cases clock world data with
    ⟨due, rate, lower, _, dataEq, _⟩ | ⟨early, equal⟩
  · rw [dataEq, UInt32.le_iff_toNat_le, criticalIff]
    change 100 ≤ rate.toNat ↔ _
    have isDue : milliseconds stabilityCheckInterval ≤
        clock.reading world.ticks - data.lastStabilityCheck := due
    simp only [isDue, and_true]
    omega
  · have notDue : ¬ milliseconds stabilityCheckInterval ≤
        clock.reading world.ticks - data.lastStabilityCheck := not_le.mpr early
    simp [equal, critical, notDue]

variable (os clock) in
/-- A resurrection buries with a critical rate, or it does not bury. -/
theorem resurrectModule_critical (module : Str) (world : World ω) (data : ModuleData) :
    let effect := resurrectModule os clock module world data
    (data.mortalityRate < criticalMortalityRate ∧ effect.2.1.buried = data.buried) ∨
      (criticalMortalityRate ≤ data.mortalityRate ∧ effect.2.1.buried = true ∧
        effect.2.1.mortalityRate = data.mortalityRate ∧ effect.1.ticks = world.ticks ∧
        effect.2.1.lastStabilityCheck = data.lastStabilityCheck) := by
  intro effect
  rcases killModule_cases os world data with ⟨state, running, killed⟩
  by_cases below : data.mortalityRate < criticalMortalityRate
  · left
    refine ⟨below, ?_⟩
    rcases spawnModule_cases os clock ⟨state, world.ticks⟩
        { data with running := running } with ⟨next, spawned⟩ | ⟨_, next, pid, spawned⟩
    · simp [effect, resurrectModule, killed, below, spawned]
    · simp [effect, resurrectModule, killed, below, spawned]
  · right
    obtain ⟨next, running', buried⟩ := buryModule_cases os module
      ⟨state, world.ticks⟩ { data with running := running }
    simp [effect, resurrectModule, killed, below, buried, UInt32.not_lt.mp below]

/-- When a visit to a module is overdue. -/
theorem overdue_round (module : Str) (world : World ω) (data : ModuleData) (effect : Effect ω) :
    overdue os clock ((.round : Op ω), ⟨module, world, data, effect⟩) =
      (data.running && !data.buried && decide ((os.waitpid world.os data.pid).2 = 0) &&
        decide (clock.reading world.ticks - data.lastHeartbeat >
          milliseconds data.heartbeatInterval.toNat)) :=
  rfl

/-- A visit of the guard loop to a module whose process is there. -/
theorem Critical.guard_alive {data : ModuleData} {items : List (Op ω × Visit ω)} (module : Str)
    (world : World ω) (critical : Critical os clock data items) (free : data.buried = false)
    (running : data.running = true) (alive : (os.waitpid world.os data.pid).2 = 0)
    (effect : Effect ω) :
    let reaped : World ω := { world with os := (os.waitpid world.os data.pid).1 }
    let stage := checkHeartbeat os clock module reaped data
    Critical os clock (checkStability clock stage.1 stage.2.1).2.1
      (items ++ [(.round, ⟨module, world, data, effect⟩)]) := by
  intro reaped stage
  have sameBuried : (checkStability clock stage.1 stage.2.1).2.1.buried = stage.2.1.buried := by
    rcases checkStability_quiet clock stage.1 stage.2.1 with ⟨_, _, _, _, same, _⟩
    exact same
  have notBuried : ∀ {P : Prop}, data.buried = true → P := by
    intro P buried
    rw [free] at buried
    cases buried
  rcases checkHeartbeat_cases os clock module reaped data with
    ⟨inTime, checked⟩ | ⟨_, few, checked⟩ | ⟨late, many, checked⟩
  · refine critical.pass ?_ (sameBuried.trans ?_) notBuried
    · rintro ⟨isOverdue, _⟩
      rw [overdue_round, Bool.and_eq_true, decide_eq_true_eq] at isOverdue
      exact inTime isOverdue.2
    · simp only [stage, checked]
  · refine critical.pass ?_ (sameBuried.trans ?_) notBuried
    · rintro ⟨_, many, _⟩
      exact absurd many (UInt32.not_le.mpr few)
    · simp only [stage, checked]
  · have isOverdue : overdue os clock
        ((.round : Op ω), ⟨module, world, data, effect⟩) = true := by
      rw [overdue_round]
      simp only [running, free, alive, Bool.not_false, Bool.and_self, decide_true,
        Bool.true_and, decide_eq_true_eq]
      exact late
    rcases resurrectModule_critical os clock module
        { reaped with ticks := reaped.ticks + 1 }
        { data with missedHeartbeats := data.missedHeartbeats + 1 } with
      ⟨below, same⟩ | ⟨large, buried, rate, ticks, stability⟩
    · rw [← checked] at same
      refine critical.pass ?_ (sameBuried.trans same) notBuried
      rintro ⟨_, _, just, _⟩
      change data.mortalityRate < criticalMortalityRate at below
      rw [show data.mortalityRate = _ from just] at below
      exact absurd below (UInt32.lt_irrefl _)
    · rw [← checked] at buried rate ticks stability
      refine critical.bury free (sameBuried.trans buried) ?_
      have kept : criticalMortalityRate ≤ stage.2.1.mortalityRate := rate ▸ large
      have step := checkStability_critical clock stage.1 kept
      rw [show stage.2.1.mortalityRate = _ from rate, show stage.1.ticks = _ from ticks,
        show stage.2.1.lastStabilityCheck = _ from stability] at step
      refine step.trans (not_congr ?_)
      constructor
      · rintro ⟨just, due⟩
        exact ⟨isOverdue, many, just, due⟩
      · rintro ⟨_, _, just, due⟩
        exact ⟨just, due⟩

theorem Critical.guard {data : ModuleData} {items : List (Op ω × Visit ω)} (module : Str)
    (world : World ω) (critical : Critical os clock data items) :
    Critical os clock (guardModule os clock module world data).2.1
      (items ++ [(.round, ⟨module, world, data, guardModule os clock module world data⟩)]) := by
  let reaped : World ω := { world with os := (os.waitpid world.os data.pid).1 }
  rcases guardModule_cases os clock module world data with
    ⟨idle, equal⟩ | ⟨free, running, dead, equal⟩ | ⟨free, running, alive, equal⟩
  · rw [equal]
    refine critical.pass ?_ rfl fun _ => rfl
    rintro ⟨isOverdue, _⟩
    rw [overdue_round] at isOverdue
    rcases idle with buried | stopped
    · simp [buried] at isOverdue
    · simp [stopped] at isOverdue
  · have steady : ∀ effect, ¬ Slips os clock ((.round : Op ω), ⟨module, world, data, effect⟩) := by
      rintro effect ⟨isOverdue, _⟩
      rw [overdue_round] at isOverdue
      simp [dead] at isOverdue
    rw [equal]
    rcases resurrectModule_critical os clock module reaped data with
      ⟨_, same⟩ | ⟨large, buried, rate, _⟩
    · exact critical.pass (steady _) same fun buried => absurd buried (by simp [free])
    · have stays : criticalMortalityRate ≤
          (resurrectModule os clock module reaped data).2.1.mortalityRate := rate ▸ large
      exact critical.bury free buried (iff_of_true stays (steady _))
  · rw [equal]
    exact critical.guard_alive module world free running alive _

theorem critical_run (os : Os ω) (clock : Clock) (names : List Str) (state : ω)
    (ops : List (Op ω)) :
    Everywhere (fun _ _ data items => Critical os clock data items)
      ((observer os clock names state).run ops) := by
  refine everywhere_run names state ?_ ?_ ?_ ops
  · intro module ticks later data items _ critical
    exact critical
  · intro module ticks now
    constructor
    · intro _
      simp
    · intro buried
      cases buried
  · intro op effect equal module world data items critical
    cases op, effect, equal using called_cases with
    | start =>
        refine critical.pass ?_ ?_ ?_
        · rintro ⟨isOverdue, _⟩
          cases isOverdue
        · rcases spawnModule_cases os clock world data with
            ⟨next, spawned⟩ | ⟨_, next, pid, spawned⟩
          · simp only [spawned]
          · simp only [spawned]
        · rcases spawnModule_cases os clock world data with
            ⟨next, spawned⟩ | ⟨_, next, pid, spawned⟩
          · simp only [spawned, implies_true]
          · simp only [spawned, implies_true]
    | round =>
        exact critical.guard module world
    | heartbeat name =>
        refine critical.pass ?_ rfl fun _ => rfl
        rintro ⟨isOverdue, _⟩
        cases isOverdue
    | setHeartbeatInterval name interval =>
        refine critical.pass ?_ rfl fun _ => rfl
        rintro ⟨isOverdue, _⟩
        cases isOverdue

/-- The buried modules keep a critical mortality rate exactly when no round so far
has buried a module whose rate was just critical and whose stability check was
due. -/
theorem buried_critical_iff (os : Os ω) (clock : Clock) (names : List Str) (state : ω)
    (ops : List (Op ω)) :
    let run := (observer os clock names state).run ops
    (∀ (module : Str) (data : ModuleData), run.state.modules[module]? = some data →
        data.buried = true → criticalMortalityRate ≤ data.mortalityRate) ↔
      ∀ item ∈ run.trace, ¬ Slips os clock item := by
  intro run
  have critical := critical_run os clock names state ops
  constructor
  · intro all item member slips
    rcases visited_known os clock names state ops item member with ⟨data, present⟩
    have here : item ∈ visitsTo item.2.module run.trace := mem_visitsTo.mpr ⟨member, rfl⟩
    have law := critical item.2.module data present
    cases buried : data.buried with
    | false => exact law.alive buried item here slips
    | true => exact (law.buried buried).mp (all _ data present buried) item here slips
  · intro steady module data present buried
    apply ((critical module data present).buried buried).mpr
    intro item member
    exact steady item (mem_visitsTo.mp member).1

/-- Ten resurrections of a dead module, and then a module that falls silent. -/
def slippingOps : List (Op Bool) :=
  .start :: (List.replicate 10 [.system fun _ => false, .round]).flatten ++
    List.replicate 5 .round

/-- Eleven seconds pass before the first heartbeat is missed, and sixty one before
the fifth. -/
def slippingClock : Clock :=
  Clock.ofList 0 (List.replicate 22 0 ++ [11000000000] ++ List.replicate 7 0 ++ [50000000000])

/-- A module is buried with a rate of 99. -/
theorem buried_below_critical :
    ¬ ∀ (os : Os Bool) (clock : Clock) (ops : List (Op Bool)) (module : Str)
      (data : ModuleData),
      ((machine os clock ["module_sms".toList] true).run ops).state.modules[module]? =
        some data → data.buried = true → criticalMortalityRate ≤ data.mortalityRate := by
  intro always
  let run := (machine silent slippingClock ["module_sms".toList] true).run slippingOps
  obtain ⟨data, present, buried, rate⟩ : ∃ data,
      run.state.modules["module_sms".toList]? = some data ∧ data.buried = true ∧
        data.mortalityRate = 99 := by
    refine ⟨(run.state.modules["module_sms".toList]?).getD (newModule 0), ?_, ?_, ?_⟩ <;>
      decide +kernel
  have critical := always silent slippingClock slippingOps "module_sms".toList data present buried
  rw [rate] at critical
  exact absurd critical (by decide)

end Sentri.Core.Watchdog
