import Mathlib.Algebra.BigOperators.Group.List.Basic
import Sentri.Core.Watchdog.Runs

/-!
# The mortality rate

The mortality rate of a module is what its resurrections added less what the
stability checks took away.  Stability checks that succeed are a stability
interval apart, so the rate limits how often a module is restarted.
-/

namespace Sentri.Core.Watchdog

open Sentri.Text Sentri.Transition

universe u

variable {ω : Type u} {os : Os ω} {clock : Clock}

/-! ## Counting -/

/-- The time from which the next stability interval counts. -/
def stamp? : Happening → Option Timepoint
  | .spawned _ time => some time
  | .decreased time _ _ => some time
  | _ => none

/-- The watchdog restarts the module, whether the fork succeeds or not. -/
def isResurrection (item : Op ω × Happening) : Bool :=
  match item.2 with
  | .resurrected => true
  | _ => false

/-- A successful fork after the one at the start. -/
def isRespawn (item : Op ω × Happening) : Bool :=
  match item with
  | (.start, _) => false
  | (_, .spawned _ _) => true
  | _ => false

def isDecrease (item : Op ω × Happening) : Bool :=
  match item.2 with
  | .decreased _ _ _ => true
  | _ => false

/-- What a happening takes away from the mortality rate. -/
def loweredBy (item : Op ω × Happening) : Nat :=
  match item.2 with
  | .decreased _ before after => before.toNat - after.toNat
  | _ => 0

def resurrections (items : List (Op ω × Happening)) : Nat :=
  items.countP isResurrection

def respawns (items : List (Op ω × Happening)) : Nat :=
  items.countP isRespawn

def decreases (items : List (Op ω × Happening)) : Nat :=
  items.countP isDecrease

def lowered (items : List (Op ω × Happening)) : Nat :=
  (items.map loweredBy).sum

/-- A decrease comes a stability interval after every earlier decrease and every
earlier spawn. -/
def Apart (before : List (Op ω × Happening)) (item : Op ω × Happening) : Prop :=
  isDecrease item → ∀ time, stamp? item.2 = some time →
    ∀ earlier ∈ before, ∀ stamp, stamp? earlier.2 = some stamp →
      stamp + milliseconds stabilityCheckInterval ≤ time

/-- A running module is found up for less than a stability interval. -/
def FoundYoung (before : List (Op ω × Happening)) (item : Op ω × Happening) : Prop :=
  ∀ time, item.2 = .checked time true →
    ∃ earlier ∈ before, ∃ shown spawned, earlier.2 = .spawned shown spawned ∧
      time < spawned + milliseconds stabilityCheckInterval

section Append

variable (first second : List (Op ω × Happening))

@[simp]
theorem resurrections_append :
    resurrections (first ++ second) = resurrections first + resurrections second := by
  simp [resurrections]

@[simp]
theorem respawns_append : respawns (first ++ second) = respawns first + respawns second := by
  simp [respawns]

@[simp]
theorem decreases_append : decreases (first ++ second) = decreases first + decreases second := by
  simp [decreases]

@[simp]
theorem lowered_append : lowered (first ++ second) = lowered first + lowered second := by
  simp [lowered]

variable {first}

theorem decreases_eq_zero (noDecrease : ∀ item ∈ first, isDecrease item = false) :
    decreases first = 0 := by
  rw [decreases, List.countP_eq_zero]
  intro item member
  simp [noDecrease item member]

theorem lowered_eq_zero (noDecrease : ∀ item ∈ first, isDecrease item = false) :
    lowered first = 0 := by
  apply List.sum_eq_zero
  intro amount member
  obtain ⟨⟨op, happening⟩, itemMember, rfl⟩ := List.mem_map.mp member
  have := noDecrease _ itemMember
  cases happening <;> simp_all [isDecrease, loweredBy]

end Append

/-! ## What the functions do to a module -/

/-- What `resurrectModule` makes of a module: it is running again, or the rate
grew for nothing, or it is buried. -/
inductive Revived (clock : Clock) (module : Str) (ticks : Nat) (data : ModuleData) :
    Nat → ModuleData → List Happening → Prop
  | restarted (pid : Int) (missed : UInt32) (below : data.mortalityRate < criticalMortalityRate) :
      Revived clock module ticks data (ticks + 2)
        { data with
          running := true
          pid := pid
          lastHeartbeat := clock.reading ticks
          missedHeartbeats := missed
          lastStabilityCheck := clock.reading (ticks + 1)
          mortalityRate := data.mortalityRate + mortalityStep }
        [.spawned (clock.reading ticks) (clock.reading (ticks + 1)), .resurrected]
  | failed (running : Bool) (below : data.mortalityRate < criticalMortalityRate) :
      Revived clock module ticks data ticks
        { data with
          running := running
          mortalityRate := data.mortalityRate + mortalityStep }
        [.resurrected]
  | buried (running : Bool) :
      Revived clock module ticks data ticks { data with running := running, buried := true }
        [.queueRemoved, .systemMessage (buriedMessage module)]

variable (os) in
theorem killModule_cases (world : World ω) (data : ModuleData) :
    ∃ state running, killModule os world data =
      (⟨state, world.ticks⟩, { data with running := running }) := by
  unfold killModule
  dsimp only
  split
  · exact ⟨_, false, rfl⟩
  · exact ⟨_, data.running, rfl⟩

variable (os clock) in
theorem spawnModule_cases (world : World ω) (data : ModuleData) :
    (∃ state, spawnModule os clock world data = (⟨state, world.ticks⟩, data, [])) ∨
      data.running = false ∧ ∃ state pid, spawnModule os clock world data =
        (⟨state, world.ticks + 2⟩,
          { data with
            running := true
            pid := pid
            lastHeartbeat := clock.reading world.ticks
            missedHeartbeats := 0
            lastStabilityCheck := clock.reading (world.ticks + 1) },
          [.spawned (clock.reading world.ticks) (clock.reading (world.ticks + 1))]) := by
  unfold spawnModule
  split
  · rename_i free
    have idle : data.running = false := by
      cases running : data.running with
      | false => rfl
      | true => simp [running] at free
    dsimp only
    split
    · exact Or.inr ⟨idle, _, _, rfl⟩
    · exact Or.inl ⟨_, rfl⟩
  · exact Or.inl ⟨world.os, rfl⟩

variable (os) in
theorem buryModule_cases (module : Str) (world : World ω) (data : ModuleData) :
    ∃ state running, buryModule os module world data =
      (⟨state, world.ticks⟩, { data with running := running, buried := true },
        [.queueRemoved, .systemMessage (buriedMessage module)]) := by
  unfold buryModule
  dsimp only
  split
  · obtain ⟨state, running, killed⟩ := killModule_cases os
      { world with os := (os.waitpid world.os data.pid).1 } data
    rw [killed]
    exact ⟨state, running, rfl⟩
  · exact ⟨_, data.running, rfl⟩

variable (os clock) in
theorem resurrectModule_revived (module : Str) (world : World ω) (data : ModuleData) :
    Revived clock module world.ticks data
      (resurrectModule os clock module world data).1.ticks
      (resurrectModule os clock module world data).2.1
      (resurrectModule os clock module world data).2.2 := by
  unfold resurrectModule
  obtain ⟨state, running, killed⟩ := killModule_cases os world data
  rw [killed]
  dsimp only
  split
  · rename_i below
    rcases spawnModule_cases os clock ⟨state, world.ticks⟩
        { data with running := running } with ⟨next, spawned⟩ | ⟨_, next, pid, spawned⟩
    · rw [spawned]
      exact .failed running below
    · rw [spawned]
      exact .restarted pid 0 below
  · obtain ⟨next, running', buried⟩ := buryModule_cases os module
      ⟨state, world.ticks⟩ { data with running := running }
    rw [buried]
    exact .buried running'

/-! ## The ledger of a module -/

/-- The accounts of a module that was started at `startTime` or later. -/
structure Ledger (clock : Clock) (startTime : Timepoint) (ticks : Nat) (data : ModuleData)
    (items : List (Op ω × Happening)) : Prop where
  rate_lt : data.mortalityRate.toNat < criticalMortalityRate.toNat + mortalityStep.toNat
  balance : data.mortalityRate.toNat + lowered items =
    mortalityStep.toNat * resurrections items
  respawned : respawns items ≤ resurrections items
  lowered_le : lowered items ≤ mortalityDecrease.toNat * decreases items
  stamped : ∀ item ∈ items, ∀ time, stamp? item.2 = some time →
    time ≤ data.lastStabilityCheck
  apart : Throughout Apart items
  counted : startTime + decreases items * milliseconds stabilityCheckInterval ≤
    data.lastStabilityCheck
  past : data.lastStabilityCheck ≤ clock.reading (ticks - 1)
  young : Throughout FoundYoung items →
    (data.running = true → mortalityStep.toNat * resurrections items ≤
      data.mortalityRate.toNat) ∧
    mortalityStep.toNat * resurrections items <
      criticalMortalityRate.toNat + mortalityStep.toNat

namespace Ledger

variable {startTime : Timepoint} {ticks later : Nat} {data next : ModuleData}
  {items : List (Op ω × Happening)} {op : Op ω} {module : Str}

/-- The resurrections are bounded by the time since the start. -/
theorem resurrections_le (ledger : Ledger clock startTime ticks data items) {now : Timepoint}
    (late : clock.reading (ticks - 1) ≤ now) :
    (mortalityStep.toNat * resurrections items : Int) ≤
      criticalMortalityRate.toNat + mortalityStep.toNat - 1 +
        mortalityDecrease.toNat * ((now - startTime) / milliseconds stabilityCheckInterval) := by
  have interval : 0 < milliseconds stabilityCheckInterval := by decide
  have checks : (decreases items : Int) ≤
      (now - startTime) / milliseconds stabilityCheckInterval := by
    rw [Int.le_ediv_iff_mul_le interval]
    linarith [ledger.counted, ledger.past]
  have balance : (data.mortalityRate.toNat : Int) + lowered items =
      mortalityStep.toNat * resurrections items := by
    exact_mod_cast ledger.balance
  have bound : (data.mortalityRate.toNat : Int) + 1 ≤
      criticalMortalityRate.toNat + mortalityStep.toNat := by
    exact_mod_cast ledger.rate_lt
  have taken : (lowered items : Int) ≤ mortalityDecrease.toNat * decreases items := by
    exact_mod_cast ledger.lowered_le
  have scaled : (mortalityDecrease.toNat * decreases items : Int) ≤
      mortalityDecrease.toNat * ((now - startTime) / milliseconds stabilityCheckInterval) :=
    mul_le_mul_of_nonneg_left checks (by decide)
  linarith

/-- Nothing that the ledger depends on changes. -/
theorem quiet (ledger : Ledger clock startTime ticks data items)
    (steady : Monotone clock.reading) (ticksLe : ticks ≤ later)
    (running : next.running = true → data.running = true)
    (check : next.lastStabilityCheck = data.lastStabilityCheck)
    (rate : next.mortalityRate = data.mortalityRate) :
    Ledger clock startTime later next items where
  rate_lt := by rw [rate]; exact ledger.rate_lt
  balance := by rw [rate]; exact ledger.balance
  respawned := ledger.respawned
  lowered_le := ledger.lowered_le
  stamped := by rw [check]; exact ledger.stamped
  apart := ledger.apart
  counted := by rw [check]; exact ledger.counted
  past := by
    rw [check]
    exact ledger.past.trans (steady (Nat.sub_le_sub_right ticksLe 1))
  young := by
    rw [rate]
    intro found
    exact ⟨fun up => (ledger.young found).1 (running up), (ledger.young found).2⟩

theorem rate_step (below : data.mortalityRate < criticalMortalityRate) :
    (data.mortalityRate + mortalityStep).toNat =
      data.mortalityRate.toNat + mortalityStep.toNat := by
  have small : data.mortalityRate.toNat < 100 := UInt32.lt_iff_toNat_lt.mp below
  rw [UInt32.toNat_add]
  change (data.mortalityRate.toNat + 10) % 4294967296 = data.mortalityRate.toNat + 10
  omega

theorem past_le (ledger : Ledger clock startTime ticks data items)
    (steady : Monotone clock.reading) (ticksLe : ticks ≤ later) :
    data.lastStabilityCheck ≤ clock.reading later :=
  ledger.past.trans (steady ((Nat.sub_le ticks 1).trans ticksLe))

/-- The rate of a running module grows by a resurrection. -/
theorem grow {added : List (Op ω × Happening)}
    (ledger : Ledger clock startTime ticks data items) (running : data.running = true)
    (below : data.mortalityRate < criticalMortalityRate)
    (rate : next.mortalityRate = data.mortalityRate + mortalityStep)
    (check : data.lastStabilityCheck ≤ next.lastStabilityCheck)
    (past : next.lastStabilityCheck ≤ clock.reading (later - 1))
    (one : resurrections added = 1) (respawn : respawns added ≤ 1)
    (noDecrease : ∀ item ∈ added, isDecrease item = false)
    (stamps : ∀ item ∈ added, ∀ time, stamp? item.2 = some time →
      time ≤ next.lastStabilityCheck) :
    Ledger clock startTime later next (items ++ added) := by
  have small : data.mortalityRate.toNat < criticalMortalityRate.toNat :=
    UInt32.lt_iff_toNat_lt.mp below
  have balance := ledger.balance
  exact
    { rate_lt := by
        rw [rate, rate_step below]
        omega
      balance := by
        rw [rate, rate_step below, lowered_append, lowered_eq_zero noDecrease,
          resurrections_append, one, Nat.mul_add, Nat.mul_one]
        omega
      respawned := by
        rw [respawns_append, resurrections_append, one]
        exact Nat.add_le_add ledger.respawned respawn
      lowered_le := by
        rw [lowered_append, lowered_eq_zero noDecrease, decreases_append,
          decreases_eq_zero noDecrease]
        exact ledger.lowered_le
      stamped := by
        intro item member time stamp
        rcases List.mem_append.mp member with old | new
        · exact (ledger.stamped item old time stamp).trans check
        · exact stamps item new time stamp
      apart := by
        apply ledger.apart.append
        intro before item member decrease
        rw [noDecrease item member] at decrease
        cases decrease
      counted := by
        rw [decreases_append, decreases_eq_zero noDecrease]
        exact ledger.counted.trans check
      past := past
      young := by
        intro found
        have upper := (ledger.young found.of_append).1 running
        rw [rate, rate_step below, resurrections_append, one, Nat.mul_add, Nat.mul_one]
        constructor
        · intro _
          omega
        · omega }

/-- What does not concern the rate leaves the ledger as it is. -/
theorem note {added : List (Op ω × Happening)}
    (ledger : Ledger clock startTime ticks data items)
    (noResurrection : resurrections added = 0) (noRespawn : respawns added = 0)
    (noDecrease : ∀ item ∈ added, isDecrease item = false)
    (noStamp : ∀ item ∈ added, stamp? item.2 = none) :
    Ledger clock startTime ticks data (items ++ added) where
  rate_lt := ledger.rate_lt
  balance := by
    rw [lowered_append, lowered_eq_zero noDecrease, resurrections_append, noResurrection]
    exact ledger.balance
  respawned := by
    rw [respawns_append, resurrections_append, noResurrection, noRespawn]
    exact ledger.respawned
  lowered_le := by
    rw [lowered_append, lowered_eq_zero noDecrease, decreases_append,
      decreases_eq_zero noDecrease]
    exact ledger.lowered_le
  stamped := by
    intro item member time stamp
    rcases List.mem_append.mp member with old | new
    · exact ledger.stamped item old time stamp
    · rw [noStamp item new] at stamp
      cases stamp
  apart := by
    apply ledger.apart.append
    intro before item member decrease
    rw [noDecrease item member] at decrease
    cases decrease
  counted := by
    rw [decreases_append, decreases_eq_zero noDecrease]
    exact ledger.counted
  past := ledger.past
  young := by
    intro found
    rw [resurrections_append, noResurrection]
    exact ledger.young found.of_append

variable (op) in
/-- A resurrection of a running module. -/
theorem revive {happenings : List Happening}
    (ledger : Ledger clock startTime ticks data items) (steady : Monotone clock.reading)
    (running : data.running = true)
    (revived : Revived clock module ticks data later next happenings) :
    ticks ≤ later ∧ Ledger clock startTime later next
      (items ++ happenings.map fun happening => (op, happening)) := by
  cases revived with
  | restarted pid missed below =>
      refine ⟨Nat.le_add_right _ _, ledger.grow running below rfl ?_ le_rfl ?_ ?_ ?_ ?_⟩
      · exact ledger.past_le steady (Nat.le_succ ticks)
      · simp [resurrections, isResurrection]
      · cases op <;> simp [respawns, List.countP_cons, isRespawn]
      · simp [isDecrease]
      · simp [stamp?]
  | failed running' below =>
      refine ⟨le_rfl, ledger.grow running below rfl le_rfl ledger.past ?_ ?_ ?_ ?_⟩
      · simp [resurrections, isResurrection]
      · cases op <;> simp [respawns, isRespawn]
      · simp [isDecrease]
      · simp [stamp?]
  | buried running' =>
      have kept : Ledger clock startTime ticks
          { data with running := running', buried := true } items :=
        ledger.quiet steady le_rfl (fun _ => running) rfl rfl
      refine ⟨le_rfl, kept.note ?_ ?_ ?_ ?_⟩
      · simp [resurrections, isResurrection]
      · cases op <;> simp [respawns, isRespawn]
      · simp [isDecrease]
      · simp [stamp?]

/-- The rate after a decrease. -/
theorem rate_decrease (rate : UInt32) :
    (if rate ≥ mortalityDecrease then rate - mortalityDecrease else 0).toNat =
      rate.toNat - mortalityDecrease.toNat := by
  split
  · rename_i enough
    exact UInt32.toNat_sub_of_le _ _ enough
  · rename_i short
    have small : rate.toNat < mortalityDecrease.toNat :=
      UInt32.lt_iff_toNat_lt.mp (UInt32.not_le.mp short)
    rw [Nat.sub_eq_zero_of_le small.le]
    rfl

/-- A module that was up for a stability interval was not found young. -/
theorem not_foundYoung {now : Timepoint}
    (ledger : Ledger clock startTime ticks data items)
    (late : data.lastStabilityCheck + milliseconds stabilityCheckInterval ≤ now) :
    ¬ FoundYoung items (op, .checked now true) := by
  intro young
  obtain ⟨earlier, member, shown, spawned, isSpawn, early⟩ := young now rfl
  have stamp : stamp? earlier.2 = some spawned := by rw [isSpawn]; rfl
  have := ledger.stamped earlier member spawned stamp
  linarith

/-- The rate shrinks by a stability check that comes late enough. -/
theorem shrink {now : Timepoint} {rate : UInt32}
    (ledger : Ledger clock startTime ticks data items)
    (late : data.lastStabilityCheck + milliseconds stabilityCheckInterval ≤ now)
    (check : now ≤ next.lastStabilityCheck)
    (past : next.lastStabilityCheck ≤ clock.reading (later - 1))
    (running : next.running = data.running) (rateEq : next.mortalityRate = rate)
    (lower : rate.toNat = data.mortalityRate.toNat - mortalityDecrease.toNat) :
    Ledger clock startTime later next
      (items ++ [(op, .checked now data.running),
        (op, .decreased now data.mortalityRate rate)]) := by
  let added : List (Op ω × Happening) :=
    [(op, .checked now data.running), (op, .decreased now data.mortalityRate rate)]
  have interval : 0 ≤ milliseconds stabilityCheckInterval := by decide
  have res : resurrections added = 0 := by simp [added, resurrections, isResurrection]
  have dec : decreases added = 1 := by simp [added, decreases, isDecrease]
  have low : lowered added = data.mortalityRate.toNat - rate.toNat := by
    simp [added, lowered, loweredBy]
  have resp : respawns added = 0 := by cases op <;> simp [added, respawns, isRespawn]
  have balance := ledger.balance
  have loweredLe := ledger.lowered_le
  have rateLt := ledger.rate_lt
  exact
    { rate_lt := by
        rw [rateEq]
        omega
      balance := by
        rw [rateEq, lowered_append, low, resurrections_append, res, Nat.add_zero]
        omega
      respawned := by
        rw [respawns_append, resp, resurrections_append, res]
        exact ledger.respawned
      lowered_le := by
        rw [lowered_append, low, decreases_append, dec, Nat.mul_add, Nat.mul_one]
        omega
      stamped := by
        intro item member time stamp
        rcases List.mem_append.mp member with old | new
        · have := ledger.stamped item old time stamp
          linarith
        · simp only [List.mem_cons, List.not_mem_nil, or_false] at new
          rcases new with rfl | rfl
          · cases stamp
          · rw [← Option.some.inj stamp]
            exact check
      apart := by
        have checked : Throughout Apart (items ++ [(op, .checked now data.running)]) :=
          ledger.apart.concat (by simp [Apart, isDecrease])
        have decreased : Apart (items ++ [(op, .checked now data.running)])
            (op, .decreased now data.mortalityRate rate) := by
          intro _ time timeEq earlier member stamp stampEq
          rw [← Option.some.inj timeEq]
          rcases List.mem_append.mp member with old | new
          · have := ledger.stamped earlier old stamp stampEq
            linarith
          · rw [List.mem_singleton.mp new] at stampEq
            cases stampEq
        simpa using checked.concat decreased
      counted := by
        have := ledger.counted
        rw [decreases_append, dec]
        push_cast
        linarith
      past := past
      young := by
        intro found
        obtain ⟨upper, bound⟩ := ledger.young found.of_append
        rw [resurrections_append, res, Nat.add_zero, running]
        constructor
        · intro up
          have young := found items (op, .checked now data.running)
            [(op, .decreased now data.mortalityRate rate)] rfl
          rw [up] at young
          exact absurd young (ledger.not_foundYoung late)
        · exact bound }

variable (op) in
/-- A stability check. -/
theorem check {world : World ω} (ledger : Ledger clock startTime world.ticks data items)
    (steady : Monotone clock.reading) :
    world.ticks ≤ (checkStability clock world data).1.ticks ∧
      Ledger clock startTime (checkStability clock world data).1.ticks
        (checkStability clock world data).2.1
        (items ++ (checkStability clock world data).2.2.map fun happening => (op, happening)) := by
  unfold checkStability
  dsimp only
  split
  · rename_i stable
    refine ⟨Nat.le_add_right _ _, ledger.shrink ?_ ?_ le_rfl rfl rfl (rate_decrease _)⟩
    · linarith
    · exact steady (Nat.le_succ world.ticks)
  · refine ⟨Nat.le_succ _, (ledger.quiet steady (Nat.le_succ _) id rfl rfl).note ?_ ?_ ?_ ?_⟩
    · simp [resurrections, isResurrection]
    · cases op <;> simp [respawns, isRespawn]
    · simp [isDecrease]
    · simp [stamp?]

variable (os op module) in
/-- The heartbeat check of a running module. -/
theorem missed {world : World ω} (ledger : Ledger clock startTime world.ticks data items)
    (steady : Monotone clock.reading) (running : data.running = true) :
    world.ticks ≤ (checkHeartbeat os clock module world data).1.ticks ∧
      Ledger clock startTime (checkHeartbeat os clock module world data).1.ticks
        (checkHeartbeat os clock module world data).2.1
        (items ++ (checkHeartbeat os clock module world data).2.2.map
          fun happening => (op, happening)) := by
  unfold checkHeartbeat
  dsimp only
  split
  · have noted : Ledger clock startTime (world.ticks + 1)
        { data with missedHeartbeats := data.missedHeartbeats + 1 } items :=
      ledger.quiet steady (Nat.le_succ _) id rfl rfl
    split
    · obtain ⟨ticksLe, revived⟩ := noted.revive op steady running
        (resurrectModule_revived os clock module { world with ticks := world.ticks + 1 } _)
      exact ⟨(Nat.le_succ _).trans ticksLe, revived⟩
    · exact ⟨Nat.le_succ _, by simpa using noted⟩
  · exact ⟨Nat.le_succ _, by simpa using ledger.quiet steady (Nat.le_succ _) id rfl rfl⟩

variable (os op module) in
/-- The body of the guard loop. -/
theorem guard {world : World ω} (ledger : Ledger clock startTime world.ticks data items)
    (steady : Monotone clock.reading) :
    world.ticks ≤ (guardModule os clock module world data).1.ticks ∧
      Ledger clock startTime (guardModule os clock module world data).1.ticks
        (guardModule os clock module world data).2.1
        (items ++ (guardModule os clock module world data).2.2.map
          fun happening => (op, happening)) := by
  unfold guardModule
  split
  · split
    · rename_i running
      dsimp only
      split
      · let reaped : World ω := { world with os := (os.waitpid world.os data.pid).1 }
        have ledger : Ledger clock startTime reaped.ticks data items := ledger
        obtain ⟨firstLe, first⟩ := ledger.missed os op module steady running
        obtain ⟨secondLe, second⟩ := first.check op steady
        refine ⟨firstLe.trans secondLe, ?_⟩
        rw [List.map_append, ← List.append_assoc]
        exact second
      · exact ledger.revive op steady running
          (resurrectModule_revived os clock module
            { world with os := (os.waitpid world.os data.pid).1 } _)
    · exact ⟨le_rfl, by simpa using ledger⟩
  · exact ⟨le_rfl, by simpa using ledger⟩

/-- The ledger right after the start. -/
theorem start {shown time : Timepoint} (rate : data.mortalityRate = 0)
    (check : data.lastStabilityCheck = time) (late : startTime ≤ time)
    (past : time ≤ clock.reading (ticks - 1)) :
    Ledger clock startTime ticks data [((.start : Op ω), .spawned shown time)] where
  rate_lt := by rw [rate]; decide
  balance := by rw [rate]; rfl
  respawned := le_rfl
  lowered_le := le_rfl
  stamped := by
    intro item member stamp stampEq
    rw [List.mem_singleton.mp member] at stampEq
    rw [check]
    exact (Option.some.inj stampEq).ge
  apart := Throughout.nil.concat (by simp [Apart, isDecrease])
  counted := by
    rw [check]
    simpa [decreases, isDecrease] using late
  past := check ▸ past
  young := by
    intro _
    have zero : resurrections [((.start : Op ω), .spawned shown time)] = 0 := rfl
    rw [zero]
    exact ⟨fun _ => Nat.zero_le _, by decide⟩

end Ledger

/-! ## Runs -/

/-- A module was never started, or its ledger is kept. -/
def Account (clock : Clock) (startTime : Timepoint) : ModuleInvariant ω :=
  fun ticks data items =>
    (data.running = false ∧ data.mortalityRate = 0 ∧ items = []) ∨
      Ledger clock startTime ticks data items

theorem Account.stable (steady : Monotone clock.reading) {startTime : Timepoint} :
    Stable (Account (ω := ω) clock startTime) := by
  rintro ticks later data items ticksLe (idle | ledger)
  · exact Or.inl idle
  · exact Or.inr (ledger.quiet steady ticksLe id rfl rfl)

theorem Account.keeps_guard (steady : Monotone clock.reading) {startTime : Timepoint} :
    Keeps (Account clock startTime) .round (guardModule os clock) := by
  rintro module world data items (⟨idle, rate, rfl⟩ | ledger)
  · have unchanged : guardModule os clock module world data = (world, data, []) := by
      simp [guardModule, idle]
    rw [unchanged]
    exact ⟨le_rfl, Or.inl ⟨idle, rate, rfl⟩⟩
  · obtain ⟨ticksLe, kept⟩ := ledger.guard os .round module steady
    exact ⟨ticksLe, Or.inr kept⟩

theorem Account.keeps_heartbeat (steady : Monotone clock.reading) {startTime : Timepoint}
    (module : Str) :
    Keeps (Account (ω := ω) clock startTime) (.heartbeat module) fun _ => heartbeat clock := by
  rintro _ world data items (⟨idle, rate, rfl⟩ | ledger)
  · exact ⟨Nat.le_succ _, Or.inl ⟨idle, rate, rfl⟩⟩
  · refine ⟨Nat.le_succ _, Or.inr ?_⟩
    simp only [heartbeat, List.map_nil, List.append_nil]
    exact ledger.quiet steady (Nat.le_succ _) id rfl rfl

theorem Account.keeps_setHeartbeatInterval (steady : Monotone clock.reading)
    {startTime : Timepoint} (module : Str) (value : UInt32) :
    Keeps (Account (ω := ω) clock startTime) (.setHeartbeatInterval module value)
      fun _ => setHeartbeatInterval value := by
  rintro _ world data items (⟨idle, rate, rfl⟩ | ledger)
  · exact ⟨le_rfl, Or.inl ⟨idle, rate, rfl⟩⟩
  · refine ⟨le_rfl, Or.inr ?_⟩
    simp only [setHeartbeatInterval, List.map_nil, List.append_nil]
    exact ledger.quiet steady le_rfl id rfl rfl

/-- A module during the start: as new, or forked off. -/
def Starting (clock : Clock) (startTicks : Nat) : ModuleInvariant ω :=
  fun ticks data items => startTicks ≤ ticks ∧ data.mortalityRate = 0 ∧
    ((data.running = false ∧ items = []) ∨
      data.running = true ∧ (∃ shown, items = [(.start, .spawned shown data.lastStabilityCheck)]) ∧
        clock.reading startTicks ≤ data.lastStabilityCheck ∧
        data.lastStabilityCheck ≤ clock.reading (ticks - 1))

theorem Starting.stable (steady : Monotone clock.reading) {startTicks : Nat} :
    Stable (Starting (ω := ω) clock startTicks) := by
  rintro ticks later data items ticksLe ⟨began, rate, idle | ⟨up, itemsEq, late, past⟩⟩
  · exact ⟨began.trans ticksLe, rate, Or.inl idle⟩
  · exact ⟨began.trans ticksLe, rate, Or.inr ⟨up, itemsEq, late,
      past.trans (steady (Nat.sub_le_sub_right ticksLe 1))⟩⟩

theorem Starting.keeps_spawnModule (steady : Monotone clock.reading) {startTicks : Nat} :
    Keeps (Starting clock startTicks) .start fun _ => spawnModule os clock := by
  rintro module world data items ⟨began, rate, phase⟩
  rcases spawnModule_cases os clock world data with
    ⟨state, spawned⟩ | ⟨idle, state, pid, spawned⟩
  · simp only [spawned]
    exact ⟨le_rfl, began, rate, by simpa using phase⟩
  · simp only [spawned]
    refine ⟨Nat.le_add_right _ _, began.trans (Nat.le_add_right _ _), rate, Or.inr ?_⟩
    rcases phase with ⟨_, rfl⟩ | ⟨up, _⟩
    · exact ⟨rfl, ⟨_, rfl⟩, steady (began.trans (Nat.le_succ _)), le_rfl⟩
    · rw [idle] at up
      cases up

theorem Starting.account {startTicks ticks : Nat} {data : ModuleData}
    {items : List (Op ω × Happening)} (starting : Starting clock startTicks ticks data items) :
    Account clock (clock.reading startTicks) ticks data items := by
  rcases starting with ⟨_, rate, ⟨idle, rfl⟩ | ⟨_, ⟨_, rfl⟩, late, past⟩⟩
  · exact Or.inl ⟨idle, rate, rfl⟩
  · exact Or.inr (Ledger.start rate rfl late past)

/-- In every run from the constructor and the start, the account of every module
is kept. -/
theorem account_run (os : Os ω) (clock : Clock) (steady : Monotone clock.reading)
    (names : List Str) (state : ω) {ops : List (Op ω)} (once : ∀ op ∈ ops, op ≠ .start) :
    All (Account clock (clock.reading (new clock names state).world.ticks))
      ((machine os clock names state).run (.start :: ops)) := by
  have fresh : All (Starting clock (new clock names state).world.ticks)
      (machine os clock names state).fresh :=
    all_fresh fun now => ⟨le_rfl, rfl, Or.inl ⟨rfl, rfl⟩⟩
  have started : All (Starting clock (new clock names state).world.ticks)
      ((machine os clock names state).extend (machine os clock names state).fresh .start) :=
    all_changeAll (Starting.stable steady) (Starting.keeps_spawnModule steady) _ fresh
  have run := all_foldl os names state (Account.stable steady) (Account.keeps_guard steady)
    (Account.keeps_heartbeat steady) (Account.keeps_setHeartbeatInterval steady) once
    (fun module data present => (started module data present).account)
  exact run

/-- The crash-loop bound.  The rate of a module is exactly what its
resurrections added less what its decreases took away, so it never wraps, and it
stays below its bound; decreases are a stability interval apart and that long
after every spawn; the resurrections are bounded by the time since the start,
and by ten for a module that is never found up for a stability interval. -/
theorem crash_loop_bound (os : Os ω) (clock : Clock) (steady : Monotone clock.reading)
    (names : List Str) (state : ω) (ops : List (Op ω)) (once : ∀ op ∈ ops, op ≠ .start)
    (module : Str) (data : ModuleData)
    (present : ((machine os clock names state).run (.start :: ops)).state.modules[module]? =
      some data) :
    let run := (machine os clock names state).run (.start :: ops)
    let items := about module run.trace
    let startTime := clock.reading (new clock names state).world.ticks
    data.mortalityRate.toNat < criticalMortalityRate.toNat + mortalityStep.toNat ∧
      data.mortalityRate.toNat + lowered items =
        mortalityStep.toNat * resurrections items ∧
      Throughout Apart items ∧
      respawns items ≤ resurrections items ∧
      (∀ now, startTime ≤ now → clock.reading (run.state.world.ticks - 1) ≤ now →
        (mortalityStep.toNat * resurrections items : Int) ≤
          criticalMortalityRate.toNat + mortalityStep.toNat - 1 +
            mortalityDecrease.toNat *
              ((now - startTime) / milliseconds stabilityCheckInterval)) ∧
      (Throughout FoundYoung items → resurrections items ≤ 10) := by
  intro run items startTime
  have interval : 0 < milliseconds stabilityCheckInterval := by decide
  rcases account_run os clock steady names state once module data present with
    ⟨_, rate, noItems⟩ | ledger
  · have empty : items = [] := noItems
    rw [empty, rate]
    refine ⟨by decide, rfl, Throughout.nil, le_rfl, ?_, fun _ => Nat.zero_le _⟩
    intro now late _
    have elapsed : 0 ≤ (now - startTime) / milliseconds stabilityCheckInterval :=
      Int.ediv_nonneg (by linarith) interval.le
    have step : (0 : Int) ≤ mortalityDecrease.toNat *
        ((now - startTime) / milliseconds stabilityCheckInterval) :=
      mul_nonneg (by decide) elapsed
    change (0 : Int) ≤ 100 + 10 - 1 + _
    linarith
  · refine ⟨ledger.rate_lt, ledger.balance, ledger.apart, ledger.respawned, ?_, ?_⟩
    · intro now _ late
      exact ledger.resurrections_le late
    · intro young
      have few : 10 * resurrections items < 100 + 10 := (ledger.young young).2
      omega

/-- A system in which every process ends at once. -/
def shortLived : Os Unit where
  fork _ := ((), 1)
  getpgid _ pid := pid
  kill _ _ := ()
  waitpid _ _ := ((), 1)
  killPolls _ := 0

/-- The run of a module that is dead in each of twelve rounds. -/
def shortLivedRun : WatchdogRun Unit :=
  (machine shortLived (Clock.ofList 0 []) ["module_sms".toList] ()).run
    (.start :: List.replicate 12 .round)

/-- After twelve rounds the module was resurrected ten times and is buried. -/
theorem crash_loop_bound_short_lived :
    let items := about "module_sms".toList shortLivedRun.trace
    100 + lowered items = 10 * resurrections items ∧ respawns items ≤ resurrections items ∧
      resurrections items = 10 := by
  intro items
  obtain ⟨data, present, rate⟩ : ∃ data,
      shortLivedRun.state.modules["module_sms".toList]? = some data ∧
        data.mortalityRate.toNat = 100 := by
    refine ⟨(shortLivedRun.state.modules["module_sms".toList]?).getD (newModule 0), ?_, ?_⟩ <;>
      decide +kernel
  obtain ⟨_, balance, _, respawned, _⟩ := crash_loop_bound shortLived (Clock.ofList 0 [])
    (Clock.monotone_ofList 0 []) ["module_sms".toList] () (List.replicate 12 .round)
    (fun op member => by rw [List.eq_of_mem_replicate member]; simp) "module_sms".toList data
    present
  rw [rate] at balance
  exact ⟨balance, respawned, by decide +kernel⟩

end Sentri.Core.Watchdog
