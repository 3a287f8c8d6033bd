import Sentri.Core.Watchdog.Checks

/-!
# Missed heartbeats of a steady clock

The counter of missed heartbeats is a 32 bit number.  With a clock that is never set
back it stays small: from the fifth overdue round on each of them raises the mortality
rate by more than a stability check takes away, and the other rounds of such a time fall
into one heartbeat interval.  With any clock it is not above the number of rounds.
-/

namespace Sentri.Core.Watchdog

open Sentri.Text Sentri.Transition

universe u

variable {ω : Type u} {os : Os ω} {clock : Clock}

/-! ## The counter of one module -/

/-- A heartbeat resets the counter. -/
theorem heartbeat_missed (clock : Clock) (world : World ω) (data : ModuleData) :
    (heartbeat clock world data).2.1.missedHeartbeats = 0 := by
  simp only [heartbeat]
  split
  · rfl
  · rename_i zero
    exact not_not.mp zero

/-- A round counts one missed heartbeat at most. -/
theorem guardModule_missed_le (os : Os ω) (clock : Clock) (module : Str) (world : World ω)
    (data : ModuleData) :
    (guardModule os clock module world data).2.1.missedHeartbeats.toNat ≤
      data.missedHeartbeats.toNat + 1 := by
  have counted : (data.missedHeartbeats + 1).toNat ≤ data.missedHeartbeats.toNat + 1 := by
    rw [UInt32.toNat_add]
    exact Nat.mod_le _ _
  have revived : ∀ world data, (resurrectModule os clock module world data).2.1.missedHeartbeats
      = 0 ∨ (resurrectModule os clock module world data).2.1.missedHeartbeats =
        data.missedHeartbeats := by
    intro world data
    rcases resurrectModule_missed os clock module world data with
      ⟨_, _, ⟨_, zero⟩ | ⟨_, same, _⟩⟩
    · exact Or.inl zero
    · exact Or.inr same
  rcases guardModule_cases os clock module world data with
    ⟨_, equal⟩ | ⟨_, _, _, equal⟩ | ⟨_, _, _, equal⟩
  · rw [equal]
    exact Nat.le_succ _
  · rw [equal]
    rcases revived { world with os := (os.waitpid world.os data.pid).1 } data with zero | same
    · rw [zero]
      exact Nat.zero_le _
    · rw [same]
      exact Nat.le_succ _
  · rw [equal]
    simp only [(checkStability_quiet clock _ _).2.2.1]
    rcases checkHeartbeat_cases os clock module
        { world with os := (os.waitpid world.os data.pid).1 } data with
      ⟨_, checked⟩ | ⟨_, _, checked⟩ | ⟨_, _, checked⟩
    · rw [checked]
      exact Nat.le_succ _
    · rw [checked]
      exact counted
    · rw [checked]
      rcases revived ⟨(os.waitpid world.os data.pid).1, world.ticks + 1⟩
          { data with missedHeartbeats := data.missedHeartbeats + 1 } with zero | same
      · rw [zero]
        exact Nat.zero_le _
      · rw [same]
        exact counted

/-- The constructor of a steady clock gives every module a heartbeat of the past. -/
theorem new_heartbeat (steady : Monotone clock.reading) (names : List Str) (state : ω)
    (module : Str) (data : ModuleData)
    (present : (new clock names state).modules[module]? = some data) :
    ∃ now ≤ clock.reading ((new clock names state).world.ticks - 1), data = newModule now := by
  induction names using List.reverseRecOn with
  | nil => simp [new] at present
  | append_singleton names name ih =>
      rw [new_concat] at present ⊢
      simp only [Std.ExtTreeMap.getElem?_insertIfNew] at present
      split at present
      · exact ⟨_, le_rfl, (Option.some.inj present).symm⟩
      · rcases ih present with ⟨now, past, equal⟩
        exact ⟨now, past.trans (steady (Nat.sub_le _ 1)), equal⟩

/-! ## The counter stays small -/

/-- More stability checks than this do not fall into a heartbeat interval. -/
def graceChecks : Nat :=
  71584

/-- Some number of stability checks, which fell into the interval after the last
heartbeat, accounts for what the mortality rate does not show. -/
structure Patience (clock : Clock) (slack ticks : Nat) (data : ModuleData) : Prop where
  rate_lt : data.mortalityRate.toNat < criticalMortalityRate.toNat + mortalityStep.toNat
  past : data.lastHeartbeat ≤ clock.reading (ticks - 1)
  few : data.buried = false → ∃ checks ≤ graceChecks,
    9 * data.missedHeartbeats.toNat + slack ≤ data.mortalityRate.toNat + checks + 40 ∧
      (checks = 0 ∨
        data.lastHeartbeat + checks * milliseconds stabilityCheckInterval ≤
          data.lastStabilityCheck + milliseconds stabilityCheckInterval ∧
        data.lastStabilityCheck ≤ clock.reading (ticks - 1))

namespace Patience

variable {slack ticks later : Nat} {data : ModuleData}

theorem wait (patience : Patience clock slack ticks data) (steady : Monotone clock.reading)
    (ticksLe : ticks ≤ later) : Patience clock slack later data where
  rate_lt := patience.rate_lt
  past := patience.past.trans (steady (Nat.sub_le_sub_right ticksLe 1))
  few := by
    intro free
    rcases patience.few free with ⟨checks, within, balance, grace⟩
    refine ⟨checks, within, balance, ?_⟩
    rcases grace with zero | ⟨spaced, past⟩
    · exact Or.inl zero
    · exact Or.inr ⟨spaced, past.trans (steady (Nat.sub_le_sub_right ticksLe 1))⟩

/-- A module that has just shown that it lives. -/
theorem fresh (rate : data.mortalityRate.toNat < criticalMortalityRate.toNat + mortalityStep.toNat)
    (past : data.lastHeartbeat ≤ clock.reading (ticks - 1)) (missed : data.missedHeartbeats = 0)
    (small : slack ≤ 40) : Patience clock slack ticks data where
  rate_lt := rate
  past := past
  few := by
    intro _
    refine ⟨0, Nat.zero_le _, ?_, Or.inl rfl⟩
    rw [missed]
    change 9 * 0 + slack ≤ _
    omega

/-- The counter of a module that is not buried is far from wrapping. -/
theorem missed_lt (patience : Patience clock slack ticks data) (free : data.buried = false) :
    data.missedHeartbeats.toNat < 8000 := by
  rcases patience.few free with ⟨checks, within, balance, _⟩
  have rate := patience.rate_lt
  change data.mortalityRate.toNat < 100 + 10 at rate
  change checks ≤ 71584 at within
  omega

theorem missed_step (patience : Patience clock slack ticks data) (free : data.buried = false) :
    (data.missedHeartbeats + 1).toNat = data.missedHeartbeats.toNat + 1 := by
  have small := patience.missed_lt free
  rw [UInt32.toNat_add]
  change (data.missedHeartbeats.toNat + 1) % 4294967296 = data.missedHeartbeats.toNat + 1
  omega

/-- The stability check of a round that counted its heartbeat as missed. -/
theorem checkStability_late {world : World ω} (patience : Patience clock 1 world.ticks data)
    (steady : Monotone clock.reading) :
    Patience clock 0 (checkStability clock world data).1.ticks
      (checkStability clock world data).2.1 := by
  rcases checkStability_cases clock world data with
    ⟨due, rate, lower, worldEq, dataEq, _⟩ | ⟨_, equal⟩
  · rw [worldEq, dataEq]
    have rateLt := patience.rate_lt
    refine ⟨by simp only [lower]; omega, (patience.wait steady (Nat.le_add_right _ 2)).past, ?_⟩
    intro free
    rcases patience.few free with ⟨checks, within, balance, grace⟩
    refine ⟨checks, within, ?_, ?_⟩
    · simp only [lower]
      omega
    · rcases grace with zero | ⟨spaced, past⟩
      · exact Or.inl zero
      · have order : data.lastStabilityCheck ≤ clock.reading (world.ticks + 1) :=
          past.trans (steady (by omega))
        exact Or.inr ⟨by simp only; linarith, le_rfl⟩
  · rw [equal]
    refine ⟨patience.rate_lt, (patience.wait steady (Nat.le_succ _)).past, ?_⟩
    intro free
    rcases (patience.wait steady (Nat.le_succ _)).few free with ⟨checks, within, balance, grace⟩
    exact ⟨checks, within, (Nat.le_succ _).trans balance, grace⟩

/-- The stability check of a round in which the heartbeat is in time. -/
theorem checkStability_inTime (world : World ω) (patience : Patience clock 0 world.ticks data)
    (steady : Monotone clock.reading)
    (inTime : clock.reading world.ticks - data.lastHeartbeat ≤
      milliseconds data.heartbeatInterval.toNat) :
    Patience clock 0 (checkStability clock { world with ticks := world.ticks + 1 } data).1.ticks
      (checkStability clock { world with ticks := world.ticks + 1 } data).2.1 := by
  let read : World ω := { world with ticks := world.ticks + 1 }
  rcases checkStability_cases clock read data with
    ⟨due, rate, lower, worldEq, dataEq, _⟩ | ⟨_, equal⟩
  · rw [worldEq, dataEq]
    have rateLt := patience.rate_lt
    refine ⟨by simp only [lower]; omega, (patience.wait steady (by simp [read]; omega)).past, ?_⟩
    intro free
    rcases patience.few free with ⟨checks, within, balance, grace⟩
    have interval : (data.heartbeatInterval.toNat : Int) < 4294967296 := by
      exact_mod_cast data.heartbeatInterval.toNat_lt
    have order : clock.reading (read.ticks) ≤ clock.reading (read.ticks + 1) :=
      steady (Nat.le_succ _)
    have second : clock.reading world.ticks ≤ clock.reading read.ticks :=
      steady (Nat.le_succ _)
    have first : clock.reading (world.ticks - 1) ≤ clock.reading world.ticks :=
      steady (Nat.sub_le _ 1)
    have since := patience.past
    simp only [milliseconds, stabilityCheckInterval] at due grace inTime ⊢
    refine ⟨checks + 1, ?_, by simp only [lower]; omega, Or.inr ⟨?_, le_rfl⟩⟩
    · change checks + 1 ≤ 71584
      rcases grace with rfl | ⟨spaced, past⟩
      · omega
      · have bound : (checks : Int) * 60000000000 ≤ 4294967295 * 1000000 + 60000000000 := by
          linarith
        omega
    · rcases grace with rfl | ⟨spaced, past⟩
      · push_cast
        linarith
      · push_cast
        linarith
  · rw [equal]
    exact patience.wait steady (by simp [read]; omega)

theorem relax (patience : Patience clock slack ticks data) : Patience clock 0 ticks data where
  rate_lt := patience.rate_lt
  past := patience.past
  few := by
    intro free
    rcases patience.few free with ⟨checks, within, balance, grace⟩
    exact ⟨checks, within, by omega, grace⟩

/-- Up to four missed heartbeats need no account. -/
theorem few_missed {missed : UInt32} (patience : Patience clock slack ticks data)
    (few : missed.toNat < maxMissedHeartbeats.toNat) :
    Patience clock 1 ticks { data with missedHeartbeats := missed } where
  rate_lt := patience.rate_lt
  past := patience.past
  few := by
    intro _
    change missed.toNat < 5 at few
    exact ⟨0, Nat.zero_le _, by simp only; omega, Or.inl rfl⟩

variable (os) in
/-- Most resurrections raise the mortality rate, and a successful one resets the
counter. -/
theorem resurrectModule (steady : Monotone clock.reading) (module : Str) (world : World ω)
    {missed : UInt32}
    (patience : Patience clock 0 world.ticks data) (free : data.buried = false)
    (step : missed.toNat ≤ data.missedHeartbeats.toNat + 1) :
    let effect :=
      resurrectModule os clock module world { data with missedHeartbeats := missed }
    Patience clock 1 effect.1.ticks effect.2.1 := by
  intro effect
  have revived := resurrectModule_revived os clock module world
    { data with missedHeartbeats := missed }
  have counter := (resurrectModule_missed os clock module world
    { data with missedHeartbeats := missed }).2.2
  change Revived clock module world.ticks _ effect.1.ticks effect.2.1 effect.2.2 at revived
  change (effect.2.2.findSome? shown? = some effect.2.1.lastHeartbeat ∧ _) ∨ _ at counter
  generalize effect.1.ticks = ticks at revived
  generalize effect.2.1 = next at revived counter
  generalize effect.2.2 = happenings at revived counter
  cases revived with
  | restarted pid missed' below =>
      have zero : missed' = 0 := by simpa [List.findSome?_cons, shown?] using counter
      refine Patience.fresh ?_ ?_ zero (by decide)
      · have small : data.mortalityRate.toNat < 100 := UInt32.lt_iff_toNat_lt.mp below
        rw [Ledger.rate_step below]
        exact Nat.add_lt_add_right small _
      · exact steady (Nat.le_succ world.ticks)
  | failed running below =>
      have small : data.mortalityRate.toNat < 100 := UInt32.lt_iff_toNat_lt.mp below
      have grown : (data.mortalityRate + mortalityStep).toNat = data.mortalityRate.toNat + 10 :=
        Ledger.rate_step below
      refine ⟨?_, patience.past, ?_⟩
      · rw [Ledger.rate_step below]
        exact Nat.add_lt_add_right small _
      · intro _
        rcases patience.few free with ⟨checks, within, balance, grace⟩
        exact ⟨checks, within, by simp only [grown]; omega, grace⟩
  | buried running =>
      refine ⟨patience.rate_lt, patience.past, ?_⟩
      intro isFree
      cases isFree

/-- The body of the guard loop. -/
theorem guard (steady : Monotone clock.reading) (module : Str) (world : World ω)
    (patience : Patience clock 0 world.ticks data) :
    Patience clock 0 (guardModule os clock module world data).1.ticks
      (guardModule os clock module world data).2.1 := by
  let reaped : World ω := { world with os := (os.waitpid world.os data.pid).1 }
  rcases guardModule_cases os clock module world data with
    ⟨_, equal⟩ | ⟨free, _, _, equal⟩ | ⟨free, _, _, equal⟩
  · rw [equal]
    exact patience
  · rw [equal]
    exact (patience.resurrectModule os steady module reaped free (Nat.le_succ _)).relax
  · rw [equal]
    have read := patience.wait steady (Nat.le_succ world.ticks)
    rcases checkHeartbeat_cases os clock module reaped data with
      ⟨inTime, checked⟩ | ⟨_, few, checked⟩ | ⟨_, _, checked⟩
    · simp only [reaped] at checked
      simp only [checked]
      exact patience.checkStability_inTime reaped steady (not_lt.mp inTime)
    · simp only [reaped] at checked
      simp only [checked]
      exact (read.few_missed (UInt32.lt_iff_toNat_lt.mp few)).checkStability_late steady
    · simp only [reaped] at checked
      simp only [checked]
      exact (read.resurrectModule os steady module { reaped with ticks := reaped.ticks + 1 } free
        (patience.missed_step free).le).checkStability_late steady

end Patience

/-! ## Room in the counter -/

/-- A round finds room in the counter of the module. -/
def Roomy (item : Op ω × Visit ω) : Prop :=
  isRound item.1 = true → item.2.data.buried = false →
    item.2.data.missedHeartbeats.toNat + 1 < UInt32.size

/-- With a steady clock there is always room. -/
theorem roomy_of_steady (os : Os ω) (steady : Monotone clock.reading) (names : List Str)
    (state : ω) (ops : List (Op ω)) :
    Everywhere (fun _ ticks data items =>
        Patience clock 0 ticks data ∧ ∀ item ∈ items, Roomy item)
      ((observer os clock names state).run ops) := by
  have initial : Everywhere (fun _ ticks data items =>
        Patience clock 0 ticks data ∧ ∀ item ∈ items, Roomy item)
      (observer os clock names state).fresh := by
    intro module data present
    rcases new_heartbeat steady names state module data present with ⟨now, past, rfl⟩
    refine ⟨Patience.fresh ?_ past rfl (Nat.zero_le _), ?_⟩
    · change 0 < 100 + 10
      decide
    · intro item member
      cases member
  refine everywhere_foldl names state ?_ ?_ initial
  · rintro module ticks later data items ticksLe ⟨patience, roomy⟩
    exact ⟨patience.wait steady ticksLe, roomy⟩
  · intro op _ effect equal module world data items held
    rcases held with ⟨patience, roomy⟩
    constructor
    · cases op, effect, equal using called_cases with
      | start =>
          rcases spawnModule_cases os clock world data with
            ⟨system, spawned⟩ | ⟨_, system, pid, spawned⟩
          · simp only [spawned]
            exact patience
          · simp only [spawned]
            exact Patience.fresh patience.rate_lt (steady (Nat.le_succ _)) rfl (Nat.zero_le _)
      | round => exact patience.guard steady module world
      | heartbeat name =>
          exact Patience.fresh patience.rate_lt le_rfl (heartbeat_missed clock world data)
            (Nat.zero_le _)
      | setHeartbeatInterval name interval =>
          exact ⟨patience.rate_lt, patience.past, patience.few⟩
    · rw [List.forall_mem_append, List.forall_mem_singleton]
      refine ⟨roomy, fun _ free => ?_⟩
      have small := patience.missed_lt free
      exact (Nat.succ_lt_succ small).trans (by decide)

/-- With any clock the counter is not above the number of rounds. -/
theorem missed_le_rounds (os : Os ω) (clock : Clock) (names : List Str) (state : ω)
    (ops : List (Op ω)) :
    Everywhere (fun _ _ data items =>
        data.missedHeartbeats.toNat ≤ items.countP (fun item => isRound item.1) ∧
        Throughout (fun before item => item.2.data.missedHeartbeats.toNat ≤
          before.countP fun earlier => isRound earlier.1) items)
      ((observer os clock names state).run ops) := by
  refine everywhere_run names state ?_ ?_ ?_ ops
  · intro module ticks later data items _ held
    exact held
  · intro module ticks now
    exact ⟨le_rfl, Throughout.nil⟩
  · intro op effect equal module world data items held
    rcases held with ⟨missed, found⟩
    refine ⟨?_, found.concat missed⟩
    rw [List.countP_append]
    cases op, effect, equal using called_cases with
    | start =>
        rcases spawnModule_cases os clock world data with
          ⟨system, spawned⟩ | ⟨_, system, pid, spawned⟩
        · simp only [spawned]
          exact missed.trans (Nat.le_add_right _ _)
        · simp only [spawned]
          exact Nat.zero_le _
    | round =>
        exact (guardModule_missed_le os clock module world data).trans
          (Nat.add_le_add_right missed 1)
    | heartbeat name =>
        rw [heartbeat_missed]
        exact Nat.zero_le _
    | setHeartbeatInterval name interval => exact missed.trans (Nat.le_add_right _ _)

/-- In fewer rounds than the counter can count there is room. -/
theorem roomy_of_few {items : List (Op ω × Visit ω)}
    (found : Throughout (fun before item => item.2.data.missedHeartbeats.toNat ≤
      before.countP fun earlier => isRound earlier.1) items)
    (few : items.countP (fun item => isRound item.1) < UInt32.size) :
    ∀ item ∈ items, Roomy item := by
  intro item member inRound _
  rcases List.append_of_mem member with ⟨before, after, rfl⟩
  have missed := found before item after rfl
  have count : (item :: after).countP (fun other => isRound other.1) =
      after.countP (fun other => isRound other.1) + 1 :=
    List.countP_cons_of_pos inRound
  rw [List.countP_append, count] at few
  omega

end Sentri.Core.Watchdog
