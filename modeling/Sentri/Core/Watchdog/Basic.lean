import Sentri.Text.Basic
import Sentri.Transition.Clock
import Sentri.Transition.Machine

/-!
# The watchdog

The watchdog forks off the modules, restarts those that died or fell silent, and
buries a module that died too often.

The operating system is a parameter: its state can change in any way between
two operations of the watchdog, and every answer it gives may depend on that
state.  The functions of the class look up the data of the module they are
called for and change it in place; here they take this data and return it.  The
path of a module and the name of its queue are left out.
-/

namespace Sentri.Core

open Sentri.Text Sentri.Transition

universe u

/-- Increase mortality by this value if a module has to be resurrected. -/
def mortalityStep : UInt32 :=
  10

/-- Decrease of the mortality of a running module for every stability check. -/
def mortalityDecrease : UInt32 :=
  1

/-- If mortality reaches this level, the module is buried. -/
def criticalMortalityRate : UInt32 :=
  100

def maxMissedHeartbeats : UInt32 :=
  5

/-- In milliseconds. -/
def stabilityCheckInterval : Int :=
  60000

/-- In milliseconds. -/
def defaultHeartbeatInterval : UInt32 :=
  10000

/-- The calls of the operating system.  `killPolls` is the number of polls that
fit into the time the system gets to kill a process. -/
structure Os (ω : Type u) where
  fork : ω → ω × Int
  getpgid : ω → Int → Int
  kill : ω → Int → ω
  /-- `waitpid` without blocking: zero as long as the process runs. -/
  waitpid : ω → Int → ω × Int
  killPolls : ω → Nat

/-- What the watchdog knows about a module. -/
structure ModuleData where
  running : Bool
  buried : Bool
  pid : Int
  heartbeatInterval : UInt32
  lastHeartbeat : Timepoint
  missedHeartbeats : UInt32
  lastStabilityCheck : Timepoint
  mortalityRate : UInt32
  deriving DecidableEq

/-- The state of the operating system and the number of clock readings taken. -/
structure World (ω : Type u) where
  os : ω
  ticks : Nat

/-- What happens to a module. -/
inductive Happening where
  /-- A successful fork, with the times recorded for the heartbeat and for the stability
  check. -/
  | spawned (shown checked : Timepoint)
  | resurrected
  /-- A stability check of a module that is running or not. -/
  | checked (time : Timepoint) (running : Bool)
  /-- A stability check that decreased the mortality rate. -/
  | decreased (time : Timepoint) (before after : UInt32)
  | queueRemoved
  | systemMessage (text : Str)
  deriving DecidableEq

/-- The effect of a function on the world and on the data of one module. -/
abbrev Effect (ω : Type u) :=
  World ω × ModuleData × List Happening

namespace Watchdog

variable {ω : Type u} (os : Os ω) (clock : Clock)

/-- Start the process of a module that is neither running nor buried.  The
child process never returns from here. -/
def spawnModule (world : World ω) (data : ModuleData) : Effect ω :=
  if !data.running && !data.buried then
    let (state, pid) := os.fork world.os
    if pid > 0 then
      let checked := clock.reading (world.ticks + 1)
      (⟨state, world.ticks + 2⟩,
        { data with
          running := true
          pid := pid
          lastHeartbeat := clock.reading world.ticks
          missedHeartbeats := 0
          lastStabilityCheck := checked },
        [.spawned (clock.reading world.ticks) checked])
    else
      ({ world with os := state }, data, [])
  else
    (world, data, [])

/-- Poll until the process is gone or no poll is left. -/
def awaitKilled (pid : Int) : Nat → ω → ω
  | 0, state => (os.waitpid state pid).1
  | polls + 1, state =>
      let (state, result) := os.waitpid state pid
      if result ≠ 0 then state else awaitKilled pid polls state

/-- The process group of a module if it has its own, else its process. -/
def killTarget (state : ω) (data : ModuleData) : Int :=
  if data.pid = os.getpgid state data.pid then -data.pid else data.pid

def killModule (world : World ω) (data : ModuleData) : World ω × ModuleData :=
  let pid := killTarget os world.os data
  let state := os.kill world.os pid
  let state := awaitKilled os pid (os.killPolls state) state
  let (state, result) := os.waitpid state pid
  if result ≠ 0 then
    ({ world with os := state }, { data with running := false })
  else
    ({ world with os := state }, data)

/-- The system message about a buried module. -/
def buriedMessage (module : Str) : Str :=
  module ++ " died too often and has been disabled until the next restart of the system.".toList

def buryModule (module : Str) (world : World ω) (data : ModuleData) : Effect ω :=
  let (state, result) := os.waitpid world.os data.pid
  let world := { world with os := state }
  let (world, data) := if result = 0 then killModule os world data else (world, data)
  (world, { data with buried := true }, [.queueRemoved, .systemMessage (buriedMessage module)])

/-- Restart a module, or bury it if it died too often. -/
def resurrectModule (module : Str) (world : World ω) (data : ModuleData) : Effect ω :=
  let (world, data) := killModule os world data
  if data.mortalityRate < criticalMortalityRate then
    let (world, data, spawned) := spawnModule os clock world data
    (world, { data with mortalityRate := data.mortalityRate + mortalityStep },
      spawned ++ [.resurrected])
  else
    buryModule os module world data

/-- Count a missed heartbeat, and resurrect the module after the last one. -/
def checkHeartbeat (module : Str) (world : World ω) (data : ModuleData) : Effect ω :=
  let now := clock.reading world.ticks
  let world := { world with ticks := world.ticks + 1 }
  if now - data.lastHeartbeat > milliseconds data.heartbeatInterval.toNat then
    let data := { data with missedHeartbeats := data.missedHeartbeats + 1 }
    if data.missedHeartbeats ≥ maxMissedHeartbeats then
      resurrectModule os clock module world data
    else
      (world, data, [])
  else
    (world, data, [])

/-- Decrease the mortality rate for every stability interval. -/
def checkStability (world : World ω) (data : ModuleData) : Effect ω :=
  let now := clock.reading world.ticks
  if now - data.lastStabilityCheck ≥ milliseconds stabilityCheckInterval then
    let rate :=
      if data.mortalityRate ≥ mortalityDecrease then
        data.mortalityRate - mortalityDecrease
      else
        0
    ({ world with ticks := world.ticks + 2 },
      { data with
        mortalityRate := rate
        lastStabilityCheck := clock.reading (world.ticks + 1) },
      [.checked now data.running, .decreased now data.mortalityRate rate])
  else
    ({ world with ticks := world.ticks + 1 }, data, [.checked now data.running])

/-- The body of the loop of the watchdog thread, for one module. -/
def guardModule (module : Str) (world : World ω) (data : ModuleData) : Effect ω :=
  if !data.buried then
    if data.running then
      let (state, result) := os.waitpid world.os data.pid
      let world := { world with os := state }
      if result = 0 then
        let (world, data, first) := checkHeartbeat os clock module world data
        let (world, data, second) := checkStability clock world data
        (world, data, first ++ second)
      else
        resurrectModule os clock module world data
    else
      (world, data, [])
  else
    (world, data, [])

def heartbeat (world : World ω) (data : ModuleData) : Effect ω :=
  ({ world with ticks := world.ticks + 1 },
    { data with
      lastHeartbeat := clock.reading world.ticks
      missedHeartbeats := if data.missedHeartbeats ≠ 0 then 0 else data.missedHeartbeats },
    [])

def setHeartbeatInterval (interval : UInt32) (world : World ω) (data : ModuleData) :
    Effect ω :=
  (world, { data with heartbeatInterval := interval }, [])

end Watchdog

/-- The watchdog with all its modules. -/
structure Watchdog (ω : Type u) where
  modules : Std.ExtTreeMap Str ModuleData
  world : World ω

/-- Something that happened to a module. -/
structure Report where
  module : Str
  happening : Happening
  deriving DecidableEq

namespace Watchdog

variable {ω : Type u} (os : Os ω) (clock : Clock)

/-- The data of a module after the constructor. -/
def newModule (now : Timepoint) : ModuleData where
  running := false
  buried := false
  pid := -1
  heartbeatInterval := defaultHeartbeatInterval
  lastHeartbeat := now
  missedHeartbeats := 0
  lastStabilityCheck := 0
  mortalityRate := 0

/-- The constructor, for the modules found in the module directory. -/
def new (names : List Str) (state : ω) : Watchdog ω :=
  names.foldl (fun watchdog name =>
    { modules := watchdog.modules.insertIfNew name (newModule (clock.reading watchdog.world.ticks))
      world := { watchdog.world with ticks := watchdog.world.ticks + 1 } })
    ⟨∅, ⟨state, 0⟩⟩

/-- Call a function for a module; nothing happens for an unknown one. -/
def change (effect : Str → World ω → ModuleData → Effect ω) (watchdog : Watchdog ω)
    (module : Str) : Watchdog ω × List Report :=
  match watchdog.modules[module]? with
  | none => (watchdog, [])
  | some data =>
      let (world, data, happenings) := effect module watchdog.world data
      (⟨watchdog.modules.insert module data, world⟩, happenings.map (Report.mk module))

/-- Call a function for one module after the other. -/
def changeAll (effect : Str → World ω → ModuleData → Effect ω) :
    Watchdog ω → List Str → Watchdog ω × List Report
  | watchdog, [] => (watchdog, [])
  | watchdog, module :: left =>
      let (watchdog, first) := change effect watchdog module
      let (watchdog, rest) := changeAll effect watchdog left
      (watchdog, first ++ rest)

/-- What can happen to a watchdog.  The operating system moves on its own. -/
inductive Op (ω : Type u) where
  | start
  | round
  | heartbeat (module : Str)
  | setHeartbeatInterval (module : Str) (interval : UInt32)
  | system (change : ω → ω)

/-- The watchdog over a module directory and an operating system. -/
def machine (names : List Str) (state : ω) : Machine (Watchdog ω) (Op ω) Report where
  start := new clock names state
  step watchdog
    | .start => changeAll (fun _ => spawnModule os clock) watchdog watchdog.modules.keys
    | .round => changeAll (guardModule os clock) watchdog watchdog.modules.keys
    | .heartbeat module => change (fun _ => heartbeat clock) watchdog module
    | .setHeartbeatInterval module interval =>
        change (fun _ => setHeartbeatInterval interval) watchdog module
    | .system change => (⟨watchdog.modules, ⟨change watchdog.world.os, watchdog.world.ticks⟩⟩, [])

end Watchdog

end Sentri.Core
