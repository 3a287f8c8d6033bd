import Sentri.Core.Watchdog.Ownership

/-!
# The threads of the watchdog

The guard thread and the shutdown are threads of one process.  The shutdown sets a
flag, which the guard thread reads when it goes to sleep, and then kills all modules
without taking the lock that the guard thread holds during a round.

A step of the guard thread is a visit to one module.  A step of the main thread is a
system call, so that the guard thread can come in between the calls of
`killModule`.
-/

namespace Sentri.Core.Watchdog

open Sentri.Text Sentri.Transition Kernel

/-! ## Threads -/

/-- Where the guard thread is. -/
inductive GuardThread where
  | absent
  | asleep
  /-- Before it takes the lock. -/
  | awake
  /-- It holds the lock, and these modules are left of the round. -/
  | guarding (left : List Str)
  deriving DecidableEq

/-- Where the main thread is; at last in `start` or in the shutdown. -/
inductive MainThread where
  | fresh
  | starting (left : List Str)
  | serving
  /-- In `killAll`, between two modules. -/
  | killing (left : List Str)
  /-- Before the call of `kill`. -/
  | signalling (module : Str) (target : Int) (left : List Str)
  /-- Before a call of `waitpid`; some may follow. -/
  | polling (module : Str) (target : Int) (polls : Nat) (left : List Str)
  /-- Before the last call of `waitpid`. -/
  | confirming (module : Str) (target : Int) (left : List Str)
  deriving DecidableEq

/-- The modules that the shutdown has not done with; none if it has not begun. -/
def MainThread.remaining? : MainThread → Option (List Str)
  | .killing left => some left
  | .signalling module _ left => some (module :: left)
  | .polling module _ _ left => some (module :: left)
  | .confirming module _ left => some (module :: left)
  | _ => none

/-- The module whose `killModule` has begun and not ended. -/
def MainThread.victim? : MainThread → Option Str
  | .signalling module _ _ => some module
  | .polling module _ _ _ => some module
  | .confirming module _ _ => some module
  | _ => none

/-- The watchdog with its threads. -/
structure Threads where
  watchdog : Watchdog Kernel
  guard : GuardThread
  /-- Set by `interrupt`; `sleep_for` reads it. -/
  interrupted : Bool
  main : MainThread

inductive Action where
  | start
  /-- The destructor or the signal handler begins: `stopGuarding`, then `killAll`. -/
  | stop
  | main
  | guard
  | heartbeat (module : Str)
  | setHeartbeatInterval (module : Str) (interval : UInt32)

namespace Threads

variable (env : Environment) (clock : Clock)

/-- A step of the guard thread. -/
def guardStep (threads : Threads) : Threads × List Report :=
  match threads.guard with
  | .absent => (threads, [])
  | .asleep => ({ threads with guard := if threads.interrupted then .absent else .awake }, [])
  | .awake => ({ threads with guard := .guarding threads.watchdog.modules.keys }, [])
  | .guarding [] => ({ threads with guard := .asleep }, [])
  | .guarding (module :: left) =>
      let (watchdog, reports) :=
        change (fun module => guardModule (Kernel.os env module) clock module)
        threads.watchdog module
      ({ threads with watchdog := watchdog, guard := .guarding left }, reports)

/-- The same modules in another state of the kernel. -/
def withKernel (threads : Threads) (kernel : Kernel) (main : MainThread) : Threads :=
  { threads with
    watchdog := ⟨threads.watchdog.modules, { threads.watchdog.world with os := kernel }⟩
    main := main }

/-- A step of the main thread. -/
def mainStep (threads : Threads) : Threads × List Report :=
  let kernel := threads.watchdog.world.os
  match threads.main with
  | .fresh => (threads, [])
  | .starting [] => ({ threads with guard := .asleep, main := .serving }, [])
  | .starting (module :: left) =>
      let (watchdog, reports) := change (fun module => spawnModule (Kernel.os env module) clock)
        threads.watchdog module
      ({ threads with watchdog := watchdog, main := .starting left }, reports)
  | .serving => (threads, [])
  | .killing [] => (threads, [])
  | .killing (module :: left) =>
      match threads.watchdog.modules[module]? with
      | none => ({ threads with main := .killing left }, [])
      | some data =>
          let target := killTarget (Kernel.os env module) kernel data
          ({ threads with main := .signalling module target left }, [])
  | .signalling module target left =>
      let kernel := kernel.kill env module target
      let polls := (Kernel.os env module).killPolls kernel
      (threads.withKernel kernel (.polling module target polls left), [])
  | .polling module target polls left =>
      let (kernel, result) := kernel.waitpid env target
      let next := match polls with
        | 0 => .confirming module target left
        | polls + 1 =>
            if result ≠ 0 then .confirming module target left
            else .polling module target polls left
      (threads.withKernel kernel next, [])
  | .confirming module target left =>
      let (kernel, result) := kernel.waitpid env target
      let threads := threads.withKernel kernel (.killing left)
      if result ≠ 0 then
        ({ threads with
            watchdog := ⟨threads.watchdog.modules.modify module fun data =>
              { data with running := false }, threads.watchdog.world⟩ }, [])
      else
        (threads, [])

/-- Has the shutdown not begun? -/
def unstopped (threads : Threads) : Bool :=
  threads.main.remaining?.isNone

/-- Is the main thread in its loop, and the lock free? -/
def serves (threads : Threads) : Bool :=
  threads.main = .serving && match threads.guard with
    | .guarding _ => false
    | _ => true

def step (threads : Threads) : Action → Threads × List Report
  | .start =>
      if threads.main = .fresh then
        ({ threads with main := .starting threads.watchdog.modules.keys }, [])
      else
        (threads, [])
  | .stop =>
      if threads.unstopped then
        ({ threads with
            interrupted := threads.guard ≠ .absent
            main := .killing threads.watchdog.modules.keys }, [])
      else
        (threads, [])
  | .main => threads.mainStep env clock
  | .guard => threads.guardStep env clock
  | .heartbeat module =>
      if threads.serves then
        let (watchdog, reports) :=
          change (fun _ => Watchdog.heartbeat clock) threads.watchdog module
        ({ threads with watchdog := watchdog }, reports)
      else
        (threads, [])
  | .setHeartbeatInterval module interval =>
      if threads.serves then
        let (watchdog, reports) := change (fun _ => Watchdog.setHeartbeatInterval interval)
          threads.watchdog module
        ({ threads with watchdog := watchdog }, reports)
      else
        (threads, [])

end Threads

/-- A state in which an action was taken, and what was reported then. -/
structure Moment where
  threads : Threads
  reports : List Report

/-- The threads of a watchdog. -/
def threaded (env : Environment) (clock : Clock) (names : List Str) (coreGroup : Int) :
    Machine Threads Action Moment where
  start := ⟨new clock names (Kernel.new coreGroup), .absent, false, .fresh⟩
  step threads action :=
    let (next, reports) := threads.step env clock action
    (next, [⟨threads, reports⟩])

/-- Everything has been done that `killAll` does. -/
def Threads.finished (threads : Threads) : Prop :=
  threads.main = .killing []

/-! ## One thread alone -/

section Alone

variable (env : Environment) (clock : Clock)

/-- A round that is not disturbed is the round of the watchdog without threads. -/
theorem guardStep_round (left : List Str) (threads : Threads)
    (guarding : threads.guard = .guarding left) :
    (fun threads => (Threads.guardStep env clock threads).1)^[left.length] threads =
      { threads with
        watchdog := (changeAll (Command.round.effect env clock) threads.watchdog left).1
        guard := .guarding [] } := by
  induction left generalizing threads with
  | nil =>
      rw [List.length_nil, Function.iterate_zero, ← guarding]
      rfl
  | cons module left ih =>
      rw [List.length_cons, Function.iterate_succ_apply]
      have step : (threads.guardStep env clock).1 =
          { threads with
            watchdog := (change (Command.round.effect env clock) threads.watchdog module).1
            guard := .guarding left } := by
        simp only [Threads.guardStep, guarding]
        rfl
      rw [step, ih _ rfl]
      rfl

/-- The polls of `killModule`, one by one. -/
theorem mainStep_polls (module : Str) (target : Int) (left : List Str) (polls : Nat)
    (threads : Threads) (polling : threads.main = .polling module target polls left) :
    ∃ steps, (fun threads => (Threads.mainStep env clock threads).1)^[steps] threads =
      threads.withKernel
        (awaitKilled (Kernel.os env module) target polls threads.watchdog.world.os)
        (.confirming module target left) := by
  induction polls generalizing threads with
  | zero =>
      refine ⟨1, ?_⟩
      rw [Function.iterate_one]
      simp only [Threads.mainStep, polling]
      rfl
  | succ polls ih =>
      let polled := threads.watchdog.world.os.waitpid env target
      by_cases gone : polled.2 ≠ 0
      · refine ⟨1, ?_⟩
        have stop : awaitKilled (Kernel.os env module) target (polls + 1)
            threads.watchdog.world.os = polled.1 := if_pos gone
        rw [Function.iterate_one, stop]
        simp only [Threads.mainStep, polling]
        rw [if_pos gone]
      · have again : awaitKilled (Kernel.os env module) target (polls + 1)
            threads.watchdog.world.os =
              awaitKilled (Kernel.os env module) target polls polled.1 := if_neg gone
        have step : (threads.mainStep env clock).1 =
            threads.withKernel polled.1 (.polling module target polls left) := by
          simp only [Threads.mainStep, polling]
          rw [if_neg gone]
        obtain ⟨steps, final⟩ := ih _ (show (threads.withKernel polled.1
          (.polling module target polls left)).main = _ from rfl)
        refine ⟨steps + 1, ?_⟩
        rw [Function.iterate_succ_apply, step, final, again]
        rfl

theorem modify_eq_insert {modules : Std.ExtTreeMap Str ModuleData} {module : Str}
    {data : ModuleData} {f : ModuleData → ModuleData} (found : modules[module]? = some data) :
    modules.modify module f = modules.insert module (f data) := by
  apply Std.ExtTreeMap.ext_getElem?
  intro other
  simp only [Std.ExtTreeMap.getElem?_modify, Std.ExtTreeMap.getElem?_insert, found,
    Option.map_some]

theorem insert_eq_self {modules : Std.ExtTreeMap Str ModuleData} {module : Str}
    {data : ModuleData} (found : modules[module]? = some data) :
    modules.insert module data = modules := by
  apply Std.ExtTreeMap.ext_getElem?
  intro other
  simp only [Std.ExtTreeMap.getElem?_insert, Std.LawfulEqCmp.compare_eq_iff_eq]
  split
  · rename_i same
    rw [← same, found]
  · rfl

/-- The steps of the main thread for a module make up `killModule`, if nothing
comes in between. -/
theorem mainStep_killModule {module : Str} {left : List Str} {threads : Threads}
    {data : ModuleData} (killing : threads.main = .killing (module :: left))
    (found : threads.watchdog.modules[module]? = some data) :
    ∃ steps, (fun threads => (Threads.mainStep env clock threads).1)^[steps] threads =
      { threads with
        watchdog := (change (Command.killAll.effect env clock) threads.watchdog module).1
        main := .killing left } := by
  let os := Kernel.os env module
  let world := threads.watchdog.world
  let target := killTarget os world.os data
  let killed := world.os.kill env module target
  let awaited := awaitKilled os target (os.killPolls killed) killed
  let polled := awaited.waitpid env target
  have aim : (threads.mainStep env clock).1 =
      { threads with main := .signalling module target left } := by
    simp only [Threads.mainStep, killing, found]
    rfl
  obtain ⟨steps, awaiting⟩ := mainStep_polls env clock module target left (os.killPolls killed)
    (threads.withKernel killed (.polling module target (os.killPolls killed) left)) rfl
  have signal : (Threads.mainStep env clock
      { threads with main := .signalling module target left }).1 =
        threads.withKernel killed (.polling module target (os.killPolls killed) left) := rfl
  have changed : (change (Command.killAll.effect env clock) threads.watchdog module).1 =
      ⟨threads.watchdog.modules.insert module
        (if polled.2 ≠ 0 then { data with running := false } else data),
        { world with os := polled.1 }⟩ := by
    have equal := killModule_eq os world data
    simp only [change, found]
    exact congrArg₂ Watchdog.mk (congrArg _ (congrArg Prod.snd equal)) (congrArg Prod.fst equal)
  refine ⟨steps + 1 + 1 + 1, ?_⟩
  rw [Function.iterate_succ_apply, aim, Function.iterate_succ_apply, signal,
    Function.iterate_succ_apply', awaiting, changed]
  simp only [Threads.mainStep, Threads.withKernel]
  change (if polled.2 ≠ 0 then (_ : Threads × List Report) else _).1 = _
  by_cases gone : polled.2 ≠ 0
  · rw [if_pos gone, if_pos gone]
    rw [modify_eq_insert found]
  · rw [if_neg gone, if_neg gone, insert_eq_self found]

/-- The shutdown without the guard thread is `killAll`. -/
theorem mainStep_killAll (left : List Str) (threads : Threads)
    (killing : threads.main = .killing left) :
    ∃ steps, (fun threads => (Threads.mainStep env clock threads).1)^[steps] threads =
      { threads with
        watchdog := (changeAll (Command.killAll.effect env clock) threads.watchdog left).1
        main := .killing [] } := by
  induction left generalizing threads with
  | nil =>
      refine ⟨0, ?_⟩
      rw [Function.iterate_zero, ← killing]
      rfl
  | cons module left ih =>
      let next := (change (Command.killAll.effect env clock) threads.watchdog module).1
      have first : ∃ steps,
          (fun threads => (Threads.mainStep env clock threads).1)^[steps] threads =
          { threads with watchdog := next, main := .killing left } := by
        cases found : threads.watchdog.modules[module]? with
        | none =>
            refine ⟨1, ?_⟩
            have same : next = threads.watchdog := by simp only [next, change, found]
            rw [Function.iterate_one, same]
            simp only [Threads.mainStep, killing, found]
        | some data => exact mainStep_killModule env clock killing found
      rcases first with ⟨steps, here⟩
      rcases ih { threads with watchdog := next, main := .killing left } rfl with ⟨more, rest⟩
      refine ⟨more + steps, ?_⟩
      rw [Function.iterate_add_apply, here, rest]
      rfl

end Alone

end Sentri.Core.Watchdog
