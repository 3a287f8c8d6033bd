import Sentri.Core.Queues
import Sentri.Core.Watchdog.Supervision

/-!
# Burial

A module that died too often is buried: it is killed, its queue is removed from
the messenger and the user gets a system message.  This is final.  The watchdog
is coupled with the messenger here, and the system is one that gets rid of every
killed process in time.
-/

namespace Sentri.Core.Watchdog

open Sentri.LibModule Sentri.Text Sentri.Transition

universe u

variable {ω : Type u} {os : Os ω} {clock : Clock}

/-! ## Systems that get rid of killed processes -/

/-- The state after some polls for a process. -/
def polled (os : Os ω) (pid : Int) (polls : Nat) (state : ω) : ω :=
  (fun state => (os.waitpid state pid).1)^[polls] state

/-- The process, or the process group, of a module. -/
def IsTarget (target : Int) : Prop :=
  1 < target ∨ target < -1

/-- A killed process is reported by one of the polls for it, and there is nothing
to wait for afterwards.  The pid of a new process is not that of the first one. -/
structure Reaping (os : Os ω) : Prop where
  fork_ne : ∀ state, (os.fork state).2 ≠ 1
  reported : ∀ state target, IsTarget target →
    ∃ polls ≤ os.killPolls (os.kill state target),
      (os.waitpid (polled os target polls (os.kill state target)) target).2 ≠ 0
  gone : ∀ state target, IsTarget target → (os.waitpid state target).2 ≠ 0 →
    (os.waitpid (os.waitpid state target).1 target).2 ≠ 0

theorem awaitKilled_reports (reaping : Reaping os) {target : Int} (isTarget : IsTarget target)
    {polls last : Nat} (le : last ≤ polls) {state : ω}
    (reported : (os.waitpid (polled os target last state) target).2 ≠ 0) :
    (os.waitpid (awaitKilled os target polls state) target).2 ≠ 0 := by
  induction polls generalizing last state with
  | zero =>
      obtain rfl := Nat.le_zero.mp le
      exact reaping.gone state target isTarget reported
  | succ polls ih =>
      simp only [awaitKilled]
      split
      · rename_i here
        exact reaping.gone state target isTarget here
      · rename_i silent
        cases last with
        | zero => exact absurd reported silent
        | succ last => exact ih (Nat.le_of_succ_le_succ le) reported

theorem killTarget_isTarget {state : ω} {data : ModuleData} (own : 1 < data.pid) :
    IsTarget (killTarget os state data) := by
  unfold killTarget IsTarget
  split <;> omega

/-- The system has reported the end of a process, or of its group. -/
def Gone (os : Os ω) (state : ω) (pid : Int) : Prop :=
  (os.waitpid state pid).2 ≠ 0 ∨ (os.waitpid state (-pid)).2 ≠ 0

theorem gone_of_killTarget {state after : ω} {data : ModuleData}
    (reported : (os.waitpid after (killTarget os state data)).2 ≠ 0) :
    Gone os after data.pid := by
  unfold killTarget at reported
  split at reported
  · exact Or.inr reported
  · exact Or.inl reported

/-- A kill stops a module, and its process is gone. -/
theorem killModule_stops (reaping : Reaping os) (world : World ω) {data : ModuleData}
    (own : 1 < data.pid) :
    (killModule os world data).2 = { data with running := false } ∧
      Gone os (killModule os world data).1.os data.pid := by
  have isTarget : IsTarget (killTarget os world.os data) := killTarget_isTarget own
  rcases reaping.reported world.os _ isTarget with ⟨last, le, reported⟩
  have stopped := awaitKilled_reports reaping isTarget le reported
  have gone := reaping.gone _ _ isTarget stopped
  simp only [killModule, if_pos stopped]
  exact ⟨trivial, gone_of_killTarget gone⟩

/-! ## The burial of a module -/

/-- The notices of a burial among some happenings. -/
def notices (module : Str) (happenings : List Happening) : Nat × Nat :=
  (happenings.count .queueRemoved,
    happenings.count (.systemMessage (buriedMessage module)))

theorem notices_append (module : Str) (first second : List Happening) :
    notices module (first ++ second) = notices module first + notices module second := by
  simp [notices]

/-- The module goes on, with a process of its own if it is running. -/
structure GoesOn (module : Str) (data : ModuleData) (happenings : List Happening) : Prop where
  own : data.running = true → 1 < data.pid
  free : data.buried = false
  unnoticed : notices module happenings = (0, 0)

/-- The module is buried, and its process is gone. -/
structure Ends (os : Os ω) (module : Str) (state : ω) (data : ModuleData)
    (happenings : List Happening) : Prop where
  stopped : data.running = false
  buried : data.buried = true
  gone : Gone os state data.pid
  noticed : notices module happenings = (1, 1)

variable (clock) in
theorem spawnModule_goesOn (reaping : Reaping os) (module : Str) (world : World ω)
    (data : ModuleData) (own : data.running = true → 1 < data.pid)
    (free : data.buried = false) :
    GoesOn module (spawnModule os clock world data).2.1
      (spawnModule os clock world data).2.2 := by
  cases running : data.running with
  | true =>
      simp only [spawnModule, running, Bool.not_true, Bool.false_and, Bool.false_eq_true,
        if_false]
      exact ⟨own, free, rfl⟩
  | false =>
      by_cases forked : (os.fork world.os).2 > 0
      · simp only [spawnModule, running, free, Bool.not_false, Bool.and_self, if_true,
          if_pos forked]
        have other := reaping.fork_ne world.os
        have positive : 1 < (os.fork world.os).2 := by omega
        exact ⟨fun _ => positive, rfl, by simp [notices]⟩
      · simp only [spawnModule, running, free, Bool.not_false, Bool.and_self, if_true,
          if_neg forked]
        exact ⟨own, free, rfl⟩

/-- A module that has stopped is buried. -/
theorem buryModule_ends (reaping : Reaping os) (module : Str) (world : World ω)
    {data : ModuleData} (own : 1 < data.pid) (stopped : data.running = false) :
    let effect := buryModule os module world data
    Ends os module effect.1.os effect.2.1 effect.2.2 := by
  intro effect
  have noticed : notices module effect.2.2 = (1, 1) := by simp [effect, buryModule, notices]
  by_cases silent : (os.waitpid world.os data.pid).2 = 0
  · let reaped : World ω := { world with os := (os.waitpid world.os data.pid).1 }
    rcases killModule_stops reaping reaped own with ⟨killed, gone⟩
    have equal : effect = ((killModule os reaped data).1,
        { data with running := false, buried := true }, effect.2.2) := by
      simp only [effect, buryModule, if_pos silent, reaped] at killed ⊢
      rw [killed]
    rw [equal]
    exact ⟨rfl, rfl, gone, noticed⟩
  · have gone : Gone os (os.waitpid world.os data.pid).1 data.pid :=
      Or.inl (reaping.gone world.os data.pid (Or.inl own) silent)
    have equal : effect = ({ world with os := (os.waitpid world.os data.pid).1 },
        { data with buried := true }, effect.2.2) := by
      simp only [effect, buryModule, if_neg silent]
    rw [equal]
    exact ⟨stopped, rfl, gone, noticed⟩

variable (clock) in
/-- A module whose process is its own goes on or is buried. -/
theorem resurrectModule_burial (reaping : Reaping os) (module : Str) (world : World ω)
    (data : ModuleData) (own : 1 < data.pid) (free : data.buried = false) :
    let effect := resurrectModule os clock module world data
    GoesOn module effect.2.1 effect.2.2 ∨
      Ends os module effect.1.os effect.2.1 effect.2.2 := by
  intro effect
  have stopped := (killModule_stops reaping world own).1
  by_cases below : data.mortalityRate < criticalMortalityRate
  · left
    have goesOn := spawnModule_goesOn clock reaping module (killModule os world data).1
      { data with running := false } (fun running => by cases running) free
    simp only [effect, resurrectModule, stopped, if_pos below]
    refine ⟨goesOn.own, goesOn.free, ?_⟩
    rw [notices_append, goesOn.unnoticed]
    simp [notices]
  · right
    simp only [effect, resurrectModule, stopped, if_neg below]
    exact buryModule_ends reaping module _ own rfl

theorem GoesOn.after {module : Str} {data : ModuleData} {happenings added : List Happening}
    (goesOn : GoesOn module data happenings) {next : ModuleData}
    (running : next.running = data.running) (pid : next.pid = data.pid)
    (buried : next.buried = data.buried) (unnoticed : notices module added = (0, 0)) :
    GoesOn module next (happenings ++ added) where
  own := by
    rw [running, pid]
    exact goesOn.own
  free := buried.trans goesOn.free
  unnoticed := by
    rw [notices_append, goesOn.unnoticed, unnoticed]
    rfl

theorem Ends.after {module : Str} {state : ω} {data : ModuleData}
    {happenings added : List Happening} (ends : Ends os module state data happenings)
    {next : ModuleData} (running : next.running = data.running) (pid : next.pid = data.pid)
    (buried : next.buried = data.buried) (unnoticed : notices module added = (0, 0)) :
    Ends os module state next (happenings ++ added) where
  stopped := running.trans ends.stopped
  buried := buried.trans ends.buried
  gone := by
    rw [pid]
    exact ends.gone
  noticed := by
    rw [notices_append, ends.noticed, unnoticed]
    rfl

variable (clock) in
theorem checkStability_notices (module : Str) (world : World ω) (data : ModuleData) :
    let effect := checkStability clock world data
    notices module effect.2.2 = (0, 0) ∧ effect.2.1.running = data.running ∧
      effect.2.1.pid = data.pid ∧ effect.2.1.buried = data.buried ∧
      effect.1.os = world.os := by
  intro effect
  rcases checkStability_cases clock world data with
    ⟨_, rate, _, worldEq, dataEq, happeningsEq⟩ | ⟨_, equal⟩
  · simp [effect, worldEq, dataEq, happeningsEq, notices]
  · simp [effect, equal, notices]

variable (clock) in
/-- A visit of the guard loop leaves a module that is not running alone; the
others go on or are buried. -/
theorem guardModule_burial (reaping : Reaping os) (module : Str) (world : World ω)
    (data : ModuleData) (own : data.running = true → 1 < data.pid) :
    let effect := guardModule os clock module world data
    ((data.buried = true ∨ data.running = false) ∧ effect = (world, data, [])) ∨
      data.buried = false ∧
        (GoesOn module effect.2.1 effect.2.2 ∨
          Ends os module effect.1.os effect.2.1 effect.2.2) := by
  intro effect
  let reaped : World ω := { world with os := (os.waitpid world.os data.pid).1 }
  rcases guardModule_cases os clock module world data with
    ⟨idle, equal⟩ | ⟨free, running, _, equal⟩ | ⟨free, running, _, equal⟩
  · exact Or.inl ⟨idle, equal⟩
  · simp only [effect, equal]
    exact Or.inr ⟨free, resurrectModule_burial clock reaping module reaped data (own running) free⟩
  · simp only [effect, equal]
    let stage := checkHeartbeat os clock module reaped data
    have first : GoesOn module stage.2.1 stage.2.2 ∨
        Ends os module stage.1.os stage.2.1 stage.2.2 := by
      rcases checkHeartbeat_cases os clock module reaped data with
        ⟨_, checked⟩ | ⟨_, _, checked⟩ | ⟨_, _, checked⟩
      · simp only [stage, checked]
        exact Or.inl ⟨own, free, rfl⟩
      · simp only [stage, checked]
        exact Or.inl ⟨own, free, rfl⟩
      · simp only [stage, checked]
        exact resurrectModule_burial clock reaping module _ _ (own running) free
    obtain ⟨unnoticed, same, samePid, sameBuried, sameOs⟩ :=
      checkStability_notices clock module stage.1 stage.2.1
    refine Or.inr ⟨free, ?_⟩
    rcases first with goesOn | ends
    · exact Or.inl (goesOn.after same samePid sameBuried unnoticed)
    · refine Or.inr ?_
      rw [sameOs]
      exact ends.after same samePid sameBuried unnoticed

/-! ## Runs -/

/-- A round does nothing to a buried module. -/
def Rests (item : Op ω × Visit ω) : Prop :=
  isRound item.1 = true → item.2.data.buried = true →
    item.2.effect = (item.2.world, item.2.data, [])

/-- A visit that buries a module leaves nothing of its process. -/
def Clears (os : Os ω) (item : Op ω × Visit ω) : Prop :=
  item.2.data.buried = false → item.2.effect.2.1.buried = true →
    Gone os item.2.effect.1.os item.2.effect.2.1.pid

theorem clears_of_same {item : Op ω × Visit ω}
    (same : item.2.effect.2.1.buried = item.2.data.buried) : Clears os item := by
  intro free buried
  rw [same, free] at buried
  cases buried

/-- A buried module has stopped and was noticed once; the others were not. -/
structure Settled (os : Os ω) (module : Str) (data : ModuleData)
    (items : List (Op ω × Visit ω)) : Prop where
  own : data.running = true → 1 < data.pid
  stopped : data.buried = true → data.running = false
  noticed : notices module (happeningsOf items) = if data.buried then (1, 1) else (0, 0)
  visits : ∀ item ∈ items, Rests item ∧ Clears os item

namespace Settled

variable {module : Str} {data next : ModuleData} {items : List (Op ω × Visit ω)}
  {item : Op ω × Visit ω}

theorem visits_concat (settled : Settled os module data items) (rests : Rests item)
    (clears : Clears os item) : ∀ other ∈ items ++ [item], Rests other ∧ Clears os other := by
  intro other member
  rcases List.mem_append.mp member with old | new
  · exact settled.visits other old
  · rw [List.mem_singleton.mp new]
    exact ⟨rests, clears⟩

/-- A visit without a notice that leaves the module as it is. -/
theorem pass (settled : Settled os module data items) (running : next.running = data.running)
    (pid : next.pid = data.pid) (buried : next.buried = data.buried)
    (unnoticed : notices module item.2.effect.2.2 = (0, 0)) (rests : Rests item)
    (clears : Clears os item) : Settled os module next (items ++ [item]) where
  own := by
    rw [running, pid]
    exact settled.own
  stopped := by
    rw [running, buried]
    exact settled.stopped
  noticed := by
    rw [happeningsOf_concat, notices_append, unnoticed, settled.noticed, buried]
    split <;> rfl
  visits := settled.visits_concat rests clears

theorem goOn (settled : Settled os module data items) (free : data.buried = false)
    (goesOn : GoesOn module next item.2.effect.2.2) (rests : Rests item)
    (clears : Clears os item) : Settled os module next (items ++ [item]) where
  own := goesOn.own
  stopped := by
    intro buried
    rw [goesOn.free] at buried
    cases buried
  noticed := by
    rw [happeningsOf_concat, notices_append, goesOn.unnoticed, settled.noticed, free,
      goesOn.free]
    rfl
  visits := settled.visits_concat rests clears

theorem bury {state : ω} (settled : Settled os module data items) (free : data.buried = false)
    (ends : Ends os module state next item.2.effect.2.2) (rests : Rests item)
    (clears : Clears os item) : Settled os module next (items ++ [item]) where
  own := by
    intro running
    rw [ends.stopped] at running
    cases running
  stopped := fun _ => ends.stopped
  noticed := by
    rw [happeningsOf_concat, notices_append, ends.noticed, settled.noticed, free, ends.buried]
    rfl
  visits := settled.visits_concat rests clears

end Settled

theorem settled_run (reaping : Reaping os) (clock : Clock) (names : List Str) (state : ω)
    (ops : List (Op ω)) :
    Everywhere (fun module _ data items => Settled os module data items)
      ((observer os clock names state).run ops) := by
  refine everywhere_run names state ?_ ?_ ?_ ops
  · intro module ticks later data items _ settled
    exact settled
  · intro module ticks now
    constructor
    · intro running
      cases running
    · intro buried
      cases buried
    · rfl
    · simp
  · intro op effect equal module world data items settled
    cases op, effect, equal using called_cases with
    | start =>
        have quiet : ∀ effect, Rests ((.start : Op ω), ⟨module, world, data, effect⟩) := by
          intro effect inRound
          cases inRound
        cases free : data.buried with
        | true =>
            have same : spawnModule os clock world data = (world, data, []) := by
              simp [spawnModule, free]
            simp only [same]
            exact settled.pass rfl rfl rfl rfl (quiet _) (clears_of_same rfl)
        | false =>
            have goesOn :=
              spawnModule_goesOn clock reaping module world data settled.own free
            exact settled.goOn free goesOn (quiet _)
              (clears_of_same (goesOn.free.trans free.symm))
    | round =>
        rcases guardModule_burial clock reaping module world data settled.own with
          ⟨_, same⟩ | ⟨free, goesOn | ends⟩
        · rw [same]
          exact settled.pass rfl rfl rfl rfl (fun _ _ => rfl) (clears_of_same rfl)
        · exact settled.goOn free goesOn (fun _ buried => absurd buried (by simp [free]))
            (clears_of_same (goesOn.free.trans free.symm))
        · exact settled.bury free ends (fun _ buried => absurd buried (by simp [free]))
            fun _ _ => ends.gone
    | heartbeat name =>
        exact settled.pass rfl rfl rfl rfl (fun inRound => by cases inRound)
          (clears_of_same rfl)
    | setHeartbeatInterval name interval =>
        exact settled.pass rfl rfl rfl rfl (fun inRound => by cases inRound)
          (clears_of_same rfl)

/-! ## The watchdog and the messenger -/

/-- The watchdog and the messenger whose queues it manages. -/
structure Guarded (ω : Type u) where
  watchdog : Watchdog ω
  queues : Queues

/-- A burial removes the queue of the module. -/
def deliver (queues : Queues) (report : Report) : Queues :=
  match report.happening with
  | .queueRemoved => Messenger.removeQueue report.module queues
  | _ => queues

/-- The watchdog with its messenger: the constructor adds a queue for every
module. -/
def coupled (os : Os ω) (clock : Clock) (room : QueueNames → Str → Bool) (names : List Str)
    (state : ω) (queues : Queues) : Machine (Guarded ω) (Op ω) Report where
  start :=
    { watchdog := new clock names state
      queues := names.foldl (fun queues name => Messenger.addQueue room name queues) queues }
  step guarded op :=
    let (watchdog, reports) := (machine os clock names state).step guarded.watchdog op
    ({ watchdog := watchdog, queues := reports.foldl deliver guarded.queues }, reports)

theorem coupled_watchdog (room : QueueNames → Str → Bool) (names : List Str) (state : ω)
    (queues : Queues) (ops : List (Op ω)) :
    let run := (coupled os clock room names state queues).run ops
    run.state.watchdog = ((machine os clock names state).run ops).state ∧
      run.trace = ((machine os clock names state).run ops).trace := by
  induction ops using List.reverseRecOn with
  | nil => exact ⟨rfl, rfl⟩
  | append_singleton ops op ih =>
      rcases ih with ⟨stateEq, traceEq⟩
      simp only [Machine.run_concat, Machine.extend_state, Machine.extend_trace, coupled]
        at stateEq traceEq ⊢
      rw [stateEq, traceEq]
      exact ⟨rfl, rfl⟩

theorem coupled_queues (room : QueueNames → Str → Bool) (names : List Str) (state : ω)
    (queues : Queues) (ops : List (Op ω)) :
    let run := (coupled os clock room names state queues).run ops
    run.state.queues = (run.trace.map Prod.snd).foldl deliver
      (coupled os clock room names state queues).start.queues := by
  induction ops using List.reverseRecOn with
  | nil => rfl
  | append_singleton ops op ih =>
      simp only [Machine.run_concat, Machine.extend_state, Machine.extend_trace,
        List.map_append, List.foldl_append, ← ih, List.map_map]
      simp [coupled, Function.comp_def]

theorem hasQueue_deliver {module : Str} {queues : Queues} (reports : List Report) :
    Messenger.HasQueue module (reports.foldl deliver queues) ↔
      Messenger.HasQueue module queues ∧ ⟨module, .queueRemoved⟩ ∉ reports := by
  induction reports generalizing queues with
  | nil => simp
  | cons report reports ih =>
      rw [List.foldl_cons, ih, List.mem_cons, not_or]
      rcases report with ⟨other, happening⟩
      cases happening with
      | queueRemoved =>
          simp only [deliver, Messenger.hasQueue_removeQueue, Report.mk.injEq, and_true]
          constructor
          · rintro ⟨⟨different, held⟩, rest⟩
            exact ⟨held, fun equal => different equal.symm, rest⟩
          · rintro ⟨held, different, rest⟩
            exact ⟨⟨fun equal => different equal.symm, held⟩, rest⟩
      | _ => simp [deliver]

theorem mem_deliver {module : Str} {queues : Queues} (reports : List Report) :
    module ∈ (reports.foldl deliver queues).messenger.messageQueues ↔
      module ∈ queues.messenger.messageQueues ∧ ⟨module, .queueRemoved⟩ ∉ reports := by
  induction reports generalizing queues with
  | nil => simp
  | cons report reports ih =>
      rw [List.foldl_cons, ih, List.mem_cons, not_or]
      rcases report with ⟨other, happening⟩
      cases happening with
      | queueRemoved =>
          simp only [deliver, Messenger.mem_removeQueue, Report.mk.injEq, and_true]
          constructor
          · rintro ⟨⟨different, held⟩, rest⟩
            exact ⟨held, fun equal => different equal.symm, rest⟩
          · rintro ⟨held, different, rest⟩
            exact ⟨⟨fun equal => different equal.symm, held⟩, rest⟩
      | _ => simp [deliver]

theorem hasQueue_start {room : QueueNames → Str → Bool}
    (roomy : ∀ names id, room names id = true) {module : Str} {names : List Str}
    (known : module ∈ names) (queues : Queues) :
    Messenger.HasQueue module
      (names.foldl (fun queues name => Messenger.addQueue room name queues) queues) := by
  induction names using List.reverseRecOn with
  | nil => cases known
  | append_singleton names name ih =>
      rw [List.foldl_append, List.foldl_cons, List.foldl_nil, Messenger.hasQueue_addQueue roomy]
      rcases List.mem_append.mp known with old | new
      · exact Or.inr (ih old)
      · exact Or.inl (List.mem_singleton.mp new).symm

/-- A buried module was noticed, the others were not. -/
theorem Settled.removed_iff {module : Str} {data : ModuleData} {items : List (Op ω × Visit ω)}
    (settled : Settled os module data items) :
    .queueRemoved ∈ happeningsOf items ↔ data.buried = true := by
  have noticed : (happeningsOf items).count .queueRemoved = if data.buried then 1 else 0 := by
    have noticed := congrArg Prod.fst settled.noticed
    change (happeningsOf items).count _ = _ at noticed
    rw [noticed]
    split <;> rfl
  rw [← List.count_pos_iff, noticed]
  cases data.buried <;> simp

theorem mem_reports {module : Str} {happening : Happening} {trace : List (Op ω × Report)} :
    ⟨module, happening⟩ ∈ trace.map Prod.snd ↔
      happening ∈ (about module trace).map Prod.snd := by
  simp only [about, List.mem_map, List.mem_filterMap, Prod.exists]
  constructor
  · rintro ⟨op, report, member, rfl⟩
    exact ⟨op, happening, ⟨op, _, member, by simp⟩, rfl⟩
  · rintro ⟨op, other, ⟨op', report, member, equal⟩, rfl⟩
    refine ⟨op', report, member, ?_⟩
    rcases report with ⟨name, what⟩
    simp only [Option.ite_none_right_eq_some, Option.some.injEq, Prod.mk.injEq] at equal
    rw [equal.1, equal.2.2]

/-- A buried module is buried in every longer run. -/
theorem buried_run_append (reaping : Reaping os) {clock : Clock} {names : List Str} {state : ω}
    {ops more : List (Op ω)} {module : Str} {data later : ModuleData}
    (present : ((observer os clock names state).run ops).state.modules[module]? = some data)
    (laterPresent :
      ((observer os clock names state).run (ops ++ more)).state.modules[module]? = some later)
    (buried : data.buried = true) : later.buried = true := by
  have settled := settled_run reaping clock names state ops module data present
  have laterSettled :=
    settled_run reaping clock names state (ops ++ more) module later laterPresent
  have removed := settled.removed_iff.mpr buried
  apply laterSettled.removed_iff.mp
  rw [Machine.run_append, Machine.foldl_extend_trace]
  rw [visitsTo_append, happeningsOf, List.flatMap_append]
  exact List.mem_append_left _ removed

/-- Burial is final and complete.  A buried module is not running, stays buried,
and no message to it is sent; no round does anything to it; the round that buried it
left nothing of its process; there is one system message about its burial and none about
a module that is not buried; and a module has a queue if and only if it is not
buried. -/
theorem burial_final (reaping : Reaping os) (clock : Clock) (room : QueueNames → Str → Bool)
    (roomy : ∀ names id, room names id = true) (names : List Str) (state : ω)
    (queues : Queues) (ops : List (Op ω)) (module : Str) (data : ModuleData)
    (present : ((coupled os clock room names state queues).run
      ops).state.watchdog.modules[module]? = some data) :
    let run := (coupled os clock room names state queues).run
    let items := visitsTo module ((observer os clock names state).run ops).trace
    let happened := (about module (run ops).trace).map Prod.snd
    (data.buried = true → data.running = false ∧
      (∀ more, ∃ later, (run (ops ++ more)).state.watchdog.modules[module]? = some later ∧
        later.buried = true) ∧
      ∀ trySend message,
        Messenger.sendMessage trySend module message (run ops).state.queues.messenger =
          some false) ∧
    (∀ item ∈ items, Rests item ∧ Clears os item) ∧
    happened.count (.systemMessage (buriedMessage module)) = (if data.buried then 1 else 0) ∧
    (Messenger.HasQueue module (run ops).state.queues ↔ data.buried = false) := by
  intro run items happened
  have observed : ∀ ops, ((observer os clock names state).run ops).state =
      (run ops).state.watchdog := by
    intro ops
    rw [observer_state, (coupled_watchdog room names state queues ops).1]
  have traceEq : ∀ ops, (run ops).trace = ((machine os clock names state).run ops).trace :=
    fun ops => (coupled_watchdog room names state queues ops).2
  have happenedEq : ∀ ops, (about module (run ops).trace).map Prod.snd =
      happeningsOf (visitsTo module ((observer os clock names state).run ops).trace) := by
    intro ops
    rw [traceEq, about_run]
  have settled := settled_run reaping clock names state ops module data
    (by rw [observed]; exact present)
  have known : module ∈ names := by
    rw [← mem_modules_run names state ops, observed, Std.ExtTreeMap.mem_iff_isSome_getElem?,
      present]
    rfl
  have removed : ⟨module, .queueRemoved⟩ ∈ (run ops).trace.map Prod.snd ↔
      data.buried = true := by
    rw [mem_reports, happenedEq, settled.removed_iff]
  have queue : Messenger.HasQueue module (run ops).state.queues ↔ data.buried = false := by
    rw [show (run ops).state.queues = _ from coupled_queues room names state queues ops,
      hasQueue_deliver, removed, Bool.not_eq_true]
    exact and_iff_right (hasQueue_start roomy known queues)
  refine ⟨?_, settled.visits, ?_, queue⟩
  · intro buried
    refine ⟨settled.stopped buried, ?_, ?_⟩
    · intro more
      obtain ⟨later, laterPresent⟩ : ∃ later,
          (run (ops ++ more)).state.watchdog.modules[module]? = some later := by
        rw [← Option.isSome_iff_exists, ← Std.ExtTreeMap.mem_iff_isSome_getElem?, ← observed]
        exact (mem_modules_run names state _ module).mpr known
      refine ⟨later, laterPresent, ?_⟩
      rw [← observed] at present laterPresent
      exact buried_run_append reaping present laterPresent buried
    · apply Messenger.sendMessage_of_absent
      rw [show (run ops).state.queues = _ from coupled_queues room names state queues ops,
        mem_deliver, removed]
      exact fun held => held.2 buried
  · have noticed := congrArg Prod.snd settled.noticed
    change (happeningsOf _).count _ = _ at noticed
    change ((about module (run ops).trace).map Prod.snd).count _ = _
    rw [happenedEq, noticed]
    split <;> rfl

/-- A system with one process that ends when it is killed reaps. -/
theorem silent_reaping : Reaping silent where
  fork_ne _ := by
    change (7 : Int) ≠ 1
    decide
  reported state target isTarget := by
    refine ⟨0, le_rfl, ?_⟩
    change target ≠ 0
    unfold IsTarget at isTarget
    omega
  gone _ _ _ reported := reported

/-- A module that is dead in each of eleven rounds. -/
def dyingOps : List (Op Bool) :=
  .start :: (List.replicate 11 [.system fun _ => false, .round]).flatten

/-- It is buried, and a message to it is not sent. -/
theorem burial_final_dying :
    let run := (coupled silent (Clock.ofList 0 []) (fun _ _ => true) ["module_sms".toList] true
      ⟨⟨"SENTRI_0".toList, ∅⟩, ∅⟩).run dyingOps
    Messenger.sendMessage (fun _ _ => true) "module_sms".toList (.msgAckac 0)
      run.state.queues.messenger = some false := by
  intro run
  obtain ⟨data, present, buried⟩ : ∃ data,
      run.state.watchdog.modules["module_sms".toList]? = some data ∧ data.buried = true := by
    refine ⟨(run.state.watchdog.modules["module_sms".toList]?).getD (newModule 0), ?_, ?_⟩ <;>
      decide +kernel
  have final := burial_final silent_reaping (Clock.ofList 0 []) (fun _ _ => true)
    (fun _ _ => rfl) ["module_sms".toList] true ⟨⟨"SENTRI_0".toList, ∅⟩, ∅⟩ dyingOps
    "module_sms".toList data present
  exact (final.1 buried).2.2 _ _

end Sentri.Core.Watchdog
