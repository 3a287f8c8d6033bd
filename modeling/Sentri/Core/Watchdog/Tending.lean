import Sentri.Core.Watchdog.Recording
import Sentri.Core.Watchdog.Checks

/-!
# Modules that nobody looks at

The guard loop passes over a module that is not running.  A module that is not
running and not buried is forgotten: no later round looks at it.  This happens
to a module whose fork fails, and only then.
-/

namespace Sentri.Core.Watchdog

open Sentri.Text Sentri.Transition

universe u

variable {ω : Type u} {os : Os ω} {clock : Clock}

/-! ## The calls of a visit -/

/-- The system calls made by a visit. -/
def Visit.calls (visit : Visit (Recorded ω)) : List SystemCall :=
  visit.effect.1.os.log.drop visit.world.os.log.length

/-- All forks among the calls succeed. -/
def ForksSucceed (calls : List SystemCall) : Prop :=
  ∀ answer, SystemCall.fork answer ∈ calls → 0 < answer

/-- The call is no fork that fails. -/
def succeeds (call : SystemCall) : Bool :=
  match call with
  | .fork answer => 0 < answer
  | _ => true

theorem forksSucceed_iff (calls : List SystemCall) :
    calls.all succeeds = true ↔ ForksSucceed calls := by
  rw [List.all_eq_true]
  constructor
  · intro all answer member
    simpa [succeeds] using all _ member
  · rintro succeed (answer | _ | _) member
    · simpa [succeeds] using succeed answer member
    · rfl
    · rfl

instance (calls : List SystemCall) : Decidable (ForksSucceed calls) :=
  decidable_of_iff _ (forksSucceed_iff calls)

/-- A function leaves this log behind after that one. -/
def Logs (before after : World (Recorded ω)) (calls : List SystemCall) : Prop :=
  after.os.log = before.os.log ++ calls

theorem Logs.refl (world : World (Recorded ω)) : Logs world world [] :=
  (List.append_nil _).symm

theorem Logs.trans {first second third : World (Recorded ω)} {calls more : List SystemCall}
    (one : Logs first second calls) (two : Logs second third more) :
    Logs first third (calls ++ more) := by
  rw [Logs, two, one, List.append_assoc]

theorem Logs.calls_eq {visit : Visit (Recorded ω)} {calls : List SystemCall}
    (logs : Logs visit.world visit.effect.1 calls) : visit.calls = calls := by
  rw [Visit.calls, logs, List.drop_left]

theorem forksSucceed_nil : ForksSucceed [] := by
  simp [ForksSucceed]

theorem forksSucceed_append {first second : List SystemCall} :
    ForksSucceed (first ++ second) ↔ ForksSucceed first ∧ ForksSucceed second := by
  simp only [ForksSucceed, List.mem_append]
  constructor
  · intro all
    exact ⟨fun answer member => all answer (Or.inl member),
      fun answer member => all answer (Or.inr member)⟩
  · rintro ⟨one, two⟩ answer (member | member)
    · exact one answer member
    · exact two answer member

variable (os) in
theorem awaitKilled_log (pid : Int) (polls : Nat) (state : Recorded ω) :
    ∃ calls, (awaitKilled os.recorded pid polls state).log = state.log ++ calls ∧
      ∀ answer, SystemCall.fork answer ∉ calls := by
  induction polls generalizing state with
  | zero => exact ⟨[.waitpid pid (os.waitpid state.system pid).2], rfl, by simp⟩
  | succ polls ih =>
      simp only [awaitKilled]
      split
      · exact ⟨[.waitpid pid (os.waitpid state.system pid).2], rfl, by simp⟩
      · rcases ih (os.recorded.waitpid state pid).1 with ⟨calls, logEq, noFork⟩
        refine ⟨.waitpid pid (os.waitpid state.system pid).2 :: calls, ?_, ?_⟩
        · rw [logEq, Os.recorded, List.append_assoc, List.singleton_append]
        · simpa using noFork

variable (os) in
/-- A kill forks nothing. -/
theorem killModule_log (world : World (Recorded ω)) (data : ModuleData) :
    ∃ calls, Logs world (killModule os.recorded world data).1 calls ∧
      ∀ answer, SystemCall.fork answer ∉ calls := by
  let pid := killTarget os.recorded world.os data
  let killed := os.recorded.kill world.os pid
  obtain ⟨calls, logEq, noFork⟩ :=
    awaitKilled_log os pid (os.recorded.killPolls killed) killed
  let awaited := awaitKilled os.recorded pid (os.recorded.killPolls killed) killed
  have last : (killModule os.recorded world data).1.os =
      (os.recorded.waitpid awaited pid).1 := by
    simp only [killModule]
    split <;> rfl
  refine ⟨.kill pid :: calls ++ [.waitpid pid (os.waitpid awaited.system pid).2], ?_, ?_⟩
  · rw [Logs, last]
    change awaited.log ++ [_] = _
    rw [logEq]
    simp [killed, Os.recorded]
  · simpa using noFork

variable (os clock) in
/-- What `spawnModule` asks the system for, and what comes of it. -/
theorem spawnModule_log (world : World (Recorded ω)) (data : ModuleData) :
    let effect := spawnModule os.recorded clock world data
    (effect = (world, data, []) ∧ (data.running = true ∨ data.buried = true)) ∨
    (data.running = false ∧ data.buried = false ∧
      ∃ answer, Logs world effect.1 [.fork answer] ∧
        ((0 < answer ∧ effect.2.1.running = true) ∨
          (answer ≤ 0 ∧ effect.2.1 = data))) := by
  intro effect
  cases running : data.running with
  | true => simp [effect, spawnModule, running]
  | false =>
      cases buried : data.buried with
      | true => simp [effect, spawnModule, running, buried]
      | false =>
          refine Or.inr ⟨rfl, rfl, (os.fork world.os.system).2, ?_⟩
          by_cases forked : 0 < (os.fork world.os.system).2
          · simp [effect, spawnModule, running, buried, Os.recorded, forked, Logs]
          · simp [effect, spawnModule, running, buried, Os.recorded, forked, Logs,
              not_lt.mp forked]

variable (os) in
/-- A burial forks nothing. -/
theorem buryModule_log (module : Str) (world : World (Recorded ω)) (data : ModuleData) :
    ∃ calls, Logs world (buryModule os.recorded module world data).1 calls ∧
      ∀ answer, SystemCall.fork answer ∉ calls := by
  let reaped : World (Recorded ω) :=
    { world with os := (os.recorded.waitpid world.os data.pid).1 }
  have polled : Logs world reaped [.waitpid data.pid (os.waitpid world.os.system data.pid).2] :=
    rfl
  by_cases running : (os.recorded.waitpid world.os data.pid).2 = 0
  · rcases killModule_log os reaped data with ⟨calls, logs, noFork⟩
    have buries : Logs reaped (buryModule os.recorded module world data).1 calls := by
      simpa [buryModule, running] using logs
    exact ⟨_, polled.trans buries, by simpa using noFork⟩
  · have buries : Logs reaped (buryModule os.recorded module world data).1 [] := by
      simpa [buryModule, running] using Logs.refl reaped
    exact ⟨_, polled.trans buries, by simp⟩

/-! ## Tended and forgotten modules -/

/-- The watchdog will look at the module again, or has told the user that it will
not. -/
def Tended (module : Str) (data : ModuleData) (happenings : List Happening) : Prop :=
  data.running = true ∨
    (data.buried = true ∧ .systemMessage (buriedMessage module) ∈ happenings)

def Forgotten (data : ModuleData) : Prop :=
  data.running = false ∧ data.buried = false

/-- A module is tended after forks that succeeded, and forgotten after one that
failed. -/
def Outcome (module : Str) (calls : List SystemCall) (data : ModuleData)
    (happenings : List Happening) : Prop :=
  (ForksSucceed calls ∧ Tended module data happenings) ∨
    (¬ ForksSucceed calls ∧ Forgotten data)

theorem Forgotten.not_tended {module : Str} {data : ModuleData} {happenings : List Happening}
    (forgotten : Forgotten data) : ¬ Tended module data happenings := by
  rintro (running | ⟨buried, _⟩)
  · rw [forgotten.1] at running
    cases running
  · rw [forgotten.2] at buried
    cases buried

namespace Outcome

variable {module : Str} {calls more : List SystemCall} {data next : ModuleData}
  {happenings added : List Happening}

/-- Nothing that matters for the outcome happens. -/
theorem pass (outcome : Outcome module calls data happenings) (succeed : ForksSucceed more)
    (running : next.running = data.running) (buried : next.buried = data.buried) :
    Outcome module (calls ++ more) next (happenings ++ added) := by
  rcases outcome with ⟨succeeded, tended⟩ | ⟨failed, forgotten⟩
  · refine Or.inl ⟨forksSucceed_append.mpr ⟨succeeded, succeed⟩, ?_⟩
    rcases tended with up | ⟨down, told⟩
    · exact Or.inl (running.trans up)
    · exact Or.inr ⟨buried.trans down, List.mem_append_left _ told⟩
  · refine Or.inr ⟨?_, running.trans forgotten.1, buried.trans forgotten.2⟩
    rw [forksSucceed_append]
    exact fun both => failed both.1

/-- The outcome of calls that come after others. -/
theorem after (outcome : Outcome module calls data happenings) (succeed : ForksSucceed more) :
    Outcome module (more ++ calls) data happenings := by
  rcases outcome with ⟨succeeded, tended⟩ | ⟨failed, forgotten⟩
  · exact Or.inl ⟨forksSucceed_append.mpr ⟨succeed, succeeded⟩, tended⟩
  · refine Or.inr ⟨?_, forgotten⟩
    rw [forksSucceed_append]
    exact fun both => failed both.2

/-- A tended module gets a new outcome. -/
theorem replace (outcome : Outcome module calls data happenings) (up : data.running = true)
    (new : Outcome module more next added) :
    Outcome module (calls ++ more) next (happenings ++ added) := by
  rcases outcome with ⟨succeeded, _⟩ | ⟨_, down, _⟩
  · rcases new with ⟨succeed, tended⟩ | ⟨failed, forgotten⟩
    · refine Or.inl ⟨forksSucceed_append.mpr ⟨succeeded, succeed⟩, ?_⟩
      rcases tended with running | ⟨buried, told⟩
      · exact Or.inl running
      · exact Or.inr ⟨buried, List.mem_append_right _ told⟩
    · refine Or.inr ⟨?_, forgotten⟩
      rw [forksSucceed_append]
      exact fun both => failed both.2
  · rw [up] at down
    cases down

end Outcome

variable (os clock) in
/-- A fork decides whether a forgotten module is tended again. -/
theorem spawnModule_outcome (module : Str) (world : World (Recorded ω)) (data : ModuleData)
    (forgotten : Forgotten data) :
    let effect := spawnModule os.recorded clock world data
    ∃ calls, Logs world effect.1 calls ∧ Outcome module calls effect.2.1 effect.2.2 := by
  intro effect
  rcases spawnModule_log os clock world data with
    ⟨_, up | buried⟩ | ⟨_, _, answer, logs, ⟨positive, up⟩ | ⟨failed, same⟩⟩
  · rw [forgotten.1] at up
    cases up
  · rw [forgotten.2] at buried
    cases buried
  · exact ⟨_, logs, Or.inl ⟨by simpa [ForksSucceed] using positive, Or.inl up⟩⟩
  · refine ⟨_, logs, Or.inr ⟨by simpa [ForksSucceed] using failed, ?_⟩⟩
    rw [same]
    exact forgotten

variable (os clock) in
theorem resurrectModule_outcome (module : Str) (world : World (Recorded ω)) (data : ModuleData)
    (free : data.buried = false) :
    let effect := resurrectModule os.recorded clock module world data
    ∃ calls, Logs world effect.1 calls ∧ Outcome module calls effect.2.1 effect.2.2 := by
  intro effect
  rcases killModule_cases os.recorded world data with ⟨state, running, killed⟩
  rcases killModule_log os world data with ⟨calls, logs, noFork⟩
  have succeed : ForksSucceed calls := fun answer member => absurd member (noFork answer)
  rw [killed] at logs
  by_cases below : data.mortalityRate < criticalMortalityRate
  · have effectEq : effect =
        let (world, data, spawned) :=
          spawnModule os.recorded clock ⟨state, world.ticks⟩ { data with running := running }
        (world, { data with mortalityRate := data.mortalityRate + mortalityStep },
          spawned ++ [.resurrected]) := by
      simp [effect, resurrectModule, killed, below]
    cases running with
    | true =>
        have same : spawnModule os.recorded clock ⟨state, world.ticks⟩
            { data with running := true } =
            (⟨state, world.ticks⟩, { data with running := true }, []) := by
          simp [spawnModule]
        rw [effectEq, same]
        exact ⟨calls, logs, Or.inl ⟨succeed, Or.inl rfl⟩⟩
    | false =>
        obtain ⟨more, forked, outcome⟩ := spawnModule_outcome os clock module
          ⟨state, world.ticks⟩ { data with running := false } ⟨rfl, free⟩
        rw [effectEq]
        refine ⟨calls ++ more ++ [], ?_, (outcome.after succeed).pass forksSucceed_nil rfl rfl⟩
        rw [List.append_nil]
        exact logs.trans forked
  · have effectEq : effect =
        buryModule os.recorded module ⟨state, world.ticks⟩ { data with running := running } := by
      simp [effect, resurrectModule, killed, below]
    obtain ⟨more, buries, noMore⟩ := buryModule_log os module ⟨state, world.ticks⟩
      { data with running := running }
    obtain ⟨next, running', buried⟩ := buryModule_cases os.recorded module
      ⟨state, world.ticks⟩ { data with running := running }
    refine ⟨calls ++ more, ?_, Or.inl ⟨forksSucceed_append.mpr ⟨succeed, ?_⟩, Or.inr ?_⟩⟩
    · rw [effectEq]
      exact logs.trans buries
    · exact fun answer member => absurd member (noMore answer)
    · rw [effectEq, buried]
      simp

variable (os clock) in
/-- The heartbeat check of a running module. -/
theorem checkHeartbeat_outcome (module : Str) (world : World (Recorded ω)) (data : ModuleData)
    (running : data.running = true) (free : data.buried = false) :
    let effect := checkHeartbeat os.recorded clock module world data
    ∃ calls, Logs world effect.1 calls ∧ Outcome module calls effect.2.1 effect.2.2 := by
  intro effect
  rcases checkHeartbeat_cases os.recorded clock module world data with
    ⟨_, equal⟩ | ⟨_, _, equal⟩ | ⟨_, _, equal⟩
  · simp only [effect, equal]
    exact ⟨[], Logs.refl world, Or.inl ⟨forksSucceed_nil, Or.inl running⟩⟩
  · simp only [effect, equal]
    exact ⟨[], Logs.refl world, Or.inl ⟨forksSucceed_nil, Or.inl running⟩⟩
  · simp only [effect, equal]
    exact resurrectModule_outcome os clock module { world with ticks := world.ticks + 1 } _ free

variable (os clock) in
/-- A visit of the guard loop leaves the flags alone, or it finds the module
running and has an outcome. -/
theorem guardModule_outcome (module : Str) (world : World (Recorded ω)) (data : ModuleData) :
    let effect := guardModule os.recorded clock module world data
    ∃ calls, Logs world effect.1 calls ∧
      ((ForksSucceed calls ∧ effect.2.1 = data) ∨
        (data.running = true ∧ Outcome module calls effect.2.1 effect.2.2)) := by
  intro effect
  let reaped : World (Recorded ω) :=
    { world with os := (os.recorded.waitpid world.os data.pid).1 }
  let poll : List SystemCall := [.waitpid data.pid (os.waitpid world.os.system data.pid).2]
  have polled : Logs world reaped poll := rfl
  have noFork : ForksSucceed poll := by simp [ForksSucceed, poll]
  rcases guardModule_cases os.recorded clock module world data with
    ⟨_, equal⟩ | ⟨free, running, _, equal⟩ | ⟨free, running, _, equal⟩
  · simp only [effect, equal]
    exact ⟨[], Logs.refl world, Or.inl ⟨forksSucceed_nil, trivial⟩⟩
  · simp only [effect, equal]
    rcases resurrectModule_outcome os clock module reaped data free with ⟨calls, logs, outcome⟩
    exact ⟨_, polled.trans logs, Or.inr ⟨running, outcome.after noFork⟩⟩
  · simp only [effect, equal]
    obtain ⟨calls, logs, outcome⟩ :=
      checkHeartbeat_outcome os clock module reaped data running free
    let stage := checkHeartbeat os.recorded clock module reaped data
    rcases checkStability_quiet clock stage.1 stage.2.1 with ⟨_, _, _, same, sameBuried, osEq⟩
    have quiet : Logs stage.1 (checkStability clock stage.1 stage.2.1).1 [] := by
      rw [Logs, osEq, List.append_nil]
    exact ⟨_, (polled.trans logs).trans quiet,
      Or.inr ⟨running, (outcome.after noFork).pass forksSucceed_nil same sameBuried⟩⟩

/-- Every visit adds its calls to the log. -/
theorem called_logs {op : Op (Recorded ω)}
    {effect : Str → World (Recorded ω) → ModuleData → Effect (Recorded ω)}
    (equal : called os.recorded clock op = some effect) (module : Str)
    (world : World (Recorded ω)) (data : ModuleData) :
    ∃ calls, Logs world (effect module world data).1 calls := by
  cases op, effect, equal using called_cases with
  | start =>
      rcases spawnModule_log os clock world data with ⟨same, _⟩ | ⟨_, _, answer, logs, _⟩
      · simp only [same]
        exact ⟨[], Logs.refl world⟩
      · exact ⟨_, logs⟩
  | round =>
      rcases guardModule_outcome os clock module world data with ⟨calls, logs, _⟩
      exact ⟨calls, logs⟩
  | heartbeat name =>
      exact ⟨[], Logs.refl world⟩
  | setHeartbeatInterval name interval =>
      exact ⟨[], Logs.refl world⟩

/-! ## Runs -/

/-- All system calls of the visits. -/
def callsOf (items : List (Op (Recorded ω) × Visit (Recorded ω))) : List SystemCall :=
  items.flatMap fun item => item.2.calls

/-- The visits to a module so far decide whether it is tended. -/
def Cared : VisitInvariant (Recorded ω) :=
  fun module _ data items => Outcome module (callsOf items) data (happeningsOf items)

namespace Cared

theorem lasting : Lasting (Cared (ω := ω)) := by
  intro module ticks later data items _ cared
  exact cared

/-- One more visit, in terms of its calls. -/
theorem visit {module : Str} {ticks : Nat} {data : ModuleData}
    {items : List (Op (Recorded ω) × Visit (Recorded ω))} {op : Op (Recorded ω)}
    {visit : Visit (Recorded ω)} {calls : List SystemCall}
    (logs : Logs visit.world visit.effect.1 calls)
    (outcome : Outcome module (callsOf items ++ calls) data
      (happeningsOf items ++ visit.effect.2.2)) :
    Cared module ticks data (items ++ [(op, visit)]) := by
  have callsEq : callsOf (items ++ [(op, visit)]) = callsOf items ++ calls := by
    simp [callsOf, logs.calls_eq]
  rw [Cared, callsEq, happeningsOf_concat]
  exact outcome

theorem survives_guard : Survives (Cared (ω := ω)) .round (guardModule os.recorded clock) := by
  intro module world data items cared
  obtain ⟨calls, logs, ⟨succeed, same⟩ | ⟨running, outcome⟩⟩ :=
    guardModule_outcome os clock module world data
  · apply visit logs
    rw [same]
    exact cared.pass succeed rfl rfl
  · exact visit logs (cared.replace running outcome)

theorem survives_heartbeat (module : Str) :
    Survives (Cared (ω := ω)) (.heartbeat module) fun _ => heartbeat clock := by
  intro name world data items cared
  exact visit (Logs.refl world) (cared.pass forksSucceed_nil rfl rfl)

theorem survives_setHeartbeatInterval (module : Str) (value : UInt32) :
    Survives (Cared (ω := ω)) (.setHeartbeatInterval module value)
      fun _ => setHeartbeatInterval value := by
  intro name world data items cared
  exact visit (Logs.refl world) (cared.pass forksSucceed_nil rfl rfl)

end Cared

/-- The start has still to visit the modules that are left. -/
def Launching (left : List Str) (run : Observation (Recorded ω)) : Prop :=
  left.Nodup ∧ ∀ module data, run.state.modules[module]? = some data →
    (module ∈ left → visitsTo module run.trace = [] ∧ Forgotten data) ∧
    (module ∉ left → Cared module run.state.world.ticks data (visitsTo module run.trace))

theorem Launching.skip (watchdog : Watchdog (Recorded ω))
    (trace : List (Op (Recorded ω) × Visit (Recorded ω))) (module : Str) (left : List Str)
    (absent : watchdog.modules[module]? = none)
    (launching : Launching (module :: left) ⟨watchdog, trace⟩) :
    Launching left ⟨watchdog, trace⟩ := by
  refine ⟨launching.1.of_cons, ?_⟩
  intro other data present
  rcases launching.2 other data present with ⟨waiting, visited⟩
  constructor
  · intro member
    exact waiting (List.mem_cons_of_mem _ member)
  · intro notMember
    apply visited
    rintro (_ | ⟨_, member⟩)
    · rw [absent] at present
      cases present
    · exact notMember member

variable (os clock) in
theorem Launching.spawn (module : Str) (left : List Str) :
    Follows (Launching (ω := ω) (module :: left)) (Launching left) .start
      (fun _ => spawnModule os.recorded clock) module := by
  intro watchdog trace data found launching
  rcases List.nodup_cons.mp launching.1 with ⟨fresh, nodup⟩
  refine ⟨nodup, ?_⟩
  intro other otherData present
  rw [Std.ExtTreeMap.getElem?_insert] at present
  by_cases same : module = other
  · subst same
    rcases (launching.2 module data found).1 List.mem_cons_self with ⟨unvisited, forgotten⟩
    obtain rfl : (spawnModule os.recorded clock watchdog.world data).2.1 = otherData := by
      simpa using present
    refine ⟨fun member => absurd member fresh, fun _ => ?_⟩
    rw [visitsTo_append, unvisited]
    obtain ⟨calls, logs, outcome⟩ :=
      spawnModule_outcome os clock module watchdog.world data forgotten
    let visit : Visit (Recorded ω) := ⟨module, watchdog.world, data,
      spawnModule os.recorded clock watchdog.world data⟩
    have single : visitsTo module [((.start : Op (Recorded ω)), visit)] = [(.start, visit)] :=
      visitsTo_singleton _
    rw [single]
    exact Cared.visit logs outcome
  · rcases launching.2 other otherData (by simpa [same] using present) with ⟨waiting, visited⟩
    rw [visitsTo_append, visitsTo_singleton_of_ne (by exact same), List.append_nil]
    constructor
    · intro member
      exact waiting (List.mem_cons_of_mem _ member)
    · intro notMember
      apply visited
      rintro (_ | ⟨_, member⟩)
      · exact same rfl
      · exact notMember member

/-- The log is made up of the calls of all visits. -/
def Logged (run : Observation (Recorded ω)) : Prop :=
  run.state.world.os.log = callsOf run.trace

theorem Logged.preserves {op : Op (Recorded ω)}
    {effect : Str → World (Recorded ω) → ModuleData → Effect (Recorded ω)}
    (equal : called os.recorded clock op = some effect) :
    Preserves (Logged (ω := ω)) op effect := by
  intro module watchdog trace data found logged
  rcases called_logs equal module watchdog.world data with ⟨calls, logs⟩
  have visitLogs : (⟨module, watchdog.world, data, effect module watchdog.world data⟩ :
      Visit (Recorded ω)).calls = calls := Logs.calls_eq logs
  have logEq : watchdog.world.os.log = callsOf trace := logged
  simp only [Logged, callsOf, List.flatMap_append, List.flatMap_cons, List.flatMap_nil,
    visitLogs, List.append_nil]
  rw [logs, logEq]
  rfl

theorem logged_run (os : Os ω) (clock : Clock) (names : List Str) (state : ω)
    (ops : List (Op ω)) :
    Logged ((observer os.recorded clock names ⟨state, []⟩).run (ops.map Op.recorded)) := by
  have fresh : Logged (observer os.recorded clock names ⟨state, []⟩).fresh :=
    congrArg Recorded.log (new_os names _)
  apply Machine.foldl_invariant _ _ fresh
  intro run op member logged
  rcases List.mem_map.mp member with ⟨op', _, rfl⟩
  apply observed_extend _ _ logged
  · intro effect equal
    exact Logged.preserves equal
  · intro change watchdog trace equal logged
    cases op' with
    | system change' =>
        obtain rfl : (fun state => ⟨change' state.system, state.log⟩) = change := by
          simpa [Op.recorded] using equal
        exact logged
    | _ => cases equal

/-- After the start every visited module is cared for. -/
theorem cared_run (os : Os ω) (clock : Clock) (names : List Str) (state : ω)
    {ops : List (Op ω)} (once : ∀ op ∈ ops, op ≠ .start) :
    Everywhere Cared ((observer os.recorded clock names ⟨state, []⟩).run
      ((.start :: ops).map Op.recorded)) := by
  let machine := observer os.recorded clock names (⟨state, []⟩ : Recorded ω)
  have fresh : Launching machine.fresh.state.modules.keys machine.fresh := by
    constructor
    · exact Std.ExtTreeMap.nodup_keys
    · intro module data present
      rcases new_modules names _ module data present with ⟨now, rfl⟩
      refine ⟨fun _ => ⟨rfl, rfl, rfl⟩, fun absent => absurd ?_ absent⟩
      rw [Std.ExtTreeMap.mem_keys, Std.ExtTreeMap.mem_iff_isSome_getElem?, present]
      rfl
  have started := observed_changeAll_left Launching.skip (Launching.spawn os clock) _ fresh
  have initial : Everywhere Cared (machine.extend machine.fresh .start) := by
    intro module data present
    exact (started.2 module data present).2 List.not_mem_nil
  apply everywhere_foldl names ⟨state, []⟩ Cared.lasting _ initial
  intro op member effect equal
  rcases List.mem_map.mp member with ⟨op', member', rfl⟩
  cases op' with
  | start => exact absurd rfl (once _ member')
  | round =>
      obtain rfl := Option.some.inj equal
      exact Cared.survives_guard
  | heartbeat module =>
      obtain rfl := Option.some.inj equal
      exact Cared.survives_heartbeat module
  | setHeartbeatInterval module value =>
      obtain rfl := Option.some.inj equal
      exact Cared.survives_setHeartbeatInterval module value
  | system change => cases equal

theorem mem_callsOf_visitsTo {module : Str} {call : SystemCall}
    {trace : List (Op (Recorded ω) × Visit (Recorded ω))} :
    call ∈ callsOf (visitsTo module trace) ↔
      ∃ item ∈ trace, item.2.module = module ∧ call ∈ item.2.calls := by
  simp only [callsOf, List.mem_flatMap, mem_visitsTo, and_assoc]

/-- No module is forgotten, unless a fork fails: after the start every module is
running or buried, with a system message to the user, exactly when every fork
that the watchdog asked for succeeded. -/
theorem tended_iff_forks_succeed (os : Os ω) (clock : Clock) (names : List Str) (state : ω)
    (ops : List (Op ω)) (once : ∀ op ∈ ops, op ≠ .start) :
    let run := (machine os.recorded clock names ⟨state, []⟩).run
      ((.start :: ops).map Op.recorded)
    (∀ module data, run.state.modules[module]? = some data →
        Tended module data ((about module run.trace).map Prod.snd)) ↔
      ForksSucceed run.state.world.os.log := by
  intro run
  let seen := (observer os.recorded clock names (⟨state, []⟩ : Recorded ω)).run
    ((.start :: ops).map Op.recorded)
  have stateEq : seen.state = run.state := observer_state names _ _
  have happened : ∀ module, (about module run.trace).map Prod.snd =
      happeningsOf (visitsTo module seen.trace) := about_run names _ _
  have cared := cared_run os clock names state once
  change Everywhere Cared seen at cared
  have known := visited_known os.recorded clock names ⟨state, []⟩
    ((.start :: ops).map Op.recorded)
  have logEq : Logged seen := logged_run os clock names state (.start :: ops)
  rw [← stateEq, show seen.state.world.os.log = _ from logEq]
  constructor
  · intro tended answer member
    rcases List.mem_flatMap.mp member with ⟨item, itemMember, called⟩
    rcases known item itemMember with ⟨data, present⟩
    have told := tended item.2.module data present
    rw [happened] at told
    rcases cared item.2.module data present with ⟨succeed, _⟩ | ⟨_, forgotten⟩
    · exact succeed answer (mem_callsOf_visitsTo.mpr ⟨item, itemMember, rfl, called⟩)
    · exact absurd told forgotten.not_tended
  · intro succeed module data present
    rw [happened]
    rcases cared module data present with ⟨_, tended⟩ | ⟨failed, _⟩
    · exact tended
    · apply absurd _ failed
      intro answer member
      rcases mem_callsOf_visitsTo.mp member with ⟨item, itemMember, _, called⟩
      exact succeed answer (List.mem_flatMap.mpr ⟨item, itemMember, called⟩)

/-- A system in which no fork succeeds. -/
def exhausted : Os Unit where
  fork _ := ((), -1)
  getpgid _ _ := -1
  kill _ _ := ()
  waitpid _ _ := ((), -1)
  killPolls _ := 0

/-- A module whose first fork fails is neither running nor buried after the
start. -/
theorem forgotten_after_failed_fork :
    ¬ ∀ (os : Os Unit) (ops : List (Op Unit)), (∀ op ∈ ops, op ≠ .start) →
      let run := (machine os (Clock.ofList 0 []) ["module_sms".toList] ()).run (.start :: ops)
      ∀ module data, run.state.modules[module]? = some data →
        Tended module data ((about module run.trace).map Prod.snd) := by
  intro always
  let run := (machine exhausted (Clock.ofList 0 []) ["module_sms".toList] ()).run [.start]
  have present : run.state.modules["module_sms".toList]? = some (newModule 0) := by
    decide +kernel
  have tended := always exhausted [] (by simp) "module_sms".toList _ present
  exact Forgotten.not_tended ⟨rfl, rfl⟩ tended

/-- All forks of a module that is dead in each of twelve rounds succeed, so that
it is looked at until it is buried. -/
theorem tended_iff_forks_succeed_short_lived :
    let run := (machine shortLived.recorded (Clock.ofList 0 []) ["module_sms".toList]
      ⟨(), []⟩).run ((.start :: List.replicate 12 .round).map Op.recorded)
    ∀ module data, run.state.modules[module]? = some data →
      Tended module data ((about module run.trace).map Prod.snd) := by
  intro run
  apply (tended_iff_forks_succeed shortLived (Clock.ofList 0 []) ["module_sms".toList] ()
    (List.replicate 12 .round) _).mpr
  · decide +kernel
  · intro op member
    rw [List.eq_of_mem_replicate member]
    simp

end Sentri.Core.Watchdog
