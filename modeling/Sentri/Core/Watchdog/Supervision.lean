import Sentri.Core.Watchdog.Patience

/-!
# Supervision by heartbeats

The counter of missed heartbeats counts the overdue rounds since the last heartbeat or
spawn.  The history of a module tells when a round is overdue: the time of the last
heartbeat or spawn is the reading taken then, and the interval is the last one that was
set.  The count is exact as long as the counter, a 32 bit number, does not wrap around.
-/

namespace Sentri.Core.Watchdog

open Sentri.Text Sentri.Transition

universe u

variable {ω : Type u} (os : Os ω) (clock : Clock)

/-! ## Overdue rounds -/

/-- The time of a heartbeat, or of a spawn. -/
def sign? (item : Op ω × Visit ω) : Option Timepoint :=
  if isHeartbeat item.1 then some (clock.reading item.2.world.ticks)
  else item.2.effect.2.2.findSome? shown?

/-- The interval set by an operation. -/
def interval? (op : Op ω) : Option UInt32 :=
  match op with
  | .setHeartbeatInterval _ interval => some interval
  | _ => none

/-- The time of the last heartbeat or spawn. -/
def lastSign (items : List (Op ω × Visit ω)) : Option Timepoint :=
  items.reverse.findSome? (sign? clock)

/-- The heartbeat interval that was set last. -/
def lastInterval (items : List (Op ω × Visit ω)) : UInt32 :=
  (items.reverse.findSome? fun item => interval? item.1).getD defaultHeartbeatInterval

/-- After these visits, the last heartbeat of the module is older than its interval. -/
def Visit.lateAfter (before : List (Op ω × Visit ω)) (visit : Visit ω) : Bool :=
  match lastSign clock before with
  | none => false
  | some sign =>
      clock.reading visit.world.ticks - sign > milliseconds (lastInterval before).toNat

/-- A round finds the module running, alive and not buried, and its last heartbeat older
than its interval. -/
def overdueAfter (before : List (Op ω × Visit ω)) (item : Op ω × Visit ω) : Bool :=
  isRound item.1 && item.2.data.running && !item.2.data.buried && item.2.alive os &&
    item.2.lateAfter clock before

/-- The overdue rounds since the last heartbeat or spawn, for visits from the last one to
the first one. -/
def overdueRounds : List (Op ω × Visit ω) → Nat
  | [] => 0
  | item :: earlier =>
      if (sign? clock item).isSome then 0
      else overdueRounds earlier + if overdueAfter os clock earlier.reverse item then 1 else 0

/-- The overdue rounds since the last heartbeat or spawn. -/
def overdueSince (items : List (Op ω × Visit ω)) : Nat :=
  overdueRounds os clock items.reverse

section Concat

variable {clock} {items : List (Op ω × Visit ω)} {item : Op ω × Visit ω}

theorem lastSign_concat (items : List (Op ω × Visit ω)) (item : Op ω × Visit ω) :
    lastSign clock (items ++ [item]) = (sign? clock item).or (lastSign clock items) := by
  rw [lastSign, List.reverse_concat, List.findSome?_cons, lastSign]
  cases sign? clock item <;> rfl

theorem lastInterval_concat (items : List (Op ω × Visit ω)) (item : Op ω × Visit ω) :
    lastInterval (items ++ [item]) = (interval? item.1).getD (lastInterval items) := by
  rw [lastInterval, List.reverse_concat, List.findSome?_cons, lastInterval]
  cases interval? item.1 <;> rfl

theorem overdueSince_of_sign {sign : Timepoint} (signs : sign? clock item = some sign) :
    overdueSince os clock (items ++ [item]) = 0 := by
  rw [overdueSince, List.reverse_concat, overdueRounds, signs]
  rfl

theorem overdueSince_concat (noSign : sign? clock item = none) :
    overdueSince os clock (items ++ [item]) =
      overdueSince os clock items + if overdueAfter os clock items item then 1 else 0 := by
  rw [overdueSince, List.reverse_concat, overdueRounds, noSign, List.reverse_reverse]
  rfl

end Concat

/-! ## The law -/

/-- No system call is made for the module but the poll of its process. -/
def Visit.untouched (visit : Visit ω) : Prop :=
  visit.effect.2.1.running = visit.data.running ∧
    (visit.effect.1.os = visit.world.os ∨
      visit.effect.1.os = (os.waitpid visit.world.os visit.data.pid).1)

/-- A round hands a living module over exactly when it is overdue for the fifth
time, and it does not touch a living module with a heartbeat in time. -/
def Exact (before : List (Op ω × Visit ω)) (item : Op ω × Visit ω) : Prop :=
  isRound item.1 = true → item.2.alive os = true →
    (item.2.data.buried = false →
      (item.2.handsOver = true ↔ overdueAfter os clock before item = true ∧
        maxMissedHeartbeats.toNat - 1 ≤ overdueSince os clock before)) ∧
    (item.2.lateAfter clock before = false → item.2.untouched os)

/-- What the watchdog knows about a module agrees with the visits to it. -/
structure Supervised (data : ModuleData) (items : List (Op ω × Visit ω)) : Prop where
  shown : lastSign clock items = some data.lastHeartbeat ∨
    (lastSign clock items = none ∧ data.running = false)
  interval : data.heartbeatInterval = lastInterval items
  counted : data.missedHeartbeats.toNat = overdueSince os clock items
  exactly : Throughout (Exact os clock) items

namespace Supervised

variable {os clock} {data next : ModuleData} {items : List (Op ω × Visit ω)}
  {item : Op ω × Visit ω}

/-- The recorded heartbeat of a running module is its last one. -/
theorem lateAfter_eq (supervised : Supervised os clock data items) {visit : Visit ω}
    (same : visit.data = data) (running : data.running = true) :
    visit.lateAfter clock items = visit.late clock := by
  rcases supervised.shown with shown | ⟨_, stopped⟩
  · rw [Visit.lateAfter, shown, Visit.late, same, supervised.interval]
  · rw [running] at stopped
    cases stopped

/-- A visit without a heartbeat or a spawn. -/
theorem keep (supervised : Supervised os clock data items) (noSign : sign? clock item = none)
    (heartbeat : next.lastHeartbeat = data.lastHeartbeat)
    (stopped : data.running = false → next.running = false)
    (interval : next.heartbeatInterval = (interval? item.1).getD data.heartbeatInterval)
    (missed : next.missedHeartbeats.toNat =
      data.missedHeartbeats.toNat + if overdueAfter os clock items item then 1 else 0)
    (exactly : Exact os clock items item) :
    Supervised os clock next (items ++ [item]) where
  shown := by
    rw [lastSign_concat, noSign, Option.none_or, heartbeat]
    rcases supervised.shown with shown | ⟨never, idle⟩
    · exact Or.inl shown
    · exact Or.inr ⟨never, stopped idle⟩
  interval := by
    rw [lastInterval_concat, interval, supervised.interval]
  counted := by
    rw [overdueSince_concat os noSign, missed, supervised.counted]
  exactly := supervised.exactly.concat exactly

/-- A heartbeat or a spawn. -/
theorem renew (supervised : Supervised os clock data items)
    (signs : sign? clock item = some next.lastHeartbeat)
    (interval : next.heartbeatInterval = (interval? item.1).getD data.heartbeatInterval)
    (missed : next.missedHeartbeats = 0) (exactly : Exact os clock items item) :
    Supervised os clock next (items ++ [item]) where
  shown := by
    rw [lastSign_concat, signs]
    exact Or.inl rfl
  interval := by
    rw [lastInterval_concat, interval, supervised.interval]
  counted := by
    rw [overdueSince_of_sign os signs, missed]
    rfl
  exactly := supervised.exactly.concat exactly

/-- The fifth missed heartbeat, by the counter and by the visits. -/
theorem limit_iff (supervised : Supervised os clock data items)
    (one : (data.missedHeartbeats + 1).toNat = data.missedHeartbeats.toNat + 1) :
    maxMissedHeartbeats ≤ data.missedHeartbeats + 1 ↔
      maxMissedHeartbeats.toNat - 1 ≤ overdueSince os clock items := by
  have count : overdueSince os clock items = data.missedHeartbeats.toNat :=
    supervised.counted.symm
  rw [UInt32.le_iff_toNat_le, one, count]
  change 5 ≤ data.missedHeartbeats.toNat + 1 ↔ 4 ≤ data.missedHeartbeats.toNat
  omega

/-- A late module may be touched. -/
theorem exact_of_late (isLate : item.2.lateAfter clock items = true)
    (hands : item.2.handsOver = true ↔ overdueAfter os clock items item = true ∧
      maxMissedHeartbeats.toNat - 1 ≤ overdueSince os clock items) :
    Exact os clock items item := by
  intro _ _
  constructor
  · intro _
    exact hands
  · intro onTime
    rw [isLate] at onTime
    cases onTime

section

variable {module : Str} {world : World ω} {op : Op ω} {stage effect : Effect ω}

/-- What the check of the heartbeat does decides what a visit shows: the check of the
stability neither spawns nor hands over. -/
theorem visit_shows (inRound : isRound op = true) (free : data.buried = false)
    (running : data.running = true) (alive : (os.waitpid world.os data.pid).2 = 0)
    (happeningsEq : effect.2.2 =
      stage.2.2 ++ (checkStability clock stage.1 stage.2.1).2.2) :
    let item : Op ω × Visit ω := (op, ⟨module, world, data, effect⟩)
    sign? clock item = stage.2.2.findSome? shown? ∧
      item.2.handsOver = stage.2.2.any isHandedOver ∧
      overdueAfter os clock items item = item.2.lateAfter clock items := by
  intro item
  obtain ⟨_, noHand, _⟩ := checkStability_quiet clock stage.1 stage.2.1
  obtain ⟨noSign, _⟩ := checkStability_shown clock stage.1 stage.2.1
  have noBeat : isHeartbeat op = false := by cases op <;> simp_all [isRound, isHeartbeat]
  refine ⟨?_, ?_, ?_⟩
  · simp [sign?, item, noBeat, happeningsEq, List.findSome?_append, noSign]
  · simp only [Visit.handsOver, item, happeningsEq, List.any_append, noHand, Bool.or_false]
  · simp [overdueAfter, item, inRound, running, free, Visit.alive, alive]

/-- A visit of the guard loop to a module whose process is there. -/
theorem guard_alive (inRound : isRound op = true) (supervised : Supervised os clock data items)
    (one : (data.missedHeartbeats + 1).toNat = data.missedHeartbeats.toNat + 1)
    (free : data.buried = false) (running : data.running = true)
    (alive : (os.waitpid world.os data.pid).2 = 0)
    (stageEq : checkHeartbeat os clock module
      { world with os := (os.waitpid world.os data.pid).1 } data = stage)
    (worldEq : effect.1 = (checkStability clock stage.1 stage.2.1).1)
    (dataEq : effect.2.1 = (checkStability clock stage.1 stage.2.1).2.1)
    (happeningsEq : effect.2.2 =
      stage.2.2 ++ (checkStability clock stage.1 stage.2.1).2.2) :
    Supervised os clock effect.2.1 (items ++ [(op, ⟨module, world, data, effect⟩)]) := by
  let reaped : World ω := { world with os := (os.waitpid world.os data.pid).1 }
  let item : Op ω × Visit ω := (op, ⟨module, world, data, effect⟩)
  have limit := supervised.limit_iff one
  have noInterval : interval? op = none := by cases op <;> simp_all [isRound, interval?]
  have awake : data.running = false → effect.2.1.running = false := by
    intro stopped
    rw [running] at stopped
    cases stopped
  obtain ⟨_, _, counter, same, _, osEq⟩ := checkStability_quiet clock stage.1 stage.2.1
  obtain ⟨_, heartbeatEq, intervalEq⟩ := checkStability_shown clock stage.1 stage.2.1
  obtain ⟨signEq, handsEq, overdueEq⟩ :=
    @visit_shows ω os clock data items module world op stage effect inRound free running alive
      happeningsEq
  have lateEq : item.2.lateAfter clock items = item.2.late clock :=
    supervised.lateAfter_eq rfl running
  rcases checkHeartbeat_cases os clock module reaped data with
    ⟨inTime, checked⟩ | ⟨late, few, checked⟩ | ⟨late, many, checked⟩
  · obtain rfl := stageEq.symm.trans checked
    have onTime : item.2.lateAfter clock items = false := by
      rw [lateEq]
      simpa [Visit.late, item] using not_lt.mp inTime
    refine supervised.keep signEq ?_ awake ?_ ?_ ?_
    · rw [dataEq, heartbeatEq]
    · rw [dataEq, intervalEq, noInterval]
      rfl
    · rw [overdueEq, onTime, dataEq, counter]
      rfl
    · intro _ _
      constructor
      · intro _
        rw [handsEq, overdueEq, onTime]
        simp
      · intro _
        exact ⟨dataEq ▸ same, Or.inr (worldEq ▸ osEq)⟩
  · obtain rfl := stageEq.symm.trans checked
    have isLate : item.2.lateAfter clock items = true := by
      rw [lateEq]
      simpa [Visit.late, item] using late
    have short : ¬ maxMissedHeartbeats ≤ data.missedHeartbeats + 1 := UInt32.not_le.mpr few
    refine supervised.keep signEq ?_ awake ?_ ?_ ?_
    · rw [dataEq, heartbeatEq]
    · rw [dataEq, intervalEq, noInterval]
      rfl
    · rw [overdueEq, isLate, dataEq, counter, one]
      rfl
    · apply exact_of_late isLate
      rw [handsEq, overdueEq, isLate, ← limit]
      simp [short]
  · have isLate : item.2.lateAfter clock items = true := by
      rw [lateEq]
      simpa [Visit.late, item] using late
    obtain ⟨handed, keptInterval, outcome⟩ := resurrectModule_missed os clock module
      { reaped with ticks := reaped.ticks + 1 }
      { data with missedHeartbeats := data.missedHeartbeats + 1 }
    rw [← checked, stageEq] at handed outcome keptInterval
    have exactly : Exact os clock items item := by
      apply exact_of_late isLate
      rw [handsEq, overdueEq, isLate, ← limit, handed]
      simp [many]
    have intervals : effect.2.1.heartbeatInterval =
        (interval? op).getD data.heartbeatInterval := by
      rw [dataEq, intervalEq, noInterval, keptInterval]
      rfl
    rcases outcome with ⟨spawned, zero⟩ | ⟨unspawned, kept, keptHeartbeat⟩
    · refine supervised.renew ?_ intervals ?_ exactly
      · rw [dataEq, heartbeatEq, ← spawned]
        exact signEq
      · rw [dataEq, counter, zero]
    · refine supervised.keep (signEq.trans unspawned) ?_ awake intervals ?_ exactly
      · rw [dataEq, heartbeatEq, keptHeartbeat]
      · rw [overdueEq, isLate, dataEq, counter, kept, one]
        rfl

end

/-- A round. -/
theorem guard {module : Str} {world : World ω} (supervised : Supervised os clock data items)
    (room : data.buried = false → data.missedHeartbeats.toNat + 1 < UInt32.size) :
    Supervised os clock (guardModule os clock module world data).2.1
      (items ++ [(.round, ⟨module, world, data, guardModule os clock module world data⟩)]) := by
  rcases guardModule_cases os clock module world data with
    ⟨idle, equal⟩ | ⟨free, running, dead, equal⟩ | ⟨free, running, alive, equal⟩
  · rw [equal]
    refine supervised.keep rfl rfl id rfl ?_ ?_
    · rcases idle with buried | stopped
      · simp [overdueAfter, buried]
      · simp [overdueAfter, stopped]
    · intro _ _
      constructor
      · intro free
        rcases idle with buried | stopped
        · rw [free] at buried
          cases buried
        · simp [Visit.handsOver, overdueAfter, stopped]
      · intro _
        exact ⟨rfl, Or.inl rfl⟩
  · let reaped : World ω := { world with os := (os.waitpid world.os data.pid).1 }
    rcases resurrectModule_missed os clock module reaped data with ⟨_, interval, outcome⟩
    rw [equal]
    have gone : ∀ effect, Visit.alive os ⟨module, world, data, effect⟩ = false := by
      simp [Visit.alive, dead]
    have exactly : ∀ effect : Effect ω,
        Exact os clock items (.round, ⟨module, world, data, effect⟩) := by
      intro effect _ up
      rw [gone] at up
      cases up
    rcases outcome with ⟨spawned, zero⟩ | ⟨unspawned, kept, heartbeat⟩
    · exact supervised.renew spawned interval zero (exactly _)
    · refine supervised.keep unspawned heartbeat ?_ interval ?_ (exactly _)
      · intro stopped
        rw [running] at stopped
        cases stopped
      · rw [kept]
        simp [overdueAfter, gone]
  · have one : (data.missedHeartbeats + 1).toNat = data.missedHeartbeats.toNat + 1 := by
      rw [UInt32.toNat_add]
      exact Nat.mod_eq_of_lt (room free)
    apply supervised.guard_alive rfl one free running alive rfl
    · rw [equal]
    · rw [equal]
    · rw [equal]

/-- A spawn at the start. -/
theorem spawn {module : Str} {world : World ω} (supervised : Supervised os clock data items) :
    Supervised os clock (spawnModule os clock world data).2.1
      (items ++ [(.start, ⟨module, world, data, spawnModule os clock world data⟩)]) := by
  have calm : ∀ effect, Exact os clock items ((.start : Op ω), ⟨module, world, data, effect⟩) := by
    intro effect inRound
    cases inRound
  rcases spawnModule_cases os clock world data with
    ⟨state, spawned⟩ | ⟨_, state, pid, spawned⟩
  · rw [spawned]
    exact supervised.keep rfl rfl id rfl rfl (calm _)
  · rw [spawned]
    exact supervised.renew rfl rfl rfl (calm _)

end Supervised

/-- In every run, what the watchdog knows about a module agrees with the visits to it, as
long as each round found room in the counter. -/
theorem supervised_run (os : Os ω) (clock : Clock) (names : List Str) (state : ω)
    (ops : List (Op ω)) :
    Everywhere (fun _ _ data items =>
        (∀ item ∈ items, Roomy item) → Supervised os clock data items)
      ((observer os clock names state).run ops) := by
  refine everywhere_run names state ?_ ?_ ?_ ops
  · intro module ticks later data items _ held
    exact held
  · intro module ticks now _
    exact ⟨Or.inr ⟨rfl, rfl⟩, rfl, rfl, Throughout.nil⟩
  · intro op effect equal module world data items held rooms
    rw [List.forall_mem_append, List.forall_mem_singleton] at rooms
    have supervised := held rooms.1
    cases op, effect, equal using called_cases with
    | start => exact supervised.spawn
    | round => exact supervised.guard (rooms.2 rfl)
    | heartbeat name =>
        refine supervised.renew rfl rfl (heartbeat_missed clock world data) ?_
        intro inRound
        cases inRound
    | setHeartbeatInterval name interval =>
        refine supervised.keep rfl rfl id rfl rfl ?_
        intro inRound
        cases inRound

/-- Heartbeat supervision is exact, with a clock that is never set back, or with any clock
in fewer rounds than the counter can count.  In every such run the counter of a module is
the number of overdue rounds since its last heartbeat or spawn; a round hands a living
module that is not buried over to `resurrectModule` exactly when it is overdue and at least
four rounds since that heartbeat or spawn were overdue before; and a round only polls a
living module whose heartbeat is in time. -/
theorem heartbeat_supervision_exact (os : Os ω) (clock : Clock) (names : List Str) (state : ω)
    (ops : List (Op ω)) (module : Str) (data : ModuleData)
    (present : ((observer os clock names state).run ops).state.modules[module]? = some data)
    (counts : Monotone clock.reading ∨
      (visitsTo module ((observer os clock names state).run ops).trace).countP
        (fun item => isRound item.1) < UInt32.size) :
    let items := visitsTo module ((observer os clock names state).run ops).trace
    data.missedHeartbeats.toNat = overdueSince os clock items ∧
      Throughout (Exact os clock) items := by
  intro items
  have rooms : ∀ item ∈ items, Roomy item := by
    rcases counts with steady | few
    · exact (roomy_of_steady os steady names state ops module data present).2
    · exact roomy_of_few (missed_le_rounds os clock names state ops module data present).2 few
  have supervised := supervised_run os clock names state ops module data present rooms
  exact ⟨supervised.counted, supervised.exactly⟩

/-- A system with one process that falls silent and ends when it is killed. -/
def silent : Os Bool where
  fork _ := (true, 7)
  getpgid _ pid := pid
  kill _ _ := false
  waitpid up pid := (up, if up then 0 else pid)
  killPolls _ := 0

/-- Six seconds from one reading to the next. -/
def slowClock : Clock :=
  Clock.ofList 0 (List.replicate 40 6000000000)

/-- One heartbeat, and seven rounds in which it grows too old for the interval. -/
def silentOps : List (Op Bool) :=
  [.start, .setHeartbeatInterval "module_sms".toList 15000, .round,
    .heartbeat "module_sms".toList] ++ List.replicate 7 .round

def silentRun : Observation Bool :=
  (observer silent slowClock ["module_sms".toList] true).run silentOps

/-- A round with the heartbeat in time, five overdue ones, the last of which restarts the
module, and the first one that is overdue again. -/
theorem heartbeat_supervision_exact_silent :
    let items := visitsTo "module_sms".toList silentRun.trace
    overdueSince silent slowClock items = 1 ∧
      (∃ before item after, items = before ++ item :: after ∧
        item.2.lateAfter slowClock before = false ∧ item.2.untouched silent) ∧
      ∃ before item after, items = before ++ item :: after ∧
        overdueSince silent slowClock before = 4 ∧ item.2.handsOver = true := by
  intro items
  obtain ⟨data, present, missed⟩ : ∃ data,
      silentRun.state.modules["module_sms".toList]? = some data ∧
        data.missedHeartbeats.toNat = 1 := by
    refine ⟨(silentRun.state.modules["module_sms".toList]?).getD (newModule 0), ?_, ?_⟩ <;>
      decide +kernel
  rcases heartbeat_supervision_exact silent slowClock ["module_sms".toList] true silentOps
    "module_sms".toList data present (Or.inl (Clock.monotone_ofList 0 _)) with ⟨counted, exactly⟩
  have parts : ∀ k item, items[k]? = some item →
      items = items.take k ++ item :: items.drop (k + 1) := by
    intro k item inItems
    rcases List.getElem?_eq_some_iff.mp inItems with ⟨bound, rfl⟩
    rw [List.getElem_cons_drop, List.take_append_drop]
  obtain ⟨second, inSecond, calm⟩ : ∃ item, items[4]? = some item ∧
      (isRound item.1 && item.2.alive silent &&
        !item.2.lateAfter slowClock (items.take 4)) = true :=
    (Option.any_eq_true _ _).mp (by decide +kernel)
  obtain ⟨fifth, inFifth, last⟩ : ∃ item, items[9]? = some item ∧
      (isRound item.1 && item.2.alive silent && !item.2.data.buried &&
        overdueAfter silent slowClock (items.take 9) item) = true :=
    (Option.any_eq_true _ _).mp (by decide +kernel)
  have four : overdueSince silent slowClock (items.take 9) = 4 := by decide +kernel
  simp only [Bool.and_eq_true, Bool.not_eq_true'] at calm last
  rcases calm with ⟨⟨inRound, alive⟩, inTime⟩
  rcases last with ⟨⟨⟨fifthInRound, fifthAlive⟩, free⟩, isOverdue⟩
  refine ⟨counted.symm.trans missed, ⟨_, second, _, parts 4 second inSecond, inTime, ?_⟩,
    _, fifth, _, parts 9 fifth inFifth, four, ?_⟩
  · exact (exactly _ _ _ (parts 4 second inSecond) inRound alive).2 inTime
  · exact ((exactly _ _ _ (parts 9 fifth inFifth) fifthInRound fifthAlive).1 free).mpr
      ⟨isOverdue, four.ge⟩

/-! ## A counter that wraps around -/

section Wraparound

/-- A system with one process that nothing can kill. -/
def unkillable : Os Unit where
  fork _ := ((), 7)
  getpgid _ pid := pid
  kill _ _ := ()
  waitpid _ _ := ((), 0)
  killPolls _ := 0

/-- A clock that is set back two minutes after every third reading. -/
def restless : Clock where
  reading n := if n % 3 = 0 then 120000000000 else if n % 3 = 1 then 60000000000 else 0

/-- An overdue round, and nine rounds in which the heartbeat is in time and the mortality
rate sinks. -/
def restlessCycle (module : Str) : List (Op Unit) :=
  [.round, .setHeartbeatInterval module 60000] ++ List.replicate 9 .round ++
    [.setHeartbeatInterval module 10000]

def restlessOps (module : Str) (cycles : Nat) : List (Op Unit) :=
  .start :: (List.replicate cycles (restlessCycle module)).flatten

/-- The module between two operations of the cycle. -/
structure Restless (module : Str) (interval missed : UInt32) (rate : Nat)
    (run : Observation Unit) : Prop where
  present : ∃ data, run.state.modules[module]? = some data ∧
    data.running = true ∧ data.buried = false ∧ data.heartbeatInterval = interval ∧
    data.lastHeartbeat = 60000000000 ∧ data.missedHeartbeats = missed ∧
    data.lastStabilityCheck = 0 ∧ data.mortalityRate.toNat ≤ rate
  ticks : run.state.world.ticks % 3 = 0
  alone : run.state.modules.keys = [module]

theorem restless_reading {ticks : Nat} (third : ticks % 3 = 0) :
    restless.reading ticks = 120000000000 ∧ restless.reading (ticks + 1) = 60000000000 ∧
      restless.reading (ticks + 2) = 0 := by
  have one : (ticks + 1) % 3 = 1 := by omega
  have two : (ticks + 2) % 3 = 2 := by omega
  simp [restless, third, one, two]

/-- The stability check of every round is due. -/
theorem restless_stability {world : World Unit} {data : ModuleData} {rate : Nat}
    (third : world.ticks % 3 = 0) (check : data.lastStabilityCheck = 0)
    (small : data.mortalityRate.toNat ≤ rate) :
    ∃ next : UInt32, next.toNat ≤ rate - 1 ∧
      (checkStability restless { world with ticks := world.ticks + 1 } data).1.ticks =
        world.ticks + 3 ∧
      (checkStability restless { world with ticks := world.ticks + 1 } data).2.1 =
        { data with mortalityRate := next } := by
  rcases restless_reading third with ⟨_, second, last⟩
  rcases checkStability_cases restless { world with ticks := world.ticks + 1 } data with
    ⟨_, next, lower, worldEq, dataEq, _⟩ | ⟨early, _⟩
  · refine ⟨next, lower.trans_le (Nat.sub_le_sub_right small 1), by rw [worldEq], ?_⟩
    rw [dataEq, last, ← check]
  · rw [check, second] at early
    exact absurd early (by decide)

/-- The resurrection fails, since the process cannot be killed. -/
theorem restless_resurrection (module : Str) (world : World Unit) {data : ModuleData}
    (running : data.running = true) (small : data.mortalityRate.toNat = 0) :
    resurrectModule unkillable restless module world data =
      (world, { data with mortalityRate := data.mortalityRate + mortalityStep },
        [.resurrected]) := by
  have zero : data.mortalityRate = 0 := UInt32.toNat_inj.mp small
  have below : data.mortalityRate < criticalMortalityRate := by
    rw [zero]
    decide
  simp [resurrectModule, killModule, awaitKilled, killTarget, unkillable, spawnModule, running,
    below]

theorem restless_guard (module : Str) (world : World Unit) {data : ModuleData}
    (running : data.running = true) (free : data.buried = false) :
    guardModule unkillable restless module world data =
      let (world, data, first) := checkHeartbeat unkillable restless module world data
      let (world, data, second) := checkStability restless world data
      (world, data, first ++ second) := by
  simp [guardModule, running, free, unkillable]

/-- A round spawns nothing. -/
theorem restless_shown (module : Str) (world : World Unit) {data : ModuleData}
    (running : data.running = true) (free : data.buried = false)
    (small : data.mortalityRate.toNat = 0) :
    (guardModule unkillable restless module world data).2.2.findSome? shown? = none := by
  rw [restless_guard module world running free]
  rcases checkHeartbeat_cases unkillable restless module world data with
    ⟨_, checked⟩ | ⟨_, _, checked⟩ | ⟨_, _, checked⟩
  · rw [checked]
    exact (checkStability_shown restless _ _).1
  · rw [checked]
    exact (checkStability_shown restless _ _).1
  · have resurrection := @restless_resurrection module { world with ticks := world.ticks + 1 }
      { data with missedHeartbeats := data.missedHeartbeats + 1 } running small
    rw [checked, resurrection]
    exact (checkStability_shown restless _ _).1

variable {module : Str} {interval missed : UInt32} {rate : Nat} {run : Observation Unit}

/-- The visits after one more round. -/
theorem Restless.visits_round (between : Restless module interval missed 0 run) :
    ∃ item, visitsTo module ((observer unkillable restless [module] ()).extend run .round).trace =
      visitsTo module run.trace ++ [item] ∧ sign? restless item = none := by
  rcases between with ⟨⟨data, found, up, free, _, _, _, _, small⟩, _, alone⟩
  refine ⟨(.round, ⟨module, run.state.world, data,
    guardModule unkillable restless module run.state.world data⟩), ?_, ?_⟩
  · simp [Machine.extend, observer, alone, visits, found, visitsTo]
  · exact restless_shown module run.state.world up free (Nat.le_zero.mp small)

/-- One more round. -/
theorem Restless.round (between : Restless module interval missed rate run)
    {later : UInt32} {nextRate : Nat}
    (visit : ∀ (world : World Unit) (data : ModuleData), world.ticks % 3 = 0 →
      data.running = true → data.buried = false → data.heartbeatInterval = interval →
      data.lastHeartbeat = 60000000000 → data.missedHeartbeats = missed →
      data.lastStabilityCheck = 0 → data.mortalityRate.toNat ≤ rate →
      ∃ next : UInt32, next.toNat ≤ nextRate ∧
        (guardModule unkillable restless module world data).1.ticks = world.ticks + 3 ∧
        (guardModule unkillable restless module world data).2.1 =
          { data with missedHeartbeats := later, mortalityRate := next }) :
    Restless module interval later nextRate
      ((observer unkillable restless [module] ()).extend run .round) := by
  rcases between with ⟨⟨data, found, up, free, asked, sign, count, check, small⟩, third, alone⟩
  rcases visit run.state.world data third up free asked sign count check small with
    ⟨next, low, ticks, effect⟩
  have state : ((observer unkillable restless [module] ()).extend run .round).state =
      ⟨run.state.modules.insert module
          (guardModule unkillable restless module run.state.world data).2.1,
        (guardModule unkillable restless module run.state.world data).1⟩ := by
    simp [Machine.extend, observer, machine, alone, changeAll, change, found]
  constructor
  · rw [state, effect]
    exact ⟨_, Std.ExtTreeMap.getElem?_insert_self, up, free, asked, sign, rfl, check, low⟩
  · rw [state, ticks]
    omega
  · rw [state, keys_insert found, alone]

/-- A round that misses the heartbeat. -/
theorem Restless.late (between : Restless module 10000 missed 0 run) :
    Restless module 10000 (missed + 1) 9
      ((observer unkillable restless [module] ()).extend run .round) := by
  apply between.round
  intro world data third up free asked sign count check small
  rw [restless_guard module world up free]
  rcases checkHeartbeat_cases unkillable restless module world data with
    ⟨inTime, _⟩ | ⟨_, _, checked⟩ | ⟨_, _, checked⟩
  · rw [(restless_reading third).1, sign, asked] at inTime
    exact absurd (by decide) inTime
  · rcases @restless_stability world
      { data with missedHeartbeats := data.missedHeartbeats + 1 } 0 third check small with
      ⟨next, low, ticks, dataEq⟩
    rw [checked]
    exact ⟨next, low.trans (by decide), ticks, dataEq.trans (by rw [count])⟩
  · have grown : (data.mortalityRate + mortalityStep).toNat ≤ 10 := by
      rw [UInt32.toNat_add, Nat.le_zero.mp small]
      decide
    rcases @restless_stability world
      { data with
        missedHeartbeats := data.missedHeartbeats + 1
        mortalityRate := data.mortalityRate + mortalityStep } 10 third check grown with
      ⟨next, low, ticks, dataEq⟩
    have resurrection := @restless_resurrection module { world with ticks := world.ticks + 1 }
      { data with missedHeartbeats := data.missedHeartbeats + 1 } up (Nat.le_zero.mp small)
    rw [checked, resurrection]
    exact ⟨next, low, ticks, dataEq.trans (by rw [count])⟩

/-- A round that finds the heartbeat in time. -/
theorem Restless.inTime (between : Restless module 60000 missed rate run) :
    Restless module 60000 missed (rate - 1)
      ((observer unkillable restless [module] ()).extend run .round) := by
  apply between.round
  intro world data third up free asked sign count check small
  rw [restless_guard module world up free]
  rcases checkHeartbeat_cases unkillable restless module world data with
    ⟨_, checked⟩ | ⟨late, _⟩ | ⟨late, _⟩
  · rcases restless_stability third check small with ⟨next, low, ticks, dataEq⟩
    rw [checked]
    exact ⟨next, low, ticks, dataEq.trans (by rw [← count])⟩
  · rw [(restless_reading third).1, sign, asked] at late
    exact absurd late (by decide)
  · rw [(restless_reading third).1, sign, asked] at late
    exact absurd late (by decide)

theorem Restless.set (between : Restless module interval missed rate run) (next : UInt32) :
    Restless module next missed rate
      ((observer unkillable restless [module] ()).extend run
        (.setHeartbeatInterval module next)) := by
  rcases between with ⟨⟨data, found, up, free, asked, sign, count, check, small⟩, third, alone⟩
  have state : ((observer unkillable restless [module] ()).extend run
      (.setHeartbeatInterval module next)).state =
        ⟨run.state.modules.insert module { data with heartbeatInterval := next },
          run.state.world⟩ := by
    simp [Machine.extend, observer, machine, change, found, setHeartbeatInterval]
  constructor
  · rw [state]
    exact ⟨_, Std.ExtTreeMap.getElem?_insert_self, up, free, rfl, sign, count, check, small⟩
  · rw [state]
    exact third
  · rw [state, keys_insert found, alone]

/-- A cycle adds one to the counter and leaves the mortality rate at zero. -/
theorem Restless.cycle (between : Restless module 10000 missed 0 run) :
    Restless module 10000 (missed + 1) 0
      ((restlessCycle module).foldl (observer unkillable restless [module] ()).extend run) := by
  have first := (between.late.set 60000).inTime.inTime.inTime
  exact (first.inTime.inTime.inTime.inTime.inTime.inTime).set 10000

/-- The machine of the restless clock. -/
def restlessMachine : Machine (Watchdog Unit) (Op Unit) (Visit Unit) :=
  observer unkillable restless ["module_sms".toList] ()

theorem restless_start : Restless "module_sms".toList 10000 0 0 (restlessMachine.run [.start]) where
  present := by
    refine ⟨((restlessMachine.run [.start]).state.modules["module_sms".toList]?).getD
      (newModule 0), ?_, ?_, ?_, ?_, ?_, ?_, ?_, ?_⟩ <;> decide +kernel
  ticks := by decide +kernel
  alone := by decide +kernel

theorem restless_run (cycles : Nat) :
    Restless "module_sms".toList 10000 (UInt32.ofNat cycles) 0
      (restlessMachine.run (restlessOps "module_sms".toList cycles)) := by
  induction cycles with
  | zero => exact restless_start
  | succ cycles ih =>
      have more : restlessOps "module_sms".toList (cycles + 1) =
          restlessOps "module_sms".toList cycles ++ restlessCycle "module_sms".toList := by
        rw [restlessOps, List.replicate_succ', List.flatten_concat, ← List.cons_append,
          ← restlessOps]
      rw [more, Machine.run_append, UInt32.ofNat_add]
      exact ih.cycle

/-- With a clock that is set back, the counter of a module that nothing can kill wraps
around after enough rounds. -/
theorem missed_heartbeats_wrap :
    ¬ ∀ (os : Os Unit) (clock : Clock) (names : List Str) (state : Unit) (ops : List (Op Unit))
        (module : Str) (data : ModuleData),
        ((observer os clock names state).run ops).state.modules[module]? = some data →
        let items := visitsTo module ((observer os clock names state).run ops).trace
        data.missedHeartbeats.toNat = overdueSince os clock items ∧
          Throughout (Exact os clock) items := by
  intro all
  have claimed : ∀ ops data,
      (restlessMachine.run ops).state.modules["module_sms".toList]? = some data →
        data.missedHeartbeats.toNat = overdueSince unkillable restless
          (visitsTo "module_sms".toList (restlessMachine.run ops).trace) :=
    fun ops data present => (all unkillable restless _ () ops _ data present).1
  obtain ⟨cycles, most⟩ : ∃ cycles : Nat, cycles = 4294967295 := ⟨_, rfl⟩
  have full := restless_run cycles
  rcases full.visits_round with ⟨item, visited, noSign⟩
  change visitsTo _ (restlessMachine.extend _ _).trace = _ at visited
  rcases full.present with ⟨data, found, _, _, _, _, count, _⟩
  rcases full.late.present with ⟨next, after, _, _, _, _, nextCount, _⟩
  have before := claimed _ data found
  have last := claimed (restlessOps "module_sms".toList cycles ++ [.round]) next
    (by rw [Machine.run_concat]; exact after)
  rw [Machine.run_concat, visited, overdueSince_concat unkillable noSign,
    ← before, count, nextCount] at last
  have isMost : (UInt32.ofNat cycles).toNat = 4294967295 := by
    rw [most]
    decide
  have wrapped : (UInt32.ofNat cycles + 1).toNat = 0 := by
    rw [most]
    decide
  omega

end Wraparound

end Sentri.Core.Watchdog
