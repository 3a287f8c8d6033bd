import Sentri.LibModule.MessageHandler
import Sentri.Transition.Clock
import Sentri.Transition.Machine

/-!
# Flood protection

A module counts the messages that it passes on to the core and refuses messages,
or waits with a heartbeat, when there are too many.  The counter is meant for
the messages of a second, but it is reset after a fifteenth of a second.
-/

namespace Sentri.LibModule

open Sentri.Text Sentri.Transition

def floodMsgPerSecond : Nat :=
  15

/-- In nanoseconds. -/
def second : Int :=
  1000000000

/-- The messages counted since the last reset of the counter. -/
structure Density where
  messageDensity : Nat
  lastDensityReset : Timepoint
  deriving DecidableEq

namespace Density

/-- `second / FLOOD_MSG_PER_SECOND`, in whole nanoseconds. -/
def limit : Int :=
  second / floodMsgPerSecond

/-- `ceil(1000.0 / FLOOD_MSG_PER_SECOND)`, in milliseconds. -/
def floodWait : Nat :=
  (1000 + floodMsgPerSecond - 1) / floodMsgPerSecond

/-- Reset the counter if its time is over. -/
def reset (now : Timepoint) (density : Density) : Density :=
  if now - density.lastDensityReset > limit then ⟨0, now⟩ else density

/-- Count a message if there is room for it; the answer is the time to wait. -/
def isFlooding (now : Timepoint) (density : Density) : Density × Nat :=
  let density := density.reset now
  if density.messageDensity < floodMsgPerSecond then
    ({ density with messageDensity := density.messageDensity + 1 }, 0)
  else
    (density, floodWait)

end Density

namespace Module

/-! ## Messages under flood protection -/

/-- What a module does at a time. -/
inductive Output where
  /-- A call of `isFlooding`, with the counter that it finds. -/
  | asked (now : Timepoint) (density : Density)
  /-- A message is given to the sender. -/
  | passed (now : Timepoint) (message : Message)

/-- Pass a message on unless the module is flooding the core. -/
def unlessFlooding (now : Timepoint) (message : Message) (density : Density) :
    Density × List Output :=
  let (next, time) := density.isFlooding now
  if time > 0 then
    (next, [.asked now density])
  else
    (next, [.asked now density, .passed now message])

def acknowledgeEvent (now : Timepoint) (eventID : EventID) :
    Density → Density × List Output :=
  unlessFlooding now (MessageHandler.acknowledgeEvent eventID)

def sendEventMessage (now : Timepoint) (ruleID : RuleID) (vars : Str) :
    Density → Density × List Output :=
  unlessFlooding now (MessageHandler.sendEventMessage ruleID vars)

def setHeartbeatInterval (now : Timepoint) (moduleName : Str) (interval : UInt32) :
    Density → Density × List Output :=
  unlessFlooding now (MessageHandler.setHeartbeatInterval moduleName interval)

def systemMessage (now : Timepoint) (message : Str) : Density → Density × List Output :=
  unlessFlooding now (ModuleLogger.systemMessage message)

/-- Wait until a heartbeat can be sent, and update the values.  The heartbeat is sent
whatever the second call answers. -/
def sendHeartbeat (now : Timepoint) (oversleep : Nat) (moduleName : Str) (density : Density) :
    Timepoint × Density × List Output :=
  let message := MessageHandler.sendHeartbeat moduleName
  let (next, time) := density.isFlooding now
  if time > 0 then
    let later := now + milliseconds time + oversleep
    (later, (next.isFlooding later).1, [.asked now density, .asked later next,
      .passed later message])
  else
    (now, next, [.asked now density, .passed now message])

/-- The operations of a module that send messages under flood protection. -/
inductive Request where
  | acknowledgeEvent (eventID : EventID)
  | sendEventMessage (ruleID : RuleID) (vars : Str)
  | setHeartbeatInterval (interval : UInt32)
  /-- A sleep may take longer than asked for, here in nanoseconds. -/
  | sendHeartbeat (oversleep : Nat)
  | systemMessage (message : Str)

/-- A call some nanoseconds after the last reading of the clock. -/
structure TimedRequest where
  pause : Nat
  request : Request

/-- The counter of a module and the last reading of the clock. -/
structure Sender where
  density : Density
  now : Timepoint

def Sender.step (moduleName : Str) (sender : Sender) (timed : TimedRequest) :
    Sender × List Output :=
  let now := sender.now + timed.pause
  let answer (result : Density × List Output) : Sender × List Output := (⟨result.1, now⟩, result.2)
  match timed.request with
  | .acknowledgeEvent eventID => answer (acknowledgeEvent now eventID sender.density)
  | .sendEventMessage ruleID vars => answer (sendEventMessage now ruleID vars sender.density)
  | .setHeartbeatInterval interval =>
      answer (setHeartbeatInterval now moduleName interval sender.density)
  | .sendHeartbeat oversleep =>
      let (later, density, outputs) := sendHeartbeat now oversleep moduleName sender.density
      (⟨density, later⟩, outputs)
  | .systemMessage message => answer (systemMessage now message sender.density)

/-- A new module some time after the epoch of the clock, at which its counter was last
reset. -/
def machine (moduleName : Str) (start : Nat) : Machine Sender TimedRequest Output :=
  ⟨⟨⟨0, 0⟩, start⟩, Sender.step moduleName⟩

/-! ## The rate of a module -/

/-- The times at which messages were passed on. -/
def passedTimes (outputs : List Output) : List Timepoint :=
  outputs.filterMap fun
    | .passed now _ => some now
    | .asked _ _ => none

/-- At most `floodMsgPerSecond` messages are passed on in any second. -/
def RateKept (outputs : List Output) : Prop :=
  ∀ first, (passedTimes outputs).countP (fun time => first ≤ time ∧ time < first + second) ≤
    floodMsgPerSecond

/-- The messages of the last second. -/
def recent (now : Timepoint) (outputs : List Output) : Nat :=
  (passedTimes outputs).countP fun time => now < time + second

/-- The counter is not reset, and there is no room in it. -/
def Shut (now : Timepoint) (density : Density) : Prop :=
  now - density.lastDensityReset ≤ Density.limit ∧ floodMsgPerSecond ≤ density.messageDensity

/-- When the messages of the last second are enough, the counter is shut. -/
def Guarded (before : List Output) : Output → Prop
  | .asked now density => floodMsgPerSecond ≤ recent now before → Shut now density
  | .passed _ _ => True

theorem isFlooding_of_shut {now : Timepoint} {density : Density} (shut : Shut now density) :
    density.isFlooding now = (density, Density.floodWait) := by
  have kept : density.reset now = density := if_neg (not_lt.mpr shut.1)
  simp only [Density.isFlooding, kept, if_neg (not_lt.mpr shut.2)]

theorem isFlooding_of_not_shut {now : Timepoint} {density : Density}
    (free : ¬ Shut now density) : (density.isFlooding now).2 = 0 := by
  unfold Density.isFlooding Density.reset
  by_cases due : now - density.lastDensityReset > Density.limit
  · simp only [if_pos due]
    rfl
  · have room : density.messageDensity < floodMsgPerSecond := by
      by_contra full
      exact free ⟨not_lt.mp due, not_lt.mp full⟩
    simp only [if_neg due, if_pos room]

/-- After the time to wait the counter is reset. -/
theorem not_shut_after_wait {now later : Timepoint} {density : Density}
    (past : density.lastDensityReset ≤ now)
    (waited : now + milliseconds Density.floodWait ≤ later) : ¬ Shut later density := by
  rintro ⟨soon, _⟩
  have short : Density.limit < milliseconds Density.floodWait := by decide
  linarith

theorem passedTimes_append (first second : List Output) :
    passedTimes (first ++ second) = passedTimes first ++ passedTimes second := by
  simp [passedTimes]

/-- One more message keeps the rate if there were fewer than enough in the last
second. -/
theorem rateKept_passed_iff {outputs : List Output} {now : Timepoint}
    (past : ∀ time ∈ passedTimes outputs, time ≤ now) (message : Message) :
    RateKept (outputs ++ [.passed now message]) ↔
      RateKept outputs ∧ recent now outputs < floodMsgPerSecond := by
  have times : passedTimes (outputs ++ [.passed now message]) = passedTimes outputs ++ [now] := by
    simp [passedTimes]
  constructor
  · intro kept
    constructor
    · intro first
      have bound := kept first
      rw [times, List.countP_append] at bound
      exact le_of_add_le_left bound
    · have bound := kept (now - second + 1)
      have inside : now - second + 1 ≤ now ∧ now < now - second + 1 + second := by
        have positive : 0 < second := by decide
        constructor <;> linarith
      have same : (passedTimes outputs).countP
          (fun time => now - second + 1 ≤ time ∧ time < now - second + 1 + second) =
          recent now outputs := by
        apply List.countP_congr
        intro time member
        have early := past time member
        simp only [decide_eq_true_eq]
        constructor
        · rintro ⟨late, _⟩
          linarith
        · intro late
          constructor
          · exact Int.add_one_le_iff.mpr (by linarith)
          · linarith
      rw [times, List.countP_append, same] at bound
      rw [List.countP_singleton, if_pos (decide_eq_true inside)] at bound
      exact bound
  · rintro ⟨kept, room⟩ first
    rw [times, List.countP_append]
    by_cases inside : first ≤ now ∧ now < first + second
    · have fewer : (passedTimes outputs).countP
          (fun time => first ≤ time ∧ time < first + second) ≤ recent now outputs := by
        apply List.countP_mono_left
        intro time _ within
        simp only [decide_eq_true_eq] at within ⊢
        linarith
      simp only [List.countP_singleton, decide_eq_true inside, if_true]
      omega
    · simpa [inside] using kept first

theorem rateKept_asked_iff {outputs : List Output} {now : Timepoint} {density : Density} :
    RateKept (outputs ++ [.asked now density]) ↔ RateKept outputs := by
  simp [RateKept, passedTimes]

theorem throughout_asked_iff {outputs : List Output} {now : Timepoint} {density : Density} :
    Throughout Guarded (outputs ++ [.asked now density]) ↔
      Throughout Guarded outputs ∧
        (floodMsgPerSecond ≤ recent now outputs → Shut now density) :=
  ⟨Throughout.of_concat, fun both => both.1.concat both.2⟩

theorem throughout_passed_iff {outputs : List Output} {now : Timepoint} {message : Message} :
    Throughout Guarded (outputs ++ [.passed now message]) ↔ Throughout Guarded outputs :=
  ⟨fun all => all.of_concat.1, fun all => all.concat trivial⟩

theorem recent_asked (now later : Timepoint) (density : Density) (outputs : List Output) :
    recent later (outputs ++ [.asked now density]) = recent later outputs := by
  simp [recent, passedTimes]

/-- The rate is kept if and only if the guards held. -/
def Agree (outputs : List Output) : Prop :=
  RateKept outputs ↔ Throughout Guarded outputs

variable {outputs : List Output} {now : Timepoint} {density : Density}

/-- A message that is refused. -/
theorem Agree.refused (agree : Agree outputs) (shut : Shut now density) :
    Agree (outputs ++ [.asked now density]) := by
  unfold Agree at agree ⊢
  rw [rateKept_asked_iff, throughout_asked_iff, agree]
  exact (and_iff_left fun _ => shut).symm

/-- A message that is passed on. -/
theorem Agree.passed (agree : Agree outputs) (past : ∀ time ∈ passedTimes outputs, time ≤ now)
    (free : ¬ Shut now density) (message : Message) :
    Agree (outputs ++ [.asked now density, .passed now message]) := by
  have asked : ∀ time ∈ passedTimes (outputs ++ [.asked now density]), time ≤ now := by
    simpa [passedTimes_append, passedTimes] using past
  unfold Agree at agree ⊢
  rw [List.append_cons, rateKept_passed_iff asked, rateKept_asked_iff, recent_asked,
    throughout_passed_iff, throughout_asked_iff, agree]
  apply and_congr_right
  intro _
  rw [← not_le]
  exact ⟨fun few enough => absurd enough few, fun guarded enough => free (guarded enough)⟩

/-! ## Runs -/

/-- What holds of a module and its outputs in every run. -/
structure Watched (sender : Sender) (outputs : List Output) : Prop where
  agree : Agree outputs
  past : ∀ time ∈ passedTimes outputs, time ≤ sender.now
  reset : sender.density.lastDensityReset ≤ sender.now

theorem lastDensityReset_isFlooding_le (past : density.lastDensityReset ≤ now) :
    (density.isFlooding now).1.lastDensityReset ≤ now := by
  have reset : (density.reset now).lastDensityReset ≤ now := by
    unfold Density.reset
    split
    · exact le_rfl
    · exact past
  unfold Density.isFlooding
  dsimp only
  split <;> exact reset

theorem passedTimes_past {sender : Sender} (past : ∀ time ∈ passedTimes outputs, time ≤ sender.now)
    (later : sender.now ≤ now) : ∀ time ∈ passedTimes outputs, time ≤ now :=
  fun time member => (past time member).trans later

/-- The outputs of a message that is passed on or refused. -/
theorem unlessFlooding_cases (now : Timepoint) (message : Message) (density : Density) :
    Shut now density ∧
        unlessFlooding now message density = ((density.isFlooding now).1, [.asked now density]) ∨
      ¬ Shut now density ∧ unlessFlooding now message density =
        ((density.isFlooding now).1, [.asked now density, .passed now message]) := by
  have wait : 0 < Density.floodWait := by decide
  by_cases shut : Shut now density
  · left
    refine ⟨shut, ?_⟩
    simp only [unlessFlooding, isFlooding_of_shut shut, if_pos wait]
  · right
    refine ⟨shut, ?_⟩
    simp only [unlessFlooding, isFlooding_of_not_shut shut, if_neg (lt_irrefl 0)]

theorem Watched.unlessFlooding {sender : Sender} (watched : Watched sender outputs)
    (later : sender.now ≤ now) (message : Message) :
    let result := unlessFlooding now message sender.density
    Watched ⟨result.1, now⟩ (outputs ++ result.2) := by
  intro result
  have past := passedTimes_past watched.past later
  have reset := lastDensityReset_isFlooding_le (watched.reset.trans later)
  rcases unlessFlooding_cases now message sender.density with ⟨shut, equal⟩ | ⟨free, equal⟩
  · have resultEq : result = _ := equal
    rw [resultEq]
    refine ⟨watched.agree.refused shut, ?_, reset⟩
    simpa [passedTimes_append, passedTimes] using past
  · have resultEq : result = _ := equal
    rw [resultEq]
    refine ⟨watched.agree.passed past free message, ?_, reset⟩
    intro time member
    rw [passedTimes_append] at member
    rcases List.mem_append.mp member with old | new
    · exact past time old
    · exact (List.mem_singleton.mp new).le

/-- A heartbeat is sent at once, or after a wait that resets the counter. -/
theorem sendHeartbeat_cases (now : Timepoint) (oversleep : Nat) (moduleName : Str)
    {density : Density} (past : density.lastDensityReset ≤ now) :
    let message := MessageHandler.sendHeartbeat moduleName
    (¬ Shut now density ∧ sendHeartbeat now oversleep moduleName density =
      (now, (density.isFlooding now).1, [.asked now density, .passed now message])) ∨
    ∃ later, Shut now density ∧ ¬ Shut later density ∧ now ≤ later ∧
      sendHeartbeat now oversleep moduleName density =
        (later, (density.isFlooding later).1,
          [.asked now density, .asked later density, .passed later message]) := by
  intro message
  have wait : 0 < Density.floodWait := by decide
  by_cases shut : Shut now density
  · right
    have waited : (0 : Int) ≤ milliseconds Density.floodWait := by decide
    let later := now + milliseconds Density.floodWait + oversleep
    have enough : now + milliseconds Density.floodWait ≤ later :=
      Int.le_add_of_nonneg_right (Int.natCast_nonneg oversleep)
    refine ⟨later, shut, not_shut_after_wait past enough, by linarith, ?_⟩
    simp only [sendHeartbeat, isFlooding_of_shut shut, if_pos wait]
    rfl
  · left
    refine ⟨shut, ?_⟩
    simp only [sendHeartbeat, isFlooding_of_not_shut shut, if_neg (lt_irrefl 0)]
    rfl

theorem Watched.sendHeartbeat {sender : Sender} (watched : Watched sender outputs)
    (later : sender.now ≤ now) (oversleep : Nat) (moduleName : Str) :
    let result := sendHeartbeat now oversleep moduleName sender.density
    Watched ⟨result.2.1, result.1⟩ (outputs ++ result.2.2) := by
  intro result
  have past := passedTimes_past watched.past later
  have reset := watched.reset.trans later
  have pastAfter : ∀ (final : Timepoint) (asked : List Output), now ≤ final →
      passedTimes asked = [] → ∀ time ∈ passedTimes (outputs ++ (asked ++
        [.passed final (MessageHandler.sendHeartbeat moduleName)])), time ≤ final := by
    intro final asked nowLe nothing time member
    rw [passedTimes_append, passedTimes_append, nothing] at member
    rcases List.mem_append.mp member with old | new
    · exact (past time old).trans nowLe
    · exact (List.mem_singleton.mp new).le
  rcases sendHeartbeat_cases now oversleep moduleName reset with
    ⟨free, equal⟩ | ⟨final, shut, free, nowLe, equal⟩
  · have resultEq : result = _ := equal
    rw [resultEq]
    exact ⟨watched.agree.passed past free _, pastAfter now [.asked now sender.density] le_rfl rfl,
      lastDensityReset_isFlooding_le reset⟩
  · have resultEq : result = _ := equal
    rw [resultEq]
    have waiting : ∀ time ∈ passedTimes (outputs ++ [.asked now sender.density]), time ≤ final := by
      intro time member
      rw [passedTimes_append] at member
      rcases List.mem_append.mp member with old | new
      · exact (past time old).trans nowLe
      · cases new
    refine ⟨?_, pastAfter final [.asked now sender.density, .asked final sender.density] nowLe rfl,
      lastDensityReset_isFlooding_le (reset.trans nowLe)⟩
    have agree := (watched.agree.refused shut).passed waiting free
      (MessageHandler.sendHeartbeat moduleName)
    rw [List.append_assoc] at agree
    exact agree

theorem Watched.step {sender : Sender} (watched : Watched sender outputs) (moduleName : Str)
    (timed : TimedRequest) :
    Watched (sender.step moduleName timed).1 (outputs ++ (sender.step moduleName timed).2) := by
  have later : sender.now ≤ sender.now + timed.pause :=
    Int.le_add_of_nonneg_right (Int.natCast_nonneg timed.pause)
  rcases timed with ⟨pause, request⟩
  cases request with
  | acknowledgeEvent eventID => exact watched.unlessFlooding later _
  | sendEventMessage ruleID vars => exact watched.unlessFlooding later _
  | setHeartbeatInterval interval => exact watched.unlessFlooding later _
  | sendHeartbeat oversleep => exact watched.sendHeartbeat later oversleep moduleName
  | systemMessage message => exact watched.unlessFlooding later _

/-- The outputs of a run. -/
def history (moduleName : Str) (start : Nat) (requests : List TimedRequest) : List Output :=
  ((machine moduleName start).run requests).trace.map Prod.snd

theorem watched_run (moduleName : Str) (start : Nat) (requests : List TimedRequest) :
    Watched ((machine moduleName start).run requests).state
      (history moduleName start requests) := by
  induction requests using List.reverseRecOn with
  | nil =>
      refine ⟨⟨fun _ => Throughout.nil, fun _ first => ?_⟩, ?_, Int.natCast_nonneg start⟩
      · exact Nat.zero_le _
      · intro time member
        cases member
  | append_singleton requests timed ih =>
      have next := ih.step moduleName timed
      simpa [history, Machine.extend_trace, Function.comp_def, machine] using next

/-- The flood protection keeps its rate exactly when the counter is shut whenever the
messages of the last second are enough: it was reset at most a fifteenth of a
second ago, and there is no room in it. -/
theorem rate_kept_iff (moduleName : Str) (start : Nat) (requests : List TimedRequest) :
    RateKept (history moduleName start requests) ↔
      Throughout Guarded (history moduleName start requests) :=
  (watched_run moduleName start requests).agree

/-- Sixteen events, the last one seventy milliseconds after the others. -/
def burst : List TimedRequest :=
  List.replicate 15 ⟨0, .sendEventMessage 1 []⟩ ++ [⟨70000000, .sendEventMessage 1 []⟩]

/-- All of them are passed on. -/
theorem burst_passed : ¬ ∀ (moduleName : Str) (start : Nat) (requests : List TimedRequest),
    RateKept (history moduleName start requests) := by
  intro always
  have kept := always "module_video".toList 1000000000 burst 1000000000
  revert kept
  decide +kernel

end Module

end Sentri.LibModule
