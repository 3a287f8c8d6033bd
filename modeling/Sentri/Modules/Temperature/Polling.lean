import Mathlib.Tactic.Linarith
import Mathlib.Tactic.Ring
import Sentri.Transition.Machine

/-!
# Polling the temperature sensor

The main loop of the temperature module polls the sensor in intervals and sends a
heartbeat in each of its iterations.  A polling interval longer than the heartbeat
interval is slept through in slots, which are taken off a sleep time that is carried
from one iteration to the next.
-/

namespace Sentri.Modules.Temperature

open Sentri.Transition

/-! ## The main loop -/

/-- `DEFAULT_HEARTBEAT_INTERVAL` in milliseconds. -/
def defaultHeartbeatInterval : Nat :=
  10000

/-- In seconds. -/
def heartbeatInterval : Nat :=
  defaultHeartbeatInterval / 1000

/-- The variables of the loop, at the beginning of an iteration. -/
structure Loop where
  loopBegin : Int
  sleepTime : Int
  poll : Bool
  deriving DecidableEq

/-- What an iteration does: it begins with a heartbeat, may poll the sensor, and sleeps. -/
structure Iteration where
  loopBegin : Int
  polled : Bool
  slept : Int
  deriving DecidableEq

namespace Loop

/-- The sleep time after the restore of a poll. -/
def restored (pollingInterval : Nat) (loop : Loop) : Int :=
  if loop.poll ∧ pollingInterval > heartbeatInterval then pollingInterval else loop.sleepTime

/-- One iteration, which took `loopTime` seconds before it sleeps. -/
def step (pollingInterval : Nat) (loop : Loop) (loopTime : Nat) : Loop × List Iteration :=
  let sleepTime := loop.restored pollingInterval
  if sleepTime > heartbeatInterval then
    let sleep := if (heartbeatInterval : Int) - loopTime ≥ 0 then
      (heartbeatInterval : Int) - loopTime else 0
    (⟨loop.loopBegin + loopTime + sleep, sleepTime - heartbeatInterval, false⟩,
      [⟨loop.loopBegin, loop.poll, sleep⟩])
  else
    let sleep := if sleepTime - loopTime ≥ 0 then sleepTime - loopTime else 0
    (⟨loop.loopBegin + loopTime + sleep, sleepTime, true⟩,
      [⟨loop.loopBegin, loop.poll, sleep⟩])

/-- The slot from which the loop time is taken. -/
def slot (pollingInterval : Nat) (loop : Loop) : Int :=
  min (loop.restored pollingInterval) heartbeatInterval

end Loop

/-- The main loop, from its first iteration on. -/
def mainLoop (pollingInterval : Nat) (start : Int) : Machine Loop Nat Iteration :=
  ⟨⟨start, pollingInterval, true⟩, Loop.step pollingInterval⟩

/-- The iterations of a run. -/
def iterations (pollingInterval : Nat) (start : Int) (loopTimes : List Nat) : List Iteration :=
  ((mainLoop pollingInterval start).run loopTimes).trace.map Prod.snd

/-- No iteration takes longer than its slot. -/
def Punctual (pollingInterval : Nat) (start : Int) (loopTimes : List Nat) : Prop :=
  ∀ (before : List Nat) (loopTime : Nat), before ++ [loopTime] <+: loopTimes →
    (loopTime : Int) ≤ ((mainLoop pollingInterval start).run before).state.slot pollingInterval

/-! ## Periods -/

/-- The number of iterations of a polling interval. -/
def rounds (pollingInterval : Nat) : Nat :=
  (pollingInterval + heartbeatInterval - 1) / heartbeatInterval

theorem rounds_spec {pollingInterval : Nat} (positive : 1 ≤ pollingInterval) :
    0 < rounds pollingInterval ∧
      (rounds pollingInterval - 1) * heartbeatInterval < pollingInterval ∧
      pollingInterval ≤ rounds pollingInterval * heartbeatInterval := by
  have ten : heartbeatInterval = 10 := rfl
  rw [rounds, ten]
  omega

/-- The next iteration is in the same period, or the first of the next one. -/
theorem succ_cases {c : Nat} (positive : 0 < c) (n : Nat) :
    (n % c + 1 < c ∧ (n + 1) / c = n / c ∧ (n + 1) % c = n % c + 1) ∨
    (n % c + 1 = c ∧ (n + 1) / c = n / c + 1 ∧ (n + 1) % c = 0) := by
  have split : n + 1 = (n % c + 1) + c * (n / c) := by
    have whole := Nat.mod_add_div n c
    omega
  have below := Nat.mod_lt n positive
  rcases Nat.lt_or_ge (n % c + 1) c with inside | last
  · left
    refine ⟨inside, ?_, ?_⟩
    · rw [split, Nat.add_mul_div_left _ _ positive, Nat.div_eq_of_lt inside, Nat.zero_add]
    · rw [split, Nat.add_mul_mod_self_left, Nat.mod_eq_of_lt inside]
  · right
    have equal : n % c + 1 = c := by omega
    refine ⟨equal, ?_, ?_⟩
    · rw [split, Nat.add_mul_div_left _ _ positive, equal, Nat.div_self positive, Nat.add_comm]
    · rw [split, Nat.add_mul_mod_self_left, equal, Nat.mod_self]

/-- What is left of the polling interval after `n` iterations, and whether the next one
polls. -/
structure Counted (pollingInterval n : Nat) (loop : Loop) : Prop where
  poll_iff : loop.poll = true ↔ n % rounds pollingInterval = 0
  restored_eq : loop.restored pollingInterval =
    pollingInterval - (n % rounds pollingInterval : Nat) * heartbeatInterval

/-- When iteration `n` begins. -/
def beginning (pollingInterval : Nat) (start : Int) (n : Nat) : Int :=
  start + (n / rounds pollingInterval : Nat) * pollingInterval +
    (n % rounds pollingInterval : Nat) * heartbeatInterval

theorem counted_start (pollingInterval : Nat) (start : Int) :
    Counted pollingInterval 0 ⟨start, pollingInterval, true⟩ := by
  constructor
  · simp
  · rw [Loop.restored, Nat.zero_mod]
    split <;> simp

/-- The step lemma: an iteration takes its slot off the interval, however long it is, and
the last one of a period begins the next. -/
theorem Counted.step {pollingInterval : Nat} (positive : 1 ≤ pollingInterval) {n : Nat}
    {loop : Loop} (counted : Counted pollingInterval n loop) (loopTime : Nat) :
    Counted pollingInterval (n + 1) (loop.step pollingInterval loopTime).1 ∧
      ∃ slept : Int, 0 ≤ slept ∧
        (loop.step pollingInterval loopTime).2 = [⟨loop.loopBegin, loop.poll, slept⟩] := by
  rcases rounds_spec positive with ⟨several, lower, upper⟩
  have ten : heartbeatInterval = 10 := rfl
  have tenInt : (heartbeatInterval : Int) = 10 := rfl
  rcases counted with ⟨poll_iff, restored_eq⟩
  rw [ten] at lower upper
  rw [tenInt] at restored_eq
  rcases succ_cases several n with ⟨inside, _, remainder⟩ | ⟨last, _, remainder⟩
  · have long : loop.restored pollingInterval > 10 := by omega
    rw [Loop.step, tenInt, if_pos long]
    refine ⟨⟨?_, ?_⟩, _, ?_, rfl⟩
    · rw [remainder]
      simp
    · rw [Loop.restored, if_neg (by simp), remainder, tenInt, Nat.cast_succ]
      linarith
    · split <;> omega
  · have short : ¬ loop.restored pollingInterval > 10 := by omega
    rw [Loop.step, tenInt, if_neg short]
    refine ⟨⟨?_, ?_⟩, _, ?_, rfl⟩
    · rw [remainder]
      simp
    · rw [Loop.restored, remainder]
      by_cases longer : pollingInterval > heartbeatInterval
      · rw [if_pos ⟨rfl, longer⟩]
        simp
      · rw [if_neg fun both => longer both.2]
        rw [ten] at longer
        have alone : n % rounds pollingInterval = 0 := by omega
        rw [alone] at restored_eq
        simpa using restored_eq
    · split <;> omega

/-- An iteration that fits into its slot ends when the slot does. -/
theorem Counted.loopBegin_step {pollingInterval : Nat} (positive : 1 ≤ pollingInterval)
    {start : Int} {n : Nat} {loop : Loop} (counted : Counted pollingInterval n loop)
    (begun : loop.loopBegin = beginning pollingInterval start n) {loopTime : Nat}
    (punctual : (loopTime : Int) ≤ loop.slot pollingInterval) :
    (loop.step pollingInterval loopTime).1.loopBegin =
      beginning pollingInterval start (n + 1) := by
  rcases rounds_spec positive with ⟨several, lower, upper⟩
  have ten : heartbeatInterval = 10 := rfl
  have tenInt : (heartbeatInterval : Int) = 10 := rfl
  have restored_eq := counted.restored_eq
  rw [Loop.slot] at punctual
  rw [ten] at lower upper
  rw [beginning] at begun ⊢
  rw [tenInt] at begun restored_eq punctual ⊢
  rcases succ_cases several n with ⟨inside, quotient, remainder⟩ | ⟨last, quotient, remainder⟩
  · have long : loop.restored pollingInterval > 10 := by omega
    have fits : (loopTime : Int) ≤ 10 := punctual.trans (min_le_right _ _)
    rw [Loop.step, tenInt, if_pos long, if_pos (by omega), quotient, remainder, Nat.cast_succ]
    simp only
    linarith
  · have short : ¬ loop.restored pollingInterval > 10 := by omega
    have fits : (loopTime : Int) ≤ loop.restored pollingInterval :=
      punctual.trans (min_le_left _ _)
    rw [Loop.step, tenInt, if_neg short, if_pos (by omega), quotient, remainder, Nat.cast_succ,
      Nat.cast_zero, add_mul]
    simp only
    linarith

/-! ## The schedule -/

/-- Polls, heartbeats and sleeps of the iterations. -/
structure Scheduled (pollingInterval : Nat) (iterations : List Iteration) : Prop where
  /-- There are `rounds` iterations from one poll to the next, beginning with the first. -/
  polled_iff : ∀ i iteration, iterations[i]? = some iteration →
    (iteration.polled = true ↔ rounds pollingInterval ∣ i)
  /-- Polls begin one polling interval apart. -/
  polls : ∀ i iteration next, iterations[i]? = some iteration → iteration.polled = true →
    iterations[i + rounds pollingInterval]? = some next →
    next.loopBegin = iteration.loopBegin + pollingInterval
  /-- Heartbeats are at most one heartbeat interval apart. -/
  heartbeats : ∀ i iteration next, iterations[i]? = some iteration →
    iterations[i + 1]? = some next →
    next.loopBegin ≤ iteration.loopBegin + (heartbeatInterval : Int)
  slept : ∀ iteration ∈ iterations, 0 ≤ iteration.slept

/-- The run lemma: every run of the loop has an iteration for each loop time, and each of
them polls when it should, however long they take. -/
theorem counted_run {pollingInterval : Nat} (positive : 1 ≤ pollingInterval) (start : Int)
    (loopTimes : List Nat) :
    Counted pollingInterval loopTimes.length
        ((mainLoop pollingInterval start).run loopTimes).state ∧
      (iterations pollingInterval start loopTimes).length = loopTimes.length ∧
      ∀ i iteration, (iterations pollingInterval start loopTimes)[i]? = some iteration →
        (iteration.polled = true ↔ i % rounds pollingInterval = 0) ∧ 0 ≤ iteration.slept ∧
          iteration.loopBegin =
            ((mainLoop pollingInterval start).run (loopTimes.take i)).state.loopBegin := by
  induction loopTimes using List.reverseRecOn with
  | nil => exact ⟨counted_start pollingInterval start, rfl, by simp [iterations, Machine.fresh]⟩
  | append_singleton before loopTime ih =>
      rcases ih with ⟨counted, length, found⟩
      rcases counted.step positive loopTime with ⟨next, slept, nonneg, out⟩
      let last := ((mainLoop pollingInterval start).run before).state
      have extended : iterations pollingInterval start (before ++ [loopTime]) =
          iterations pollingInterval start before ++ [⟨last.loopBegin, last.poll, slept⟩] := by
        rw [iterations, Machine.run_concat, Machine.extend_trace, List.map_append]
        have stepped : ((mainLoop pollingInterval start).step last loopTime).2 =
            [⟨last.loopBegin, last.poll, slept⟩] := out
        rw [stepped]
        rfl
      refine ⟨?_, ?_, ?_⟩
      · rw [Machine.run_concat, Machine.extend_state, List.length_append, List.length_singleton]
        exact next
      · rw [extended, List.length_append, List.length_append, length]
        rfl
      · intro i iteration present
        rw [extended] at present
        rcases Nat.lt_or_ge i (iterations pollingInterval start before).length with old | new
        · rw [List.getElem?_append_left old] at present
          rw [List.take_append_of_le_length (by omega)]
          exact found i iteration present
        · rw [List.getElem?_append_right new, List.getElem?_singleton] at present
          split at present
          case isTrue final =>
              cases present
              have index : i = before.length := by omega
              rw [index, List.take_left]
              exact ⟨counted.poll_iff, nonneg, rfl⟩
          case isFalse => cases present

/-- The run lemma for times: with loop times that fit, every iteration begins on time. -/
theorem timed_run {pollingInterval : Nat} (positive : 1 ≤ pollingInterval) (start : Int)
    {loopTimes : List Nat} (punctual : Punctual pollingInterval start loopTimes) :
    ((mainLoop pollingInterval start).run loopTimes).state.loopBegin =
      beginning pollingInterval start loopTimes.length := by
  induction loopTimes using List.reverseRecOn with
  | nil => simp [beginning, Machine.fresh, mainLoop]
  | append_singleton before loopTime ih =>
      have begun := ih fun first time inside =>
        punctual first time (inside.trans (List.prefix_append before [loopTime]))
      rw [Machine.run_concat, Machine.extend_state, List.length_append, List.length_singleton]
      exact (counted_run positive start before).1.loopBegin_step positive begun
        (punctual before loopTime (List.prefix_refl _))

theorem Punctual.of_prefix {pollingInterval : Nat} {start : Int} {before loopTimes : List Nat}
    (punctual : Punctual pollingInterval start loopTimes) (inside : before <+: loopTimes) :
    Punctual pollingInterval start before := by
  intro first time earlier
  exact punctual first time (earlier.trans inside)

/-- With loop times that fit into their slots, every run of the loop has an iteration for
each of them; polls are exactly one polling interval and `rounds` iterations apart, and
heartbeats at most one heartbeat interval. -/
theorem scheduled {pollingInterval : Nat} (positive : 1 ≤ pollingInterval) (start : Int)
    {loopTimes : List Nat} (punctual : Punctual pollingInterval start loopTimes) :
    (iterations pollingInterval start loopTimes).length = loopTimes.length ∧
      Scheduled pollingInterval (iterations pollingInterval start loopTimes) := by
  rcases rounds_spec positive with ⟨several, lower, upper⟩
  rcases counted_run positive start loopTimes with ⟨_, length, found⟩
  have begun : ∀ i iteration, (iterations pollingInterval start loopTimes)[i]? = some iteration →
      iteration.loopBegin = beginning pollingInterval start i := by
    intro i iteration present
    have bound := (List.getElem?_eq_some_iff.mp present).1
    rw [(found i iteration present).2.2,
      timed_run positive start (punctual.of_prefix (List.take_prefix i loopTimes)),
      List.length_take_of_le (by omega)]
  refine ⟨length, ?_, ?_, ?_, ?_⟩
  · intro i iteration present
    rw [(found i iteration present).1, Nat.dvd_iff_mod_eq_zero]
  · intro i iteration next present polled later
    rw [begun _ next later, begun i iteration present, beginning, beginning,
      Nat.add_div_right _ several, Nat.add_mod_right, Nat.cast_succ, add_mul]
    ring
  · intro i iteration next present later
    rw [begun _ next later, begun i iteration present, beginning, beginning]
    rcases succ_cases several i with ⟨_, quotient, remainder⟩ | ⟨last, quotient, remainder⟩
    · rw [quotient, remainder, Nat.cast_succ, add_mul]
      linarith
    · have whole : (pollingInterval : Int) ≤
          (i % rounds pollingInterval : Nat) * heartbeatInterval + heartbeatInterval := by
        have bound : pollingInterval ≤ (i % rounds pollingInterval + 1) * heartbeatInterval := by
          rw [last]
          exact upper
        rw [Nat.add_mul, Nat.one_mul] at bound
        exact_mod_cast bound
      rw [quotient, remainder, Nat.cast_succ, Nat.cast_zero, add_mul]
      linarith
  · intro iteration member
    rcases List.getElem?_of_mem member with ⟨i, present⟩
    exact (found i iteration present).2.1

theorem Punctual.concat {pollingInterval : Nat} {start : Int} {before : List Nat}
    (punctual : Punctual pollingInterval start before) {loopTime : Nat}
    (fits : (loopTime : Int) ≤
      ((mainLoop pollingInterval start).run before).state.slot pollingInterval) :
    Punctual pollingInterval start (before ++ [loopTime]) := by
  intro first time inside
  rcases List.prefix_concat_iff.mp inside with whole | earlier
  · rcases List.append_inj' whole rfl with ⟨rfl, last⟩
    cases last
    exact fits
  · exact punctual first time earlier

/-- A poll every twenty-five seconds takes three iterations. -/
theorem scheduled_twentyFive :
    (iterations 25 0 [1, 0, 5, 2]).length = 4 ∧ Scheduled 25 (iterations 25 0 [1, 0, 5, 2]) := by
  have none : Punctual 25 0 [] := fun before loopTime inside => by
    simp at inside
  have one : Punctual 25 0 ([] ++ [1]) := none.concat (by decide)
  have two : Punctual 25 0 ([1] ++ [0]) := one.concat (by decide)
  have three : Punctual 25 0 ([1, 0] ++ [5]) := two.concat (by decide)
  have four : Punctual 25 0 ([1, 0, 5] ++ [2]) := three.concat (by decide)
  exact scheduled (by decide) 0 four

end Sentri.Modules.Temperature
