import Mathlib.Algebra.Order.Ring.Int
import Mathlib.Data.Int.ConditionallyCompleteOrder
import Mathlib.Data.Int.DivMod
import Mathlib.Order.Monotone.Basic
import Mathlib.Tactic.Linarith

/-!
# Clocks and spaced times

A clock is a sequence of readings; those of a steady clock never go back.  Times and durations
are counted in nanoseconds.  The second half of the file bounds how many times
of a spaced list can fall into one window.
-/

namespace Sentri.Transition

/-- Nanoseconds since the epoch of the clock. -/
abbrev Timepoint := Int

/-- A duration given in milliseconds. -/
def milliseconds (count : Int) : Int :=
  count * 1000000

/-- The result of adding or multiplying numbers of nanoseconds in 64 bits: what does not
fit wraps around. -/
def nanoseconds (count : Int) : Int :=
  count.bmod 18446744073709551616

/-- A number of nanoseconds that 64 bits can hold. -/
def Representable (count : Int) : Prop :=
  -9223372036854775808 ≤ count ∧ count < 9223372036854775808

instance (count : Int) : Decidable (Representable count) :=
  inferInstanceAs (Decidable (_ ∧ _))

theorem nanoseconds_of_representable {count : Int} (representable : Representable count) :
    nanoseconds count = count :=
  Int.bmod_eq_of_le representable.1 representable.2

theorem nanoseconds_add (first second : Int) :
    nanoseconds (first + nanoseconds second) = nanoseconds (first + second) :=
  Int.add_bmod_bmod

/-- Wrapping around makes a number that is not negative smaller. -/
theorem nanoseconds_le {count : Int} (nonneg : 0 ≤ count) : nanoseconds count ≤ count := by
  rw [nanoseconds, Int.bmod_def]
  omega

/-- A clock: `reading n` is the result of the call of `now` number `n`.  It may be set
back. -/
structure Clock where
  reading : Nat → Timepoint

namespace Clock

/-- The clock whose readings are given by a list, the last one repeated. -/
def ofList (first : Timepoint) (steps : List Nat) : Clock where
  reading n := first + ((steps.take n).sum : Nat)

theorem monotone_ofList (first : Timepoint) (steps : List Nat) :
    Monotone (ofList first steps).reading := by
  intro m n le
  have sums : (steps.take m).sum ≤ (steps.take n).sum := by
    obtain ⟨rest, split⟩ := List.take_prefix_take_left (l := steps) le
    rw [← split, List.sum_append]
    exact Nat.le_add_right _ _
  exact Int.add_le_add_left (Int.ofNat_le.mpr sums) first

end Clock

/-- A clock that is never set back. -/
structure SteadyClock extends Clock where
  monotone : Monotone reading

namespace SteadyClock

theorem reading_le (clock : SteadyClock) {m n : Nat} (le : m ≤ n) :
    clock.reading m ≤ clock.reading n :=
  clock.monotone le

def ofList (first : Timepoint) (steps : List Nat) : SteadyClock where
  toClock := Clock.ofList first steps
  monotone := Clock.monotone_ofList first steps

end SteadyClock

/-! ## Spaced lists -/

/-- Any two times of the list, in their order, are at least `gap` apart. -/
def Spaced (gap : Int) (times : List Timepoint) : Prop :=
  times.Pairwise fun earlier later => earlier + gap ≤ later

/-- A spaced list between two bounds is short. -/
theorem Spaced.length_mul_le {gap : Int} {times : List Timepoint} {first last : Timepoint}
    (spaced : Spaced gap times) (within : ∀ time ∈ times, first ≤ time ∧ time ≤ last)
    (room : first ≤ last + gap) : times.length * gap ≤ last - first + gap := by
  induction times generalizing first with
  | nil =>
      simp only [List.length_nil, Nat.cast_zero, zero_mul]
      linarith
  | cons time times ih =>
      obtain ⟨later, spaced⟩ := List.pairwise_cons.mp spaced
      obtain ⟨firstLe, leLast⟩ := within time List.mem_cons_self
      have rest : times.length * gap ≤ last - (time + gap) + gap := by
        apply ih spaced
        · intro next member
          exact ⟨later next member, (within next (List.mem_cons_of_mem _ member)).2⟩
        · linarith
      rw [List.length_cons]
      push_cast
      linarith

/-- In a window of length `span` lie at most `span / gap + 1` times of a spaced
list. -/
theorem Spaced.length_window_le {gap span : Int} {times : List Timepoint}
    (spaced : Spaced gap times) (positive : 0 < gap) (nonneg : 0 ≤ span)
    (first : Timepoint) :
    ((times.filter fun time => first ≤ time ∧ time ≤ first + span).length : Int) ≤
      span / gap + 1 := by
  let window := times.filter fun time => first ≤ time ∧ time ≤ first + span
  have within : ∀ time ∈ window, first ≤ time ∧ time ≤ first + span := by
    intro time member
    simpa using (List.mem_filter.mp member).2
  have bound : window.length * gap ≤ first + span - first + gap :=
    Spaced.length_mul_le (List.Pairwise.filter _ spaced) within (by linarith)
  have shifted : span / gap + 1 = (span + gap) / gap := by
    rw [Int.add_ediv_of_dvd_right (Int.dvd_refl gap), Int.ediv_self positive.ne']
  rw [shifted, Int.le_ediv_iff_mul_le positive]
  linarith

end Sentri.Transition
