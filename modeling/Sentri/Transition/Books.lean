import Mathlib.Data.Option.Basic
import Mathlib.Tactic.Linarith

/-!
# Counting outstanding items in several books

Several parties keep books about the outstanding items of some keys.  A party
that adds items of a key owns the key and counts at least what it adds; an item
that is settled is struck out by all parties.  As long as no two parties own a
key, its owner never counts less than what is outstanding, and no other party
ever counts more than nothing: the only count that falls to zero is that of the
owner, and then nothing is outstanding.
-/

namespace Sentri.Transition

universe u v

/-- The counts of the parties, and what is really outstanding. -/
structure Books (ι : Type u) (κ : Type v) where
  count : ι → Option (κ → Int)
  outstanding : κ → Nat

namespace Books

variable {ι : Type u} {κ : Type v}

/-- The books are in order, for parties that own some keys. -/
structure Sound (owns : ι → κ → Prop) (books : Books ι κ) : Prop where
  own : ∀ i count k, books.count i = some count → owns i k →
    (books.outstanding k : Int) ≤ count k
  other : ∀ i count k, books.count i = some count → ¬ owns i k → count k ≤ 0
  unowned : ∀ k, (∀ i, ¬ owns i k) → books.outstanding k = 0
  untouched : ∀ i count k, books.count i = some count → (∀ j, ¬ owns j k) → count k = 0

variable {owns : ι → κ → Prop} {books next : Books ι κ}

/-- Nothing is owned, counted or outstanding at the beginning. -/
theorem Sound.start (free : ∀ i k, ¬ owns i k) (none : ∀ k, books.outstanding k = 0)
    (zero : ∀ i count k, books.count i = some count → count k = 0) : Sound owns books where
  own := by
    intro i _ k _ owned
    exact absurd owned (free i k)
  other := by
    intro i count k present _
    exact (zero i count k present).le
  unowned := by
    intro k _
    exact none k
  untouched := by
    intro i count k present _
    exact zero i count k present

/-- Items may get lost without being struck out. -/
theorem Sound.lose (sound : Sound owns books) (same : next.count = books.count)
    (fewer : ∀ k, next.outstanding k ≤ books.outstanding k) : Sound owns next where
  own := by
    intro i count k present owned
    have before := sound.own i count k (same ▸ present) owned
    have less := fewer k
    omega
  other := by
    intro i count k present
    exact sound.other i count k (same ▸ present)
  unowned := by
    intro k free
    have none := sound.unowned k free
    have less := fewer k
    omega
  untouched := by
    intro i count k present
    exact sound.untouched i count k (same ▸ present)

/-- One party adds items of some keys, which no other party owns. -/
structure Adds (i : ι) (new : κ → Prop) (books next : Books ι κ) : Prop where
  others : ∀ j, j ≠ i → next.count j = books.count j
  own : ∃ before after, books.count i = some before ∧ next.count i = some after ∧
    (∀ k, before k + next.outstanding k ≤ after k + books.outstanding k) ∧
    ∀ k, ¬ new k → after k = before k ∧ next.outstanding k = books.outstanding k

/-- A count after an addition is an old one of another party, or the new one. -/
theorem Adds.count {i j : ι} {new : κ → Prop} {count : κ → Int} (adds : Adds i new books next)
    (present : next.count j = some count) :
    j = i ∨ j ≠ i ∧ books.count j = some count := by
  by_cases same : j = i
  · exact Or.inl same
  · exact Or.inr ⟨same, adds.others j same ▸ present⟩

theorem Sound.add {i : ι} {new : κ → Prop} (sound : Sound owns books)
    (adds : Adds i new books next) (separate : ∀ k, new k → ∀ j, owns j k → j = i) :
    Sound (fun j k => owns j k ∨ j = i ∧ new k) next := by
  obtain ⟨before, after, old, now, grows, only⟩ := adds.own
  exact
    { own := by
        intro j count k present owned
        rcases adds.count present with rfl | ⟨different, unchanged⟩
        · rw [now] at present
          cases present
          have enough := grows k
          by_cases ownedBefore : owns j k
          · have bound := sound.own j before k old ownedBefore
            omega
          · have added : new k := by simpa [ownedBefore] using owned
            have free : ∀ other, ¬ owns other k := by
              intro other ownedByOther
              exact ownedBefore (separate k added other ownedByOther ▸ ownedByOther)
            have none := sound.unowned k free
            have zero := sound.untouched j before k old free
            omega
        · have ownedBefore : owns j k := by simpa [different] using owned
          have notNew : ¬ new k := fun added => different (separate k added j ownedBefore)
          have bound := sound.own j count k unchanged ownedBefore
          rw [(only k notNew).2]
          exact bound
      other := by
        intro j count k present notOwned
        rcases not_or.mp notOwned with ⟨notBefore, notAdded⟩
        rcases adds.count present with rfl | ⟨_, unchanged⟩
        · rw [now] at present
          cases present
          have notNew : ¬ new k := fun added => notAdded ⟨rfl, added⟩
          rw [(only k notNew).1]
          exact sound.other j before k old notBefore
        · exact sound.other j count k unchanged notBefore
      unowned := by
        intro k free
        have notNew : ¬ new k := fun added => free i (Or.inr ⟨rfl, added⟩)
        rw [(only k notNew).2]
        exact sound.unowned k fun j owned => free j (Or.inl owned)
      untouched := by
        intro j count k present free
        have freeBefore : ∀ other, ¬ owns other k := fun other owned => free other (Or.inl owned)
        rcases adds.count present with rfl | ⟨_, unchanged⟩
        · rw [now] at present
          cases present
          have notNew : ¬ new k := fun added => free j (Or.inr ⟨rfl, added⟩)
          rw [(only k notNew).1]
          exact sound.untouched j before k old freeBefore
        · exact sound.untouched j count k unchanged freeBefore }

/-- An item of some keys is settled, and every party strikes it out. -/
structure Settles (settled : κ → Prop) [DecidablePred settled] (books next : Books ι κ) :
    Prop where
  count : ∀ i, next.count i =
    (books.count i).map fun count k => count k - if settled k then 1 else 0
  outstanding : ∀ k, (next.outstanding k : Int) =
    books.outstanding k - if settled k then 1 else 0

section Settled

variable {settled : κ → Prop} [DecidablePred settled]

theorem Settles.before (settles : Settles settled books next) {i : ι} {count : κ → Int}
    (present : next.count i = some count) :
    ∃ before, books.count i = some before ∧
      ∀ k, count k = before k - if settled k then 1 else 0 := by
  rw [settles.count] at present
  obtain ⟨before, old, rfl⟩ := Option.map_eq_some_iff.mp present
  exact ⟨before, old, fun _ => rfl⟩

theorem Sound.settle (sound : Sound owns books) (settles : Settles settled books next) :
    Sound owns next where
  own := by
    intro i count k present owned
    obtain ⟨before, old, struck⟩ := settles.before present
    have bound := sound.own i before k old owned
    have total := settles.outstanding k
    rw [struck]
    omega
  other := by
    intro i count k present notOwned
    obtain ⟨before, old, struck⟩ := settles.before present
    have bound := sound.other i before k old notOwned
    rw [struck]
    split <;> omega
  unowned := by
    intro k free
    have none := sound.unowned k free
    have total := settles.outstanding k
    split at total <;> omega
  untouched := by
    intro i count k present free
    obtain ⟨before, old, struck⟩ := settles.before present
    have none := sound.unowned k free
    have zero := sound.untouched i before k old free
    have total := settles.outstanding k
    rw [struck]
    split at total
    next => omega
    next notSettled => rw [if_neg notSettled, zero, Int.sub_zero]

/-- When a count falls from one to zero, nothing is outstanding any more. -/
theorem Sound.last (sound : Sound owns books) (settles : Settles settled books next) {i : ι}
    {count : κ → Int} {k : κ} (present : books.count i = some count) (one : count k = 1)
    (struck : settled k) : next.outstanding k = 0 := by
  have total := settles.outstanding k
  rw [if_pos struck] at total
  by_cases owned : owns i k
  · have bound := sound.own i count k present owned
    omega
  · have bound := sound.other i count k present owned
    omega

end Settled

end Books

end Sentri.Transition
