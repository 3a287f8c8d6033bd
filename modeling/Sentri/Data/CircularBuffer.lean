import Mathlib.Data.List.Basic

/-!
# Circular buffers

A buffer of a fixed capacity that drops its oldest elements when it is full.
It is seen as the list of its elements, the oldest first; the bound on their
number is part of the buffer.
-/

namespace Sentri.Data

universe u

/-- A circular buffer of elements of `α`. -/
structure CircularBuffer (α : Type u) where
  capacity : Nat
  elements : List α
  fits : elements.length ≤ capacity

namespace CircularBuffer

variable {α : Type u}

/-- The empty buffer of a capacity. -/
def empty (capacity : Nat) : CircularBuffer α :=
  ⟨capacity, [], Nat.zero_le _⟩

def size (buffer : CircularBuffer α) : Nat :=
  buffer.elements.length

def full (buffer : CircularBuffer α) : Bool :=
  buffer.size = buffer.capacity

def clear (buffer : CircularBuffer α) : CircularBuffer α :=
  empty buffer.capacity

/-- Add an element.  A full buffer drops its oldest element for it, and a
buffer without capacity drops the element itself. -/
def pushBack (buffer : CircularBuffer α) (a : α) : CircularBuffer α where
  capacity := buffer.capacity
  elements := (buffer.elements ++ [a]).drop (buffer.elements.length + 1 - buffer.capacity)
  fits := by
    rw [List.length_drop, List.length_append, List.length_singleton]
    omega

@[simp]
theorem elements_empty (capacity : Nat) : (empty capacity : CircularBuffer α).elements = [] :=
  rfl

@[simp]
theorem elements_clear (buffer : CircularBuffer α) : buffer.clear.elements = [] :=
  rfl

@[simp]
theorem capacity_clear (buffer : CircularBuffer α) : buffer.clear.capacity = buffer.capacity :=
  rfl

theorem full_iff {buffer : CircularBuffer α} :
    buffer.full = true ↔ buffer.elements.length = buffer.capacity :=
  decide_eq_true_iff

theorem elements_pushBack (buffer : CircularBuffer α) (a : α) :
    (buffer.pushBack a).elements =
      (buffer.elements ++ [a]).drop (buffer.elements.length + 1 - buffer.capacity) :=
  rfl

/-- A buffer with space keeps all its elements. -/
theorem elements_pushBack_of_space {buffer : CircularBuffer α} (space : ¬buffer.full = true)
    (a : α) : (buffer.pushBack a).elements = buffer.elements ++ [a] := by
  have notFull : buffer.elements.length ≠ buffer.capacity := mt full_iff.mpr space
  have fits := buffer.fits
  have none : buffer.elements.length + 1 - buffer.capacity = 0 := by omega
  rw [elements_pushBack, none, List.drop_zero]

/-- A full buffer gives up its oldest element. -/
theorem elements_pushBack_of_full {buffer : CircularBuffer α} (full : buffer.full = true)
    (a : α) : (buffer.pushBack a).elements = (buffer.elements ++ [a]).tail := by
  have one : buffer.elements.length + 1 - buffer.capacity = 1 := by
    rw [← full_iff.mp full]
    omega
  rw [elements_pushBack, one, List.drop_one]

theorem mem_of_mem_pushBack {buffer : CircularBuffer α} {a b : α}
    (member : b ∈ (buffer.pushBack a).elements) : b ∈ buffer.elements ∨ b = a := by
  have inside : b ∈ buffer.elements ++ [a] := List.mem_of_mem_drop member
  simpa using inside

end CircularBuffer

end Sentri.Data
