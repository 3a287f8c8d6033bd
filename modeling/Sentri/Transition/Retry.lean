import Mathlib.Data.List.Basic
import Sentri.Transition.Clock

/-!
# Requests that are retried until they are answered

A request is either turned away at once, or it is attempted, attempted again
whenever no answer came in time, and settled by an answer or, after the last
attempt, by giving up.  `Life` generates the possible message histories of one
request; the shape of these histories follows by induction.

The messages are of any type; `kind` and `time` say what a message is and when
it was sent.
-/

namespace Sentri.Transition.Retry

universe u

/-- What a message means for the request; `other` messages play no role. -/
inductive Kind where
  | attempt
  | answer
  | abort
  | other
  deriving DecidableEq

/-- Where a request stands.  A pending request knows the number of its attempts
and the time of the last one. -/
inductive Phase where
  | rejected
  | pending (tries : Nat) (sent : Timepoint)
  | settled
  deriving DecidableEq

variable {α : Type u} (kind : α → Kind) (time : α → Timepoint)
  (limit : Nat) (timeout : Int)

/-- The histories of a request with at most `limit` attempts, `timeout` apart. -/
inductive Life : Phase → List α → Prop
  | reject {message : α} (isAbort : kind message = .abort) : Life .rejected [message]
  | start {message : α} (isAttempt : kind message = .attempt) :
      Life (.pending 1 (time message)) [message]
  | retry {tries : Nat} {sent : Timepoint} {history : List α} {message : α} :
      Life (.pending tries sent) history → tries < limit →
      kind message = .attempt → sent + timeout ≤ time message →
      Life (.pending (tries + 1) (time message)) (history ++ [message])
  | answer {tries : Nat} {sent : Timepoint} {history : List α} {message : α} :
      Life (.pending tries sent) history → kind message = .answer →
      Life .settled (history ++ [message])
  | giveUp {tries : Nat} {sent : Timepoint} {history : List α} {message : α} :
      Life (.pending tries sent) history → limit ≤ tries →
      kind message = .abort → sent + timeout ≤ time message →
      Life .settled (history ++ [message])

/-- What the history of a pending request looks like. -/
structure PendingShape (tries : Nat) (sent : Timepoint) (history : List α) : Prop where
  attempts : ∀ message ∈ history, kind message = .attempt
  length : history.length = tries
  positive : 1 ≤ tries
  bounded : tries ≤ limit
  spaced : Spaced timeout (history.map time)
  last : ∀ message ∈ history, time message ≤ sent

/-- A history is a number of attempts followed by at most one final message.
An abort is final only after the last attempt and only `timeout` later. -/
structure Shape (phase : Phase) (attempts final : List α) : Prop where
  areAttempts : ∀ message ∈ attempts, kind message = .attempt
  positive : 1 ≤ attempts.length
  bounded : attempts.length ≤ limit
  spaced : Spaced timeout (attempts.map time)
  atMostOne : final.length ≤ 1
  open_iff : final = [] ↔ ∃ sent, phase = .pending attempts.length sent
  closed_iff : final ≠ [] ↔ phase = .settled
  ends : ∀ message ∈ final, kind message = .answer ∨
    (kind message = .abort ∧ attempts.length = limit ∧
      ∀ earlier ∈ attempts, time earlier + timeout ≤ time message)

variable {kind time limit timeout}

theorem Life.pendingShape {tries : Nat} {sent : Timepoint} {history : List α}
    (nonneg : 0 ≤ timeout) (one : 1 ≤ limit)
    (life : Life kind time limit timeout (.pending tries sent) history) :
    PendingShape kind time limit timeout tries sent history := by
  generalize phaseEq : Phase.pending tries sent = phase at life
  induction life generalizing tries sent with
  | reject => cases phaseEq
  | @start message isAttempt =>
      cases phaseEq
      exact
        { attempts := by simpa using isAttempt
          length := rfl
          positive := le_rfl
          bounded := one
          spaced := List.pairwise_singleton _ _
          last := by simp }
  | @retry tries sent history message _ more isAttempt late ih =>
      cases phaseEq
      have shape := ih rfl
      have older : ∀ earlier ∈ history, time earlier + timeout ≤ time message := by
        intro earlier member
        have := shape.last earlier member
        linarith
      exact
        { attempts := by
            intro other member
            rcases List.mem_append.mp member with old | new
            · exact shape.attempts other old
            · rw [List.mem_singleton.mp new]
              exact isAttempt
          length := by simp [shape.length]
          positive := Nat.le_add_left _ _
          bounded := more
          spaced := by
            rw [Spaced, List.map_append, List.pairwise_append]
            exact ⟨shape.spaced, List.pairwise_singleton _ _, by simpa using older⟩
          last := by
            intro other member
            rcases List.mem_append.mp member with old | new
            · have := older other old
              linarith
            · rw [List.mem_singleton.mp new] }
  | answer => cases phaseEq
  | giveUp => cases phaseEq

/-- The attempts so far, without a final message. -/
theorem PendingShape.pending {tries : Nat} {sent : Timepoint} {history : List α}
    (shape : PendingShape kind time limit timeout tries sent history) :
    Shape kind time limit timeout (.pending tries sent) history [] where
  areAttempts := shape.attempts
  positive := shape.length ▸ shape.positive
  bounded := shape.length ▸ shape.bounded
  spaced := shape.spaced
  atMostOne := Nat.zero_le _
  open_iff := by simp [shape.length]
  closed_iff := by simp
  ends := by simp

/-- The attempts so far, followed by a final message. -/
theorem PendingShape.settled {tries : Nat} {sent : Timepoint} {history : List α} {message : α}
    (shape : PendingShape kind time limit timeout tries sent history)
    (ends : kind message = .answer ∨ (kind message = .abort ∧ history.length = limit ∧
      ∀ earlier ∈ history, time earlier + timeout ≤ time message)) :
    Shape kind time limit timeout .settled history [message] where
  areAttempts := shape.attempts
  positive := shape.length ▸ shape.positive
  bounded := shape.length ▸ shape.bounded
  spaced := shape.spaced
  atMostOne := le_rfl
  open_iff := by simp
  closed_iff := by simp
  ends := by simpa using ends

/-- A history is a single abort, or it has the shape of an accepted request. -/
theorem Life.shape {phase : Phase} {history : List α} (nonneg : 0 ≤ timeout)
    (one : 1 ≤ limit) (life : Life kind time limit timeout phase history) :
    (phase = .rejected ∧ ∃ message, history = [message] ∧ kind message = .abort) ∨
      ∃ attempts final, history = attempts ++ final ∧
        Shape kind time limit timeout phase attempts final := by
  cases phase with
  | rejected =>
      cases life with
      | @reject message isAbort => exact Or.inl ⟨rfl, message, rfl, isAbort⟩
  | pending tries sent =>
      have shape := life.pendingShape nonneg one
      exact Or.inr ⟨history, [], (List.append_nil _).symm, shape.pending⟩
  | settled =>
      cases life with
      | @answer tries sent attempts message before isAnswer =>
          have shape := before.pendingShape nonneg one
          exact Or.inr ⟨attempts, [message], rfl, shape.settled (Or.inl isAnswer)⟩
      | @giveUp tries sent attempts message before noMore isAbort late =>
          have shape := before.pendingShape nonneg one
          have last : attempts.length = limit :=
            shape.length.trans (le_antisymm shape.bounded noMore)
          have earliest : ∀ earlier ∈ attempts, time earlier + timeout ≤ time message := by
            intro earlier member
            have := shape.last earlier member
            linarith
          exact Or.inr ⟨attempts, [message], rfl,
            shape.settled (Or.inr ⟨isAbort, last, earliest⟩)⟩

end Sentri.Transition.Retry
