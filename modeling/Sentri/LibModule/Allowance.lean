import Sentri.LibModule.FloodProtection

/-!
# Allowances

Flood protection lets a module that has rested for a fifteenth of a second pass on
fifteen messages, however quickly they follow each other.  A module that rests after
fourteen messages never has one refused.
-/

namespace Sentri.LibModule.Module

open Sentri.Text Sentri.Transition

/-- The message that a request is about. -/
def Request.message (moduleName : Str) : Request → Message
  | .acknowledgeEvent eventID => MessageHandler.acknowledgeEvent eventID
  | .sendEventMessage ruleID vars => MessageHandler.sendEventMessage ruleID vars
  | .setHeartbeatInterval interval => MessageHandler.setHeartbeatInterval moduleName interval
  | .sendHeartbeat _ => MessageHandler.sendHeartbeat moduleName
  | .systemMessage message => ModuleLogger.systemMessage message

/-- The messages that were passed on. -/
def passedMessages (outputs : List Output) : List Message :=
  outputs.filterMap fun
    | .passed _ message => some message
    | .asked _ _ => none

variable {moduleName : Str} {sender : Sender} {timed : TimedRequest}

/-- Unless the counter is shut, the message is passed on at once. -/
theorem Sender.step_free (free : ¬ Shut (sender.now + timed.pause) sender.density) :
    sender.step moduleName timed =
      (⟨(sender.density.isFlooding (sender.now + timed.pause)).1, sender.now + timed.pause⟩,
        [.asked (sender.now + timed.pause) sender.density,
          .passed (sender.now + timed.pause) (timed.request.message moduleName)]) := by
  have simple : ∀ message, unlessFlooding (sender.now + timed.pause) message sender.density =
      ((sender.density.isFlooding (sender.now + timed.pause)).1,
        [.asked (sender.now + timed.pause) sender.density,
          .passed (sender.now + timed.pause) message]) := by
    intro message
    rcases unlessFlooding_cases (sender.now + timed.pause) message sender.density with
      ⟨shut, _⟩ | ⟨_, equal⟩
    · exact absurd shut free
    · exact equal
  rcases timed with ⟨pause, request⟩
  cases request with
  | acknowledgeEvent eventID => simp only [step, acknowledgeEvent, simple]; rfl
  | sendEventMessage ruleID vars => simp only [step, sendEventMessage, simple]; rfl
  | setHeartbeatInterval interval => simp only [step, setHeartbeatInterval, simple]; rfl
  | systemMessage message => simp only [step, systemMessage, simple]; rfl
  | sendHeartbeat oversleep =>
      simp only [step, sendHeartbeat, isFlooding_of_not_shut free, if_neg (lt_irrefl 0)]
      rfl

/-- The module may pass on some more messages at any time. -/
structure Allowance (count : Nat) (sender : Sender) : Prop where
  room : sender.density.messageDensity + count ≤ floodMsgPerSecond
  past : sender.density.lastDensityReset ≤ sender.now

/-- The last messages are long ago when the next one is due. -/
def Rested (sender : Sender) (pause : Nat) : Prop :=
  Density.limit < sender.now + pause - sender.density.lastDensityReset

/-- After a message the counter was reset, or counts one message more. -/
theorem isFlooding_counts {now : Timepoint} {density : Density} (free : ¬ Shut now density) :
    (density.isFlooding now).1 = ⟨1, now⟩ ∨
      now - density.lastDensityReset ≤ Density.limit ∧
        (density.isFlooding now).1 =
          ⟨density.messageDensity + 1, density.lastDensityReset⟩ := by
  unfold Density.isFlooding Density.reset
  by_cases due : now - density.lastDensityReset > Density.limit
  · left
    simp only [if_pos due]
    rfl
  · right
    have room : density.messageDensity < floodMsgPerSecond := by
      by_contra full
      exact free ⟨not_lt.mp due, not_lt.mp full⟩
    simp only [if_neg due, if_pos room]
    exact ⟨not_lt.mp due, trivial⟩

namespace Allowance

variable {count : Nat}

/-- A message uses up a part of the allowance. -/
theorem step (allowance : Allowance (count + 1) sender) (small : count < floodMsgPerSecond) :
    passedMessages (sender.step moduleName timed).2 = [timed.request.message moduleName] ∧
      Allowance count (sender.step moduleName timed).1 ∧
      (sender.step moduleName timed).1.now = sender.now + timed.pause := by
  have room := allowance.room
  have later : sender.now ≤ sender.now + timed.pause :=
    Int.le_add_of_nonneg_right (Int.natCast_nonneg timed.pause)
  have free : ¬ Shut (sender.now + timed.pause) sender.density := by
    rintro ⟨_, full⟩
    omega
  rw [Sender.step_free free]
  refine ⟨rfl, ?_, rfl⟩
  rcases isFlooding_counts free with fresh | ⟨_, counted⟩
  · constructor
    · rw [fresh, Nat.add_comm]
      exact small
    · rw [fresh]
  · constructor
    · rw [counted]
      change sender.density.messageDensity + 1 + count ≤ floodMsgPerSecond
      omega
    · rw [counted]
      exact allowance.past.trans later

/-- Time does not use up the allowance. -/
theorem wait (allowance : Allowance count sender) {later : Timepoint} (le : sender.now ≤ later) :
    Allowance count { sender with now := later } :=
  ⟨allowance.room, allowance.past.trans le⟩

end Allowance

/-- After a rest a message is passed on, and fourteen others may follow. -/
theorem Rested.step (rested : Rested sender timed.pause) :
    passedMessages (sender.step moduleName timed).2 = [timed.request.message moduleName] ∧
      Allowance 14 (sender.step moduleName timed).1 ∧
      (sender.step moduleName timed).1.now = sender.now + timed.pause := by
  have free : ¬ Shut (sender.now + timed.pause) sender.density := by
    rintro ⟨soon, _⟩
    exact absurd rested (not_lt.mpr soon)
  rw [Sender.step_free free]
  refine ⟨rfl, ?_, rfl⟩
  rcases isFlooding_counts free with fresh | ⟨soon, _⟩
  · rw [fresh]
    exact ⟨Nat.le_refl 15, le_rfl⟩
  · exact absurd rested (not_lt.mpr soon)

end Sentri.LibModule.Module
