import Mathlib.Data.List.Infix
import Mathlib.Data.List.Induction

/-!
# Runs that may end

A step of a process may end it, and so may its start.  A law about the states that a run
comes to holds of all of them if it holds of the first and no step breaks it.  When it is
known which steps break it, the law holds of all states exactly if there are no such steps.
-/

namespace Sentri.Transition.Halting

universe u v

variable {σ : Type u} {Op : Type v} (step : σ → Op → Option σ) (start : Option σ)

/-- The state after some operations; `none` if the process has ended. -/
def stateAfter (ops : List Op) : Option σ :=
  ops.foldl (fun state op => state.bind fun state => step state op) start

theorem stateAfter_concat (ops : List Op) (op : Op) :
    stateAfter step start (ops ++ [op]) =
      (stateAfter step start ops).bind fun state => step state op := by
  simp [stateAfter]

/-- A property holds of every state that a run of the operations comes to. -/
def Always (holds : σ → Prop) (ops : List Op) : Prop :=
  ∀ before, before <+: ops → ∀ state, stateAfter step start before = some state → holds state

/-- A property holds of every step of the operations, in the state before it. -/
def EachStep (good : σ → Op → Prop) (ops : List Op) : Prop :=
  ∀ before op, before ++ [op] <+: ops →
    ∀ state, stateAfter step start before = some state → good state op

variable {step start} {holds : σ → Prop} {good : σ → Op → Prop} {ops : List Op}

/-- The run rule: a step from a state of the run keeps what holds of that state. -/
theorem always_of_step (initial : ∀ state, start = some state → holds state)
    (preserved : ∀ before op state next, before ++ [op] <+: ops →
      stateAfter step start before = some state → holds state → step state op = some next →
        holds next) : Always step start holds ops := by
  intro before
  induction before using List.reverseRecOn with
  | nil =>
      intro _ state reached
      exact initial state reached
  | append_singleton before op ih =>
      intro inside next reached
      rw [stateAfter_concat] at reached
      rcases Option.bind_eq_some_iff.mp reached with ⟨state, old, new⟩
      have held := ih ((List.prefix_append before [op]).trans inside) state old
      exact preserved before op state next inside old held new

/-- The invariant rule: what every step keeps holds always. -/
theorem always_of_preserved (initial : ∀ state, start = some state → holds state)
    (preserved : ∀ state op next, holds state → step state op = some next → holds next) :
    Always step start holds ops := by
  apply always_of_step initial
  intro _ op state next _ _ held new
  exact preserved state op next held new

/-- If exactly the good steps keep a property, it holds always if and only if it holds at
the start and all steps are good.  What is known of all states may be used. -/
theorem always_iff {known : σ → Prop} (invariant : Always step start known ops)
    (exactly : ∀ state op next, known state → holds state → step state op = some next →
      (holds next ↔ good state op))
    (ended : ∀ state op, step state op = none → good state op) :
    Always step start holds ops ↔
      (∀ state, start = some state → holds state) ∧ EachStep step start good ops := by
  constructor
  · intro always
    constructor
    · exact always [] List.nil_prefix
    · intro before op inside state reached
      have shorter := (List.prefix_append before [op]).trans inside
      cases new : step state op with
      | none => exact ended state op new
      | some next =>
          have after : stateAfter step start (before ++ [op]) = some next := by
            rw [stateAfter_concat, reached, Option.bind_some, new]
          exact (exactly state op next (invariant before shorter state reached)
            (always before shorter state reached) new).mp
            (always (before ++ [op]) inside next after)
  · rintro ⟨initial, each⟩
    apply always_of_step initial
    intro before op state next inside reached held new
    have shorter := (List.prefix_append before [op]).trans inside
    exact (exactly state op next (invariant before shorter state reached) held new).mpr
      (each before op inside state reached)

end Sentri.Transition.Halting
