import Mathlib.Data.List.Induction

/-!
# Machines with traces

A machine performs operations one after the other.  Each operation changes the
state and gives a finite list of outputs.  A run keeps, next to the last state,
the trace of all outputs in the order in which they were given, each with the
operation that gave it.  Every statement about arbitrary runs is obtained from
a statement about one operation by the invariant rules at the end of the file.
-/

namespace Sentri.Transition

universe u v w

/-- A deterministic machine over states `σ`, operations `Op` and outputs `Out`. -/
structure Machine (σ : Type u) (Op : Type v) (Out : Type w) where
  start : σ
  step : σ → Op → σ × List Out

/-- What a finite run leaves behind. -/
structure Run (σ : Type u) (Op : Type v) (Out : Type w) where
  state : σ
  trace : List (Op × Out)

namespace Machine

variable {σ : Type u} {Op : Type v} {Out : Type w}

/-- The run before the first operation. -/
def fresh (machine : Machine σ Op Out) : Run σ Op Out :=
  ⟨machine.start, []⟩

/-- Perform one more operation. -/
def extend (machine : Machine σ Op Out) (run : Run σ Op Out) (op : Op) :
    Run σ Op Out :=
  ⟨(machine.step run.state op).1,
    run.trace ++ (machine.step run.state op).2.map fun out => (op, out)⟩

/-- Perform a list of operations from the start state. -/
def run (machine : Machine σ Op Out) (ops : List Op) : Run σ Op Out :=
  ops.foldl machine.extend machine.fresh

@[simp]
theorem run_nil (machine : Machine σ Op Out) : machine.run [] = machine.fresh :=
  rfl

theorem run_append (machine : Machine σ Op Out) (first second : List Op) :
    machine.run (first ++ second) = second.foldl machine.extend (machine.run first) := by
  simp [run]

@[simp]
theorem run_concat (machine : Machine σ Op Out) (ops : List Op) (op : Op) :
    machine.run (ops ++ [op]) = machine.extend (machine.run ops) op := by
  simp [run]

@[simp]
theorem extend_state (machine : Machine σ Op Out) (run : Run σ Op Out) (op : Op) :
    (machine.extend run op).state = (machine.step run.state op).1 :=
  rfl

theorem extend_trace (machine : Machine σ Op Out) (run : Run σ Op Out) (op : Op) :
    (machine.extend run op).trace =
      run.trace ++ (machine.step run.state op).2.map fun out => (op, out) :=
  rfl

/-! ## Invariant rules -/

/-- A property of runs that holds at the start and is kept by every operation
holds of every run. -/
theorem run_invariant (machine : Machine σ Op Out) {holds : Run σ Op Out → Prop}
    (initial : holds machine.fresh)
    (preserved : ∀ run op, holds run → holds (machine.extend run op))
    (ops : List Op) : holds (machine.run ops) := by
  induction ops using List.reverseRecOn with
  | nil => exact initial
  | append_singleton ops op ih =>
      rw [run_concat]
      exact preserved _ _ ih

/-- The invariant rule for the operations that follow a given run. -/
theorem foldl_invariant (machine : Machine σ Op Out) {holds : Run σ Op Out → Prop}
    {ops : List Op} (preserved : ∀ run, ∀ op ∈ ops, holds run → holds (machine.extend run op))
    {run : Run σ Op Out} (initial : holds run) : holds (ops.foldl machine.extend run) := by
  induction ops generalizing run with
  | nil => exact initial
  | cons op ops ih =>
      apply ih
      · intro run op' member
        exact preserved run op' (List.mem_cons_of_mem _ member)
      · exact preserved run op List.mem_cons_self initial

/-- When every operation of a run gives one output, the outputs are those of its
operations in their order, and what holds of one step holds of all of them. -/
theorem trace_of_single (machine : Machine σ Op Out) {holds : List Op → Op → Out → Prop}
    {ops : List Op}
    (single : ∀ before op, before ++ [op] <+: ops →
      ∃ out, (machine.step (machine.run before).state op).2 = [out] ∧ holds before op out) :
    (machine.run ops).trace.length = ops.length ∧
      ∀ i op, ops[i]? = some op →
        ∃ out, (machine.run ops).trace[i]? = some (op, out) ∧ holds (ops.take i) op out := by
  induction ops using List.reverseRecOn with
  | nil => simp [fresh]
  | append_singleton ops last ih =>
      have earlier := ih fun before op inside =>
        single before op (inside.trans (List.prefix_append ops [last]))
      rcases earlier with ⟨length, found⟩
      rcases single ops last (List.prefix_refl _) with ⟨out, given, held⟩
      rw [run_concat, extend_trace, given, List.map_singleton]
      refine ⟨by simp [length], ?_⟩
      intro i op present
      rcases Nat.lt_or_ge i ops.length with old | new
      · rw [List.getElem?_append_left old] at present
        rw [List.getElem?_append_left (length ▸ old),
          List.take_append_of_le_length (Nat.le_of_lt old)]
        exact found i op present
      · rw [List.getElem?_append_right new] at present
        rcases List.getElem?_eq_some_iff.mp present with ⟨bound, rfl⟩
        have atEnd : i = ops.length := by
          rw [List.length_singleton] at bound
          omega
        subst atEnd
        refine ⟨out, ?_, ?_⟩
        · rw [List.getElem?_append_right (Nat.le_of_eq length), length]
          simp
        · simpa using held

/-! ## Machines inside other machines -/

theorem foldl_extend_trace (machine : Machine σ Op Out) (ops : List Op) (state : σ)
    (trace : List (Op × Out)) :
    ops.foldl machine.extend ⟨state, trace⟩ =
      ⟨(ops.foldl machine.extend ⟨state, []⟩).state,
        trace ++ (ops.foldl machine.extend ⟨state, []⟩).trace⟩ := by
  induction ops generalizing state trace with
  | nil => simp
  | cons op ops ih =>
      rw [List.foldl_cons, List.foldl_cons, extend, extend, ih, ih _ ([] ++ _)]
      simp

/-- When every step of the outer machine performs a list of operations of the
inner one, an outer run contains an inner run.  The steps may rely on an
invariant of the outer machine. -/
theorem exists_inner_run {σ' : Type u} {Op' : Type v} {Out' : Type w}
    (outer : Machine σ' Op' Out') (machine : Machine σ Op Out) (inner : σ' → σ)
    (pick : Out' → Option (Op × Out)) (inv : σ' → Prop) {ok : Op → Prop}
    (start : inner outer.start = machine.start) (initial : inv outer.start)
    (preserved : ∀ state op, inv state → inv (outer.step state op).1)
    (step : ∀ state op, inv state → ∃ ops : List Op, (∀ op ∈ ops, ok op) ∧
      ops.foldl machine.extend ⟨inner state, []⟩ =
        ⟨inner (outer.step state op).1, (outer.step state op).2.filterMap pick⟩)
    (ops : List Op') :
    ∃ innerOps : List Op, (∀ op ∈ innerOps, ok op) ∧
      machine.run innerOps =
        ⟨inner (outer.run ops).state, (outer.run ops).trace.filterMap fun item => pick item.2⟩ := by
  have both : inv (outer.run ops).state ∧ ∃ innerOps : List Op, (∀ op ∈ innerOps, ok op) ∧
      machine.run innerOps = ⟨inner (outer.run ops).state,
        (outer.run ops).trace.filterMap fun item => pick item.2⟩ := by
    let holds : Run σ' Op' Out' → Prop := fun run => inv run.state ∧
      ∃ innerOps : List Op, (∀ op ∈ innerOps, ok op) ∧
        machine.run innerOps =
          ⟨inner run.state, run.trace.filterMap fun item => pick item.2⟩
    apply run_invariant outer (show holds outer.fresh from ?_) (fun run op held => ?_)
    · exact ⟨initial, [], by simp, by simp [fresh, start]⟩
    · rcases held with ⟨held, innerOps, allOk, innerRun⟩
      obtain ⟨more, moreOk, moreRun⟩ := step run.state op held
      refine ⟨preserved _ _ held, innerOps ++ more, ?_, ?_⟩
      · intro other member
        rcases List.mem_append.mp member with old | new
        · exact allOk other old
        · exact moreOk other new
      · rw [run_append, innerRun, foldl_extend_trace, moreRun, extend, List.filterMap_append,
          List.filterMap_map]
        rfl
  exact both.2

end Machine

/-! ## Properties of every item of a trace -/

/-- Every item of the trace has a property that may speak of the items before
it. -/
def Throughout {α : Type u} (holds : List α → α → Prop) (trace : List α) : Prop :=
  ∀ before item after, trace = before ++ item :: after → holds before item

namespace Throughout

variable {α : Type u} {holds : List α → α → Prop}

theorem nil : Throughout holds [] := by
  intro before item after split
  simp at split

theorem concat {trace : List α} {item : α} (old : Throughout holds trace)
    (new : holds trace item) : Throughout holds (trace ++ [item]) := by
  intro before other after split
  rcases List.eq_nil_or_concat after with rfl | ⟨rest, last, rfl⟩
  · obtain ⟨rfl, equal⟩ := List.append_inj' split rfl
    rw [← List.head_eq_of_cons_eq equal]
    exact new
  · rw [List.concat_eq_append, ← List.cons_append, ← List.append_assoc] at split
    exact old before other rest (List.append_inj_left' split rfl)

theorem of_concat {trace : List α} {item : α} (all : Throughout holds (trace ++ [item])) :
    Throughout holds trace ∧ holds trace item := by
  constructor
  · intro before other after split
    exact all before other (after ++ [item]) (by simp [split])
  · exact all trace item [] rfl

theorem of_append {trace items : List α} (all : Throughout holds (trace ++ items)) :
    Throughout holds trace := by
  intro before other after split
  exact all before other (after ++ items) (by simp [split])

/-- Items that have the property after any items can be added. -/
theorem append {trace items : List α} (old : Throughout holds trace)
    (new : ∀ before, ∀ item ∈ items, holds before item) :
    Throughout holds (trace ++ items) := by
  induction items using List.reverseRecOn with
  | nil => simpa using old
  | append_singleton items item ih =>
      rw [← List.append_assoc]
      apply concat
      · apply ih
        intro before other member
        exact new before other (List.mem_append_left _ member)
      · exact new _ item (by simp)

/-- Items that have the property after the trace and the items before them can be
added. -/
theorem append_of_split {trace items : List α} (old : Throughout holds trace)
    (new : ∀ first item rest, items = first ++ item :: rest → holds (trace ++ first) item) :
    Throughout holds (trace ++ items) := by
  induction items using List.reverseRecOn with
  | nil => simpa using old
  | append_singleton items item ih =>
      rw [← List.append_assoc]
      apply concat
      · apply ih
        intro first other rest split
        exact new first other (rest ++ [item]) (by simp [split])
      · exact new items item [] rfl

end Throughout

end Sentri.Transition
