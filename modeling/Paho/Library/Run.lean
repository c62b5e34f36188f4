import Mathlib.Data.List.Basic

/-!
# Runs of a deterministic machine

A machine is a step function from a state and an input to the next state. The environment
chooses the inputs, so a run is the fold of the step function over a list of inputs. This
file packages the inductions over runs: invariants, invariants that hold as long as every
step meets a guard, and relations between the runs of two machines.
-/

namespace Paho

universe u v w

namespace Machine

variable {State : Type u} {Input : Type v} {Other : Type w}

/-- The state reached from `state` by consuming `inputs` in order. -/
def run (step : State → Input → State) (state : State) (inputs : List Input) : State :=
  inputs.foldl step state

@[simp]
theorem run_nil (step : State → Input → State) (state : State) :
    run step state [] = state :=
  rfl

@[simp]
theorem run_cons (step : State → Input → State) (state : State) (input : Input)
    (inputs : List Input) :
    run step state (input :: inputs) = run step (step state input) inputs :=
  rfl

theorem run_append (step : State → Input → State) (state : State) (left right : List Input) :
    run step state (left ++ right) = run step (run step state left) right := by
  simp [run]

/-- Every step of the run meets the guard, which reads the state before the step. -/
def Guarded (step : State → Input → State) (guard : State → Input → Prop) :
    State → List Input → Prop
  | _, [] => True
  | state, input :: inputs => guard state input ∧ Guarded step guard (step state input) inputs

instance decidableGuarded (step : State → Input → State) (guard : State → Input → Prop)
    [∀ state input, Decidable (guard state input)] (state : State) (inputs : List Input) :
    Decidable (Guarded step guard state inputs) :=
  match inputs with
  | [] => isTrue trivial
  | input :: inputs =>
      have := decidableGuarded step guard (step state input) inputs
      inferInstanceAs (Decidable (_ ∧ _))

@[simp]
theorem guarded_nil (step : State → Input → State) (guard : State → Input → Prop)
    (state : State) : Guarded step guard state [] :=
  trivial

@[simp]
theorem guarded_cons (step : State → Input → State) (guard : State → Input → Prop)
    (state : State) (input : Input) (inputs : List Input) :
    Guarded step guard state (input :: inputs) ↔
      guard state input ∧ Guarded step guard (step state input) inputs :=
  Iff.rfl

theorem guarded_append {step : State → Input → State} {guard : State → Input → Prop}
    {state : State} {left right : List Input} :
    Guarded step guard state (left ++ right) ↔
      Guarded step guard state left ∧ Guarded step guard (run step state left) right := by
  induction left generalizing state with
  | nil => simp
  | cons input left ih => simp [ih, and_assoc]

/-- What holds after a step exactly when it held before and the step met the guard. -/
theorem invariant_iff_guarded {step : State → Input → State} {guard : State → Input → Prop}
    {Inv : State → Prop}
    (stepped : ∀ state input, Inv (step state input) ↔ Inv state ∧ guard state input)
    (state : State) (inputs : List Input) :
    Inv (run step state inputs) ↔ Inv state ∧ Guarded step guard state inputs := by
  induction inputs generalizing state with
  | nil => simp
  | cons input inputs ih =>
      rw [run_cons, ih, stepped, guarded_cons, and_assoc]

/-- Two guards that agree wherever an invariant holds, which the first of them keeps. -/
theorem guarded_congr {step : State → Input → State} {first second : State → Input → Prop}
    {Inv : State → Prop}
    (keeps : ∀ state input, Inv state → first state input → Inv (step state input))
    (same : ∀ state input, Inv state → (first state input ↔ second state input))
    {state : State} (holds : Inv state) (inputs : List Input) :
    Guarded step first state inputs ↔ Guarded step second state inputs := by
  induction inputs generalizing state with
  | nil => simp
  | cons input inputs ih =>
      rw [guarded_cons, guarded_cons, ← same state input holds]
      apply and_congr_right
      intro met
      exact ih (keeps state input holds met)

/-- A property that, next to an invariant, a step keeps exactly when it meets a guard: it holds in
every state of a run exactly when the run is guarded. -/
theorem always_iff_guarded {step : State → Input → State} {guard : State → Input → Prop}
    {Inv Holds : State → Prop} (keeps : ∀ state input, Inv state → Inv (step state input))
    (stepped : ∀ state input, Inv state → Holds state →
      (Holds (step state input) ↔ guard state input))
    {state : State} (inv : Inv state) (holds : Holds state) (inputs : List Input) :
    (∀ front back : List Input, inputs = front ++ back → Holds (run step state front)) ↔
      Guarded step guard state inputs := by
  induction inputs generalizing state with
  | nil => simp [holds]
  | cons input inputs ih =>
      have rest := fun after => ih (keeps state input inv) after
      rw [guarded_cons, ← stepped state input inv holds]
      constructor
      · intro always
        have after : Holds (step state input) := always [input] inputs rfl
        refine ⟨after, (rest after).mp ?_⟩
        intro front back split
        exact always (input :: front) back (congrArg (input :: ·) split)
      · rintro ⟨after, guarded⟩ front back split
        rcases List.cons_eq_append_iff.mp split with ⟨rfl, -⟩ | ⟨front, rfl, tails⟩
        · exact holds
        · exact (rest after).mpr guarded front back tails

/-- A run is guarded when every input meets the guard in the state before it. -/
theorem guarded_iff {step : State → Input → State} {guard : State → Input → Prop}
    {state : State} {inputs : List Input} :
    Guarded step guard state inputs ↔
      ∀ front back : List Input, inputs = front ++ back →
        ∀ input ∈ back.head?, guard (run step state front) input := by
  constructor
  · intro guarded front back split input isNext
    rw [split, guarded_append] at guarded
    cases back with
    | nil => cases isNext
    | cons next back =>
        cases isNext
        exact guarded.2.1
  · intro meets
    induction inputs generalizing state with
    | nil => trivial
    | cons input inputs ih =>
        refine ⟨meets [] (input :: inputs) rfl input rfl, ih ?_⟩
        intro front back split
        exact meets (input :: front) back (congrArg (input :: ·) split)

/-- A guard on the inputs alone. -/
theorem guarded_of_forall {step : State → Input → State} {guard : State → Input → Prop}
    {state : State} {inputs : List Input}
    (meets : ∀ input ∈ inputs, ∀ state, guard state input) : Guarded step guard state inputs := by
  induction inputs generalizing state with
  | nil => trivial
  | cons input inputs ih =>
      exact ⟨meets input List.mem_cons_self state,
        ih fun other mem => meets other (List.mem_cons_of_mem _ mem)⟩

theorem Guarded.and {step : State → Input → State} {left right : State → Input → Prop}
    {state : State} {inputs : List Input} (leftGuarded : Guarded step left state inputs)
    (rightGuarded : Guarded step right state inputs) :
    Guarded step (fun state input => left state input ∧ right state input) state inputs := by
  induction inputs generalizing state with
  | nil => trivial
  | cons input inputs ih =>
      exact ⟨⟨leftGuarded.1, rightGuarded.1⟩, ih leftGuarded.2 rightGuarded.2⟩

/-- What one guarded step preserves, a guarded run preserves. -/
theorem invariant_of_guarded {step : State → Input → State} {guard : State → Input → Prop}
    {invariant : State → Prop}
    (step_preserves : ∀ state input, invariant state → guard state input →
      invariant (step state input))
    {state : State} {inputs : List Input} (holds : invariant state)
    (guarded : Guarded step guard state inputs) : invariant (run step state inputs) := by
  induction inputs generalizing state with
  | nil => exact holds
  | cons input inputs ih => exact ih (step_preserves _ _ holds guarded.1) guarded.2

/-- What one step preserves, a run preserves. -/
theorem invariant_of_run {step : State → Input → State} {invariant : State → Prop}
    (step_preserves : ∀ state input, invariant state → invariant (step state input))
    {state : State} (holds : invariant state) (inputs : List Input) :
    invariant (run step state inputs) := by
  induction inputs generalizing state with
  | nil => exact holds
  | cons input inputs ih => exact ih (step_preserves _ _ holds)

section Relation

variable {Output : Type*}

/-- A run of a machine that may have several next states, with an output for each input. -/
inductive Trace (does : State → Input → Output → State → Prop) :
    State → List Input → List Output → State → Prop
  | nil (state : State) : Trace does state [] [] state
  | cons {state next last : State} {input : Input} {output : Output} {inputs : List Input}
  {outputs : List Output}
      (step : does state input output next) (rest : Trace does next inputs outputs last) :
      Trace does state (input :: inputs) (output :: outputs) last

/-- Where a step of one machine is a step of the other, a run is a run. -/
theorem Trace.simulates {does : State → Input → Output → State → Prop}
    {does' : Other → Input → Output → Other → Prop} {related : State → Other → Prop}
    (step : ∀ state other input output next, related state other → does state input output next →
      ∃ next', does' other input output next' ∧ related next next')
    {state last : State} {other : Other} {inputs : List Input} {outputs : List Output}
    (trace : Trace does state inputs outputs last) (isRelated : related state other) :
    ∃ last', Trace does' other inputs outputs last' ∧ related last last' := by
  induction trace generalizing other with
  | nil state => exact ⟨other, .nil other, isRelated⟩
  | cons isStep rest ih =>
      rcases step _ other _ _ _ isRelated isStep with ⟨next', isStep', after⟩
      rcases ih after with ⟨last', trace', isLast⟩
      exact ⟨last', .cons isStep' trace', isLast⟩

end Relation

end Machine

end Paho
