import Mathlib.Algebra.BigOperators.Group.List.Basic
import Mathlib.Algebra.Group.Basic
import Mathlib.Algebra.Group.Hom.Defs
import Mathlib.Algebra.Group.Nat.Defs
import Mathlib.Data.List.Induction

/-!
# Machines driven by inputs

A deterministic machine that takes one input at a time.  Its environment chooses
the inputs, so a law for every list of inputs is a law for every schedule: for
every order in which the parties of a system take their steps.

Three induction rules carry facts along runs.  `run_invariant` keeps a property that
every step keeps, and `run_conserved` the balance of what steps bring in and take out.
`run_cause` goes the other way: a property that holds at the end either held all along,
or some step brought it about and it has held since.
-/

structure Machine (State Input Output : Type*) where
  step : State → Input → State × List Output

namespace Machine

variable {State Input Output : Type*} (machine : Machine State Input Output)

/-- The state after one input. -/
def next (state : State) (input : Input) : State := (machine.step state input).1

/-- What the machine puts out on one input. -/
def outputs (state : State) (input : Input) : List Output := (machine.step state input).2

/-- The state after some inputs. -/
def run (state : State) (inputs : List Input) : State := inputs.foldl machine.next state

/-- What the machine puts out on some inputs. -/
def trace (state : State) : List Input → List Output
  | [] => []
  | input :: inputs => machine.outputs state input ++ trace (machine.next state input) inputs

@[simp] theorem run_nil (state : State) : machine.run state [] = state := rfl

@[simp] theorem run_cons (state : State) (input : Input) (inputs : List Input) :
    machine.run state (input :: inputs) = machine.run (machine.next state input) inputs := rfl

@[simp] theorem run_append (state : State) (first second : List Input) :
    machine.run state (first ++ second) = machine.run (machine.run state first) second :=
  List.foldl_append

/-! ## Invariants -/

/-- A property that every step keeps holds at the end of every run. -/
theorem run_invariant (holds : State → Prop)
    (step : ∀ state input, holds state → holds (machine.next state input))
    {state : State} (start : holds state) (inputs : List Input) :
    holds (machine.run state inputs) := by
  induction inputs generalizing state with
  | nil => exact start
  | cons input inputs ih => exact ih (step state input start)

/-- Every step of a run meets a condition on the state before it and its input. -/
def Along (condition : State → Input → Prop) (state : State) (inputs : List Input) : Prop :=
  ∀ before input after, inputs = before ++ input :: after →
    condition (machine.run state before) input

theorem along_nil (condition : State → Input → Prop) (state : State) :
    machine.Along condition state [] := by
  intro before input after split
  simp at split

theorem along_cons {condition : State → Input → Prop} {state : State} {input : Input}
    {inputs : List Input} :
    machine.Along condition state (input :: inputs) ↔
      condition state input ∧ machine.Along condition (machine.next state input) inputs := by
  constructor
  · intro along
    refine ⟨along [] input inputs rfl, ?_⟩
    intro before next after split
    exact along (input :: before) next after (by rw [split, List.cons_append])
  · rintro ⟨here, along⟩ before next after split
    cases before with
    | nil =>
        obtain ⟨rfl, rfl⟩ := List.cons.inj split
        exact here
    | cons first before =>
        obtain ⟨rfl, rest⟩ := List.cons.inj split
        exact along before next after rest

/-- An invariant of the runs whose steps all meet a condition. -/
theorem run_invariant_along {condition : State → Input → Prop} (holds : State → Prop)
    (step : ∀ state input, condition state input → holds state →
      holds (machine.next state input))
    {state : State} (start : holds state) {inputs : List Input}
    (along : machine.Along condition state inputs) : holds (machine.run state inputs) := by
  induction inputs generalizing state with
  | nil => exact start
  | cons input inputs ih =>
      obtain ⟨here, along⟩ := machine.along_cons.mp along
      exact ih (step state input here start) along

/-- A simpler machine that is told what this one puts out keeps up with it, in the runs whose
steps all meet a condition. -/
theorem run_replayed {condition : State → Input → Prop} {Abstract : Type*}
    (apply : Abstract → Output → Abstract) (related : State → Abstract → Prop)
    (step : ∀ state abstract input, condition state input → related state abstract →
      related (machine.next state input) ((machine.outputs state input).foldl apply abstract))
    {state : State} {abstract : Abstract} (start : related state abstract) {inputs : List Input}
    (along : machine.Along condition state inputs) :
    related (machine.run state inputs) ((machine.trace state inputs).foldl apply abstract) := by
  induction inputs generalizing state abstract with
  | nil => exact start
  | cons input inputs ih =>
      obtain ⟨here, along⟩ := machine.along_cons.mp along
      rw [run_cons, trace, List.foldl_append]
      exact ih (step state abstract input here start) along

/-! ## Inputs that change nothing -/

/-- What the machine puts out on the inputs of a run that are kept. -/
def traceOf (keep : Input → Bool) (state : State) : List Input → List Output
  | [] => []
  | input :: inputs =>
      (if keep input then machine.outputs state input else []) ++
        traceOf keep (machine.next state input) inputs

/-- Inputs that change nothing can be left out of a run, and the others have the same
outputs. -/
theorem run_filter {keep : Input → Bool}
    (still : ∀ state input, keep input = false → machine.next state input = state)
    (state : State) (inputs : List Input) :
    machine.run state (inputs.filter keep) = machine.run state inputs ∧
      machine.trace state (inputs.filter keep) = machine.traceOf keep state inputs := by
  induction inputs generalizing state with
  | nil => exact ⟨rfl, rfl⟩
  | cons input inputs ih =>
      cases kept : keep input with
      | true =>
          rw [List.filter_cons_of_pos kept, run_cons, run_cons, trace, traceOf, if_pos kept,
            (ih _).1, (ih _).2]
          exact ⟨rfl, rfl⟩
      | false =>
          have same := still state input kept
          have dropped : ¬keep input = true := by simp [kept]
          rw [List.filter_cons_of_neg dropped, run_cons, traceOf, if_neg dropped, same,
            List.nil_append]
          exact ih state

/-! ## Parts -/

section Part

variable {Part Signal Answer : Type*} (part : Machine Part Signal Answer)

/-- What the steps of a run are for a part of the machine. -/
def partInputs (forPart : State → Input → Option Signal) (state : State) :
    List Input → List Signal
  | [] => []
  | input :: inputs =>
      (forPart state input).toList ++ partInputs forPart (machine.next state input) inputs

theorem partInputs_append (forPart : State → Input → Option Signal) (state : State)
    (first second : List Input) :
    machine.partInputs forPart state (first ++ second) =
      machine.partInputs forPart state first ++
        machine.partInputs forPart (machine.run state first) second := by
  induction first generalizing state with
  | nil => rfl
  | cons input first ih =>
      rw [List.cons_append, partInputs, partInputs, ih, List.append_assoc, run_cons]

/-- A part of the machine runs like a machine of its own. -/
theorem run_part {forPart : State → Input → Option Signal} (view : State → Part)
    (step : ∀ state input, view (machine.next state input) =
      part.run (view state) (forPart state input).toList) (state : State)
    (inputs : List Input) :
    view (machine.run state inputs) =
      part.run (view state) (machine.partInputs forPart state inputs) := by
  induction inputs generalizing state with
  | nil => rfl
  | cons input inputs ih => rw [run_cons, ih, step, partInputs, run_append]

end Part

/-! ## Conserved quantities -/

section Conserved

variable {Amount : Type*} [AddCommMonoid Amount]

/-- What the steps of a run amount to. -/
def total (weight : State → Input → Amount) (state : State) : List Input → Amount
  | [] => 0
  | input :: inputs => weight state input + total weight (machine.next state input) inputs

theorem total_zero (state : State) (inputs : List Input) :
    machine.total (fun _ _ => (0 : Amount)) state inputs = 0 := by
  induction inputs generalizing state with
  | nil => rfl
  | cons input inputs ih => rw [total, ih, add_zero]

/-- What the outputs of a run amount to. -/
theorem total_outputs (weight : Output → Amount) (state : State) (inputs : List Input) :
    machine.total (fun state input => ((machine.outputs state input).map weight).sum) state
        inputs = ((machine.trace state inputs).map weight).sum := by
  induction inputs generalizing state with
  | nil => rfl
  | cons input inputs ih => rw [total, trace, List.map_append, List.sum_append, ih]

/-- A sum of what the steps of a run amount to, in other terms. -/
theorem map_total {Amount' : Type*} [AddCommMonoid Amount'] (measure : Amount →+ Amount')
    (weight : State → Input → Amount) (state : State) (inputs : List Input) :
    measure (machine.total weight state inputs) =
      machine.total (fun state input => measure (weight state input)) state inputs := by
  induction inputs generalizing state with
  | nil => exact map_zero measure
  | cons input inputs ih => rw [total, total, map_add, ih]

/-- A stock that every step changes by what it brings in and takes out, in every state that
an invariant allows. -/
theorem run_conserved {holds : State → Prop}
    (step : ∀ state input, holds state → holds (machine.next state input))
    (stock : State → Amount) {gained lost : State → Input → Amount}
    (balance : ∀ state input, holds state →
      stock (machine.next state input) + lost state input = stock state + gained state input)
    {state : State} (start : holds state) (inputs : List Input) :
    stock (machine.run state inputs) + machine.total lost state inputs =
      stock state + machine.total gained state inputs := by
  induction inputs generalizing state with
  | nil => rfl
  | cons input inputs ih =>
      have rest := ih (step state input start)
      rw [run_cons, total, total, add_left_comm, rest, add_left_comm, ← add_assoc, ← add_assoc,
        balance state input start]

end Conserved

/-- What each step spends of a credit cannot add up to more than the credit at the start. -/
theorem total_le_credit {spent : State → Input → Nat} (credit : State → Nat)
    (step : ∀ state input,
      spent state input + credit (machine.next state input) ≤ credit state)
    (state : State) (inputs : List Input) :
    machine.total spent state inputs ≤ credit state := by
  induction inputs generalizing state with
  | nil => exact Nat.zero_le _
  | cons input inputs ih =>
      have here := step state input
      have later := ih (machine.next state input)
      rw [total]
      omega

/-! ## Causes -/

/-- A property of the states of a run, the first and the last included. -/
def Throughout (holds : State → Prop) (state : State) (inputs : List Input) : Prop :=
  ∀ before after, inputs = before ++ after → holds (machine.run state before)

theorem Throughout.first {holds : State → Prop} {state : State} {inputs : List Input}
    (throughout : machine.Throughout holds state inputs) : holds state :=
  throughout [] inputs rfl

theorem throughout_nil {holds : State → Prop} {state : State} :
    machine.Throughout holds state [] ↔ holds state := by
  constructor
  · exact Throughout.first machine
  · rintro here before after split
    obtain ⟨rfl, -⟩ := List.append_eq_nil_iff.mp split.symm
    exact here

theorem throughout_cons {holds : State → Prop} {state : State} {input : Input}
    {inputs : List Input} :
    machine.Throughout holds state (input :: inputs) ↔
      holds state ∧ machine.Throughout holds (machine.next state input) inputs := by
  constructor
  · intro throughout
    refine ⟨throughout.first, ?_⟩
    rintro before after rfl
    exact throughout (input :: before) after rfl
  · rintro ⟨here, later⟩ before after split
    cases before with
    | nil => exact here
    | cons first before =>
        obtain ⟨rfl, rest⟩ := List.cons.inj split
        exact later before after rest

instance decidableThroughout (holds : State → Prop) [DecidablePred holds] (state : State) :
    (inputs : List Input) → Decidable (machine.Throughout holds state inputs)
  | [] => decidable_of_iff _ machine.throughout_nil.symm
  | input :: inputs =>
      have := decidableThroughout holds (machine.next state input) inputs
      decidable_of_iff _ machine.throughout_cons.symm

theorem throughout_append_singleton {holds : State → Prop} {state : State}
    {inputs : List Input} {input : Input}
    (throughout : machine.Throughout holds state inputs)
    (last : holds (machine.run state (inputs ++ [input]))) :
    machine.Throughout holds state (inputs ++ [input]) := by
  intro before after split
  rcases List.eq_nil_or_concat after with rfl | ⟨after', final, rfl⟩
  · rw [List.append_nil] at split
    rwa [← split]
  · rw [List.concat_eq_append, ← List.append_assoc] at split
    exact throughout before after' (List.append_inj' split rfl).1

/-- What holds at the end of a run has held all along, or since a step that
brought it about. -/
theorem run_cause (holds : State → Prop) {state : State} {inputs : List Input}
    (last : holds (machine.run state inputs)) :
    machine.Throughout holds state inputs ∨
      ∃ before input after, inputs = before ++ input :: after ∧
        ¬holds (machine.run state before) ∧
        machine.Throughout holds (machine.next (machine.run state before) input) after := by
  induction inputs using List.reverseRecOn with
  | nil =>
      refine .inl ?_
      intro before after split
      obtain ⟨rfl, -⟩ := List.append_eq_nil_iff.mp split.symm
      exact last
  | append_singleton inputs input ih =>
      by_cases earlier : holds (machine.run state inputs)
      · rcases ih earlier with throughout | ⟨before, cause, after, rfl, not, since⟩
        · exact .inl (machine.throughout_append_singleton throughout last)
        · refine .inr ⟨before, cause, after ++ [input], by simp, not, ?_⟩
          exact machine.throughout_append_singleton since (by simpa using last)
      · refine .inr ⟨inputs, input, [], rfl, earlier, ?_⟩
        intro before after split
        obtain ⟨rfl, -⟩ := List.append_eq_nil_iff.mp split.symm
        simpa using last

end Machine
