import Mathlib.Data.List.Basic

namespace Runs

variable {State State' Input Output : Type*}

def final (step : State → Input → Output × State) : State → List Input → State
  | state, [] => state
  | state, input :: inputs => final step (step state input).2 inputs

def outputs (step : State → Input → Output × State) : State → List Input → List Output
  | _, [] => []
  | state, input :: inputs => (step state input).1 :: outputs step (step state input).2 inputs

variable {step : State → Input → Output × State} {step' : State' → Input → Output × State'}

theorem final_append (state : State) (inputs inputs' : List Input) :
    final step state (inputs ++ inputs') = final step (final step state inputs) inputs' := by
  induction inputs generalizing state with
  | nil => rfl
  | cons input inputs ih => exact ih _

theorem outputs_append (state : State) (inputs inputs' : List Input) :
    outputs step state (inputs ++ inputs') =
      outputs step state inputs ++ outputs step (final step state inputs) inputs' := by
  induction inputs generalizing state with
  | nil => rfl
  | cons input inputs ih =>
      rw [List.cons_append, outputs, ih]
      rfl

/-- Every input of a run is admitted by the state in which it comes. -/
def Admitted (step : State → Input → Output × State) (admits : State → Input → Prop)
    (state : State) (inputs : List Input) : Prop :=
  ∀ before input after, inputs = before ++ input :: after →
    admits (final step state before) input

variable {admits : State → Input → Prop}

theorem Admitted.head {state : State} {input : Input} {inputs : List Input}
    (h : Admitted step admits state (input :: inputs)) : admits state input :=
  h [] input inputs rfl

theorem Admitted.tail {state : State} {input : Input} {inputs : List Input}
    (h : Admitted step admits state (input :: inputs)) :
    Admitted step admits (step state input).2 inputs := by
  intro before input' after heq
  exact h (input :: before) input' after (by rw [heq]; rfl)

theorem Admitted.nil (state : State) : Admitted step admits state [] := by
  intro before input after heq
  exact absurd heq (by simp)

theorem Admitted.cons {state : State} {input : Input} {inputs : List Input}
    (hinput : admits state input) (h : Admitted step admits (step state input).2 inputs) :
    Admitted step admits state (input :: inputs) := by
  intro before input' after heq
  cases before with
  | nil =>
      cases heq
      exact hinput
  | cons first before =>
      cases heq
      exact h before input' after rfl

theorem Admitted.prefix_of_append {state : State} {inputs inputs' : List Input}
    (h : Admitted step admits state (inputs ++ inputs')) :
    Admitted step admits state inputs := by
  intro before input after heq
  exact h before input (after ++ inputs') (by rw [heq, List.append_assoc]; rfl)

theorem admitted_cons {state : State} {input : Input} {inputs : List Input} :
    Admitted step admits state (input :: inputs) ↔
      admits state input ∧ Admitted step admits (step state input).2 inputs :=
  ⟨fun h => ⟨h.head, h.tail⟩, fun h => .cons h.1 h.2⟩

theorem admitted_append {state : State} {inputs inputs' : List Input} :
    Admitted step admits state (inputs ++ inputs') ↔
      Admitted step admits state inputs ∧
        Admitted step admits (final step state inputs) inputs' := by
  induction inputs generalizing state with
  | nil => exact ⟨fun h => ⟨.nil state, h⟩, fun h => h.2⟩
  | cons input inputs ih =>
      rw [List.cons_append, admitted_cons, admitted_cons, ih, and_assoc]
      rfl

theorem Admitted.invariant (holds : State → Prop)
    (hstep : ∀ state input, holds state → admits state input → holds (step state input).2)
    {state : State} (hstart : holds state) {inputs : List Input}
    (h : Admitted step admits state inputs) : holds (final step state inputs) := by
  induction inputs generalizing state with
  | nil => exact hstart
  | cons input inputs ih => exact ih (hstep state input hstart h.head) h.tail

theorem Admitted.outputs_invariant (holds : List Output → State → Prop)
    (hstep : ∀ earlier state input, holds earlier state → admits state input →
      holds (earlier ++ [(step state input).1]) (step state input).2)
    {state : State} {earlier : List Output} (hstart : holds earlier state)
    {inputs : List Input} (h : Admitted step admits state inputs) :
    holds (earlier ++ outputs step state inputs) (final step state inputs) := by
  induction inputs generalizing state earlier with
  | nil =>
      rw [outputs, List.append_nil]
      exact hstart
  | cons input inputs ih =>
      have hrest := ih (hstep earlier state input hstart h.head) h.tail
      rw [List.append_assoc] at hrest
      exact hrest

/-- What exactly the admitted steps keep holds in every state of exactly the admitted runs. -/
theorem forall_holds_iff_admitted (holds : State → Prop)
    (hstep : ∀ state input, holds state → (holds (step state input).2 ↔ admits state input))
    {state : State} (hstart : holds state) {inputs : List Input} :
    (∀ before after, inputs = before ++ after → holds (final step state before)) ↔
      Admitted step admits state inputs := by
  constructor
  · rintro h before input after rfl
    have hbefore := h before (input :: after) rfl
    have hafter := h (before ++ [input]) after (by rw [List.append_assoc]; rfl)
    rw [final_append] at hafter
    exact (hstep _ input hbefore).mp hafter
  · rintro h before after rfl
    exact h.prefix_of_append.invariant holds
      (fun state input hholds hadmits => (hstep state input hholds).mpr hadmits) hstart

theorem outputs_eq_of_simulation {related : State → State' → Prop}
    (hstep : ∀ state state' input, related state state' →
      (step state input).1 = (step' state' input).1 ∧
        related (step state input).2 (step' state' input).2)
    {state : State} {state' : State'} (h : related state state') (inputs : List Input) :
    outputs step state inputs = outputs step' state' inputs := by
  induction inputs generalizing state state' with
  | nil => rfl
  | cons input inputs ih =>
      obtain ⟨hout, hnext⟩ := hstep state state' input h
      rw [outputs, outputs, hout, ih hnext]

end Runs
