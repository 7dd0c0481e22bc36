import Molch.Foundation.Runs

namespace Runs

variable {State State' Input Input' Output Output' : Type*}

/-- The inputs of the inner machine that a run of the outer one stands for. -/
def projected (step : State → Input → Output × State) (project : State → Input → List Input') :
    State → List Input → List Input'
  | _, [] => []
  | state, input :: inputs =>
      project state input ++ projected step project (step state input).2 inputs

/-- The outer machine goes on as the inner one does, and answers accordingly. -/
structure Projects (step : State → Input → Output × State)
    (step' : State' → Input' → Output' × State') (admits : State → Input → Prop)
    (view : State → Option State') (project : State → Input → List Input')
    (answers : Input → Output → List Output' → Prop) : Prop where
  view_step : ∀ {state input state'}, admits state input → view state = some state' →
    view (step state input).2 = some (final step' state' (project state input))
  answers_step : ∀ {state input state'}, admits state input → view state = some state' →
    answers input (step state input).1 (outputs step' state' (project state input))

variable {step : State → Input → Output × State} {step' : State' → Input' → Output' × State'}
  {admits : State → Input → Prop} {view : State → Option State'}
  {project : State → Input → List Input'} {answers : Input → Output → List Output' → Prop}

namespace Projects

variable {state : State} {state' : State'} {inputs : List Input}

theorem view_final (h : Projects step step' admits view project answers)
    (hview : view state = some state') (hadmitted : Admitted step admits state inputs) :
    view (final step state inputs) =
      some (final step' state' (projected step project state inputs)) := by
  induction inputs generalizing state state' with
  | nil => exact hview
  | cons input inputs ih =>
      rw [projected, final_append]
      exact ih (h.view_step hadmitted.head hview) hadmitted.tail

theorem answers_run (h : Projects step step' admits view project answers)
    (hview : view state = some state') {before after : List Input} {input : Input}
    (hadmitted : Admitted step admits state (before ++ input :: after)) :
    answers input (step (final step state before) input).1
      (outputs step' (final step' state' (projected step project state before))
        (project (final step state before) input)) :=
  h.answers_step (hadmitted before input after rfl)
    (h.view_final hview hadmitted.prefix_of_append)

end Projects

end Runs
