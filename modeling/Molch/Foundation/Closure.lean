import Mathlib.Data.Set.Basic

/-!
What can be derived from a set of things by given rules, and the closed set method: a
rule that leads into a guarded set starts from it, so nothing guarded is derived from
what is not guarded.
-/

namespace Molch

variable {α : Type} {rule : List α → α → Prop} {held guarded : Set α}

/-- What follows from the things held by any number of applications of a rule. -/
inductive Derivable (rule : List α → α → Prop) (held : Set α) : α → Prop
  | held {a : α} (h : a ∈ held) : Derivable rule held a
  | rule {premises : List α} {a : α} (hpremises : ∀ b ∈ premises, Derivable rule held b)
      (h : rule premises a) : Derivable rule held a

/-- Every rule that gives something guarded needs something guarded. -/
def Guards (rule : List α → α → Prop) (guarded : Set α) : Prop :=
  ∀ premises a, rule premises a → a ∈ guarded → ∃ b ∈ premises, b ∈ guarded

theorem Guards.not_mem_of_derivable (hguards : Guards rule guarded)
    (hheld : ∀ a ∈ held, a ∉ guarded) {a : α} (h : Derivable rule held a) : a ∉ guarded := by
  induction h with
  | held h => exact hheld _ h
  | rule hpremises h ih =>
      intro hguarded
      obtain ⟨b, hb, hbguarded⟩ := hguards _ _ h hguarded
      exact ih b hb hbguarded

end Molch
