import Mathlib.Data.Nat.Notation
import Mathlib.Logic.Relation

namespace Lineage

open Relation

variable {α : Type*}

/-- How many steps a thing is away from one that comes from nothing. -/
inductive Generation (root : α → Prop) (parent : α → α → Prop) : ℕ → α → Prop
  | root {a : α} (h : root a) : Generation root parent 0 a
  | child {n : ℕ} {a b : α} (h : Generation root parent n a) (hparent : parent a b) :
      Generation root parent (n + 1) b

/-- Nothing has two origins. -/
structure Unique (root : α → Prop) (parent : α → α → Prop) : Prop where
  root_ne : ∀ {a b}, root b → ¬ parent a b
  parent_eq : ∀ {a b c}, parent a c → parent b c → a = b

variable {root : α → Prop} {parent : α → α → Prop} {a b : α} {m n : ℕ}

theorem Generation.unique (h : Unique root parent) (hn : Generation root parent n a)
    (hm : Generation root parent m a) : n = m := by
  induction hn generalizing m with
  | root hroot =>
      cases hm with
      | root => rfl
      | child _ hparent => exact absurd hparent (h.root_ne hroot)
  | child _ hparent ih =>
      cases hm with
      | root hroot => exact absurd hparent (h.root_ne hroot)
      | child hm hparent' =>
          rw [h.parent_eq hparent' hparent] at hm
          rw [ih hm]

theorem Generation.of_descends (h : ReflTransGen parent a b) (hn : Generation root parent n a) :
    ∃ m, n ≤ m ∧ Generation root parent m b := by
  induction h with
  | refl => exact ⟨n, Nat.le_refl n, hn⟩
  | tail _ hparent ih =>
      obtain ⟨m, hle, hm⟩ := ih
      exact ⟨m + 1, Nat.le_succ_of_le hle, hm.child hparent⟩

theorem Generation.not_descends (h : Unique root parent) (hn : Generation root parent n a)
    (hm : Generation root parent m b) (hlt : m < n) : ¬ ReflTransGen parent a b := by
  intro hdescends
  obtain ⟨k, hle, hk⟩ := hn.of_descends hdescends
  rw [hk.unique h hm] at hle
  omega

theorem Generation.exists_root (h : Generation root parent n a) :
    ∃ b, root b ∧ ReflTransGen parent b a := by
  induction h with
  | root hroot => exact ⟨_, hroot, .refl⟩
  | child _ hparent ih =>
      obtain ⟨b, hroot, hdescends⟩ := ih
      exact ⟨b, hroot, hdescends.tail hparent⟩

theorem Unique.eq_of_descends_root (h : Unique root parent) (hroot : root b)
    (hdescends : ReflTransGen parent a b) : a = b := by
  rcases hdescends.cases_tail with heq | ⟨c, -, hparent⟩
  · exact heq.symm
  · exact absurd hparent (h.root_ne hroot)

theorem Unique.root_eq (h : Unique root parent) {c : α} (ha : root a) (hb : root b)
    (hac : ReflTransGen parent a c) (hbc : ReflTransGen parent b c) : a = b := by
  induction hac with
  | refl => exact (h.eq_of_descends_root ha hbc).symm
  | tail _ hparent ih =>
      rcases hbc.cases_tail with heq | ⟨d, hbd, hparent'⟩
      · rw [heq] at hparent
        exact absurd hparent (h.root_ne hb)
      · rw [h.parent_eq hparent' hparent] at hbd
        exact ih hbd

end Lineage
