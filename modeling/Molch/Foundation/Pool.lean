import Mathlib.Data.List.Nodup
import Mathlib.Order.Fin.Basic

/-- The fields below the data say that no item is in the pool twice. -/
structure Pool (places : ℕ) (δ : Type) where
  active : Fin places → ℕ
  retired : List (ℕ × δ)
  issued : ℕ
  active_injective : Function.Injective active
  nodup_retired : (retired.map Prod.fst).Nodup
  active_not_retired : ∀ place date, (active place, date) ∉ retired
  active_lt_issued : ∀ place, active place < issued
  retired_lt_issued : ∀ entry ∈ retired, entry.1 < issued

namespace Pool

variable {places : ℕ} {δ : Type}

/-- Every place holds the item that has been issued for it first. -/
def full (places : ℕ) (δ : Type) : Pool places δ where
  active := Fin.val
  retired := []
  issued := places
  active_injective := Fin.val_injective
  nodup_retired := List.nodup_nil
  active_not_retired _ _ := List.not_mem_nil
  active_lt_issued place := place.isLt
  retired_lt_issued _ h := absurd h List.not_mem_nil

theorem retired_date_unique (pool : Pool places δ) {item : ℕ} {date date' : δ}
    (h : (item, date) ∈ pool.retired) (h' : (item, date') ∈ pool.retired) : date = date' := by
  have hentry := List.inj_on_of_nodup_map pool.nodup_retired h h' rfl
  exact congrArg Prod.snd hentry

/-- The item at the place is retired and the next one issued for the place. -/
def replace (pool : Pool places δ) (place : Fin places) (date : δ) : Pool places δ where
  active := Function.update pool.active place pool.issued
  retired := pool.retired ++ [(pool.active place, date)]
  issued := pool.issued + 1
  active_injective := by
    intro a b h
    have hlt := pool.active_lt_issued
    by_cases ha : a = place <;> by_cases hb : b = place
    · rw [ha, hb]
    · rw [ha, Function.update_self, Function.update_of_ne hb] at h
      exact absurd h (hlt b).ne'
    · rw [hb, Function.update_self, Function.update_of_ne ha] at h
      exact absurd h (hlt a).ne
    · rw [Function.update_of_ne ha, Function.update_of_ne hb] at h
      exact pool.active_injective h
  nodup_retired := by
    rw [List.map_append, List.nodup_append]
    refine ⟨pool.nodup_retired, List.nodup_singleton _, ?_⟩
    intro item hitem other hother
    obtain ⟨⟨item, date'⟩, hentry, rfl⟩ := List.mem_map.mp hitem
    rw [List.map_singleton, List.mem_singleton] at hother
    rintro rfl
    simp only at hother
    rw [hother] at hentry
    exact pool.active_not_retired place date' hentry
  active_not_retired := by
    intro other date' h
    rw [List.mem_append, List.mem_singleton] at h
    by_cases hother : other = place
    · rw [hother, Function.update_self] at h
      rcases h with h | h
      · exact absurd (pool.retired_lt_issued _ h) (lt_irrefl _)
      · exact absurd (congrArg Prod.fst h) (pool.active_lt_issued place).ne'
    · rw [Function.update_of_ne hother] at h
      rcases h with h | h
      · exact pool.active_not_retired _ _ h
      · exact hother (pool.active_injective (congrArg Prod.fst h))
  active_lt_issued := by
    intro other
    by_cases hother : other = place
    · rw [hother, Function.update_self]
      exact Nat.lt_succ_self _
    · rw [Function.update_of_ne hother]
      exact Nat.lt_succ_of_lt (pool.active_lt_issued other)
  retired_lt_issued := by
    intro entry h
    rw [List.mem_append, List.mem_singleton] at h
    rcases h with h | rfl
    · exact Nat.lt_succ_of_lt (pool.retired_lt_issued entry h)
    · exact Nat.lt_succ_of_lt (pool.active_lt_issued place)

/-- Of the retired items only those that pass the test are kept. -/
def discard (pool : Pool places δ) (keeps : ℕ × δ → Bool) : Pool places δ where
  active := pool.active
  retired := pool.retired.filter keeps
  issued := pool.issued
  active_injective := pool.active_injective
  nodup_retired := pool.nodup_retired.sublist (List.filter_sublist.map _)
  active_not_retired place date h := pool.active_not_retired place date (List.mem_of_mem_filter h)
  active_lt_issued := pool.active_lt_issued
  retired_lt_issued entry h := pool.retired_lt_issued entry (List.mem_of_mem_filter h)

/-- From one pool to a later one: items are only retired under the given dates, only retired
ones are lost, and these only under an outdated date; no item comes back. -/
structure Evolves (dated outdated : δ → Prop) (pool pool' : Pool places δ) : Prop where
  issued_le : pool.issued ≤ pool'.issued
  active : ∀ place, (∃ place', pool'.active place' = pool.active place) ∨
    ∃ date, dated date ∧ (pool.active place, date) ∈ pool'.retired
  retired : ∀ entry ∈ pool.retired, entry ∈ pool'.retired ∨ outdated entry.2
  fresh : ∀ item, pool.issued ≤ item → item < pool'.issued →
    (∃ place', pool'.active place' = item) ∨ ∃ date, dated date ∧ (item, date) ∈ pool'.retired
  active_origin : ∀ place', (∃ place, pool.active place = pool'.active place') ∨
    pool.issued ≤ pool'.active place'
  retired_origin : ∀ entry ∈ pool'.retired, entry ∈ pool.retired ∨
    ((∃ place, pool.active place = entry.1) ∨ pool.issued ≤ entry.1)

namespace Evolves

variable {dated outdated : δ → Prop} {pool pool' pool'' : Pool places δ}

theorem refl (pool : Pool places δ) : Evolves dated outdated pool pool where
  issued_le := le_rfl
  active place := .inl ⟨place, rfl⟩
  retired _ h := .inl h
  fresh _ h h' := absurd h' (not_lt_of_ge h)
  active_origin place := .inl ⟨place, rfl⟩
  retired_origin _ h := .inl h

theorem mono {dated' outdated' : δ → Prop} (hdated : ∀ date, dated date → dated' date)
    (houtdated : ∀ date, outdated date → outdated' date)
    (h : Evolves dated outdated pool pool') : Evolves dated' outdated' pool pool' where
  issued_le := h.issued_le
  active place := (h.active place).imp_right fun ⟨date, hdate, hmem⟩ =>
    ⟨date, hdated date hdate, hmem⟩
  retired entry hentry := (h.retired entry hentry).imp_right (houtdated _)
  fresh item hle hlt := (h.fresh item hle hlt).imp_right fun ⟨date, hdate, hmem⟩ =>
    ⟨date, hdated date hdate, hmem⟩
  active_origin := h.active_origin
  retired_origin := h.retired_origin

theorem keeps (h : Evolves dated outdated pool pool')
    (hkept : ∀ date, dated date → ¬ outdated date) {item : ℕ}
    (hitem : (∃ place, pool.active place = item) ∨
      ∃ date, dated date ∧ (item, date) ∈ pool.retired) :
    (∃ place, pool'.active place = item) ∨
      ∃ date, dated date ∧ (item, date) ∈ pool'.retired := by
  rcases hitem with ⟨place, rfl⟩ | ⟨date, hdate, hmem⟩
  · exact h.active place
  · rcases h.retired _ hmem with hmem' | hout
    · exact .inr ⟨date, hdate, hmem'⟩
    · exact absurd hout (hkept date hdate)

theorem trans (hkept : ∀ date, dated date → ¬ outdated date)
    (h : Evolves dated outdated pool pool') (h' : Evolves dated outdated pool' pool'') :
    Evolves dated outdated pool pool'' where
  issued_le := h.issued_le.trans h'.issued_le
  active place := h'.keeps hkept (h.active place)
  retired entry hentry := by
    rcases h.retired entry hentry with hmem | hout
    · exact h'.retired entry hmem
    · exact .inr hout
  fresh item hle hlt := by
    rcases lt_or_ge item pool'.issued with hlt' | hge
    · exact h'.keeps hkept (h.fresh item hle hlt')
    · exact h'.fresh item hge hlt
  active_origin place := by
    rcases h'.active_origin place with ⟨place', heq⟩ | hle
    · rw [← heq]
      exact h.active_origin place'
    · exact .inr (h.issued_le.trans hle)
  retired_origin entry hentry := by
    rcases h'.retired_origin entry hentry with hmem | ⟨place, heq⟩ | hle
    · exact h.retired_origin entry hmem
    · rw [← heq]
      exact .inr (h.active_origin place)
    · exact .inr (.inr (h.issued_le.trans hle))

end Evolves

theorem evolves_replace {dated outdated : δ → Prop} (pool : Pool places δ) (place : Fin places)
    {date : δ} (hdate : dated date) : Evolves dated outdated pool (pool.replace place date) where
  issued_le := Nat.le_succ _
  active other := by
    by_cases hother : other = place
    · subst hother
      exact .inr ⟨date, hdate, List.mem_append_right _ (List.mem_singleton.mpr rfl)⟩
    · exact .inl ⟨other, Function.update_of_ne hother _ _⟩
  retired _ h := .inl (List.mem_append_left _ h)
  fresh item hle hlt := by
    have hitem : item = pool.issued := le_antisymm (Nat.lt_succ_iff.mp hlt) hle
    subst hitem
    exact .inl ⟨place, Function.update_self _ _ _⟩
  active_origin other := by
    by_cases hother : other = place
    · subst hother
      exact .inr (Function.update_self other pool.issued pool.active).ge
    · exact .inl ⟨other, (Function.update_of_ne hother _ _).symm⟩
  retired_origin entry h := by
    rcases List.mem_append.mp h with h | h
    · exact .inl h
    · rw [List.mem_singleton.mp h]
      exact .inr (.inl ⟨place, rfl⟩)

theorem evolves_discard {dated outdated : δ → Prop} (pool : Pool places δ)
    {keeps : ℕ × δ → Bool} (hkeeps : ∀ entry, keeps entry = false → outdated entry.2) :
    Evolves dated outdated pool (pool.discard keeps) where
  issued_le := le_rfl
  active place := .inl ⟨place, rfl⟩
  retired entry h := by
    cases hentry : keeps entry with
    | false => exact .inr (hkeeps entry hentry)
    | true => exact .inl (List.mem_filter.mpr ⟨h, hentry⟩)
  fresh _ h h' := absurd h' (not_lt_of_ge h)
  active_origin place := .inl ⟨place, rfl⟩
  retired_origin _ h := .inl (List.mem_of_mem_filter h)

end Pool
