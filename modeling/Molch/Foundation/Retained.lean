import Mathlib.Data.List.Sort
import Mathlib.Data.List.DropRight

namespace Retained

variable {α β : Type*} [LinearOrder β] (date : α → β)

def InOrder (entries : List α) : Prop := entries.Pairwise fun a b => date a ≤ date b

def merge (entries entries' : List α) : List α :=
  entries.merge entries' fun a b => decide (date a ≤ date b)

variable {date} {entries entries' : List α}

theorem InOrder.sublist (h : InOrder date entries) (hsublist : entries'.Sublist entries) :
    InOrder date entries' :=
  List.Pairwise.sublist hsublist h

theorem InOrder.merge (h : InOrder date entries) (h' : InOrder date entries') :
    InOrder date (merge date entries entries') := by
  have htotal : Std.Total fun a b : α => date a ≤ date b :=
    ⟨fun a b => le_total (date a) (date b)⟩
  have htrans : IsTrans α fun a b => date a ≤ date b := ⟨fun a b c => le_trans⟩
  exact List.Pairwise.merge h h'

theorem merge_perm : (merge date entries entries').Perm (entries ++ entries') :=
  List.merge_perm_append _

@[simp] theorem merge_nil : merge date entries [] = entries :=
  List.merge_right _

@[simp] theorem nil_merge : merge date [] entries = entries :=
  List.nil_merge _

theorem merge_cons_left {entry : α} (h : ∀ other ∈ entries', date entry ≤ date other) :
    merge date (entry :: entries) entries' = entry :: merge date entries entries' := by
  cases entries' with
  | nil => rw [merge_nil, merge_nil]
  | cons other entries' =>
      exact List.cons_merge_cons_pos _ _ _ (decide_eq_true (h other List.mem_cons_self))

theorem merge_cons_right {entry : α} (h : ∀ other ∈ entries, date entry < date other) :
    merge date entries (entry :: entries') = entry :: merge date entries entries' := by
  cases entries with
  | nil => rw [nil_merge, nil_merge]
  | cons other entries =>
      have hlt := h other List.mem_cons_self
      exact List.cons_merge_cons_neg _ _ _ (by simpa using hlt)

/-- Merging in order and dropping some of the entries can be done in either order. -/
theorem filter_merge (h : InOrder date entries) (h' : InOrder date entries')
    (keep : α → Bool) :
    (merge date entries entries').filter keep =
      merge date (entries.filter keep) (entries'.filter keep) := by
  induction entries generalizing entries' with
  | nil => simp
  | cons entry entries ih =>
      induction entries' with
      | nil => simp
      | cons entry' entries' ih' =>
          have hhead : ∀ other ∈ entries, date entry ≤ date other := fun _ =>
            List.rel_of_pairwise_cons h
          have hhead' : ∀ other ∈ entries', date entry' ≤ date other := fun _ =>
            List.rel_of_pairwise_cons h'
          rcases le_or_gt (date entry) (date entry') with hle | hlt
          · have hfirst : ∀ other ∈ entry' :: entries', date entry ≤ date other := by
              rintro other (_ | ⟨_, hother⟩)
              · exact hle
              · exact hle.trans (hhead' other hother)
            rw [merge_cons_left hfirst, List.filter_cons, List.filter_cons, ih h.of_cons h']
            split
            · rw [merge_cons_left]
              exact fun other hother => hfirst other (List.mem_of_mem_filter hother)
            · rfl
          · have hfirst : ∀ other ∈ entry :: entries, date entry' < date other := by
              rintro other (_ | ⟨_, hother⟩)
              · exact hlt
              · exact hlt.trans_le (hhead other hother)
            rw [merge_cons_right hfirst, List.filter_cons, ih' h'.of_cons,
              List.filter_cons (x := entry')]
            split
            · rw [merge_cons_right]
              exact fun other hother => hfirst other (List.mem_of_mem_filter hother)
            · rfl

theorem filter_date_merge (h : InOrder date entries) (h' : InOrder date entries') (time : β) :
    (merge date entries entries').filter (fun entry => decide (date entry = time)) =
      entries.filter (fun entry => decide (date entry = time)) ++
        entries'.filter fun entry => decide (date entry = time) := by
  rw [filter_merge h h']
  refine List.merge_of_le fun a b ha hb => decide_eq_true ?_
  have hdate := of_decide_eq_true (List.mem_filter.mp ha).2
  have hdate' := of_decide_eq_true (List.mem_filter.mp hb).2
  exact (hdate.trans hdate'.symm).le

theorem InOrder.dropWhile_eq_filter (h : InOrder date entries) {outdated : α → Bool}
    (hold : ∀ a b, date a ≤ date b → outdated b = true → outdated a = true) :
    entries.dropWhile outdated = entries.filter fun entry => !outdated entry := by
  induction entries with
  | nil => rfl
  | cons entry entries ih =>
      rw [List.dropWhile_cons, List.filter_cons]
      cases hentry : outdated entry with
      | true => exact ih h.of_cons
      | false =>
          have hrest : ∀ other ∈ entries, (!outdated other) = true := by
            intro other hother
            have hle := List.rel_of_pairwise_cons h hother
            cases hother : outdated other with
            | true => exact absurd (hold entry other hle hother) (by simp [hentry])
            | false => rfl
          exact congrArg (entry :: ·) (List.filter_eq_self.mpr hrest).symm

theorem insert_eq_merge (entry : α) :
    entries.takeWhile (fun other => decide (date other ≤ date entry)) ++
      entry :: entries.dropWhile (fun other => decide (date other ≤ date entry)) =
        merge date entries [entry] := by
  induction entries with
  | nil => rw [nil_merge]; rfl
  | cons other entries ih =>
      rw [List.takeWhile_cons, List.dropWhile_cons]
      by_cases hle : date other ≤ date entry
      · rw [merge_cons_left (by simpa using hle)]
        simpa [hle] using ih
      · simp [merge, hle]

theorem merge_eq_append (entry : α) (h : ∀ other ∈ entries, date other ≤ date entry) :
    merge date entries [entry] = entries ++ [entry] :=
  List.merge_of_le fun a b ha hb => by
    rw [List.mem_singleton.mp hb]
    exact decide_eq_true (h a ha)

section Latest

theorem exists_append_rtake (limit : ℕ) (entries : List α) :
    ∃ dropped, dropped ++ entries.rtake limit = entries :=
  ⟨_, List.take_append_drop _ _⟩

theorem length_rtake (limit : ℕ) (entries : List α) :
    (entries.rtake limit).length = min limit entries.length := by
  rw [List.rtake, List.length_drop]
  omega

theorem rtake_eq_self {limit : ℕ} (h : entries.length ≤ limit) : entries.rtake limit = entries := by
  rw [List.rtake, Nat.sub_eq_zero_of_le h, List.drop_zero]

theorem rtake_cons {limit : ℕ} (entry : α) (h : limit ≤ entries.length) :
    (entry :: entries).rtake limit = entries.rtake limit := by
  rw [List.rtake, List.length_cons, Nat.succ_sub h, List.drop_succ_cons, List.rtake]

theorem InOrder.le_of_append (h : InOrder date (entries ++ entries')) :
    ∀ entry ∈ entries, ∀ entry' ∈ entries', date entry ≤ date entry' :=
  (List.pairwise_append.mp h).2.2

theorem InOrder.filter_rtake (h : InOrder date entries) (limit : ℕ) {keep : α → Bool}
    (hkeep : ∀ a b, date a ≤ date b → keep a = true → keep b = true) :
    (entries.rtake limit).filter keep = (entries.filter keep).rtake limit := by
  induction entries with
  | nil => simp
  | cons entry entries ih =>
      rcases le_or_gt limit entries.length with hlong | hshort
      · rw [rtake_cons entry hlong, ih h.of_cons]
        cases hentry : keep entry with
        | true =>
            have hall : ∀ other ∈ entries, keep other = true := fun other hother =>
              hkeep entry other (List.rel_of_pairwise_cons h hother) hentry
            rw [List.filter_cons_of_pos hentry, List.filter_eq_self.mpr hall,
              rtake_cons entry hlong]
        | false => rw [List.filter_cons_of_neg (by simp [hentry])]
      · have hlength : (entry :: entries).length ≤ limit := hshort
        rw [rtake_eq_self hlength,
          rtake_eq_self ((List.length_filter_le keep _).trans hlength)]

end Latest

end Retained
