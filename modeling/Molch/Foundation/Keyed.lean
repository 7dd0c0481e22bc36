import Mathlib.Data.List.Nodup

namespace Keyed

variable {α κ : Type} [DecidableEq κ] (key : α → κ)

def find (k : κ) (items : List α) : Option α :=
  items.find? fun item => decide (key item = k)

/-- Put the item in the place of the first one with its key, or at the end. -/
def add (item : α) : List α → List α
  | [] => [item]
  | other :: items => if key other = key item then item :: items else other :: add item items

def modify (k : κ) (change : α → α) : List α → List α
  | [] => []
  | item :: items => if key item = k then change item :: items else item :: modify k change items

def remove (k : κ) : List α → List α
  | [] => []
  | item :: items => if key item = k then items else item :: remove k items

variable {key}

theorem find_eq_some_iff {k : κ} {items : List α} {item : α} :
    find key k items = some item ↔ ∃ before after, items = before ++ item :: after ∧
      key item = k ∧ ∀ other ∈ before, key other ≠ k := by
  rw [find, List.find?_eq_some_iff_append]
  constructor
  · rintro ⟨hitem, before, after, rfl, hbefore⟩
    refine ⟨before, after, rfl, of_decide_eq_true hitem, ?_⟩
    intro other hother hkey
    have hnot := hbefore other hother
    simp [hkey] at hnot
  · rintro ⟨before, after, rfl, hitem, hbefore⟩
    refine ⟨decide_eq_true hitem, before, after, rfl, ?_⟩
    intro other hother
    simpa using hbefore other hother

theorem find_eq_none_iff {k : κ} {items : List α} :
    find key k items = none ↔ ∀ item ∈ items, key item ≠ k := by
  rw [find, List.find?_eq_none]
  constructor
  · intro h item hitem
    simpa using h item hitem
  · intro h item hitem
    simpa using h item hitem

theorem mem_of_find {k : κ} {items : List α} {item : α} (h : find key k items = some item) :
    item ∈ items :=
  List.mem_of_find?_eq_some h

theorem key_of_find {k : κ} {items : List α} {item : α} (h : find key k items = some item) :
    key item = k := by
  obtain ⟨_, _, _, hkey, _⟩ := find_eq_some_iff.mp h
  exact hkey

theorem find_map {β : Type} (f : β → α) (k : κ) (items : List β) :
    (find (key ∘ f) k items).map f = find key k (items.map f) := by
  rw [find, find, List.find?_map]
  rfl

theorem map_add {β : Type} (f : β → α) (item : β) (items : List β) :
    (add (key ∘ f) item items).map f = add key (f item) (items.map f) := by
  induction items with
  | nil => rfl
  | cons other items ih =>
      rw [List.map_cons, add, add, Function.comp_apply, Function.comp_apply]
      split
      · rfl
      · rw [List.map_cons, ih]

theorem modify_zip {β : Type} (k : κ) (change : α → α) (items : List α) (others : List β) :
    (modify key k change items).zip others =
      modify (key ∘ Prod.fst) k (Prod.map change id) (items.zip others) := by
  induction items generalizing others with
  | nil => rfl
  | cons item items ih =>
      cases others with
      | nil => rw [List.zip_nil_right, List.zip_nil_right, modify]
      | cons other others =>
          rw [modify, List.zip_cons_cons, modify, Function.comp_apply]
          split
          · rfl
          · rw [List.zip_cons_cons, ih]

theorem add_append {before after : List α} {old item : α} (hold : key old = key item)
    (hbefore : ∀ other ∈ before, key other ≠ key item) :
    add key item (before ++ old :: after) = before ++ item :: after := by
  induction before with
  | nil => simp [add, hold]
  | cons other before ih =>
      rw [List.cons_append, add, if_neg (hbefore other List.mem_cons_self),
        ih fun other hother => hbefore other (List.mem_cons_of_mem _ hother)]
      rfl

theorem add_of_not_mem {items : List α} {item : α}
    (h : ∀ other ∈ items, key other ≠ key item) : add key item items = items ++ [item] := by
  induction items with
  | nil => rfl
  | cons other items ih =>
      rw [add, if_neg (h other List.mem_cons_self),
        ih fun other hother => h other (List.mem_cons_of_mem _ hother)]
      rfl

theorem modify_append {k : κ} {change : α → α} {before after : List α} {item : α}
    (hitem : key item = k) (hbefore : ∀ other ∈ before, key other ≠ k) :
    modify key k change (before ++ item :: after) = before ++ change item :: after := by
  induction before with
  | nil => simp [modify, hitem]
  | cons other before ih =>
      rw [List.cons_append, modify, if_neg (hbefore other List.mem_cons_self),
        ih fun other hother => hbefore other (List.mem_cons_of_mem _ hother)]
      rfl

theorem find_modify {k : κ} {change : α → α} {items : List α} {item : α}
    (h : find key k items = some item) (hkey : key (change item) = k) :
    find key k (modify key k change items) = some (change item) := by
  obtain ⟨before, after, rfl, hitem, hbefore⟩ := find_eq_some_iff.mp h
  rw [modify_append hitem hbefore]
  exact find_eq_some_iff.mpr ⟨before, after, rfl, hkey, hbefore⟩

theorem mem_of_mem_add {items : List α} {item other : α} (h : other ∈ add key item items) :
    other = item ∨ other ∈ items := by
  induction items with
  | nil => exact .inl (List.mem_singleton.mp h)
  | cons first items ih =>
      rw [add] at h
      split at h
      · rcases List.mem_cons.mp h with h | h
        · exact .inl h
        · exact .inr (List.mem_cons_of_mem _ h)
      · rcases List.mem_cons.mp h with h | h
        · exact .inr (h ▸ List.mem_cons_self)
        · exact (ih h).imp_right (List.mem_cons_of_mem _)

theorem remove_sublist (k : κ) (items : List α) : (remove key k items).Sublist items := by
  induction items with
  | nil => exact List.Sublist.refl _
  | cons item items ih =>
      rw [remove]
      split
      · exact List.sublist_cons_self item items
      · exact ih.cons_cons item

theorem map_key_add (key : α → κ) (item : α) (items : List α) :
    (add key item items).map key = items.map key ∨
      (key item ∉ items.map key ∧ (add key item items).map key = items.map key ++ [key item]) := by
  induction items with
  | nil => exact .inr ⟨List.not_mem_nil, rfl⟩
  | cons other items ih =>
      rw [add]
      split
      · rename_i heq
        left
        rw [List.map_cons, List.map_cons, heq]
      · rename_i hne
        rw [List.map_cons, List.map_cons]
        rcases ih with heq | ⟨hnot, heq⟩
        · exact .inl (by rw [heq])
        · refine .inr ⟨?_, by rw [heq]; rfl⟩
          intro hmem
          rcases List.mem_cons.mp hmem with h | h
          · exact hne h.symm
          · exact hnot h

theorem nodup_add (item : α) {items : List α} (h : (items.map key).Nodup) :
    ((add key item items).map key).Nodup := by
  rcases map_key_add key item items with heq | ⟨hnot, heq⟩
  · rw [heq]
    exact h
  · rw [heq]
    exact h.append (List.nodup_singleton _) (by simpa using hnot)

theorem nodup_remove (k : κ) {items : List α} (h : (items.map key).Nodup) :
    ((remove key k items).map key).Nodup :=
  h.sublist ((remove_sublist k items).map key)

theorem find_add (item : α) (items : List α) :
    find key (key item) (add key item items) = some item := by
  induction items with
  | nil => simp [find, add]
  | cons other items ih =>
      rw [add]
      split
      · simp [find]
      · rename_i hne
        rw [find, List.find?_cons_of_neg (by simpa using hne)]
        exact ih

theorem find_add_of_ne {k : κ} {item : α} (hne : key item ≠ k) (items : List α) :
    find key k (add key item items) = find key k items := by
  induction items with
  | nil =>
      rw [add, find, List.find?_cons_of_neg (by simpa using hne)]
      rfl
  | cons other items ih =>
      rw [add]
      split
      · rename_i heq
        have hother : key other ≠ k := fun h => hne (heq ▸ h)
        rw [find, find, List.find?_cons_of_neg (by simpa using hne),
          List.find?_cons_of_neg (by simpa using hother)]
      · rw [find, find, List.find?_cons, List.find?_cons]
        cases decide (key other = k) with
        | true => rfl
        | false => exact ih

theorem find_remove_of_ne {k k' : κ} (hne : k ≠ k') (items : List α) :
    find key k' (remove key k items) = find key k' items := by
  induction items with
  | nil => rfl
  | cons item items ih =>
      rw [remove]
      split
      · rename_i heq
        have hitem : key item ≠ k' := fun h => hne (heq ▸ h)
        rw [find, find, List.find?_cons_of_neg (by simpa using hitem)]
      · rw [find, find, List.find?_cons, List.find?_cons]
        cases decide (key item = k') with
        | true => rfl
        | false => exact ih

section FindSome

variable {β : Type} {f : α → Option β} {k : κ}

theorem find_cons_of_ne {item : α} (hne : key item ≠ k) (items : List α) :
    find key k (item :: items) = find key k items :=
  List.find?_cons_of_neg (by simpa using hne)

theorem findSome_add {item : α} {items : List α} (hnew : f item = none)
    (hold : ∀ other, find key (key item) items = some other → f other = none) :
    (add key item items).findSome? f = items.findSome? f := by
  induction items with
  | nil => simp [add, hnew]
  | cons other items ih =>
      rw [add]
      split
      · rename_i heq
        have hnone : f other = none := hold other (by simp [find, heq])
        rw [List.findSome?_cons, List.findSome?_cons, hnew, hnone]
      · rename_i hne
        have hrest := ih fun found hfound => hold found ((find_cons_of_ne hne items).trans hfound)
        rw [List.findSome?_cons, List.findSome?_cons, hrest]

theorem findSome_remove {items : List α}
    (h : ∀ item, find key k items = some item → f item = none) :
    (remove key k items).findSome? f = items.findSome? f := by
  induction items with
  | nil => rfl
  | cons item items ih =>
      rw [remove]
      split
      · rename_i heq
        have hnone : f item = none := h item (by simp [find, heq])
        rw [List.findSome?_cons, hnone]
      · rename_i hne
        have hrest := ih fun found hfound => h found ((find_cons_of_ne hne items).trans hfound)
        rw [List.findSome?_cons, List.findSome?_cons, hrest]

theorem findSome_modify {change : α → α} {items : List α}
    (h : ∀ item, find key k items = some item → f (change item) = f item) :
    (modify key k change items).findSome? f = items.findSome? f := by
  induction items with
  | nil => rfl
  | cons item items ih =>
      rw [modify]
      split
      · rename_i heq
        have hsame : f (change item) = f item := h item (by simp [find, heq])
        rw [List.findSome?_cons, List.findSome?_cons, hsame]
      · rename_i hne
        have hrest := ih fun found hfound => h found ((find_cons_of_ne hne items).trans hfound)
        rw [List.findSome?_cons, List.findSome?_cons, hrest]

end FindSome

section Distinct

variable {items : List α} (hdistinct : (items.map key).Nodup)

include hdistinct

theorem find_eq_some_iff_mem {k : κ} {item : α} :
    find key k items = some item ↔ item ∈ items ∧ key item = k := by
  constructor
  · intro h
    exact ⟨mem_of_find h, key_of_find h⟩
  · rintro ⟨hitem, hkey⟩
    obtain ⟨before, after, rfl⟩ := List.append_of_mem hitem
    refine find_eq_some_iff.mpr ⟨before, after, rfl, hkey, ?_⟩
    intro other hother hsame
    rw [List.map_append, List.map_cons, List.nodup_append] at hdistinct
    exact hdistinct.2.2 _ (List.mem_map_of_mem hother) _ List.mem_cons_self
      (hsame.trans hkey.symm)

theorem find_reverse (k : κ) : find key k items.reverse = find key k items := by
  have hreverse : (items.reverse.map key).Nodup := by
    rw [List.map_reverse]
    exact List.nodup_reverse.mpr hdistinct
  ext item
  rw [find_eq_some_iff_mem hreverse, find_eq_some_iff_mem hdistinct, List.mem_reverse]

theorem find_remove (k : κ) : find key k (remove key k items) = none := by
  induction items with
  | nil => rfl
  | cons item items ih =>
      rw [List.map_cons, List.nodup_cons] at hdistinct
      rw [remove]
      split
      · rename_i heq
        rw [find_eq_none_iff]
        intro other hother hkey
        exact hdistinct.1 (List.mem_map.mpr ⟨other, hother, hkey.trans heq.symm⟩)
      · rename_i hne
        rw [find, List.find?_cons_of_neg (by simpa using hne)]
        exact ih hdistinct.2

theorem eraseIdx_eq_remove {index : ℕ} {item : α} (h : items[index]? = some item) :
    items.eraseIdx index = remove key (key item) items := by
  induction items generalizing index with
  | nil => cases h
  | cons first items ih =>
      rw [List.map_cons, List.nodup_cons] at hdistinct
      cases index with
      | zero =>
          cases h
          rw [remove, if_pos rfl]
          rfl
      | succ index =>
          have hitem : item ∈ items := List.mem_of_getElem? h
          have hne : key first ≠ key item := by
            intro hsame
            exact hdistinct.1 (List.mem_map.mpr ⟨item, hitem, hsame.symm⟩)
          rw [remove, if_neg hne, List.eraseIdx_cons_succ, ih hdistinct.2 h]

end Distinct

theorem modify_add {item item' : α} (hkey : key item' = key item) (items : List α) :
    modify key (key item) (fun _ => item') (add key item items) = add key item' items := by
  induction items with
  | nil => simp [add, modify]
  | cons other items ih =>
      rw [add, add, hkey]
      split
      · rw [modify, if_pos rfl]
      · rename_i hne
        rw [modify, if_neg hne, ih]

/-- The keys are distinct and all items have the property. -/
structure All (key : α → κ) (p : α → Prop) (items : List α) : Prop where
  all : ∀ item ∈ items, p item
  nodup : (items.map key).Nodup

section All

variable {p : α → Prop} {items : List α}

omit [DecidableEq κ] in
theorem All.nil : All key p [] where
  all _ h := absurd h List.not_mem_nil
  nodup := List.nodup_nil

theorem All.add (h : All key p items) {item : α} (hitem : p item) :
    All key p (add key item items) where
  all other hother := by
    rcases mem_of_mem_add hother with rfl | hother
    · exact hitem
    · exact h.all other hother
  nodup := nodup_add item h.nodup

theorem All.remove (h : All key p items) (k : κ) : All key p (remove key k items) where
  all item hitem := h.all item ((remove_sublist k items).subset hitem)
  nodup := nodup_remove k h.nodup

omit [DecidableEq κ] in
theorem All.replace {before after : List α} {old new : α} (h : All key p (before ++ old :: after))
    (hnew : p new) (hkey : key new = key old) : All key p (before ++ new :: after) where
  all item hitem := by
    rcases List.mem_append.mp hitem with hitem | hitem
    · exact h.all item (List.mem_append_left _ hitem)
    · rcases List.mem_cons.mp hitem with rfl | hitem
      · exact hnew
      · exact h.all item (List.mem_append_right _ (List.mem_cons_of_mem _ hitem))
  nodup := by
    have hnodup := h.nodup
    rw [List.map_append, List.map_cons] at hnodup ⊢
    rw [hkey]
    exact hnodup

theorem modify_of_find_none {k : κ} (change : α → α) (h : find key k items = none) :
    modify key k change items = items := by
  rw [find_eq_none_iff] at h
  induction items with
  | nil => rfl
  | cons item items ih =>
      rw [modify, if_neg (h item List.mem_cons_self),
        ih fun other hother => h other (List.mem_cons_of_mem _ hother)]

theorem All.modify (h : All key p items) {k : κ} {change : α → α}
    (hchange : ∀ item, find key k items = some item → p (change item) ∧ key (change item) = k) :
    All key p (modify key k change items) := by
  cases hfound : find key k items with
  | none =>
      rw [modify_of_find_none change hfound]
      exact h
  | some item =>
      obtain ⟨hnew, hkey⟩ := hchange item hfound
      obtain ⟨before, after, rfl, hitem, hbefore⟩ := find_eq_some_iff.mp hfound
      rw [modify_append hitem hbefore]
      exact h.replace hnew (hkey.trans hitem.symm)

theorem All.foldl_add {items' : List α} (h : All key p items) (hall : ∀ item ∈ items', p item) :
    All key p (items'.foldl (fun items item => Keyed.add key item items) items) := by
  induction items' generalizing items with
  | nil => exact h
  | cons item items' ih =>
      exact ih (h.add (hall item List.mem_cons_self))
        fun other hother => hall other (List.mem_cons_of_mem _ hother)

end All

theorem foldl_add {items items' : List α} (h : ((items' ++ items).map key).Nodup) :
    items.foldl (fun items item => add key item items) items' = items' ++ items := by
  induction items generalizing items' with
  | nil => rw [List.foldl_nil, List.append_nil]
  | cons item items ih =>
      have hnew : ∀ other ∈ items', key other ≠ key item := by
        intro other hother hkey
        rw [List.map_append, List.map_cons, List.nodup_append] at h
        exact h.2.2 _ (List.mem_map_of_mem hother) _ List.mem_cons_self hkey
      rw [List.foldl_cons, add_of_not_mem hnew, ih (by rwa [List.append_assoc]),
        List.append_assoc]
      rfl

end Keyed
