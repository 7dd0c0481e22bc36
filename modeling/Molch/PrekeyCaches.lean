import Molch.Foundation.Runs
import Molch.PrekeyStore
import Molch.Symbolic
import Mathlib.Data.List.FinRange

namespace Molch

variable {B : Type}

theorem isLeast_insert_eq_iff {α : Type} [LinearOrder α] {s : Set α} {a b x y : α}
    (hx : IsLeast (insert a s) x) (hy : IsLeast (insert b s) y) :
    x = y ↔ a = b ∨ ∃ d ∈ s, d ≤ a ∧ d ≤ b := by
  obtain ⟨hxmem, hxle⟩ := hx
  obtain ⟨hymem, hyle⟩ := hy
  have hxa : x ≤ a := hxle (Set.mem_insert a s)
  have hyb : y ≤ b := hyle (Set.mem_insert b s)
  constructor
  · rintro rfl
    rcases hxmem with rfl | hx
    · rcases hymem with rfl | hy
      · exact .inl rfl
      · exact .inr ⟨x, hy, hxa, hyb⟩
    · exact .inr ⟨x, hx, hxa, hyb⟩
  · rintro (rfl | ⟨d, hd, hda, hdb⟩)
    · exact le_antisymm (hxle hymem) (hyle hxmem)
    · have hxd : x ≤ d := hxle (Set.mem_insert_of_mem a hd)
      have hyd : y ≤ d := hyle (Set.mem_insert_of_mem b hd)
      have hxs : x ∈ s := by
        rcases hxmem with rfl | hx
        · exact le_antisymm hxd hda ▸ hd
        · exact hx
      have hys : y ∈ s := by
        rcases hymem with rfl | hy
        · exact le_antisymm hyd hdb ▸ hd
        · exact hy
      exact le_antisymm (hxle (Set.mem_insert_of_mem a hys)) (hyle (Set.mem_insert_of_mem b hxs))

namespace PrekeyStore

/-- The cache of the storage is the least expiration date. -/
def ExactActive (store : PrekeyStore B) : Prop :=
  IsLeast {date | ∃ index, (store.prekeys index).expirationDate = date}
    store.oldestExpirationDate

/-- So is the one of the deprecated prekeys, or 0 if there are none. -/
def ExactDeprecated (store : PrekeyStore B) : Prop :=
  if store.deprecatedPrekeys = [] then store.oldestDeprecatedExpirationDate = 0
  else IsLeast {date | ∃ prekey ∈ store.deprecatedPrekeys, prekey.expirationDate = date}
    store.oldestDeprecatedExpirationDate

def Exact (store : PrekeyStore B) : Prop := store.ExactActive ∧ store.ExactDeprecated

theorem isLeast_oldestOf_active (prekeys : Fin prekeyAmount → Prekey B) :
    IsLeast {date | ∃ index, (prekeys index).expirationDate = date}
      (oldestOf (List.ofFn prekeys)) := by
  have hne : List.ofFn prekeys ≠ [] := by
    intro h
    have hlength : prekeyAmount = 0 := by
      rw [← List.length_ofFn (f := prekeys), h, List.length_nil]
    exact absurd hlength (by decide)
  have hleast := isLeast_oldestOf hne
  have hset : {date | ∃ prekey ∈ List.ofFn prekeys, prekey.expirationDate = date} =
      {date | ∃ index, (prekeys index).expirationDate = date} := by
    ext date
    simp only [Set.mem_ofPred_eq, List.mem_ofFn, exists_exists_eq_and]
  rw [hset] at hleast
  exact hleast

theorem exactActive_iff {store : PrekeyStore B} :
    store.ExactActive ↔ store.oldestExpirationDate = oldestOf store.active := by
  constructor
  · intro h
    exact h.unique (isLeast_oldestOf_active store.prekeys)
  · intro h
    rw [ExactActive, h]
    exact isLeast_oldestOf_active store.prekeys

theorem exactDeprecated_iff {store : PrekeyStore B} :
    store.ExactDeprecated ↔
      store.oldestDeprecatedExpirationDate = oldestOf store.deprecatedPrekeys := by
  rw [ExactDeprecated]
  split
  · rename_i hnil
    rw [hnil]
    rfl
  · rename_i hne
    constructor
    · intro h
      exact h.unique (isLeast_oldestOf hne)
    · intro h
      rw [h]
      exact isLeast_oldestOf hne

/-- The prekey at the place has the given date, or one of the others is at least as old as
both dates. -/
def Undercut (dates : Fin prekeyAmount → ℤ) (index : Fin prekeyAmount) (a b : ℤ) : Prop :=
  a = b ∨ ∃ other, other ≠ index ∧ dates other ≤ a ∧ dates other ≤ b

theorem dates_update (prekeys : Fin prekeyAmount → Prekey B) (index : Fin prekeyAmount)
    (prekey : Prekey B) :
    {date | ∃ i, (Function.update prekeys index prekey i).expirationDate = date} =
      insert prekey.expirationDate
        {date | ∃ other, other ≠ index ∧ (prekeys other).expirationDate = date} := by
  ext date
  constructor
  · rintro ⟨i, hi⟩
    by_cases hindex : i = index
    · subst hindex
      rw [Function.update_self] at hi
      exact .inl hi.symm
    · rw [Function.update_of_ne hindex] at hi
      exact .inr ⟨i, hindex, hi⟩
  · rintro (rfl | ⟨other, hother, rfl⟩)
    · exact ⟨index, by rw [Function.update_self]⟩
    · exact ⟨other, by rw [Function.update_of_ne hother]⟩

variable [Sodium B]

theorem exactActive_deprecate_iff (store : PrekeyStore B) (index : Fin prekeyAmount)
    (w : World B) :
    (store.deprecate_ index w).1.ExactActive ↔
      Undercut (fun i => (store.prekeys i).expirationDate) index
        (w.clock 0 + deprecatedPrekeyExpirationTime) (w.clock 1 + prekeyExpirationTime) := by
  rw [exactActive_iff, deprecate_eq, active]
  have hcache := isLeast_oldestOf_active (Function.update store.prekeys index
    { store.prekeys index with expirationDate := w.clock 0 + deprecatedPrekeyExpirationTime })
  have hdates := isLeast_oldestOf_active (Function.update store.prekeys index
    ⟨Sodium.cryptoScalarmultBase (w.random 0 32), w.random 0 32,
      w.clock 1 + prekeyExpirationTime⟩)
  rw [dates_update] at hcache hdates
  rw [isLeast_insert_eq_iff hcache hdates, Undercut]
  simp only [Set.mem_ofPred_eq]
  constructor
  · rintro (heq | ⟨d, ⟨other, hother, rfl⟩, hle⟩)
    · exact .inl heq
    · exact .inr ⟨other, hother, hle⟩
  · rintro (heq | ⟨other, hother, hle⟩)
    · exact .inl heq
    · exact .inr ⟨_, ⟨other, hother, rfl⟩, hle⟩

theorem exactDeprecated_deprecate_ (store : PrekeyStore B) (index : Fin prekeyAmount)
    (w : World B) : (store.deprecate_ index w).1.ExactDeprecated := by
  rw [exactDeprecated_iff, deprecate_eq]

def expired (store : PrekeyStore B) (currentTime : ℤ) : List (Fin prekeyAmount) :=
  (List.finRange prekeyAmount).filter
    fun index => decide ((store.prekeys index).expirationDate < currentTime)

def deprecateAll : List (Fin prekeyAmount) → PrekeyStore B → World B → PrekeyStore B × World B
  | [], store, w => (store, w)
  | index :: indices, store, w =>
      deprecateAll indices (store.deprecate_ index w).1 (store.deprecate_ index w).2

theorem deprecateAll_append (indices indices' : List (Fin prekeyAmount)) (store : PrekeyStore B)
    (w : World B) : deprecateAll (indices ++ indices') store w =
      deprecateAll indices' (deprecateAll indices store w).1 (deprecateAll indices store w).2 := by
  induction indices generalizing store w with
  | nil => rfl
  | cons index indices ih => exact ih _ _

theorem deprecate_prekeys_of_ne (store : PrekeyStore B) {index other : Fin prekeyAmount}
    (h : other ≠ index) (w : World B) :
    (store.deprecate_ index w).1.prekeys other = store.prekeys other := by
  rw [deprecate_eq]
  exact Function.update_of_ne h _ _

theorem deprecateLoop_cons_of_lt {currentTime : ℤ} {index : Fin prekeyAmount}
    {store : PrekeyStore B} (h : (store.prekeys index).expirationDate < currentTime)
    (indices : List (Fin prekeyAmount)) (w : World B) :
    deprecateLoop currentTime (index :: indices) store w =
      deprecateLoop currentTime indices (store.deprecate_ index w).1
        (store.deprecate_ index w).2 := by
  rw [deprecateLoop, if_pos h]

theorem deprecateLoop_eq (currentTime : ℤ) {indices : List (Fin prekeyAmount)}
    (hnodup : indices.Nodup) (store : PrekeyStore B) (w : World B) :
    deprecateLoop currentTime indices store w = deprecateAll
      (indices.filter fun index => decide ((store.prekeys index).expirationDate < currentTime))
      store w := by
  induction indices generalizing store w with
  | nil => rfl
  | cons index indices ih =>
      obtain ⟨hindex, hnodup⟩ := List.nodup_cons.mp hnodup
      by_cases hout : (store.prekeys index).expirationDate < currentTime
      · rw [deprecateLoop_cons_of_lt hout, List.filter_cons_of_pos (by simpa using hout),
          deprecateAll, ih hnodup]
        refine congrArg (fun l => deprecateAll l _ _) (List.filter_congr ?_)
        intro other hother
        have hne : other ≠ index := by
          rintro rfl
          exact hindex hother
        rw [deprecate_prekeys_of_ne store hne]
      · rw [deprecateLoop, if_neg hout, List.filter_cons_of_neg (by simpa using hout), ih hnodup]

theorem deprecateAll_clock (indices : List (Fin prekeyAmount)) (store : PrekeyStore B)
    (w : World B) (i : ℕ) :
    (deprecateAll indices store w).2.clock i = w.clock (i + 2 * indices.length) := by
  induction indices generalizing store w with
  | nil => rfl
  | cons index indices ih =>
      rw [deprecateAll, ih, deprecate_eq]
      exact congrArg w.clock (by rw [List.length_cons]; omega)

theorem deprecateAll_expirationDate {indices : List (Fin prekeyAmount)} (hnodup : indices.Nodup)
    (store : PrekeyStore B) (w : World B) (i : Fin prekeyAmount) :
    ((deprecateAll indices store w).1.prekeys i).expirationDate =
      if i ∈ indices then w.clock (2 * indices.idxOf i + 1) + prekeyExpirationTime
      else (store.prekeys i).expirationDate := by
  induction indices generalizing store w with
  | nil => rfl
  | cons index indices ih =>
      obtain ⟨hindex, hnodup⟩ := List.nodup_cons.mp hnodup
      rw [deprecateAll, ih hnodup]
      by_cases hi : i = index
      · subst hi
        rw [if_neg hindex, if_pos List.mem_cons_self, List.idxOf_cons_self, deprecate_eq]
        simp only [Function.update_self]
      · have hne : index ≠ i := fun h => hi h.symm
        rw [deprecate_prekeys_of_ne store hi, List.idxOf_cons_ne indices hne]
        simp only [List.mem_cons, hi, false_or]
        split
        · rw [deprecate_eq]
          exact congrArg (fun j => w.clock j + prekeyExpirationTime) (by omega)
        · rfl

theorem exactDeprecated_deprecateAll {indices : List (Fin prekeyAmount)} (hne : indices ≠ [])
    (store : PrekeyStore B) (w : World B) :
    (deprecateAll indices store w).1.ExactDeprecated := by
  obtain ⟨initial, last, rfl⟩ := (List.eq_nil_or_concat' indices).resolve_left hne
  rw [deprecateAll_append, deprecateAll, deprecateAll]
  exact exactDeprecated_deprecate_ _ _ _

/-- The dates of the storage in a rotation, once the expired prekeys are renewed. -/
def renewedDate (store : PrekeyStore B) (w : World B) (index : Fin prekeyAmount) : ℤ :=
  if index ∈ store.expired (w.clock 0) then
    w.clock (2 * (store.expired (w.clock 0)).idxOf index + 2) + prekeyExpirationTime
  else (store.prekeys index).expirationDate

/-- When a rotation keeps the caches exact: no active prekey expires too late, no deprecated
one does or they are looked at again, and the last one that is renewed is not the oldest. -/
structure RotationKeeps (store : PrekeyStore B) (w : World B) : Prop where
  active : ¬ w.clock 0 + prekeyExpirationTime < store.oldestExpirationDate
  deprecated :
    w.clock 0 + deprecatedPrekeyExpirationTime < store.oldestDeprecatedExpirationDate →
      store.deprecatedPrekeys = [] ∨ store.expired (w.clock 0) ≠ []
  last : ∀ index, (store.expired (w.clock 0)).getLast? = some index →
    Undercut (store.renewedDate w) index
      (w.clock (2 * (store.expired (w.clock 0)).length - 1) + deprecatedPrekeyExpirationTime)
      (w.clock (2 * (store.expired (w.clock 0)).length) + prekeyExpirationTime)

omit [Sodium B] in
theorem Undercut.congr {dates dates' : Fin prekeyAmount → ℤ} {index : Fin prekeyAmount} {a b : ℤ}
    (h : ∀ other, other ≠ index → dates other = dates' other) :
    Undercut dates index a b ↔ Undercut dates' index a b := by
  have hother (other : Fin prekeyAmount) :
      (other ≠ index ∧ dates other ≤ a ∧ dates other ≤ b) ↔
        (other ≠ index ∧ dates' other ≤ a ∧ dates' other ≤ b) := by
    constructor
    · rintro ⟨hne, hle⟩
      exact ⟨hne, h other hne ▸ hle⟩
    · rintro ⟨hne, hle⟩
      exact ⟨hne, (h other hne).symm ▸ hle⟩
  rw [Undercut, Undercut]
  exact or_congr Iff.rfl (exists_congr hother)

omit [Sodium B] in
theorem nodup_expired (store : PrekeyStore B) (currentTime : ℤ) :
    (store.expired currentTime).Nodup :=
  (List.nodup_finRange prekeyAmount).filter _

theorem exactActive_deprecateAll_iff (store : PrekeyStore B) (w : World B)
    {index : Fin prekeyAmount} (hlast : (store.expired (w.clock 0)).getLast? = some index)
    {store' : PrekeyStore B} (hprekeys : store'.prekeys = store.prekeys) :
    (deprecateAll (store.expired (w.clock 0)) store' w.now.2).1.ExactActive ↔
      Undercut (store.renewedDate w) index
        (w.clock (2 * (store.expired (w.clock 0)).length - 1) + deprecatedPrekeyExpirationTime)
        (w.clock (2 * (store.expired (w.clock 0)).length) + prekeyExpirationTime) := by
  obtain ⟨initial, hexpired⟩ := List.getLast?_eq_some_iff.mp hlast
  have hnodup := store.nodup_expired (w.clock 0)
  have hrenewed (other : Fin prekeyAmount) (hother : other ≠ index) :
      ((deprecateAll initial store' w.now.2).1.prekeys other).expirationDate =
        store.renewedDate w other := by
    rw [hexpired] at hnodup
    rw [deprecateAll_expirationDate (List.nodup_append.mp hnodup).1, hprekeys, renewedDate, hexpired]
    simp only [List.mem_append, List.mem_singleton, hother, or_false]
    split
    · rename_i hmem
      rw [List.idxOf_append_of_mem hmem]
      rfl
    · rfl
  rw [hexpired, deprecateAll_append, deprecateAll, deprecateAll, exactActive_deprecate_iff,
    deprecateAll_clock, deprecateAll_clock, Undercut.congr hrenewed, List.length_append,
    List.length_singleton]
  have hbefore : 2 * (initial.length + 1) - 1 = 0 + 2 * initial.length + 1 := by omega
  have hafter : 2 * (initial.length + 1) = 1 + 2 * initial.length + 1 := by omega
  rw [hbefore, hafter]
  rfl

omit [Sodium B] in
theorem ExactActive.congr {store store' : PrekeyStore B} (hprekeys : store.prekeys = store'.prekeys)
    (hcache : store.oldestExpirationDate = store'.oldestExpirationDate) :
    store.ExactActive ↔ store'.ExactActive := by
  rw [ExactActive, ExactActive, hprekeys, hcache]

omit [Sodium B] in
theorem ExactActive.lt_iff {store : PrekeyStore B} (h : store.ExactActive) (currentTime : ℤ) :
    store.oldestExpirationDate < currentTime ↔ store.expired currentTime ≠ [] := by
  rw [Ne, expired, List.filter_eq_nil_iff]
  obtain ⟨⟨index, hindex⟩, hle⟩ := h
  constructor
  · intro hlt hnone
    have hnot := hnone index (List.mem_finRange index)
    rw [decide_eq_true_eq, hindex] at hnot
    exact hnot hlt
  · intro hsome
    by_contra hge
    refine hsome fun other _ hother => hge ?_
    exact (hle ⟨other, rfl⟩).trans_lt (of_decide_eq_true hother)

omit [Sodium B] in
theorem removeOutdated_prekeys (store : PrekeyStore B) (currentTime : ℤ) :
    (store.removeOutdated currentTime).prekeys = store.prekeys ∧
      (store.removeOutdated currentTime).oldestExpirationDate = store.oldestExpirationDate := by
  rw [removeOutdated]
  split
  · exact ⟨rfl, rfl⟩
  · exact ⟨rfl, rfl⟩

omit [Sodium B] in
theorem correctDeprecatedPrekeys_prekeys (store : PrekeyStore B) (currentTime : ℤ) :
    (store.correctDeprecatedPrekeys currentTime).prekeys = store.prekeys ∧
      (store.correctDeprecatedPrekeys currentTime).oldestExpirationDate =
        store.oldestExpirationDate := by
  rw [correctDeprecatedPrekeys]
  split
  · exact ⟨rfl, rfl⟩
  · exact ⟨rfl, rfl⟩

omit [Sodium B] in
theorem ExactDeprecated.removeOutdated {store : PrekeyStore B} (h : store.ExactDeprecated)
    (currentTime : ℤ) : (store.removeOutdated currentTime).ExactDeprecated := by
  rw [PrekeyStore.removeOutdated]
  split
  · exact exactDeprecated_iff.mpr rfl
  · exact h

omit [Sodium B] in
/-- Deprecated prekeys that expire too late leave a cache that nothing refreshes. -/
theorem exactDeprecated_corrected_iff {store : PrekeyStore B} (h : store.ExactDeprecated)
    (currentTime : ℤ) :
    ((store.correctDeprecatedPrekeys currentTime).removeOutdated currentTime).ExactDeprecated ↔
      (currentTime + deprecatedPrekeyExpirationTime < store.oldestDeprecatedExpirationDate →
        store.deprecatedPrekeys = []) := by
  rw [correctDeprecatedPrekeys]
  split
  · rename_i hlate
    have hnotremoved : ¬ store.oldestDeprecatedExpirationDate < currentTime := by
      have hpos : (0 : ℤ) ≤ deprecatedPrekeyExpirationTime := by decide
      omega
    rw [PrekeyStore.removeOutdated, if_neg hnotremoved]
    constructor
    · intro hexact _
      by_contra hne
      obtain ⟨prekey, hprekey⟩ := List.exists_mem_of_ne_nil _ hne
      have hle := oldestOf_le (List.mem_map_of_mem hprekey (f := fun prekey =>
        { prekey with expirationDate := currentTime + deprecatedPrekeyExpirationTime }))
      rw [← exactDeprecated_iff.mp hexact] at hle
      exact absurd hlate (not_lt_of_ge hle)
    · intro hnil
      rw [exactDeprecated_iff] at h ⊢
      rw [hnil hlate, List.map_nil, ← hnil hlate]
      exact h
  · rename_i hnot
    constructor
    · intro _ hlate
      exact absurd hlate hnot
    · intro _
      exact h.removeOutdated currentTime

theorem not_exact_rotate_of_late {store : PrekeyStore B} {w : World B}
    (hlate : w.clock 0 + prekeyExpirationTime < store.oldestExpirationDate) :
    ¬ (store.rotate w).1.Exact := by
  rintro ⟨hactive, -⟩
  have hpos : (0 : ℤ) ≤ prekeyExpirationTime := by decide
  obtain ⟨hprekeys, hcache⟩ :=
    (store.correctPrekeys (w.clock 0)).correctDeprecatedPrekeys_prekeys (w.clock 0)
  rw [correctPrekeys, if_pos hlate] at hprekeys hcache
  have hfresh : ¬ ((store.correctPrekeys (w.clock 0)).correctDeprecatedPrekeys
      (w.clock 0)).oldestExpirationDate < w.clock 0 := by
    rw [correctPrekeys, if_pos hlate, hcache]
    simp only
    omega
  rw [rotate_eq, deprecateOutdated, if_neg hfresh] at hactive
  obtain ⟨hprekeys', hcache'⟩ := removeOutdated_prekeys
    ((store.correctPrekeys (w.clock 0)).correctDeprecatedPrekeys (w.clock 0)) (w.clock 0)
  rw [ExactActive.congr hprekeys' hcache', correctPrekeys, if_pos hlate,
    ExactActive.congr hprekeys hcache] at hactive
  obtain ⟨⟨index, hindex⟩, -⟩ := hactive
  exact absurd hindex hlate.ne

theorem exact_rotate_iff {store : PrekeyStore B} (h : store.Exact) (w : World B) :
    (store.rotate w).1.Exact ↔ store.RotationKeeps w := by
  obtain ⟨hactive, hdeprecated⟩ := h
  by_cases hlate : w.clock 0 + prekeyExpirationTime < store.oldestExpirationDate
  · exact iff_of_false (not_exact_rotate_of_late hlate) fun hkeeps => hkeeps.active hlate
  have hcorrect : store.correctPrekeys (w.clock 0) = store := if_neg hlate
  obtain ⟨hprekeys, hcache⟩ := store.correctDeprecatedPrekeys_prekeys (w.clock 0)
  rw [rotate_eq, hcorrect, deprecateOutdated, hcache, Exact]
  by_cases hexpired : store.expired (w.clock 0) = []
  · rw [if_neg fun hlt => (hactive.lt_iff _).mp hlt hexpired]
    obtain ⟨hprekeys', hcache'⟩ :=
      (store.correctDeprecatedPrekeys (w.clock 0)).removeOutdated_prekeys (w.clock 0)
    rw [ExactActive.congr (hprekeys'.trans hprekeys) (hcache'.trans hcache),
      exactDeprecated_corrected_iff hdeprecated]
    constructor
    · rintro ⟨-, hnil⟩
      refine ⟨hlate, fun hlt => .inl (hnil hlt), ?_⟩
      intro index hlast
      rw [hexpired] at hlast
      cases hlast
    · intro hkeeps
      exact ⟨hactive, fun hlt => (hkeeps.deprecated hlt).resolve_right fun hne => hne hexpired⟩
  · have hloop : deprecateLoop (w.clock 0) (List.finRange prekeyAmount)
        (store.correctDeprecatedPrekeys (w.clock 0)) w.now.2 =
        deprecateAll (store.expired (w.clock 0))
          (store.correctDeprecatedPrekeys (w.clock 0)) w.now.2 := by
      rw [deprecateLoop_eq _ (List.nodup_finRange prekeyAmount), hprekeys]
      rfl
    rw [if_pos ((hactive.lt_iff _).mpr hexpired), hloop]
    obtain ⟨hprekeys', hcache'⟩ := removeOutdated_prekeys
      (deprecateAll (store.expired (w.clock 0))
        (store.correctDeprecatedPrekeys (w.clock 0)) w.now.2).1 (w.clock 0)
    obtain ⟨index, hlast⟩ : ∃ index, (store.expired (w.clock 0)).getLast? = some index :=
      ⟨_, List.getLast?_eq_some_getLast hexpired⟩
    rw [ExactActive.congr hprekeys' hcache', exactActive_deprecateAll_iff store w hlast hprekeys]
    constructor
    · rintro ⟨hundercut, -⟩
      refine ⟨hlate, fun _ => .inr hexpired, ?_⟩
      intro index' hlast'
      cases hlast.symm.trans hlast'
      exact hundercut
    · intro hkeeps
      exact ⟨hkeeps.last index hlast,
        (exactDeprecated_deprecateAll hexpired _ _).removeOutdated _⟩

omit [Sodium B] in
theorem exact_updated (store : PrekeyStore B) :
    store.updateExpirationDate.updateDeprecatedExpirationDate.Exact := by
  constructor
  · simp only [ExactActive, updateExpirationDate, updateDeprecatedExpirationDate, active]
    exact isLeast_oldestOf_active store.prekeys
  · rw [exactDeprecated_iff, updateDeprecatedExpirationDate]

theorem exact_create (w : World B) : (create w).1.Exact := by
  rw [create_eq]
  exact exact_updated ⟨0, 0, _, []⟩

theorem exact_of_import {keypairs deprecatedKeypairs : List (ProtobufCPrekey B)}
    {store : PrekeyStore B} (h : import_ keypairs deprecatedKeypairs = .ok store) :
    store.Exact := by
  rw [import_] at h
  split at h
  · obtain ⟨prekeys, -, h⟩ := Result.bind_eq_ok.mp h
    obtain ⟨deprecatedPrekeys, -, h⟩ := Result.bind_eq_ok.mp h
    cases h
    exact exact_updated _
  · cases h

variable [DecidableEq B]

/-- The calls that keep the caches exact. A lookup does if the prekey that it deprecates is
neither before nor after its renewal the oldest one. -/
def KeepsExact (state : PrekeyStore B × World B) : Call B → Prop
  | .getPrekey publicKey => ∀ index, state.1.findPrekey publicKey = some index →
      Undercut (fun i => (state.1.prekeys i).expirationDate) index
        (state.2.clock 0 + deprecatedPrekeyExpirationTime)
        (state.2.clock 1 + prekeyExpirationTime)
  | .rotate => state.1.RotationKeeps state.2

theorem exact_call_iff (state : PrekeyStore B × World B) (c : Call B) (h : state.1.Exact) :
    (call state c).2.1.Exact ↔ KeepsExact state c := by
  cases c with
  | rotate => exact exact_rotate_iff h state.2
  | getPrekey publicKey =>
      rw [call, KeepsExact]
      cases hfound : state.1.findPrekey publicKey with
      | some index =>
          rw [getPrekey_of_findPrekey hfound, Exact,
            and_iff_left (exactDeprecated_deprecate_ state.1 index state.2),
            exactActive_deprecate_iff]
          constructor
          · rintro hundercut index' hindex'
            cases hindex'
            exact hundercut
          · intro hkeeps
            exact hkeeps index rfl
      | none =>
          refine iff_of_true ?_ fun index hindex => by cases hindex
          simp only [getPrekey_of_findPrekey_none hfound]
          exact h

theorem oldestDeprecated_getPrekey {state : PrekeyStore B × World B} {publicKey : PublicKey B}
    {index : Fin prekeyAmount} (h : state.1.findPrekey publicKey = some index) :
    (Runs.final call state [.getPrekey publicKey]).1.oldestDeprecatedExpirationDate =
      oldestOf (state.1.deprecatedPrekeys ++ [{ state.1.prekeys index with
        expirationDate := state.2.clock 0 + deprecatedPrekeyExpirationTime }]) := by
  rw [Runs.final, Runs.final, call, getPrekey_of_findPrekey h, deprecate_eq]

/-- The caches are exact along exactly the runs whose calls keep them so. -/
theorem caches_exact_iff (start : PrekeyStore B × World B)
    (hstart : (∃ w, start = create w) ∨
      ∃ keypairs deprecatedKeypairs, import_ keypairs deprecatedKeypairs = .ok start.1)
    (calls : List (Call B)) :
    (∀ before after, calls = before ++ after → (Runs.final call start before).1.Exact) ↔
      Runs.Admitted call KeepsExact start calls := by
  refine Runs.forall_holds_iff_admitted
    (fun state : PrekeyStore B × World B => state.1.Exact) exact_call_iff ?_
  rcases hstart with ⟨w, rfl⟩ | ⟨keypairs, deprecatedKeypairs, himport⟩
  · exact exact_create w
  · exact exact_of_import himport

end PrekeyStore

namespace Symbolic

open PrekeyStore

/-- The first lookup in a new store leaves the cache a month too early. -/
theorem cache_stale_after_getPrekey :
    ¬ (Runs.final call (create world)
      [.getPrekey ((create world).1.prekeys ⟨0, by decide⟩).publicKey]).1.Exact := by
  intro hkeeps
  rw [Runs.final, Runs.final, exact_call_iff _ _ (exact_create world)] at hkeeps
  have hdate (i : Fin prekeyAmount) :
      ((create world).1.prekeys i).expirationDate = prekeyExpirationTime := by
    rw [create_eq]
    exact Int.zero_add _
  cases hfound : (create world).1.findPrekey ((create world).1.prekeys ⟨0, by decide⟩).publicKey with
  | none =>
      have hnot := List.find?_eq_none.mp hfound ⟨0, by decide⟩ (List.mem_finRange _)
      exact hnot (decide_eq_true rfl)
  | some index =>
      rcases hkeeps index hfound with heq | ⟨other, -, hle, -⟩
      · rw [create_eq] at heq
        exact absurd heq (by decide)
      · simp only [hdate] at hle
        rw [create_eq] at hle
        exact absurd hle (by decide)

/-- The clock jumps ahead after the first prekey has been generated, by nearly a month. -/
def jumpingWorld : World ℕ :=
  { world with
    clock := fun i => if i = 0 then 0 else month - 1000
    random := fun i size => carry size i }

/-- The prekey 5 is looked up. The prekey 0 expires before it does, also when it is deprecated. -/
theorem caches_exact_after_getPrekey :
    let c := Call.getPrekey (Sodium.cryptoScalarmultBase (jumpingWorld.random 5 32))
    (∀ before after, [c] = before ++ after →
      (Runs.final call (create jumpingWorld) before).1.Exact) ∧
    (create jumpingWorld).1.oldestDeprecatedExpirationDate = 0 ∧
    (Runs.final call (create jumpingWorld) [c]).1.oldestDeprecatedExpirationDate =
      month - 1000 + deprecatedPrekeyExpirationTime := by
  intro c
  have hlookup : ∃ index, (create jumpingWorld).1.findPrekey
      (Sodium.cryptoScalarmultBase (jumpingWorld.random 5 32)) = some index := by
    cases hfound : (create jumpingWorld).1.findPrekey
        (Sodium.cryptoScalarmultBase (jumpingWorld.random 5 32)) with
    | some index => exact ⟨index, rfl⟩
    | none =>
        have hnot := List.find?_eq_none.mp hfound ⟨5, by decide⟩ (List.mem_finRange _)
        rw [create_eq] at hnot
        exact absurd (decide_eq_true rfl) hnot
  obtain ⟨index, hindex⟩ := hlookup
  have hfound := List.find?_some hindex
  have hfirst : (⟨0, by decide⟩ : Fin prekeyAmount) ≠ index := by
    rintro rfl
    have hkey := of_decide_eq_true hfound
    rw [create_eq] at hkey
    have hprivate := publicCode_injective (carry_injective (by decide) hkey)
    exact absurd (carry_injective (by decide) hprivate) (by decide)
  refine ⟨(caches_exact_iff (create jumpingWorld) (.inl ⟨jumpingWorld, rfl⟩) [c]).mpr
    (.cons ?_ (.nil _)), by rw [create_eq]; rfl, ?_⟩
  · intro index' hindex'
    obtain rfl : index = index' := Option.some.inj (hindex.symm.trans hindex')
    refine .inr ⟨⟨0, by decide⟩, hfirst, ?_, ?_⟩
    · rw [create_eq]
      exact show (0 : ℤ) + month ≤ month - 1000 + 3600 by decide
    · rw [create_eq]
      exact show (0 : ℤ) + month ≤ month - 1000 + month by decide
  · rw [oldestDeprecated_getPrekey hindex, create_eq]
    rfl

end Symbolic

end Molch
