import Molch.PrekeyCaches

namespace Molch

variable {B : Type}

def Prekey.keyPair (prekey : Prekey B) : PublicKey B × PrivateKey B :=
  (prekey.publicKey, prekey.privateKey)

namespace PrekeyStore

def corrected (store : PrekeyStore B) (currentTime : ℤ) : PrekeyStore B :=
  (store.correctPrekeys currentTime).correctDeprecatedPrekeys currentTime

/-- The places that a rotation deprecates, if its gate is open. -/
def renewals (store : PrekeyStore B) (currentTime : ℤ) : List (Fin prekeyAmount) :=
  if store.oldestExpirationDate < currentTime then store.expired currentTime else []

theorem nodup_renewals (store : PrekeyStore B) (currentTime : ℤ) :
    (store.renewals currentTime).Nodup := by
  rw [renewals]
  split
  · exact store.nodup_expired currentTime
  · exact List.nodup_nil

theorem renewals_eq_nil {store : PrekeyStore B} {currentTime : ℤ}
    (h : ∀ index, currentTime ≤ (store.prekeys index).expirationDate) :
    store.renewals currentTime = [] := by
  rw [renewals]
  split
  · rw [expired, List.filter_eq_nil_iff]
    intro index _
    simpa using h index
  · rfl

theorem corrected_prekeys (store : PrekeyStore B) (currentTime : ℤ) (index : Fin prekeyAmount) :
    (store.corrected currentTime).prekeys index =
      if currentTime + prekeyExpirationTime < store.oldestExpirationDate then
        { store.prekeys index with expirationDate := currentTime + prekeyExpirationTime }
      else store.prekeys index := by
  rw [corrected, (correctDeprecatedPrekeys_prekeys _ _).1, correctPrekeys]
  split <;> rfl

theorem corrected_oldestExpirationDate (store : PrekeyStore B) (currentTime : ℤ) :
    (store.corrected currentTime).oldestExpirationDate = store.oldestExpirationDate := by
  rw [corrected, (correctDeprecatedPrekeys_prekeys _ _).2, correctPrekeys]
  split <;> rfl

theorem corrected_deprecatedPrekeys (store : PrekeyStore B) (currentTime : ℤ) :
    (store.corrected currentTime).deprecatedPrekeys =
      if currentTime + deprecatedPrekeyExpirationTime < store.oldestDeprecatedExpirationDate then
        store.deprecatedPrekeys.map fun prekey =>
          { prekey with expirationDate := currentTime + deprecatedPrekeyExpirationTime }
      else store.deprecatedPrekeys := by
  rw [corrected, correctDeprecatedPrekeys, correctPrekeys]
  split <;> split <;> rfl

theorem corrected_oldestDeprecatedExpirationDate (store : PrekeyStore B) (currentTime : ℤ) :
    (store.corrected currentTime).oldestDeprecatedExpirationDate =
      store.oldestDeprecatedExpirationDate := by
  rw [corrected, correctDeprecatedPrekeys, correctPrekeys]
  split <;> split <;> rfl

theorem corrected_keyPairs (store : PrekeyStore B) (currentTime : ℤ) :
    (store.corrected currentTime).deprecatedPrekeys.map Prekey.keyPair =
      store.deprecatedPrekeys.map Prekey.keyPair := by
  rw [corrected_deprecatedPrekeys]
  split
  · rw [List.map_map]
    rfl
  · rfl

theorem corrected_keyPair (store : PrekeyStore B) (currentTime : ℤ) (index : Fin prekeyAmount) :
    ((store.corrected currentTime).prekeys index).keyPair = (store.prekeys index).keyPair := by
  rw [corrected_prekeys]
  split <;> rfl

section Steps

variable [Sodium B]

theorem deprecateOutdated_corrected (store : PrekeyStore B) (currentTime : ℤ) (w : World B) :
    (store.corrected currentTime).deprecateOutdated currentTime w =
      deprecateAll (store.renewals currentTime) (store.corrected currentTime) w := by
  rw [deprecateOutdated, corrected_oldestExpirationDate, renewals]
  split
  · rename_i hgate
    have hpos : (0 : ℤ) ≤ prekeyExpirationTime := by decide
    have hdates : ∀ index, (store.corrected currentTime).prekeys index = store.prekeys index := by
      intro index
      rw [corrected_prekeys, if_neg (by omega)]
    rw [deprecateLoop_eq currentTime (List.nodup_finRange prekeyAmount), expired]
    simp only [hdates]
  · rfl

theorem rotate_eq_removeOutdated (store : PrekeyStore B) (w : World B) :
    (store.rotate w).1 = ((deprecateAll (store.renewals (w.clock 0))
      (store.corrected (w.clock 0)) w.now.2).1).removeOutdated (w.clock 0) := by
  rw [rotate_eq]
  exact congrArg (fun state : PrekeyStore B × World B => state.1.removeOutdated (w.clock 0))
    (store.deprecateOutdated_corrected (w.clock 0) w.now.2)

theorem rotate_of_renewals_nil {store : PrekeyStore B} {w : World B}
    (h : store.renewals (w.clock 0) = []) :
    store.rotate w = ((store.corrected (w.clock 0)).removeOutdated (w.clock 0), w.now.2) := by
  have hloop := store.deprecateOutdated_corrected (w.clock 0) w.now.2
  rw [h, deprecateAll] at hloop
  rw [rotate_eq]
  exact congrArg (fun state : PrekeyStore B × World B =>
    (state.1.removeOutdated (w.clock 0), state.2)) hloop

theorem deprecateAll_deprecatedPrekeys {indices : List (Fin prekeyAmount)} (hnodup : indices.Nodup)
    (store : PrekeyStore B) (w : World B) :
    ∃ added, (deprecateAll indices store w).1.deprecatedPrekeys =
        store.deprecatedPrekeys ++ added ∧
      added.map Prekey.keyPair = indices.map (fun index => (store.prekeys index).keyPair) ∧
      ∀ prekey ∈ added, ∃ i < 2 * indices.length,
        prekey.expirationDate = w.clock i + deprecatedPrekeyExpirationTime := by
  induction indices generalizing store w with
  | nil => exact ⟨[], (List.append_nil _).symm, rfl, fun _ h => (List.not_mem_nil h).elim⟩
  | cons index indices ih =>
      obtain ⟨hindex, hnodup⟩ := List.nodup_cons.mp hnodup
      obtain ⟨added, hadded, hpairs, hdates⟩ :=
        ih hnodup (store.deprecate_ index w).1 (store.deprecate_ index w).2
      let outdated := { store.prekeys index with
        expirationDate := w.clock 0 + deprecatedPrekeyExpirationTime }
      refine ⟨outdated :: added, ?_, ?_, ?_⟩
      · rw [deprecateAll, hadded, deprecate_eq]
        exact (List.append_assoc _ [outdated] added).trans rfl
      · rw [List.map_cons, hpairs, List.map_cons]
        refine congrArg _ (List.map_congr_left fun other hother => ?_)
        have hne : other ≠ index := by
          rintro rfl
          exact hindex hother
        rw [deprecate_prekeys_of_ne store hne]
      · intro prekey hprekey
        rcases List.mem_cons.mp hprekey with rfl | hprekey
        · exact ⟨0, Nat.succ_pos _, rfl⟩
        · obtain ⟨i, hlt, hi⟩ := hdates prekey hprekey
          rw [deprecate_eq] at hi
          exact ⟨i + 2, by rw [List.length_cons]; omega, hi⟩

/-- What a rotation at a time is for: nothing that has expired before is left, and the
deprecated prekeys that survive keep their order. -/
structure Cleared (before after : PrekeyStore B) (time : ℤ) : Prop where
  active : ∀ index, time ≤ (after.prekeys index).expirationDate
  deprecated : ∀ prekey ∈ after.deprecatedPrekeys, time ≤ prekey.expirationDate
  order : (after.deprecatedPrekeys.map Prekey.keyPair).Sublist
    (before.deprecatedPrekeys.map Prekey.keyPair ++ before.active.map Prekey.keyPair)

/-- The caches show the rotation what has expired: an expired prekey of the storage opens the
gate of its scan or is corrected, and so does an expired deprecated prekey, whose gate also
opens by what is deprecated in the same rotation. The readings of the clock during the rotation
do not fall more than the lifetime of a prekey below the first one. -/
structure RotationSees (store : PrekeyStore B) (w : World B) : Prop where
  active : (∃ index, (store.prekeys index).expirationDate < w.clock 0) →
    store.oldestExpirationDate < w.clock 0 ∨
      w.clock 0 + prekeyExpirationTime < store.oldestExpirationDate
  renewed : ∀ index ∈ store.renewals (w.clock 0), w.clock 0 ≤ store.renewedDate w index
  deprecated : (∃ prekey ∈ store.deprecatedPrekeys, prekey.expirationDate < w.clock 0) →
    store.oldestDeprecatedExpirationDate < w.clock 0 ∨
      w.clock 0 + deprecatedPrekeyExpirationTime < store.oldestDeprecatedExpirationDate ∨
      store.renewals (w.clock 0) ≠ []

omit [Sodium B] in
theorem removeOutdated_sublist (store : PrekeyStore B) (currentTime : ℤ) :
    (store.removeOutdated currentTime).deprecatedPrekeys.Sublist store.deprecatedPrekeys := by
  rw [removeOutdated_eq]
  split
  · exact List.filter_sublist
  · exact List.Sublist.refl _

omit [Sodium B] in
theorem le_of_mem_removeOutdated_of_lt {store : PrekeyStore B} {currentTime : ℤ}
    (hgate : store.oldestDeprecatedExpirationDate < currentTime) :
    ∀ prekey ∈ (store.removeOutdated currentTime).deprecatedPrekeys,
      currentTime ≤ prekey.expirationDate := by
  intro prekey hprekey
  rw [removeOutdated_eq, if_pos hgate] at hprekey
  simpa using (List.mem_filter.mp hprekey).2

omit [Sodium B] in
theorem le_of_mem_removeOutdated_of_exact {store : PrekeyStore B} (h : store.ExactDeprecated)
    (currentTime : ℤ) : ∀ prekey ∈ (store.removeOutdated currentTime).deprecatedPrekeys,
      currentTime ≤ prekey.expirationDate := by
  by_cases hgate : store.oldestDeprecatedExpirationDate < currentTime
  · exact le_of_mem_removeOutdated_of_lt hgate
  · intro prekey hprekey
    rw [removeOutdated_eq, if_neg hgate] at hprekey
    have hle := oldestOf_le hprekey
    rw [← exactDeprecated_iff.mp h] at hle
    omega

theorem rotate_keyPairs_sublist (store : PrekeyStore B) (w : World B) :
    ((store.rotate w).1.deprecatedPrekeys.map Prekey.keyPair).Sublist
      (store.deprecatedPrekeys.map Prekey.keyPair ++ store.active.map Prekey.keyPair) := by
  rw [rotate_eq_removeOutdated]
  obtain ⟨added, hadded, hpairs, -⟩ := deprecateAll_deprecatedPrekeys
    (store.nodup_renewals (w.clock 0)) (store.corrected (w.clock 0)) w.now.2
  refine ((removeOutdated_sublist _ _).map Prekey.keyPair).trans ?_
  rw [hadded, List.map_append, corrected_keyPairs, hpairs]
  refine List.Sublist.append (List.Sublist.refl _) ?_
  have hactive : store.active.map Prekey.keyPair =
      (List.finRange prekeyAmount).map fun index => (store.prekeys index).keyPair := by
    rw [active, List.ofFn_eq_map, List.map_map]
    rfl
  simp only [corrected_keyPair, hactive]
  refine List.Sublist.map _ ?_
  rw [renewals]
  split
  · exact List.filter_sublist
  · exact List.nil_sublist _

theorem length_deprecatedPrekeys_rotate_le (store : PrekeyStore B) (w : World B) :
    (store.rotate w).1.deprecatedPrekeys.length ≤
      store.deprecatedPrekeys.length + prekeyAmount := by
  have hlength := (store.rotate_keyPairs_sublist w).length_le
  simpa [active] using hlength

theorem rotate_expirationDate (store : PrekeyStore B) (w : World B) (index : Fin prekeyAmount) :
    ((store.rotate w).1.prekeys index).expirationDate =
      if index ∈ store.renewals (w.clock 0) then store.renewedDate w index
      else if w.clock 0 + prekeyExpirationTime < store.oldestExpirationDate then
        w.clock 0 + prekeyExpirationTime
      else (store.prekeys index).expirationDate := by
  rw [rotate_eq_removeOutdated, (removeOutdated_prekeys _ _).1,
    deprecateAll_expirationDate (store.nodup_renewals (w.clock 0)), corrected_prekeys]
  split
  · rename_i hindex
    have hrenewals : store.renewals (w.clock 0) = store.expired (w.clock 0) := by
      rw [renewals] at hindex ⊢
      split
      · rfl
      · rename_i hgate
        rw [if_neg hgate] at hindex
        exact (List.not_mem_nil hindex).elim
    rw [hrenewals] at hindex ⊢
    rw [renewedDate, if_pos hindex]
    rfl
  · split <;> rfl

theorem active_cleared_iff (store : PrekeyStore B) (w : World B) :
    (∀ index, w.clock 0 ≤ ((store.rotate w).1.prekeys index).expirationDate) ↔
      ((∃ index, (store.prekeys index).expirationDate < w.clock 0) →
        store.oldestExpirationDate < w.clock 0 ∨
          w.clock 0 + prekeyExpirationTime < store.oldestExpirationDate) ∧
      ∀ index ∈ store.renewals (w.clock 0), w.clock 0 ≤ store.renewedDate w index := by
  have hpos : (0 : ℤ) ≤ prekeyExpirationTime := by decide
  constructor
  · intro h
    refine ⟨?_, ?_⟩
    · rintro ⟨index, hexpired⟩
      by_contra hhidden
      push Not at hhidden
      obtain ⟨hgate, hlate⟩ := hhidden
      have hdate := h index
      rw [rotate_expirationDate, renewals, if_neg hgate.not_gt, if_neg List.not_mem_nil,
        if_neg hlate.not_gt] at hdate
      omega
    · intro index hindex
      have hdate := h index
      rwa [rotate_expirationDate, if_pos hindex] at hdate
  · rintro ⟨hactive, hrenewed⟩ index
    rw [rotate_expirationDate]
    split
    · rename_i hindex
      exact hrenewed index hindex
    · split
      · omega
      · rename_i hindex hlate
        by_contra hexpired
        push Not at hexpired
        have hgate := (hactive ⟨index, hexpired⟩).resolve_right hlate
        refine hindex ?_
        rw [renewals, if_pos hgate, expired]
        exact List.mem_filter.mpr ⟨List.mem_finRange index, decide_eq_true hexpired⟩

theorem deprecated_cleared_iff (store : PrekeyStore B) (w : World B) :
    (∀ prekey ∈ (store.rotate w).1.deprecatedPrekeys, w.clock 0 ≤ prekey.expirationDate) ↔
      ((∃ prekey ∈ store.deprecatedPrekeys, prekey.expirationDate < w.clock 0) →
        store.oldestDeprecatedExpirationDate < w.clock 0 ∨
          w.clock 0 + deprecatedPrekeyExpirationTime < store.oldestDeprecatedExpirationDate ∨
          store.renewals (w.clock 0) ≠ []) := by
  have hpos : (0 : ℤ) ≤ deprecatedPrekeyExpirationTime := by decide
  rw [rotate_eq_removeOutdated]
  by_cases hrenewals : store.renewals (w.clock 0) = []
  · rw [hrenewals, deprecateAll]
    simp only [ne_eq, not_true_eq_false, or_false]
    have hcache := store.corrected_oldestDeprecatedExpirationDate (w.clock 0)
    have hkeys := store.corrected_deprecatedPrekeys (w.clock 0)
    by_cases hgate : store.oldestDeprecatedExpirationDate < w.clock 0
    · rw [← hcache] at hgate
      refine iff_of_true (le_of_mem_removeOutdated_of_lt hgate) fun _ => .inl ?_
      rwa [hcache] at hgate
    · rw [removeOutdated_eq, hcache, if_neg hgate, hkeys]
      constructor
      · rintro h ⟨prekey, hprekey, hexpired⟩
        by_contra hlate
        push Not at hlate
        rw [if_neg hlate.2.not_gt] at h
        exact absurd (h prekey hprekey) hexpired.not_ge
      · intro h prekey hprekey
        split at hprekey
        · obtain ⟨before, -, rfl⟩ := List.mem_map.mp hprekey
          simp only
          omega
        · rename_i hlate
          by_contra hexpired
          push Not at hexpired
          rcases h ⟨prekey, hprekey, hexpired⟩ with hlt | hlt
          · exact hgate hlt
          · exact hlate hlt
  · exact iff_of_true
      (le_of_mem_removeOutdated_of_exact (exactDeprecated_deprecateAll hrenewals _ _) _)
      fun _ => .inr (.inr hrenewals)

theorem cleared_rotate_iff (store : PrekeyStore B) (w : World B) :
    Cleared store (store.rotate w).1 (w.clock 0) ↔ store.RotationSees w := by
  constructor
  · rintro ⟨hactive, hdeprecated, -⟩
    obtain ⟨hsees, hrenewed⟩ := (store.active_cleared_iff w).mp hactive
    exact ⟨hsees, hrenewed, (store.deprecated_cleared_iff w).mp hdeprecated⟩
  · rintro ⟨hsees, hrenewed, hdeprecated⟩
    exact ⟨(store.active_cleared_iff w).mpr ⟨hsees, hrenewed⟩,
      (store.deprecated_cleared_iff w).mpr hdeprecated, store.rotate_keyPairs_sublist w⟩

theorem deprecateAll_prekeys_of_notMem {indices : List (Fin prekeyAmount)} {index : Fin prekeyAmount}
    (h : index ∉ indices) (store : PrekeyStore B) (w : World B) :
    (deprecateAll indices store w).1.prekeys index = store.prekeys index := by
  induction indices generalizing store w with
  | nil => rfl
  | cons other indices ih =>
      rw [List.mem_cons, not_or] at h
      obtain ⟨hne, hrest⟩ := h
      rw [deprecateAll, ih hrest, deprecate_prekeys_of_ne store hne]

theorem exists_deprecateAll_publicKey {indices : List (Fin prekeyAmount)}
    {index : Fin prekeyAmount} (h : index ∈ indices) (store : PrekeyStore B) (w : World B) :
    ∃ i, ((deprecateAll indices store w).1.prekeys index).publicKey =
      Sodium.cryptoScalarmultBase (w.random i 32) := by
  induction indices generalizing store w with
  | nil => cases h
  | cons other indices ih =>
      rw [deprecateAll]
      by_cases hrest : index ∈ indices
      · obtain ⟨i, hi⟩ := ih hrest (store.deprecate_ other w).1 (store.deprecate_ other w).2
        have hrandom : (store.deprecate_ other w).2.random i = w.random (i + 1) := by
          rw [deprecate_eq]
        rw [hrandom] at hi
        exact ⟨i + 1, hi⟩
      · have heq : index = other := (List.mem_cons.mp h).resolve_right hrest
        rw [deprecateAll_prekeys_of_notMem hrest, deprecate_eq, heq]
        exact ⟨0, by simp only [Function.update_self]⟩

omit [Sodium B] in
theorem mem_removeOutdated {store : PrekeyStore B} {currentTime : ℤ} {prekey : Prekey B}
    (h : prekey ∈ store.deprecatedPrekeys) (hdate : currentTime ≤ prekey.expirationDate) :
    prekey ∈ (store.removeOutdated currentTime).deprecatedPrekeys := by
  rw [removeOutdated_eq]
  split
  · exact List.mem_filter.mpr ⟨h, by simpa using hdate⟩
  · exact h

/-- A prekey that is in the store stays in it through a rotation, unless it is deprecated and
expired before. -/
theorem mem_keys_rotate {store : PrekeyStore B} {w : World B} {publicKey : PublicKey B}
    (hclock : ∀ i, w.clock 0 ≤ w.clock i)
    (hearly : ∀ prekey ∈ store.deprecatedPrekeys, prekey.publicKey = publicKey →
      w.clock 0 ≤ prekey.expirationDate)
    (h : publicKey ∈ store.activeKeys ∨ publicKey ∈ store.deprecatedKeys) :
    publicKey ∈ (store.rotate w).1.activeKeys ∨ publicKey ∈ (store.rotate w).1.deprecatedKeys := by
  have hpos : (0 : ℤ) ≤ deprecatedPrekeyExpirationTime := by decide
  rw [rotate_eq_removeOutdated]
  obtain ⟨added, hadded, hpairs, hdates⟩ := deprecateAll_deprecatedPrekeys
    (store.nodup_renewals (w.clock 0)) (store.corrected (w.clock 0)) w.now.2
  have hsurvives : ∀ prekey ∈ (store.corrected (w.clock 0)).deprecatedPrekeys ++ added,
      prekey.publicKey = publicKey → w.clock 0 ≤ prekey.expirationDate →
      publicKey ∈ ((deprecateAll (store.renewals (w.clock 0)) (store.corrected (w.clock 0))
        w.now.2).1.removeOutdated (w.clock 0)).deprecatedKeys := by
    intro prekey hprekey hkey hdate
    rw [← hadded] at hprekey
    exact mem_deprecatedKeys.mpr ⟨prekey, mem_removeOutdated hprekey hdate, hkey⟩
  rcases h with hactive | hdeprecated
  · obtain ⟨index, rfl⟩ := mem_activeKeys.mp hactive
    by_cases hrenewed : index ∈ store.renewals (w.clock 0)
    · have hmem : (store.prekeys index).keyPair ∈ added.map Prekey.keyPair := by
        rw [hpairs]
        exact List.mem_map.mpr ⟨index, hrenewed, store.corrected_keyPair _ index⟩
      obtain ⟨prekey, hprekey, hpair⟩ := List.mem_map.mp hmem
      obtain ⟨i, -, hi⟩ := hdates prekey hprekey
      refine .inr (hsurvives prekey (List.mem_append_right _ hprekey)
        (congrArg Prod.fst hpair) ?_)
      have hread : w.clock 0 ≤ w.now.2.clock i := hclock (i + 1)
      omega
    · refine .inl (mem_activeKeys.mpr ⟨index, ?_⟩)
      rw [(removeOutdated_prekeys _ _).1, deprecateAll_prekeys_of_notMem hrenewed]
      exact congrArg Prod.fst (store.corrected_keyPair (w.clock 0) index)
  · obtain ⟨prekey, hprekey, hkey⟩ := mem_deprecatedKeys.mp hdeprecated
    have hdate := hearly prekey hprekey hkey
    rw [corrected_deprecatedPrekeys] at hsurvives
    right
    split at hsurvives
    · refine hsurvives { prekey with
        expirationDate := w.clock 0 + deprecatedPrekeyExpirationTime } ?_ hkey (by simp [hpos])
      exact List.mem_append_left _ (List.mem_map.mpr ⟨prekey, hprekey, rfl⟩)
    · exact hsurvives prekey (List.mem_append_left _ hprekey) hkey hdate

/-- The rotation that comes more than an hour after a prekey has been deprecated removes it. -/
theorem notMem_keys_rotate_deprecate_ {store : PrekeyStore B} {w v : World B}
    {index : Fin prekeyAmount}
    (hdistinct : Function.Injective fun place => (store.prekeys place).publicKey)
    (hnone : store.deprecatedPrekeys = [])
    (hfresh : Sodium.cryptoScalarmultBase (w.random 0 32) ≠ (store.prekeys index).publicKey)
    (hactive : ∀ place, v.clock 0 ≤ ((store.deprecate_ index w).1.prekeys place).expirationDate)
    (hlate : w.clock 0 + deprecatedPrekeyExpirationTime < v.clock 0) :
    (store.prekeys index).publicKey ∉ ((store.deprecate_ index w).1.rotate v).1.activeKeys ∧
      (store.prekeys index).publicKey ∉
        ((store.deprecate_ index w).1.rotate v).1.deprecatedKeys := by
  have hpos : (0 : ℤ) ≤ deprecatedPrekeyExpirationTime := by decide
  have hcache : (store.deprecate_ index w).1.oldestDeprecatedExpirationDate =
      w.clock 0 + deprecatedPrekeyExpirationTime := by
    rw [deprecate_eq, hnone]
    rfl
  rw [rotate_of_renewals_nil (renewals_eq_nil hactive)]
  constructor
  · rw [mem_activeKeys]
    rintro ⟨place, hkey⟩
    have hpair := congrArg Prod.fst ((store.deprecate_ index w).1.corrected_keyPair (v.clock 0) place)
    rw [(removeOutdated_prekeys _ _).1] at hkey
    have hsame : ((store.deprecate_ index w).1.prekeys place).publicKey =
        (store.prekeys index).publicKey := hpair.symm.trans hkey
    by_cases hplace : place = index
    · rw [hplace, deprecate_eq] at hsame
      simp only [Function.update_self] at hsame
      exact hfresh hsame
    · rw [deprecate_prekeys_of_ne store hplace] at hsame
      exact hplace (hdistinct hsame)
  · rw [mem_deprecatedKeys]
    rintro ⟨prekey, hprekey, -⟩
    have hdate := le_of_mem_removeOutdated_of_lt (by
      rw [corrected_oldestDeprecatedExpirationDate, hcache]
      exact hlate) prekey hprekey
    have hkept := (removeOutdated_sublist _ _).subset hprekey
    rw [corrected_deprecatedPrekeys, hcache, if_neg (by omega), deprecate_eq, hnone] at hkept
    cases List.mem_singleton.mp hkept
    exact absurd hdate hlate.not_ge

variable [DecidableEq B]

theorem mem_keys_getPrekey {store : PrekeyStore B} {w : World B} {publicKey : PublicKey B}
    (requested : PublicKey B)
    (h : publicKey ∈ store.activeKeys ∨ publicKey ∈ store.deprecatedKeys) :
    publicKey ∈ (store.getPrekey requested w).2.1.activeKeys ∨
      publicKey ∈ (store.getPrekey requested w).2.1.deprecatedKeys := by
  rcases store.getPrekey_cases requested w with
    ⟨index, -, heq⟩ | ⟨-, prekey, -, -, heq⟩ | ⟨-, -, heq⟩
  · rw [heq, deprecate_eq]
    rcases h with hactive | hdeprecated
    · obtain ⟨place, rfl⟩ := mem_activeKeys.mp hactive
      by_cases hplace : place = index
      · subst hplace
        exact .inr (mem_deprecatedKeys.mpr ⟨_, List.mem_append_right _ List.mem_cons_self, rfl⟩)
      · refine .inl (mem_activeKeys.mpr ⟨place, ?_⟩)
        simp only [Function.update_of_ne hplace]
    · obtain ⟨prekey, hprekey, hkey⟩ := mem_deprecatedKeys.mp hdeprecated
      exact .inr (mem_deprecatedKeys.mpr ⟨prekey, List.mem_append_left _ hprekey, hkey⟩)
  · rw [heq]
    exact h
  · rw [heq]
    exact h

def Clears (state : PrekeyStore B × World B) : Call B → Prop
  | .getPrekey _ => True
  | .rotate => state.1.RotationSees state.2

/-- Every rotation of a run clears the store exactly if the caches show it what has expired. -/
theorem rotations_clear_iff (start : PrekeyStore B × World B) (calls : List (Call B)) :
    (∀ before after, calls = before ++ .rotate :: after →
      let state := Runs.final call start before
      Cleared state.1 (call state .rotate).2.1 (state.2.clock 0)) ↔
      Runs.Admitted call Clears start calls := by
  constructor
  · intro h before c after hcalls
    cases c with
    | getPrekey publicKey => trivial
    | rotate => exact (cleared_rotate_iff _ _).mp (h before after hcalls)
  · intro h before after hcalls
    exact (cleared_rotate_iff _ _).mpr (h before .rotate after hcalls)

end Steps

end PrekeyStore

namespace Symbolic

open PrekeyStore

/-- The store is created ten months after the beginning, then the clock is set back to the
beginning, and at last it is set right and runs on for half a month. -/
def setBackWorld : World ℕ :=
  { world with clock := fun i =>
      if i < prekeyAmount then 10 * month
      else if i = prekeyAmount then 0 else 10 * month + month / 2 }

/-- The first rotation dates the prekeys back and leaves the cache as it is, the second one
relies on the cache. -/
theorem expired_prekeys_survive_rotation :
    let state := Runs.final call (create setBackWorld) [.rotate]
    ¬ Cleared state.1 (call state .rotate).2.1 (state.2.clock 0) := by
  intro state
  have hdates : ∀ index, ((create setBackWorld).1.prekeys index).expirationDate =
      10 * month + prekeyExpirationTime := by
    intro index
    rw [create_eq]
    exact congrArg (· + prekeyExpirationTime) (if_pos index.isLt)
  have hcache : (create setBackWorld).1.oldestExpirationDate =
      10 * month + prekeyExpirationTime := by
    obtain ⟨⟨⟨index, hindex⟩, -⟩, -⟩ := exact_create setBackWorld
    exact hindex.symm.trans (hdates index)
  have hclock : ∀ i, (create setBackWorld).2.clock i = setBackWorld.clock (i + prekeyAmount) := by
    rw [create_eq]
    exact fun i => rfl
  have hfirst : (create setBackWorld).2.clock 0 = 0 := by
    rw [hclock]
    rfl
  have hsecond : (create setBackWorld).2.clock 1 = 10 * month + month / 2 := by
    rw [hclock]
    rfl
  have hrenewals : (create setBackWorld).1.renewals ((create setBackWorld).2.clock 0) = [] := by
    rw [renewals, hcache, hfirst]
    exact if_neg (by decide)
  have hstate : state = ((create setBackWorld).1.rotate (create setBackWorld).2) := rfl
  have hreading : state.2.clock 0 = 10 * month + month / 2 := by
    rw [hstate, rotate_of_renewals_nil hrenewals]
    simp only [World.now, Nat.zero_add, hsecond]
  have hdate : ∀ index, (state.1.prekeys index).expirationDate = prekeyExpirationTime := by
    intro index
    have hlate : (0 : ℤ) + prekeyExpirationTime < 10 * month + prekeyExpirationTime := by decide
    rw [hstate, rotate_expirationDate, hrenewals, if_neg List.not_mem_nil, hfirst, hcache,
      if_pos hlate, zero_add]
  have hcache' : state.1.oldestExpirationDate = 10 * month + prekeyExpirationTime := by
    rw [hstate, rotate_of_renewals_nil hrenewals, (removeOutdated_prekeys _ _).2,
      corrected_oldestExpirationDate, hcache]
  intro hcleared
  have hsees := ((cleared_rotate_iff state.1 state.2).mp hcleared).active
  rw [hcache', hreading] at hsees
  have hexpired : ∃ index, (state.1.prekeys index).expirationDate < 10 * month + month / 2 := by
    refine ⟨⟨0, by decide⟩, ?_⟩
    rw [hdate]
    decide
  exact absurd (hsees hexpired) (by decide)

end Symbolic

end Molch
