import Molch.Foundation.Pool
import Molch.Foundation.Runs
import Molch.PrekeyStore
import Molch.Symbolic
import Mathlib.Data.List.FinRange
import Mathlib.Data.Int.ConditionallyCompleteOrder
import Mathlib.Order.ConditionallyCompleteLattice.Basic

/-!
The life of a prekey. Every key pair that a store generates is active first, then
deprecated, and gone an hour later; it never becomes active again. The store refines a
pool of numbered items, the numbers being those of the draws from the random source.
-/

namespace Molch

variable {B : Type}

namespace World

/-- The same world, read further. -/
def After (w w' : World B) : Prop :=
  ∃ readings, ∀ i, w'.clock i = w.clock (i + readings)

/-- The clock has shown the time between two points of one world. -/
def Reads (w w' : World B) (time : ℤ) : Prop :=
  ∃ readings, (∀ i, w'.clock i = w.clock (i + readings)) ∧ ∃ i < readings, w.clock i = time

theorem After.refl (w : World B) : After w w := ⟨0, fun _ => rfl⟩

theorem After.trans {w w' w'' : World B} (h : After w w') (h' : After w' w'') :
    After w w'' := by
  obtain ⟨readings, hclock⟩ := h
  obtain ⟨readings', hclock'⟩ := h'
  refine ⟨readings' + readings, fun i => ?_⟩
  rw [hclock', hclock, Nat.add_assoc]

theorem Reads.after {w w' w'' : World B} {time : ℤ} (h : Reads w w' time) (h' : After w' w'') :
    Reads w w'' time := by
  obtain ⟨readings, hclock, i, hi, htime⟩ := h
  obtain ⟨readings', hclock'⟩ := h'
  refine ⟨readings' + readings, fun i => ?_, i, by omega, htime⟩
  rw [hclock', hclock, Nat.add_assoc]

theorem Reads.before {w w' w'' : World B} {time : ℤ} (h : After w w') (h' : Reads w' w'' time) :
    Reads w w'' time := by
  obtain ⟨readings, hclock⟩ := h
  obtain ⟨readings', hclock', i, hi, htime⟩ := h'
  refine ⟨readings' + readings, fun i => ?_, i + readings, by omega, ?_⟩
  · rw [hclock', hclock, Nat.add_assoc]
  · rw [← hclock, htime]

theorem Reads.le {w w' : World B} {time : ℤ} (hmono : Monotone w.clock) (h : Reads w w' time) :
    w.clock 0 ≤ time := by
  obtain ⟨_, _, i, _, rfl⟩ := h
  exact hmono (Nat.zero_le i)

theorem After.monotone {w w' : World B} (h : After w w') (hmono : Monotone w.clock) :
    Monotone w'.clock := by
  obtain ⟨readings, hclock⟩ := h
  intro i j hij
  rw [hclock, hclock]
  exact hmono (Nat.add_le_add_right hij _)

end World

namespace PrekeyStore

/-- The dates of the prekeys that are deprecated between two points of one world. -/
def DatedBetween (w w' : World B) (date : ℤ) : Prop :=
  ∃ time, w.Reads w' time ∧ date = time + deprecatedPrekeyExpirationTime

theorem DatedBetween.after {w w' w'' : World B} {date : ℤ} (h : DatedBetween w w' date)
    (h' : w'.After w'') : DatedBetween w w'' date := by
  obtain ⟨time, hreads, hdate⟩ := h
  exact ⟨time, hreads.after h', hdate⟩

theorem DatedBetween.before {w w' w'' : World B} {date : ℤ} (h : w.After w')
    (h' : DatedBetween w' w'' date) : DatedBetween w w'' date := by
  obtain ⟨time, hreads, hdate⟩ := h'
  exact ⟨time, .before h hreads, hdate⟩

def outdatedAmount (store : PrekeyStore B) (currentTime : ℤ) : ℕ :=
  if store.oldestExpirationDate < currentTime then
    store.active.countP fun prekey => prekey.expirationDate < currentTime
  else 0

variable [Sodium B]

def numbered (w : World B) (item : ℕ) (date : ℤ) : Prekey B :=
  ⟨Sodium.cryptoScalarmultBase (w.random item 32), w.random item 32, date⟩

/-- The pool of the numbers of the key pairs in the store, under a clock that never goes back. -/
structure Represents (origin : World B) (pool : Pool prekeyAmount ℤ) (store : PrekeyStore B)
    (w : World B) : Prop where
  prekeys : ∀ place, ∃ date, store.prekeys place = numbered origin (pool.active place) date
  deprecatedPrekeys : store.deprecatedPrekeys =
    pool.retired.map fun entry => numbered origin entry.1 entry.2
  random : ∀ i size, w.random i size = origin.random (i + pool.issued) size
  clock : Monotone w.clock
  dates : ∀ entry ∈ pool.retired, entry.2 ≤ w.clock 0 + deprecatedPrekeyExpirationTime
  cache : store.oldestDeprecatedExpirationDate = oldestOf store.deprecatedPrekeys

theorem represents_create {w : World B} (hclock : Monotone w.clock) :
    Represents w (Pool.full prekeyAmount ℤ) (create w).1 (create w).2 := by
  rw [create_eq]
  exact {
    prekeys := fun place => ⟨w.clock place + prekeyExpirationTime, rfl⟩
    deprecatedPrekeys := rfl
    random := fun i size => rfl
    clock := fun i j hij => hclock (Nat.add_le_add_right hij _)
    dates := fun entry h => absurd h List.not_mem_nil
    cache := rfl }

variable {origin : World B} {pool : Pool prekeyAmount ℤ} {store : PrekeyStore B} {w : World B}

theorem Represents.deprecate_ (h : Represents origin pool store w) (index : Fin prekeyAmount) :
    Represents origin (pool.replace index (w.clock 0 + deprecatedPrekeyExpirationTime))
      (store.deprecate_ index w).1 (store.deprecate_ index w).2 := by
  obtain ⟨date, hindex⟩ := h.prekeys index
  rw [deprecate_eq]
  refine ⟨?_, ?_, ?_, ?_, ?_, rfl⟩
  · intro place
    by_cases hplace : place = index
    · subst hplace
      refine ⟨w.clock 1 + prekeyExpirationTime, ?_⟩
      simp only [Pool.replace, Function.update_self, numbered, h.random, Nat.zero_add]
    · obtain ⟨date, heq⟩ := h.prekeys place
      refine ⟨date, ?_⟩
      simp only [Pool.replace, Function.update_of_ne hplace, heq]
  · simp only [Pool.replace, List.map_append, List.map_cons, List.map_nil, h.deprecatedPrekeys,
      hindex, numbered]
  · intro i size
    simp only [Pool.replace, h.random]
    rw [Nat.add_right_comm, Nat.add_assoc]
  · intro i j hij
    exact h.clock (Nat.add_le_add_right hij 2)
  · intro entry hentry
    have hle : w.clock 0 ≤ w.clock 2 := h.clock (Nat.zero_le 2)
    rcases List.mem_append.mp hentry with hentry | hentry
    · exact (h.dates entry hentry).trans (Int.add_le_add_right hle _)
    · rw [List.mem_singleton.mp hentry]
      exact Int.add_le_add_right hle _

theorem after_deprecate_ (store : PrekeyStore B) (index : Fin prekeyAmount) (w : World B) :
    w.After (store.deprecate_ index w).2 := by
  rw [deprecate_eq]
  exact ⟨2, fun _ => rfl⟩

theorem datedBetween_deprecate_ (store : PrekeyStore B) (index : Fin prekeyAmount) (w : World B) :
    DatedBetween w (store.deprecate_ index w).2
      (w.clock 0 + deprecatedPrekeyExpirationTime) := by
  rw [deprecate_eq]
  exact ⟨w.clock 0, ⟨2, fun _ => rfl, 0, by omega, rfl⟩, rfl⟩

theorem countP_deprecate_ (currentTime : ℤ) (store : PrekeyStore B) {index : Fin prekeyAmount}
    {indices : List (Fin prekeyAmount)} (hindex : index ∉ indices) (w : World B) :
    (indices.countP fun i =>
        ((store.deprecate_ index w).1.prekeys i).expirationDate < currentTime) =
      indices.countP fun i => (store.prekeys i).expirationDate < currentTime := by
  refine List.countP_congr fun i hi => ?_
  have hne : i ≠ index := fun heq => hindex (heq ▸ hi)
  rw [deprecate_eq]
  simp only [Function.update_of_ne hne]

theorem Represents.deprecateLoop (currentTime : ℤ) {indices : List (Fin prekeyAmount)}
    (hnodup : indices.Nodup) (h : Represents origin pool store w) :
    ∃ pool', Represents origin pool' (PrekeyStore.deprecateLoop currentTime indices store w).1
        (PrekeyStore.deprecateLoop currentTime indices store w).2 ∧
      w.After (PrekeyStore.deprecateLoop currentTime indices store w).2 ∧
      Pool.Evolves
        (DatedBetween w (PrekeyStore.deprecateLoop currentTime indices store w).2)
        (fun _ => False) pool pool' ∧
      pool'.issued = pool.issued +
        indices.countP fun i => (store.prekeys i).expirationDate < currentTime := by
  induction indices generalizing pool store w with
  | nil => exact ⟨pool, h, .refl w, .refl pool, rfl⟩
  | cons index indices ih =>
      obtain ⟨hindex, hrest⟩ := List.nodup_cons.mp hnodup
      rw [PrekeyStore.deprecateLoop]
      split
      · rename_i hout
        obtain ⟨pool', hpool', hafter, hevolves, hissued⟩ := ih hrest (h.deprecate_ index)
        have hone := after_deprecate_ store index w
        refine ⟨pool', hpool', hone.trans hafter, ?_, ?_⟩
        · have hdated := (datedBetween_deprecate_ store index w).after hafter
          exact (pool.evolves_replace index hdated).trans (fun _ _ => not_false)
            (hevolves.mono (fun _ => .before hone) fun _ => id)
        · rw [hissued, countP_deprecate_ currentTime store hindex w, List.countP_cons,
            if_pos (decide_eq_true hout)]
          exact Nat.add_right_comm _ _ _
      · rename_i hout
        rw [List.countP_cons_of_neg (by simpa using hout)]
        exact ih hrest h

theorem Represents.retired_nil_of_lt (h : Represents origin pool store w)
    (hlt : w.clock 0 + deprecatedPrekeyExpirationTime < store.oldestDeprecatedExpirationDate) :
    store.deprecatedPrekeys = [] := by
  by_contra hne
  obtain ⟨⟨prekey, hprekey, hdate⟩, -⟩ := isLeast_oldestOf hne
  rw [h.cache, ← hdate] at hlt
  rw [h.deprecatedPrekeys] at hprekey
  obtain ⟨entry, hentry, rfl⟩ := List.mem_map.mp hprekey
  exact absurd (h.dates entry hentry) (not_le_of_gt hlt)

theorem Represents.now (h : Represents origin pool store w) :
    Represents origin pool store w.now.2 where
  prekeys := h.prekeys
  deprecatedPrekeys := h.deprecatedPrekeys
  random := h.random
  clock _ _ hij := h.clock (Nat.add_le_add_right hij 1)
  dates entry hentry :=
    (h.dates entry hentry).trans (Int.add_le_add_right (h.clock (Nat.zero_le 1)) _)
  cache := h.cache

theorem Represents.correctPrekeys (h : Represents origin pool store w) (currentTime : ℤ) :
    Represents origin pool (store.correctPrekeys currentTime) w := by
  rw [PrekeyStore.correctPrekeys]
  split
  · refine ⟨?_, h.deprecatedPrekeys, h.random, h.clock, h.dates, h.cache⟩
    intro place
    obtain ⟨_, heq⟩ := h.prekeys place
    exact ⟨currentTime + prekeyExpirationTime, by simp only [heq, numbered]⟩
  · exact h

theorem Represents.correctDeprecatedPrekeys (h : Represents origin pool store w) :
    store.correctDeprecatedPrekeys (w.clock 0) = store := by
  rw [PrekeyStore.correctDeprecatedPrekeys]
  split
  · rename_i hlt
    rw [h.retired_nil_of_lt hlt, List.map_nil, ← h.retired_nil_of_lt hlt]
  · rfl

theorem Represents.deprecateOutdated (h : Represents origin pool store w) (currentTime : ℤ) :
    ∃ pool', Represents origin pool' (store.deprecateOutdated currentTime w).1
        (store.deprecateOutdated currentTime w).2 ∧
      w.After (store.deprecateOutdated currentTime w).2 ∧
      Pool.Evolves (DatedBetween w (store.deprecateOutdated currentTime w).2)
        (fun _ => False) pool pool' ∧
      pool'.issued = pool.issued + store.outdatedAmount currentTime := by
  rw [PrekeyStore.deprecateOutdated, outdatedAmount]
  split
  · rw [active, List.ofFn_eq_map, List.countP_map]
    exact h.deprecateLoop currentTime (List.nodup_finRange prekeyAmount)
  · exact ⟨pool, h, .refl w, .refl pool, rfl⟩

theorem Represents.removeOutdated (h : Represents origin pool store w) (currentTime : ℤ)
    (dated : ℤ → Prop) :
    ∃ pool', Represents origin pool' (store.removeOutdated currentTime) w ∧
      Pool.Evolves dated (fun date => date < currentTime) pool pool' ∧
      pool'.issued = pool.issued := by
  rw [removeOutdated_eq]
  split
  · refine ⟨pool.discard fun entry => !decide (entry.2 < currentTime), ?_,
      pool.evolves_discard fun entry hentry => by simpa using hentry, rfl⟩
    refine ⟨h.prekeys, ?_, h.random, h.clock, ?_, rfl⟩
    · rw [updateDeprecatedExpirationDate, h.deprecatedPrekeys, List.filter_map]
      rfl
    · intro entry hentry
      exact h.dates entry (List.mem_of_mem_filter hentry)
  · exact ⟨pool, h, .refl pool, rfl⟩

theorem Represents.rotate (h : Represents origin pool store w) :
    ∃ pool', Represents origin pool' (store.rotate w).1 (store.rotate w).2 ∧
      w.After (store.rotate w).2 ∧
      Pool.Evolves (DatedBetween w (store.rotate w).2) (fun date => date < w.clock 0)
        pool pool' ∧
      pool'.issued =
        pool.issued + (store.correctPrekeys (w.clock 0)).outdatedAmount (w.clock 0) := by
  have hnow : w.After w.now.2 := ⟨1, fun _ => rfl⟩
  have hstart := h.now.correctPrekeys (w.clock 0)
  obtain ⟨mid, hmid, hafter, hretired, hissued⟩ := hstart.deprecateOutdated (w.clock 0)
  have hrotate : store.rotate w =
      ((((store.correctPrekeys (w.clock 0)).deprecateOutdated (w.clock 0) w.now.2).1.removeOutdated
        (w.clock 0)),
      ((store.correctPrekeys (w.clock 0)).deprecateOutdated (w.clock 0) w.now.2).2) := by
    rw [PrekeyStore.rotate]
    simp only [World.now, (h.correctPrekeys (w.clock 0)).correctDeprecatedPrekeys]
  rw [hrotate]
  obtain ⟨pool', hpool', hdiscarded, hsame⟩ := hmid.removeOutdated (w.clock 0) _
  refine ⟨pool', hpool', hnow.trans hafter, ?_, hsame.trans hissued⟩
  refine .trans ?_ (hretired.mono (fun _ => .before hnow) fun _ => False.elim) hdiscarded
  -- what has just been deprecated is not outdated yet
  rintro date ⟨time, hreads, rfl⟩
  have hle := hreads.le h.clock
  have hpos : (0 : ℤ) ≤ deprecatedPrekeyExpirationTime := by decide
  omega

section Keys

variable {bound : ℕ}
  (hfresh : Set.InjOn (fun i => Sodium.cryptoScalarmultBase (origin.random i 32)) (Set.Iio bound))
  (hbound : pool.issued ≤ bound)
include hfresh hbound

theorem Represents.mem_activeKeys (h : Represents origin pool store w) {item : ℕ}
    (hitem : item < bound) :
    Sodium.cryptoScalarmultBase (origin.random item 32) ∈ store.activeKeys ↔
      ∃ place, pool.active place = item := by
  rw [PrekeyStore.mem_activeKeys]
  constructor
  · rintro ⟨place, hkey⟩
    obtain ⟨date, heq⟩ := h.prekeys place
    rw [heq] at hkey
    exact ⟨place, hfresh ((pool.active_lt_issued place).trans_le hbound) hitem hkey⟩
  · rintro ⟨place, rfl⟩
    obtain ⟨date, heq⟩ := h.prekeys place
    exact ⟨place, by rw [heq]; rfl⟩

theorem Represents.mem_deprecatedKeys (h : Represents origin pool store w) {item : ℕ}
    (hitem : item < bound) :
    Sodium.cryptoScalarmultBase (origin.random item 32) ∈ store.deprecatedKeys ↔
      ∃ date, (item, date) ∈ pool.retired := by
  rw [PrekeyStore.mem_deprecatedKeys, h.deprecatedPrekeys]
  constructor
  · rintro ⟨prekey, hprekey, hkey⟩
    obtain ⟨⟨item', date⟩, hentry, rfl⟩ := List.mem_map.mp hprekey
    have hsame : item' = item :=
      hfresh ((pool.retired_lt_issued _ hentry).trans_le hbound) hitem hkey
    exact ⟨date, hsame ▸ hentry⟩
  · rintro ⟨date, hentry⟩
    exact ⟨numbered origin item date, List.mem_map.mpr ⟨_, hentry, rfl⟩, rfl⟩

theorem Represents.nodup_activeKeys (h : Represents origin pool store w) :
    store.activeKeys.Nodup := by
  rw [activeKeys, active, List.map_ofFn, List.nodup_ofFn]
  intro place place' hkey
  obtain ⟨date, heq⟩ := h.prekeys place
  obtain ⟨date', heq'⟩ := h.prekeys place'
  simp only [Function.comp_apply, heq, heq'] at hkey
  exact pool.active_injective (hfresh ((pool.active_lt_issued place).trans_le hbound)
    ((pool.active_lt_issued place').trans_le hbound) hkey)

theorem Represents.nodup_deprecatedKeys (h : Represents origin pool store w) :
    store.deprecatedKeys.Nodup := by
  have hkeys : store.deprecatedKeys = (pool.retired.map Prod.fst).map
      fun i => Sodium.cryptoScalarmultBase (origin.random i 32) := by
    rw [deprecatedKeys, h.deprecatedPrekeys, List.map_map, List.map_map]
    rfl
  rw [hkeys]
  refine pool.nodup_retired.map_on fun item hitem item' hitem' hkey => ?_
  obtain ⟨entry, hentry, rfl⟩ := List.mem_map.mp hitem
  obtain ⟨entry', hentry', rfl⟩ := List.mem_map.mp hitem'
  exact hfresh ((pool.retired_lt_issued entry hentry).trans_le hbound)
    ((pool.retired_lt_issued entry' hentry').trans_le hbound) hkey

variable [DecidableEq B]

theorem Represents.getPrekey_eq_ok (h : Represents origin pool store w) {item : ℕ}
    (hlt : item < bound)
    (hitem : (∃ place, pool.active place = item) ∨ ∃ date, (item, date) ∈ pool.retired) :
    (store.getPrekey (Sodium.cryptoScalarmultBase (origin.random item 32)) w).1 =
      .ok (origin.random item 32) := by
  rcases store.getPrekey_cases (Sodium.cryptoScalarmultBase (origin.random item 32)) w with
    ⟨index, hkey, heq⟩ | ⟨-, prekey, hprekey, hkey, heq⟩ | ⟨hactive, hdeprecated, -⟩
  · obtain ⟨date, hindex⟩ := h.prekeys index
    rw [hindex] at hkey
    have hsame : pool.active index = item :=
      hfresh ((pool.active_lt_issued index).trans_le hbound) hlt hkey
    rw [heq, hindex, hsame]
    rfl
  · rw [h.deprecatedPrekeys] at hprekey
    obtain ⟨⟨item', date⟩, hentry, rfl⟩ := List.mem_map.mp hprekey
    have hsame : item' = item :=
      hfresh ((pool.retired_lt_issued _ hentry).trans_le hbound) hlt hkey
    rw [heq, hsame]
    rfl
  · rw [h.mem_activeKeys hfresh hbound hlt] at hactive
    rw [h.mem_deprecatedKeys hfresh hbound hlt] at hdeprecated
    exact (hitem.elim hactive hdeprecated).elim

end Keys

variable [DecidableEq B]

theorem Represents.getPrekey (h : Represents origin pool store w) (publicKey : PublicKey B) :
    ∃ pool', Represents origin pool' (store.getPrekey publicKey w).2.1
        (store.getPrekey publicKey w).2.2 ∧
      w.After (store.getPrekey publicKey w).2.2 ∧
      Pool.Evolves (DatedBetween w (store.getPrekey publicKey w).2.2) (fun _ => False)
        pool pool' ∧
      pool'.issued = pool.issued + if publicKey ∈ store.activeKeys then 1 else 0 := by
  rcases store.getPrekey_cases publicKey w with
    ⟨index, hkey, heq⟩ | ⟨hactive, prekey, -, -, heq⟩ | ⟨hactive, -, heq⟩
  · rw [heq, if_pos (PrekeyStore.mem_activeKeys.mpr ⟨index, hkey⟩)]
    exact ⟨_, h.deprecate_ index, after_deprecate_ store index w,
      pool.evolves_replace index (datedBetween_deprecate_ store index w), rfl⟩
  · rw [heq, if_neg hactive]
    exact ⟨pool, h, .refl w, .refl pool, rfl⟩
  · rw [heq, if_neg hactive]
    exact ⟨pool, h, .refl w, .refl pool, rfl⟩

def generatedBy (state : PrekeyStore B × World B) : Call B → ℕ
  | .getPrekey publicKey => if publicKey ∈ state.1.activeKeys then 1 else 0
  | .rotate => (state.1.correctPrekeys (state.2.clock 0)).outdatedAmount (state.2.clock 0)

def generatedIn : PrekeyStore B × World B → List (Call B) → ℕ
  | _, [] => 0
  | state, c :: calls => generatedBy state c + generatedIn (PrekeyStore.call state c).2 calls

/-- The number of key pairs that a new store and the calls on it generate. -/
def generated (w : World B) (calls : List (Call B)) : ℕ :=
  prekeyAmount + generatedIn (create w) calls

theorem generatedIn_append (state : PrekeyStore B × World B) (calls calls' : List (Call B)) :
    generatedIn state (calls ++ calls') =
      generatedIn state calls + generatedIn (Runs.final PrekeyStore.call state calls) calls' := by
  induction calls generalizing state with
  | nil => exact (Nat.zero_add _).symm
  | cons c calls ih =>
      rw [List.cons_append, generatedIn, ih, ← Nat.add_assoc]
      rfl

theorem generated_append (w : World B) (calls calls' : List (Call B)) :
    generated w (calls ++ calls') =
      generated w calls + generatedIn (Runs.final PrekeyStore.call (create w) calls) calls' := by
  rw [generated, generatedIn_append, ← Nat.add_assoc]
  rfl

/-- Only a rotation loses an item, and only an outdated one. -/
theorem Represents.call {state : PrekeyStore B × World B}
    (h : Represents origin pool state.1 state.2) (c : Call B) :
    ∃ pool', Represents origin pool' (call state c).2.1 (call state c).2.2 ∧
      state.2.After (PrekeyStore.call state c).2.2 ∧
      Pool.Evolves (DatedBetween state.2 (PrekeyStore.call state c).2.2)
        (fun date => c = .rotate ∧ date < state.2.clock 0) pool pool' ∧
      pool'.issued = pool.issued + generatedBy state c := by
  cases c with
  | getPrekey publicKey =>
      obtain ⟨pool', hpool', hafter, hevolves, hissued⟩ := h.getPrekey publicKey
      exact ⟨pool', hpool', hafter, hevolves.mono (fun _ => id) fun _ => False.elim, hissued⟩
  | rotate =>
      obtain ⟨pool', hpool', hafter, hevolves, hissued⟩ := h.rotate
      exact ⟨pool', hpool', hafter, hevolves.mono (fun _ => id) fun _ hlt => ⟨rfl, hlt⟩, hissued⟩

omit [Sodium B] in
theorem generatedBy_le (state : PrekeyStore B × World B) (c : Call B) :
    generatedBy state c ≤ prekeyAmount := by
  cases c with
  | getPrekey publicKey =>
      rw [generatedBy]
      split
      · decide
      · exact Nat.zero_le _
  | rotate =>
      rw [generatedBy, outdatedAmount]
      split
      · exact List.countP_le_length.trans_eq List.length_ofFn
      · exact Nat.zero_le _

theorem generated_le (w : World B) (calls : List (Call B)) :
    generated w calls ≤ prekeyAmount * (calls.length + 1) := by
  have hin (state : PrekeyStore B × World B) :
      generatedIn state calls ≤ prekeyAmount * calls.length := by
    induction calls generalizing state with
    | nil => exact le_rfl
    | cons c calls ih =>
        rw [generatedIn, List.length_cons, Nat.mul_succ, Nat.add_comm]
        exact Nat.add_le_add (ih _) (generatedBy_le state c)
  rw [generated, Nat.mul_succ, Nat.add_comm]
  exact Nat.add_le_add_right (hin _) _

/-- The prekey enters the deprecated ones in a call that reads the given time. -/
def DeprecatedAt (start : PrekeyStore B × World B) (calls : List (Call B))
    (publicKey : PublicKey B) (time : ℤ) : Prop :=
  ∃ before c after, calls = before ++ c :: after ∧
    publicKey ∉ (Runs.final PrekeyStore.call start before).1.deprecatedKeys ∧
    publicKey ∈ (Runs.final PrekeyStore.call start (before ++ [c])).1.deprecatedKeys ∧
    (Runs.final PrekeyStore.call start before).2.Reads
      (Runs.final PrekeyStore.call start (before ++ [c])).2 time

/-- A rotation removes the prekey more than an hour after it has been deprecated. -/
def RemovedLate (start : PrekeyStore B × World B) (calls : List (Call B))
    (publicKey : PublicKey B) : Prop :=
  ∃ before after time, calls = before ++ .rotate :: after ∧
    DeprecatedAt start before publicKey time ∧
    time + deprecatedPrekeyExpirationTime <
      (Runs.final PrekeyStore.call start before).2.clock 0 ∧
    publicKey ∈ (Runs.final PrekeyStore.call start before).1.deprecatedKeys ∧
    publicKey ∉ (Runs.final PrekeyStore.call start (before ++ [.rotate])).1.deprecatedKeys

section History

variable {start : PrekeyStore B × World B} {calls : List (Call B)} {publicKey : PublicKey B}

theorem DeprecatedAt.append {time : ℤ} (h : DeprecatedAt start calls publicKey time)
    (more : List (Call B)) : DeprecatedAt start (calls ++ more) publicKey time := by
  obtain ⟨before, c, after, rfl, hrest⟩ := h
  exact ⟨before, c, after ++ more, by rw [List.append_assoc]; rfl, hrest⟩

theorem RemovedLate.append (h : RemovedLate start calls publicKey) (more : List (Call B)) :
    RemovedLate start (calls ++ more) publicKey := by
  obtain ⟨before, after, time, rfl, hrest⟩ := h
  exact ⟨before, after ++ more, time, by rw [List.append_assoc]; rfl, hrest⟩

end History

/-- Where every item is that has been issued so far, and why it is there. -/
def Accounted (start : PrekeyStore B × World B) (calls : List (Call B)) (origin : World B)
    (pool : Pool prekeyAmount ℤ) : Prop :=
  ∀ item < pool.issued,
    (∃ place, pool.active place = item) ∨
    (∃ time, (item, time + deprecatedPrekeyExpirationTime) ∈ pool.retired ∧
      DeprecatedAt start calls (Sodium.cryptoScalarmultBase (origin.random item 32)) time) ∨
    ((∀ place, pool.active place ≠ item) ∧ (∀ date, (item, date) ∉ pool.retired) ∧
      RemovedLate start calls (Sodium.cryptoScalarmultBase (origin.random item 32)))

theorem final_append_singleton (start : PrekeyStore B × World B) (calls : List (Call B))
    (c : Call B) : Runs.final PrekeyStore.call start (calls ++ [c]) =
      (PrekeyStore.call (Runs.final PrekeyStore.call start calls) c).2 :=
  Runs.final_append start calls [c]

section Run

variable {bound : ℕ}
  (hfresh : Set.InjOn (fun i => Sodium.cryptoScalarmultBase (origin.random i 32)) (Set.Iio bound))
include hfresh

theorem Accounted.call {start : PrekeyStore B × World B} {calls : List (Call B)} {c : Call B}
    {pool' : Pool prekeyAmount ℤ} (hbound : pool'.issued ≤ bound)
    (haccounted : Accounted start calls origin pool)
    (h : Represents origin pool (Runs.final PrekeyStore.call start calls).1
      (Runs.final PrekeyStore.call start calls).2)
    (h' : Represents origin pool' (Runs.final PrekeyStore.call start (calls ++ [c])).1
      (Runs.final PrekeyStore.call start (calls ++ [c])).2)
    (hevolves : Pool.Evolves
      (DatedBetween (Runs.final PrekeyStore.call start calls).2
        (Runs.final PrekeyStore.call start (calls ++ [c])).2)
      (fun date => c = .rotate ∧ date < (Runs.final PrekeyStore.call start calls).2.clock 0)
      pool pool') :
    Accounted start (calls ++ [c]) origin pool' := by
  have hbefore : pool.issued ≤ bound := hevolves.issued_le.trans hbound
  have hdated {item : ℕ} (hitem : item < bound) (hold : ∀ date, (item, date) ∉ pool.retired)
      (hnew : (∃ place, pool'.active place = item) ∨ ∃ date,
        DatedBetween (Runs.final PrekeyStore.call start calls).2
          (Runs.final PrekeyStore.call start (calls ++ [c])).2 date ∧
        (item, date) ∈ pool'.retired) :
      (∃ place, pool'.active place = item) ∨
      ∃ time, (item, time + deprecatedPrekeyExpirationTime) ∈ pool'.retired ∧
        DeprecatedAt start (calls ++ [c])
          (Sodium.cryptoScalarmultBase (origin.random item 32)) time := by
    refine hnew.imp_right ?_
    rintro ⟨date, ⟨time, hreads, rfl⟩, hmem⟩
    refine ⟨time, hmem, calls, c, [], rfl, ?_, ?_, hreads⟩
    · rw [h.mem_deprecatedKeys hfresh hbefore hitem]
      rintro ⟨date, hdate⟩
      exact hold date hdate
    · rw [h'.mem_deprecatedKeys hfresh hbound hitem]
      exact ⟨_, hmem⟩
  -- an item that has left the places does not come back
  have hgone {item : ℕ} (hitem : item < pool.issued) (hactive : ∀ place, pool.active place ≠ item)
      (place : Fin prekeyAmount) : pool'.active place ≠ item := by
    rintro rfl
    rcases hevolves.active_origin place with ⟨place', heq⟩ | hle
    · exact hactive place' heq
    · exact absurd hitem (not_lt_of_ge hle)
  have horigin {item : ℕ} {date : ℤ} (hitem : item < pool.issued)
      (hactive : ∀ place, pool.active place ≠ item) (hmem : (item, date) ∈ pool'.retired) :
      (item, date) ∈ pool.retired := by
    rcases hevolves.retired_origin _ hmem with hmem | ⟨place, heq⟩ | hle
    · exact hmem
    · exact absurd heq (hactive place)
    · exact absurd hitem (not_lt_of_ge hle)
  intro item hissued
  have hitem : item < bound := hissued.trans_le hbound
  rcases lt_or_ge item pool.issued with hlt | hge
  · rcases haccounted item hlt with ⟨place, rfl⟩ | ⟨time, hmem, hwhen⟩ | ⟨hactive, hretired, hwhy⟩
    · exact (hdated hitem (pool.active_not_retired place) (hevolves.active place)).imp_right .inl
    · have hactive (place : Fin prekeyAmount) : pool.active place ≠ item := by
        rintro rfl
        exact pool.active_not_retired place _ hmem
      right
      by_cases hmem' : (item, time + deprecatedPrekeyExpirationTime) ∈ pool'.retired
      · exact .inl ⟨time, hmem', hwhen.append [c]⟩
      · have hlost (date : ℤ) : (item, date) ∉ pool'.retired := by
          intro hdate
          have hsame := pool.retired_date_unique (horigin hlt hactive hdate) hmem
          exact hmem' (hsame ▸ hdate)
        refine .inr ⟨hgone hlt hactive, hlost, ?_⟩
        obtain ⟨rfl, hlate⟩ := (hevolves.retired _ hmem).resolve_left hmem'
        refine ⟨calls, [], time, rfl, hwhen, hlate, ?_, ?_⟩
        · rw [h.mem_deprecatedKeys hfresh hbefore hitem]
          exact ⟨_, hmem⟩
        · rw [h'.mem_deprecatedKeys hfresh hbound hitem]
          rintro ⟨date, hdate⟩
          exact hlost date hdate
    · refine .inr (.inr ⟨hgone hlt hactive, ?_, hwhy.append [c]⟩)
      intro date hdate
      exact hretired date (horigin hlt hactive hdate)
  · have hnew (date : ℤ) : (item, date) ∉ pool.retired := fun hdate =>
      absurd (pool.retired_lt_issued _ hdate) (not_lt_of_ge hge)
    exact (hdated hitem hnew (hevolves.fresh item hge hissued)).imp_right .inl

theorem exists_accounted (hclock : Monotone origin.clock) {calls : List (Call B)}
    (hbound : generated origin calls ≤ bound) :
    ∃ pool, Represents origin pool (Runs.final PrekeyStore.call (create origin) calls).1
        (Runs.final PrekeyStore.call (create origin) calls).2 ∧
      Accounted (create origin) calls origin pool ∧ pool.issued = generated origin calls := by
  induction calls using List.reverseRecOn with
  | nil =>
      refine ⟨_, represents_create hclock, ?_, rfl⟩
      intro item hitem
      exact .inl ⟨⟨item, hitem⟩, rfl⟩
  | append_singleton calls c ih =>
      rw [generated_append] at hbound ⊢
      obtain ⟨pool, h, haccounted, hissued⟩ := ih ((Nat.le_add_right _ _).trans hbound)
      obtain ⟨pool', h', -, hevolves, hissued'⟩ := h.call c
      rw [← final_append_singleton] at h' hevolves
      rw [hissued] at hissued'
      exact ⟨pool', h', haccounted.call hfresh (hissued'.trans_le hbound) h h' hevolves, hissued'⟩

theorem Represents.not_mem_activeKeys {state : PrekeyStore B × World B}
    (h : Represents origin pool state.1 state.2) {item : ℕ} (hitem : item < pool.issued)
    (hactive : ∀ place, pool.active place ≠ item) {calls : List (Call B)}
    (hbound : pool.issued + generatedIn state calls ≤ bound) :
    Sodium.cryptoScalarmultBase (origin.random item 32) ∉
      (Runs.final PrekeyStore.call state calls).1.activeKeys := by
  induction calls generalizing state pool with
  | nil =>
      rw [Runs.final, h.mem_activeKeys hfresh hbound (hitem.trans_le hbound)]
      rintro ⟨place, heq⟩
      exact hactive place heq
  | cons c calls ih =>
      obtain ⟨pool', h', -, hevolves, hissued⟩ := h.call c
      refine ih h' (hitem.trans_le hevolves.issued_le) ?_ ?_
      · rintro place rfl
        rcases hevolves.active_origin place with ⟨place', heq⟩ | hle
        · exact hactive place' heq
        · exact absurd hitem (not_lt_of_ge hle)
      · rw [hissued, Nat.add_assoc]
        exact hbound

theorem Represents.not_mem_activeKeys_of_deprecated {state : PrekeyStore B × World B}
    (h : Represents origin pool state.1 state.2) {publicKey : PublicKey B}
    (hdeprecated : publicKey ∈ state.1.deprecatedKeys) {calls : List (Call B)}
    (hbound : pool.issued + generatedIn state calls ≤ bound) :
    publicKey ∉ (Runs.final PrekeyStore.call state calls).1.activeKeys := by
  obtain ⟨prekey, hprekey, rfl⟩ := PrekeyStore.mem_deprecatedKeys.mp hdeprecated
  rw [h.deprecatedPrekeys] at hprekey
  obtain ⟨⟨item, date⟩, hentry, rfl⟩ := List.mem_map.mp hprekey
  refine h.not_mem_activeKeys hfresh (pool.retired_lt_issued _ hentry) ?_ hbound
  rintro place rfl
  exact pool.active_not_retired place date hentry

end Run

theorem mem_deprecatedKeys_of_getPrekey {publicKey : PublicKey B} {privateKey : PrivateKey B}
    (h : (store.getPrekey publicKey w).1 = .ok privateKey) :
    publicKey ∈ (store.getPrekey publicKey w).2.1.deprecatedKeys := by
  rcases store.getPrekey_cases publicKey w with
    ⟨index, hkey, heq⟩ | ⟨-, prekey, hprekey, hkey, heq⟩ | ⟨-, -, heq⟩
  · rw [heq, deprecate_eq]
    exact PrekeyStore.mem_deprecatedKeys.mpr
      ⟨_, List.mem_append_right _ (List.mem_singleton.mpr rfl), hkey⟩
  · rw [heq]
    exact PrekeyStore.mem_deprecatedKeys.mpr ⟨prekey, hprekey, hkey⟩
  · rw [heq] at h
    cases h

/-- The three places where a key pair can be, and what a lookup then returns. -/
inductive Fate (start : PrekeyStore B × World B) (calls : List (Call B))
    (publicKey : PublicKey B) (privateKey : PrivateKey B) : Prop where
  | active
      (hactive : (Runs.final PrekeyStore.call start calls).1.activeKeys.count publicKey = 1)
      (hdeprecated : publicKey ∉ (Runs.final PrekeyStore.call start calls).1.deprecatedKeys)
      (hlookup : ((Runs.final PrekeyStore.call start calls).1.getPrekey publicKey
        (Runs.final PrekeyStore.call start calls).2).1 = .ok privateKey)
  | deprecated
      (hactive : publicKey ∉ (Runs.final PrekeyStore.call start calls).1.activeKeys)
      (hdeprecated :
        (Runs.final PrekeyStore.call start calls).1.deprecatedKeys.count publicKey = 1)
      (hlookup : ((Runs.final PrekeyStore.call start calls).1.getPrekey publicKey
        (Runs.final PrekeyStore.call start calls).2).1 = .ok privateKey)
  | removed
      (hactive : publicKey ∉ (Runs.final PrekeyStore.call start calls).1.activeKeys)
      (hdeprecated : publicKey ∉ (Runs.final PrekeyStore.call start calls).1.deprecatedKeys)
      (hlookup : ((Runs.final PrekeyStore.call start calls).1.getPrekey publicKey
        (Runs.final PrekeyStore.call start calls).2).1 =
          .error ⟨.notFound, "No matching prekey found."⟩)
      (hwhen : RemovedLate start calls publicKey)

/-- What holds of all key pairs after the calls on a new store. -/
structure Conserved (w : World B) (calls : List (Call B)) : Prop where
  amount : (Runs.final PrekeyStore.call (create w) calls).1.active.length = prekeyAmount
  drawn : ∀ i size, (Runs.final PrekeyStore.call (create w) calls).2.random i size =
    w.random (i + generated w calls) size
  /-- Every key pair drawn so far has one of the three fates. -/
  fate : ∀ i < generated w calls, Fate (create w) calls
    (Sodium.cryptoScalarmultBase (w.random i 32)) (w.random i 32)
  /-- A prekey that has been handed out or deprecated is not listed any more. -/
  unlisted : ∀ publicKey before after, calls = before ++ after →
    (publicKey ∈ (Runs.final PrekeyStore.call (create w) before).1.deprecatedKeys ∨
      ∃ earlier later privateKey, before = earlier ++ .getPrekey publicKey :: later ∧
        ((Runs.final PrekeyStore.call (create w) earlier).1.getPrekey publicKey
          (Runs.final PrekeyStore.call (create w) earlier).2).1 = .ok privateKey) →
    ∀ index : Fin prekeyAmount,
      ((Runs.final PrekeyStore.call (create w) calls).1.list.drop (32 * index)).take 32 ≠
        publicKey.bytes

theorem Accounted.fate {bound : ℕ}
    (hfresh : Set.InjOn (fun i => Sodium.cryptoScalarmultBase (origin.random i 32))
      (Set.Iio bound))
    (hbound : pool.issued ≤ bound) {start : PrekeyStore B × World B} {calls : List (Call B)}
    (h : Represents origin pool (Runs.final PrekeyStore.call start calls).1
      (Runs.final PrekeyStore.call start calls).2)
    (haccounted : Accounted start calls origin pool) {item : ℕ} (hitem : item < pool.issued) :
    Fate start calls (Sodium.cryptoScalarmultBase (origin.random item 32))
      (origin.random item 32) := by
  have hlt : item < bound := hitem.trans_le hbound
  have hactive : _ ↔ ∃ place, pool.active place = item := h.mem_activeKeys hfresh hbound hlt
  have hdeprecated : _ ↔ ∃ date, (item, date) ∈ pool.retired :=
    h.mem_deprecatedKeys hfresh hbound hlt
  rcases haccounted item hitem with ⟨place, rfl⟩ | ⟨time, hmem, -⟩ | ⟨hplace, hretired, hwhen⟩
  · refine .active ?_ ?_ (h.getPrekey_eq_ok hfresh hbound hlt (.inl ⟨place, rfl⟩))
    · exact List.count_eq_one_of_mem (h.nodup_activeKeys hfresh hbound) (hactive.mpr ⟨place, rfl⟩)
    · rintro hkey
      obtain ⟨date, hdate⟩ := hdeprecated.mp hkey
      exact pool.active_not_retired place date hdate
  · refine .deprecated ?_ ?_ (h.getPrekey_eq_ok hfresh hbound hlt (.inr ⟨_, hmem⟩))
    · intro hkey
      obtain ⟨place, rfl⟩ := hactive.mp hkey
      exact pool.active_not_retired place _ hmem
    · exact List.count_eq_one_of_mem (h.nodup_deprecatedKeys hfresh hbound)
        (hdeprecated.mpr ⟨_, hmem⟩)
  · have hnotactive : Sodium.cryptoScalarmultBase (origin.random item 32) ∉
        (Runs.final PrekeyStore.call start calls).1.activeKeys := fun hkey => by
      obtain ⟨place, heq⟩ := hactive.mp hkey
      exact hplace place heq
    have hnotdeprecated : Sodium.cryptoScalarmultBase (origin.random item 32) ∉
        (Runs.final PrekeyStore.call start calls).1.deprecatedKeys := fun hkey => by
      obtain ⟨date, hdate⟩ := hdeprecated.mp hkey
      exact hretired date hdate
    exact .removed hnotactive hnotdeprecated
      (getPrekey_eq_notFound hnotactive hnotdeprecated _) hwhen

/-- No prekey is lost, swapped or reissued, if the run never draws a key twice. -/
theorem prekeys_conserved (w : World B) (hclock : Monotone w.clock) (calls : List (Call B))
    (hfresh : Set.InjOn (fun i => Sodium.cryptoScalarmultBase (w.random i 32))
      (Set.Iio (generated w calls))) : Conserved w calls where
  amount := List.length_ofFn
  drawn := by
    obtain ⟨pool, h, -, hissued⟩ := exists_accounted hfresh hclock le_rfl
    rw [← hissued]
    exact h.random
  fate := by
    obtain ⟨pool, h, haccounted, hissued⟩ := exists_accounted hfresh hclock le_rfl
    rw [← hissued] at hfresh ⊢
    exact fun i hi => haccounted.fate hfresh le_rfl h hi
  unlisted := by
    rintro publicKey before after rfl hwas index hlisted
    rw [take_drop_list] at hlisted
    have hkey : publicKey ∈
        (Runs.final PrekeyStore.call (create w) (before ++ after)).1.activeKeys :=
      PrekeyStore.mem_activeKeys.mpr ⟨index, Key.ext hlisted⟩
    rcases hwas with hdeprecated | ⟨earlier, later, privateKey, rfl, hok⟩
    · have hbound : generated w before + _ = _ := (generated_append w before after).symm
      obtain ⟨pool, h, -, hissued⟩ :=
        exists_accounted hfresh hclock (le_of_add_le_left hbound.le)
      rw [← hissued] at hbound
      rw [Runs.final_append] at hkey
      exact h.not_mem_activeKeys_of_deprecated hfresh hdeprecated hbound.le hkey
    · rw [List.append_cons, List.append_assoc] at hfresh hkey
      have hbound : generated w (earlier ++ [.getPrekey publicKey]) + _ = _ :=
        (generated_append w _ (later ++ after)).symm
      obtain ⟨pool, h, -, hissued⟩ :=
        exists_accounted hfresh hclock (le_of_add_le_left hbound.le)
      rw [← hissued] at hbound
      rw [Runs.final_append] at hkey
      refine h.not_mem_activeKeys_of_deprecated hfresh ?_ hbound.le hkey
      rw [final_append_singleton]
      exact mem_deprecatedKeys_of_getPrekey hok

end PrekeyStore

namespace Symbolic

open PrekeyStore

/-- A world that never draws the same bytes twice, its clock an hour further every time. -/
def freshWorld : World ℕ := ⟨fun i => 3600 * i, fun i size => carry size i, fun _ => 0⟩

theorem freshWorld_injective :
    Function.Injective fun i => Sodium.cryptoScalarmultBase (freshWorld.random i 32) := by
  intro i j h
  have hprivate := publicCode_injective (carry_injective (by decide) h)
  exact carry_injective (by decide) hprivate

theorem freshWorld_monotone : Monotone freshWorld.clock := by
  intro i j hij
  simp only [freshWorld]
  omega

/-- A world that draws a thousand different keys and then the same ones again. -/
def repeatingWorld : World ℕ := { freshWorld with random := fun i size => carry size (i % 1000) }

theorem repeatingWorld_injOn {amount : ℕ} (h : amount ≤ 1000) :
    Set.InjOn (fun i => Sodium.cryptoScalarmultBase (repeatingWorld.random i 32))
      (Set.Iio amount) := by
  intro i hi j hj hkey
  have hprivate := publicCode_injective (carry_injective (by decide) hkey)
  have hmod : i % 1000 = j % 1000 := carry_injective (by decide) hprivate
  rwa [Nat.mod_eq_of_lt (hi.trans_le h), Nat.mod_eq_of_lt (hj.trans_le h)] at hmod

/-- One prekey is taken and removed, another one is taken. -/
theorem prekeys_conserved_fresh :
    Conserved repeatingWorld
      [.getPrekey (Sodium.cryptoScalarmultBase (repeatingWorld.random 0 32)), .rotate,
        .getPrekey (Sodium.cryptoScalarmultBase (repeatingWorld.random 1 32))] :=
  prekeys_conserved repeatingWorld freshWorld_monotone _
    (repeatingWorld_injOn ((generated_le _ _).trans (by decide)))

end Symbolic

end Molch
