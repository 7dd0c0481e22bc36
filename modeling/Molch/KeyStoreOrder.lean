import Molch.Symbolic
import Molch.Foundation.Retained
import Molch.Foundation.Runs

namespace Molch

open HeaderAndMessageKey

variable {B : Type}

namespace HeaderAndMessageKeyStore

/-- What the class says about `key_storage`. -/
structure SortedAndBounded (store : HeaderAndMessageKeyStore B) : Prop where
  sorted : Retained.InOrder expirationDate store.keys
  bounded : store.keys.length ≤ maximumKeys

/-- The latest of the keys that are not outdated, at most as many as the store may hold. -/
@[irreducible] def latest (time : ℤ) (keys : List (HeaderAndMessageKey B)) : List (HeaderAndMessageKey B) :=
  (keys.filter fun key => !key.outdated time).rtake maximumKeys

theorem outdated_of_le {time : ℤ} (a b : HeaderAndMessageKey B)
    (h : a.expirationDate ≤ b.expirationDate) (hb : b.outdated time = true) :
    a.outdated time = true :=
  decide_eq_true (h.trans (of_decide_eq_true hb))

theorem lt_of_not_outdated {time : ℤ} {key : HeaderAndMessageKey B}
    (h : (!key.outdated time) = true) : time - maximumAge < key.expirationDate := by
  simpa [outdated] using h

theorem trim_eq_latest {keys : List (HeaderAndMessageKey B)}
    (h : Retained.InOrder expirationDate keys) (time : ℤ) : trim time keys = latest time keys := by
  unfold trim latest
  rw [h.dropWhile_eq_filter outdated_of_le]
  simp only
  split
  · rfl
  · exact (Retained.rtake_eq_self (by omega)).symm

theorem latest_sublist (time : ℤ) (keys : List (HeaderAndMessageKey B)) :
    (latest time keys).Sublist keys := by
  unfold latest
  exact (List.drop_sublist _ _).trans List.filter_sublist

theorem length_latest (time : ℤ) (keys : List (HeaderAndMessageKey B)) :
    (latest time keys).length = min maximumKeys (keys.filter fun key => !key.outdated time).length := by
  unfold latest
  exact Retained.length_rtake _ _

theorem lt_of_mem_latest {time : ℤ} {keys : List (HeaderAndMessageKey B)}
    {key : HeaderAndMessageKey B} (h : key ∈ latest time keys) :
    time - maximumAge < key.expirationDate := by
  unfold latest at h
  exact lt_of_not_outdated (List.mem_filter.mp (List.mem_of_mem_drop h)).2

theorem outdated_max (key : HeaderAndMessageKey B) (time time' : ℤ) :
    key.outdated (max time time') = (key.outdated time' || key.outdated time) := by
  rw [Bool.eq_iff_iff, Bool.or_eq_true]
  simp only [outdated, decide_eq_true_eq]
  omega

theorem latest_latest {keys : List (HeaderAndMessageKey B)}
    (h : Retained.InOrder expirationDate keys) (time time' : ℤ) :
    latest time' (latest time keys) = latest (max time time') keys := by
  unfold latest
  have hfresh : Retained.InOrder expirationDate (keys.filter fun key => !key.outdated time) :=
    h.sublist List.filter_sublist
  have hmono : ∀ a b : HeaderAndMessageKey B, a.expirationDate ≤ b.expirationDate →
      (!a.outdated time') = true → (!b.outdated time') = true := by
    intro a b hle ha
    cases hb : b.outdated time' with
    | false => rfl
    | true => exact absurd (outdated_of_le a b hle hb) (by simpa using ha)
  rw [hfresh.filter_rtake maximumKeys hmono, List.filter_filter]
  simp only [outdated_max, Bool.not_or]
  refine Retained.rtake_eq_self ?_
  rw [Retained.length_rtake]
  exact Nat.min_le_left _ _

theorem latest_sortedAndBounded {keys : List (HeaderAndMessageKey B)}
    (h : Retained.InOrder expirationDate keys) (time : ℤ) :
    (HeaderAndMessageKeyStore.mk (latest time keys)).SortedAndBounded := by
  refine ⟨h.sublist (latest_sublist _ _), ?_⟩
  rw [length_latest]
  exact Nat.min_le_left _ _

theorem insertKey_eq_merge {keys : List (HeaderAndMessageKey B)}
    (h : Retained.InOrder expirationDate keys) (key : HeaderAndMessageKey B) :
    insertKey key keys = Retained.merge expirationDate keys [key] := by
  unfold insertKey
  cases hlast : keys.getLast? with
  | none =>
      rw [List.getLast?_eq_none_iff.mp hlast, Retained.nil_merge]
      rfl
  | some last =>
      simp only
      split
      · rename_i hle
        obtain ⟨front, rfl⟩ := List.getLast?_eq_some_iff.mp hlast
        refine (Retained.merge_eq_append key fun other hother => ?_).symm
        rcases List.mem_append.mp hother with hfront | hother
        · exact (h.le_of_append other hfront last List.mem_cons_self).trans hle
        · exact (List.mem_singleton.mp hother) ▸ hle
      · exact Retained.insert_eq_merge key

theorem addStore_eq {store other : HeaderAndMessageKeyStore B}
    (h : Retained.InOrder expirationDate store.keys)
    (h' : Retained.InOrder expirationDate other.keys) (w : World B) :
    store.addStore other w =
      (⟨latest (w.clock 0) (Retained.merge expirationDate store.keys other.keys)⟩, w.now.2) := by
  rw [← trim_eq_latest (h.merge h')]
  rfl

theorem removeOutdatedAndTrimSize_eq {store : HeaderAndMessageKeyStore B}
    (h : Retained.InOrder expirationDate store.keys) (w : World B) :
    store.removeOutdatedAndTrimSize w = (⟨latest (w.clock 0) store.keys⟩, w.now.2) := by
  rw [← trim_eq_latest h]
  rfl

/-- A full store makes room by removing its first key, whatever the new key is. -/
theorem addKey_eq {store : HeaderAndMessageKeyStore B}
    (h : Retained.InOrder expirationDate store.keys) (key : HeaderAndMessageKey B) (w : World B) :
    store.addKey key w =
      (if key.outdated (w.clock 0) then store
        else ⟨Retained.merge expirationDate
          (if store.keys.length = maximumKeys then store.keys.tail else store.keys) [key]⟩,
        w.now.2) := by
  have hroom : Retained.InOrder expirationDate
      (if store.keys.length = maximumKeys then store.keys.tail else store.keys) := by
    split
    · exact h.sublist (List.tail_sublist _)
    · exact h
  rw [← insertKey_eq_merge hroom key]
  unfold addKey
  by_cases hold : key.outdated (w.clock 0)
  · simp only [World.now, hold, if_true]
  · simp only [World.now, hold, Bool.false_eq_true, if_false]

namespace SortedAndBounded

variable {store other : HeaderAndMessageKeyStore B}

theorem clear : (HeaderAndMessageKeyStore.clear : HeaderAndMessageKeyStore B).SortedAndBounded :=
  ⟨List.Pairwise.nil, Nat.zero_le _⟩

theorem addKey (h : store.SortedAndBounded) (key : HeaderAndMessageKey B) (w : World B) :
    (store.addKey key w).1.SortedAndBounded := by
  rw [addKey_eq h.sorted]
  simp only
  split
  · exact h
  · have hsingle : Retained.InOrder expirationDate [key] := List.pairwise_singleton _ _
    have hbounded := h.bounded
    split
    · rename_i hfull
      refine ⟨(h.sorted.sublist (List.tail_sublist _)).merge hsingle, ?_⟩
      rw [Retained.merge_perm.length_eq, List.length_append, List.length_tail, hfull]
      exact (Nat.sub_add_cancel (by decide)).le
    · refine ⟨h.sorted.merge hsingle, ?_⟩
      rw [Retained.merge_perm.length_eq, List.length_append, List.length_singleton]
      omega

theorem add (h : store.SortedAndBounded) (headerKey : EmptyableHeaderKey B)
    (messageKey : MessageKey B) (w : World B) :
    (store.add headerKey messageKey w).1.SortedAndBounded :=
  h.addKey _ _

theorem addStore (h : store.SortedAndBounded) (h' : other.SortedAndBounded) (w : World B) :
    (store.addStore other w).1.SortedAndBounded := by
  rw [addStore_eq h.sorted h'.sorted]
  exact latest_sortedAndBounded (h.sorted.merge h'.sorted) _

theorem removeOutdatedAndTrimSize (h : store.SortedAndBounded) (w : World B) :
    (store.removeOutdatedAndTrimSize w).1.SortedAndBounded := by
  rw [removeOutdatedAndTrimSize_eq h.sorted]
  exact latest_sortedAndBounded h.sorted _

theorem remove (h : store.SortedAndBounded) (index : ℕ) : (store.remove index).SortedAndBounded :=
  ⟨h.sorted.sublist (List.eraseIdx_sublist _ _),
    ((List.eraseIdx_sublist _ _).length_le).trans h.bounded⟩

end SortedAndBounded

section Calls

inductive Call (B : Type) where
  | addKey (key : HeaderAndMessageKey B)
  | add (headerKey : EmptyableHeaderKey B) (messageKey : MessageKey B)
  | addStore (other : HeaderAndMessageKeyStore B)
  | remove (index : ℕ)
  | clear
  | removeOutdatedAndTrimSize

def call (state : HeaderAndMessageKeyStore B × World B) :
    Call B → Unit × HeaderAndMessageKeyStore B × World B
  | .addKey key => ((), state.1.addKey key state.2)
  | .add headerKey messageKey => ((), state.1.add headerKey messageKey state.2)
  | .addStore other => ((), state.1.addStore other state.2)
  | .remove index => ((), state.1.remove index, state.2)
  | .clear => ((), .clear, state.2)
  | .removeOutdatedAndTrimSize => ((), state.1.removeOutdatedAndTrimSize state.2)

/-- What the callers see to. -/
def Call.Allowed (state : HeaderAndMessageKeyStore B × World B) : Call B → Prop
  | .addStore other => other.SortedAndBounded
  | .remove index => index < state.1.keys.length
  | _ => True

def Call.Trims : Call B → Prop
  | .addStore _ => True
  | .removeOutdatedAndTrimSize => True
  | _ => False

theorem sortedAndBounded_call (state : HeaderAndMessageKeyStore B × World B) (c : Call B)
    (h : state.1.SortedAndBounded) (hallowed : c.Allowed state) :
    (call state c).2.1.SortedAndBounded := by
  cases c with
  | addKey key => exact h.addKey key state.2
  | add headerKey messageKey => exact h.add headerKey messageKey state.2
  | addStore other => exact h.addStore hallowed state.2
  | remove index => exact h.remove index
  | clear => exact .clear
  | removeOutdatedAndTrimSize => exact h.removeOutdatedAndTrimSize state.2

theorem lt_of_mem_trimmed {state : HeaderAndMessageKeyStore B × World B} {c : Call B}
    (h : state.1.SortedAndBounded) (hallowed : c.Allowed state) (htrims : c.Trims) :
    ∀ key ∈ (call state c).2.1.keys, state.2.clock 0 - maximumAge < key.expirationDate := by
  intro key hkey
  cases c with
  | addStore other =>
      simp only [call, addStore_eq h.sorted (SortedAndBounded.sorted hallowed)] at hkey
      exact lt_of_mem_latest hkey
  | removeOutdatedAndTrimSize =>
      simp only [call, removeOutdatedAndTrimSize_eq h.sorted] at hkey
      exact lt_of_mem_latest hkey
  | _ => exact htrims.elim

/-- The order and the limit hold after every function, and no outdated key survives the
functions that trim. -/
theorem order_kept {store : HeaderAndMessageKeyStore B} (h : store.SortedAndBounded)
    (w : World B) {calls : List (Call B)}
    (hallowed : Runs.Admitted call (fun state c => c.Allowed state) (store, w) calls) :
    (∀ before after, calls = before ++ after →
      (Runs.final call (store, w) before).1.SortedAndBounded) ∧
    ∀ before c after, calls = before ++ c :: after → c.Trims →
      ∀ key ∈ (call (Runs.final call (store, w) before) c).2.1.keys,
        (Runs.final call (store, w) before).2.clock 0 - maximumAge < key.expirationDate := by
  have hkept : ∀ before after, calls = before ++ after →
      (Runs.final call (store, w) before).1.SortedAndBounded := by
    rintro before after rfl
    exact hallowed.prefix_of_append.invariant
      (fun state : HeaderAndMessageKeyStore B × World B => state.1.SortedAndBounded)
      sortedAndBounded_call h
  refine ⟨hkept, ?_⟩
  intro before c after hcalls htrims
  exact lt_of_mem_trimmed (hkept before (c :: after) hcalls) (hallowed before c after hcalls)
    htrims

end Calls

section Commit

theorem latest_merge {keys keys' : List (HeaderAndMessageKey B)}
    (h : Retained.InOrder expirationDate keys) (h' : Retained.InOrder expirationDate keys')
    (time : ℤ) :
    latest time (Retained.merge expirationDate keys keys') =
      (Retained.merge expirationDate (keys.filter fun key => !key.outdated time)
        (keys'.filter fun key => !key.outdated time)).rtake maximumKeys := by
  unfold latest
  exact congrArg (fun keys => keys.rtake maximumKeys) (Retained.filter_merge h h' _)

theorem commit_eq (ratchet : Ratchet B) (w : World B)
    (hskipped : ratchet.skippedHeaderAndMessageKeys.SortedAndBounded)
    (hstaged : ratchet.stagedHeaderAndMessageKeys.SortedAndBounded) :
    (ratchet.commitSkippedHeaderAndMessageKeys w).1 = { ratchet with
      skippedHeaderAndMessageKeys := ⟨latest (max (w.clock 0) (w.clock 1))
        (Retained.merge expirationDate ratchet.skippedHeaderAndMessageKeys.keys
          ratchet.stagedHeaderAndMessageKeys.keys)⟩
      stagedHeaderAndMessageKeys := .clear } := by
  have hsorted := hskipped.sorted.merge hstaged.sorted
  have hclock : w.now.2.clock 0 = w.clock 1 := rfl
  unfold Ratchet.commitSkippedHeaderAndMessageKeys
  simp only [addStore_eq hskipped.sorted hstaged.sorted,
    removeOutdatedAndTrimSize_eq (latest_sortedAndBounded hsorted (w.clock 0)).sorted,
    latest_latest hsorted, hclock]

/-- A commit empties the staging area. Of the keys that are not outdated at the later one of
its two readings, the stored ones before the staged ones of the same date, it keeps the last
ones as far as the limit allows. -/
theorem commit_keeps_latest (ratchet : Ratchet B) (w : World B)
    (hskipped : ratchet.skippedHeaderAndMessageKeys.SortedAndBounded)
    (hstaged : ratchet.stagedHeaderAndMessageKeys.SortedAndBounded) :
    let fresh := List.filter fun key : HeaderAndMessageKey B =>
      !key.outdated (max (w.clock 0) (w.clock 1))
    let skipped := ratchet.skippedHeaderAndMessageKeys.keys
    let staged := ratchet.stagedHeaderAndMessageKeys.keys
    let committed := (ratchet.commitSkippedHeaderAndMessageKeys w).1
    let kept := committed.skippedHeaderAndMessageKeys.keys
    committed.stagedHeaderAndMessageKeys.keys = [] ∧
      (∃ dropped, (dropped ++ kept).Perm (fresh (skipped ++ staged)) ∧
        Retained.InOrder expirationDate (dropped ++ kept) ∧
        ∀ date, (dropped ++ kept).filter (fun key => decide (key.expirationDate = date)) =
          (fresh skipped).filter (fun key => decide (key.expirationDate = date)) ++
            (fresh staged).filter fun key => decide (key.expirationDate = date)) ∧
      kept.length = min maximumKeys (fresh (skipped ++ staged)).length ∧
      ((fresh (skipped ++ staged)).length ≤ maximumKeys →
        kept.Perm (fresh (skipped ++ staged))) := by
  intro fresh skipped staged committed kept
  have hkept : kept = (Retained.merge expirationDate (fresh skipped) (fresh staged)).rtake
      maximumKeys := by
    simp only [kept, committed, commit_eq ratchet w hskipped hstaged]
    exact latest_merge hskipped.sorted hstaged.sorted _
  have hfreshSkipped : Retained.InOrder expirationDate (fresh skipped) :=
    hskipped.sorted.sublist List.filter_sublist
  have hfreshStaged : Retained.InOrder expirationDate (fresh staged) :=
    hstaged.sorted.sublist List.filter_sublist
  have hperm : (Retained.merge expirationDate (fresh skipped) (fresh staged)).Perm
      (fresh (skipped ++ staged)) := by
    simp only [fresh, List.filter_append]
    exact Retained.merge_perm
  obtain ⟨dropped, hdropped⟩ := Retained.exists_append_rtake maximumKeys
    (Retained.merge expirationDate (fresh skipped) (fresh staged))
  rw [← hkept] at hdropped
  refine ⟨?_, ⟨dropped, ?_⟩, ?_, ?_⟩
  · simp only [committed, commit_eq ratchet w hskipped hstaged, clear]
  · rw [hdropped]
    exact ⟨hperm, hfreshSkipped.merge hfreshStaged,
      Retained.filter_date_merge hfreshSkipped hfreshStaged⟩
  · rw [hkept, Retained.length_rtake, hperm.length_eq]
  · intro hsize
    rw [hkept, Retained.rtake_eq_self (hperm.length_eq.trans_le hsize)]
    exact hperm

end Commit

section Insertion

/-- `add(key)`, then `removeOutdatedAndTrimSize()`. -/
def addSingle (store : HeaderAndMessageKeyStore B) (key : HeaderAndMessageKey B) (w : World B) :
    HeaderAndMessageKeyStore B :=
  match store.addKey key w with
  | (store, w) => (store.removeOutdatedAndTrimSize w).1

/-- `add` of a store that contains only the key. -/
def addBulk (store : HeaderAndMessageKeyStore B) (key : HeaderAndMessageKey B) (w : World B) :
    HeaderAndMessageKeyStore B :=
  (store.addStore ⟨[key]⟩ w).1

variable {store : HeaderAndMessageKeyStore B} {key : HeaderAndMessageKey B} {w : World B}
  {time : ℤ}

theorem addBulk_eq (h : store.SortedAndBounded) (key : HeaderAndMessageKey B)
    (hclock : ∀ i, w.clock i = time) :
    addBulk store key w =
      ⟨latest time (Retained.merge expirationDate store.keys [key])⟩ := by
  rw [addBulk, addStore_eq h.sorted (List.pairwise_singleton _ _), hclock]

theorem addSingle_eq (h : store.SortedAndBounded) (key : HeaderAndMessageKey B)
    (hclock : ∀ i, w.clock i = time) :
    addSingle store key w = ⟨latest time (if key.outdated time then store.keys
      else Retained.merge expirationDate
        (if store.keys.length = maximumKeys then store.keys.tail else store.keys) [key])⟩ := by
  have hsorted := (h.addKey key w).sorted
  have hworld : (store.addKey key w).2.clock 0 = time := by
    rw [addKey_world]
    exact hclock 1
  have hsingle : addSingle store key w =
      ((store.addKey key w).1.removeOutdatedAndTrimSize (store.addKey key w).2).1 := rfl
  rw [hsingle, removeOutdatedAndTrimSize_eq hsorted, hworld, addKey_eq h.sorted, hclock]
  simp only
  split <;> rfl

theorem latest_eq_self {keys : List (HeaderAndMessageKey B)}
    (hfresh : ∀ key ∈ keys, key.outdated time = false) (hsize : keys.length ≤ maximumKeys) :
    latest time keys = keys := by
  unfold latest
  rw [List.filter_eq_self.mpr fun key hkey => by rw [hfresh key hkey]; rfl]
  exact Retained.rtake_eq_self hsize

theorem latest_cons {first : HeaderAndMessageKey B} {keys : List (HeaderAndMessageKey B)}
    (h : Retained.InOrder expirationDate (first :: keys)) (hsize : maximumKeys ≤ keys.length) :
    latest time (first :: keys) = latest time keys := by
  unfold latest
  cases hfirst : first.outdated time with
  | true => rw [List.filter_cons_of_neg (by simp [hfirst])]
  | false =>
      have hfresh : ∀ key ∈ keys, (!key.outdated time) = true := by
        intro key hkey
        cases hold : key.outdated time with
        | false => rfl
        | true =>
            have hle := List.rel_of_pairwise_cons h hkey
            exact absurd (outdated_of_le first key hle hold) (by simp [hfirst])
      rw [List.filter_cons_of_pos (by simp [hfirst]), List.filter_eq_self.mpr hfresh,
        Retained.rtake_cons first hsize]

theorem latest_merge_outdated {keys : List (HeaderAndMessageKey B)}
    (h : Retained.InOrder expirationDate keys) (hold : key.outdated time = true) :
    latest time (Retained.merge expirationDate keys [key]) = latest time keys := by
  unfold latest
  rw [Retained.filter_merge h (List.pairwise_singleton _ _),
    List.filter_cons_of_neg (by simp [hold]), List.filter_nil, Retained.merge_nil]

/-- A full store gives up its first key for the new one, the bulk insertion gives up the
earlier one of the two. -/
theorem latest_merge_tail {first : HeaderAndMessageKey B} {keys : List (HeaderAndMessageKey B)}
    (h : Retained.InOrder expirationDate (first :: keys))
    (hfull : (first :: keys).length = maximumKeys) (hfresh : key.outdated time = false) :
    latest time (Retained.merge expirationDate keys [key]) =
        latest time (Retained.merge expirationDate (first :: keys) [key]) ↔
      ∃ other ∈ first :: keys, other.expirationDate ≤ key.expirationDate := by
  have hsingle : Retained.InOrder expirationDate [key] := List.pairwise_singleton _ _
  constructor
  · intro heq
    by_contra hearlier
    push Not at hearlier
    have hall : ∀ other ∈ key :: first :: keys, other.outdated time = false := by
      intro other hother
      cases hold : other.outdated time with
      | false => rfl
      | true =>
          have hle : key.expirationDate ≤ other.expirationDate := by
            rcases List.mem_cons.mp hother with rfl | hother
            · exact le_rfl
            · exact (hearlier other hother).le
          exact absurd (outdated_of_le key other hle hold) (by simp [hfresh])
    have hrest : ∀ other ∈ keys, key.expirationDate < other.expirationDate :=
      fun other hother => hearlier other (List.mem_cons_of_mem first hother)
    have hsorted := h.merge hsingle
    rw [Retained.merge_cons_right hearlier, Retained.merge_nil] at heq hsorted
    have hbulk : latest time (first :: keys) = first :: keys :=
      latest_eq_self (fun other hother => hall other (List.mem_cons_of_mem key hother)) hfull.le
    have hkept : latest time (key :: keys) = key :: keys :=
      latest_eq_self (fun other hother =>
        hall other (((List.sublist_cons_self first keys).cons_cons key).subset hother)) hfull.le
    rw [Retained.merge_cons_right hrest, Retained.merge_nil, latest_cons hsorted hfull.ge, hbulk,
      hkept] at heq
    have hfirst := hearlier first List.mem_cons_self
    rw [(List.cons.inj heq).1] at hfirst
    exact lt_irrefl _ hfirst
  · rintro ⟨other, hother, hle⟩
    have hfirst : first.expirationDate ≤ key.expirationDate := by
      rcases List.mem_cons.mp hother with rfl | hother
      · exact hle
      · exact (List.rel_of_pairwise_cons h hother).trans hle
    have hsorted := h.merge hsingle
    rw [Retained.merge_cons_left (by simpa using hfirst)] at hsorted ⊢
    refine (latest_cons hsorted ?_).symm
    rw [Retained.merge_perm.length_eq, List.length_append]
    exact hfull.ge

theorem addSingle_eq_addBulk_iff (h : store.SortedAndBounded) (key : HeaderAndMessageKey B)
    (hclock : ∀ i, w.clock i = time) :
    addSingle store key w = addBulk store key w ↔
      store.keys.length < maximumKeys ∨ key.outdated time = true ∨
        ∃ other ∈ store.keys, other.expirationDate ≤ key.expirationDate := by
  rw [addSingle_eq h key hclock, addBulk_eq h key hclock, HeaderAndMessageKeyStore.mk.injEq]
  cases hold : key.outdated time with
  | true => simp [latest_merge_outdated h.sorted hold]
  | false =>
      by_cases hfull : store.keys.length = maximumKeys
      · obtain ⟨keys⟩ := store
        cases keys with
        | nil => cases hfull
        | cons first keys =>
            have htail := latest_merge_tail h.sorted hfull hold
            simpa [hfull] using htail
      · have hroom : store.keys.length < maximumKeys := lt_of_le_of_ne h.bounded hfull
        simp [hfull, hroom]

/-- The two ways to insert a key agree unless the store is full and the key, not being
outdated itself, expires before all stored keys. -/
theorem single_agrees_with_bulk_iff (h : store.SortedAndBounded) (key : HeaderAndMessageKey B)
    (hclock : ∀ i, w.clock i = time) :
    (addSingle store key w = addBulk store key w ∧
      (addSingle store key w).keys =
        latest time (Retained.merge expirationDate store.keys [key]) ∧
      (addBulk store key w).keys =
        latest time (Retained.merge expirationDate store.keys [key])) ↔
    (store.keys.length < maximumKeys ∨ key.outdated time = true ∨
      ∃ other ∈ store.keys, other.expirationDate ≤ key.expirationDate) := by
  rw [← addSingle_eq_addBulk_iff h key hclock]
  constructor
  · rintro ⟨heq, -, -⟩
    exact heq
  · intro heq
    have hbulk := congrArg keys (addBulk_eq h key hclock)
    exact ⟨heq, (congrArg keys heq).trans hbulk, hbulk⟩

end Insertion

section Import

variable {bundles : List (ProtobufCKeyBundle B)} {store : HeaderAndMessageKeyStore B}

theorem expirationDate_of_import {bundle : ProtobufCKeyBundle B} {key : HeaderAndMessageKey B}
    (h : HeaderAndMessageKey.import_ bundle = .ok key) :
    bundle.expirationTime.map secondsOfUInt64 = some key.expirationDate := by
  unfold HeaderAndMessageKey.import_ at h
  split at h
  · cases h
  · obtain ⟨headerKey, -, h⟩ := Result.bind_eq_ok.mp h
    split at h
    · cases h
    · obtain ⟨messageKey, -, h⟩ := Result.bind_eq_ok.mp h
      split at h
      · cases h
      · rename_i htime
        cases h
        rw [htime]
        rfl

theorem expirationDates_of_import (h : import_ bundles = .ok store) :
    bundles.map (fun bundle => bundle.expirationTime.map secondsOfUInt64) =
      store.keys.map fun key => some key.expirationDate := by
  obtain ⟨keys, hkeys, hstore⟩ := Result.bind_eq_ok.mp h
  cases hstore
  rw [Result.mapM_eq_ok_iff] at hkeys
  induction hkeys with
  | nil => rfl
  | cons hkey hrest ih =>
      rw [List.map_cons, List.map_cons, expirationDate_of_import hkey]
      refine congrArg _ (ih ?_)
      exact Result.bind_eq_ok.mpr ⟨_, Result.mapM_eq_ok_iff.mpr hrest, rfl⟩

/-- `import` keeps the order of the list and all of it, so that the store is in order exactly
if the list was. -/
theorem import_sortedAndBounded_iff (h : import_ bundles = .ok store) :
    store.SortedAndBounded ↔
      (bundles.Pairwise fun a b => ∀ time ∈ a.expirationTime, ∀ time' ∈ b.expirationTime,
        secondsOfUInt64 time ≤ secondsOfUInt64 time') ∧ bundles.length ≤ maximumKeys := by
  have hdates := expirationDates_of_import h
  have hlength := congrArg List.length hdates
  rw [List.length_map, List.length_map] at hlength
  have hsorted : Retained.InOrder expirationDate store.keys ↔
      bundles.Pairwise fun a b => ∀ time ∈ a.expirationTime, ∀ time' ∈ b.expirationTime,
        secondsOfUInt64 time ≤ secondsOfUInt64 time' := by
    let le : Option ℤ → Option ℤ → Prop := fun a b => ∀ date ∈ a, ∀ date' ∈ b, date ≤ date'
    have hkeys : (store.keys.map fun key => some key.expirationDate).Pairwise le ↔
        Retained.InOrder expirationDate store.keys := by
      rw [List.pairwise_map]
      simp [le, Retained.InOrder]
    rw [← hkeys, ← hdates, List.pairwise_map]
    simp [le]
  constructor
  · rintro ⟨horder, hbounded⟩
    exact ⟨hsorted.mp horder, hlength.trans_le hbounded⟩
  · rintro ⟨horder, hbounded⟩
    exact ⟨hsorted.mpr horder, hlength.symm.trans_le hbounded⟩

end Import

end HeaderAndMessageKeyStore

namespace Symbolic

open HeaderAndMessageKeyStore

def datedKey (expirationDate : ℤ) : HeaderAndMessageKey ℕ := ⟨.clear, Key.zero, expirationDate⟩

/-- A clock that goes forward past the age of some keys, back to 0 and forward again. -/
def restlessWorld : World ℕ :=
  { world with clock := fun i => if i = 2 then month + 3 else if i = 4 then month + 5 else 0 }

/-- As many keys as there may be, with three different dates. -/
def mixedStore : HeaderAndMessageKeyStore ℕ :=
  ⟨datedKey 1 :: datedKey 3 :: List.replicate 998 (datedKey 8)⟩

theorem length_mixedStore : mixedStore.keys.length = maximumKeys := by
  rw [mixedStore, List.length_cons, List.length_cons, List.length_replicate]
  rfl

theorem sortedAndBounded_mixedStore : mixedStore.SortedAndBounded := by
  have hlate : ∀ {date : ℤ}, date ≤ 8 → ∀ key ∈ List.replicate 998 (datedKey 8),
      (datedKey date).expirationDate ≤ key.expirationDate := by
    intro date hdate key hkey
    rw [List.eq_of_mem_replicate hkey]
    exact hdate
  refine ⟨?_, length_mixedStore.le⟩
  refine List.pairwise_cons.mpr ⟨fun key hkey => ?_, List.pairwise_cons.mpr
    ⟨hlate (by decide), List.pairwise_replicate.mpr (.inr le_rfl)⟩⟩
  rcases List.mem_cons.mp hkey with rfl | hkey
  · decide
  · exact hlate (by decide) key hkey

/-- Keys are removed, inserted between others and pushed out of the full store, a store is added
in which one key is outdated and one is the latest of all, and a key that has been added while
the clock was back at 0 is trimmed. -/
def mixedCalls : List (Call ℕ) :=
  [.remove 1, .addKey (datedKey 5), .addKey (datedKey 6),
    .addStore ⟨[datedKey 2, datedKey 4, datedKey 9]⟩, .addKey (datedKey 4),
    .removeOutdatedAndTrimSize]

theorem order_kept_mixed :
    (∀ before after, mixedCalls = before ++ after →
      (Runs.final call (mixedStore, restlessWorld) before).1.SortedAndBounded) ∧
    ∀ before c after, mixedCalls = before ++ c :: after → c.Trims →
      ∀ key ∈ (call (Runs.final call (mixedStore, restlessWorld) before) c).2.1.keys,
        (Runs.final call (mixedStore, restlessWorld) before).2.clock 0 - maximumAge <
          key.expirationDate := by
  have hadded : (⟨[datedKey 2, datedKey 4, datedKey 9]⟩ :
      HeaderAndMessageKeyStore ℕ).SortedAndBounded :=
    ⟨by simp [Retained.InOrder, datedKey], by decide⟩
  have hindex : 1 < mixedStore.keys.length := by
    rw [length_mixedStore]
    decide
  exact order_kept sortedAndBounded_mixedStore restlessWorld
    (.cons hindex (.cons trivial (.cons trivial (.cons hadded (.cons trivial
      (.cons trivial (.nil _)))))))

/-- Two keys that wait in the staging area are committed. -/
theorem commit_keeps_two :
    let ratchet : Ratchet ℕ := { (.init : Ratchet ℕ) with
      stagedHeaderAndMessageKeys := ⟨[datedKey 0, datedKey 1]⟩ }
    let kept := (ratchet.commitSkippedHeaderAndMessageKeys world).1.skippedHeaderAndMessageKeys
    kept.keys.length = 2 := by
  intro ratchet kept
  have hstaged : ratchet.stagedHeaderAndMessageKeys.SortedAndBounded :=
    ⟨by simp [ratchet, Retained.InOrder, datedKey], by decide⟩
  have hskipped : ratchet.skippedHeaderAndMessageKeys.SortedAndBounded := .clear
  obtain ⟨-, -, hlength, -⟩ := commit_keeps_latest ratchet world hskipped hstaged
  exact hlength

/-- A full store gives up its first key for one that expires between the others. -/
theorem single_agrees_with_bulk_full :
    mixedStore.keys.length = maximumKeys ∧
    addSingle mixedStore (datedKey 5) world = addBulk mixedStore (datedKey 5) world ∧
      (addSingle mixedStore (datedKey 5) world).keys =
        latest 0 (Retained.merge expirationDate mixedStore.keys [datedKey 5]) ∧
      (addBulk mixedStore (datedKey 5) world).keys =
        latest 0 (Retained.merge expirationDate mixedStore.keys [datedKey 5]) := by
  refine ⟨length_mixedStore, ?_⟩
  refine (single_agrees_with_bulk_iff sortedAndBounded_mixedStore (datedKey 5) fun _ => rfl).mpr ?_
  exact .inr (.inr ⟨datedKey 1, List.mem_cons_self, by decide⟩)

/-- As many keys as there may be, all of them expiring at 1. -/
def fullStore : HeaderAndMessageKeyStore ℕ := ⟨List.replicate maximumKeys (datedKey 1)⟩

/-- A key that expires at 0 takes the place of one that expires at 1. -/
theorem earlier_key_displaces_later :
    fullStore.SortedAndBounded ∧
      addSingle fullStore (datedKey 0) world ≠ addBulk fullStore (datedKey 0) world := by
  have hsorted : fullStore.SortedAndBounded := by
    constructor
    · exact List.pairwise_replicate.mpr (.inr le_rfl)
    · exact List.length_replicate.le
  refine ⟨hsorted, ?_⟩
  rw [Ne, addSingle_eq_addBulk_iff hsorted (datedKey 0) fun _ => rfl]
  rintro (hroom | hold | ⟨other, hother, hle⟩)
  · exact hroom.ne List.length_replicate
  · exact absurd hold (by decide)
  · rw [List.eq_of_mem_replicate hother] at hle
    exact absurd hle (by decide)

/-- Two keys of which the second expires first. -/
def disorderedBundles : List (ProtobufCKeyBundle ℕ) :=
  [⟨List.replicate 32 0, List.replicate 32 0, some 1⟩,
    ⟨List.replicate 32 0, List.replicate 32 0, some 0⟩]

theorem import_disorderedBundles :
    import_ disorderedBundles = .ok ⟨[⟨.ofKey Key.zero, Key.zero, 1⟩,
      ⟨.ofKey Key.zero, Key.zero, 0⟩]⟩ :=
  rfl

theorem import_disorderedBundles_iff :
    (⟨[⟨.ofKey Key.zero, Key.zero, 1⟩, ⟨.ofKey Key.zero, Key.zero, 0⟩]⟩ :
      HeaderAndMessageKeyStore ℕ).SortedAndBounded ↔
    (disorderedBundles.Pairwise fun a b => ∀ time ∈ a.expirationTime,
      ∀ time' ∈ b.expirationTime, secondsOfUInt64 time ≤ secondsOfUInt64 time') ∧
      disorderedBundles.length ≤ maximumKeys :=
  import_sortedAndBounded_iff import_disorderedBundles

theorem disorderedBundles_accepted :
    ∃ store, import_ disorderedBundles = .ok store ∧ ¬ store.SortedAndBounded := by
  refine ⟨_, import_disorderedBundles, ?_⟩
  rintro ⟨hsorted, -⟩
  exact absurd (List.rel_of_pairwise_cons hsorted List.mem_cons_self) (by decide)

end Symbolic

end Molch
