import Mathlib.Data.List.Basic
import Mathlib.Data.Int.Basic

namespace RangeLookup

/-- `ProtobufCIntRange`: the first number of a range and its position. -/
structure IntRange where
  startValue : ℤ
  origIndex : ℕ
deriving DecidableEq

section Generator

/-- The loop of `WriteIntRanges` after `i` numbers, the last of them `previous`. The open range
began at the position `lastRangeStart`. -/
def writeIntRangesFrom (previous : ℤ) (i lastRangeStart : ℕ) : List ℤ → List IntRange
  | [] => [⟨previous + 1 - (i - lastRangeStart : ℕ), lastRangeStart⟩, ⟨0, i⟩]
  | value :: values =>
      if previous + 1 ≠ value then
        ⟨previous + 1 - (i - lastRangeStart : ℕ), lastRangeStart⟩ ::
          writeIntRangesFrom value (i + 1) i values
      else writeIntRangesFrom value (i + 1) lastRangeStart values

/-- `WriteIntRanges`: the entries with the sentinel at the end. -/
def writeIntRanges : List ℤ → List IntRange
  | [] => []
  | value :: values => writeIntRangesFrom value 1 0 values

end Generator

section Lookup

def entry (ranges : List IntRange) (i : ℕ) : IntRange := ranges.getD i ⟨0, 0⟩

/-- The number of values in an entry, from the position of the next one. -/
def rangeSize (ranges : List IntRange) (i : ℕ) : ℤ :=
  ((entry ranges (i + 1)).origIndex : ℤ) - (entry ranges i).origIndex

/-- The loop of `int_range_lookup` over `n` entries from `start` on. -/
def intRangeLookupFrom (ranges : List IntRange) (value : ℤ) (start n : ℕ) : Option ℕ :=
  if 1 < n then
    let mid := start + n / 2
    if value < (entry ranges mid).startValue then
      intRangeLookupFrom ranges value start (mid - start)
    else if (entry ranges mid).startValue + rangeSize ranges mid ≤ value then
      intRangeLookupFrom ranges value (mid + 1) (start + n - (mid + 1))
    else some ((value - (entry ranges mid).startValue).toNat + (entry ranges mid).origIndex)
  else if 0 < n ∧ (entry ranges start).startValue ≤ value ∧
      value < (entry ranges start).startValue + rangeSize ranges start then
    some ((value - (entry ranges start).startValue).toNat + (entry ranges start).origIndex)
  else none
termination_by n

/-- `int_range_lookup`: the last entry is the sentinel. -/
def intRangeLookup (ranges : List IntRange) (value : ℤ) : Option ℕ :=
  intRangeLookupFrom ranges value 0 (ranges.length - 1)

end Lookup

/-- The entries from a position on describe the rest of the list. -/
inductive Describes (values : List ℤ) : ℕ → List IntRange → Prop
  | sentinel (startValue : ℤ) : Describes values values.length [⟨startValue, values.length⟩]
  | range {first next : ℕ} {startValue : ℤ} {ranges : List IntRange} (hlt : first < next)
      (hrun : ∀ k, first ≤ k → k < next → values[k]? = some (startValue + (k - first : ℕ)))
      (hrest : Describes values next ranges) :
      Describes values first (⟨startValue, first⟩ :: ranges)

theorem describes_writeIntRangesFrom {values before after : List ℤ} {previous : ℤ}
    {lastRangeStart : ℕ} (hvalues : values = before ++ after)
    (hstart : lastRangeStart < before.length)
    (hrun : ∀ k, lastRangeStart ≤ k → k < before.length →
      values[k]? = some (previous + 1 - (before.length - k : ℕ))) :
    Describes values lastRangeStart
      (writeIntRangesFrom previous before.length lastRangeStart after) := by
  have hopen : ∀ k, lastRangeStart ≤ k → k < before.length →
      values[k]? = some (previous + 1 - (before.length - lastRangeStart : ℕ) +
        (k - lastRangeStart : ℕ)) := by
    intro k hle hlt
    rw [hrun k hle hlt, Option.some.injEq]
    omega
  induction after generalizing before previous lastRangeStart with
  | nil =>
      rw [List.append_nil] at hvalues
      have hlength : before.length = values.length := by rw [hvalues]
      rw [writeIntRangesFrom]
      refine .range hstart hopen ?_
      rw [hlength]
      exact .sentinel 0
  | cons value after ih =>
      have hnext : values[before.length]? = some value := by
        rw [hvalues, List.getElem?_append_right le_rfl, Nat.sub_self, List.getElem?_cons_zero]
      have hlength : (before ++ [value]).length = before.length + 1 := List.length_append
      have hvalues' : values = (before ++ [value]) ++ after := by
        rw [hvalues, List.append_assoc, List.singleton_append]
      rw [writeIntRangesFrom, ← hlength]
      split
      · -- a new range begins with the number
        have hrun' : ∀ k, before.length ≤ k → k < (before ++ [value]).length →
            values[k]? = some (value + 1 - ((before ++ [value]).length - k : ℕ)) := by
          intro k hle hlt
          obtain rfl : k = before.length := by omega
          rw [hnext, hlength, Option.some.injEq]
          omega
        refine .range hstart hopen (ih hvalues' (by omega) hrun' ?_)
        intro k hle hlt
        rw [hrun' k hle hlt, Option.some.injEq]
        omega
      · rename_i hcontinues
        have hrun' : ∀ k, lastRangeStart ≤ k → k < (before ++ [value]).length →
            values[k]? = some (value + 1 - ((before ++ [value]).length - k : ℕ)) := by
          intro k hle hlt
          rcases Nat.lt_or_ge k before.length with hk | hk
          · rw [hrun k hle hk, Option.some.injEq]
            omega
          · obtain rfl : k = before.length := by omega
            rw [hnext, hlength, Option.some.injEq]
            omega
        refine ih hvalues' (by omega) hrun' ?_
        intro k hle hlt
        rw [hrun' k hle hlt, Option.some.injEq]
        omega

theorem describes_writeIntRanges {values : List ℤ} (hvalues : values ≠ []) :
    Describes values 0 (writeIntRanges values) := by
  cases values with
  | nil => exact absurd rfl hvalues
  | cons value after =>
      have hvalues' : value :: after = [value] ++ after := rfl
      refine describes_writeIntRangesFrom hvalues' Nat.one_pos ?_
      intro k _ hlt
      obtain rfl : k = 0 := by simpa using hlt
      simp

structure Table (values : List ℤ) (first : ℕ) (ranges : List IntRange) : Prop where
  first : (entry ranges 0).origIndex = first
  last : (entry ranges (ranges.length - 1)).origIndex = values.length
  lt : ∀ i < ranges.length - 1, (entry ranges i).origIndex < (entry ranges (i + 1)).origIndex
  run : ∀ i < ranges.length - 1, ∀ k, (entry ranges i).origIndex ≤ k →
    k < (entry ranges (i + 1)).origIndex →
    values[k]? = some ((entry ranges i).startValue + (k - (entry ranges i).origIndex : ℕ))

theorem Describes.table {values : List ℤ} {first : ℕ} {ranges : List IntRange}
    (h : Describes values first ranges) : Table values first ranges := by
  induction h with
  | sentinel startValue =>
      refine ⟨rfl, rfl, ?_, ?_⟩
      · intro i hi
        simp at hi
      · intro i hi
        simp at hi
  | @range first next startValue ranges hlt hrun hrest ih =>
      have hpos : 0 < ranges.length := by
        cases hrest with
        | sentinel startValue => exact Nat.one_pos
        | range hlt hrun hrest => exact Nat.succ_pos _
      have hlast : ranges.length = ranges.length - 1 + 1 := by omega
      refine ⟨rfl, ?_, ?_, ?_⟩
      · rw [List.length_cons, Nat.add_sub_cancel, hlast]
        exact ih.last
      · intro i hi
        rw [List.length_cons, Nat.add_sub_cancel] at hi
        cases i with
        | zero => exact ih.first.symm ▸ hlt
        | succ i => exact ih.lt i (by omega)
      · intro i hi
        rw [List.length_cons, Nat.add_sub_cancel] at hi
        cases i with
        | zero =>
            intro k hle hk
            exact hrun k hle (ih.first ▸ hk)
        | succ i => exact ih.run i (by omega)

section Correctness

variable {values : List ℤ} {ranges : List IntRange} (htable : Table values 0 ranges)
  {value : ℤ} {start n k : ℕ}

include htable

theorem Table.getElem?_of_mem {i : ℕ} (hi : i < ranges.length - 1)
    (hle : (entry ranges i).startValue ≤ value)
    (hlt : value < (entry ranges i).startValue + rangeSize ranges i) :
    values[(value - (entry ranges i).startValue).toNat + (entry ranges i).origIndex]? =
      some value := by
  rw [rangeSize] at hlt
  rw [htable.run i hi _ (Nat.le_add_left _ _) (by omega), Option.some.injEq]
  omega

theorem Table.sound (hn : start + n ≤ ranges.length - 1)
    (h : intRangeLookupFrom ranges value start n = some k) : values[k]? = some value := by
  fun_induction intRangeLookupFrom ranges value start n with
  | case1 start n hlt mid hbelow ih => exact ih (by omega) h
  | case2 start n hlt mid hbelow habove ih => exact ih (by omega) h
  | case3 start n hlt mid hbelow habove =>
      cases h
      exact htable.getElem?_of_mem (by omega) (Int.not_lt.mp hbelow) (Int.not_le.mp habove)
  | case4 start n hlt hmem =>
      cases h
      exact htable.getElem?_of_mem (by omega) hmem.2.1 hmem.2.2
  | case5 start n hlt hmem => cases h

theorem Table.getElem?_first {i : ℕ} (hi : i < ranges.length - 1) :
    values[(entry ranges i).origIndex]? = some (entry ranges i).startValue := by
  rw [htable.run i hi _ le_rfl (htable.lt i hi), Option.some.injEq]
  omega

theorem Table.getElem?_last {i : ℕ} (hi : i < ranges.length - 1) :
    values[(entry ranges (i + 1)).origIndex - 1]? =
      some ((entry ranges i).startValue + rangeSize ranges i - 1) := by
  have hlt := htable.lt i hi
  rw [htable.run i hi _ (by omega) (by omega), Option.some.injEq, rangeSize]
  omega

theorem Table.complete (hsorted : values.Pairwise (· < ·)) (hn : start + n ≤ ranges.length - 1)
    (hk : values[k]? = some value) (hle : (entry ranges start).origIndex ≤ k)
    (hlt : k < (entry ranges (start + n)).origIndex) :
    intRangeLookupFrom ranges value start n = some k := by
  have hmono : ∀ {i j : ℕ} {v w : ℤ}, values[i]? = some v → values[j]? = some w → i < j →
      v < w := by
    intro i j v w hi hj hij
    obtain ⟨hi', rfl⟩ := List.getElem?_eq_some_iff.mp hi
    obtain ⟨hj', rfl⟩ := List.getElem?_eq_some_iff.mp hj
    exact List.pairwise_iff_getElem.mp hsorted i j hi' hj' hij
  have hin : ∀ i < ranges.length - 1, (entry ranges i).origIndex ≤ k →
      k < (entry ranges (i + 1)).origIndex →
      value = (entry ranges i).startValue + (k - (entry ranges i).origIndex : ℕ) := by
    intro i hi hle hlt
    rw [htable.run i hi k hle hlt, Option.some.injEq] at hk
    exact hk.symm
  fun_induction intRangeLookupFrom ranges value start n with
  | case1 start n hn' mid hbelow ih =>
      refine ih (by omega) hle ?_
      by_contra hright
      rw [Nat.add_sub_cancel' (by omega)] at hright
      rcases Nat.lt_or_eq_of_le (not_lt.mp hright) with hlt' | heq
      · have := hmono (htable.getElem?_first (by omega)) hk hlt'
        omega
      · have hfirst := htable.getElem?_first (i := mid) (by omega)
        rw [heq, hk, Option.some.injEq] at hfirst
        omega
  | case2 start n hn' mid hbelow habove ih =>
      have hlast := htable.getElem?_last (i := mid) (by omega)
      have hpos := htable.lt mid (by omega)
      refine ih (by omega) ?_ ?_
      · by_contra hleft
        rcases Nat.lt_or_eq_of_le (show k ≤ (entry ranges (mid + 1)).origIndex - 1 by omega)
          with hlt' | heq
        · have := hmono hk hlast hlt'
          omega
        · rw [← heq, hk, Option.some.injEq] at hlast
          omega
      · rwa [Nat.add_sub_cancel' (by omega)]
  | case3 start n hn' mid hbelow habove =>
      have hmem := htable.getElem?_of_mem (i := mid) (by omega) (Int.not_lt.mp hbelow)
        (Int.not_le.mp habove)
      rw [Option.some.injEq]
      rcases Nat.lt_trichotomy
        ((value - (entry ranges mid).startValue).toNat + (entry ranges mid).origIndex) k
        with hlt' | heq | hgt
      · exact absurd (hmono hmem hk hlt') (Int.lt_irrefl _)
      · exact heq
      · exact absurd (hmono hk hmem hgt) (Int.lt_irrefl _)
  | case4 start n hn' hmem =>
      obtain rfl : n = 1 := by omega
      have heq := hin start (by omega) hle hlt
      rw [Option.some.injEq]
      omega
  | case5 start n hn' hmem =>
      exfalso
      rcases Nat.lt_or_ge 0 n with hpos | hzero
      · obtain rfl : n = 1 := by omega
        have heq := hin start (by omega) hle hlt
        refine hmem ⟨hpos, by omega, ?_⟩
        rw [rangeSize]
        omega
      · obtain rfl : n = 0 := by omega
        rw [Nat.add_zero] at hlt
        omega

end Correctness

/-- The binary search in the generated table finds a number exactly at its position. -/
theorem intRangeLookup_writeIntRanges {values : List ℤ} (hsorted : values.Pairwise (· < ·))
    (value : ℤ) (k : ℕ) :
    intRangeLookup (writeIntRanges values) value = some k ↔ values[k]? = some value := by
  cases values with
  | nil => simp [intRangeLookup, writeIntRanges, intRangeLookupFrom]
  | cons v rest =>
      have htable := (describes_writeIntRanges (List.cons_ne_nil v rest)).table
      constructor
      · exact htable.sound (by omega)
      · intro hk
        refine htable.complete hsorted (by omega) hk ?_ ?_
        · rw [htable.first]
          exact Nat.zero_le _
        · rw [Nat.zero_add, htable.last]
          exact (List.getElem?_eq_some_iff.mp hk).1

section Cache

/-- The lookups for the numbers of a message one after the other. The position found last, at
first 0, is tried before the search. -/
def cachedLookups (values : List ℤ) (last : ℕ) : List ℤ → List (Option ℕ)
  | [] => []
  | value :: rest =>
      if values[last]? = some value then some last :: cachedLookups values last rest
      else
        match intRangeLookup (writeIntRanges values) value with
        | none => none :: cachedLookups values last rest
        | some i => some i :: cachedLookups values i rest

theorem cachedLookups_eq_map {values : List ℤ} (hsorted : values.Pairwise (· < ·)) (last : ℕ)
    (numbers : List ℤ) : cachedLookups values last numbers =
      numbers.map (intRangeLookup (writeIntRanges values)) := by
  induction numbers generalizing last with
  | nil => rfl
  | cons value rest ih =>
      rw [cachedLookups, List.map_cons]
      split
      · rename_i hlast
        rw [(intRangeLookup_writeIntRanges hsorted value last).mpr hlast, ih]
      · split
        · rename_i hfound
          rw [hfound, ih]
        · rename_i i hfound
          rw [hfound, ih]

end Cache

end RangeLookup
