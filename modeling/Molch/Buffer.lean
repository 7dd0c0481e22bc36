import Molch.Ratchet

namespace Molch

section Types

variable [Platform]

/-- `size_t`, whose subtraction wraps around. -/
abbrev SizeT : Type := BitVec Platform.sizeBits

/-- `span<const std::byte>`. Its constructor narrows the size to `ptrdiff_t`. -/
structure Span (B : Type) where
  bytes : List B
  length_bytes_lt : bytes.length < 2 ^ (Platform.sizeBits - 1)

/-- `BaseBuffer`: the `buffer_length` allocated bytes and how many of them are in use. An
allocation fits `ptrdiff_t`, and no caller of the constructor asks for a size above the
capacity. -/
structure Buffer (B : Type) where
  content : List B
  contentLength : ℕ
  contentLength_le : contentLength ≤ content.length
  length_content_lt : content.length < 2 ^ (Platform.sizeBits - 1)

end Types

def slice {B : Type} (bytes : List B) (position length : ℕ) : List B :=
  (bytes.drop position).take length

/-- How a comparison ends: with a `result<bool>`, with a read outside of the memory of an
operand, or with the process because a length does not fit `ptrdiff_t`. -/
inductive Comparison where
  | result (result : Except Error Bool)
  | outOfBounds
  | terminate
deriving DecidableEq

section Buffers

variable [Platform] {B : Type}

theorem two_pow_sizeBits : 2 ^ Platform.sizeBits = 2 * 2 ^ (Platform.sizeBits - 1) := by
  have hbits : Platform.sizeBits = Platform.sizeBits - 1 + 1 := by
    have := Platform.sizeBits_eq
    omega
  rw [← pow_succ', ← hbits]

namespace Span

def size (span : Span B) : ℕ := span.bytes.length

end Span

namespace Buffer

def capacity (buffer : Buffer B) : ℕ := buffer.content.length

def size (buffer : Buffer B) : ℕ := buffer.contentLength

def bytes (buffer : Buffer B) : List B := buffer.content.take buffer.contentLength

@[simp] theorem length_bytes (buffer : Buffer B) : buffer.bytes.length = buffer.size := by
  rw [bytes, List.length_take, min_eq_left buffer.contentLength_le, size]

theorem size_lt (buffer : Buffer B) : buffer.size < 2 ^ (Platform.sizeBits - 1) :=
  buffer.contentLength_le.trans_lt buffer.length_content_lt

def toSpan (buffer : Buffer B) : Span B where
  bytes := buffer.bytes
  length_bytes_lt := by
    rw [length_bytes]
    exact buffer.size_lt

@[simp] theorem size_toSpan (buffer : Buffer B) : buffer.toSpan.size = buffer.size :=
  buffer.length_bytes

variable [DecidableEq B]

/-- `sodium_memcmp` of two slices of memory. No byte of an empty slice is read. -/
def sodiumMemcmp (memory1 : List B) (position1 : SizeT) (memory2 : List B)
    (position2 length : SizeT) : Comparison :=
  if 2 ^ (Platform.sizeBits - 1) ≤ length.toNat then .terminate
  else if length.toNat = 0 then .result (.ok true)
  else if memory1.length < position1.toNat + length.toNat ∨
      memory2.length < position2.toNat + length.toNat then .outOfBounds
  else .result (.ok (decide (slice memory1 position1.toNat length.toNat =
    slice memory2 position2.toNat length.toNat)))

def compareToRawPartial (buffer : Buffer B) (position1 : SizeT) (array : Span B)
    (position2 comparisonLength : SizeT) : Comparison :=
  if BitVec.ofNat _ buffer.size - position1 < comparisonLength ∨
      BitVec.ofNat _ array.size - position2 < comparisonLength then
    .result (.error ⟨.incorrectBufferSize,
      "Trying to compare a buffer with an incorrect length."⟩)
  else if buffer.capacity = 0 ∨ array.size = 0 then
    .result (.ok (decide (comparisonLength.toNat = 0)))
  else sodiumMemcmp buffer.content position1 array.bytes position2 comparisonLength

def compareToRaw (buffer : Buffer B) (array : Span B) : Comparison :=
  buffer.compareToRawPartial 0 array 0 (BitVec.ofNat _ buffer.size)

def compare (buffer other : Buffer B) : Comparison :=
  buffer.compareToRaw other.toSpan

/-- `operator==`. -/
def equals (buffer other : Buffer B) : Bool :=
  decide (buffer.compare other = .result (.ok true))

section Bounds

/-- A slice is rejected: it ends beyond the operand or, where it begins beyond it, so far
beyond that the difference is too small even after it has wrapped around. -/
def Exceeds (size : ℕ) (position length : SizeT) : Prop :=
  (if position.toNat ≤ size then size else size + 2 ^ Platform.sizeBits) <
    position.toNat + length.toNat

theorem sub_lt_iff_exceeds {size : ℕ} (hsize : size < 2 ^ (Platform.sizeBits - 1))
    (position length : SizeT) :
    BitVec.ofNat _ size - position < length ↔ Exceeds size position length := by
  have htwo := two_pow_sizeBits
  have hposition := position.isLt
  have hlength := length.isLt
  have hmod : size % 2 ^ Platform.sizeBits = size := Nat.mod_eq_of_lt (by omega)
  rw [BitVec.lt_def, BitVec.toNat_sub, BitVec.toNat_ofNat, hmod, Exceeds]
  generalize 2 ^ Platform.sizeBits = modulus at *
  by_cases hle : position.toNat ≤ size
  · have hsum : (modulus - position.toNat + size) % modulus = size - position.toNat := by
      rw [show modulus - position.toNat + size = size - position.toNat + modulus by omega,
        Nat.add_mod_right, Nat.mod_eq_of_lt (by omega)]
    rw [hsum, if_pos hle]
    omega
  · rw [Nat.mod_eq_of_lt (by omega), if_neg hle]
    omega

theorem Exceeds.lt {size : ℕ} {position length : SizeT} (h : Exceeds size position length) :
    size < position.toNat + length.toNat := by
  unfold Exceeds at h
  split at h <;> omega

theorem le_of_not_exceeds {size : ℕ} {position length : SizeT}
    (h : ¬ Exceeds size position length) (hposition : position.toNat ≤ size) :
    position.toNat + length.toNat ≤ size := by
  rw [Exceeds, if_pos hposition] at h
  omega

omit [Platform] [DecidableEq B] in
theorem slice_zero (bytes : List B) (position : ℕ) : slice bytes position 0 = [] :=
  List.take_zero

omit [DecidableEq B] in
theorem slice_content (buffer : Buffer B) {position length : ℕ}
    (h : position + length ≤ buffer.size) :
    slice buffer.content position length = slice buffer.bytes position length := by
  have hle : length ≤ buffer.contentLength - position := Nat.le_sub_of_add_le' h
  rw [slice, slice, bytes, List.drop_take, List.take_take, min_eq_left hle]

end Bounds

section Comparing

variable (buffer : Buffer B) (array : Span B) {position1 position2 comparisonLength : SizeT}

theorem compareToRawPartial_of_exceeds (h : Exceeds buffer.size position1 comparisonLength ∨
      Exceeds array.size position2 comparisonLength) :
    buffer.compareToRawPartial position1 array position2 comparisonLength =
      .result (.error ⟨.incorrectBufferSize,
        "Trying to compare a buffer with an incorrect length."⟩) := by
  rw [compareToRawPartial, if_pos]
  exact h.imp (sub_lt_iff_exceeds buffer.size_lt _ _).mpr
    (sub_lt_iff_exceeds array.length_bytes_lt _ _).mpr

theorem compareToRawPartial_of_not_exceeds (h : ¬ Exceeds buffer.size position1 comparisonLength)
    (h' : ¬ Exceeds array.size position2 comparisonLength) :
    buffer.compareToRawPartial position1 array position2 comparisonLength =
      if buffer.capacity = 0 ∨ array.size = 0 then
        .result (.ok (decide (comparisonLength.toNat = 0)))
      else sodiumMemcmp buffer.content position1 array.bytes position2 comparisonLength := by
  rw [compareToRawPartial, if_neg]
  rintro (hlt | hlt)
  · exact h ((sub_lt_iff_exceeds buffer.size_lt _ _).mp hlt)
  · exact h' ((sub_lt_iff_exceeds array.length_bytes_lt _ _).mp hlt)

theorem compareToRawPartial_ne_error (h : ¬ Exceeds buffer.size position1 comparisonLength)
    (h' : ¬ Exceeds array.size position2 comparisonLength) (error : Error) :
    buffer.compareToRawPartial position1 array position2 comparisonLength ≠
      .result (.error error) := by
  rw [compareToRawPartial_of_not_exceeds buffer array h h', sodiumMemcmp]
  split_ifs <;> simp

theorem compareToRawPartial_of_le (h : position1.toNat + comparisonLength.toNat ≤ buffer.size)
    (h' : position2.toNat + comparisonLength.toNat ≤ array.size) :
    buffer.compareToRawPartial position1 array position2 comparisonLength =
      .result (.ok (decide (slice buffer.bytes position1.toNat comparisonLength.toNat =
        slice array.bytes position2.toNat comparisonLength.toNat))) := by
  have hcapacity : buffer.size ≤ buffer.capacity := buffer.contentLength_le
  have hlength := buffer.size_lt
  rw [compareToRawPartial_of_not_exceeds buffer array
    (fun hexceeds => absurd hexceeds.lt (by omega))
    (fun hexceeds => absurd hexceeds.lt (by omega))]
  by_cases hzero : comparisonLength.toNat = 0
  · have hempty : sodiumMemcmp buffer.content position1 array.bytes position2 comparisonLength =
        .result (.ok true) := by
      rw [sodiumMemcmp, if_neg (by omega), if_pos hzero]
    rw [hempty, hzero, slice_zero, slice_zero]
    simp
  · rw [if_neg (by omega), sodiumMemcmp, if_neg (by omega), if_neg hzero, if_neg,
      slice_content buffer h]
    unfold capacity at hcapacity
    unfold Span.size at h'
    omega

/-- A comparison of slices as it should be. -/
structure ComparesSlices (position1 position2 comparisonLength : SizeT) : Prop where
  rejects : (∃ message, buffer.compareToRawPartial position1 array position2 comparisonLength =
      .result (.error ⟨.incorrectBufferSize, message⟩)) ↔
    buffer.size < position1.toNat + comparisonLength.toNat ∨
      array.size < position2.toNat + comparisonLength.toNat
  compares : position1.toNat + comparisonLength.toNat ≤ buffer.size →
    position2.toNat + comparisonLength.toNat ≤ array.size →
    buffer.compareToRawPartial position1 array position2 comparisonLength =
      .result (.ok (decide (slice buffer.bytes position1.toNat comparisonLength.toNat =
        slice array.bytes position2.toNat comparisonLength.toNat)))
  staysInside : buffer.compareToRawPartial position1 array position2 comparisonLength ≠
    .outOfBounds

theorem comparesSlices_iff :
    buffer.ComparesSlices array position1 position2 comparisonLength ↔
      (position1.toNat ≤ buffer.size ∧ position2.toNat ≤ array.size) ∨
        Exceeds buffer.size position1 comparisonLength ∨
        Exceeds array.size position2 comparisonLength := by
  by_cases hexceeds : Exceeds buffer.size position1 comparisonLength ∨
      Exceeds array.size position2 comparisonLength
  · have hresult := compareToRawPartial_of_exceeds buffer array hexceeds
    have hbeyond := hexceeds.imp Exceeds.lt Exceeds.lt
    refine ⟨fun _ => .inr hexceeds, fun _ => ⟨⟨fun _ => hbeyond, fun _ => ⟨_, hresult⟩⟩, ?_, ?_⟩⟩
    · intro h h'
      omega
    · rw [hresult]
      simp
  · obtain ⟨hbuffer, harray⟩ := not_or.mp hexceeds
    simp only [hbuffer, harray, or_false]
    constructor
    · intro h
      by_contra hposition
      obtain ⟨message, hmessage⟩ := h.rejects.mpr (by omega)
      exact compareToRawPartial_ne_error buffer array hbuffer harray _ hmessage
    · rintro ⟨hposition1, hposition2⟩
      have h := le_of_not_exceeds hbuffer hposition1
      have h' := le_of_not_exceeds harray hposition2
      have hresult := compareToRawPartial_of_le buffer array h h'
      refine ⟨⟨?_, by omega⟩, fun _ _ => hresult, ?_⟩
      · rintro ⟨message, hmessage⟩
        exact absurd hmessage (compareToRawPartial_ne_error buffer array hbuffer harray _)
      · rw [hresult]
        simp

end Comparing

section Equality

theorem compareToRaw_eq (buffer : Buffer B) (array : Span B) :
    buffer.compareToRaw array =
      if array.size < buffer.size then .result (.error ⟨.incorrectBufferSize,
        "Trying to compare a buffer with an incorrect length."⟩)
      else .result (.ok (decide (buffer.bytes = array.bytes.take buffer.size))) := by
  have hsize : (BitVec.ofNat Platform.sizeBits buffer.size).toNat = buffer.size := by
    have hlt := buffer.size_lt
    have htwo := two_pow_sizeBits
    rw [BitVec.toNat_ofNat, Nat.mod_eq_of_lt (by omega)]
  have hzero : (0 : SizeT).toNat = 0 := BitVec.toNat_zero
  rw [compareToRaw]
  split
  · rename_i hlt
    refine compareToRawPartial_of_exceeds buffer array (.inr ?_)
    rw [Exceeds, hzero, if_pos (Nat.zero_le _), hsize, Nat.zero_add]
    exact hlt
  · rename_i hle
    rw [compareToRawPartial_of_le buffer array (by rw [hsize, hzero]; omega)
      (by rw [hsize, hzero]; omega), hsize]
    simp only [slice, BitVec.ofNat_eq_ofNat, BitVec.toNat_ofNat, Nat.zero_mod, List.drop_zero]
    rw [List.take_of_length_le (Nat.le_of_eq buffer.length_bytes)]

/-- The comparison takes its length from the left operand. -/
theorem equals_iff (buffer other : Buffer B) :
    buffer.equals other = true ↔ buffer.bytes <+: other.bytes := by
  rw [equals, decide_eq_true_eq, compare, compareToRaw_eq, List.prefix_iff_eq_take,
    length_bytes]
  split
  · rename_i hlt
    have hne : buffer.bytes ≠ other.bytes.take buffer.size := by
      intro heq
      have hlength := congrArg List.length heq
      rw [length_bytes, List.length_take, length_bytes] at hlength
      rw [size_toSpan] at hlt
      omega
    simpa using hne
  · rw [Comparison.result.injEq, Except.ok.injEq, decide_eq_true_eq]
    rfl

/-- Two buffers are compared by their contents unless the left content is the beginning of a
longer right one. Slices are compared correctly if they begin within their operands, or else
if one of them is rejected even though the difference wraps around. -/
theorem comparisons_correct_iff :
    (∀ buffer other : Buffer B,
      (buffer.equals other = true ↔ buffer.size = other.size ∧ buffer.bytes = other.bytes) ↔
        ¬ (buffer.size < other.size ∧ buffer.bytes <+: other.bytes)) ∧
    ∀ (buffer : Buffer B) (array : Span B) (position1 position2 comparisonLength : SizeT),
      buffer.ComparesSlices array position1 position2 comparisonLength ↔
        (position1.toNat ≤ buffer.size ∧ position2.toNat ≤ array.size) ∨
          Exceeds buffer.size position1 comparisonLength ∨
          Exceeds array.size position2 comparisonLength := by
  refine ⟨fun buffer other => ?_, fun buffer array _ _ _ => buffer.comparesSlices_iff array⟩
  rw [equals_iff]
  constructor
  · rintro h ⟨hlt, hprefix⟩
    exact absurd (h.mp hprefix).1 hlt.ne
  · intro h
    constructor
    · intro hprefix
      have hlength := hprefix.length_le
      rw [length_bytes, length_bytes] at hlength
      have hsize : buffer.size = other.size :=
        le_antisymm hlength (not_lt.mp fun hlt => h ⟨hlt, hprefix⟩)
      exact ⟨hsize, hprefix.eq_of_length (by rw [length_bytes, length_bytes, hsize])⟩
    · rintro ⟨-, hbytes⟩
      exact hbytes ▸ List.prefix_refl _

end Equality

end Buffer

end Buffers

namespace BufferSamples

scoped instance : Platform := .x8664

def one : Buffer UInt8 := ⟨[1], 1, by decide, by decide⟩

def two : Buffer UInt8 := ⟨[1, 2], 2, by decide, by decide⟩

/-- `one == two` holds and `two == one` does not; a slice from beyond the end is read. -/
theorem comparisons_incorrect :
    ¬ (one.equals two = true ↔ one.size = two.size ∧ one.bytes = two.bytes) ∧
      two.equals one = false ∧
      one.compareToRawPartial 2 two.toSpan 0 1 = .outOfBounds := by
  decide

end BufferSamples

end Molch
