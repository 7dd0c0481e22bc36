import Molch.Buffer
import Molch.Foundation.Runs

/-!
What `clear` erases. It overwrites the bytes in use, so what lies beyond the size depends on
everything that has been done to the buffer before.
-/

namespace Molch

/-- `std::copy` into a memory that has room for the bytes. -/
def overwrite {B : Type} (memory : List B) (offset : ℕ) (bytes : List B) : List B :=
  memory.take offset ++ (bytes ++ memory.drop (offset + bytes.length))

theorem length_overwrite {B : Type} {memory bytes : List B} {offset : ℕ}
    (h : offset + bytes.length ≤ memory.length) :
    (overwrite memory offset bytes).length = memory.length := by
  rw [overwrite, List.length_append, List.length_append, List.length_take, List.length_drop]
  omega

theorem getElem?_overwrite {B : Type} {memory bytes : List B} {offset : ℕ}
    (h : offset + bytes.length ≤ memory.length) {i : ℕ} (hi : offset + bytes.length ≤ i) :
    (overwrite memory offset bytes)[i]? = memory[i]? := by
  have hoffset : (memory.take offset).length = offset := by
    rw [List.length_take]
    omega
  rw [overwrite, List.getElem?_append_right (by omega), hoffset,
    List.getElem?_append_right (by omega), List.getElem?_drop]
  congr 1
  omega

section Erasure

variable [Platform] {B : Type} [Byte B]

/-- The memory behind `data()`; no byte behind the last one is read. -/
def Span.data (span : Span B) (i : ℕ) : B := span.bytes.getD i Byte.zero

namespace Buffer

def bufferExpectationFailed : Failure := .error (expectationFailed "lib/buffer.hpp")

omit [Byte B] in
def withSize (buffer : Buffer B) (size : ℕ) (h : size ≤ buffer.capacity) : Buffer B :=
  { buffer with contentLength := size, contentLength_le := h }

def copyIn (buffer : Buffer B) (offset : ℕ) (bytes : List B)
    (h : offset + bytes.length ≤ buffer.capacity) : Buffer B where
  content := overwrite buffer.content offset bytes
  contentLength := max buffer.contentLength (offset + bytes.length)
  contentLength_le := by
    rw [length_overwrite h]
    exact max_le buffer.contentLength_le h
  length_content_lt := by
    rw [length_overwrite h]
    exact buffer.length_content_lt

def setSize (buffer : Buffer B) (size : ℕ) : Except Failure Unit × Buffer B :=
  if h : size ≤ buffer.capacity then (.ok (), buffer.withSize size h)
  else (.error bufferExpectationFailed, buffer)

omit [Byte B] in
theorem offset_add_length_slice_le {buffer source : Buffer B}
    {destinationOffset sourceOffset copyLength : ℕ} (hoffset : destinationOffset ≤ buffer.size)
    (hlength : copyLength ≤ buffer.capacity - destinationOffset) :
    destinationOffset + (slice source.bytes sourceOffset copyLength).length ≤
      buffer.capacity := by
  have hsize : buffer.size ≤ buffer.capacity := buffer.contentLength_le
  rw [slice, List.length_take]
  omega

/-- That the sizes are within the capacities, and that there is memory where there is content,
is checked too; the type of a buffer has it. -/
def copyFrom (buffer : Buffer B) (destinationOffset : ℕ) (source : Buffer B)
    (sourceOffset copyLength : ℕ) : Except Failure Unit × Buffer B :=
  if h : destinationOffset ≤ buffer.size ∧ copyLength ≤ buffer.capacity - destinationOffset ∧
      sourceOffset ≤ source.size ∧ copyLength ≤ source.size - sourceOffset then
    if source.size = 0 then (.ok (), buffer)
    else (.ok (), buffer.copyIn destinationOffset (slice source.bytes sourceOffset copyLength)
      (offset_add_length_slice_le h.1 h.2.1))
  else (.error bufferExpectationFailed, buffer)

def cloneFrom (buffer : Buffer B) (source : Buffer B) : Except Failure Unit × Buffer B :=
  if h : source.size ≤ buffer.capacity then
    (buffer.withSize source.size h).copyFrom 0 source 0 source.size
  else (.error bufferExpectationFailed, buffer)

/-- The source is the memory behind a pointer. -/
def copyFromRaw (buffer : Buffer B) (destinationOffset : ℕ) (source : ℕ → B)
    (sourceOffset copyLength : ℕ) : Except Failure Unit × Buffer B :=
  if h : destinationOffset ≤ buffer.capacity ∧
      copyLength ≤ buffer.capacity - destinationOffset then
    if copyLength = 0 then (.ok (), buffer)
    else (.ok (), buffer.copyIn destinationOffset
      ((List.range copyLength).map fun i => source (sourceOffset + i)) (by
        rw [List.length_map, List.length_range]
        omega))
  else (.error bufferExpectationFailed, buffer)

def cloneFromRaw (buffer : Buffer B) (source : Span B) : Except Failure Unit × Buffer B :=
  if h : source.size ≤ buffer.capacity then
    (buffer.withSize source.size h).copyFromRaw 0 source.data 0 source.size
  else (.error bufferExpectationFailed, buffer)

/-- A write through `data()` or an iterator, which reaches the whole allocation. -/
def writeData (buffer : Buffer B) (index : ℕ) (byte : B) : Buffer B where
  content := buffer.content.set index byte
  contentLength := buffer.contentLength
  contentLength_le := by
    rw [List.length_set]
    exact buffer.contentLength_le
  length_content_lt := by
    rw [List.length_set]
    exact buffer.length_content_lt

def write (buffer : Buffer B) (index : ℕ) (byte : B) : Except Failure Unit × Buffer B :=
  if index ≥ buffer.size then
    (.error (.exception "The buffer has been indexed out of range."), buffer)
  else (.ok (), buffer.writeData index byte)

def clear (buffer : Buffer B) : Buffer B :=
  if buffer.capacity = 0 then buffer
  else
    { content := overwrite buffer.content 0 (List.replicate buffer.size Byte.zero)
      contentLength := 0
      contentLength_le := Nat.zero_le _
      length_content_lt := by
        rw [length_overwrite]
        · exact buffer.length_content_lt
        · rw [List.length_replicate, Nat.zero_add]
          exact buffer.contentLength_le }

inductive Operation (B : Type) where
  | write (index : ℕ) (byte : B)
  | writeData (index : ℕ) (byte : B)
  | copyFrom (destinationOffset : ℕ) (source : Buffer B) (sourceOffset copyLength : ℕ)
  | cloneFrom (source : Buffer B)
  | copyFromRaw (destinationOffset : ℕ) (source : ℕ → B) (sourceOffset copyLength : ℕ)
  | cloneFromRaw (source : Span B)
  | setSize (size : ℕ)

def call (buffer : Buffer B) : Operation B → Except Failure Unit × Buffer B
  | .write index byte => buffer.write index byte
  | .writeData index byte => (.ok (), buffer.writeData index byte)
  | .copyFrom destinationOffset source sourceOffset copyLength =>
      buffer.copyFrom destinationOffset source sourceOffset copyLength
  | .cloneFrom source => buffer.cloneFrom source
  | .copyFromRaw destinationOffset source sourceOffset copyLength =>
      buffer.copyFromRaw destinationOffset source sourceOffset copyLength
  | .cloneFromRaw source => buffer.cloneFromRaw source
  | .setSize size => buffer.setSize size

/-- The whole capacity is zero and the size is 0. -/
def Erased (buffer : Buffer B) : Prop :=
  (∀ byte ∈ buffer.content, byte = Byte.zero) ∧ buffer.size = 0

/-- The bytes from a position up to the capacity are zero. -/
def ZeroFrom (buffer : Buffer B) (start : ℕ) : Prop :=
  ∀ i, start ≤ i → ∀ byte ∈ buffer.content[i]?, byte = Byte.zero

theorem ZeroFrom.mono {buffer : Buffer B} {start start' : ℕ} (h : buffer.ZeroFrom start)
    (hle : start ≤ start') : buffer.ZeroFrom start' :=
  fun i hi => h i (hle.trans hi)

theorem zeroFrom_of_capacity_le {buffer : Buffer B} {start : ℕ} (h : buffer.capacity ≤ start) :
    buffer.ZeroFrom start := by
  intro i hi byte hbyte
  rw [List.getElem?_eq_none (h.trans hi)] at hbyte
  cases hbyte

theorem clear_erased_iff (buffer : Buffer B) :
    buffer.clear.Erased ↔ buffer.ZeroFrom buffer.size := by
  have hroom : 0 + (List.replicate buffer.size (Byte.zero : B)).length ≤ buffer.content.length := by
    rw [List.length_replicate, Nat.zero_add]
    exact buffer.contentLength_le
  by_cases hcapacity : buffer.capacity = 0
  · have hsize : buffer.size = 0 :=
      Nat.eq_zero_of_le_zero (hcapacity ▸ buffer.contentLength_le)
    have hcontent : buffer.content = [] := List.eq_nil_of_length_eq_zero hcapacity
    rw [clear, if_pos hcapacity, Erased, hcontent, hsize]
    exact ⟨fun _ => zeroFrom_of_capacity_le hcapacity.le, fun _ => ⟨by simp, rfl⟩⟩
  · rw [clear, if_neg hcapacity]
    constructor
    · rintro ⟨hzero, -⟩ i hi byte hbyte
      refine hzero byte (List.mem_of_getElem? (i := i) ?_)
      rw [getElem?_overwrite hroom (by rwa [List.length_replicate, Nat.zero_add])]
      exact hbyte
    · intro h
      refine ⟨fun byte hbyte => ?_, rfl⟩
      rcases List.mem_append.mp hbyte with htake | hbyte
      · rw [List.take_zero] at htake
        cases htake
      rcases List.mem_append.mp hbyte with hnew | hold
      · exact List.eq_of_mem_replicate hnew
      · obtain ⟨i, hi⟩ := List.mem_iff_getElem?.mp hold
        rw [List.getElem?_drop, List.length_replicate] at hi
        exact h _ (by omega) byte hi

section Steps

variable {buffer : Buffer B}

omit [Byte B] in
theorem content_copyIn {offset : ℕ} {bytes : List B}
    (h : offset + bytes.length ≤ buffer.capacity) {i : ℕ} (hi : offset + bytes.length ≤ i) :
    (buffer.copyIn offset bytes h).content[i]? = buffer.content[i]? :=
  getElem?_overwrite h hi

theorem zeroFrom_copyIn_iff {offset start : ℕ} {bytes : List B}
    (h : offset + bytes.length ≤ buffer.capacity) (hstart : offset + bytes.length ≤ start) :
    (buffer.copyIn offset bytes h).ZeroFrom start ↔ buffer.ZeroFrom start := by
  refine forall_congr' fun i => forall_congr' fun hi => ?_
  rw [content_copyIn h (hstart.trans hi)]

theorem zeroFrom_copyIn {offset : ℕ} {bytes : List B}
    (h : offset + bytes.length ≤ buffer.capacity) (hzero : buffer.ZeroFrom buffer.size) :
    (buffer.copyIn offset bytes h).ZeroFrom (buffer.copyIn offset bytes h).size :=
  (zeroFrom_copyIn_iff h (le_max_right _ _)).mpr (hzero.mono (le_max_left _ _))

theorem zeroFrom_copyFrom (hzero : buffer.ZeroFrom buffer.size) (destinationOffset : ℕ)
    (source : Buffer B) (sourceOffset copyLength : ℕ) :
    let copied := (buffer.copyFrom destinationOffset source sourceOffset copyLength).2
    copied.ZeroFrom copied.size := by
  unfold copyFrom
  split
  · split
    · exact hzero
    · generalize_proofs hroom
      exact zeroFrom_copyIn hroom hzero
  · exact hzero

theorem zeroFrom_copyFromRaw (hzero : buffer.ZeroFrom buffer.size) (destinationOffset : ℕ)
    (source : ℕ → B) (sourceOffset copyLength : ℕ) :
    let copied := (buffer.copyFromRaw destinationOffset source sourceOffset copyLength).2
    copied.ZeroFrom copied.size := by
  unfold copyFromRaw
  split
  · split
    · exact hzero
    · generalize_proofs hroom
      exact zeroFrom_copyIn hroom hzero
  · exact hzero

theorem zeroFrom_writeData_iff (hzero : buffer.ZeroFrom buffer.size) (index : ℕ) (byte : B) :
    (buffer.writeData index byte).ZeroFrom (buffer.writeData index byte).size ↔
      (buffer.size ≤ index → index < buffer.capacity → byte = Byte.zero) := by
  constructor
  · intro h hindex hcapacity
    refine h index hindex byte ?_
    exact List.getElem?_set_self hcapacity
  · intro h i hi other hother
    change other ∈ (buffer.content.set index byte)[i]? at hother
    by_cases heq : index = i
    · subst heq
      by_cases hcapacity : index < buffer.capacity
      · rw [List.getElem?_set_self hcapacity, Option.mem_some_iff] at hother
        exact hother ▸ h hi hcapacity
      · rw [List.getElem?_eq_none (by rw [List.length_set]; exact not_lt.mp hcapacity)] at hother
        cases hother
    · rw [List.getElem?_set_ne heq] at hother
      exact hzero i hi other hother

theorem zeroFrom_setSize_iff (hzero : buffer.ZeroFrom buffer.size) (size : ℕ) :
    (buffer.setSize size).2.ZeroFrom (buffer.setSize size).2.size ↔ buffer.ZeroFrom size := by
  rw [setSize]
  split
  · rfl
  · rename_i hcapacity
    exact iff_of_true hzero (zeroFrom_of_capacity_le (not_le.mp hcapacity).le)

theorem zeroFrom_clone_iff {size : ℕ} (hsize : size ≤ buffer.capacity) {bytes : List B}
    (hlength : bytes.length = size)
    (h : 0 + bytes.length ≤ (buffer.withSize size hsize).capacity) :
    let cloned := (buffer.withSize size hsize).copyIn 0 bytes h
    cloned.ZeroFrom cloned.size ↔ buffer.ZeroFrom size := by
  intro cloned
  have hcloned : cloned.size = size := by
    change max size (0 + bytes.length) = size
    rw [Nat.zero_add, hlength, max_self]
  rw [hcloned]
  exact zeroFrom_copyIn_iff h (by omega)

theorem zeroFrom_cloneFrom_iff (hzero : buffer.ZeroFrom buffer.size) (source : Buffer B) :
    (buffer.cloneFrom source).2.ZeroFrom (buffer.cloneFrom source).2.size ↔
      buffer.ZeroFrom source.size := by
  rw [cloneFrom]
  split
  · rename_i hcapacity
    rw [copyFrom, dif_pos ⟨Nat.zero_le _, hcapacity, Nat.zero_le _, le_rfl⟩]
    split
    · rfl
    · have hlength : (slice source.bytes 0 source.size).length = source.size := by
        rw [slice, List.drop_zero, List.length_take, length_bytes, min_self]
      generalize_proofs hroom
      exact zeroFrom_clone_iff hcapacity hlength hroom
  · rename_i hcapacity
    exact iff_of_true hzero (zeroFrom_of_capacity_le (not_le.mp hcapacity).le)

theorem zeroFrom_cloneFromRaw_iff (hzero : buffer.ZeroFrom buffer.size) (source : Span B) :
    (buffer.cloneFromRaw source).2.ZeroFrom (buffer.cloneFromRaw source).2.size ↔
      buffer.ZeroFrom source.size := by
  rw [cloneFromRaw]
  split
  · rename_i hcapacity
    rw [copyFromRaw, dif_pos ⟨Nat.zero_le _, hcapacity⟩]
    split
    · rfl
    · have hlength : ((List.range source.size).map fun i => source.data (0 + i)).length =
          source.size := by
        rw [List.length_map, List.length_range]
      generalize_proofs hroom
      exact zeroFrom_clone_iff hcapacity hlength hroom
  · rename_i hcapacity
    exact iff_of_true hzero (zeroFrom_of_capacity_le (not_le.mp hcapacity).le)

end Steps

/-- The operations that leave no byte behind the size that is not zero, if there was none
before. -/
def LeavesZero (buffer : Buffer B) : Operation B → Prop
  | .write _ _ => True
  | .writeData index byte =>
      buffer.size ≤ index → index < buffer.capacity → byte = Byte.zero
  | .copyFrom _ _ _ _ => True
  | .cloneFrom source => buffer.ZeroFrom source.size
  | .copyFromRaw _ _ _ _ => True
  | .cloneFromRaw source => buffer.ZeroFrom source.size
  | .setSize size => buffer.ZeroFrom size

theorem zeroFrom_call_iff (buffer : Buffer B) (operation : Operation B)
    (hzero : buffer.ZeroFrom buffer.size) :
    (buffer.call operation).2.ZeroFrom (buffer.call operation).2.size ↔
      buffer.LeavesZero operation := by
  cases operation with
  | write index byte =>
      refine iff_of_true ?_ trivial
      rw [call, write]
      split
      · exact hzero
      · rename_i hindex
        exact (zeroFrom_writeData_iff hzero index byte).mpr fun h => absurd h hindex
  | writeData index byte => exact zeroFrom_writeData_iff hzero index byte
  | copyFrom destinationOffset source sourceOffset copyLength =>
      exact iff_of_true (zeroFrom_copyFrom hzero _ _ _ _) trivial
  | cloneFrom source => exact zeroFrom_cloneFrom_iff hzero source
  | copyFromRaw destinationOffset source sourceOffset copyLength =>
      exact iff_of_true (zeroFrom_copyFromRaw hzero _ _ _ _) trivial
  | cloneFromRaw source => exact zeroFrom_cloneFromRaw_iff hzero source
  | setSize size => exact zeroFrom_setSize_iff hzero size

/-- A buffer is erased if the bytes behind its size are zero when it is cleared. That it could
be cleared so at any time of a run is a matter of what it starts from and of the operations
that shrink it or write behind its size. -/
theorem clear_erases_iff (buffer : Buffer B) (operations : List (Operation B)) :
    ((Runs.final call buffer operations).clear.Erased ↔
      (Runs.final call buffer operations).ZeroFrom (Runs.final call buffer operations).size) ∧
    ((∀ before after, operations = before ++ after →
        (Runs.final call buffer before).clear.Erased) ↔
      buffer.ZeroFrom buffer.size ∧ Runs.Admitted call LeavesZero buffer operations) := by
  refine ⟨clear_erased_iff _, ?_⟩
  simp only [clear_erased_iff]
  constructor
  · intro h
    have hstart := h [] operations rfl
    exact ⟨hstart, (Runs.forall_holds_iff_admitted (fun buffer => buffer.ZeroFrom buffer.size)
      zeroFrom_call_iff hstart).mp h⟩
  · rintro ⟨hstart, hadmitted⟩
    exact (Runs.forall_holds_iff_admitted (fun buffer => buffer.ZeroFrom buffer.size)
      zeroFrom_call_iff hstart).mpr hadmitted

end Buffer

end Erasure

namespace BufferSamples

/-- The second byte of the longer content outlives the clearing. -/
theorem clear_leaves_content :
    let written := Runs.final Buffer.call
      (⟨[0, 0], 0, by decide, by decide⟩ : Buffer UInt8)
      [.cloneFromRaw two.toSpan, .cloneFromRaw one.toSpan]
    written.clear.content = [0, 2] ∧ ¬ written.clear.Erased := by
  intro written
  have hcontent : written.clear.content = [0, 2] := by decide
  refine ⟨hcontent, fun herased => ?_⟩
  exact absurd (herased.1 2 (by rw [hcontent]; decide)) (by decide)

end BufferSamples

end Molch
