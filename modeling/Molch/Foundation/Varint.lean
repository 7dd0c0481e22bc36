import Molch.Foundation.Result
import Molch.Foundation.Wire

namespace Wire

variable {α : Type}

/-- How reading fails: the bytes are not in the format, or the reader leaves the memory that
it was given. -/
inductive Defect where
  | malformed
  | outOfBounds
deriving DecidableEq

section Packing

variable (byte : UInt8 → α)

/-- `int32_size` of the two's complement number. -/
def int32Size (value : UInt32) : ℕ :=
  if value.toNat < 2 ^ 31 then uint32Size value else 10

/-- `uint64_pack`: the two halves of the number meet in the fifth byte. -/
def uint64Pack (value : UInt64) : List α :=
  let hi := value.toNat / 2 ^ 32
  let lo := value.toNat % 2 ^ 32
  if hi = 0 then uint32Pack byte (UInt32.ofNat lo)
  else
    byte (UInt8.ofNat (lo % 128 + 128)) :: byte (UInt8.ofNat (lo / 2 ^ 7 % 128 + 128)) ::
      byte (UInt8.ofNat (lo / 2 ^ 14 % 128 + 128)) ::
      byte (UInt8.ofNat (lo / 2 ^ 21 % 128 + 128)) ::
      if hi < 8 then [byte (UInt8.ofNat (hi * 16 + lo / 2 ^ 28))]
      else byte (UInt8.ofNat (hi % 8 * 16 + lo / 2 ^ 28 + 128)) :: digits byte 4 (hi / 8)

def uint64Size (value : UInt64) : ℕ :=
  let upper := value.toNat / 2 ^ 32
  if upper = 0 then uint32Size (UInt32.ofNat value.toNat)
  else if upper < 2 ^ 3 then 5
  else if upper < 2 ^ 10 then 6
  else if upper < 2 ^ 17 then 7
  else if upper < 2 ^ 24 then 8
  else if upper < 2 ^ 31 then 9
  else 10

def booleanPack (value : Bool) : List α := [byte (if value then 1 else 0)]

def tagSize (id : ℕ) : ℕ :=
  if id < 2 ^ 4 then 1
  else if id < 2 ^ 11 then 2
  else if id < 2 ^ 18 then 3
  else if id < 2 ^ 25 then 4
  else 5

theorem uint32Size_le (value : UInt32) : uint32Size value ≤ 5 := by
  rw [uint32Size]
  split_ifs <;> omega

theorem int32Size_le (value : UInt32) : int32Size value ≤ 10 := by
  have hsize := uint32Size_le value
  rw [int32Size]
  split
  · omega
  · exact le_rfl

theorem uint64Size_le (value : UInt64) : uint64Size value ≤ 10 := by
  have hsize := uint32Size_le (UInt32.ofNat value.toNat)
  rw [uint64Size]
  split_ifs <;> omega

theorem digits_of_lt {value : ℕ} (h : value < 128) (more : ℕ) :
    digits byte more value = [byte (UInt8.ofNat value)] := by
  cases more with
  | zero => rfl
  | succ more => rw [digits, if_pos h]

theorem digits_of_le {value : ℕ} (h : 128 ≤ value) (more : ℕ) :
    digits byte (more + 1) value =
      byte (UInt8.ofNat (value % 128 + 128)) :: digits byte more (value / 128) := by
  rw [digits, if_neg (not_lt.mpr h)]

theorem digits_add {more value : ℕ} (h : value < 128 ^ (more + 1)) (further : ℕ) :
    digits byte (more + further) value = digits byte more value := by
  induction more generalizing value with
  | zero => rw [digits_of_lt byte (by simpa using h), digits_of_lt byte (by simpa using h)]
  | succ more ih =>
      rcases Nat.lt_or_ge value 128 with hlt | hle
      · rw [digits_of_lt byte hlt, digits_of_lt byte hlt]
      · have hrest : value / 128 < 128 ^ (more + 1) := by
          rw [Nat.div_lt_iff_lt_mul (by decide)]
          rwa [pow_succ] at h
        rw [Nat.add_right_comm, digits_of_le byte hle, digits_of_le byte hle, ih hrest]

theorem uint32Pack_eq_digits (value : UInt32) (further : ℕ) :
    uint32Pack byte value = digits byte (4 + further) value.toNat := by
  have hlt : value.toNat < 2 ^ 32 := value.toNat_lt
  rw [uint32Pack, digits_add byte (by omega)]

theorem int32Pack_eq_digits {value : UInt32} (hneg : ¬ value.toNat < 2 ^ 31) :
    int32Pack byte value = digits byte 9 (value.toNat + (2 ^ 64 - 2 ^ 32)) := by
  have hlt : value.toNat < 2 ^ 32 := value.toNat_lt
  rw [int32Pack, if_neg hneg]
  generalize value.toNat = n at *
  rw [digits_of_le byte (by omega), digits_of_le byte (by omega), digits_of_le byte (by omega),
    digits_of_le byte (by omega), digits_of_le byte (by omega), digits_of_le byte (by omega),
    digits_of_le byte (by omega), digits_of_le byte (by omega), digits_of_le byte (by omega),
    digits_of_lt byte (by omega)]
  have h1 : (n + (2 ^ 64 - 2 ^ 32)) % 128 = n % 128 := by omega
  have h2 : (n + (2 ^ 64 - 2 ^ 32)) / 128 % 128 = n / 2 ^ 7 % 128 := by omega
  have h3 : (n + (2 ^ 64 - 2 ^ 32)) / 128 / 128 % 128 = n / 2 ^ 14 % 128 := by omega
  have h4 : (n + (2 ^ 64 - 2 ^ 32)) / 128 / 128 / 128 % 128 = n / 2 ^ 21 % 128 := by omega
  have h5 : (n + (2 ^ 64 - 2 ^ 32)) / 128 / 128 / 128 / 128 % 128 + 128 = n / 2 ^ 28 + 240 := by
    omega
  generalize htop : (n + (2 ^ 64 - 2 ^ 32)) / 128 / 128 / 128 / 128 / 128 = top
  have hvalue : top = 2 ^ 29 - 1 := by omega
  rw [h1, h2, h3, h4, h5, hvalue]
  rfl

theorem uint64Pack_eq_digits (value : UInt64) :
    uint64Pack byte value = digits byte 9 value.toNat := by
  have hlt : value.toNat < 2 ^ 64 := value.toNat_lt
  rw [uint64Pack]
  generalize value.toNat = n at hlt
  by_cases hhi : n / 2 ^ 32 = 0
  · have hlo : (UInt32.ofNat (n % 2 ^ 32)).toNat = n := by
      rw [UInt32.toNat_ofNat', Nat.mod_mod]
      omega
    simp only [hhi, if_true]
    rw [uint32Pack_eq_digits byte _ 5, hlo]
  · have hdigits : digits byte 9 n = byte (UInt8.ofNat (n % 128 + 128)) ::
        byte (UInt8.ofNat (n / 128 % 128 + 128)) :: byte (UInt8.ofNat (n / 128 / 128 % 128 + 128)) ::
        byte (UInt8.ofNat (n / 128 / 128 / 128 % 128 + 128)) ::
        digits byte 5 (n / 128 / 128 / 128 / 128) := by
      rw [digits_of_le byte (by omega), digits_of_le byte (by omega),
        digits_of_le byte (by omega), digits_of_le byte (by omega)]
    have h1 : n % 2 ^ 32 % 128 = n % 128 := by omega
    have h2 : n % 2 ^ 32 / 2 ^ 7 % 128 = n / 128 % 128 := by omega
    have h3 : n % 2 ^ 32 / 2 ^ 14 % 128 = n / 128 / 128 % 128 := by omega
    have h4 : n % 2 ^ 32 / 2 ^ 21 % 128 = n / 128 / 128 / 128 % 128 := by omega
    simp only [hhi, if_false]
    rw [hdigits, h1, h2, h3, h4]
    split
    · have hlast : n / 2 ^ 32 * 16 + n % 2 ^ 32 / 2 ^ 28 = n / 128 / 128 / 128 / 128 := by omega
      rw [digits_of_lt byte (by omega), hlast]
    · have hfifth : n / 2 ^ 32 % 8 * 16 + n % 2 ^ 32 / 2 ^ 28 =
          n / 128 / 128 / 128 / 128 % 128 := by omega
      have hrest : n / 2 ^ 32 / 8 = n / 128 / 128 / 128 / 128 / 128 := by omega
      have hdigits' : digits byte 5 (n / 128 / 128 / 128 / 128) = _ :=
        digits_of_le byte (by omega) 4
      rw [hdigits', hfifth, hrest]

theorem length_digits_pos (more value : ℕ) : 0 < (digits byte more value).length := by
  cases more with
  | zero => exact Nat.one_pos
  | succ more =>
      rw [digits]
      split
      · exact Nat.one_pos
      · exact Nat.succ_pos _

theorem length_digits_le (more value : ℕ) : (digits byte more value).length ≤ more + 1 := by
  induction more generalizing value with
  | zero => exact le_rfl
  | succ more ih =>
      rw [digits]
      split
      · exact Nat.succ_le_succ (Nat.zero_le _)
      · exact Nat.succ_le_succ (ih _)

theorem lt_length_digits {more value k : ℕ} (hk : k ≤ more) (hle : 128 ^ k ≤ value) :
    k < (digits byte more value).length := by
  induction k generalizing more value with
  | zero => exact length_digits_pos byte more value
  | succ k ih =>
      obtain ⟨more, rfl⟩ : ∃ m, more = m + 1 := ⟨more - 1, by omega⟩
      have hpos : 0 < 128 ^ k := Nat.pow_pos (by decide)
      rw [pow_succ] at hle
      rw [digits_of_le byte (by omega), List.length_cons]
      refine Nat.succ_lt_succ (ih (by omega) ?_)
      rwa [Nat.le_div_iff_mul_le (by decide)]

theorem length_digits {more value k : ℕ} (hk : k ≤ more) (hle : 128 ^ k ≤ value)
    (hlt : value < 128 ^ (k + 1)) : (digits byte more value).length = k + 1 := by
  have hlower := lt_length_digits byte hk hle
  have hupper := length_digits_le byte k value
  obtain ⟨further, rfl⟩ := Nat.exists_eq_add_of_le hk
  rw [digits_add byte hlt] at hlower ⊢
  omega

@[simp] theorem length_booleanPack (value : Bool) : (booleanPack byte value).length = 1 := rfl

theorem length_int32Pack (value : UInt32) : (int32Pack byte value).length = int32Size value := by
  rw [int32Pack, int32Size]
  split
  · exact length_uint32Pack byte value
  · rfl

theorem length_uint64Pack (value : UInt64) : (uint64Pack byte value).length = uint64Size value := by
  have hlt : value.toNat < 2 ^ 64 := value.toNat_lt
  rw [uint64Size]
  by_cases hupper : value.toNat / 2 ^ 32 = 0
  · rw [uint64Pack]
    simp only [hupper, if_true]
    rw [length_uint32Pack]
    congr 2
    omega
  · rw [uint64Pack_eq_digits]
    generalize value.toNat = n at hlt hupper
    simp only [hupper, if_false]
    split_ifs
    · exact length_digits byte (k := 4) (by decide) (by omega) (by omega)
    · exact length_digits byte (k := 5) (by decide) (by omega) (by omega)
    · exact length_digits byte (k := 6) (by decide) (by omega) (by omega)
    · exact length_digits byte (k := 7) (by decide) (by omega) (by omega)
    · exact length_digits byte (k := 8) (by decide) (by omega) (by omega)
    · exact length_digits byte (k := 9) (by decide) (by omega) (by omega)

end Packing

section Reading

variable (byte : UInt8 → α) (value : α → UInt8)

/-- The number whose digits are the seven low bits of the bytes. -/
def digitsValue : List α → ℕ
  | [] => 0
  | b :: bytes => (value b).toNat % 128 + 128 * digitsValue bytes

/-- The loop that looks for the end of a number, which is a byte without the bit 0x80, among
the next `max` bytes. The result is how many bytes the number has. -/
def scanVarint : (max : ℕ) → List α → Except Defect ℕ
  | 0, _ => .error .malformed
  | _ + 1, [] => .error .outOfBounds
  | max + 1, b :: bytes =>
      if (value b).toNat < 128 then .ok 1 else (scanVarint max bytes).map (· + 1)

/-- `parse_uint32` and `parse_int32`. What goes beyond 32 bits is lost. -/
def parseUint32 (len : ℕ) (data : List α) : UInt32 :=
  UInt32.ofNat (digitsValue value (data.take (min len 5)))

def parseUint64 (len : ℕ) (data : List α) : UInt64 :=
  if len < 5 then UInt64.ofNat (parseUint32 value len data).toNat
  else UInt64.ofNat (digitsValue value (data.take len))

def parseBoolean (len : ℕ) (data : List α) : Bool :=
  (data.take len).any fun b => (value b).toNat % 128 ≠ 0

def parseFixedUint32 (data : List α) : UInt32 :=
  UInt32.ofNat ((data.take 4).foldr (fun b x => (value b).toNat + 256 * x) 0)

theorem scanVarint_mono {max len : ℕ} {data : List α} (h : scanVarint value max data = .ok len)
    {max' : ℕ} (hmax : max ≤ max') : scanVarint value max' data = .ok len := by
  induction max generalizing len data max' with
  | zero => cases h
  | succ max ih =>
      obtain ⟨max', rfl⟩ : ∃ m, max' = m + 1 := ⟨max' - 1, by omega⟩
      cases data with
      | nil => cases h
      | cons b bytes =>
          rw [scanVarint] at h ⊢
          split
          · rename_i hlt
            rwa [if_pos hlt] at h
          · rename_i hle
            rw [if_neg hle] at h
            obtain ⟨len', hlen', rfl⟩ := Result.map_eq_ok.mp h
            rw [ih hlen' (by omega)]
            rfl

theorem scanVarint_bounds {max len : ℕ} {data : List α}
    (h : scanVarint value max data = .ok len) : 0 < len ∧ len ≤ max ∧ len ≤ data.length := by
  induction max generalizing len data with
  | zero => cases h
  | succ max ih =>
      cases data with
      | nil => cases h
      | cons b bytes =>
          rw [scanVarint] at h
          rw [List.length_cons]
          split at h
          · cases h
            omega
          · obtain ⟨len', hlen', rfl⟩ := Result.map_eq_ok.mp h
            have hbounds := ih hlen'
            omega

theorem exists_cons_of_scanVarint {max len : ℕ} {data : List α}
    (h : scanVarint value (max + 1) data = .ok (len + 2)) :
    ∃ b bytes, data = b :: bytes ∧ 128 ≤ (value b).toNat ∧
      scanVarint value max bytes = .ok (len + 1) := by
  cases data with
  | nil => cases h
  | cons b bytes =>
      rw [scanVarint] at h
      split at h
      · cases h
      · rename_i hcontinues
        obtain ⟨len', hlen', heq⟩ := Result.map_eq_ok.mp h
        obtain rfl : len' = len + 1 := by omega
        exact ⟨b, bytes, rfl, not_lt.mp hcontinues, hlen'⟩

theorem digitsValue_lt (data : List α) : digitsValue value data < 128 ^ data.length := by
  induction data with
  | nil => exact Nat.one_pos
  | cons b bytes ih =>
      rw [digitsValue, List.length_cons, pow_succ]
      omega

theorem scanVarint_ne_outOfBounds {max : ℕ} {data : List α} (h : max ≤ data.length) :
    scanVarint value max data ≠ .error .outOfBounds := by
  induction max generalizing data with
  | zero => simp [scanVarint]
  | succ max ih =>
      cases data with
      | nil => simp at h
      | cons b bytes =>
          rw [scanVarint]
          split
          · simp
          · rw [ne_eq, Result.map_eq_error]
            exact ih (by simpa using h)

section Append

-- What is parsed does not depend on the bytes behind the member.
variable {len : ℕ} {data : List α} (rest : List α)

theorem parseUint32_append (hlen : len ≤ data.length) :
    parseUint32 value len (data ++ rest) = parseUint32 value len data := by
  rw [parseUint32, parseUint32, List.take_append_of_le_length (by omega)]

theorem parseUint64_append (hlen : len ≤ data.length) :
    parseUint64 value len (data ++ rest) = parseUint64 value len data := by
  rw [parseUint64, parseUint64, parseUint32_append value rest hlen,
    List.take_append_of_le_length hlen]

theorem parseBoolean_append (hlen : len ≤ data.length) :
    parseBoolean value len (data ++ rest) = parseBoolean value len data := by
  rw [parseBoolean, parseBoolean, List.take_append_of_le_length hlen]

theorem parseFixedUint32_append (hlen : 4 ≤ data.length) :
    parseFixedUint32 value (data ++ rest) = parseFixedUint32 value data := by
  rw [parseFixedUint32, parseFixedUint32, List.take_append_of_le_length hlen]

end Append

variable {byte value} (hvalue : ∀ x, value (byte x) = x)

include hvalue

theorem scanVarint_digits {more n : ℕ} (hn : n < 128 ^ (more + 1)) (rest : List α) {max : ℕ}
    (hmax : (digits byte more n).length ≤ max) :
    scanVarint value max (digits byte more n ++ rest) = .ok (digits byte more n).length := by
  refine scanVarint_mono value ?_ hmax
  clear hmax
  induction more generalizing n with
  | zero =>
      have hlt : (value (byte (UInt8.ofNat n))).toNat < 128 := by
        rw [hvalue, UInt8.toNat_ofNat']
        omega
      rw [digits, List.singleton_append, List.length_singleton, scanVarint, if_pos hlt]
  | succ more ih =>
      rcases Nat.lt_or_ge n 128 with hlt | hle
      · have hlast : (value (byte (UInt8.ofNat n))).toNat < 128 := by
          rw [hvalue, UInt8.toNat_ofNat']
          omega
        rw [digits_of_lt byte hlt, List.singleton_append, List.length_singleton, scanVarint,
          if_pos hlast]
      · have hcontinues : ¬ (value (byte (UInt8.ofNat (n % 128 + 128)))).toNat < 128 := by
          rw [hvalue, UInt8.toNat_ofNat']
          omega
        have hrest : n / 128 < 128 ^ (more + 1) := by
          rw [Nat.div_lt_iff_lt_mul (by decide)]
          rwa [pow_succ] at hn
        rw [digits_of_le byte hle, List.cons_append, List.length_cons, scanVarint,
          if_neg hcontinues, ih hrest]
        rfl

theorem digitsValue_digits {more n : ℕ} (hn : n < 128 ^ (more + 1)) :
    digitsValue value (digits byte more n) = n := by
  induction more generalizing n with
  | zero =>
      rw [digits, digitsValue, digitsValue, hvalue, UInt8.toNat_ofNat']
      omega
  | succ more ih =>
      rcases Nat.lt_or_ge n 128 with hlt | hle
      · rw [digits_of_lt byte hlt, digitsValue, digitsValue, hvalue, UInt8.toNat_ofNat']
        omega
      · have hrest : n / 128 < 128 ^ (more + 1) := by
          rw [Nat.div_lt_iff_lt_mul (by decide)]
          rwa [pow_succ] at hn
        rw [digits_of_le byte hle, digitsValue, ih hrest, hvalue, UInt8.toNat_ofNat']
        omega

theorem scanVarint_uint32Pack (v : UInt32) (rest : List α) {max : ℕ}
    (hmax : (uint32Pack byte v).length ≤ max) :
    scanVarint value max (uint32Pack byte v ++ rest) = .ok (uint32Pack byte v).length := by
  have hlt : v.toNat < 2 ^ 32 := v.toNat_lt
  exact scanVarint_digits hvalue (by omega) rest hmax

theorem digitsValue_uint32Pack (v : UInt32) (rest : List α) :
    digitsValue value ((uint32Pack byte v ++ rest).take (uint32Pack byte v).length) =
      v.toNat := by
  have hlt : v.toNat < 2 ^ 32 := v.toNat_lt
  rw [List.take_left]
  exact digitsValue_digits hvalue (by omega)

theorem parseUint32_uint32Pack (v : UInt32) (rest : List α) :
    parseUint32 value (uint32Pack byte v).length (uint32Pack byte v ++ rest) = v := by
  have hle : (uint32Pack byte v).length ≤ 5 := length_digits_le byte 4 _
  rw [parseUint32, min_eq_left hle, digitsValue_uint32Pack hvalue, UInt32.ofNat_toNat]

theorem scanVarint_int32Pack (v : UInt32) (rest : List α) {max : ℕ}
    (hmax : (int32Pack byte v).length ≤ max) :
    scanVarint value max (int32Pack byte v ++ rest) = .ok (int32Pack byte v).length := by
  by_cases hnonneg : v.toNat < 2 ^ 31
  · have heq : int32Pack byte v = uint32Pack byte v := if_pos hnonneg
    rw [heq] at hmax ⊢
    exact scanVarint_uint32Pack hvalue v rest hmax
  · have hlt : v.toNat < 2 ^ 32 := v.toNat_lt
    rw [int32Pack_eq_digits byte hnonneg] at hmax ⊢
    exact scanVarint_digits hvalue (by omega) rest hmax

theorem parseUint32_int32Pack (v : UInt32) (rest : List α) :
    parseUint32 value (int32Pack byte v).length (int32Pack byte v ++ rest) = v := by
  rw [int32Pack]
  split
  · exact parseUint32_uint32Pack hvalue v rest
  · have hlt : v.toNat < 2 ^ 32 := v.toNat_lt
    apply UInt32.toNat_inj.mp
    simp only [parseUint32, List.length_cons, List.length_nil, Nat.reduceAdd, Nat.reduceLeDiff,
      min_eq_right, List.cons_append, List.take_succ_cons, List.take_zero, digitsValue, hvalue,
      UInt8.toNat_ofNat', UInt32.toNat_ofNat']
    omega

theorem scanVarint_uint64Pack (v : UInt64) (rest : List α) {max : ℕ}
    (hmax : (uint64Pack byte v).length ≤ max) :
    scanVarint value max (uint64Pack byte v ++ rest) = .ok (uint64Pack byte v).length := by
  have hlt : v.toNat < 2 ^ 64 := v.toNat_lt
  rw [uint64Pack_eq_digits] at hmax ⊢
  exact scanVarint_digits hvalue (by omega) rest hmax

theorem parseUint64_uint64Pack (v : UInt64) (rest : List α) :
    parseUint64 value (uint64Pack byte v).length (uint64Pack byte v ++ rest) = v := by
  have hlt : v.toNat < 2 ^ 64 := v.toNat_lt
  have hdigits : digitsValue value (uint64Pack byte v) = v.toNat := by
    rw [uint64Pack_eq_digits]
    exact digitsValue_digits hvalue (by omega)
  rw [parseUint64, parseUint32, List.take_left]
  split
  · rename_i hshort
    have hsmall : v.toNat < 2 ^ 32 := by
      by_contra hbig
      rw [uint64Pack_eq_digits] at hshort
      have hlong := lt_length_digits byte (show 4 ≤ 9 by decide) (show 128 ^ 4 ≤ v.toNat by omega)
      omega
    rw [min_eq_left (by omega), List.take_left, hdigits, UInt32.toNat_ofNat',
      Nat.mod_eq_of_lt hsmall, UInt64.ofNat_toNat]
  · rw [hdigits, UInt64.ofNat_toNat]

theorem scanVarint_booleanPack (b : Bool) (rest : List α) {max : ℕ} (hmax : 1 ≤ max) :
    scanVarint value max (booleanPack byte b ++ rest) = .ok 1 := by
  refine scanVarint_mono value ?_ hmax
  cases b with
  | false => simp [booleanPack, scanVarint, hvalue]
  | true => simp [booleanPack, scanVarint, hvalue]

theorem parseBoolean_booleanPack (b : Bool) (rest : List α) :
    parseBoolean value 1 (booleanPack byte b ++ rest) = b := by
  cases b with
  | false => simp [parseBoolean, booleanPack, hvalue]
  | true => simp [parseBoolean, booleanPack, hvalue]

theorem parseFixedUint32_fixed32Pack (v : UInt32) (rest : List α) :
    parseFixedUint32 value (fixed32Pack byte v ++ rest) = v := by
  have hlt : v.toNat < 2 ^ 32 := v.toNat_lt
  apply UInt32.toNat_inj.mp
  simp only [parseFixedUint32, fixed32Pack, List.cons_append, List.take_succ_cons, List.take_zero,
    List.foldr_cons, List.foldr_nil, hvalue, UInt8.toNat_ofNat', UInt32.toNat_ofNat']
  omega

end Reading

end Wire
