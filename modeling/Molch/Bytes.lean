import Mathlib.Data.List.Lex
import Mathlib.Data.List.TakeDrop
import Mathlib.Tactic.Ring

namespace Molch

/-- An alphabet containing the values of `std::byte`. -/
class Byte (B : Type) extends LinearOrder B where
  ofUInt8 : UInt8 → B
  toUInt8 : B → UInt8
  toUInt8_ofUInt8 : ∀ x, toUInt8 (ofUInt8 x) = x

instance : Byte UInt8 where
  __ := LinearOrder.lift' UInt8.toNat (fun _ _ => UInt8.toNat_inj.mp)
  ofUInt8 := id
  toUInt8 := id
  toUInt8_ofUInt8 _ := rfl

/-- `status_type` of the C interface. -/
inductive StatusType where
  | success | genericError | invalidValue | incorrectBufferSize | bufferError
  | incorrectData | initError | allocationFailed | notFound | verificationFailed
  | exportError | importError | keygenerationFailed | keyderivationFailed
  | sendError | receiveError | dataFetchError | dataSetError | encryptError
  | decryptError | conversionError | signError | verifyError | removeError
  | shouldntHappen | invalidState | outdated | protobufPackError
  | protobufUnpackError | protobufMissingError | unsupportedProtocolVersion
  | exception | expectationFailed
deriving DecidableEq, Repr

/-- The error of a `result<T>`. -/
structure Error where
  type : StatusType
  message : String
deriving DecidableEq, Repr

/-- What `FulfillOrFail` returns. The macro pastes the name `__LINE__` and not its
value into the message. -/
def expectationFailed (file : String) : Error :=
  ⟨.expectationFailed, "An expectation failed in line __LINE__ of file " ++ file⟩

/-- How a call can end without a value: an error handed back through `result<T>`,
a C++ exception, or the end of the process. -/
inductive Failure where
  | error (error : Error)
  | exception (what : String)
  | terminate
deriving DecidableEq, Repr

def prekeyAmount : ℕ := 100

variable {B : Type}

namespace Byte

variable [Byte B]

def zero : B := ofUInt8 0

/-- The byte 0x80 that starts the padding. -/
def barrier : B := ofUInt8 128

theorem ofUInt8_injective : Function.Injective (ofUInt8 : UInt8 → B) :=
  Function.LeftInverse.injective toUInt8_ofUInt8

theorem barrier_ne_zero : (barrier : B) ≠ zero := by
  intro h
  exact absurd (ofUInt8_injective h) (by decide)

end Byte

section Encoding

variable [Byte B]

/-- The `size` low bytes of `x`, most significant byte first. -/
def bigEndian (size x : ℕ) : List UInt8 :=
  (List.range size).reverse.map fun i => UInt8.ofNat (x / 256 ^ i)

@[simp] theorem length_bigEndian (size x : ℕ) : (bigEndian size x).length = size := by
  simp [bigEndian]

/-- `to_big_endian` of an unsigned integer of `size` bytes. -/
def toBigEndian (size x : ℕ) : List B :=
  (bigEndian size x).map Byte.ofUInt8

@[simp] theorem length_toBigEndian (size x : ℕ) :
    (toBigEndian size x : List B).length = size := by
  simp [toBigEndian]

/-- `from_big_endian` for an unsigned integer. -/
def fromBigEndian (bytes : List B) : ℕ :=
  bytes.foldl (fun x b => 256 * x + (Byte.toUInt8 b).toNat) 0

theorem bigEndian_succ (size x : ℕ) :
    bigEndian (size + 1) x = UInt8.ofNat (x / 256 ^ size) :: bigEndian size x := by
  simp [bigEndian, List.range_succ]

theorem foldl_toBigEndian (size x start : ℕ) :
    (toBigEndian size x : List B).foldl (fun x b => 256 * x + (Byte.toUInt8 b).toNat) start =
      start * 256 ^ size + x % 256 ^ size := by
  induction size generalizing start with
  | zero => simp [toBigEndian, bigEndian, Nat.mod_one]
  | succ size ih =>
      have hhead : (toBigEndian (size + 1) x : List B) =
          Byte.ofUInt8 (UInt8.ofNat (x / 256 ^ size)) :: toBigEndian size x := by
        simp [toBigEndian, bigEndian_succ]
      have hmod : x % 256 ^ (size + 1) =
          256 ^ size * (x / 256 ^ size % 256) + x % 256 ^ size := by
        rw [pow_succ, Nat.mod_mul, Nat.add_comm]
      rw [hhead, List.foldl_cons, ih, Byte.toUInt8_ofUInt8, hmod, UInt8.toNat_ofNat']
      ring

theorem fromBigEndian_toBigEndian (size x : ℕ) :
    fromBigEndian (toBigEndian size x : List B) = x % 256 ^ size := by
  simpa [fromBigEndian] using foldl_toBigEndian (B := B) size x 0

/-- `sodium_compare`: two strings of one length as little endian numbers. -/
def sodiumCompare (a b : List B) : ℤ :=
  if a.reverse < b.reverse then -1
  else if a.reverse = b.reverse then 0
  else 1

theorem sodiumCompare_eq_zero {a b : List B} : sodiumCompare a b = 0 ↔ a = b := by
  unfold sodiumCompare
  split
  · rename_i h
    constructor
    · intro h0
      exact absurd h0 (by decide)
    · rintro rfl
      exact absurd h (lt_irrefl _)
  · split
    · rename_i h
      simpa using h
    · rename_i h
      constructor
      · intro h0
        exact absurd h0 (by decide)
      · rintro rfl
        exact absurd rfl h

theorem sodiumCompare_eq_one_iff {a b : List B} :
    sodiumCompare a b = 1 ↔ sodiumCompare b a = -1 := by
  unfold sodiumCompare
  rcases lt_trichotomy a.reverse b.reverse with h | h | h
  · simp [h, not_lt_of_gt h, ne_of_gt h]
  · simp [h]
  · simp [h, not_lt_of_gt h, ne_of_gt h]

end Encoding

/-- `Key<n, keytype>`: an array of `n` bytes. -/
@[ext]
structure Key (B : Type) (n : ℕ) where
  bytes : List B
  length_bytes : bytes.length = n

namespace Key

variable {n : ℕ}

instance [DecidableEq B] : DecidableEq (Key B n) := fun a b =>
  decidable_of_iff (a.bytes = b.bytes) Key.ext_iff.symm

section Zero

variable [Byte B]

/-- The default constructor and `zero()`. -/
def zero : Key B n := ⟨List.replicate n Byte.zero, List.length_replicate⟩

def isZero (key : Key B n) : Bool := key.bytes.all (· == Byte.zero)

theorem isZero_iff {key : Key B n} : key.isZero = true ↔ key = zero := by
  rw [Key.ext_iff, isZero, List.all_eq_true]
  constructor
  · intro h
    exact List.eq_replicate_iff.mpr ⟨key.length_bytes, fun b hb => by simpa using h b hb⟩
  · intro h b hb
    rw [h] at hb
    simpa using List.eq_of_mem_replicate hb

@[simp] theorem isZero_zero : (zero : Key B n).isZero = true := isZero_iff.mpr rfl

end Zero

/-- `fromSpan` and `import`: the span must have exactly the length of the key. -/
def fromSpan (bytes : List B) : Except Error (Key B n) :=
  if h : bytes.length = n then .ok ⟨bytes, h⟩
  else .error (expectationFailed "lib/copy.hpp")

@[simp] theorem fromSpan_bytes (key : Key B n) : fromSpan key.bytes = .ok key := by
  simp [fromSpan, key.length_bytes]

theorem bytes_of_fromSpan {bytes : List B} {key : Key B n}
    (h : fromSpan bytes = .ok key) : key.bytes = bytes := by
  unfold fromSpan at h
  split at h
  · cases h
    rfl
  · cases h

end Key

/-- `EmptyableKey<n, keytype>`: the bytes and the flag beside them. -/
@[ext]
structure EmptyableKey (B : Type) (n : ℕ) where
  key : Key B n
  empty : Bool

namespace EmptyableKey

variable {n : ℕ}

instance [DecidableEq B] : DecidableEq (EmptyableKey B n) := fun a b =>
  decidable_of_iff (a.key = b.key ∧ a.empty = b.empty) EmptyableKey.ext_iff.symm

/-- The value of a zero initialised storage and of `clearKey()`. -/
def clear [Byte B] : EmptyableKey B n := ⟨Key.zero, true⟩

def ofKey (key : Key B n) : EmptyableKey B n := ⟨key, false⟩

@[simp] theorem ofKey_empty (key : Key B n) : (ofKey key).empty = false := rfl
@[simp] theorem ofKey_key (key : Key B n) : (ofKey key).key = key := rfl

theorem ofKey_injective : Function.Injective (ofKey : Key B n → EmptyableKey B n) := by
  intro a b h
  exact congrArg EmptyableKey.key h

theorem eq_ofKey {key : EmptyableKey B n} (h : key.empty = false) : key = ofKey key.key := by
  ext1
  · rfl
  · exact h

/-- `fromSpan`: the result is never empty. -/
def fromSpan (bytes : List B) : Except Error (EmptyableKey B n) :=
  (Key.fromSpan bytes).map ofKey

@[simp] theorem fromSpan_bytes (key : Key B n) :
    (fromSpan key.bytes : Except Error (EmptyableKey B n)) = .ok (ofKey key) := by
  simp [fromSpan, Except.map]

variable [Byte B]

/-- `isNone`: flagged empty, or all bytes zero. -/
def isNone (key : EmptyableKey B n) : Bool := key.empty || key.key.isZero

@[simp] theorem isNone_clear : (clear : EmptyableKey B n).isNone = true := rfl

theorem isNone_ofKey (key : Key B n) : (ofKey key).isNone = key.isZero := rfl

theorem empty_eq_false_of_isNone {key : EmptyableKey B n} (h : key.isNone = false) :
    key.empty = false := by
  simp only [isNone, Bool.or_eq_false_iff] at h
  exact h.1

end EmptyableKey

section Kinds

variable (B : Type)

abbrev MessageKey := Key B 32
abbrev ChainKey := Key B 32
abbrev HeaderKey := Key B 32
abbrev RootKey := Key B 32
abbrev BackupKey := Key B 32
abbrev PublicKey := Key B 32
abbrev PrivateKey := Key B 32
abbrev PublicSigningKey := Key B 32
abbrev PrivateSigningKey := Key B 64
abbrev ConversationId := Key B 32
abbrev Nonce := Key B 24

abbrev EmptyableRootKey := EmptyableKey B 32
abbrev EmptyableHeaderKey := EmptyableKey B 32
abbrev EmptyableChainKey := EmptyableKey B 32

end Kinds

end Molch
