import Mathlib.Algebra.Group.Nat.Defs
import Mathlib.Data.List.Basic

namespace Wire

variable {α : Type} (byte : UInt8 → α)

/-- A number in base 128, least significant digit first. All digits but the last one have
the bit 0x80; after `more` further digits the rest has to fit. -/
def digits : (more value : ℕ) → List α
  | 0, value => [byte (UInt8.ofNat value)]
  | more + 1, value =>
      if value < 128 then [byte (UInt8.ofNat value)]
      else byte (UInt8.ofNat (value % 128 + 128)) :: digits more (value / 128)

def uint32Pack (value : UInt32) : List α := digits byte 4 value.toNat

def uint32Size (value : UInt32) : ℕ :=
  if value.toNat < 2 ^ 7 then 1
  else if value.toNat < 2 ^ 14 then 2
  else if value.toNat < 2 ^ 21 then 3
  else if value.toNat < 2 ^ 28 then 4
  else 5

theorem length_uint32Pack (value : UInt32) :
    (uint32Pack byte value).length = uint32Size value := by
  simp only [uint32Pack, uint32Size, digits]
  generalize value.toNat = n
  split_ifs <;> first | rfl | (exfalso; omega)

/-- `int32_pack` of the two's complement number: a negative one takes 10 bytes. -/
def int32Pack (value : UInt32) : List α :=
  if value.toNat < 2 ^ 31 then uint32Pack byte value
  else
    [byte (UInt8.ofNat (value.toNat % 128 + 128)),
      byte (UInt8.ofNat (value.toNat / 2 ^ 7 % 128 + 128)),
      byte (UInt8.ofNat (value.toNat / 2 ^ 14 % 128 + 128)),
      byte (UInt8.ofNat (value.toNat / 2 ^ 21 % 128 + 128)),
      byte (UInt8.ofNat (value.toNat / 2 ^ 28 + 240)),
      byte 255, byte 255, byte 255, byte 255, byte 1]

def fixed32Pack (value : UInt32) : List α :=
  [byte (UInt8.ofNat value.toNat), byte (UInt8.ofNat (value.toNat / 2 ^ 8)),
    byte (UInt8.ofNat (value.toNat / 2 ^ 16)), byte (UInt8.ofNat (value.toNat / 2 ^ 24))]

/-- The member of a message; a message inside of another one is already packed. -/
inductive Member (α : Type) where
  | uint32 (value : UInt32)
  | enum (value : UInt32)
  | fixed32 (value : UInt32)
  | bytes (data : List α)
  | message (packed : List α)

/-- The number that stands for the wire type of a member. -/
def Member.wireType : Member α → ℕ
  | .uint32 _ => 0
  | .enum _ => 0
  | .fixed32 _ => 5
  | .bytes _ => 2
  | .message _ => 2

/-- `binary_data_pack` and `prefixed_message_pack`. The length goes through a 32 bit number. -/
def prefixedPack (data : List α) : List α :=
  uint32Pack byte (UInt32.ofNat data.length) ++ data

def Member.pack : Member α → List α
  | .uint32 value => uint32Pack byte value
  | .enum value => int32Pack byte value
  | .fixed32 value => fixed32Pack byte value
  | .bytes data => prefixedPack byte data
  | .message packed => prefixedPack byte packed

/-- `required_field_pack`: the tag is the number of the field with the wire type in its three
low bits. -/
def requiredFieldPack (id : ℕ) (member : Member α) : List α :=
  uint32Pack byte (UInt32.ofNat (id * 8 + member.wireType)) ++ member.pack byte

/-- `protobuf_c_message_pack`: the fields in the order of their numbers, without those that
are not set. -/
def messagePack (fields : List (ℕ × Option (Member α))) : List α :=
  fields.flatMap fun field =>
    match field.2 with
    | none => []
    | some member => requiredFieldPack byte field.1 member

@[simp] theorem messagePack_nil : messagePack byte ([] : List (ℕ × Option (Member α))) = [] := rfl

@[simp] theorem messagePack_none (id : ℕ) (fields : List (ℕ × Option (Member α))) :
    messagePack byte ((id, none) :: fields) = messagePack byte fields := rfl

@[simp] theorem messagePack_some (id : ℕ) (member : Member α)
    (fields : List (ℕ × Option (Member α))) :
    messagePack byte ((id, some member) :: fields) =
      requiredFieldPack byte id member ++ messagePack byte fields := rfl

@[simp] theorem length_fixed32Pack (value : UInt32) : (fixed32Pack byte value).length = 4 := rfl

@[simp] theorem length_prefixedPack (data : List α) :
    (prefixedPack byte data).length = uint32Size (UInt32.ofNat data.length) + data.length := by
  rw [prefixedPack, List.length_append, length_uint32Pack]

@[simp] theorem length_requiredFieldPack (id : ℕ) (member : Member α) :
    (requiredFieldPack byte id member).length =
      uint32Size (UInt32.ofNat (id * 8 + member.wireType)) + (member.pack byte).length := by
  rw [requiredFieldPack, List.length_append, length_uint32Pack]

end Wire
