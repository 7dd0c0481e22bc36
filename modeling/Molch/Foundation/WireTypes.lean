import Molch.Foundation.WireScan

namespace Wire

/-- An alphabet that contains the 256 bytes. -/
class Octets (α : Type) where
  byte : UInt8 → α
  value : α → UInt8
  value_byte : ∀ x, value (byte x) = x

open Octets

variable {α β S : Type} [Octets α]

/-- How many members a message can have: 23 slabs, the first one for 16 members and each
further one for twice as many as the one before. -/
def memberLimit : ℕ := 16 * (2 ^ 23 - 1)

omit [Octets α] in
/-- How many bytes of the member follow its prefix, in 32 bits. -/
def ScannedMember.payloadLen (member : ScannedMember α) : ℕ :=
  (member.len + 2 ^ 32 - member.lengthPrefixLen) % 2 ^ 32

omit [Octets α] in
/-- The memory from the end of the prefix on. -/
def ScannedMember.payload (member : ScannedMember α) : List α :=
  member.data.drop member.lengthPrefixLen

-- The wire types in use fit into the three bits that a tag has for them.
theorem varint_lt : 0 < 8 := by decide

theorem lengthPrefixed_lt : 2 < 8 := by decide

theorem fixed32_lt : 5 < 8 := by decide

/-- A type of fields. `combine` is what becomes of a value that is given again, and `merge`
what `merge_messages` makes of an optional field of two messages, the earlier one first. -/
structure FieldType (α β : Type) [Octets α] where
  wireType : ℕ
  pack : β → List α
  packedSize : β → ℕ
  parse : ScannedMember α → Except Defect β
  combine : β → β → β
  merge : Option β → Option β → Option β
  Fits : β → Prop
  wireType_lt : wireType < 8
  length_pack : ∀ v, (pack v).length = packedSize v
  pack_pos : ∀ v, 0 < (pack v).length
  reads : ∀ v, Fits v → ∃ prefixLen,
    scanPayload value wireType (pack v).length (pack v) = .ok (prefixLen, (pack v).length) ∧
      ∀ tag, parse ⟨tag, wireType, prefixLen, (pack v).length, pack v⟩ = .ok v
  fits_of_length : ∀ v, (pack v).length ≤ 2 * memberLimit → Fits v
  merge_none : ∀ v, merge none v = v
  parse_extend : ∀ member rest, member.Within → parse (member.extend rest) = parse member
  parse_ne_outOfBounds : ∀ member, member.Within → parse member ≠ .error .outOfBounds

section Scalars

/-- A type whose values are read from the bytes of the member alone. -/
structure Scalar (α β : Type) [Octets α] where
  wireType : ℕ
  checksWireType : Bool
  pack : β → List α
  packedSize : β → ℕ
  read : ℕ → List α → β
  wireType_lt : wireType < 8
  checks_of_fixed : wireType = 5 → checksWireType = true
  length_pack : ∀ v, (pack v).length = packedSize v
  pack_pos : ∀ v, 0 < (pack v).length
  scanPayload_pack : ∀ v,
    scanPayload value wireType (pack v).length (pack v) = .ok (0, (pack v).length)
  read_pack : ∀ v, read (pack v).length (pack v) = v
  read_append : ∀ len data rest, len ≤ data.length → (wireType = 5 → len = 4) →
    read len (data ++ rest) = read len data

/-- The case of `parse_required_member` for a number. -/
def Scalar.parse (scalar : Scalar α β) (member : ScannedMember α) : Except Defect β :=
  if scalar.checksWireType ∧ member.wireType ≠ scalar.wireType then .error .malformed
  else .ok (scalar.read member.len member.data)

/-- The last value counts, and the one of the latter message if it has one. -/
def Scalar.type (scalar : Scalar α β) : FieldType α β where
  wireType := scalar.wireType
  pack := scalar.pack
  packedSize := scalar.packedSize
  parse := scalar.parse
  combine _ v := v
  merge earlier latter := latter.or earlier
  Fits _ := True
  wireType_lt := scalar.wireType_lt
  length_pack := scalar.length_pack
  pack_pos := scalar.pack_pos
  reads v _ := by
    refine ⟨0, scalar.scanPayload_pack v, fun tag => ?_⟩
    rw [Scalar.parse, if_neg (by simp), scalar.read_pack]
  fits_of_length _ _ := trivial
  merge_none v := by simp
  parse_extend member rest hwithin := by
    rw [Scalar.parse, Scalar.parse, member.wireType_extend]
    split
    · rfl
    · rename_i hwire
      refine congrArg Except.ok (scalar.read_append _ _ rest hwithin.len fun hfixed => ?_)
      rw [scalar.checks_of_fixed hfixed, hfixed] at hwire
      exact hwithin.width (by simpa using hwire)
  parse_ne_outOfBounds member _ := by
    rw [Scalar.parse]
    split <;> simp

@[simp] theorem Scalar.combine_type (scalar : Scalar α β) (earlier v : β) :
    scalar.type.combine earlier v = v := rfl

@[simp] theorem Scalar.packedSize_type (scalar : Scalar α β) (v : β) :
    scalar.type.packedSize v = scalar.packedSize v := rfl

theorem scanPayload_varint {data : List α} (hlength : data.length ≤ 10)
    (hscan : ∀ {max}, data.length ≤ max → scanVarint value max (data ++ []) = .ok data.length) :
    scanPayload value 0 data.length data = .ok (0, data.length) := by
  have hscanned := hscan (le_min le_rfl hlength)
  rw [List.append_nil] at hscanned
  rw [scanPayload, hscanned]
  rfl

theorem length_uint32Pack_le (v : UInt32) : (uint32Pack (byte (α := α)) v).length ≤ 10 :=
  (length_digits_le byte 4 _).trans (by decide)

theorem length_int32Pack_le (v : UInt32) : (int32Pack (byte (α := α)) v).length ≤ 10 := by
  rw [int32Pack]
  split
  · exact length_uint32Pack_le v
  · exact le_rfl

theorem length_uint64Pack_le (v : UInt64) : (uint64Pack (byte (α := α)) v).length ≤ 10 := by
  rw [uint64Pack_eq_digits]
  exact length_digits_le byte 9 _

def Scalar.uint32 : Scalar α UInt32 where
  wireType := 0
  checksWireType := true
  pack := uint32Pack byte
  packedSize := uint32Size
  read := parseUint32 value
  wireType_lt := varint_lt
  checks_of_fixed _ := rfl
  length_pack := length_uint32Pack byte
  pack_pos v := length_digits_pos byte 4 _
  scanPayload_pack v := scanPayload_varint (length_uint32Pack_le v)
    (scanVarint_uint32Pack value_byte v [])
  read_pack v := by
    have hread := parseUint32_uint32Pack value_byte v ([] : List α)
    rwa [List.append_nil] at hread
  read_append _ _ rest hlen _ := parseUint32_append value rest hlen

/-- `PROTOBUF_C_TYPE_ENUM`: the number in two's complement. -/
def Scalar.enum : Scalar α UInt32 where
  wireType := 0
  checksWireType := true
  pack := int32Pack byte
  packedSize := int32Size
  read := parseUint32 value
  wireType_lt := varint_lt
  checks_of_fixed _ := rfl
  length_pack := length_int32Pack byte
  pack_pos v := by
    rw [int32Pack]
    split
    · exact length_digits_pos byte 4 _
    · exact Nat.succ_pos _
  scanPayload_pack v := scanPayload_varint (length_int32Pack_le v)
    (scanVarint_int32Pack value_byte v [])
  read_pack v := by
    have hread := parseUint32_int32Pack value_byte v ([] : List α)
    rwa [List.append_nil] at hread
  read_append _ _ rest hlen _ := parseUint32_append value rest hlen

def Scalar.uint64 : Scalar α UInt64 where
  wireType := 0
  checksWireType := true
  pack := uint64Pack byte
  packedSize := uint64Size
  read := parseUint64 value
  wireType_lt := varint_lt
  checks_of_fixed _ := rfl
  length_pack := length_uint64Pack byte
  pack_pos v := by
    rw [uint64Pack_eq_digits]
    exact length_digits_pos byte 9 _
  scanPayload_pack v := scanPayload_varint (length_uint64Pack_le v)
    (scanVarint_uint64Pack value_byte v [])
  read_pack v := by
    have hread := parseUint64_uint64Pack value_byte v ([] : List α)
    rwa [List.append_nil] at hread
  read_append _ _ rest hlen _ := parseUint64_append value rest hlen

/-- `PROTOBUF_C_TYPE_BOOL`: the only type that takes a member of any wire type. -/
def Scalar.bool : Scalar α Bool where
  wireType := 0
  checksWireType := false
  pack := booleanPack byte
  packedSize _ := 1
  read := parseBoolean value
  wireType_lt := varint_lt
  checks_of_fixed h := by cases h
  length_pack := length_booleanPack byte
  pack_pos _ := Nat.one_pos
  scanPayload_pack v := by
    have hscan := scanVarint_booleanPack value_byte v ([] : List α)
      (show 1 ≤ min (booleanPack (byte (α := α)) v).length 10 by simp)
    rw [List.append_nil] at hscan
    rw [scanPayload, hscan]
    rfl
  read_pack v := by
    have hread := parseBoolean_booleanPack value_byte v ([] : List α)
    rwa [List.append_nil] at hread
  read_append _ _ rest hlen _ := parseBoolean_append value rest hlen

def Scalar.fixed32 : Scalar α UInt32 where
  wireType := 5
  checksWireType := true
  pack := fixed32Pack byte
  packedSize _ := 4
  read _ := parseFixedUint32 value
  wireType_lt := fixed32_lt
  checks_of_fixed _ := rfl
  length_pack := length_fixed32Pack byte
  pack_pos _ := Nat.succ_pos _
  scanPayload_pack _ := rfl
  read_pack v := by
    have hread := parseFixedUint32_fixed32Pack value_byte v ([] : List α)
    rwa [List.append_nil] at hread
  read_append _ _ rest hlen hwidth := parseFixedUint32_append value rest ((hwidth rfl).ge.trans hlen)

end Scalars

section Prefixed

/-- The case of `parse_required_member` for a byte string. The bytes are copied. -/
def parseBytes (member : ScannedMember α) : Except Defect (List α) :=
  if member.wireType ≠ 2 then .error .malformed
  else if member.payload.length < member.payloadLen then .error .outOfBounds
  else .ok (member.payload.take member.payloadLen)

omit [Octets α] in
theorem ScannedMember.length_payload (member : ScannedMember α) :
    member.payload.length = member.data.length - member.lengthPrefixLen := List.length_drop

omit [Octets α] in
theorem ScannedMember.Within.payloadLen_le {member : ScannedMember α} (h : member.Within) :
    member.payloadLen ≤ member.payload.length := by
  have hlen := h.len
  have hprefix := h.prefix_le
  have hmod := Nat.mod_le (member.len - member.lengthPrefixLen) (2 ^ 32)
  have hshift : member.len + 2 ^ 32 - member.lengthPrefixLen =
      member.len - member.lengthPrefixLen + 2 ^ 32 := by omega
  rw [member.length_payload, ScannedMember.payloadLen, hshift, Nat.add_mod_right]
  omega

omit [Octets α] in
theorem ScannedMember.Within.payload_extend {member : ScannedMember α} (h : member.Within)
    (rest : List α) : (member.extend rest).payload = member.payload ++ rest := by
  rw [ScannedMember.payload, ScannedMember.payload, member.data_extend,
    member.lengthPrefixLen_extend, List.drop_append_of_le_length (h.prefix_le.trans h.len)]

omit [Octets α] in
@[simp] theorem ScannedMember.payloadLen_extend (member : ScannedMember α) (rest : List α) :
    (member.extend rest).payloadLen = member.payloadLen := rfl

theorem payload_prefixedPack (tag : ℕ) {data : List α} (hfits : data.length + 5 < 2 ^ 32) :
    (⟨tag, 2, (uint32Pack (byte (α := α)) (UInt32.ofNat data.length)).length,
      (prefixedPack byte data).length, prefixedPack byte data⟩ : ScannedMember α).payloadLen =
        data.length ∧
    (⟨tag, 2, (uint32Pack (byte (α := α)) (UInt32.ofNat data.length)).length,
      (prefixedPack byte data).length, prefixedPack byte data⟩ : ScannedMember α).payload =
        data := by
  constructor
  · simp only [ScannedMember.payloadLen, prefixedPack, List.length_append]
    omega
  · rw [ScannedMember.payload, prefixedPack, List.drop_left]

theorem length_le_length_prefixedPack (data : List α) :
    data.length ≤ (prefixedPack (byte (α := α)) data).length := by
  rw [prefixedPack, List.length_append]
  exact Nat.le_add_left _ _

theorem fits_of_length_prefixedPack {data : List α}
    (h : (prefixedPack (byte (α := α)) data).length ≤ 2 * memberLimit) :
    data.length + 5 < 2 ^ 32 := by
  rw [prefixedPack, List.length_append, memberLimit] at h
  omega

omit [Octets α] in
theorem parseBytes_extend {member : ScannedMember α} (rest : List α) (h : member.Within) :
    parseBytes (member.extend rest) = parseBytes member := by
  have hle := h.payloadLen_le
  rw [parseBytes, parseBytes, member.wireType_extend, member.payloadLen_extend, h.payload_extend]
  split
  · rfl
  · rw [if_neg (not_lt.mpr hle), if_neg (by rw [List.length_append]; omega),
      List.take_append_of_le_length hle]

/-- `PROTOBUF_C_TYPE_BYTES`. An empty byte string has no data, so that `merge_messages` takes it
for one that is not set. -/
def FieldType.bytes : FieldType α (List α) where
  wireType := 2
  pack := prefixedPack byte
  packedSize data := uint32Size (UInt32.ofNat data.length) + data.length
  parse := parseBytes
  combine _ data := data
  merge earlier latter :=
    match earlier with
    | some (b :: data) => if latter.getD [] = [] then some (b :: data) else latter
    | _ => latter
  Fits data := data.length + 5 < 2 ^ 32
  wireType_lt := lengthPrefixed_lt
  length_pack := length_prefixedPack byte
  pack_pos data := by
    rw [prefixedPack, List.length_append]
    exact Nat.add_pos_left (length_digits_pos byte 4 _) _
  reads data hfits := by
    refine ⟨_, scanPayload_prefixedPack value_byte hfits, fun tag => ?_⟩
    obtain ⟨hlen, hpayload⟩ := payload_prefixedPack tag hfits
    rw [parseBytes, hlen, hpayload, if_neg (by simp), if_neg (lt_irrefl _), List.take_length]
  fits_of_length _ hlength := fits_of_length_prefixedPack hlength
  merge_none _ := rfl
  parse_extend _ rest hwithin := parseBytes_extend rest hwithin
  parse_ne_outOfBounds member hwithin := by
    rw [parseBytes]
    split
    · simp
    · rw [if_neg (not_lt.mpr hwithin.payloadLen_le)]
      simp

@[simp] theorem FieldType.packedSize_bytes (data : List α) :
    FieldType.bytes.packedSize data = uint32Size (UInt32.ofNat data.length) + data.length := rfl

@[simp] theorem FieldType.combine_bytes (earlier v : List α) :
    FieldType.bytes.combine earlier v = v := rfl

end Prefixed

end Wire
