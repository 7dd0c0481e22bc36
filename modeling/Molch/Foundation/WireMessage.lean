import Mathlib.Tactic.Ring
import Molch.Foundation.RangeLookup
import Molch.Foundation.WireTypes

/-!
Messages of the wire format. A descriptor lists the fields of a message in the order of their
numbers; packing, merging and unpacking follow it, and a message can be the type of a field of
another message.
-/

namespace Wire

open Octets RangeLookup

variable {α β S : Type} [Octets α]

/-- A place in a struct. -/
structure Lens (S β : Type) where
  get : S → β
  set : β → S → S
  get_set : ∀ v s, get (set v s) = v := by intros; rfl
  set_get : ∀ s, set (get s) s = s := by intros; rfl
  set_set : ∀ v w s, set w (set v s) = set w s := by intros; rfl

/-- `ProtobufCFieldDescriptor`. Repeated fields are byte strings or messages, which are never
packed into one member. -/
inductive Field (α S : Type) [Octets α] : Type 1 where
  | required {β : Type} (id : ℕ) (type : FieldType α β) (lens : Lens S β)
  | optional {β : Type} (id : ℕ) (type : FieldType α β) (lens : Lens S (Option β))
  | repeated {β : Type} (id : ℕ) (type : FieldType α β) (lens : Lens S (List β))
      (hprefixed : type.wireType = 2)

/-- `required_field_pack`. -/
def FieldType.packTagged (type : FieldType α β) (id : ℕ) (v : β) : List α :=
  uint32Pack byte (UInt32.ofNat (id * 8 + type.wireType)) ++ type.pack v

namespace Field

def id : Field α S → ℕ
  | required id _ _ => id
  | optional id _ _ => id
  | repeated id _ _ _ => id

def isRequired : Field α S → Bool
  | required _ _ _ => true
  | optional _ _ _ => false
  | repeated _ _ _ _ => false

/-- `required_field_pack`, `optional_field_pack` and `repeated_field_pack`. -/
def pack (s : S) : Field α S → List α
  | required id type lens => type.packTagged id (lens.get s)
  | optional id type lens => (lens.get s).elim [] (type.packTagged id)
  | repeated id type lens _ => (lens.get s).flatMap (type.packTagged id)

/-- `required_field_get_packed_size`, `optional_field_get_packed_size` and
`repeated_field_get_packed_size`. -/
def packedSize (s : S) : Field α S → ℕ
  | required id type lens => tagSize id + type.packedSize (lens.get s)
  | optional id type lens => (lens.get s).elim 0 fun v => tagSize id + type.packedSize v
  | repeated id type lens _ =>
      tagSize id * (lens.get s).length + ((lens.get s).map type.packedSize).sum

/-- `parse_required_member`, `parse_optional_member` and `parse_repeated_member`. -/
def parse (member : ScannedMember α) (s : S) : Field α S → Except Defect S
  | required _ type lens =>
      (type.parse member).map fun v => lens.set (type.combine (lens.get s) v) s
  | optional _ type lens =>
      (type.parse member).map fun v => lens.set (some ((lens.get s).elim v (type.combine · v))) s
  | repeated _ type lens _ => (type.parse member).map fun v => lens.set (lens.get s ++ [v]) s

/-- The loop body of `merge_messages`. -/
def mergeInto (earlier latter : S) : Field α S → S
  | required _ _ _ => latter
  | optional _ type lens => lens.set (type.merge (lens.get earlier) (lens.get latter)) latter
  | repeated _ _ lens _ => lens.set (lens.get earlier ++ lens.get latter) latter

/-- The numbers of the members that the field is packed into. -/
def tags (s : S) : Field α S → List ℕ
  | required id _ _ => [id]
  | optional id _ lens => (lens.get s).elim [] fun _ => [id]
  | repeated id _ lens _ => (lens.get s).map fun _ => id

/-- The values of the field can be read back. -/
def Fits (s : S) : Field α S → Prop
  | required _ type lens => type.Fits (lens.get s)
  | optional _ type lens => ∀ v ∈ lens.get s, type.Fits v
  | repeated _ type lens _ => ∀ v ∈ lens.get s, type.Fits v

def Small (limit : ℕ) (s : S) : Field α S → Prop
  | required _ type lens => type.packedSize (lens.get s) ≤ limit
  | optional _ type lens => ∀ v ∈ lens.get s, type.packedSize v ≤ limit
  | repeated _ type lens _ => ∀ v ∈ lens.get s, type.packedSize v ≤ limit

/-- A first value of the field is taken as it is. -/
def Unset (s : S) : Field α S → Prop
  | required _ type lens => ∀ v, type.combine (lens.get s) v = v
  | optional _ _ lens => lens.get s = none
  | repeated _ _ lens _ => lens.get s = []

def copy (source target : S) : Field α S → S
  | required _ _ lens => lens.set (lens.get source) target
  | optional _ _ lens => lens.set (lens.get source) target
  | repeated _ _ lens _ => lens.set (lens.get source) target

end Field

theorem length_packTagged (type : FieldType α β) {id : ℕ} (hid : id < 2 ^ 29) (v : β) :
    (type.packTagged id v).length = tagSize id + type.packedSize v := by
  have hwire := type.wireType_lt
  have htag : (UInt32.ofNat (id * 8 + type.wireType)).toNat = id * 8 + type.wireType :=
    UInt32.toNat_ofNat_of_lt' (by change _ < 2 ^ 32; omega)
  have hsize : uint32Size (UInt32.ofNat (id * 8 + type.wireType)) = tagSize id := by
    rw [uint32Size, tagSize, htag]
    split_ifs <;> first | rfl | (exfalso; omega)
  rw [FieldType.packTagged, List.length_append, length_uint32Pack, type.length_pack, hsize]

theorem length_packTagged_le {type : FieldType α β} {id limit : ℕ} (hid : id < 2 ^ 11) {v : β}
    (hv : type.packedSize v ≤ limit) : (type.packTagged id v).length ≤ limit + 2 := by
  have htag : tagSize id ≤ 2 := by
    rw [tagSize]
    split_ifs <;> omega
  rw [length_packTagged type (by omega)]
  omega

theorem length_flatMap_packTagged_le {type : FieldType α β} {id limit : ℕ} (hid : id < 2 ^ 11)
    {values : List β} (hvalues : ∀ v ∈ values, type.packedSize v ≤ limit) :
    (values.flatMap (type.packTagged id)).length ≤ values.length * (limit + 2) := by
  induction values with
  | nil => exact Nat.zero_le _
  | cons v vs ih =>
      obtain ⟨hfirst, hrest⟩ := List.forall_mem_cons.mp hvalues
      have hlength := ih hrest
      have hv := length_packTagged_le hid hfirst
      rw [List.flatMap_cons, List.length_append, List.length_cons, Nat.add_mul, one_mul]
      omega

theorem length_le_length_flatMap {γ : Type*} {δ : Type} {f : γ → List δ} {l : List γ} {a : γ}
    (ha : a ∈ l) : (f a).length ≤ (l.flatMap f).length := by
  rw [List.flatMap_def]
  exact (List.sublist_flatten_of_mem (List.mem_map_of_mem ha)).length_le

theorem two_le_length_packTagged (type : FieldType α β) (id : ℕ) (v : β) :
    2 ≤ (type.packTagged id v).length ∧ (type.pack v).length ≤ (type.packTagged id v).length := by
  have hpos := type.pack_pos v
  have htag : 0 < (uint32Pack (byte (α := α)) (UInt32.ofNat (id * 8 + type.wireType))).length :=
    length_digits_pos byte 4 _
  rw [FieldType.packTagged, List.length_append]
  omega

namespace Field

theorem parse_extend (field : Field α S) (s : S) {member : ScannedMember α}
    (hwithin : member.Within) (rest : List α) :
    field.parse (member.extend rest) s = field.parse member s := by
  cases field with
  | required id type lens => rw [parse, parse, type.parse_extend member rest hwithin]
  | optional id type lens => rw [parse, parse, type.parse_extend member rest hwithin]
  | repeated id type lens hprefixed => rw [parse, parse, type.parse_extend member rest hwithin]

theorem parse_ne_outOfBounds (field : Field α S) (s : S) {member : ScannedMember α}
    (hwithin : member.Within) : field.parse member s ≠ .error .outOfBounds := by
  cases field with
  | required id type lens =>
      rw [parse, ne_eq, Result.map_eq_error]
      exact type.parse_ne_outOfBounds member hwithin
  | optional id type lens =>
      rw [parse, ne_eq, Result.map_eq_error]
      exact type.parse_ne_outOfBounds member hwithin
  | repeated id type lens hprefixed =>
      rw [parse, ne_eq, Result.map_eq_error]
      exact type.parse_ne_outOfBounds member hwithin

theorem length_pack {field : Field α S} (hid : field.id < 2 ^ 29) (s : S) :
    (field.pack s).length = field.packedSize s := by
  cases field with
  | required id type lens => exact length_packTagged type hid _
  | optional id type lens =>
      rw [pack, packedSize]
      cases lens.get s with
      | none => rfl
      | some v => exact length_packTagged type hid v
  | repeated id type lens hprefixed =>
      have hlength : ∀ v, (type.packTagged id v).length = tagSize id + type.packedSize v :=
        length_packTagged type hid
      rw [pack, packedSize]
      induction lens.get s with
      | nil => rfl
      | cons v vs ih =>
          rw [List.flatMap_cons, List.length_append, ih, hlength, List.length_cons,
            List.map_cons, List.sum_cons]
          ring

theorem two_mul_length_tags (field : Field α S) (s : S) :
    2 * (field.tags s).length ≤ (field.pack s).length := by
  cases field with
  | required id type lens => exact (two_le_length_packTagged type id _).1
  | optional id type lens =>
      rw [pack, tags]
      cases lens.get s with
      | none => exact le_rfl
      | some v => exact (two_le_length_packTagged type id v).1
  | repeated id type lens hprefixed =>
      rw [pack, tags, List.length_map]
      induction lens.get s with
      | nil => exact le_rfl
      | cons v vs ih =>
          have hfirst := (two_le_length_packTagged type id v).1
          rw [List.flatMap_cons, List.length_append, List.length_cons]
          omega

theorem length_pack_le {field : Field α S} (hid : field.id < 2 ^ 11) {limit : ℕ} {s : S}
    (hsmall : field.Small limit s) :
    (field.pack s).length ≤ (field.tags s).length * (limit + 2) := by
  cases field with
  | required id type lens =>
      rw [tags, List.length_singleton, one_mul]
      exact length_packTagged_le hid hsmall
  | optional id type lens =>
      rw [pack, tags]
      rw [Small] at hsmall
      cases hget : lens.get s with
      | none => exact Nat.zero_le _
      | some v =>
          rw [Option.elim_some, Option.elim_some, List.length_singleton, one_mul]
          exact length_packTagged_le hid (hsmall v hget)
  | repeated id type lens hprefixed =>
      rw [pack, tags, List.length_map]
      exact length_flatMap_packTagged_le hid hsmall

theorem fits_of_length {field : Field α S} {s : S}
    (hlength : (field.pack s).length ≤ 2 * memberLimit) : field.Fits s := by
  cases field with
  | required id type lens =>
      exact type.fits_of_length _ ((two_le_length_packTagged type id _).2.trans hlength)
  | optional id type lens =>
      intro v hv
      rw [pack, Option.mem_def.mp hv] at hlength
      exact type.fits_of_length v ((two_le_length_packTagged type id v).2.trans hlength)
  | repeated id type lens hprefixed =>
      intro v hv
      exact type.fits_of_length v ((two_le_length_packTagged type id v).2.trans
        ((length_le_length_flatMap hv).trans hlength))

theorem mergeInto_unset {field : Field α S} {earlier : S} (hunset : field.Unset earlier)
    (latter : S) : field.mergeInto earlier latter = latter := by
  cases field with
  | required id type lens => rfl
  | optional id type lens =>
      rw [mergeInto, show lens.get earlier = none from hunset, type.merge_none, lens.set_get]
  | repeated id type lens hprefixed =>
      rw [mergeInto, show lens.get earlier = [] from hunset, List.nil_append, lens.set_get]

end Field

/-- The fields that are still to come are not set, and all of them together make up the
struct. -/
def Restores (source : S) : List (Field α S) → S → Prop
  | [], target => target = source
  | field :: fields, target =>
      field.Unset target ∧ Restores source fields (field.copy source target)

@[simp] theorem restores_nil (source target : S) :
    Restores source ([] : List (Field α S)) target ↔ target = source := Iff.rfl

@[simp] theorem restores_required (source target : S) (id : ℕ) (type : FieldType α β)
    (lens : Lens S β) (fields : List (Field α S)) :
    Restores source (.required id type lens :: fields) target ↔
      (∀ v, type.combine (lens.get target) v = v) ∧
        Restores source fields (lens.set (lens.get source) target) := Iff.rfl

@[simp] theorem restores_optional (source target : S) (id : ℕ) (type : FieldType α β)
    (lens : Lens S (Option β)) (fields : List (Field α S)) :
    Restores source (.optional id type lens :: fields) target ↔
      lens.get target = none ∧ Restores source fields (lens.set (lens.get source) target) :=
  Iff.rfl

@[simp] theorem restores_repeated (source target : S) (id : ℕ) (type : FieldType α β)
    (lens : Lens S (List β)) (hprefixed : type.wireType = 2) (fields : List (Field α S)) :
    Restores source (.repeated id type lens hprefixed :: fields) target ↔
      lens.get target = [] ∧ Restores source fields (lens.set (lens.get source) target) :=
  Iff.rfl

/-- `ProtobufCMessageDescriptor` and the initial message. -/
structure Descriptor (α S : Type) [Octets α] where
  init : S
  fields : List (Field α S)
  sorted : (fields.map Field.id).Pairwise (· < ·)
  id_lt : ∀ field ∈ fields, field.id < 2 ^ 29
  unset : ∀ field ∈ fields, field.Unset init
  restores : ∀ s, Restores s fields init

namespace Descriptor

variable (d : Descriptor α S)

def pack (s : S) : List α := d.fields.flatMap (Field.pack s)

def packedSize (s : S) : ℕ := (d.fields.map (Field.packedSize s)).sum

/-- `merge_messages`. -/
def merge (earlier latter : S) : S :=
  d.fields.foldl (fun s field => field.mergeInto earlier s) latter

def numbers : List ℤ := d.fields.map fun field => (field.id : ℤ)

def position (tag : ℕ) : Option ℕ :=
  intRangeLookup (writeIntRanges d.numbers) (Int.bmod tag (2 ^ 32))

/-- The check of the bitmap: the required fields are among the ones that were found. -/
def requiredSet (positions : List (Option ℕ)) : Bool :=
  d.fields.zipIdx.all fun field => !field.1.isRequired || positions.contains (some field.2)

/-- `parse_member`. Members that belong to no field are put aside. -/
def parseMember (s : S) (member : ScannedMember α × Option ℕ) : Except Defect S :=
  match member.2.bind (d.fields[·]?) with
  | none => .ok s
  | some field => field.parse member.1 s

def unpack (len : ℕ) (data : List α) : Except Defect S := do
  let members ← scan value memberLimit len data
  let positions := cachedLookups d.numbers 0 (members.map fun member => Int.bmod member.tag (2 ^ 32))
  if d.requiredSet positions then (members.zip positions).foldlM d.parseMember d.init
  else .error .malformed

/-- Every value can be read back, and there are slots for all members. -/
structure Fits (s : S) : Prop where
  fields : ∀ field ∈ d.fields, field.Fits s
  members : (d.fields.flatMap (Field.tags s)).length ≤ memberLimit

section Lookup

variable {d}

theorem numbers_pairwise (d : Descriptor α S) : d.numbers.Pairwise (· < ·) := by
  rw [numbers, List.pairwise_map]
  exact (List.pairwise_map.mp d.sorted).imp Int.ofNat_lt.mpr

theorem bmod_id {field : Field α S} (hfield : field ∈ d.fields) :
    Int.bmod field.id (2 ^ 32) = field.id := by
  have hlt := d.id_lt field hfield
  rw [Int.bmod_eq_of_le]
  · omega
  · omega

theorem position_eq_some_iff {tag i : ℕ} :
    d.position tag = some i ↔
      ∃ field, d.fields[i]? = some field ∧ (field.id : ℤ) = Int.bmod tag (2 ^ 32) := by
  rw [position, intRangeLookup_writeIntRanges d.numbers_pairwise, numbers, List.getElem?_map,
    Option.map_eq_some_iff]

theorem position_id {field : Field α S} {i : ℕ} (hfield : d.fields[i]? = some field) :
    d.position field.id = some i :=
  position_eq_some_iff.mpr ⟨field, hfield, (bmod_id (List.mem_of_getElem? hfield)).symm⟩

theorem position_eq_none {tag : ℕ} (htag : ∀ field ∈ d.fields, field.id ≠ tag)
    (hlt : tag < 2 ^ 32) : d.position tag = none := by
  rw [Option.eq_none_iff_forall_ne_some]
  intro i hi
  obtain ⟨field, hfield, hid⟩ := position_eq_some_iff.mp hi
  have hmem := List.mem_of_getElem? hfield
  have hid' := d.id_lt field hmem
  refine htag field hmem ?_
  rw [Int.bmod_def] at hid
  split at hid
  · omega
  · omega

end Lookup

/-- The member with the search instead of the cache. -/
def accept (s : S) (member : ScannedMember α) : Except Defect S :=
  d.parseMember s (member, d.position member.tag)

/-- The second pass over the members. -/
def readMembers (members : List (ScannedMember α)) : Except Defect S :=
  if d.requiredSet (members.map fun member => d.position member.tag) then
    members.foldlM d.accept d.init
  else .error .malformed

theorem unpack_eq (len : ℕ) (data : List α) :
    d.unpack len data = scan value memberLimit len data >>= d.readMembers := by
  rw [unpack]
  congr 1
  funext members
  have hpositions : cachedLookups d.numbers 0
      (members.map fun member => Int.bmod member.tag (2 ^ 32)) =
        members.map fun member => d.position member.tag := by
    rw [cachedLookups_eq_map d.numbers_pairwise, List.map_map]
    rfl
  simp only
  rw [hpositions, ← List.map_prod_left_eq_zip, List.foldlM_map]
  rfl

section Locality

variable {d}

theorem accept_extend (s : S) {member : ScannedMember α} (hwithin : member.Within)
    (rest : List α) : d.accept s (member.extend rest) = d.accept s member := by
  unfold accept parseMember
  rw [member.tag_extend]
  simp only
  split
  · rfl
  · exact Field.parse_extend _ s hwithin rest

theorem foldlM_extend (s : S) {members : List (ScannedMember α)}
    (hwithin : ∀ member ∈ members, member.Within) (rest : List α) :
    (members.map (·.extend rest)).foldlM d.accept s = members.foldlM d.accept s := by
  induction members generalizing s with
  | nil => rfl
  | cons member members ih =>
      rw [List.map_cons, List.foldlM_cons, List.foldlM_cons,
        accept_extend s (hwithin member List.mem_cons_self) rest]
      congr 1
      funext t
      exact ih t fun member hmember => hwithin member (List.mem_cons_of_mem _ hmember)

theorem unpack_append {len : ℕ} {data : List α} (hlen : len ≤ data.length) (rest : List α) :
    d.unpack len (data ++ rest) = d.unpack len data := by
  rw [unpack_eq, unpack_eq, scan_append rest (scan_ne_outOfBounds memberLimit hlen)]
  cases hmembers : scan value memberLimit len data with
  | error defect => rfl
  | ok members =>
      have hwithin : ∀ member ∈ members, member.Within :=
        fun member hmember => (within_of_scan hmembers member hmember).1
      have hpositions : ((members.map (·.extend rest)).map fun member => d.position member.tag) =
          members.map fun member => d.position member.tag := List.map_map
      rw [Result.map_ok, Result.ok_bind, Result.ok_bind, readMembers, readMembers, hpositions,
        foldlM_extend d.init hwithin rest]

theorem foldlM_ne_outOfBounds (s : S) {members : List (ScannedMember α)}
    (hwithin : ∀ member ∈ members, member.Within) :
    members.foldlM d.accept s ≠ .error .outOfBounds := by
  induction members generalizing s with
  | nil => simp
  | cons member members ih =>
      rw [List.foldlM_cons]
      intro h
      rcases Result.bind_eq_error.mp h with h | ⟨t, -, h⟩
      · unfold accept parseMember at h
        simp only at h
        split at h
        · cases h
        · exact Field.parse_ne_outOfBounds _ s (hwithin member List.mem_cons_self) h
      · exact ih t (fun member hmember => hwithin member (List.mem_cons_of_mem _ hmember)) h

theorem unpack_ne_outOfBounds {len : ℕ} {data : List α} (hlen : len ≤ data.length) :
    d.unpack len data ≠ .error .outOfBounds := by
  rw [unpack_eq]
  intro h
  rcases Result.bind_eq_error.mp h with h | ⟨members, hmembers, h⟩
  · exact scan_ne_outOfBounds memberLimit hlen h
  · rw [readMembers] at h
    split at h
    · exact foldlM_ne_outOfBounds d.init
        (fun member hmember => (within_of_scan hmembers member hmember).1) h
    · cases h

end Locality

section Reading

/-- The bytes are members with the given numbers, which turn one message into another. -/
def Yields (bytes : List α) (tags : List ℕ) (s t : S) : Prop :=
  ∃ members, members.map ScannedMember.tag = tags ∧
    scan value members.length bytes.length bytes = .ok members ∧
    members.foldlM d.accept s = .ok t

variable {d}

theorem Yields.nil (s : S) : d.Yields [] [] s s := ⟨[], rfl, rfl, rfl⟩

theorem Yields.append {bytes bytes' : List α} {tags tags' : List ℕ} {s t u : S}
    (h : d.Yields bytes tags s t) (h' : d.Yields bytes' tags' t u) :
    d.Yields (bytes ++ bytes') (tags ++ tags') s u := by
  obtain ⟨members, htags, hscan, hread⟩ := h
  obtain ⟨members', htags', hscan', hread'⟩ := h'
  have hwithin : ∀ member ∈ members, member.Within :=
    fun member hmember => (within_of_scan hscan member hmember).1
  refine ⟨members.map (·.extend bytes') ++ members', ?_, ?_, ?_⟩
  · rw [List.map_append, List.map_map, ← htags, ← htags']
    rfl
  · rw [List.length_append, List.length_append, List.length_map, scan_concat bytes' hscan, hscan']
    rfl
  · rw [List.foldlM_append, foldlM_extend s hwithin bytes', hread]
    exact hread'

theorem yields_packTagged {field : Field α S} {i : ℕ} (hfield : d.fields[i]? = some field)
    {type : FieldType α β} (v : β) (hfits : type.Fits v) {s t : S}
    (hparse : ∀ member, type.parse member = .ok v → field.parse member s = .ok t) :
    d.Yields (type.packTagged field.id v) [field.id] s t := by
  obtain ⟨prefixLen, hscan, hread⟩ := type.reads v hfits
  have hid := d.id_lt field (List.mem_of_getElem? hfield)
  refine ⟨[⟨field.id, type.wireType, prefixLen, (type.pack v).length, type.pack v⟩], rfl,
    scan_packed value_byte hid type.wireType_lt hscan, ?_⟩
  have haccept : d.accept s ⟨field.id, type.wireType, prefixLen, (type.pack v).length,
      type.pack v⟩ = .ok t := by
    rw [accept, parseMember, position_id hfield, Option.bind_some, hfield]
    exact hparse _ (hread field.id)
  rw [List.foldlM_cons, haccept]
  rfl

theorem yields_repeated {id i : ℕ} {type : FieldType α β} {lens : Lens S (List β)}
    {hprefixed : type.wireType = 2}
    (hfield : d.fields[i]? = some (.repeated id type lens hprefixed)) {vs : List β}
    (hfits : ∀ v ∈ vs, type.Fits v) (s : S) :
    d.Yields (vs.flatMap (type.packTagged id)) (vs.map fun _ => id) s
      (lens.set (lens.get s ++ vs) s) := by
  induction vs generalizing s with
  | nil =>
      rw [List.append_nil, lens.set_get]
      exact .nil s
  | cons v vs ih =>
      have hfirst := yields_packTagged hfield v (hfits v List.mem_cons_self)
        (s := s) (t := lens.set (lens.get s ++ [v]) s) (by
          intro member hmember
          rw [Field.parse, hmember]
          rfl)
      have hrest := ih (fun v hv => hfits v (List.mem_cons_of_mem _ hv))
        (lens.set (lens.get s ++ [v]) s)
      rw [lens.get_set, lens.set_set, List.append_assoc, List.singleton_append] at hrest
      exact hfirst.append hrest

theorem yields_pack {field : Field α S} {i : ℕ} (hfield : d.fields[i]? = some field)
    {source target : S} (hfits : field.Fits source) (hunset : field.Unset target) :
    d.Yields (field.pack source) (field.tags source) target (field.copy source target) := by
  cases field with
  | required id type lens =>
      refine yields_packTagged hfield (lens.get source) hfits ?_
      intro member hmember
      rw [Field.parse, hmember, Result.map_ok, hunset]
      rfl
  | optional id type lens =>
      rw [Field.pack, Field.tags, Field.copy]
      cases hv : lens.get source with
      | none =>
          have hsame : lens.set none target = target := by
            rw [← show lens.get target = none from hunset, lens.set_get]
          rw [hsame]
          exact .nil target
      | some v =>
          refine yields_packTagged hfield v (hfits v hv) ?_
          intro member hmember
          rw [Field.parse, hmember, Result.map_ok, show lens.get target = none from hunset]
          rfl
  | repeated id type lens hprefixed =>
      have hyields := yields_repeated hfield hfits target
      rwa [show lens.get target = [] from hunset, List.nil_append] at hyields

theorem yields_fields {fields : List (Field α S)} (hfields : ∀ field ∈ fields, field ∈ d.fields)
    {source target : S} (hfits : ∀ field ∈ fields, field.Fits source)
    (hrestores : Restores source fields target) :
    d.Yields (fields.flatMap (Field.pack source)) (fields.flatMap (Field.tags source)) target
      source := by
  induction fields generalizing target with
  | nil =>
      rw [show target = source from hrestores]
      exact .nil source
  | cons field fields ih =>
      obtain ⟨hunset, hrest⟩ := hrestores
      obtain ⟨i, hfield⟩ := List.mem_iff_getElem?.mp (hfields field List.mem_cons_self)
      exact (yields_pack hfield (hfits field List.mem_cons_self) hunset).append
        (ih (fun field hfield => hfields field (List.mem_cons_of_mem _ hfield))
          (fun field hfield => hfits field (List.mem_cons_of_mem _ hfield)) hrest)

theorem requiredSet_of_tags {tags : List ℕ}
    (htags : ∀ field ∈ d.fields, field.isRequired = true → field.id ∈ tags) :
    d.requiredSet (tags.map d.position) = true := by
  rw [requiredSet, List.all_eq_true]
  rintro ⟨field, i⟩ hmem
  have hfield : d.fields[i]? = some field := List.mem_zipIdx_iff_getElem?.mp hmem
  cases hrequired : field.isRequired with
  | false => rfl
  | true =>
      have hid := htags field (List.mem_of_getElem? hfield) hrequired
      simpa using List.mem_map.mpr ⟨field.id, hid, position_id hfield⟩

theorem unpack_of_yields {bytes : List α} {tags : List ℕ} {s : S}
    (h : d.Yields bytes tags d.init s) (hlimit : tags.length ≤ memberLimit)
    (htags : ∀ field ∈ d.fields, field.isRequired = true → field.id ∈ tags) :
    d.unpack bytes.length bytes = .ok s := by
  obtain ⟨members, hmembers, hscan, hread⟩ := h
  have hslots : members.length ≤ memberLimit := by
    rwa [← hmembers, List.length_map] at hlimit
  have hpositions : (members.map fun member => d.position member.tag) = tags.map d.position := by
    rw [← hmembers, List.map_map]
    rfl
  rw [unpack_eq, scan_slots hscan hslots, Result.ok_bind, readMembers, hpositions,
    requiredSet_of_tags htags, if_pos rfl]
  exact hread

theorem mem_tags_of_isRequired {field : Field α S} (h : field.isRequired = true) (s : S) :
    field.id ∈ field.tags s := by
  cases field with
  | required id type lens => exact List.mem_singleton_self id
  | optional id type lens => cases h
  | repeated id type lens hprefixed => cases h

/-- What is packed is unpacked again. -/
theorem unpack_pack {s : S} (hfits : d.Fits s) :
    d.unpack (d.pack s).length (d.pack s) = .ok s := by
  refine unpack_of_yields (yields_fields (fun _ hfield => hfield) hfits.fields (d.restores s))
    hfits.members ?_
  intro field hfield hrequired
  exact List.mem_flatMap.mpr ⟨field, hfield, mem_tags_of_isRequired hrequired s⟩

end Reading

section Sizes

variable {d}

theorem length_pack (s : S) : (d.pack s).length = d.packedSize s := by
  rw [pack, packedSize, List.length_flatMap]
  congr 1
  exact List.map_congr_left fun field hfield => Field.length_pack (d.id_lt field hfield) s

theorem length_pack_le (limit : ℕ) {s : S} (hid : ∀ field ∈ d.fields, field.id < 2 ^ 11)
    (hsmall : ∀ field ∈ d.fields, field.Small limit s) :
    (d.pack s).length ≤ (d.fields.flatMap (Field.tags s)).length * (limit + 2) := by
  rw [pack]
  generalize d.fields = fields at hid hsmall ⊢
  induction fields with
  | nil => exact Nat.zero_le _
  | cons field fields ih =>
      have hfirst := Field.length_pack_le (hid field List.mem_cons_self)
        (hsmall field List.mem_cons_self)
      have hrest := ih (fun field hfield => hid field (List.mem_cons_of_mem _ hfield))
        fun field hfield => hsmall field (List.mem_cons_of_mem _ hfield)
      rw [List.flatMap_cons, List.flatMap_cons, List.length_append, List.length_append,
        Nat.add_mul]
      omega

end Sizes

section Limits

variable {d}

/-- Every message of at most 2^28 - 32 bytes can be read back. -/
theorem fits_of_length {s : S} (hlength : (d.pack s).length ≤ 2 * memberLimit) : d.Fits s := by
  constructor
  · intro field hfield
    have hle : (field.pack s).length ≤ (d.pack s).length := length_le_length_flatMap hfield
    exact Field.fits_of_length (hle.trans hlength)
  · have htwo : 2 * (d.fields.flatMap (Field.tags s)).length ≤ (d.pack s).length := by
      rw [pack, List.length_flatMap, List.length_flatMap]
      induction d.fields with
      | nil => exact le_rfl
      | cons field fields ih =>
          have hfirst := field.two_mul_length_tags s
          rw [List.map_cons, List.sum_cons, List.map_cons, List.sum_cons]
          omega
    omega

end Limits

section Appending

/-- The bytes are members that belong to no field. -/
def Unknown (bytes : List α) : Prop :=
  ∃ members, scan value members.length bytes.length bytes = .ok members ∧
    ∀ member ∈ members, d.position member.tag = none

variable {d}

theorem Unknown.yields {bytes : List α} (h : d.Unknown bytes) (s : S) :
    ∃ tags, d.Yields bytes tags s s := by
  obtain ⟨members, hscan, hunknown⟩ := h
  refine ⟨_, members, rfl, hscan, ?_⟩
  clear hscan
  induction members with
  | nil => rfl
  | cons member members ih =>
      have haccept : d.accept s member = .ok s := by
        rw [accept, parseMember, hunknown member List.mem_cons_self]
        rfl
      rw [List.foldlM_cons, haccept]
      exact ih fun member hmember => hunknown member (List.mem_cons_of_mem _ hmember)

theorem unknown_packTagged (type : FieldType α β) {id : ℕ} (hid : id < 2 ^ 29)
    (hother : ∀ field ∈ d.fields, field.id ≠ id) {v : β} (hfits : type.Fits v) :
    d.Unknown (type.packTagged id v) := by
  obtain ⟨prefixLen, hscan, -⟩ := type.reads v hfits
  refine ⟨[⟨id, type.wireType, prefixLen, (type.pack v).length, type.pack v⟩],
    scan_packed value_byte hid type.wireType_lt hscan, ?_⟩
  intro member hmember
  rw [List.mem_singleton.mp hmember]
  exact position_eq_none hother (hid.trans (by decide))

theorem requiredSet_append {positions : List (Option ℕ)} (h : d.requiredSet positions = true)
    (more : List (Option ℕ)) : d.requiredSet (positions ++ more) = true := by
  rw [requiredSet, List.all_eq_true] at h ⊢
  intro field hfield
  have hset := h field hfield
  rw [Bool.or_eq_true] at hset ⊢
  refine hset.imp_right fun hfound => ?_
  rw [List.contains_iff_mem] at hfound ⊢
  exact List.mem_append_left _ hfound

theorem unpack_append_of_yields {bytes more : List α} {tags : List ℕ} {s t : S}
    (h : d.unpack bytes.length bytes = .ok s) (hmore : d.Yields more tags s t)
    (hlength : (bytes ++ more).length ≤ 2 * memberLimit) :
    d.unpack (bytes ++ more).length (bytes ++ more) = .ok t := by
  rw [unpack_eq] at h
  obtain ⟨members, hmembers, h⟩ := Result.bind_eq_ok.mp h
  rw [readMembers] at h
  split at h
  · rename_i hset
    obtain ⟨members', -, hscan', hread'⟩ := hmore
    have hslots := two_mul_length_of_scan hmembers
    have hslots' := two_mul_length_of_scan hscan'
    have hscan : scan value (members.length + members'.length) (bytes ++ more).length
        (bytes ++ more) = .ok (members.map (·.extend more) ++ members') := by
      rw [List.length_append, scan_concat more hmembers, hscan', Result.map_ok]
    have hcount : (members.map (·.extend more) ++ members').length =
        members.length + members'.length := by rw [List.length_append, List.length_map]
    rw [← hcount] at hscan
    have hlimit : (members.map (·.extend more) ++ members').length ≤ memberLimit := by
      rw [List.length_append] at hlength
      omega
    have hwithin : ∀ member ∈ members, member.Within :=
      fun member hmember => (within_of_scan hmembers member hmember).1
    have hpositions : ((members.map (·.extend more) ++ members').map fun member =>
        d.position member.tag) = (members.map fun member => d.position member.tag) ++
          members'.map fun member => d.position member.tag := by
      rw [List.map_append, List.map_map]
      rfl
    rw [unpack_eq, scan_slots hscan hlimit, Result.ok_bind, readMembers, hpositions,
      if_pos (requiredSet_append hset _), List.foldlM_append,
      foldlM_extend d.init hwithin more, h]
    exact hread'
  · cases h

theorem unpack_append_unknown {bytes more : List α} {s : S}
    (h : d.unpack bytes.length bytes = .ok s) (hmore : d.Unknown more)
    (hlength : (bytes ++ more).length ≤ 2 * memberLimit) :
    d.unpack (bytes ++ more).length (bytes ++ more) = .ok s := by
  obtain ⟨tags, hyields⟩ := hmore.yields s
  exact unpack_append_of_yields h hyields hlength

end Appending

section Nested

variable {d}

theorem merge_init (s : S) : d.merge d.init s = s := by
  have hfields : ∀ fields : List (Field α S), (∀ field ∈ fields, field.Unset d.init) →
      fields.foldl (fun s field => field.mergeInto d.init s) s = s := by
    intro fields hunset
    induction fields with
    | nil => rfl
    | cons field fields ih =>
        rw [List.foldl_cons, Field.mergeInto_unset (hunset field List.mem_cons_self)]
        exact ih fun field hfield => hunset field (List.mem_cons_of_mem _ hfield)
  exact hfields d.fields d.unset

/-- `PROTOBUF_C_TYPE_MESSAGE`. A message that is given again is merged with the earlier one. -/
def message (d : Descriptor α S) : FieldType α S where
  wireType := 2
  pack s := prefixedPack byte (d.pack s)
  packedSize s := uint32Size (UInt32.ofNat (d.packedSize s)) + d.packedSize s
  parse member :=
    if member.wireType ≠ 2 then .error .malformed
    else d.unpack member.payloadLen member.payload
  combine := d.merge
  merge earlier latter :=
    match earlier, latter with
    | some earlier, some latter => some (d.merge earlier latter)
    | some earlier, none => some earlier
    | none, latter => latter
  Fits s := (d.pack s).length + 5 < 2 ^ 32 ∧ d.Fits s
  wireType_lt := lengthPrefixed_lt
  length_pack s := by rw [length_prefixedPack, length_pack]
  pack_pos s := FieldType.bytes.pack_pos (d.pack s)
  reads s hfits := by
    refine ⟨_, scanPayload_prefixedPack value_byte hfits.1, fun tag => ?_⟩
    obtain ⟨hlen, hpayload⟩ := payload_prefixedPack tag hfits.1
    rw [if_neg (by simp), hlen, hpayload, unpack_pack hfits.2]
  fits_of_length s hlength := ⟨fits_of_length_prefixedPack hlength,
    fits_of_length ((length_le_length_prefixedPack (d.pack s)).trans hlength)⟩
  merge_none _ := rfl
  parse_extend member rest hwithin := by
    rw [member.wireType_extend, member.payloadLen_extend, hwithin.payload_extend,
      unpack_append hwithin.payloadLen_le]
  parse_ne_outOfBounds member hwithin := by
    split
    · simp
    · exact unpack_ne_outOfBounds hwithin.payloadLen_le

theorem packedSize_message_le (s : S) : d.message.packedSize s ≤ (d.pack s).length + 5 := by
  have hprefix := uint32Size_le (UInt32.ofNat (d.packedSize s))
  rw [length_pack]
  change uint32Size (UInt32.ofNat (d.packedSize s)) + d.packedSize s ≤ d.packedSize s + 5
  omega

theorem wireType_message (d : Descriptor α S) : d.message.wireType = 2 := rfl

@[simp] theorem combine_message (d : Descriptor α S) (v : S) :
    d.message.combine d.init v = v := merge_init v

end Nested

end Descriptor

end Wire
