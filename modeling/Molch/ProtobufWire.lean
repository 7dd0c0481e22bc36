import Molch.Foundation.WireMessage
import Molch.PacketLength

/-!
The messages of the `.proto` files in the wire format. Each descriptor has the fields of its
file, and packing and unpacking are what protobuf-c does with them.
-/

namespace Molch

open Wire

variable {B : Type} [Byte B]

instance : Octets B where
  byte := Byte.ofUInt8
  value := Byte.toUInt8
  value_byte := Byte.toUInt8_ofUInt8

/-- `key.proto`. The message is its only field. -/
def keyDescriptor : Descriptor B (List B) where
  init := []
  fields := [.required 1 .bytes { get := id, set := fun v _ => v }]
  sorted := by simp
  id_lt := by simp [Field.id]
  unset := by
    rintro field hfield
    rw [List.mem_singleton.mp hfield]
    exact fun _ => rfl
  restores _ := by simp

/-- `header.proto`. -/
def headerDescriptor : Descriptor B (ProtobufCHeader B) where
  init := ⟨none, none, none⟩
  fields :=
    [.optional 1 .bytes
      { get := (·.publicEphemeralKey), set := fun v s => { s with publicEphemeralKey := v } },
    .optional 2 Scalar.fixed32.type
      { get := (·.messageNumber), set := fun v s => { s with messageNumber := v } },
    .optional 3 Scalar.fixed32.type
      { get := (·.previousMessageNumber),
        set := fun v s => { s with previousMessageNumber := v } }]
  sorted := by simp [Field.id]
  id_lt := by simp [Field.id]
  unset := by simp [Field.Unset]
  restores _ := by simp

/-- `packet_header.proto`. -/
def packetHeaderDescriptor : Descriptor B (ProtobufCPacketHeader B) where
  init := ⟨0, 0, none, none, none, none, none, none⟩
  fields :=
    [.required 1 Scalar.uint32.type
      { get := (·.currentProtocolVersion),
        set := fun v s => { s with currentProtocolVersion := v } },
    .required 2 Scalar.uint32.type
      { get := (·.highestSupportedProtocolVersion),
        set := fun v s => { s with highestSupportedProtocolVersion := v } },
    .optional 3 Scalar.enum.type
      { get := (·.packetType), set := fun v s => { s with packetType := v } },
    .optional 4 .bytes
      { get := (·.headerNonce), set := fun v s => { s with headerNonce := v } },
    .optional 5 .bytes
      { get := (·.messageNonce), set := fun v s => { s with messageNonce := v } },
    .optional 16 .bytes
      { get := (·.publicIdentityKey), set := fun v s => { s with publicIdentityKey := v } },
    .optional 17 .bytes
      { get := (·.publicEphemeralKey), set := fun v s => { s with publicEphemeralKey := v } },
    .optional 18 .bytes
      { get := (·.publicPrekey), set := fun v s => { s with publicPrekey := v } }]
  sorted := by simp [Field.id]
  id_lt := by simp [Field.id]
  unset := by simp [Field.Unset, Scalar.type]
  restores _ := by simp

/-- `packet.proto`. -/
def packetDescriptor : Descriptor B (ProtobufCPacket B) where
  init := ⟨packetHeaderDescriptor.init, none, none⟩
  fields :=
    [.required 1 packetHeaderDescriptor.message
      { get := (·.packetHeader), set := fun v s => { s with packetHeader := v } },
    .optional 2 .bytes
      { get := (·.encryptedAxolotlHeader),
        set := fun v s => { s with encryptedAxolotlHeader := v } },
    .optional 3 .bytes
      { get := (·.encryptedMessage), set := fun v s => { s with encryptedMessage := v } }]
  sorted := by simp [Field.id]
  id_lt := by simp [Field.id]
  unset := by simp [Field.Unset]
  restores _ := by simp

/-- `key_bundle.proto`. -/
def keyBundleDescriptor : Descriptor B (ProtobufCKeyBundle B) where
  init := ⟨keyDescriptor.init, keyDescriptor.init, none⟩
  fields :=
    [.required 1 keyDescriptor.message
      { get := (·.headerKey), set := fun v s => { s with headerKey := v } },
    .required 2 keyDescriptor.message
      { get := (·.messageKey), set := fun v s => { s with messageKey := v } },
    .optional 3 Scalar.uint64.type
      { get := (·.expirationTime), set := fun v s => { s with expirationTime := v } }]
  sorted := by simp [Field.id]
  id_lt := by simp [Field.id]
  unset := by simp [Field.Unset]
  restores _ := by simp

/-- `prekey.proto`. -/
def prekeyDescriptor : Descriptor B (ProtobufCPrekey B) where
  init := ⟨keyDescriptor.init, none, none⟩
  fields :=
    [.required 1 keyDescriptor.message
      { get := (·.privateKey), set := fun v s => { s with privateKey := v } },
    .optional 2 keyDescriptor.message
      { get := (·.publicKey), set := fun v s => { s with publicKey := v } },
    .optional 3 Scalar.uint64.type
      { get := (·.expirationTime), set := fun v s => { s with expirationTime := v } }]
  sorted := by simp [Field.id]
  id_lt := by simp [Field.id]
  unset := by simp [Field.Unset]
  restores _ := by simp

/-- `conversation.proto`. -/
def conversationDescriptor : Descriptor B (ProtobufCConversation B) where
  init := ⟨[], none, none, none, none, none, none, none, none, none, none, none, none, none, none,
    none, none, none, none, none, none, none, none, none, none, none, none, [], []⟩
  fields :=
    [.required 1 .bytes { get := (·.id), set := fun v s => { s with id := v } },
    .optional 2 .bytes { get := (·.rootKey), set := fun v s => { s with rootKey := v } },
    .optional 3 .bytes
      { get := (·.purportedRootKey), set := fun v s => { s with purportedRootKey := v } },
    .optional 4 .bytes { get := (·.sendHeaderKey), set := fun v s => { s with sendHeaderKey := v } },
    .optional 5 .bytes
      { get := (·.receiveHeaderKey), set := fun v s => { s with receiveHeaderKey := v } },
    .optional 6 .bytes
      { get := (·.nextSendHeaderKey), set := fun v s => { s with nextSendHeaderKey := v } },
    .optional 7 .bytes
      { get := (·.nextReceiveHeaderKey), set := fun v s => { s with nextReceiveHeaderKey := v } },
    .optional 8 .bytes
      { get := (·.purportedReceiveHeaderKey),
        set := fun v s => { s with purportedReceiveHeaderKey := v } },
    .optional 9 .bytes
      { get := (·.purportedNextReceiveHeaderKey),
        set := fun v s => { s with purportedNextReceiveHeaderKey := v } },
    .optional 10 .bytes { get := (·.sendChainKey), set := fun v s => { s with sendChainKey := v } },
    .optional 11 .bytes
      { get := (·.receiveChainKey), set := fun v s => { s with receiveChainKey := v } },
    .optional 12 .bytes
      { get := (·.purportedReceiveChainKey),
        set := fun v s => { s with purportedReceiveChainKey := v } },
    .optional 13 .bytes
      { get := (·.ourPublicIdentityKey), set := fun v s => { s with ourPublicIdentityKey := v } },
    .optional 14 .bytes
      { get := (·.theirPublicIdentityKey),
        set := fun v s => { s with theirPublicIdentityKey := v } },
    .optional 15 .bytes
      { get := (·.ourPrivateEphemeralKey),
        set := fun v s => { s with ourPrivateEphemeralKey := v } },
    .optional 16 .bytes
      { get := (·.ourPublicEphemeralKey), set := fun v s => { s with ourPublicEphemeralKey := v } },
    .optional 17 .bytes
      { get := (·.theirPublicEphemeralKey),
        set := fun v s => { s with theirPublicEphemeralKey := v } },
    .optional 18 .bytes
      { get := (·.theirPurportedPublicEphemeral),
        set := fun v s => { s with theirPurportedPublicEphemeral := v } },
    .optional 19 Scalar.uint32.type
      { get := (·.sendMessageNumber), set := fun v s => { s with sendMessageNumber := v } },
    .optional 20 Scalar.uint32.type
      { get := (·.receiveMessageNumber), set := fun v s => { s with receiveMessageNumber := v } },
    .optional 21 Scalar.uint32.type
      { get := (·.purportedMessageNumber),
        set := fun v s => { s with purportedMessageNumber := v } },
    .optional 22 Scalar.uint32.type
      { get := (·.previousMessageNumber), set := fun v s => { s with previousMessageNumber := v } },
    .optional 23 Scalar.uint32.type
      { get := (·.purportedPreviousMessageNumber),
        set := fun v s => { s with purportedPreviousMessageNumber := v } },
    .optional 24 Scalar.bool.type
      { get := (·.ratchetFlag), set := fun v s => { s with ratchetFlag := v } },
    .optional 25 Scalar.bool.type
      { get := (·.amIAlice), set := fun v s => { s with amIAlice := v } },
    .optional 26 Scalar.bool.type
      { get := (·.receivedValid), set := fun v s => { s with receivedValid := v } },
    .optional 27 Scalar.enum.type
      { get := (·.headerDecryptable), set := fun v s => { s with headerDecryptable := v } },
    .repeated 28 keyBundleDescriptor.message
      { get := (·.skippedHeaderAndMessageKeys),
        set := fun v s => { s with skippedHeaderAndMessageKeys := v } }
      keyBundleDescriptor.wireType_message,
    .repeated 29 keyBundleDescriptor.message
      { get := (·.stagedHeaderAndMessageKeys),
        set := fun v s => { s with stagedHeaderAndMessageKeys := v } }
      keyBundleDescriptor.wireType_message]
  sorted := by simp [Field.id]
  id_lt := by simp [Field.id]
  unset := by simp [Field.Unset]
  restores _ := by simp

/-- `user.proto`. -/
def userDescriptor : Descriptor B (ProtobufCUser B) where
  init := ⟨none, none, none, none, [], [], []⟩
  fields :=
    [.optional 1 keyDescriptor.message
      { get := (·.privateSigningKey), set := fun v s => { s with privateSigningKey := v } },
    .optional 2 keyDescriptor.message
      { get := (·.publicSigningKey), set := fun v s => { s with publicSigningKey := v } },
    .optional 3 keyDescriptor.message
      { get := (·.privateIdentityKey), set := fun v s => { s with privateIdentityKey := v } },
    .optional 4 keyDescriptor.message
      { get := (·.publicIdentityKey), set := fun v s => { s with publicIdentityKey := v } },
    .repeated 5 conversationDescriptor.message
      { get := (·.conversations), set := fun v s => { s with conversations := v } }
      conversationDescriptor.wireType_message,
    .repeated 6 prekeyDescriptor.message
      { get := (·.prekeys), set := fun v s => { s with prekeys := v } }
      prekeyDescriptor.wireType_message,
    .repeated 7 prekeyDescriptor.message
      { get := (·.deprecatedPrekeys), set := fun v s => { s with deprecatedPrekeys := v } }
      prekeyDescriptor.wireType_message]
  sorted := by simp [Field.id]
  id_lt := by simp [Field.id]
  unset := by simp [Field.Unset]
  restores _ := by simp

/-- `backup.proto`. -/
def backupDescriptor : Descriptor B (ProtobufCBackup B) where
  init := ⟨[]⟩
  fields :=
    [.repeated 1 userDescriptor.message
      { get := (·.users), set := fun v s => { s with users := v } }
      userDescriptor.wireType_message]
  sorted := by simp [Field.id]
  id_lt := by simp [Field.id]
  unset := by simp [Field.Unset]
  restores _ := by simp

/-- `encrypted_backup.proto`. -/
def encryptedBackupDescriptor : Descriptor B (ProtobufCEncryptedBackup B) where
  init := ⟨0, none, none, none⟩
  fields :=
    [.required 1 Scalar.uint32.type
      { get := (·.backupVersion), set := fun v s => { s with backupVersion := v } },
    .optional 2 Scalar.enum.type
      { get := (·.backupType), set := fun v s => { s with backupType := v } },
    .optional 3 .bytes
      { get := (·.encryptedBackupNonce), set := fun v s => { s with encryptedBackupNonce := v } },
    .optional 4 .bytes
      { get := (·.encryptedBackup), set := fun v s => { s with encryptedBackup := v } }]
  sorted := by simp [Field.id]
  id_lt := by simp [Field.id]
  unset := by simp [Field.Unset]
  restores _ := by simp

section Generated

variable (B)

/-- The functions that protobuf-c generates. -/
@[reducible] def ProtobufC.wire : ProtobufC B where
  headerPack := headerDescriptor.pack
  headerUnpack data := (headerDescriptor.unpack data.length data).toOption
  packetPack := packetDescriptor.pack
  packetUnpack data := (packetDescriptor.unpack data.length data).toOption
  conversationPack := conversationDescriptor.pack
  conversationUnpack data := (conversationDescriptor.unpack data.length data).toOption
  backupPack := backupDescriptor.pack
  backupUnpack data := (backupDescriptor.unpack data.length data).toOption
  encryptedBackupPack := encryptedBackupDescriptor.pack
  encryptedBackupUnpack data := (encryptedBackupDescriptor.unpack data.length data).toOption

/-- Unpacking inverts packing for messages up to a length. -/
structure ProtobufRoundTripUpTo [ProtobufC B] (limit : ℕ) : Prop where
  header : ∀ s : ProtobufCHeader B, (ProtobufC.headerPack s).length ≤ limit →
    ProtobufC.headerUnpack (ProtobufC.headerPack s) = some s
  packet : ∀ s : ProtobufCPacket B, (ProtobufC.packetPack s).length ≤ limit →
    ProtobufC.packetUnpack (ProtobufC.packetPack s) = some s
  conversation : ∀ s : ProtobufCConversation B, (ProtobufC.conversationPack s).length ≤ limit →
    ProtobufC.conversationUnpack (ProtobufC.conversationPack s) = some s
  backup : ∀ s : ProtobufCBackup B, (ProtobufC.backupPack s).length ≤ limit →
    ProtobufC.backupUnpack (ProtobufC.backupPack s) = some s
  encryptedBackup : ∀ s : ProtobufCEncryptedBackup B,
    (ProtobufC.encryptedBackupPack s).length ≤ limit →
      ProtobufC.encryptedBackupUnpack (ProtobufC.encryptedBackupPack s) = some s

/-- The longest message that certainly has no more members than there are slots. -/
def protobufLimit : ℕ := 2 ^ 28 - 32

variable {B}

theorem toOption_unpack_pack {S : Type} (d : Descriptor B S) (s : S)
    (hlength : (d.pack s).length ≤ protobufLimit) :
    (d.unpack (d.pack s).length (d.pack s)).toOption = some s := by
  rw [Descriptor.unpack_pack (Descriptor.fits_of_length hlength)]
  rfl

/-- Every message of at most 2^28 - 32 bytes is read back from the wire as it was. -/
theorem wire_round_trip : @ProtobufRoundTripUpTo B (ProtobufC.wire B) protobufLimit := by
  let _ := ProtobufC.wire B
  exact
    { header := toOption_unpack_pack headerDescriptor
      packet := toOption_unpack_pack packetDescriptor
      conversation := toOption_unpack_pack conversationDescriptor
      backup := toOption_unpack_pack backupDescriptor
      encryptedBackup := toOption_unpack_pack encryptedBackupDescriptor }

/-- Every message fills exactly the buffer that is allocated for it. -/
theorem packed_sizes_exact :
    (∀ s : ProtobufCHeader B,
      (headerDescriptor.pack s).length = headerDescriptor.packedSize s) ∧
    (∀ s : ProtobufCPacket B,
      (packetDescriptor.pack s).length = packetDescriptor.packedSize s) ∧
    (∀ s : ProtobufCConversation B,
      (conversationDescriptor.pack s).length = conversationDescriptor.packedSize s) ∧
    (∀ s : ProtobufCBackup B,
      (backupDescriptor.pack s).length = backupDescriptor.packedSize s) ∧
    ∀ s : ProtobufCEncryptedBackup B,
      (encryptedBackupDescriptor.pack s).length = encryptedBackupDescriptor.packedSize s :=
  ⟨Descriptor.length_pack, Descriptor.length_pack, Descriptor.length_pack,
    Descriptor.length_pack, Descriptor.length_pack⟩

/-- No bytes, however they have been made up, lead the reader out of the memory that they are
in, and what is behind them does not matter. -/
theorem unpack_stays_within (data rest : List B) :
    (headerDescriptor.unpack data.length data ≠ .error .outOfBounds ∧
      headerDescriptor.unpack data.length (data ++ rest) =
        headerDescriptor.unpack data.length data) ∧
    (packetDescriptor.unpack data.length data ≠ .error .outOfBounds ∧
      packetDescriptor.unpack data.length (data ++ rest) =
        packetDescriptor.unpack data.length data) ∧
    (conversationDescriptor.unpack data.length data ≠ .error .outOfBounds ∧
      conversationDescriptor.unpack data.length (data ++ rest) =
        conversationDescriptor.unpack data.length data) ∧
    (backupDescriptor.unpack data.length data ≠ .error .outOfBounds ∧
      backupDescriptor.unpack data.length (data ++ rest) =
        backupDescriptor.unpack data.length data) ∧
    (encryptedBackupDescriptor.unpack data.length data ≠ .error .outOfBounds ∧
      encryptedBackupDescriptor.unpack data.length (data ++ rest) =
        encryptedBackupDescriptor.unpack data.length data) := by
  have hwithin : ∀ {S : Type} (d : Descriptor B S),
      d.unpack data.length data ≠ .error .outOfBounds ∧
        d.unpack data.length (data ++ rest) = d.unpack data.length data :=
    fun d => ⟨Descriptor.unpack_ne_outOfBounds le_rfl, Descriptor.unpack_append le_rfl rest⟩
  exact ⟨hwithin _, hwithin _, hwithin _, hwithin _, hwithin _⟩

theorem messagePack_cons (id : ℕ) (member : Option (Member B))
    (fields : List (ℕ × Option (Member B))) :
    messagePack Byte.ofUInt8 ((id, member) :: fields) =
      member.elim [] (requiredFieldPack Byte.ofUInt8 id) ++ messagePack Byte.ofUInt8 fields := by
  cases member <;> rfl

theorem packsOnWire_wire : @PacksOnWire B _ (ProtobufC.wire B) := by
  let _ := ProtobufC.wire B
  have hheader : ∀ s : ProtobufCPacketHeader B,
      packetHeaderDescriptor.pack s = messagePack Byte.ofUInt8 s.fields := by
    intro s
    simp only [ProtobufCPacketHeader.fields, messagePack_cons, messagePack_nil, Option.elim_map]
    rfl
  refine ⟨?_, ?_⟩
  · intro s
    simp only [ProtobufCHeader.fields, messagePack_cons, messagePack_nil, Option.elim_map]
    rfl
  · intro s
    simp only [ProtobufCPacket.fields, messagePack_cons, messagePack_nil, Option.elim_map,
      ← hheader]
    rfl

end Generated

end Molch
