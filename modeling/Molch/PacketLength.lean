import Molch.Foundation.Wire
import Molch.WellFormed

namespace Molch

open Wire Conversation

variable {B : Type}

def ProtobufCHeader.fields (s : ProtobufCHeader B) : List (ℕ × Option (Member B)) :=
  [(1, s.publicEphemeralKey.map .bytes), (2, s.messageNumber.map .fixed32),
    (3, s.previousMessageNumber.map .fixed32)]

def ProtobufCPacketHeader.fields (s : ProtobufCPacketHeader B) : List (ℕ × Option (Member B)) :=
  [(1, some (.uint32 s.currentProtocolVersion)),
    (2, some (.uint32 s.highestSupportedProtocolVersion)),
    (3, s.packetType.map .enum), (4, s.headerNonce.map .bytes), (5, s.messageNonce.map .bytes),
    (16, s.publicIdentityKey.map .bytes), (17, s.publicEphemeralKey.map .bytes),
    (18, s.publicPrekey.map .bytes)]

variable [Byte B]

def ProtobufCPacket.fields (s : ProtobufCPacket B) : List (ℕ × Option (Member B)) :=
  [(1, some (.message (messagePack Byte.ofUInt8 s.packetHeader.fields))),
    (2, s.encryptedAxolotlHeader.map .bytes), (3, s.encryptedMessage.map .bytes)]

/-- The packing functions for headers and packets write the wire format. -/
structure PacksOnWire (B : Type) [Byte B] [ProtobufC B] : Prop where
  header : ∀ s : ProtobufCHeader B,
    ProtobufC.headerPack s = messagePack Byte.ofUInt8 s.fields
  packet : ∀ s : ProtobufCPacket B,
    ProtobufC.packetPack s = messagePack Byte.ofUInt8 s.fields

/-- The length of the padded and encrypted message of a packet. -/
def ciphertextLength (blocks : ℕ) : ℕ := paddingBlocksize * (blocks + 1) + 16

/-- The length of a packet with a message of the given number of full blocks. -/
def packetLength (packetType : MessageType) (blocks : ℕ) : ℕ :=
  (if packetType = .prekeyMessage then 229 else 123) +
    uint32Size (UInt32.ofNat (ciphertextLength blocks)) + ciphertextLength blocks

theorem length_paddedMessage_eq_blocks (message : List B) :
    (paddedMessage message).length =
      paddingBlocksize * (message.length / paddingBlocksize + 1) := by
  have hdiv := Nat.div_add_mod message.length paddingBlocksize
  have hlt := Nat.mod_lt message.length (show 0 < paddingBlocksize by decide)
  rw [length_paddedMessage, Nat.mul_succ]
  omega

section Lengths

variable [ProtobufC B] [Sodium B]

omit [Sodium B] in
theorem length_headerConstruct (hwire : PacksOnWire B) (ephemeral : PublicKey B)
    (messageNumber previousMessageNumber : UInt32) :
    (headerConstruct ephemeral messageNumber previousMessageNumber).length = 44 := by
  rw [headerConstruct, hwire.header]
  simp [ProtobufCHeader.fields, Member.pack, Member.wireType, ephemeral.length_bytes]
  decide

omit [ProtobufC B] in
theorem length_packetHeader (prekeyMetadata : Option (PrekeyMetadata B))
    (packetType : MessageType) (axolotlHeader : List B) (headerKey : HeaderKey B)
    (padded : List B) (messageKey : MessageKey B) (headerNonce messageNonce : Nonce B) :
    (messagePack Byte.ofUInt8 (encryptedPacketStruct packetType axolotlHeader headerKey padded
      messageKey prekeyMetadata headerNonce messageNonce).packetHeader.fields).length =
    if prekeyMetadata.isSome then 163 else 58 := by
  have htype : (int32Pack (Byte.ofUInt8 (B := B)) (toPacketHeaderPacketType packetType)).length =
      1 := by
    cases packetType <;> rfl
  cases prekeyMetadata with
  | none =>
      simp only [encryptedPacketStruct, ProtobufCPacketHeader.fields, Option.map_some,
        Option.map_none, messagePack_some, messagePack_none, messagePack_nil, List.length_append,
        List.length_nil, length_requiredFieldPack, Member.pack, Member.wireType,
        length_prefixedPack, length_uint32Pack, headerNonce.length_bytes,
        messageNonce.length_bytes, htype]
      rfl
  | some metadata =>
      simp only [encryptedPacketStruct, ProtobufCPacketHeader.fields, Option.map_some,
        messagePack_some, messagePack_nil, List.length_append, List.length_nil,
        length_requiredFieldPack, Member.pack, Member.wireType, length_prefixedPack,
        length_uint32Pack, headerNonce.length_bytes, messageNonce.length_bytes, htype,
        metadata.identity.length_bytes, metadata.ephemeral.length_bytes,
        metadata.prekey.length_bytes]
      rfl

theorem length_packetPack (hwire : PacksOnWire B) {packetType : MessageType}
    {prekeyMetadata : Option (PrekeyMetadata B)}
    (hmetadata : packetType = .prekeyMessage ↔ prekeyMetadata.isSome)
    (ephemeral : PublicKey B) (messageNumber previousMessageNumber : UInt32)
    (headerKey : HeaderKey B) (message : List B) (messageKey : MessageKey B)
    (headerNonce messageNonce : Nonce B) :
    (ProtobufC.packetPack (encryptedPacketStruct packetType
      (headerConstruct ephemeral messageNumber previousMessageNumber) headerKey
      (paddedMessage message) messageKey prekeyMetadata headerNonce messageNonce)).length =
    packetLength packetType (message.length / paddingBlocksize) := by
  have hheader := length_packetHeader prekeyMetadata packetType
    (headerConstruct ephemeral messageNumber previousMessageNumber) headerKey
    (paddedMessage message) messageKey headerNonce messageNonce
  have haxolotl : (Sodium.cryptoSecretboxEasy
      (headerConstruct ephemeral messageNumber previousMessageNumber) headerNonce
      headerKey).length = 60 := by
    rw [Sodium.length_cryptoSecretboxEasy, length_headerConstruct hwire]
  have hmessage : (Sodium.cryptoSecretboxEasy (paddedMessage message) messageNonce
      messageKey).length = ciphertextLength (message.length / paddingBlocksize) := by
    rw [Sodium.length_cryptoSecretboxEasy, length_paddedMessage_eq_blocks]
    rfl
  rw [hwire.packet]
  generalize hpacked : messagePack Byte.ofUInt8 (encryptedPacketStruct packetType
    (headerConstruct ephemeral messageNumber previousMessageNumber) headerKey
    (paddedMessage message) messageKey prekeyMetadata headerNonce
    messageNonce).packetHeader.fields = packed at hheader
  simp only [ProtobufCPacket.fields, hpacked]
  simp only [encryptedPacketStruct, Option.map_some, messagePack_some, messagePack_nil,
    List.length_append, List.length_nil, length_requiredFieldPack, Member.pack, Member.wireType,
    length_prefixedPack, haxolotl, hmessage, hheader, packetLength, hmetadata]
  have htags : uint32Size (UInt32.ofNat (1 * 8 + 2)) = 1 ∧
      uint32Size (UInt32.ofNat (2 * 8 + 2)) = 1 ∧ uint32Size (UInt32.ofNat (3 * 8 + 2)) = 1 :=
    ⟨rfl, rfl, rfl⟩
  have hlengths : uint32Size (UInt32.ofNat 163) = 2 ∧ uint32Size (UInt32.ofNat 58) = 1 ∧
      uint32Size (UInt32.ofNat 60) = 1 :=
    ⟨rfl, rfl, rfl⟩
  split_ifs
  · omega
  · omega

namespace Conversation

variable {conversation conversation' : Conversation B}

theorem length_of_send (hwire : PacksOnWire B) {message packet : List B}
    {prekeyMetadata : Option (PrekeyMetadata B)} {w : World B}
    (h : (conversation.send message prekeyMetadata w).1 = .ok packet) :
    packet.length = packetLength (sentType prekeyMetadata)
      (message.length / paddingBlocksize) := by
  obtain ⟨data, ratchet, w', hdata, hkey⟩ := getSendData_of_send (Prod.ext h rfl)
  rw [send_eq hdata hkey message prekeyMetadata, Except.ok.injEq] at h
  subst h
  exact length_packetPack hwire (sentType_eq_prekeyMessage prekeyMetadata) _ _ _ _ _ _ _ _

/-- Two conversations in any two states send packets of one length if the messages fill the
same number of blocks and the packets have the same type. -/
theorem length_of_packets_eq [Platform] {readings readings' : World B → Prop}
    (hwire : PacksOnWire B) (h : conversation.Reachable readings)
    (h' : conversation'.Reachable readings') (message message' : List B)
    (hblocks : message.length / 255 = message'.length / 255)
    (prekeyMetadata prekeyMetadata' : Option (PrekeyMetadata B))
    (htype : prekeyMetadata.isSome = prekeyMetadata'.isSome) (w w' : World B) :
    (∀ packet packet', (conversation.send message prekeyMetadata w).1 = .ok packet →
      (conversation'.send message' prekeyMetadata' w').1 = .ok packet' →
      packet.length = packet'.length ∧
        packet.length = packetLength (sentType prekeyMetadata) (message.length / 255)) ∧
    (KdfNonzero B → ScalarmultFailsByPoint B → ∃ packet packet',
      (conversation.send message prekeyMetadata w).1 = .ok packet ∧
      (conversation'.send message' prekeyMetadata' w').1 = .ok packet') := by
  constructor
  · intro packet packet' hsend hsend'
    have hlength := length_of_send hwire hsend
    refine ⟨?_, hlength⟩
    rw [hlength, length_of_send hwire hsend', sentType, sentType, htype, paddingBlocksize,
      hblocks]
  · intro hkdf hpoint
    obtain ⟨packet, _, _, hsend, -⟩ :=
      wellFormed_send hkdf (h.wellFormed hkdf hpoint) message prekeyMetadata w
    obtain ⟨packet', _, _, hsend', -⟩ :=
      wellFormed_send hkdf (h'.wellFormed hkdf hpoint) message' prekeyMetadata' w'
    rw [hsend, hsend']
    exact ⟨packet, packet', rfl, rfl⟩

end Conversation

end Lengths

namespace Symbolic

/-- Packing as protobuf-c does it for headers and packets, and unpacking as its inverse. -/
@[reducible] noncomputable def onWire : ProtobufC ℕ where
  __ := (inferInstance : ProtobufC ℕ)
  headerPack s := messagePack Byte.ofUInt8 s.fields
  headerUnpack := Function.partialInv fun s => messagePack Byte.ofUInt8 s.fields
  packetPack s := messagePack Byte.ofUInt8 s.fields
  packetUnpack := Function.partialInv fun s => messagePack Byte.ofUInt8 s.fields

/-- The first and the second packet of a conversation have one length if the messages have
between 255 and 509 bytes. -/
theorem length_of_first_packets_eq :
    letI : ProtobufC ℕ := onWire
    ∃ conversation : Conversation ℕ, conversation.Reachable (fun _ => True) ∧
      ∃ packet packet',
        (conversation.send (List.replicate 255 1) none world).1 = .ok packet ∧
        ((conversation.send (List.replicate 255 1) none world).2.1.send (List.replicate 509 2)
          none world).1 = .ok packet' ∧
        packet.length = packet'.length ∧ packet.length = 651 := by
  obtain ⟨ratchet, hratchet⟩ := Ratchet.exists_create (chooseRole_carry Nat.one_lt_two)
    (usable (by decide)) (usable (base_isZero Key.zero)) Key.zero Key.zero
    (Sodium.cryptoScalarmultBase Key.zero)
  let : ProtobufC ℕ := onWire
  have hcreated : Conversation.Reachable (fun _ => True) _ :=
    .create rfl (create_of_ratchet hratchet world)
  obtain ⟨hlengths, hsends⟩ := length_of_packets_eq ⟨fun _ => rfl, fun _ => rfl⟩ hcreated
    (hcreated.send (List.replicate 255 1) none trivial) (List.replicate 255 1)
    (List.replicate 509 2) (by rw [List.length_replicate, List.length_replicate]) none none rfl
    world world
  obtain ⟨packet, packet', hsend, hsend'⟩ := hsends kdfNonzero scalarmultFailsByPoint
  obtain ⟨heq, hlength⟩ := hlengths packet packet' hsend hsend'
  rw [List.length_replicate] at hlength
  exact ⟨_, hcreated, packet, packet', hsend, hsend', heq, hlength⟩

end Symbolic

end Molch
