import Molch.Packet
import Molch.Symbolic

namespace Molch

variable {B : Type} [Byte B] [Sodium B] [ProtobufC B]

/-- What the functions that read packets find in one. -/
structure PacketRead (packet : List B) (headerKey : EmptyableHeaderKey B)
    (messageKey : MessageKey B) (header message : List B) (metadata : Metadata B) : Prop where
  packetDecrypt : packetDecrypt packet headerKey messageKey = .ok ⟨header, message, metadata⟩
  packetDecryptHeader : packetDecryptHeader packet headerKey = .ok header
  packetDecryptMessage : packetDecryptMessage packet messageKey = .ok message
  metadata : packetGetMetadataWithoutVerification packet = .ok metadata

theorem toMolchMessageType_toPacketHeaderPacketType {packetType : MessageType}
    (h : packetType ≠ .invalid) :
    toMolchMessageType (toPacketHeaderPacketType packetType) = packetType := by
  cases packetType with
  | prekeyMessage => rfl
  | normalMessage => rfl
  | invalid => exact absurd rfl h

theorem packetRead_of_unpacked (hbox : SecretboxRoundTrip B) {packet : List B}
    {packetType : MessageType} {headerKey : EmptyableHeaderKey B} {header message : List B}
    {messageKey : MessageKey B} {prekeyMetadata : Option (PrekeyMetadata B)}
    {headerNonce messageNonce : Nonce B} (htype : packetType ≠ .invalid)
    (hkey : headerKey.empty = false)
    (hmetadata : packetType = .prekeyMessage ↔ prekeyMetadata.isSome)
    (hpacket : ProtobufC.packetUnpack packet = some (encryptedPacketStruct packetType header
      headerKey.key (paddedMessage message) messageKey prekeyMetadata headerNonce messageNonce)) :
    PacketRead packet headerKey messageKey header message ⟨0, 0, packetType, prekeyMetadata⟩ := by
  have hunpack := packetUnpack_of_unpacked hpacket hmetadata
  have hseals : Seals packet headerKey.key header messageKey message := ⟨_, hunpack, rfl, rfl⟩
  have hheader := hseals.packetDecryptHeader hbox
  have hmessage := hseals.packetDecryptMessage hbox
  rw [← EmptyableKey.eq_ofKey hkey] at hheader
  have hread : packetGetMetadataWithoutVerification packet =
      .ok ⟨0, 0, packetType, prekeyMetadata⟩ := by
    simp only [packetGetMetadataWithoutVerification, hunpack, Result.ok_bind, Result.pure_eq_ok,
      toMolchMessageType_toPacketHeaderPacketType htype]
  refine ⟨?_, hheader, hmessage, hread⟩
  simp only [packetDecrypt, hread, hheader, hmessage, Result.ok_bind, Result.pure_eq_ok]

omit [Byte B] [Sodium B] [ProtobufC B] in
theorem isSome_carriedMetadata {packetType : MessageType}
    {prekeyMetadata : Option (PrekeyMetadata B)}
    (hmetadata : packetType = .prekeyMessage → prekeyMetadata.isSome) :
    packetType = .prekeyMessage ↔
      (if packetType = .prekeyMessage then prekeyMetadata else none).isSome := by
  split
  · rename_i hprekey
    exact iff_of_true hprekey (hmetadata hprekey)
  · rename_i hnormal
    exact iff_of_false hnormal (by simp)

theorem packetRead_of_packetEncrypt (hbox : SecretboxRoundTrip B) (hproto : ProtobufRoundTrip B)
    {packetType : MessageType} {headerKey : EmptyableHeaderKey B}
    {prekeyMetadata : Option (PrekeyMetadata B)} (htype : packetType ≠ .invalid)
    (hkey : headerKey.empty = false)
    (hmetadata : packetType = .prekeyMessage → prekeyMetadata.isSome)
    (header message : List B) (messageKey : MessageKey B) (w : World B) :
    ∃ packet w', packetEncrypt packetType header headerKey message messageKey prekeyMetadata w =
        (.ok packet, w') ∧
      PacketRead packet headerKey messageKey header message
        ⟨0, 0, packetType, if packetType = .prekeyMessage then prekeyMetadata else none⟩ :=
  ⟨_, _, packetEncrypt_eq htype hkey hmetadata header message messageKey w,
    packetRead_of_unpacked hbox htype hkey (isSome_carriedMetadata hmetadata) (hproto.packet _)⟩

/-- The parts of a message survive the way through a packet. -/
theorem packet_round_trip (hbox : SecretboxRoundTrip B) (hproto : ProtobufRoundTrip B)
    (ephemeral : PublicKey B) (messageNumber previousMessageNumber : UInt32)
    {headerKey : EmptyableHeaderKey B} (hkey : headerKey.empty = false)
    (messageKey : MessageKey B) (message : List B) {packetType : MessageType}
    (htype : packetType ≠ .invalid) {prekeyMetadata : Option (PrekeyMetadata B)}
    (hmetadata : packetType = .prekeyMessage → prekeyMetadata.isSome) (w : World B) :
    ∃ packet w', packetEncrypt packetType
        (headerConstruct ephemeral messageNumber previousMessageNumber) headerKey message
        messageKey prekeyMetadata w = (.ok packet, w') ∧
      PacketRead packet headerKey messageKey
        (headerConstruct ephemeral messageNumber previousMessageNumber) message
        ⟨0, 0, packetType, if packetType = .prekeyMessage then prekeyMetadata else none⟩ ∧
      (packetDecryptHeader packet headerKey).bind headerExtract =
        .ok ⟨ephemeral, messageNumber, previousMessageNumber⟩ := by
  obtain ⟨packet, w', hencrypt, hread⟩ := packetRead_of_packetEncrypt hbox hproto htype hkey
    hmetadata (headerConstruct ephemeral messageNumber previousMessageNumber) message messageKey w
  refine ⟨packet, w', hencrypt, hread, ?_⟩
  rw [hread.packetDecryptHeader]
  exact headerExtract_headerConstruct hproto ephemeral messageNumber previousMessageNumber

namespace Symbolic

/-- A prekey message as long as a block of the padding. -/
theorem packet_round_trip_full_block :
    ∃ packet w', packetEncrypt .prekeyMessage (headerConstruct Key.zero 1 2) (.ofKey (carry 32 1))
        (List.replicate 255 7) (carry 32 2) (some ⟨carry 32 3, carry 32 4, carry 32 5⟩) world =
          (.ok packet, w') ∧
      packetDecryptMessage packet (carry 32 2) = .ok (List.replicate 255 7) := by
  have hkey : (EmptyableKey.ofKey (carry 32 1)).empty = false := rfl
  have htype : MessageType.prekeyMessage ≠ .invalid := by decide
  have hmetadata : MessageType.prekeyMessage = .prekeyMessage →
      (some (⟨carry 32 3, carry 32 4, carry 32 5⟩ : PrekeyMetadata ℕ)).isSome := fun _ => rfl
  obtain ⟨packet, w', hencrypt, hread, -⟩ := packet_round_trip secretboxRoundTrip
    protobufRoundTrip Key.zero 1 2 hkey (carry 32 2) (List.replicate 255 7) htype hmetadata world
  exact ⟨packet, w', hencrypt, hread.packetDecryptMessage⟩

end Symbolic

end Molch
