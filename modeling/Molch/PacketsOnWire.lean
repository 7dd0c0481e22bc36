import Molch.BackupsOnWire
import Molch.PacketRoundTrip

namespace Molch

open Wire

section Readings

variable {B : Type} [Byte B] [ProtobufC B] {packet packet' : List B}

omit [Byte B] in
theorem packetUnpack_congr
    (h : ProtobufC.packetUnpack packet' = ProtobufC.packetUnpack packet) :
    packetUnpack packet' = packetUnpack packet := by
  rw [packetUnpack, packetUnpack, h]

variable (h : packetUnpack packet' = packetUnpack packet)

include h

omit [Byte B] in
theorem packetGetMetadata_congr : packetGetMetadataWithoutVerification packet' =
    packetGetMetadataWithoutVerification packet := by
  rw [packetGetMetadataWithoutVerification, packetGetMetadataWithoutVerification, h]

variable [Sodium B]

omit [Byte B] in
theorem packetDecryptHeader_congr (headerKey : EmptyableHeaderKey B) :
    packetDecryptHeader packet' headerKey = packetDecryptHeader packet headerKey := by
  rw [packetDecryptHeader, packetDecryptHeader, h]

theorem packetDecryptMessage_congr (messageKey : MessageKey B) :
    packetDecryptMessage packet' messageKey = packetDecryptMessage packet messageKey := by
  rw [packetDecryptMessage, packetDecryptMessage, h]

theorem packetDecrypt_congr (headerKey : EmptyableHeaderKey B) (messageKey : MessageKey B) :
    packetDecrypt packet' headerKey messageKey = packetDecrypt packet headerKey messageKey := by
  rw [packetDecrypt, packetDecrypt, packetGetMetadata_congr h, packetDecryptHeader_congr h,
    packetDecryptMessage_congr h]

theorem firstDecryption_congr (nodes : List (HeaderAndMessageKey B)) :
    firstDecryption packet' nodes = firstDecryption packet nodes := by
  induction nodes with
  | nil => rfl
  | cons node nodes ih =>
      rw [firstDecryption, firstDecryption, packetDecrypt_congr h, ih]

namespace Conversation

theorem trySkipped_congr (conversation : Conversation B) :
    conversation.trySkippedHeaderAndMessageKeys packet' =
      conversation.trySkippedHeaderAndMessageKeys packet := by
  rw [trySkippedHeaderAndMessageKeys, trySkippedHeaderAndMessageKeys, firstDecryption_congr h]

variable [Platform]

theorem receiveWithHeader_congr (conversation : Conversation B) (header : List B)
    (headerDecryptable : HeaderDecryptability) (w : World B) :
    conversation.receiveWithHeader packet' header headerDecryptable w =
      conversation.receiveWithHeader packet header headerDecryptable w := by
  simp only [receiveWithHeader, packetDecryptMessage_congr h]

theorem receive_congr (conversation : Conversation B) (w : World B) :
    conversation.receive packet' w = conversation.receive packet w := by
  have hkeys : ∀ conversation : Conversation B,
      conversation.receiveWithHeaderKeys packet' w = conversation.receiveWithHeaderKeys packet w := by
    intro conversation
    simp only [receiveWithHeaderKeys, packetDecryptHeader_congr h, receiveWithHeader_congr h]
  simp only [receive, internalReceive, trySkipped_congr h, hkeys]

theorem createReceiveConversation_congr (receiverPublicIdentity : PublicKey B)
    (receiverPrivateIdentity : PrivateKey B) (receiverPrekeys : PrekeyStore B) (w : World B) :
    createReceiveConversation packet' receiverPublicIdentity receiverPrivateIdentity
        receiverPrekeys w =
      createReceiveConversation packet receiverPublicIdentity receiverPrivateIdentity
        receiverPrekeys w := by
  simp only [createReceiveConversation, unverifiedPrekeyMetadata, packetGetMetadata_congr h,
    receive_congr h]

end Conversation

end Readings

section Padding

variable {B : Type} [Byte B]

/-- The packet with members of unknown fields behind it. -/
def Padded (packet packet' : List B) : Prop :=
  ∃ s more, packetDescriptor.unpack packet.length packet = .ok s ∧
    packetDescriptor.Unknown more ∧ packet' = packet ++ more ∧ packet'.length ≤ protobufLimit

theorem Padded.packetUnpack {packet packet' : List B} (h : Padded packet packet') :
    @Molch.packetUnpack B (ProtobufC.wire B) packet' =
      @Molch.packetUnpack B (ProtobufC.wire B) packet := by
  obtain ⟨s, more, hpacket, hmore, rfl, hlength⟩ := h
  let _ := ProtobufC.wire B
  refine packetUnpack_congr (congrArg Except.toOption ?_)
  rw [Descriptor.unpack_append_unknown hpacket hmore hlength, hpacket]

namespace Library

inductive Call.Padded : Call B → Call B → Prop
  | same (c : Call B) : Call.Padded c c
  | getMessageType {packet packet' : List B} (h : Molch.Padded packet packet') :
      Call.Padded (.getMessageType packet) (.getMessageType packet')
  | startReceiveConversation {packet packet' : List B} (h : Molch.Padded packet packet')
      (receiverId senderId : PublicSigningKey B) (createBackup : Bool) :
      Call.Padded (.startReceiveConversation receiverId senderId packet createBackup)
        (.startReceiveConversation receiverId senderId packet' createBackup)
  | decryptMessage {packet packet' : List B} (h : Molch.Padded packet packet')
      (id : ConversationId B) (createBackup : Bool) :
      Call.Padded (.decryptMessage id packet createBackup) (.decryptMessage id packet' createBackup)

variable [Sodium B] [Platform]

theorem call_padded {c c' : Call B} (h : Call.Padded c c') (state : Library B × World B) :
    @call B _ _ (ProtobufC.wire B) _ state c' = @call B _ _ (ProtobufC.wire B) _ state c := by
  let _ := ProtobufC.wire B
  cases h with
  | same c => rfl
  | getMessageType h =>
      simp only [call, Library.getMessageType, packetGetMetadata_congr h.packetUnpack]
  | startReceiveConversation h receiverId senderId createBackup =>
      simp only [call, Library.startReceiveConversation,
        Conversation.createReceiveConversation_congr h.packetUnpack]
  | decryptMessage h id createBackup =>
      simp only [call, Library.decryptMessage, Conversation.receive_congr h.packetUnpack]

/-- No run of the library shows that packets have been padded with unknown fields: every reply
and the final state are the same. -/
theorem padding_unnoticed {calls calls' : List (Call B)}
    (h : List.Forall₂ Call.Padded calls calls') (state : Library B × World B) :
    letI := ProtobufC.wire B
    Runs.outputs call state calls' = Runs.outputs call state calls ∧
      Runs.final call state calls' = Runs.final call state calls := by
  let _ := ProtobufC.wire B
  induction h generalizing state with
  | nil => exact ⟨rfl, rfl⟩
  | cons hcall _ ih =>
      simp only [Runs.outputs, Runs.final, call_padded hcall]
      obtain ⟨houtputs, hfinal⟩ := ih (call state _).2
      exact ⟨congrArg _ houtputs, hfinal⟩

end Library

section RoundTrip

theorem wire_packetUnpack_append {s : ProtobufCPacket B} {more : List B}
    (hmore : packetDescriptor.Unknown more)
    (hlength : ((ProtobufC.wire B).packetPack s ++ more).length ≤ protobufLimit) :
    (ProtobufC.wire B).packetUnpack ((ProtobufC.wire B).packetPack s ++ more) = some s := by
  have hshort : ((ProtobufC.wire B).packetPack s).length ≤ protobufLimit := by
    rw [List.length_append] at hlength
    omega
  have hpacket := Descriptor.unpack_append_unknown
    (Descriptor.unpack_pack (Descriptor.fits_of_length hshort)) hmore hlength
  exact congrArg Except.toOption hpacket

theorem headerExtract_on_wire (ephemeral : PublicKey B)
    (messageNumber previousMessageNumber : UInt32) :
    letI := ProtobufC.wire B
    headerExtract (headerConstruct ephemeral messageNumber previousMessageNumber) =
      .ok ⟨ephemeral, messageNumber, previousMessageNumber⟩ := by
  let _ := ProtobufC.wire B
  refine headerExtract_of_headerUnpack (toOption_unpack_pack headerDescriptor _ ?_)
  change (headerConstruct ephemeral messageNumber previousMessageNumber).length ≤ protobufLimit
  rw [length_headerConstruct packsOnWire_wire]
  decide

variable [Sodium B] {packetType : MessageType} {headerKey : EmptyableHeaderKey B}
  {prekeyMetadata : Option (PrekeyMetadata B)}

/-- What goes into a packet comes out of the bytes on the wire, whatever unknown fields are
added, and the length of the packet is known beforehand. -/
theorem packet_round_trip_on_wire (hbox : SecretboxRoundTrip B) (ephemeral : PublicKey B)
    (messageNumber previousMessageNumber : UInt32) (hkey : headerKey.empty = false)
    (messageKey : MessageKey B) (message : List B) (htype : packetType ≠ .invalid)
    (hmetadata : packetType = .prekeyMessage → prekeyMetadata.isSome) (w : World B) :
    letI := ProtobufC.wire B
    ∃ packet w', packetEncrypt packetType
        (headerConstruct ephemeral messageNumber previousMessageNumber) headerKey message
        messageKey prekeyMetadata w = (.ok packet, w') ∧
      packet.length = packetLength packetType (message.length / paddingBlocksize) ∧
      ∀ more, packetDescriptor.Unknown more → (packet ++ more).length ≤ protobufLimit →
        PacketRead (packet ++ more) headerKey messageKey
          (headerConstruct ephemeral messageNumber previousMessageNumber) message
          ⟨0, 0, packetType, if packetType = .prekeyMessage then prekeyMetadata else none⟩ ∧
        (packetDecryptHeader (packet ++ more) headerKey).bind headerExtract =
          .ok ⟨ephemeral, messageNumber, previousMessageNumber⟩ := by
  let _ := ProtobufC.wire B
  have hcarried := isSome_carriedMetadata hmetadata
  refine ⟨_, _, packetEncrypt_eq htype hkey hmetadata _ message messageKey w,
    length_packetPack packsOnWire_wire hcarried ephemeral messageNumber previousMessageNumber
      headerKey.key message messageKey _ _, ?_⟩
  intro more hmore hlength
  have hread := packetRead_of_unpacked hbox htype hkey hcarried
    (wire_packetUnpack_append hmore hlength)
  refine ⟨hread, ?_⟩
  rw [hread.packetDecryptHeader]
  exact headerExtract_on_wire ephemeral messageNumber previousMessageNumber

end RoundTrip

end Padding

namespace Symbolic

open Conversation Library

theorem unknown_fieldFour : packetDescriptor.Unknown
    ((FieldType.bytes (α := ℕ)).packTagged 4 [1, 2, 3]) := by
  refine Descriptor.unknown_packTagged _ (by decide) ?_ (show 3 + 5 < 2 ^ 32 by decide)
  simp [packetDescriptor, Field.id]

/-- A prekey message with a fourth field behind it. -/
theorem packet_round_trip_on_wire_fieldFour :
    letI := ProtobufC.wire ℕ
    ∃ packet w', packetEncrypt .prekeyMessage (headerConstruct Key.zero 1 2) (.ofKey (carry 32 1))
        (List.replicate 255 7) (carry 32 2) (some ⟨carry 32 3, carry 32 4, carry 32 5⟩) world =
          (.ok packet, w') ∧
      packetDecryptMessage (packet ++ FieldType.bytes.packTagged 4 [1, 2, 3]) (carry 32 2) =
        .ok (List.replicate 255 7) := by
  let _ := ProtobufC.wire ℕ
  have hkey : (EmptyableKey.ofKey (carry 32 1)).empty = false := rfl
  have htype : MessageType.prekeyMessage ≠ .invalid := by decide
  have hmetadata : MessageType.prekeyMessage = .prekeyMessage →
      (some (⟨carry 32 3, carry 32 4, carry 32 5⟩ : PrekeyMetadata ℕ)).isSome := fun _ => rfl
  obtain ⟨packet, w', hencrypt, hlength, hread⟩ := packet_round_trip_on_wire secretboxRoundTrip
    Key.zero 1 2 hkey (carry 32 2) (List.replicate 255 7) htype hmetadata world
  refine ⟨packet, w', hencrypt, (hread _ unknown_fieldFour ?_).1.packetDecryptMessage⟩
  rw [List.length_append, hlength, List.length_replicate]
  decide

/-- What the peer of a conversation sends as the first message of a chain. -/
theorem exists_packet_on_wire {conversation : Conversation ℕ}
    (hwell : conversation.ratchet.WellFormed)
    (hheader : conversation.ratchet.receiveHeaderKey.isNone = false)
    (hskipped : conversation.ratchet.skippedHeaderAndMessageKeys = .clear)
    (hnumber : conversation.ratchet.receiveMessageNumber = 0) :
    letI := ProtobufC.wire ℕ
    ∃ packet next w', Padded packet (packet ++ FieldType.bytes.packTagged 4 [1, 2, 3]) ∧
      getMessageType packet = .normalMessage ∧
      conversation.receive packet calmWorld = (.ok ⟨0, 0, [1, 2, 3]⟩, next, w') := by
  let _ := ProtobufC.wire ℕ
  have htype : MessageType.normalMessage ≠ .invalid := by decide
  have hcarried : MessageType.normalMessage = .prekeyMessage ↔
      (none : Option (PrekeyMetadata ℕ)).isSome := by simp
  have hkey := EmptyableKey.empty_eq_false_of_isNone hheader
  let packet := ProtobufC.packetPack (encryptedPacketStruct .normalMessage
    (headerConstruct Key.zero 0 0) conversation.ratchet.receiveHeaderKey.key
    (paddedMessage [1, 2, 3]) conversation.ratchet.receiveChainKey.key.messageKey none Key.zero
    Key.zero)
  have hlength : packet.length =
      packetLength .normalMessage ([1, 2, 3].length / paddingBlocksize) :=
    length_packetPack packsOnWire_wire hcarried _ _ _ _ _ _ _ _
  have hlimit : packet.length ≤ protobufLimit := by
    rw [hlength]
    decide
  have hread : PacketRead packet conversation.ratchet.receiveHeaderKey
      conversation.ratchet.receiveChainKey.key.messageKey (headerConstruct Key.zero 0 0)
      [1, 2, 3] ⟨0, 0, .normalMessage, none⟩ :=
    packetRead_of_unpacked secretboxRoundTrip htype hkey hcarried
      (toOption_unpack_pack packetDescriptor _ hlimit)
  have hleft := SkippedLeft.of_clear hskipped packet
  have hcount : 0 = conversation.ratchet.skippedCount 0 := (Nat.zero_sub _).symm
  have hskip : tooManySkipped conversation.ratchet.receiveMessageNumber 0 = false := by
    rw [hnumber]
    decide
  obtain ⟨w', hreceive⟩ := Received.receive_eq kdfNonzero hwell.receivedValid
    hwell.headerDecryptable hwell.receiveChainKey (w := calmWorld)
    (.currentChain hleft hread.packetDecryptHeader (headerExtract_on_wire Key.zero 0 0) hheader
      hskip hcount rfl hread.packetDecryptMessage)
  refine ⟨packet, _, w', ⟨_, _, Descriptor.unpack_pack (Descriptor.fits_of_length hlimit),
    unknown_fieldFour, rfl, ?_⟩, ?_, hreceive⟩
  · rw [List.length_append, hlength]
    decide
  · rw [getMessageType, hread.metadata]

/-- A library opens the padded packet for one of its conversations. -/
theorem padding_unnoticed_fieldFour :
    letI := ProtobufC.wire ℕ
    ∃ (library : Library ℕ) (id : ConversationId ℕ) (packet : List ℕ),
      library.ReachableWith (fun backup => backup.length ≤ protobufLimit) SaneTime ∧
      Runs.outputs Library.call (library, calmWorld)
        [.getMessageType (packet ++ FieldType.bytes.packTagged 4 [1, 2, 3]),
          .decryptMessage id (packet ++ FieldType.bytes.packTagged 4 [1, 2, 3]) false] =
        [.ok (.messageType .normalMessage), .ok (.decryptedMessage [1, 2, 3] 0 0 none)] := by
  let _ := ProtobufC.wire ℕ
  obtain ⟨library, -, user, conversation, hreachable, -, husers, hconversations, -, hheader,
    hskipped, hnumber⟩ := exists_started_library fun backup => backup.length ≤ protobufLimit
  have hfound := UserStore.findConversation_single husers hconversations
  obtain ⟨-, hconversation, -⟩ := (hreachable.sound readsBackups_wire secretboxRoundTrip
    secretboxKeyBound).findConversation hfound
  obtain ⟨packet, next, w', hpadded, htype, hreceive⟩ := exists_packet_on_wire
    (hconversation.wellFormed kdfNonzero scalarmultFailsByPoint) hheader hskipped hnumber
  refine ⟨library, conversation.id, packet, hreachable, ?_⟩
  rw [(Library.padding_unnoticed (.cons (.getMessageType hpadded)
    (.cons (.decryptMessage hpadded conversation.id false) .nil)) (library, calmWorld)).1]
  have htyped : (Library.call (library, calmWorld) (.getMessageType packet)).1 =
      .ok (.messageType .normalMessage) := by
    rw [Library.call, htype]
  have hdecrypted : (Library.call (library, calmWorld)
      (.decryptMessage conversation.id packet false)).1 =
        .ok (.decryptedMessage [1, 2, 3] 0 0 none) := by
    simp only [Library.call, decryptMessage, hfound, hreceive]
    rfl
  exact congrArg₂ (fun typed decrypted => [typed, decrypted]) htyped hdecrypted

end Symbolic

end Molch
