import Molch.Establishment
import Molch.PrekeyStore

namespace Molch

variable {B : Type} [Byte B] [Sodium B] [ProtobufC B]

namespace Conversation

/-- `Conversation::createSendConversation`: the packet and the conversation. -/
def createSendConversation (message : List B) (senderPublicIdentity : PublicKey B)
    (senderPrivateIdentity : PrivateKey B) (receiverPublicIdentity : PublicKey B)
    (receiverPrekeyList : List B) (w : World B) :
    Except Error (List B × Conversation B) × World B :=
  if receiverPrekeyList.length ≠ 32 * prekeyAmount then
    (.error (expectationFailed "lib/conversation.cpp"), w)
  else
    match cryptoBoxKeypair w with
    | ((senderPublicEphemeral, senderPrivateEphemeral), w) =>
        match w.randombytesUniform prekeyAmount with
        | (prekeyNumber, w) =>
            match Key.fromSpan ((receiverPrekeyList.drop (32 * prekeyNumber)).take 32) with
            | .error e => (.error e, w)
            | .ok receiverPublicPrekey =>
                match create senderPrivateIdentity senderPublicIdentity receiverPublicIdentity
                    senderPrivateEphemeral senderPublicEphemeral receiverPublicPrekey w with
                | (.error e, w) => (.error e, w)
                | (.ok conversation, w) =>
                    match conversation.send message (some ⟨senderPublicIdentity,
                        senderPublicEphemeral, receiverPublicPrekey⟩) w with
                    | (.error e, _, w) => (.error e, w)
                    | (.ok packet, conversation, w) => (.ok (packet, conversation), w)

/-- The metadata of a prekey packet, read without verification. -/
def unverifiedPrekeyMetadata (packet : List B) : Except Error (PrekeyMetadata B) := do
  let metadata ← packetGetMetadataWithoutVerification packet
  if metadata.packetType ≠ .prekeyMessage then
    .error ⟨.invalidValue, "Packet is not a prekey message."⟩
  else
    match metadata.prekeyMetadata with
    | none => .error ⟨.invalidValue, "Prekey Metadata is missing."⟩
    | some prekeyMetadata => .ok prekeyMetadata

variable [Platform]

/-- `Conversation::createReceiveConversation`: the message and the conversation. -/
def createReceiveConversation (packet : List B) (receiverPublicIdentity : PublicKey B)
    (receiverPrivateIdentity : PrivateKey B) (receiverPrekeys : PrekeyStore B) (w : World B) :
    Except Error (List B × Conversation B) × PrekeyStore B × World B :=
  match unverifiedPrekeyMetadata packet with
  | .error e => (.error e, receiverPrekeys, w)
  | .ok metadata =>
      match receiverPrekeys.getPrekey metadata.prekey w with
      | (.error e, prekeys, w) => (.error e, prekeys, w)
      | (.ok receiverPrivatePrekey, prekeys, w) =>
          match create receiverPrivateIdentity receiverPublicIdentity metadata.identity
              receiverPrivatePrekey metadata.prekey metadata.ephemeral w with
          | (.error e, w) => (.error e, prekeys, w)
          | (.ok conversation, w) =>
              match conversation.receive packet w with
              | (.error e, _, w) => (.error e, prekeys, w)
              | (.ok received, conversation, w) =>
                  (.ok (received.message, conversation), prekeys, w)

def NamesActive (packet : List B) (prekeys : PrekeyStore B) : Prop :=
  ∃ metadata, unverifiedPrekeyMetadata packet = .ok metadata ∧
    metadata.prekey ∈ prekeys.activeKeys

theorem createReceiveConversation_prekeys {packet : List B} {metadata : PrekeyMetadata B}
    (hmetadata : unverifiedPrekeyMetadata packet = .ok metadata) (publicIdentity : PublicKey B)
    (privateIdentity : PrivateKey B) (prekeys : PrekeyStore B) (w : World B) :
    (createReceiveConversation packet publicIdentity privateIdentity prekeys w).2.1 =
      (prekeys.getPrekey metadata.prekey w).2.1 := by
  rw [createReceiveConversation, hmetadata]
  simp only
  split
  · rename_i heq
    rw [heq]
  · rename_i heq
    rw [heq]
    split
    · rfl
    · split
      · rfl
      · rfl

omit [ProtobufC B] [Platform] in
theorem getPrekey_store_eq_iff (prekeys : PrekeyStore B) (publicKey : PublicKey B)
    (w : World B) :
    (prekeys.getPrekey publicKey w).2.1 = prekeys ↔ publicKey ∉ prekeys.activeKeys := by
  rcases prekeys.getPrekey_cases publicKey w with
    ⟨index, hkey, heq⟩ | ⟨hnot, prekey, -, -, heq⟩ | ⟨hnot, -, heq⟩
  · -- a deprecated prekey more than before
    refine iff_of_false ?_ fun hnot => hnot (PrekeyStore.mem_activeKeys.mpr ⟨index, hkey⟩)
    rw [heq, PrekeyStore.deprecate_eq]
    intro hsame
    have hlength := congrArg (fun store => store.deprecatedPrekeys.length) hsame
    rw [List.length_append, List.length_singleton] at hlength
    exact absurd hlength (Nat.succ_ne_self _)
  · rw [heq]
    exact iff_of_true rfl hnot
  · rw [heq]
    exact iff_of_true rfl hnot

/-- A rejected packet leaves the prekeys alone exactly if it names no active one. -/
theorem rejected_packet_keeps_prekeys_iff {packet : List B} {publicIdentity : PublicKey B}
    {privateIdentity : PrivateKey B} {prekeys : PrekeyStore B} {w : World B} {e : Error}
    (_h : (createReceiveConversation packet publicIdentity privateIdentity prekeys w).1 =
      .error e) :
    (createReceiveConversation packet publicIdentity privateIdentity prekeys w).2.1 = prekeys ↔
      ¬ NamesActive packet prekeys := by
  cases hmetadata : unverifiedPrekeyMetadata packet with
  | error e =>
      refine iff_of_true ?_ ?_
      · rw [createReceiveConversation, hmetadata]
      · rintro ⟨metadata, hok, -⟩
        cases hmetadata.symm.trans hok
  | ok metadata =>
      rw [createReceiveConversation_prekeys hmetadata, getPrekey_store_eq_iff]
      refine not_congr ⟨fun hmem => ⟨metadata, hmetadata, hmem⟩, ?_⟩
      rintro ⟨metadata', hok, hmem⟩
      cases hmetadata.symm.trans hok
      exact hmem

end Conversation

namespace Symbolic

open Conversation PrekeyStore

/-- A packet that anybody can make: it names the receiver as its own sender and a prekey
of the receiver's list. -/
def forgedPacket (receiver prekey : PublicKey ℕ) : List ℕ :=
  ProtobufC.packetPack (encryptedPacketStruct .prekeyMessage [] Key.zero [] Key.zero
    (some ⟨receiver, Key.zero, prekey⟩) Key.zero Key.zero)

theorem unverifiedPrekeyMetadata_forged (receiver prekey : PublicKey ℕ) :
    unverifiedPrekeyMetadata (forgedPacket receiver prekey) =
      .ok ⟨receiver, Key.zero, prekey⟩ := by
  rw [unverifiedPrekeyMetadata, packetGetMetadataWithoutVerification, forgedPacket,
    packetUnpack_encryptedPacketStruct protobufRoundTrip _ _ _ _ _ _ _ _ (by simp)]
  rfl

theorem createReceiveConversation_forged (receiver prekey : PublicKey ℕ)
    (privateIdentity : PrivateKey ℕ) (prekeys : PrekeyStore ℕ) (w : World ℕ) :
    ∃ e, (createReceiveConversation (forgedPacket receiver prekey) receiver privateIdentity
      prekeys w).1 = .error e := by
  rw [createReceiveConversation, unverifiedPrekeyMetadata_forged]
  simp only
  split
  · exact ⟨_, rfl⟩
  · rw [Conversation.create]
    simp only [Ratchet.create_eq_error (Ratchet.chooseRole_self receiver)]
    exact ⟨_, rfl⟩

/-- The forged packet is rejected and takes the first prekey of the list with it. -/
theorem forged_packet_consumes_prekey :
    (∃ e, (createReceiveConversation
      (forgedPacket Key.zero ((PrekeyStore.create world).1.prekeys ⟨0, by decide⟩).publicKey)
      Key.zero Key.zero (PrekeyStore.create world).1 world).1 = .error e) ∧
    (createReceiveConversation
      (forgedPacket Key.zero ((PrekeyStore.create world).1.prekeys ⟨0, by decide⟩).publicKey)
      Key.zero Key.zero (PrekeyStore.create world).1 world).2.1 ≠
        (PrekeyStore.create world).1 := by
  refine ⟨createReceiveConversation_forged _ _ _ _ _, ?_⟩
  rw [createReceiveConversation_prekeys (unverifiedPrekeyMetadata_forged _ _), Ne,
    getPrekey_store_eq_iff, not_not]
  exact mem_activeKeys.mpr ⟨_, rfl⟩

theorem rejected_packet_keeps_prekeys_iff_forged :
    ∃ (packet : List ℕ) (e : Error),
      (createReceiveConversation packet Key.zero Key.zero (PrekeyStore.create world).1
        world).1 = .error e ∧
      ((createReceiveConversation packet Key.zero Key.zero (PrekeyStore.create world).1
        world).2.1 = (PrekeyStore.create world).1 ↔
          ¬ NamesActive packet (PrekeyStore.create world).1) := by
  obtain ⟨e, he⟩ := createReceiveConversation_forged Key.zero Key.zero Key.zero
    (PrekeyStore.create world).1 world
  exact ⟨_, e, he, rejected_packet_keeps_prekeys_iff he⟩

end Symbolic

end Molch
