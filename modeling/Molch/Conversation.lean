import Molch.Packet
import Molch.Ratchet

namespace Molch

structure Conversation (B : Type) where
  id : ConversationId B
  ratchet : Ratchet B

structure ReceivedMessage (B : Type) where
  messageNumber : UInt32
  previousMessageNumber : UInt32
  message : List B

variable {B : Type} [Byte B] [Sodium B] [ProtobufC B]

/-- The first of the keys that decrypts the packet: its index and the decrypted packet. -/
def firstDecryption (packet : List B) :
    List (HeaderAndMessageKey B) → Option (ℕ × DecryptedPacket B)
  | [] => none
  | node :: nodes =>
      match packetDecrypt packet node.headerKey node.messageKey with
      | .ok decrypted => some (0, decrypted)
      | .error _ => (firstDecryption packet nodes).map fun found => (found.1 + 1, found.2)

namespace Conversation

def create (ourPrivateIdentity : PrivateKey B)
    (ourPublicIdentity theirPublicIdentity : PublicKey B) (ourPrivateEphemeral : PrivateKey B)
    (ourPublicEphemeral theirPublicEphemeral : PublicKey B) (w : World B) :
    Except Error (Conversation B) × World B :=
  match w.randombytesBuf 32 with
  | (id, w) =>
      match Ratchet.create ourPrivateIdentity ourPublicIdentity theirPublicIdentity
          ourPrivateEphemeral ourPublicEphemeral theirPublicEphemeral with
      | .error e => (.error e, w)
      | .ok ratchet => (.ok ⟨id, ratchet⟩, w)

def send (conversation : Conversation B) (message : List B)
    (prekeyMetadata : Option (PrekeyMetadata B)) (w : World B) :
    Except Error (List B) × Conversation B × World B :=
  match conversation.ratchet.getSendData w with
  | (.error e, ratchet, w) => (.error e, { conversation with ratchet := ratchet }, w)
  | (.ok sendData, ratchet, w) =>
      let header := headerConstruct sendData.ephemeral sendData.messageNumber
        sendData.previousMessageNumber
      let packetType :=
        if prekeyMetadata.isSome then MessageType.prekeyMessage else .normalMessage
      match packetEncrypt packetType header sendData.headerKey message sendData.messageKey
          prekeyMetadata w with
      | (result, w) => (result, { conversation with ratchet := ratchet }, w)

/-- The key is removed before the header is read. -/
def trySkippedHeaderAndMessageKeys (conversation : Conversation B) (packet : List B) :
    Except Error (ReceivedMessage B) × Conversation B :=
  match firstDecryption packet conversation.ratchet.skippedHeaderAndMessageKeys.keys with
  | none => (.error ⟨.decryptError, "No keys found for the packet."⟩, conversation)
  | some (index, decrypted) =>
      let ratchet := conversation.ratchet
      let conversation := { conversation with
        ratchet := { ratchet with
          skippedHeaderAndMessageKeys := ratchet.skippedHeaderAndMessageKeys.remove index } }
      match headerExtract decrypted.header with
      | .error e => (.error e, conversation)
      | .ok header =>
          (.ok ⟨header.messageNumber, header.previousMessageNumber, decrypted.message⟩,
            conversation)

variable [Platform]

/-- `internal_receive` once the header is decrypted. -/
def receiveWithHeader (conversation : Conversation B) (packet header : List B)
    (headerDecryptable : HeaderDecryptability) (w : World B) :
    Except Error (ReceivedMessage B) × Conversation B × World B :=
  match conversation.ratchet.setHeaderDecryptability headerDecryptable with
  | (.error e, ratchet) => (.error e, { conversation with ratchet := ratchet }, w)
  | (.ok (), ratchet) =>
      match headerExtract header with
      | .error e => (.error e, { conversation with ratchet := ratchet }, w)
      | .ok extracted =>
          match ratchet.receive extracted.theirPublicEphemeral extracted.messageNumber
              extracted.previousMessageNumber w with
          | (.error e, ratchet, w) => (.error e, { conversation with ratchet := ratchet }, w)
          | (.ok messageKey, ratchet, w) =>
              match packetDecryptMessage packet messageKey with
              | .error e => (.error e, { conversation with ratchet := ratchet }, w)
              | .ok message =>
                  match ratchet.setLastMessageAuthenticity true w with
                  | (.error e, ratchet, w) =>
                      (.error e, { conversation with ratchet := ratchet }, w)
                  | (.ok (), ratchet, w) =>
                      (.ok ⟨extracted.messageNumber, extracted.previousMessageNumber, message⟩,
                        { conversation with ratchet := ratchet }, w)

/-- `internal_receive` after no skipped key has been found. -/
def receiveWithHeaderKeys (conversation : Conversation B) (packet : List B) (w : World B) :
    Except Error (ReceivedMessage B) × Conversation B × World B :=
  match packetDecryptHeader packet conversation.ratchet.receiveHeaderKey with
  | .ok header => conversation.receiveWithHeader packet header .currentDecryptable w
  | .error _ =>
      match packetDecryptHeader packet conversation.ratchet.nextReceiveHeaderKey with
      | .ok header => conversation.receiveWithHeader packet header .nextDecryptable w
      | .error _ =>
          match conversation.ratchet.setHeaderDecryptability .undecryptable with
          | (.error e, ratchet) => (.error e, { conversation with ratchet := ratchet }, w)
          | (.ok (), ratchet) =>
              (.error ⟨.decryptError, "Failed to decrypt the message."⟩,
                { conversation with ratchet := ratchet }, w)

def internalReceive (conversation : Conversation B) (packet : List B) (w : World B) :
    Except Error (ReceivedMessage B) × Conversation B × World B :=
  match conversation.trySkippedHeaderAndMessageKeys packet with
  | (.ok message, conversation) => (.ok message, conversation, w)
  | (.error _, conversation) => conversation.receiveWithHeaderKeys packet w

def receive (conversation : Conversation B) (packet : List B) (w : World B) :
    Except Error (ReceivedMessage B) × Conversation B × World B :=
  match conversation.internalReceive packet w with
  | (.ok message, conversation, w) => (.ok message, conversation, w)
  | (.error e, conversation, w) =>
      match conversation.ratchet.setLastMessageAuthenticity false w with
      | (.error e', ratchet, w) => (.error e', { conversation with ratchet := ratchet }, w)
      | (.ok (), ratchet, w) => (.error e, { conversation with ratchet := ratchet }, w)

/-- A call of `send` or `receive` with everything it reads from outside. -/
inductive Call (B : Type) where
  | send (message : List B) (prekeyMetadata : Option (PrekeyMetadata B)) (w : World B)
  | receive (packet : List B) (w : World B)

/-- What the caller gets back; of an error only the fact that there is one. -/
inductive Outcome (B : Type) where
  | sent (packet : Option (List B))
  | received (message : Option (ReceivedMessage B))

def call (conversation : Conversation B) : Call B → Outcome B × Conversation B
  | .send message prekeyMetadata w =>
      match conversation.send message prekeyMetadata w with
      | (result, conversation, _) => (.sent result.toOption, conversation)
  | .receive packet w =>
      match conversation.receive packet w with
      | (result, conversation, _) => (.received result.toOption, conversation)

end Conversation

end Molch
