import Molch.Bytes

namespace Molch

structure ProtobufCHeader (B : Type) where
  publicEphemeralKey : Option (List B)
  messageNumber : Option UInt32
  previousMessageNumber : Option UInt32

/-- `PacketHeader.PacketType`. -/
def packetTypePrekeyMessage : UInt32 := 0
def packetTypeNormalMessage : UInt32 := 1

structure ProtobufCPacketHeader (B : Type) where
  currentProtocolVersion : UInt32
  highestSupportedProtocolVersion : UInt32
  packetType : Option UInt32
  headerNonce : Option (List B)
  messageNonce : Option (List B)
  publicIdentityKey : Option (List B)
  publicEphemeralKey : Option (List B)
  publicPrekey : Option (List B)

structure ProtobufCPacket (B : Type) where
  packetHeader : ProtobufCPacketHeader B
  encryptedAxolotlHeader : Option (List B)
  encryptedMessage : Option (List B)

structure ProtobufCKeyBundle (B : Type) where
  headerKey : List B
  messageKey : List B
  expirationTime : Option UInt64

structure ProtobufCPrekey (B : Type) where
  privateKey : List B
  publicKey : Option (List B)
  expirationTime : Option UInt64

structure ProtobufCConversation (B : Type) where
  id : List B
  rootKey : Option (List B)
  purportedRootKey : Option (List B)
  sendHeaderKey : Option (List B)
  receiveHeaderKey : Option (List B)
  nextSendHeaderKey : Option (List B)
  nextReceiveHeaderKey : Option (List B)
  purportedReceiveHeaderKey : Option (List B)
  purportedNextReceiveHeaderKey : Option (List B)
  sendChainKey : Option (List B)
  receiveChainKey : Option (List B)
  purportedReceiveChainKey : Option (List B)
  ourPublicIdentityKey : Option (List B)
  theirPublicIdentityKey : Option (List B)
  ourPrivateEphemeralKey : Option (List B)
  ourPublicEphemeralKey : Option (List B)
  theirPublicEphemeralKey : Option (List B)
  theirPurportedPublicEphemeral : Option (List B)
  sendMessageNumber : Option UInt32
  receiveMessageNumber : Option UInt32
  purportedMessageNumber : Option UInt32
  previousMessageNumber : Option UInt32
  purportedPreviousMessageNumber : Option UInt32
  ratchetFlag : Option Bool
  amIAlice : Option Bool
  receivedValid : Option Bool
  headerDecryptable : Option UInt32
  skippedHeaderAndMessageKeys : List (ProtobufCKeyBundle B)
  stagedHeaderAndMessageKeys : List (ProtobufCKeyBundle B)

structure ProtobufCUser (B : Type) where
  privateSigningKey : Option (List B)
  publicSigningKey : Option (List B)
  privateIdentityKey : Option (List B)
  publicIdentityKey : Option (List B)
  conversations : List (ProtobufCConversation B)
  prekeys : List (ProtobufCPrekey B)
  deprecatedPrekeys : List (ProtobufCPrekey B)

structure ProtobufCBackup (B : Type) where
  users : List (ProtobufCUser B)

/-- `EncryptedBackup.BackupType`. -/
def backupTypeFullBackup : UInt32 := 0
def backupTypeConversationBackup : UInt32 := 1

structure ProtobufCEncryptedBackup (B : Type) where
  backupVersion : UInt32
  backupType : Option UInt32
  encryptedBackupNonce : Option (List B)
  encryptedBackup : Option (List B)

/-- The generated packing functions. Unpacking fails on malformed input. -/
class ProtobufC (B : Type) where
  headerPack : ProtobufCHeader B → List B
  headerUnpack : List B → Option (ProtobufCHeader B)
  packetPack : ProtobufCPacket B → List B
  packetUnpack : List B → Option (ProtobufCPacket B)
  conversationPack : ProtobufCConversation B → List B
  conversationUnpack : List B → Option (ProtobufCConversation B)
  backupPack : ProtobufCBackup B → List B
  backupUnpack : List B → Option (ProtobufCBackup B)
  encryptedBackupPack : ProtobufCEncryptedBackup B → List B
  encryptedBackupUnpack : List B → Option (ProtobufCEncryptedBackup B)

open ProtobufC in
/-- Unpacking inverts packing. -/
structure ProtobufRoundTrip (B : Type) [ProtobufC B] : Prop where
  header : ∀ s : ProtobufCHeader B, headerUnpack (headerPack s) = some s
  packet : ∀ s : ProtobufCPacket B, packetUnpack (packetPack s) = some s
  conversation : ∀ s : ProtobufCConversation B, conversationUnpack (conversationPack s) = some s
  backup : ∀ s : ProtobufCBackup B, backupUnpack (backupPack s) = some s
  encryptedBackup : ∀ s : ProtobufCEncryptedBackup B,
    encryptedBackupUnpack (encryptedBackupPack s) = some s

/-- `seconds{expiration_time}`: an unsigned 64 bit number read as a signed one. -/
def secondsOfUInt64 (time : UInt64) : ℤ :=
  if time.toNat < 2 ^ 63 then time.toNat else (time.toNat : ℤ) - 2 ^ 64

/-- `gsl::narrow<uint64_t>` of a count of seconds: throws if the sign is lost. -/
def narrowUInt64 (seconds : ℤ) : Except Failure UInt64 :=
  if 0 ≤ seconds then .ok (UInt64.ofNat seconds.toNat)
  else .error (.exception "std::exception")

end Molch
