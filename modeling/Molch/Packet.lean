import Molch.Foundation.Result
import Molch.Protobuf
import Molch.Sodium

namespace Molch

open Sodium

variable {B : Type} [Byte B]

section Header

variable [ProtobufC B]

def headerConstruct (ourPublicEphemeral : PublicKey B)
    (messageNumber previousMessageNumber : UInt32) : List B :=
  ProtobufC.headerPack ⟨some ourPublicEphemeral.bytes, some messageNumber,
    some previousMessageNumber⟩

structure ExtractedHeader (B : Type) where
  theirPublicEphemeral : PublicKey B
  messageNumber : UInt32
  previousMessageNumber : UInt32

def headerExtract (header : List B) : Except Error (ExtractedHeader B) :=
  match ProtobufC.headerUnpack header with
  | none => .error ⟨.protobufUnpackError, "Failed to unpack header."⟩
  | some ⟨some ephemeral, some messageNumber, some previousMessageNumber⟩ =>
      if ephemeral.length ≠ 32 then
        .error ⟨.incorrectBufferSize,
          "The public ephemeral key in the header has an incorrect size."⟩
      else do
        let theirPublicEphemeral ← Key.fromSpan ephemeral
        pure ⟨theirPublicEphemeral, messageNumber, previousMessageNumber⟩
  | some _ => .error ⟨.protobufMissingError, "Missing fields in header."⟩

omit [Byte B] in
theorem headerExtract_of_headerUnpack {header : List B} {ephemeral : PublicKey B}
    {messageNumber previousMessageNumber : UInt32}
    (h : ProtobufC.headerUnpack header =
      some ⟨some ephemeral.bytes, some messageNumber, some previousMessageNumber⟩) :
    headerExtract header = .ok ⟨ephemeral, messageNumber, previousMessageNumber⟩ := by
  simp [headerExtract, h, ephemeral.length_bytes]

omit [Byte B] in
theorem headerExtract_headerConstruct (hproto : ProtobufRoundTrip B) (ephemeral : PublicKey B)
    (messageNumber previousMessageNumber : UInt32) :
    headerExtract (headerConstruct ephemeral messageNumber previousMessageNumber) =
      .ok ⟨ephemeral, messageNumber, previousMessageNumber⟩ :=
  headerExtract_of_headerUnpack (hproto.header _)

end Header

section Padding

/-- `sodium_pad`: ISO/IEC 7816-4 padding inside a buffer that is long enough. The result
is the padded part of the buffer. -/
def sodiumPad (buffer : List B) (unpaddedLength blocksize : ℕ) : Except Error (List B) :=
  if unpaddedLength < buffer.length ∧ blocksize ≤ buffer.length then
    let padding := blocksize - unpaddedLength % blocksize
    if buffer.length < unpaddedLength + padding ∨ blocksize = 0 then
      .error ⟨.genericError, "Failed to pad buffer."⟩
    else .ok (buffer.take unpaddedLength ++
      Byte.barrier :: List.replicate (padding - 1) Byte.zero)
  else .error (expectationFailed "lib/sodium-wrappers.cpp")

/-- `sodium_unpad`: the last byte that is not zero must be the barrier and must lie in the
last block. -/
def sodiumUnpad (buffer : List B) (blocksize : ℕ) : Except Error (List B) :=
  if blocksize ≤ buffer.length then
    let zeros := (buffer.reverse.takeWhile (· == Byte.zero)).length
    if zeros < blocksize ∧ buffer.reverse[zeros]? = some Byte.barrier then
      .ok (buffer.take (buffer.length - 1 - zeros))
    else .error ⟨.genericError, "Failed to unpad buffer."⟩
  else .error (expectationFailed "lib/sodium-wrappers.cpp")

def paddingBlocksize : ℕ := 255

def paddedMessage (message : List B) : List B :=
  message ++ Byte.barrier ::
    List.replicate (paddingBlocksize - message.length % paddingBlocksize - 1) Byte.zero

theorem length_paddedMessage (message : List B) :
    (paddedMessage message).length =
      message.length + (paddingBlocksize - message.length % paddingBlocksize) := by
  have h := Nat.mod_lt message.length (show 0 < paddingBlocksize by decide)
  simp only [paddedMessage, List.length_append, List.length_cons, List.length_replicate]
  omega

theorem paddingBlocksize_le_length_paddedMessage (message : List B) :
    paddingBlocksize ≤ (paddedMessage message).length := by
  rw [length_paddedMessage]
  have h := Nat.mod_le message.length paddingBlocksize
  omega

theorem sodiumUnpad_paddedMessage (message : List B) :
    sodiumUnpad (paddedMessage message) paddingBlocksize = .ok message := by
  have hlt := Nat.mod_lt message.length (show 0 < paddingBlocksize by decide)
  have hbarrier : ((Byte.barrier : B) == Byte.zero) = false := by
    simpa using Byte.barrier_ne_zero
  generalize hn : paddingBlocksize - message.length % paddingBlocksize - 1 = n
  have hpadded : paddedMessage message =
      message ++ Byte.barrier :: List.replicate n Byte.zero := by
    rw [paddedMessage, hn]
  have hzeros : ((paddedMessage message).reverse.takeWhile (· == Byte.zero)).length = n := by
    simp [hpadded, hbarrier]
  have hbyte : (paddedMessage message).reverse[n]? = some Byte.barrier := by
    simp [hpadded]
  unfold sodiumUnpad
  rw [if_pos (paddingBlocksize_le_length_paddedMessage message)]
  simp only [hzeros, hbyte]
  rw [if_pos ⟨by omega, trivial⟩]
  simp [hpadded]

end Padding

inductive MessageType where
  | prekeyMessage
  | normalMessage
  | invalid
deriving DecidableEq, Repr

def toPacketHeaderPacketType : MessageType → UInt32
  | .prekeyMessage => packetTypePrekeyMessage
  | .normalMessage => packetTypeNormalMessage
  | .invalid => packetTypeNormalMessage

def toMolchMessageType (packetType : UInt32) : MessageType :=
  if packetType = packetTypeNormalMessage then .normalMessage
  else if packetType = packetTypePrekeyMessage then .prekeyMessage
  else .invalid

structure PrekeyMetadata (B : Type) where
  identity : PublicKey B
  ephemeral : PublicKey B
  prekey : PublicKey B

structure Metadata (B : Type) where
  currentProtocolVersion : UInt32
  highestSupportedProtocolVersion : UInt32
  packetType : MessageType
  prekeyMetadata : Option (PrekeyMetadata B)

structure DecryptedPacket (B : Type) where
  header : List B
  message : List B
  metadata : Metadata B

/-- What `packet_unpack` has checked: the required fields are there, and the nonces and
the public keys of a prekey message have their sizes. -/
structure UnpackedPacket (B : Type) where
  currentProtocolVersion : UInt32
  highestSupportedProtocolVersion : UInt32
  packetType : UInt32
  headerNonce : Nonce B
  messageNonce : Nonce B
  encryptedAxolotlHeader : List B
  encryptedMessage : List B
  prekeyMetadata : Option (PrekeyMetadata B)

section Unpacking

variable [ProtobufC B]

def unpackPrekeyMetadata (header : ProtobufCPacketHeader B) :
    Except Error (PrekeyMetadata B) :=
  match header.publicIdentityKey, header.publicEphemeralKey, header.publicPrekey with
  | some identity, some ephemeral, some prekey =>
      if h : identity.length = 32 ∧ ephemeral.length = 32 ∧ prekey.length = 32 then
        .ok ⟨⟨identity, h.1⟩, ⟨ephemeral, h.2.1⟩, ⟨prekey, h.2.2⟩⟩
      else .error ⟨.incorrectBufferSize,
        "At least one of the public keys of the prekey packet has an incorrect length."⟩
  | _, _, _ => .error ⟨.protobufMissingError,
      "The prekey packet misses at least one public key."⟩

def packetUnpack (packet : List B) : Except Error (UnpackedPacket B) :=
  match ProtobufC.packetUnpack packet with
  | none => .error ⟨.protobufUnpackError, "Failed to unpack packet."⟩
  | some ⟨header, encryptedAxolotlHeader, encryptedMessage⟩ =>
      if header.currentProtocolVersion ≠ 0 then
        .error ⟨.unsupportedProtocolVersion, "The packet has an unsuported protocol version."⟩
      else
        match encryptedAxolotlHeader, encryptedMessage, header.packetType,
            header.headerNonce, header.messageNonce with
        | some encryptedAxolotlHeader, some encryptedMessage, some packetType,
            some headerNonce, some messageNonce =>
            if h : headerNonce.length = 24 ∧ messageNonce.length = 24 then do
              let prekeyMetadata ←
                if packetType = packetTypePrekeyMessage then
                  (unpackPrekeyMetadata header).map some
                else pure none
              pure
                { currentProtocolVersion := header.currentProtocolVersion
                  highestSupportedProtocolVersion := header.highestSupportedProtocolVersion
                  packetType := packetType
                  headerNonce := ⟨headerNonce, h.1⟩
                  messageNonce := ⟨messageNonce, h.2⟩
                  encryptedAxolotlHeader := encryptedAxolotlHeader
                  encryptedMessage := encryptedMessage
                  prekeyMetadata := prekeyMetadata }
            else .error ⟨.incorrectBufferSize,
              "At least one of the nonces has an incorrect length."⟩
        | _, _, _, _, _ => .error ⟨.protobufMissingError,
            "Some fields are missing in the packet."⟩

def packetGetMetadataWithoutVerification (packet : List B) : Except Error (Metadata B) := do
  let unpacked ← packetUnpack packet
  pure ⟨unpacked.currentProtocolVersion, unpacked.highestSupportedProtocolVersion,
    toMolchMessageType unpacked.packetType, unpacked.prekeyMetadata⟩

end Unpacking

section Encryption

variable [ProtobufC B] [Sodium B]

/-- The struct that `packet_encrypt` packs. -/
def encryptedPacketStruct (packetType : MessageType) (axolotlHeader : List B)
    (axolotlHeaderKey : HeaderKey B) (paddedMessage : List B) (messageKey : MessageKey B)
    (prekeyMetadata : Option (PrekeyMetadata B)) (headerNonce messageNonce : Nonce B) :
    ProtobufCPacket B where
  packetHeader :=
    { currentProtocolVersion := 0
      highestSupportedProtocolVersion := 0
      packetType := some (toPacketHeaderPacketType packetType)
      headerNonce := some headerNonce.bytes
      messageNonce := some messageNonce.bytes
      publicIdentityKey := prekeyMetadata.map (·.identity.bytes)
      publicEphemeralKey := prekeyMetadata.map (·.ephemeral.bytes)
      publicPrekey := prekeyMetadata.map (·.prekey.bytes) }
  encryptedAxolotlHeader := some (cryptoSecretboxEasy axolotlHeader headerNonce axolotlHeaderKey)
  encryptedMessage := some (cryptoSecretboxEasy paddedMessage messageNonce messageKey)

def packetEncrypt (packetType : MessageType) (axolotlHeader : List B)
    (axolotlHeaderKey : EmptyableHeaderKey B) (message : List B) (messageKey : MessageKey B)
    (prekeyMetadata : Option (PrekeyMetadata B)) (w : World B) :
    Except Error (List B) × World B :=
  if packetType = .invalid ∨ axolotlHeaderKey.empty then
    (.error (expectationFailed "lib/packet.cpp"), w)
  else if packetType = .prekeyMessage ∧ prekeyMetadata.isNone then
    (.error (expectationFailed "lib/packet.cpp"), w)
  else
    match w.randombytesBuf 24 with
    | (headerNonce, w) =>
        match w.randombytesBuf 24 with
        | (messageNonce, w) =>
            let paddingAmount := paddingBlocksize - message.length % paddingBlocksize
            let buffer := message ++ List.replicate paddingAmount Byte.zero
            match sodiumPad buffer message.length paddingBlocksize with
            | .error e => (.error e, w)
            | .ok padded =>
                if padded.length ≠ buffer.length then
                  (.error ⟨.genericError, "Padding doesn't have the expected size."⟩, w)
                else
                  -- the public keys are only set for prekey messages
                  let metadata := if packetType = .prekeyMessage then prekeyMetadata else none
                  (.ok (ProtobufC.packetPack (encryptedPacketStruct packetType axolotlHeader
                    axolotlHeaderKey.key padded messageKey metadata headerNonce messageNonce)), w)

def packetDecryptHeader (packet : List B) (axolotlHeaderKey : EmptyableHeaderKey B) :
    Except Error (List B) :=
  if axolotlHeaderKey.empty then .error ⟨.invalidValue, "Header key is empty."⟩
  else
    match packetUnpack packet with
    | .error _ => .error ⟨.protobufUnpackError, "Failed to unpack header."⟩
    | .ok unpacked =>
        if unpacked.encryptedAxolotlHeader.length < 16 then
          .error ⟨.incorrectBufferSize, "The ciphertext of the axolotl header is too short."⟩
        else
          match cryptoSecretboxOpenEasy unpacked.encryptedAxolotlHeader unpacked.headerNonce
              axolotlHeaderKey.key with
          | none => .error ⟨.decryptError, "Failed to decrypt"⟩
          | some axolotlHeader => .ok axolotlHeader

def packetDecryptMessage (packet : List B) (messageKey : MessageKey B) :
    Except Error (List B) := do
  let unpacked ← packetUnpack packet
  if unpacked.encryptedMessage.length < 16 then
    .error ⟨.incorrectBufferSize, "The ciphertext of the message is too short."⟩
  else if unpacked.encryptedMessage.length - 16 < paddingBlocksize then
    .error ⟨.incorrectBufferSize, "The padded message is too short."⟩
  else
    match cryptoSecretboxOpenEasy unpacked.encryptedMessage unpacked.messageNonce messageKey with
    | none => .error ⟨.decryptError, "Failed to decrypt packet."⟩
    | some padded => sodiumUnpad padded paddingBlocksize

def packetDecrypt (packet : List B) (axolotlHeaderKey : EmptyableHeaderKey B)
    (messageKey : MessageKey B) : Except Error (DecryptedPacket B) := do
  let metadata ← packetGetMetadataWithoutVerification packet
  let header ← packetDecryptHeader packet axolotlHeaderKey
  let message ← packetDecryptMessage packet messageKey
  pure ⟨header, message, metadata⟩

omit [ProtobufC B] [Sodium B] in
theorem sodiumPad_buffer (message : List B) :
    sodiumPad (message ++
      List.replicate (paddingBlocksize - message.length % paddingBlocksize) Byte.zero)
      message.length paddingBlocksize = .ok (paddedMessage message) := by
  have hlt := Nat.mod_lt message.length (show 0 < paddingBlocksize by decide)
  have hle := Nat.mod_le message.length paddingBlocksize
  unfold sodiumPad
  rw [if_pos (by simp only [List.length_append, List.length_replicate]; omega)]
  simp only [List.length_append, List.length_replicate]
  rw [if_neg (by simp [paddingBlocksize])]
  simp [paddedMessage]

theorem packetEncrypt_eq {packetType : MessageType} {axolotlHeaderKey : EmptyableHeaderKey B}
    {prekeyMetadata : Option (PrekeyMetadata B)} (htype : packetType ≠ .invalid)
    (hkey : axolotlHeaderKey.empty = false)
    (hmetadata : packetType = .prekeyMessage → prekeyMetadata.isSome)
    (axolotlHeader message : List B) (messageKey : MessageKey B) (w : World B) :
    packetEncrypt packetType axolotlHeader axolotlHeaderKey message messageKey
        prekeyMetadata w =
      (.ok (ProtobufC.packetPack (encryptedPacketStruct packetType axolotlHeader
        axolotlHeaderKey.key (paddedMessage message) messageKey
        (if packetType = .prekeyMessage then prekeyMetadata else none)
        (w.random 0 24) (w.random 1 24))),
        { w with random := fun i => w.random (i + 2) }) := by
  have hsome : ¬ (packetType = .prekeyMessage ∧ prekeyMetadata.isNone = true) := by
    rintro ⟨htype, hnone⟩
    have := hmetadata htype
    cases prekeyMetadata <;> simp_all
  unfold packetEncrypt
  rw [if_neg (by simp [htype, hkey]), if_neg hsome]
  simp [World.randombytesBuf, sodiumPad_buffer, length_paddedMessage]

theorem packetEncrypt_eq_ok {packetType : MessageType} {axolotlHeader : List B}
    {axolotlHeaderKey : EmptyableHeaderKey B} {message : List B} {messageKey : MessageKey B}
    {prekeyMetadata : Option (PrekeyMetadata B)} {w w' : World B} {packet : List B}
    (h : packetEncrypt packetType axolotlHeader axolotlHeaderKey message messageKey
      prekeyMetadata w = (.ok packet, w')) :
    axolotlHeaderKey.empty = false ∧
      packet = ProtobufC.packetPack (encryptedPacketStruct packetType axolotlHeader
        axolotlHeaderKey.key (paddedMessage message) messageKey
        (if packetType = .prekeyMessage then prekeyMetadata else none)
        (w.random 0 24) (w.random 1 24)) := by
  by_cases hvalid : packetType = .invalid ∨ axolotlHeaderKey.empty
  · rw [packetEncrypt, if_pos hvalid] at h
    cases h
  · by_cases hmissing : packetType = .prekeyMessage ∧ prekeyMetadata.isNone
    · rw [packetEncrypt, if_neg hvalid, if_pos hmissing] at h
      cases h
    · obtain ⟨htype, hkey⟩ := not_or.mp hvalid
      rw [Bool.not_eq_true] at hkey
      rw [packetEncrypt_eq htype hkey fun htype => by
        simpa [htype, Option.isSome_iff_ne_none] using hmissing] at h
      cases h
      exact ⟨hkey, rfl⟩

/-- The packet carries the header sealed under one key and the padded message sealed under
another. -/
def Seals (packet : List B) (headerKey : HeaderKey B) (header : List B)
    (messageKey : MessageKey B) (message : List B) : Prop :=
  ∃ unpacked, packetUnpack packet = .ok unpacked ∧
    unpacked.encryptedAxolotlHeader =
      cryptoSecretboxEasy header unpacked.headerNonce headerKey ∧
    unpacked.encryptedMessage =
      cryptoSecretboxEasy (paddedMessage message) unpacked.messageNonce messageKey

omit [Byte B] in
theorem packetUnpack_of_unpacked {packet : List B} {packetType : MessageType}
    {axolotlHeader : List B} {axolotlHeaderKey : HeaderKey B} {padded : List B}
    {messageKey : MessageKey B} {prekeyMetadata : Option (PrekeyMetadata B)}
    {headerNonce messageNonce : Nonce B}
    (hpacket : ProtobufC.packetUnpack packet = some (encryptedPacketStruct packetType
      axolotlHeader axolotlHeaderKey padded messageKey prekeyMetadata headerNonce messageNonce))
    (hmetadata : packetType = .prekeyMessage ↔ prekeyMetadata.isSome) :
    packetUnpack packet =
    .ok
      { currentProtocolVersion := 0
        highestSupportedProtocolVersion := 0
        packetType := toPacketHeaderPacketType packetType
        headerNonce := headerNonce
        messageNonce := messageNonce
        encryptedAxolotlHeader := cryptoSecretboxEasy axolotlHeader headerNonce axolotlHeaderKey
        encryptedMessage := cryptoSecretboxEasy padded messageNonce messageKey
        prekeyMetadata := prekeyMetadata } := by
  unfold packetUnpack
  rw [hpacket]
  cases prekeyMetadata with
  | none =>
      have htype : toPacketHeaderPacketType packetType ≠ packetTypePrekeyMessage := by
        cases packetType <;> simp_all [toPacketHeaderPacketType, packetTypePrekeyMessage,
          packetTypeNormalMessage]
      simp [encryptedPacketStruct, headerNonce.length_bytes, messageNonce.length_bytes, htype]
  | some metadata =>
      have htype : packetType = .prekeyMessage := hmetadata.mpr rfl
      subst htype
      simp [encryptedPacketStruct, headerNonce.length_bytes, messageNonce.length_bytes,
        toPacketHeaderPacketType, unpackPrekeyMetadata, metadata.identity.length_bytes,
        metadata.ephemeral.length_bytes, metadata.prekey.length_bytes, Except.map]

omit [Byte B] in
theorem packetUnpack_encryptedPacketStruct (hproto : ProtobufRoundTrip B)
    (packetType : MessageType) (axolotlHeader : List B) (axolotlHeaderKey : HeaderKey B)
    (padded : List B) (messageKey : MessageKey B) (prekeyMetadata : Option (PrekeyMetadata B))
    (headerNonce messageNonce : Nonce B)
    (hmetadata : packetType = .prekeyMessage ↔ prekeyMetadata.isSome) :
    packetUnpack (ProtobufC.packetPack (encryptedPacketStruct packetType axolotlHeader
      axolotlHeaderKey padded messageKey prekeyMetadata headerNonce messageNonce)) =
    .ok
      { currentProtocolVersion := 0
        highestSupportedProtocolVersion := 0
        packetType := toPacketHeaderPacketType packetType
        headerNonce := headerNonce
        messageNonce := messageNonce
        encryptedAxolotlHeader := cryptoSecretboxEasy axolotlHeader headerNonce axolotlHeaderKey
        encryptedMessage := cryptoSecretboxEasy padded messageNonce messageKey
        prekeyMetadata := prekeyMetadata } :=
  packetUnpack_of_unpacked (hproto.packet _) hmetadata

section Opening

variable {packet header message : List B} {headerKey : HeaderKey B} {messageKey : MessageKey B}

theorem Seals.packetDecryptHeader (hbox : SecretboxRoundTrip B)
    (hseals : Seals packet headerKey header messageKey message) :
    packetDecryptHeader packet (.ofKey headerKey) = .ok header := by
  obtain ⟨unpacked, hunpack, hheader, -⟩ := hseals
  have hlength : ¬ unpacked.encryptedAxolotlHeader.length < 16 := by
    rw [hheader, length_cryptoSecretboxEasy]
    omega
  simp [Molch.packetDecryptHeader, hunpack, hlength]
  simp [hheader, hbox _ _ _]

theorem Seals.packetDecryptHeader_ne (hkey : SecretboxKeyBound B)
    (hseals : Seals packet headerKey header messageKey message)
    {other : EmptyableHeaderKey B} (hne : other ≠ .ofKey headerKey) :
    ∃ e, Molch.packetDecryptHeader packet other = .error e := by
  obtain ⟨unpacked, hunpack, hheader, -⟩ := hseals
  unfold Molch.packetDecryptHeader
  split
  · exact ⟨_, rfl⟩
  · rename_i hempty
    rw [hunpack]
    simp only
    split
    · exact ⟨_, rfl⟩
    · split
      · exact ⟨_, rfl⟩
      · rename_i opened hopen
        rw [hheader] at hopen
        have heq := hkey _ _ _ _ _ hopen
        exact absurd (EmptyableKey.ext heq (by simpa using hempty)) hne

theorem Seals.packetDecryptMessage (hbox : SecretboxRoundTrip B)
    (hseals : Seals packet headerKey header messageKey message) :
    packetDecryptMessage packet messageKey = .ok message := by
  obtain ⟨unpacked, hunpack, -, hmessage⟩ := hseals
  have hlength := paddingBlocksize_le_length_paddedMessage message
  have hlong : ¬ unpacked.encryptedMessage.length < 16 := by
    rw [hmessage, length_cryptoSecretboxEasy]
    omega
  have hpadded : ¬ unpacked.encryptedMessage.length - 16 < paddingBlocksize := by
    rw [hmessage, length_cryptoSecretboxEasy]
    omega
  simp [Molch.packetDecryptMessage, hunpack, hlong, hpadded]
  simp [hmessage, hbox _ _ _, sodiumUnpad_paddedMessage]

theorem Seals.packetDecryptMessage_ne (hkey : SecretboxKeyBound B)
    (hseals : Seals packet headerKey header messageKey message)
    {other : MessageKey B} (hne : other ≠ messageKey) :
    ∃ e, Molch.packetDecryptMessage packet other = .error e := by
  obtain ⟨unpacked, hunpack, -, hmessage⟩ := hseals
  simp only [Molch.packetDecryptMessage, hunpack, Result.ok_bind]
  split
  · exact ⟨_, rfl⟩
  · split
    · exact ⟨_, rfl⟩
    · split
      · exact ⟨_, rfl⟩
      · rename_i opened hopen
        rw [hmessage] at hopen
        exact absurd (hkey _ _ _ _ _ hopen) hne

theorem packetDecryptMessage_of_packetDecrypt {headerKey : EmptyableHeaderKey B}
    {decrypted : DecryptedPacket B} (h : packetDecrypt packet headerKey messageKey = .ok decrypted) :
    packetDecryptMessage packet messageKey = .ok decrypted.message := by
  obtain ⟨metadata, -, hrest⟩ := Result.bind_eq_ok.mp h
  obtain ⟨header, -, hrest⟩ := Result.bind_eq_ok.mp hrest
  obtain ⟨message, hmessage, hok⟩ := Result.bind_eq_ok.mp hrest
  cases hok
  exact hmessage

end Opening

end Encryption

end Molch
