import Molch.Packet
import Molch.Symbolic

namespace Molch

open Sodium

variable {B : Type}

/-- Both packets carry the same nonces, encrypted header and encrypted message. -/
structure ProtobufCPacket.SameCiphertexts (s s' : ProtobufCPacket B) : Prop where
  headerNonce : s'.packetHeader.headerNonce = s.packetHeader.headerNonce
  messageNonce : s'.packetHeader.messageNonce = s.packetHeader.messageNonce
  encryptedAxolotlHeader : s'.encryptedAxolotlHeader = s.encryptedAxolotlHeader
  encryptedMessage : s'.encryptedMessage = s.encryptedMessage

/-- What `packet_unpack` demands of the metadata: version 0, a packet type, and the three
public keys if it is the type of a prekey message. -/
structure ProtobufCPacketHeader.MetadataAccepted (header : ProtobufCPacketHeader B) : Prop where
  version : header.currentProtocolVersion = 0
  packetType : header.packetType ≠ none
  publicKeys : header.packetType = some packetTypePrekeyMessage →
    ∃ identity ephemeral prekey : PublicKey B,
      header.publicIdentityKey = some identity.bytes ∧
      header.publicEphemeralKey = some ephemeral.bytes ∧
      header.publicPrekey = some prekey.bytes

theorem unpackPrekeyMetadata_eq_ok {header : ProtobufCPacketHeader B}
    {metadata : PrekeyMetadata B} (h : unpackPrekeyMetadata header = .ok metadata) :
    header.publicIdentityKey = some metadata.identity.bytes ∧
      header.publicEphemeralKey = some metadata.ephemeral.bytes ∧
      header.publicPrekey = some metadata.prekey.bytes := by
  unfold unpackPrekeyMetadata at h
  split at h
  · rename_i identity ephemeral prekey hidentity hephemeral hprekey
    split at h
    · cases h
      exact ⟨hidentity, hephemeral, hprekey⟩
    · cases h
  · cases h

section Unpacking

variable [ProtobufC B] {packet : List B} {s : ProtobufCPacket B}

theorem ProtobufCPacketHeader.MetadataAccepted.of_packetUnpack {unpacked : UnpackedPacket B}
    (hs : ProtobufC.packetUnpack packet = some s) (h : packetUnpack packet = .ok unpacked) :
    s.packetHeader.MetadataAccepted := by
  unfold packetUnpack at h
  rw [hs] at h
  obtain ⟨header, encryptedAxolotlHeader, encryptedMessage⟩ := s
  dsimp only at h
  split at h
  · cases h
  · rename_i hversion
    split at h
    · rename_i _ _ packetType _ _ htype _ _
      split at h
      · refine ⟨by simpa using hversion, by simp [htype], fun hprekey => ?_⟩
        rw [htype, Option.some.injEq] at hprekey
        rw [if_pos hprekey] at h
        obtain ⟨prekeyMetadata, hmetadata, -⟩ := Result.bind_eq_ok.mp h
        obtain ⟨metadata, hmetadata, -⟩ := Result.map_eq_ok.mp hmetadata
        exact ⟨_, _, _, unpackPrekeyMetadata_eq_ok hmetadata⟩
      · cases h
    · cases h

theorem ProtobufCPacketHeader.MetadataAccepted.packetUnpack {headerNonce messageNonce : Nonce B}
    {encryptedAxolotlHeader encryptedMessage : List B}
    (hs : ProtobufC.packetUnpack packet = some s) (h : s.packetHeader.MetadataAccepted)
    (hheaderNonce : s.packetHeader.headerNonce = some headerNonce.bytes)
    (hmessageNonce : s.packetHeader.messageNonce = some messageNonce.bytes)
    (hheader : s.encryptedAxolotlHeader = some encryptedAxolotlHeader)
    (hmessage : s.encryptedMessage = some encryptedMessage) :
    ∃ unpacked, packetUnpack packet = .ok unpacked ∧
      unpacked.headerNonce = headerNonce ∧ unpacked.messageNonce = messageNonce ∧
      unpacked.encryptedAxolotlHeader = encryptedAxolotlHeader ∧
      unpacked.encryptedMessage = encryptedMessage := by
  obtain ⟨header, encryptedAxolotlHeader', encryptedMessage'⟩ := s
  obtain ⟨packetType, htype⟩ := Option.ne_none_iff_exists'.mp h.packetType
  dsimp only at *
  unfold Molch.packetUnpack
  rw [hs]
  dsimp only
  rw [if_neg (by simpa using h.version)]
  simp only [hheader, hmessage, htype, hheaderNonce, hmessageNonce]
  rw [dif_pos ⟨headerNonce.length_bytes, messageNonce.length_bytes⟩]
  by_cases hprekey : packetType = packetTypePrekeyMessage
  · obtain ⟨identity, ephemeral, prekey, hidentity, hephemeral, hprekey'⟩ :=
      h.publicKeys (by rw [htype, hprekey])
    have hmetadata : unpackPrekeyMetadata header = .ok ⟨identity, ephemeral, prekey⟩ := by
      simp [unpackPrekeyMetadata, hidentity, hephemeral, hprekey', identity.length_bytes,
        ephemeral.length_bytes, prekey.length_bytes]
    rw [if_pos hprekey, hmetadata]
    exact ⟨_, rfl, rfl, rfl, rfl, rfl⟩
  · rw [if_neg hprekey]
    exact ⟨_, rfl, rfl, rfl, rfl, rfl⟩

end Unpacking

section Altering

variable [Byte B] [Sodium B] [ProtobufC B]

variable {packetType : MessageType} {header : List B} {headerKey : EmptyableHeaderKey B}
  {message : List B} {messageKey : MessageKey B} {prekeyMetadata : Option (PrekeyMetadata B)}
  {w w' : World B} {packet packet' : List B} {s s' : ProtobufCPacket B}

/-- A packet that shares the ciphertexts of an encrypted one and passes the checks is
decrypted, with the metadata that stands in it. -/
theorem packetDecrypt_altered (hbox : SecretboxRoundTrip B) (hproto : ProtobufRoundTrip B)
    (hencrypt : packetEncrypt packetType header headerKey message messageKey prekeyMetadata w =
      (.ok packet, w'))
    (hs : ProtobufC.packetUnpack packet = some s)
    (hs' : ProtobufC.packetUnpack packet' = some s') (hsame : s.SameCiphertexts s')
    (haccepted : s'.packetHeader.MetadataAccepted) :
    packetDecryptHeader packet' headerKey = .ok header ∧
      ∃ metadata, packetGetMetadataWithoutVerification packet' = .ok metadata ∧
        packetDecrypt packet' headerKey messageKey = .ok ⟨header, message, metadata⟩ := by
  obtain ⟨hkey, rfl⟩ := packetEncrypt_eq_ok hencrypt
  rw [hproto.packet, Option.some.injEq] at hs
  subst hs
  obtain ⟨unpacked, hunpack, hheaderNonce, hmessageNonce, hheader, hmessage⟩ :=
    haccepted.packetUnpack hs' hsame.headerNonce hsame.messageNonce
      hsame.encryptedAxolotlHeader hsame.encryptedMessage
  have hseals : Seals packet' headerKey.key header messageKey message := by
    refine ⟨unpacked, hunpack, ?_, ?_⟩
    · rw [hheader, hheaderNonce]
    · rw [hmessage, hmessageNonce]
  have hdecrypt := hseals.packetDecryptHeader hbox
  rw [← EmptyableKey.eq_ofKey hkey] at hdecrypt
  have hmetadata : ∃ metadata, packetGetMetadataWithoutVerification packet' = .ok metadata := by
    rw [packetGetMetadataWithoutVerification, hunpack]
    exact ⟨_, rfl⟩
  obtain ⟨metadata, hmetadata⟩ := hmetadata
  refine ⟨hdecrypt, metadata, hmetadata, ?_⟩
  rw [packetDecrypt, hmetadata, hdecrypt, hseals.packetDecryptMessage hbox]
  rfl

omit [Byte B] [Sodium B] in
theorem not_metadataAccepted (hs' : ProtobufC.packetUnpack packet' = some s')
    (h : ¬ s'.packetHeader.MetadataAccepted) : ∃ e, packetUnpack packet' = .error e := by
  cases hunpack : packetUnpack packet' with
  | error e => exact ⟨e, rfl⟩
  | ok unpacked => exact absurd (.of_packetUnpack hs' hunpack) h

/-- Exactly the changes of the metadata that fail the checks of `packet_unpack` make the
decryption fail, whatever else they change. -/
theorem altered_metadata_rejected_iff (hbox : SecretboxRoundTrip B) (hproto : ProtobufRoundTrip B)
    (hencrypt : packetEncrypt packetType header headerKey message messageKey prekeyMetadata w =
      (.ok packet, w'))
    (hs : ProtobufC.packetUnpack packet = some s)
    (hs' : ProtobufC.packetUnpack packet' = some s') (hsame : s.SameCiphertexts s') :
    ((∃ e, packetDecryptHeader packet' headerKey = .error e) ∧
      ∃ e, packetDecrypt packet' headerKey messageKey = .error e) ↔
    ¬ s'.packetHeader.MetadataAccepted := by
  constructor
  · rintro ⟨⟨e, herror⟩, -⟩ haccepted
    rw [(packetDecrypt_altered hbox hproto hencrypt hs hs' hsame haccepted).1] at herror
    cases herror
  · intro hrejected
    obtain ⟨e, hunpack⟩ := not_metadataAccepted hs' hrejected
    refine ⟨?_, e, ?_⟩
    · unfold packetDecryptHeader
      split
      · exact ⟨_, rfl⟩
      · rw [hunpack]
        exact ⟨_, rfl⟩
    · rw [packetDecrypt, packetGetMetadataWithoutVerification, hunpack]
      rfl

end Altering

namespace Symbolic

def namedPacket (identity : PublicKey ℕ) : ProtobufCPacket ℕ :=
  encryptedPacketStruct .prekeyMessage [7] Key.zero (paddedMessage [1, 2, 3]) Key.zero
    (some ⟨identity, carry 32 5, carry 32 6⟩) Key.zero Key.zero

theorem packetEncrypt_named (identity : PublicKey ℕ) :
    packetEncrypt .prekeyMessage [7] (.ofKey Key.zero) [1, 2, 3] Key.zero
        (some ⟨identity, carry 32 5, carry 32 6⟩) world =
      (.ok (ProtobufC.packetPack (namedPacket identity)), world) :=
  packetEncrypt_eq (by decide) rfl (fun _ => rfl) _ _ _ _

theorem metadataAccepted_named (identity : PublicKey ℕ) :
    (namedPacket identity).packetHeader.MetadataAccepted :=
  ⟨rfl, by simp [namedPacket, encryptedPacketStruct], fun _ => ⟨_, _, _, rfl, rfl, rfl⟩⟩

/-- The identity of the sender is replaced, and the packet is decrypted and returned with
the new one. -/
theorem replaced_identity_accepted :
    ∃ packet packet' s s' decrypted,
      packetEncrypt .prekeyMessage [7] (.ofKey Key.zero) [1, 2, 3] Key.zero
        (some ⟨carry 32 1, carry 32 5, carry 32 6⟩) world = (.ok packet, world) ∧
      ProtobufC.packetUnpack packet = some s ∧ ProtobufC.packetUnpack packet' = some s' ∧
      s.SameCiphertexts s' ∧ s'.packetHeader.publicIdentityKey ≠ s.packetHeader.publicIdentityKey ∧
      packetDecryptHeader packet' (.ofKey Key.zero) = .ok [7] ∧
      packetDecrypt packet' (.ofKey Key.zero) Key.zero = .ok decrypted ∧
      decrypted.message = [1, 2, 3] ∧
      decrypted.metadata.prekeyMetadata = some ⟨carry 32 2, carry 32 5, carry 32 6⟩ := by
  have hs := protobufRoundTrip.packet (namedPacket (carry 32 1))
  have hs' := protobufRoundTrip.packet (namedPacket (carry 32 2))
  have hsame : (namedPacket (carry 32 1)).SameCiphertexts (namedPacket (carry 32 2)) :=
    ⟨rfl, rfl, rfl, rfl⟩
  obtain ⟨hheader, metadata, hmetadata, hdecrypt⟩ := packetDecrypt_altered secretboxRoundTrip
    protobufRoundTrip (packetEncrypt_named (carry 32 1)) hs hs' hsame (metadataAccepted_named _)
  refine ⟨_, _, _, _, _, packetEncrypt_named _, hs, hs', hsame, ?_, hheader, hdecrypt, rfl, ?_⟩
  · intro heq
    have hkey : carry 32 2 = carry 32 1 := Key.ext (Option.some.inj heq)
    exact absurd (carry_injective (by decide) hkey) (by decide)
  · rw [packetGetMetadataWithoutVerification, namedPacket,
      packetUnpack_encryptedPacketStruct protobufRoundTrip _ _ _ _ _ _ _ _ (by simp)] at hmetadata
    cases hmetadata
    rfl

/-- A packet of another protocol version is rejected. -/
theorem replaced_version_rejected :
    ∃ packet packet' s s', ProtobufC.packetUnpack packet = some s ∧
      ProtobufC.packetUnpack packet' = some s' ∧ s.SameCiphertexts s' ∧
      s'.packetHeader.currentProtocolVersion = 1 ∧
      (∃ e, packetDecryptHeader packet' (.ofKey (Key.zero : HeaderKey ℕ)) = .error e) ∧
      ∃ e, packetDecrypt packet' (.ofKey Key.zero) (Key.zero : MessageKey ℕ) = .error e := by
  have hs := protobufRoundTrip.packet (namedPacket (carry 32 1))
  have hs' := protobufRoundTrip.packet { namedPacket (carry 32 1) with
    packetHeader := { (namedPacket (carry 32 1)).packetHeader with currentProtocolVersion := 1 } }
  refine ⟨_, _, _, _, hs, hs', ⟨rfl, rfl, rfl, rfl⟩, rfl, ?_⟩
  rw [altered_metadata_rejected_iff secretboxRoundTrip protobufRoundTrip
    (packetEncrypt_named (carry 32 1)) hs hs' ⟨rfl, rfl, rfl, rfl⟩]
  intro haccepted
  exact absurd haccepted.version (by decide)

end Symbolic

end Molch
