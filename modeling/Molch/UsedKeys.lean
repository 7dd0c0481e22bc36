import Molch.WellFormed

namespace Molch

variable {B : Type} [Byte B] [Sodium B] [ProtobufC B] [Platform]

namespace Conversation

/-- The message key that the ratchet gives out for a decrypted header. -/
def keyForHeader (conversation : Conversation B) (header : List B)
    (headerDecryptable : HeaderDecryptability) (w : World B) : Option (MessageKey B) :=
  match conversation.ratchet.setHeaderDecryptability headerDecryptable, headerExtract header with
  | (.ok (), ratchet), .ok extracted =>
      (ratchet.receive extracted.theirPublicEphemeral extracted.messageNumber
        extracted.previousMessageNumber w).1.toOption
  | _, _ => none

/-- The message key with which `receive` opens a packet: the one found among the skipped keys,
or else the one for the header. -/
def keyForPacket (conversation : Conversation B) (packet : List B) (w : World B) :
    Option (MessageKey B) :=
  match conversation.trySkippedHeaderAndMessageKeys packet with
  | (.ok _, _) =>
      match firstDecryption packet conversation.ratchet.skippedHeaderAndMessageKeys.keys with
      | none => none
      | some (index, _) =>
          conversation.ratchet.skippedHeaderAndMessageKeys.keys[index]?.map
            HeaderAndMessageKey.messageKey
  | (.error _, conversation) =>
      match packetDecryptHeader packet conversation.ratchet.receiveHeaderKey with
      | .ok header => conversation.keyForHeader header .currentDecryptable w
      | .error _ =>
          match packetDecryptHeader packet conversation.ratchet.nextReceiveHeaderKey with
          | .ok header => conversation.keyForHeader header .nextDecryptable w
          | .error _ => none

/-- The key of the message that a call sends or receives, if it succeeds. -/
def usedKey (conversation : Conversation B) : Call B → Option (MessageKey B)
  | .send message prekeyMetadata w =>
      match (conversation.ratchet.getSendData w).1,
          (conversation.send message prekeyMetadata w).1 with
      | .ok data, .ok _ => some data.messageKey
      | _, _ => none
  | .receive packet w =>
      match (conversation.receive packet w).1 with
      | .ok _ => conversation.keyForPacket packet w
      | .error _ => none

/-- A call with the key of the message it sends or receives as its result. -/
def callWithKey (conversation : Conversation B) (c : Call B) :
    Option (MessageKey B) × Conversation B :=
  (conversation.usedKey c, (conversation.call c).2)

variable {conversation : Conversation B} {packet : List B}

theorem keyForPacket_skipped {index : ℕ} {decrypted : DecryptedPacket B}
    {header : ExtractedHeader B}
    (hfound : firstDecryption packet
      conversation.ratchet.skippedHeaderAndMessageKeys.keys = some (index, decrypted))
    (hheader : headerExtract decrypted.header = .ok header) (w : World B) :
    conversation.keyForPacket packet w =
      conversation.ratchet.skippedHeaderAndMessageKeys.keys[index]?.map
        HeaderAndMessageKey.messageKey := by
  unfold keyForPacket trySkippedHeaderAndMessageKeys
  simp only [hfound, hheader]

theorem keyForHeader_leaving {left : HeaderAndMessageKeyStore B} {header : List B}
    {extracted : ExtractedHeader B} {headerDecryptable : HeaderDecryptability}
    (htried : conversation.ratchet.headerDecryptable = .notTried)
    (hnew : headerDecryptable ≠ .notTried) (hheader : headerExtract header = .ok extracted)
    (w : World B) :
    (conversation.leaving left).keyForHeader header headerDecryptable w =
      ((conversation.ratchet.trying left headerDecryptable).receive
        extracted.theirPublicEphemeral extracted.messageNumber extracted.previousMessageNumber
        w).1.toOption := by
  unfold keyForHeader
  rw [setHeaderDecryptability_leaving htried left hnew, hheader]

theorem keyForPacket_currentChain (h : conversation.ratchet.WellFormed)
    {left : HeaderAndMessageKeyStore B} (hleft : conversation.SkippedLeft packet left)
    {header : List B} {extracted : ExtractedHeader B}
    (hopen : packetDecryptHeader packet conversation.ratchet.receiveHeaderKey = .ok header)
    (hheader : headerExtract header = .ok extracted)
    (hnone : conversation.ratchet.receiveHeaderKey.isNone = false)
    (hskip : tooManySkipped conversation.ratchet.receiveMessageNumber
      extracted.messageNumber = false) (w : World B) :
    conversation.keyForPacket packet w = some (conversation.ratchet.receiveChainKey.key.advance
      (conversation.ratchet.skippedCount extracted.messageNumber)).messageKey := by
  obtain ⟨e, htry⟩ := hleft.trySkippedHeaderAndMessageKeys
  have hcurrent : packetDecryptHeader packet (conversation.leaving left).ratchet.receiveHeaderKey =
      .ok header := hopen
  unfold keyForPacket
  rw [htry]
  simp only [hcurrent]
  rw [keyForHeader_leaving h.headerDecryptable (by decide) hheader,
    Ratchet.receive_current left h.receivedValid hnone (h.receiveChainKey hnone) hskip]
  rfl

theorem keyForPacket_nextChain (hkdf : KdfNonzero B) (h : conversation.ratchet.WellFormed)
    {left : HeaderAndMessageKeyStore B} (hleft : conversation.SkippedLeft packet left)
    {header : List B} {extracted : ExtractedHeader B}
    {derived : DerivedRootNextHeadAndChainKey B}
    (hcurrent : ∃ e, packetDecryptHeader packet conversation.ratchet.receiveHeaderKey = .error e)
    (hopen : packetDecryptHeader packet conversation.ratchet.nextReceiveHeaderKey = .ok header)
    (hheader : headerExtract header = .ok extracted)
    (hflag : conversation.ratchet.ratchetFlag = false)
    (hrest : conversation.ratchet.restInReach extracted.previousMessageNumber)
    (hderived : deriveRootNextHeaderAndChainKeys conversation.ratchet.ourPrivateEphemeral
      conversation.ratchet.ourPublicEphemeral extracted.theirPublicEphemeral
      conversation.ratchet.rootKey conversation.ratchet.role = .ok derived)
    (hskip : tooManySkipped 0 extracted.messageNumber = false) (w : World B) :
    conversation.keyForPacket packet w =
      some (derived.chainKey.advance extracted.messageNumber.toNat).messageKey := by
  obtain ⟨e, htry⟩ := hleft.trySkippedHeaderAndMessageKeys
  obtain ⟨e', hcurrent⟩ := hcurrent
  have hcurrent' : packetDecryptHeader packet
      (conversation.leaving left).ratchet.receiveHeaderKey = .error e' := hcurrent
  have hnext : packetDecryptHeader packet
      (conversation.leaving left).ratchet.nextReceiveHeaderKey = .ok header := hopen
  unfold keyForPacket
  rw [htry]
  simp only [hcurrent', hnext]
  rw [keyForHeader_leaving h.headerDecryptable (by decide) hheader,
    Ratchet.receive_next left hkdf h.receivedValid hflag hrest hderived hskip]
  rfl

end Conversation

end Molch
