import Molch.Conversation

namespace Molch

/-- The part of a ratchet that only an accepted message or a sent one may change. -/
structure RatchetCore (B : Type) where
  rootKey : EmptyableRootKey B
  sendHeaderKey : Option (EmptyableHeaderKey B)
  receiveHeaderKey : EmptyableHeaderKey B
  nextSendHeaderKey : EmptyableHeaderKey B
  nextReceiveHeaderKey : EmptyableHeaderKey B
  sendChainKey : EmptyableChainKey B
  receiveChainKey : EmptyableChainKey B
  ourPublicIdentity : PublicKey B
  theirPublicIdentity : PublicKey B
  ourPrivateEphemeral : PrivateKey B
  ourPublicEphemeral : PublicKey B
  theirPublicEphemeral : PublicKey B
  sendMessageNumber : UInt32
  receiveMessageNumber : UInt32
  previousMessageNumber : UInt32
  ratchetFlag : Bool
  role : Role

variable {B : Type} [Byte B] [Sodium B]

namespace Ratchet

def core (ratchet : Ratchet B) : RatchetCore B where
  rootKey := ratchet.rootKey
  sendHeaderKey := ratchet.sendHeaderKey
  receiveHeaderKey := ratchet.receiveHeaderKey
  nextSendHeaderKey := ratchet.nextSendHeaderKey
  nextReceiveHeaderKey := ratchet.nextReceiveHeaderKey
  sendChainKey := ratchet.sendChainKey
  receiveChainKey := ratchet.receiveChainKey
  ourPublicIdentity := ratchet.ourPublicIdentity
  theirPublicIdentity := ratchet.theirPublicIdentity
  ourPrivateEphemeral := ratchet.ourPrivateEphemeral
  ourPublicEphemeral := ratchet.ourPublicEphemeral
  theirPublicEphemeral := ratchet.theirPublicEphemeral
  sendMessageNumber := ratchet.sendMessageNumber
  receiveMessageNumber := ratchet.receiveMessageNumber
  previousMessageNumber := ratchet.previousMessageNumber
  ratchetFlag := ratchet.ratchetFlag
  role := ratchet.role

omit [Byte B] [Sodium B] in
theorem setHeaderDecryptability_core (ratchet : Ratchet B)
    (headerDecryptable : HeaderDecryptability) :
    (ratchet.setHeaderDecryptability headerDecryptable).2.core = ratchet.core := by
  unfold setHeaderDecryptability
  split <;> rfl

variable [Platform]

theorem receiveCurrentChain_core (ratchet : Ratchet B) (messageNumber : UInt32) (w : World B) :
    (ratchet.receiveCurrentChain messageNumber w).2.1.core = ratchet.core := by
  unfold receiveCurrentChain
  simp only
  split <;> rfl

theorem receiveNextChain_core (ratchet : Ratchet B) (theirEphemeral : PublicKey B)
    (messageNumber previousNumber : UInt32) (w : World B) :
    (ratchet.receiveNextChain theirEphemeral messageNumber previousNumber w).2.1.core =
      ratchet.core := by
  unfold receiveNextChain
  simp only
  split
  · rfl
  · split
    · rfl
    · split <;> rfl

theorem receive_core (ratchet : Ratchet B) (theirEphemeral : PublicKey B)
    (messageNumber previousNumber : UInt32) (w : World B) :
    (ratchet.receive theirEphemeral messageNumber previousNumber w).2.1.core = ratchet.core := by
  unfold receive
  split
  · rfl
  · split
    · rfl
    · split
      · exact receiveCurrentChain_core ratchet messageNumber w
      · split
        · rfl
        · exact receiveNextChain_core ratchet theirEphemeral messageNumber previousNumber w

omit [Sodium B] [Platform] in
theorem setLastMessageAuthenticity_ok {ratchet : Ratchet B}
    (h : ratchet.onCurrentChain = true ∨ ratchet.theirPurportedPublicEphemeral.isSome)
    (w : World B) : (ratchet.setLastMessageAuthenticity true w).1 = .ok () := by
  unfold setLastMessageAuthenticity
  rw [if_neg (by simp)]
  split
  · rfl
  · split
    · rfl
    · rename_i hchain _
      rcases h with h | h
      · exact absurd h hchain
      · obtain ⟨theirEphemeral, htheir⟩ := Option.isSome_iff_exists.mp h
        simp [htheir]

theorem receiveCurrentChain_onCurrentChain (ratchet : Ratchet B) (messageNumber : UInt32)
    (w : World B) :
    (ratchet.receiveCurrentChain messageNumber w).2.1.onCurrentChain =
      ratchet.onCurrentChain := by
  unfold receiveCurrentChain
  simp only
  split <;> rfl

theorem receiveNextChain_theirPurportedPublicEphemeral (ratchet : Ratchet B)
    (theirEphemeral : PublicKey B) (messageNumber previousNumber : UInt32) (w : World B) :
    (ratchet.receiveNextChain theirEphemeral messageNumber previousNumber
      w).2.1.theirPurportedPublicEphemeral = some theirEphemeral := by
  unfold receiveNextChain
  simp only
  split
  · rfl
  · split
    · rfl
    · split <;> rfl

theorem setLastMessageAuthenticity_of_receive {ratchet ratchet' : Ratchet B}
    {theirEphemeral : PublicKey B} {messageNumber previousNumber : UInt32}
    {messageKey : MessageKey B} {w w' : World B}
    (h : ratchet.receive theirEphemeral messageNumber previousNumber w =
      (.ok messageKey, ratchet', w')) :
    (ratchet'.setLastMessageAuthenticity true w').1 = .ok () := by
  apply setLastMessageAuthenticity_ok
  unfold receive at h
  split at h
  · cases h
  · split at h
    · cases h
    · split at h
      · rename_i hchain
        have hsame := receiveCurrentChain_onCurrentChain ratchet messageNumber w
        rw [h, hchain] at hsame
        exact .inl hsame
      · split at h
        · cases h
        · have hsome := receiveNextChain_theirPurportedPublicEphemeral ratchet theirEphemeral
            messageNumber previousNumber w
          rw [h] at hsome
          exact .inr (Option.isSome_iff_exists.mpr ⟨_, hsome⟩)

end Ratchet

namespace Conversation

variable [ProtobufC B]

theorem trySkippedHeaderAndMessageKeys_core (conversation : Conversation B) (packet : List B) :
    (conversation.trySkippedHeaderAndMessageKeys packet).2.ratchet.core =
      conversation.ratchet.core := by
  unfold trySkippedHeaderAndMessageKeys
  split
  · rfl
  · simp only
    split <;> rfl

variable [Platform] {conversation conversation' : Conversation B} {packet : List B} {e : Error}
  {w w' : World B}

theorem receiveWithHeader_core {header : List B} {headerDecryptable : HeaderDecryptability}
    (h : conversation.receiveWithHeader packet header headerDecryptable w =
      (.error e, conversation', w')) :
    conversation'.ratchet.core = conversation.ratchet.core := by
  unfold receiveWithHeader at h
  have hset := conversation.ratchet.setHeaderDecryptability_core headerDecryptable
  split at h
  · rename_i heq
    cases h
    rw [heq] at hset
    exact hset
  · rename_i ratchet heq
    rw [heq] at hset
    split at h
    · cases h
      exact hset
    · rename_i extracted _
      have hreceive := ratchet.receive_core extracted.theirPublicEphemeral
        extracted.messageNumber extracted.previousMessageNumber w
      split at h
      · rename_i heq
        cases h
        rw [heq] at hreceive
        exact hreceive.trans hset
      · rename_i heq
        rw [heq] at hreceive
        split at h
        · cases h
          exact hreceive.trans hset
        · have hok := Ratchet.setLastMessageAuthenticity_of_receive heq
          split at h
          · rename_i heq'
            rw [heq'] at hok
            cases hok
          · cases h

theorem receiveWithHeaderKeys_core
    (h : conversation.receiveWithHeaderKeys packet w = (.error e, conversation', w')) :
    conversation'.ratchet.core = conversation.ratchet.core := by
  unfold receiveWithHeaderKeys at h
  split at h
  · exact receiveWithHeader_core h
  · split at h
    · exact receiveWithHeader_core h
    · have hset := conversation.ratchet.setHeaderDecryptability_core .undecryptable
      split at h
      · rename_i heq
        cases h
        rw [heq] at hset
        exact hset
      · rename_i heq
        cases h
        rw [heq] at hset
        exact hset

theorem internalReceive_core
    (h : conversation.internalReceive packet w = (.error e, conversation', w')) :
    conversation'.ratchet.core = conversation.ratchet.core := by
  unfold internalReceive at h
  have hskipped := conversation.trySkippedHeaderAndMessageKeys_core packet
  split at h
  · cases h
  · rename_i heq
    rw [heq] at hskipped
    exact (receiveWithHeaderKeys_core h).trans hskipped

/-- A failed `receive` leaves the ratchet where it was and ready for the next message. -/
theorem receive_error_keeps_ratchet
    (h : conversation.receive packet w = (.error e, conversation', w')) :
    conversation'.ratchet.core = conversation.ratchet.core ∧
      conversation'.ratchet.stagedHeaderAndMessageKeys = .clear ∧
      conversation'.ratchet.headerDecryptable = .notTried ∧
      conversation'.ratchet.receivedValid = true := by
  unfold receive at h
  split at h
  · cases h
  · rename_i heq
    have hcore := internalReceive_core heq
    cases h
    exact ⟨hcore, rfl, rfl, rfl⟩

end Conversation

end Molch
