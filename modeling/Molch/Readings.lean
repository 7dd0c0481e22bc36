import Molch.Foundation.Runs
import Molch.Library
import Molch.UserLife

namespace Molch

open World

variable {B : Type}

theorem World.after_randombytesBuf (w : World B) (size : ℕ) :
    w.After (w.randombytesBuf size).2 :=
  ⟨0, fun _ => rfl⟩

theorem after_addKey (store : HeaderAndMessageKeyStore B) (headerKey : EmptyableHeaderKey B)
    (messageKey : MessageKey B) (w : World B) : w.After (store.add headerKey messageKey w).2 := by
  rw [HeaderAndMessageKeyStore.add, HeaderAndMessageKey.create]
  simp only
  rw [HeaderAndMessageKeyStore.addKey_world]
  exact w.after_now.trans (after_now _)

section Receiving

variable [Byte B] [Sodium B]

theorem after_stageKeys (headerKey : EmptyableHeaderKey B) (count : ℕ)
    (chainKey : EmptyableChainKey B) (staged : HeaderAndMessageKeyStore B) (w : World B) :
    w.After (stageKeys headerKey count chainKey staged w).2.2 := by
  induction count generalizing chainKey staged w with
  | zero => exact .refl w
  | succ count ih =>
      rw [stageKeys]
      split
      · exact .refl w
      · rename_i messageKey _
        have hadd := after_addKey staged headerKey messageKey w
        simp only
        split
        · exact hadd
        · exact hadd.trans (ih _ _ _)

variable [Platform]

theorem after_stageSkippedHeaderAndMessageKeys (staged : HeaderAndMessageKeyStore B)
    (output : Bool) (headerKey : EmptyableHeaderKey B) (current future : UInt32)
    (chainKey : EmptyableChainKey B) (w : World B) :
    w.After (stageSkippedHeaderAndMessageKeys staged output headerKey current future chainKey
      w).2.2 := by
  rw [stageSkippedHeaderAndMessageKeys]
  split
  · exact .refl w
  · split
    · exact .refl w
    · have hstage := after_stageKeys headerKey (future.toNat - current.toNat) chainKey staged w
      split
      · rename_i heq
        rw [heq] at hstage
        exact hstage
      · rename_i heq
        rw [heq] at hstage
        split
        · split
          · exact hstage
          · split
            · exact hstage
            · exact hstage
        · exact hstage

namespace Ratchet

theorem after_receiveCurrentChain (ratchet : Ratchet B) (number : UInt32) (w : World B) :
    w.After (ratchet.receiveCurrentChain number w).2.2 := by
  have hstage := after_stageSkippedHeaderAndMessageKeys ratchet.stagedHeaderAndMessageKeys true
    ratchet.receiveHeaderKey ratchet.receiveMessageNumber number ratchet.receiveChainKey w
  rw [receiveCurrentChain]
  simp only
  split
  · rename_i heq
    rw [heq] at hstage
    exact hstage
  · rename_i heq
    rw [heq] at hstage
    exact hstage
  · rename_i heq
    rw [heq] at hstage
    exact hstage

theorem after_receiveNextChain (ratchet : Ratchet B) (publicEphemeral : PublicKey B)
    (number previousNumber : UInt32) (w : World B) :
    w.After (ratchet.receiveNextChain publicEphemeral number previousNumber w).2.2 := by
  have hrest := after_stageSkippedHeaderAndMessageKeys ratchet.stagedHeaderAndMessageKeys false
    ratchet.receiveHeaderKey ratchet.receiveMessageNumber previousNumber ratchet.receiveChainKey w
  rw [receiveNextChain]
  simp only
  split
  · rename_i heq
    rw [heq] at hrest
    exact hrest
  · rename_i staged w' heq
    rw [heq] at hrest
    split
    · exact hrest
    · rename_i derived _
      have hstage := after_stageSkippedHeaderAndMessageKeys staged true
        ratchet.nextReceiveHeaderKey 0 number (.ofKey derived.chainKey) w'
      split
      · rename_i heq'
        rw [heq'] at hstage
        exact hrest.trans hstage
      · rename_i heq'
        rw [heq'] at hstage
        exact hrest.trans hstage
      · rename_i heq'
        rw [heq'] at hstage
        exact hrest.trans hstage

theorem after_receive (ratchet : Ratchet B) (publicEphemeral : PublicKey B)
    (number previousNumber : UInt32) (w : World B) :
    w.After (ratchet.receive publicEphemeral number previousNumber w).2.2 := by
  rw [receive]
  split
  · exact .refl w
  · split
    · exact .refl w
    · split
      · exact after_receiveCurrentChain _ _ w
      · split
        · exact .refl w
        · exact after_receiveNextChain _ _ _ _ w

omit [Sodium B] [Platform] in
theorem after_setLastMessageAuthenticity (ratchet : Ratchet B) (valid : Bool) (w : World B) :
    w.After (ratchet.setLastMessageAuthenticity valid w).2.2 := by
  have haccept : ∀ ratchet : Ratchet B, w.After (ratchet.acceptMessage w).2 :=
    fun _ => ⟨2, fun _ => rfl⟩
  rw [setLastMessageAuthenticity]
  split
  · exact .refl w
  · split
    · exact haccept _
    · split
      · exact .refl w
      · simp only
        split
        · exact .refl w
        · exact haccept _

end Ratchet

variable [ProtobufC B]

omit [Platform] [ProtobufC B] in
theorem Ratchet.after_getSendData (ratchet : Ratchet B) (w : World B) :
    w.After (ratchet.getSendData w).2.2 := by
  have hstart : w.After (ratchet.startSendChain w).2.2 := by
    rw [startSendChain]
    simp only
    split
    · exact ⟨0, fun _ => rfl⟩
    · exact ⟨0, fun _ => rfl⟩
  rw [getSendData]
  split
  · split
    · rename_i heq
      rw [heq] at hstart
      exact hstart
    · rename_i heq
      rw [heq] at hstart
      exact hstart
  · exact .refl w

omit [Platform] in
theorem after_packetEncrypt (packetType : MessageType) (header : List B)
    (headerKey : EmptyableHeaderKey B) (message : List B) (messageKey : MessageKey B)
    (prekeyMetadata : Option (PrekeyMetadata B)) (w : World B) :
    w.After (packetEncrypt packetType header headerKey message messageKey prekeyMetadata w).2 := by
  rw [packetEncrypt]
  split
  · exact .refl w
  · split
    · exact .refl w
    · simp only
      split
      · exact ⟨0, fun _ => rfl⟩
      · split
        · exact ⟨0, fun _ => rfl⟩
        · exact ⟨0, fun _ => rfl⟩

namespace Conversation

theorem after_receiveWithHeader (conversation : Conversation B) (packet header : List B)
    (headerDecryptable : HeaderDecryptability) (w : World B) :
    w.After (conversation.receiveWithHeader packet header headerDecryptable w).2.2 := by
  rw [receiveWithHeader]
  split
  · exact .refl w
  · split
    · exact .refl w
    · rename_i ratchet _ _ extracted _
      have hreceive := ratchet.after_receive extracted.theirPublicEphemeral
        extracted.messageNumber extracted.previousMessageNumber w
      split
      · rename_i heq
        rw [heq] at hreceive
        exact hreceive
      · rename_i messageKey ratchet' w' heq
        rw [heq] at hreceive
        split
        · exact hreceive
        · have hset := ratchet'.after_setLastMessageAuthenticity true w'
          split
          · rename_i heq'
            rw [heq'] at hset
            exact hreceive.trans hset
          · rename_i heq'
            rw [heq'] at hset
            exact hreceive.trans hset

theorem after_receive (conversation : Conversation B) (packet : List B) (w : World B) :
    w.After (conversation.receive packet w).2.2 := by
  have hinternal : w.After (conversation.internalReceive packet w).2.2 := by
    rw [internalReceive]
    split
    · exact .refl w
    · rw [receiveWithHeaderKeys]
      split
      · exact after_receiveWithHeader _ _ _ _ w
      · split
        · exact after_receiveWithHeader _ _ _ _ w
        · split
          · exact .refl w
          · exact .refl w
  rw [receive]
  split
  · rename_i heq
    rw [heq] at hinternal
    exact hinternal
  · rename_i conversation' w' heq
    rw [heq] at hinternal
    have hset := conversation'.ratchet.after_setLastMessageAuthenticity false w'
    split
    · rename_i heq'
      rw [heq'] at hset
      exact hinternal.trans hset
    · rename_i heq'
      rw [heq'] at hset
      exact hinternal.trans hset

omit [Platform] in
theorem after_send (conversation : Conversation B) (message : List B)
    (prekeyMetadata : Option (PrekeyMetadata B)) (w : World B) :
    w.After (conversation.send message prekeyMetadata w).2.2 := by
  have hdata := conversation.ratchet.after_getSendData w
  rw [send]
  split
  · rename_i heq
    rw [heq] at hdata
    exact hdata
  · rename_i heq
    rw [heq] at hdata
    exact hdata.trans (after_packetEncrypt _ _ _ _ _ _ _)

omit [ProtobufC B] [Platform] in
theorem after_create (ourPrivateIdentity ourPrivateEphemeral : PrivateKey B)
    (ourPublicIdentity theirPublicIdentity ourPublicEphemeral theirPublicEphemeral : PublicKey B)
    (w : World B) :
    w.After (create ourPrivateIdentity ourPublicIdentity theirPublicIdentity ourPrivateEphemeral
      ourPublicEphemeral theirPublicEphemeral w).2 := by
  rw [create]
  simp only
  split
  · exact w.after_randombytesBuf 32
  · exact w.after_randombytesBuf 32

omit [Platform] in
theorem after_createSendConversation (message : List B)
    (senderPublicIdentity receiverPublicIdentity : PublicKey B)
    (senderPrivateIdentity : PrivateKey B) (prekeyList : List B) (w : World B) :
    w.After (createSendConversation message senderPublicIdentity senderPrivateIdentity
      receiverPublicIdentity prekeyList w).2 := by
  have hdrawn : w.After ((cryptoBoxKeypair w).2.randombytesUniform prekeyAmount).2 :=
    ⟨0, fun _ => rfl⟩
  rw [createSendConversation]
  split
  · exact .refl w
  · simp only
    split
    · exact hdrawn
    · rename_i receiverPublicPrekey _
      have hcreate := hdrawn.trans (after_create senderPrivateIdentity (cryptoBoxKeypair w).1.2
        senderPublicIdentity receiverPublicIdentity (cryptoBoxKeypair w).1.1 receiverPublicPrekey _)
      split
      · rename_i heq
        rw [heq] at hcreate
        exact hcreate
      · rename_i conversation w' heq
        rw [heq] at hcreate
        have hsend := conversation.after_send message (some ⟨senderPublicIdentity,
          (cryptoBoxKeypair w).1.1, receiverPublicPrekey⟩) w'
        split
        · rename_i heq'
          rw [heq'] at hsend
          exact hcreate.trans hsend
        · rename_i heq'
          rw [heq'] at hsend
          exact hcreate.trans hsend

theorem after_getPrekey_createReceiveConversation {packet : List B}
    {metadata : PrekeyMetadata B} (hmetadata : unverifiedPrekeyMetadata packet = .ok metadata)
    (publicIdentity : PublicKey B) (privateIdentity : PrivateKey B) (prekeys : PrekeyStore B)
    (w : World B) :
    (prekeys.getPrekey metadata.prekey w).2.2.After
      (createReceiveConversation packet publicIdentity privateIdentity prekeys w).2.2 := by
  rw [createReceiveConversation, hmetadata]
  simp only
  split
  · rename_i heq
    rw [heq]
    exact .refl _
  · rename_i privatePrekey prekeys' w' heq
    rw [heq]
    have hcreate := after_create privateIdentity privatePrekey publicIdentity
      metadata.identity metadata.prekey metadata.ephemeral w'
    split
    · rename_i heq'
      rw [heq'] at hcreate
      exact hcreate
    · rename_i conversation w'' heq'
      rw [heq'] at hcreate
      have hreceive := conversation.after_receive packet w''
      split
      · rename_i heq''
        rw [heq''] at hreceive
        exact hcreate.trans hreceive
      · rename_i heq''
        rw [heq''] at hreceive
        exact hcreate.trans hreceive

theorem after_createReceiveConversation (packet : List B) (publicIdentity : PublicKey B)
    (privateIdentity : PrivateKey B) (prekeys : PrekeyStore B) (w : World B) :
    w.After (createReceiveConversation packet publicIdentity privateIdentity prekeys w).2.2 := by
  cases hmetadata : unverifiedPrekeyMetadata packet with
  | error e =>
      rw [createReceiveConversation, hmetadata]
      exact .refl w
  | ok metadata =>
      exact (prekeys.after_getPrekey metadata.prekey w).trans
        (after_getPrekey_createReceiveConversation hmetadata _ _ _ w)

end Conversation

end Receiving

namespace Library

variable [Byte B] [Sodium B] [ProtobufC B] (library : Library B)

omit [ProtobufC B] in
theorem after_createPrekeyList (userId : PublicSigningKey B) (w : World B) :
    w.After (library.createPrekeyList userId w).2.2 := by
  rw [createPrekeyList]
  split
  · exact .refl w
  · rename_i user _
    rw [User.createPrekeyList_eq]
    exact (user.prekeys.after_rotate w).trans (after_now _)

omit [Byte B] in
theorem after_exportAll (w : World B) : w.After (library.exportAll w).2 := by
  rw [exportAll]
  split
  · exact .refl w
  · split
    · exact .refl w
    · exact w.after_randombytesBuf 24

omit [Byte B] in
theorem after_exportIf (createBackup : Bool) (w : World B) :
    w.After (library.exportIf createBackup w).2 := by
  rw [exportIf]
  split
  · exact library.after_exportAll w
  · exact .refl w

theorem after_exportConversation (id : ConversationId B) (w : World B) :
    w.After (library.exportConversation id w).2 := by
  rw [exportConversation]
  split
  · exact .refl w
  · split
    · exact .refl w
    · split
      · exact .refl w
      · exact w.after_randombytesBuf 24

theorem after_exportConversationIf (createBackup : Bool) (id : ConversationId B) (w : World B) :
    w.After (library.exportConversationIf createBackup id w).2 := by
  rw [exportConversationIf]
  split
  · exact library.after_exportConversation id w
  · exact .refl w

theorem after_createUser (createBackup : Bool) (randomSpice : Option (List B)) (w : World B) :
    w.After (library.createUser createBackup randomSpice w).2.2 := by
  have huser := (w.after_randombytesBuf 32).trans
    (User.after_create randomSpice (w.randombytesBuf 32).2)
  rw [createUser]
  simp only [updateBackupKey]
  split
  · rename_i heq
    rw [heq] at huser
    exact huser
  · rename_i user w' heq
    rw [heq] at huser
    have hlist := huser.trans (after_createPrekeyList
      ⟨UserStore.add user library.users, some (w.randombytesBuf 32).1⟩ user.publicSigningKey w')
    split
    · rename_i heq'
      rw [heq'] at hlist
      exact hlist
    · rename_i library' w'' heq'
      rw [heq'] at hlist
      have hexport := hlist.trans (library'.after_exportIf createBackup w'')
      split
      · rename_i heq''
        rw [heq''] at hexport
        exact hexport
      · rename_i heq''
        rw [heq''] at hexport
        exact hexport

omit [ProtobufC B] in
theorem after_verifyPrekeyList (prekeyList : List B) (key : PublicSigningKey B) (w : World B) :
    w.After (verifyPrekeyList prekeyList key w).2 := by
  rw [verifyPrekeyList]
  split
  · exact .refl w
  · split
    · exact .refl w
    · simp only
      split_ifs
      · exact w.after_now
      · split
        · exact w.after_now
        · exact w.after_now

theorem after_startSendConversation (senderId receiverId : PublicSigningKey B)
    (prekeyList message : List B) (createBackup : Bool) (w : World B) :
    w.After (library.startSendConversation senderId receiverId prekeyList message createBackup
      w).2.2 := by
  have hverify := after_verifyPrekeyList prekeyList receiverId w
  rw [startSendConversation]
  split
  · exact .refl w
  · split
    · exact .refl w
    · split
      · rename_i heq
        rw [heq] at hverify
        exact hverify
      · rename_i user _ _ identity w' heq
        rw [heq] at hverify
        have hsend := hverify.trans (Conversation.after_createSendConversation message
          user.masterKeys.publicIdentityKey identity user.masterKeys.privateIdentityKey
          (signedPrekeys prekeyList) w')
        split
        · rename_i heq'
          rw [heq'] at hsend
          exact hsend
        · rename_i heq'
          rw [heq'] at hsend
          exact hsend.trans (after_exportIf _ _ _)

theorem after_encryptMessage (id : ConversationId B) (message : List B) (createBackup : Bool)
    (w : World B) : w.After (library.encryptMessage id message createBackup w).2.2 := by
  rw [encryptMessage]
  split
  · exact .refl w
  · rename_i conversation _
    have hsend := conversation.after_send message none w
    split
    · rename_i heq
      rw [heq] at hsend
      exact hsend
    · rename_i heq
      rw [heq] at hsend
      exact hsend.trans (after_exportConversationIf _ _ _ _)

variable [Platform]

theorem after_decryptMessage (id : ConversationId B) (packet : List B) (createBackup : Bool)
    (w : World B) : w.After (library.decryptMessage id packet createBackup w).2.2 := by
  rw [decryptMessage]
  split
  · exact .refl w
  · rename_i conversation _
    have hreceive := conversation.after_receive packet w
    split
    · rename_i heq
      rw [heq] at hreceive
      exact hreceive
    · rename_i heq
      rw [heq] at hreceive
      exact hreceive.trans (after_exportConversationIf _ _ _ _)

theorem after_startReceiveConversation (receiverId : PublicSigningKey B) (packet : List B)
    (createBackup : Bool) (w : World B) :
    w.After (library.startReceiveConversation receiverId packet createBackup w).2.2 := by
  rw [startReceiveConversation]
  split
  · exact .refl w
  · rename_i user _
    have hreceive := Conversation.after_createReceiveConversation packet
      user.masterKeys.publicIdentityKey user.masterKeys.privateIdentityKey user.prekeys w
    simp only
    split
    · exact hreceive
    · rename_i message conversation heq
      have hlist := fun library' : Library B =>
        hreceive.trans (library'.after_createPrekeyList receiverId _)
      split
      · rename_i heq'
        exact (congrArg (fun result => w.After result.2.2) heq').mp (hlist _)
      · rename_i heq'
        have hafter := (congrArg (fun result => w.After result.2.2) heq').mp (hlist _)
        exact hafter.trans (after_exportIf _ _ _)

theorem after_call (state : Library B × World B) (c : Call B) :
    state.2.After (call state c).2.2 := by
  cases c with
  | createUser createBackup randomSpice => exact state.1.after_createUser _ _ _
  | destroyUser userId createBackup => exact after_exportIf _ createBackup state.2
  | userCount => exact .refl _
  | destroyAllUsers => exact .refl _
  | listUsers => exact .refl _
  | getMessageType packet => exact .refl _
  | startSendConversation senderId receiverId prekeyList message createBackup =>
      exact state.1.after_startSendConversation _ _ _ _ _ _
  | startReceiveConversation receiverId senderId packet createBackup =>
      exact state.1.after_startReceiveConversation _ _ _ _
  | encryptMessage id message createBackup => exact state.1.after_encryptMessage _ _ _ _
  | decryptMessage id packet createBackup => exact state.1.after_decryptMessage _ _ _ _
  | endConversation id createBackup =>
      rw [call, endConversation]
      split
      · exact .refl _
      · exact after_exportIf _ createBackup state.2
  | listConversations userId => exact .refl _
  | exportConversation id => exact state.1.after_exportConversation id state.2
  | importConversation backup backupKey =>
      rw [call, importConversation]
      split
      · exact .refl _
      · exact state.2.after_randombytesBuf 32
  | exportAll => exact state.1.after_exportAll state.2
  | importAll backup backupKey =>
      rw [call, importAll]
      split
      · exact .refl _
      · exact state.2.after_randombytesBuf 32
  | getPrekeyList userId =>
      have hlist := state.1.after_createPrekeyList userId state.2
      rw [call]
      split
      · rename_i heq
        rw [heq] at hlist
        exact hlist
      · rename_i heq
        rw [heq] at hlist
        exact hlist
  | updateBackupKey => exact state.2.after_randombytesBuf 32

end Library

end Molch
