import Molch.LibraryImports
import Molch.Readings

namespace Molch

variable {B : Type} [Byte B] [Sodium B] [ProtobufC B] [Platform] {times : ℤ → Prop}

namespace Conversation

section Ids

variable (conversation : Conversation B)

omit [Platform] in
theorem send_id (message : List B) (prekeyMetadata : Option (PrekeyMetadata B)) (w : World B) :
    (conversation.send message prekeyMetadata w).2.1.id = conversation.id := by
  rw [send]
  split
  · rfl
  · rfl

theorem receiveWithHeader_id (packet header : List B) (headerDecryptable : HeaderDecryptability)
    (w : World B) :
    (conversation.receiveWithHeader packet header headerDecryptable w).2.1.id =
      conversation.id := by
  rw [receiveWithHeader]
  split
  · rfl
  · split
    · rfl
    · split
      · rfl
      · split
        · rfl
        · split
          · rfl
          · rfl

theorem internalReceive_id (packet : List B) (w : World B) :
    (conversation.internalReceive packet w).2.1.id = conversation.id := by
  have hskipped : (conversation.trySkippedHeaderAndMessageKeys packet).2.id =
      conversation.id := by
    rw [trySkippedHeaderAndMessageKeys]
    split
    · rfl
    · simp only
      split
      · rfl
      · rfl
  rw [internalReceive]
  split
  · rename_i heq
    rw [heq] at hskipped
    exact hskipped
  · rename_i heq
    rw [heq] at hskipped
    rw [receiveWithHeaderKeys, ← hskipped]
    split
    · exact receiveWithHeader_id _ _ _ _ w
    · split
      · exact receiveWithHeader_id _ _ _ _ w
      · split
        · rfl
        · rfl

theorem receive_id (packet : List B) (w : World B) :
    (conversation.receive packet w).2.1.id = conversation.id := by
  have hinternal := conversation.internalReceive_id packet w
  rw [receive]
  split
  · rename_i heq
    rw [heq] at hinternal
    exact hinternal
  · rename_i heq
    rw [heq] at hinternal
    split
    · exact hinternal
    · exact hinternal

end Ids

theorem reachable_createSendConversation {message packet prekeyList : List B}
    {senderPublicIdentity receiverPublicIdentity : PublicKey B}
    {senderPrivateIdentity : PrivateKey B} {w w' : World B} {conversation : Conversation B}
    (hw : w.Shows times)
    (h : createSendConversation message senderPublicIdentity senderPrivateIdentity
      receiverPublicIdentity prekeyList w = (.ok (packet, conversation), w')) :
    conversation.Reachable (World.Shows times) := by
  rw [createSendConversation] at h
  split at h
  · cases h
  · simp only at h
    split at h
    · cases h
    · rename_i prekey _
      have hafter := after_create senderPrivateIdentity (cryptoBoxKeypair w).1.2
        senderPublicIdentity receiverPublicIdentity (cryptoBoxKeypair w).1.1 prekey
        ((cryptoBoxKeypair w).2.randombytesUniform prekeyAmount).2
      split at h
      · cases h
      · rename_i created w'' hcreate
        rw [hcreate] at hafter
        have hcreated : created.Reachable (World.Shows times) := .create rfl hcreate
        have hlater : w''.Shows times := World.Shows.after (fun i => hw i) hafter
        split at h
        · cases h
        · rename_i hsend
          cases h
          have hsent := hcreated.send message
            (some ⟨senderPublicIdentity, (cryptoBoxKeypair w).1.1, prekey⟩) hlater
          rw [hsend] at hsent
          exact hsent

theorem reachable_createReceiveConversation {packet message : List B}
    {publicIdentity : PublicKey B} {privateIdentity : PrivateKey B}
    {prekeys prekeys' : PrekeyStore B} {w w' : World B} {conversation : Conversation B}
    (hprekeys : prekeys.All Prekey.IsPair) (hw : w.Shows times)
    (h : createReceiveConversation packet publicIdentity privateIdentity prekeys w =
      (.ok (message, conversation), prekeys', w')) :
    conversation.Reachable (World.Shows times) := by
  rw [createReceiveConversation] at h
  split at h
  · cases h
  · rename_i metadata _
    have hget := prekeys.after_getPrekey metadata.prekey w
    split at h
    · cases h
    · rename_i privatePrekey prekeys'' w'' hfound
      rw [hfound] at hget
      have hpair := hprekeys.pair_of_getPrekey (congrArg Prod.fst hfound)
      have hcreate := hget.trans (after_create privateIdentity privatePrekey publicIdentity
        metadata.identity metadata.prekey metadata.ephemeral w'')
      split at h
      · cases h
      · rename_i created w''' heq
        rw [heq] at hcreate
        have hcreated : created.Reachable (World.Shows times) := .create hpair heq
        split at h
        · cases h
        · rename_i hreceive
          cases h
          have hreceived := hcreated.receive packet (hw.after hcreate)
          rw [hreceive] at hreceived
          exact hreceived

end Conversation

namespace UserStore

/-- The users are distinct and each of them is one that the interface can get to. -/
abbrev Sound (times : ℤ → Prop) (users : List (User B)) : Prop :=
  Keyed.All User.publicSigningKey (User.Reachable times) users

variable {users : List (User B)} {id : ConversationId B}

theorem Sound.modifyContaining (h : Sound times users) {change : User B → User B}
    (hchange : ∀ user conversation, findConversation id users = some (user, conversation) →
      (change user).Reachable times ∧ (change user).publicSigningKey = user.publicSigningKey) :
    Sound times (UserStore.modifyContaining id change users) := by
  cases hfound : findConversation id users with
  | none =>
      rw [modifyContaining_of_none change hfound]
      exact h
  | some found =>
      obtain ⟨hnew, hkey⟩ := hchange found.1 found.2 hfound
      obtain ⟨before, after, rfl, hconversation, hbefore⟩ := findConversation_eq_some hfound
      rw [modifyContaining_append hconversation hbefore]
      exact h.replace hnew hkey

theorem Sound.findConversation (h : Sound times users) {user : User B}
    {conversation : Conversation B}
    (hfound : UserStore.findConversation id users = some (user, conversation)) :
    user.Reachable times ∧ conversation.Reachable (World.Shows times) ∧ conversation.id = id := by
  obtain ⟨before, after, rfl, hconversation, -⟩ := findConversation_eq_some hfound
  have huser := h.all user (List.mem_append_right _ List.mem_cons_self)
  exact ⟨huser, huser.conversations conversation (Keyed.mem_of_find hconversation),
    Keyed.key_of_find hconversation⟩

end UserStore

namespace User

variable {user : User B}

theorem Reachable.addConversation (h : user.Reachable times) {conversation : Conversation B}
    (hconversation : conversation.Reachable (World.Shows times)) :
    Reachable times { user with
      conversations := ConversationStore.add conversation user.conversations } := by
  apply h.converse
  intro other hother
  rcases Keyed.mem_of_mem_add hother with rfl | hother
  · exact hconversation
  · exact h.conversations other hother

theorem Reachable.removeConversation (h : user.Reachable times) (id : ConversationId B) :
    Reachable times { user with
      conversations := ConversationStore.remove id user.conversations } := by
  apply h.converse
  intro other hother
  exact h.conversations other ((Keyed.remove_sublist id user.conversations).subset hother)

theorem Reachable.createReceiveConversation (h : user.Reachable times) (packet : List B)
    {w : World B} (hw : w.Shows times) :
    Reachable times { user with
      prekeys := (Conversation.createReceiveConversation packet
        user.masterKeys.publicIdentityKey user.masterKeys.privateIdentityKey user.prekeys
          w).2.1 } := by
  cases hmetadata : Conversation.unverifiedPrekeyMetadata packet with
  | error e =>
      rw [Conversation.createReceiveConversation, hmetadata]
      exact h
  | ok metadata =>
      rw [Conversation.createReceiveConversation_prekeys hmetadata]
      exact h.getPrekey metadata.prekey hw

end User

namespace Library

open UserStore

variable {library : Library B}

section Calls

theorem sound_createPrekeyList (library : Library B) (h : Sound times library.users)
    (userId : PublicSigningKey B) {w : World B} (hw : w.Shows times) :
    Sound times (library.createPrekeyList userId w).2.1.users := by
  rw [createPrekeyList]
  cases hfound : UserStore.find userId library.users with
  | none => exact h
  | some user =>
      refine Keyed.All.modify h fun other hother => ?_
      cases hfound.symm.trans hother
      have huser := h.all user (Keyed.mem_of_find hfound)
      have hkey : user.publicSigningKey = userId := Keyed.key_of_find hfound
      refine ⟨huser.createPrekeyList hw, ?_⟩
      rw [User.createPrekeyList_eq]
      exact hkey

omit [Platform] in
theorem createUser_eq (library : Library B) (createBackup : Bool)
    {randomSpice : Option (List B)} {w w' : World B} {user : User B}
    (hcreate : User.create randomSpice (w.randombytesBuf 32).2 = (.ok user, w')) :
    library.createUser createBackup randomSpice w =
      let created : Library B := ⟨UserStore.add (user.createPrekeyList w').2.1 library.users,
        some (w.random 0 32)⟩
      match created.exportIf createBackup (user.createPrekeyList w').2.2 with
      | (.error failure, w'') => (.error failure, created, w'')
      | (.ok backup, w'') => (.ok (.createdUser user.publicSigningKey
          (user.createPrekeyList w').1 (w.random 0 32) backup), created, w'') := by
  have hfind : UserStore.find user.publicSigningKey (UserStore.add user library.users) =
      some user := Keyed.find_add user library.users
  have hmodify : UserStore.modify user.publicSigningKey (fun _ => (user.createPrekeyList w').2.1)
      (UserStore.add user library.users) =
        UserStore.add (user.createPrekeyList w').2.1 library.users := by
    refine Keyed.modify_add ?_ library.users
    rw [User.createPrekeyList_eq]
  have hlist : createPrekeyList ⟨UserStore.add user library.users, some (w.random 0 32)⟩
      user.publicSigningKey w' = (.ok (user.createPrekeyList w').1,
        ⟨UserStore.add (user.createPrekeyList w').2.1 library.users, some (w.random 0 32)⟩,
        (user.createPrekeyList w').2.2) := by
    rw [createPrekeyList, hfind, ← hmodify]
  rw [createUser]
  simp only [updateBackupKey, hcreate]
  rewrite [show (w.randombytesBuf 32).1 = w.random 0 32 from rfl, hlist]
  rfl

omit [Platform] in
theorem startSendConversation_of_create {senderId receiverId : PublicSigningKey B} {user : User B}
    {identity : PublicKey B} {prekeyList message packet : List B} {conversation : Conversation B}
    {w w' w'' : World B} (hlong : ¬ prekeyList.length < 32 + 64 + 8)
    (hfound : UserStore.find senderId library.users = some user)
    (hverify : verifyPrekeyList prekeyList receiverId w = (.ok identity, w'))
    (hcreate : Conversation.createSendConversation message user.masterKeys.publicIdentityKey
      user.masterKeys.privateIdentityKey identity (signedPrekeys prekeyList) w' =
        (.ok (packet, conversation), w'')) :
    library.startSendConversation senderId receiverId prekeyList message false w =
      (.ok (.startedSendConversation conversation.id packet none),
        { library with
          users := UserStore.modify senderId (fun user => { user with
            conversations := ConversationStore.add conversation user.conversations })
              library.users }, w'') := by
  rw [startSendConversation, if_neg hlong, hfound]
  simp only [hverify, hcreate]
  rfl

theorem sound_createUser (h : Sound times library.users) (createBackup : Bool)
    (randomSpice : Option (List B)) {w : World B} (hw : w.Shows times) :
    Sound times (library.createUser createBackup randomSpice w).2.1.users := by
  have hlater : (w.randombytesBuf 32).2.Shows times := hw.after (w.after_randombytesBuf 32)
  have hafter := User.after_create randomSpice (w.randombytesBuf 32).2
  rw [createUser]
  simp only [updateBackupKey]
  split
  · exact h
  · rename_i user w' hcreate
    rw [hcreate] at hafter
    have huser : user.Reachable times := .create hlater (congrArg Prod.fst hcreate)
    have hadded : Sound times (UserStore.add user library.users) := h.add huser
    have hlist := sound_createPrekeyList
      ⟨UserStore.add user library.users, some (w.randombytesBuf 32).1⟩ hadded
      user.publicSigningKey (hlater.after hafter)
    split
    · rename_i heq
      rw [heq] at hlist
      exact hlist
    · rename_i heq
      rw [heq] at hlist
      split
      · exact hlist
      · exact hlist

theorem sound_startSendConversation (h : Sound times library.users)
    (senderId receiverId : PublicSigningKey B) (prekeyList message : List B)
    (createBackup : Bool) {w : World B} (hw : w.Shows times) :
    Sound times (library.startSendConversation senderId receiverId prekeyList message
      createBackup w).2.1.users := by
  have hverify := after_verifyPrekeyList prekeyList receiverId w
  rw [startSendConversation]
  split
  · exact h
  · split
    · exact h
    · split
      · exact h
      · rename_i user hfound _ identity w' heq
        rw [heq] at hverify
        split
        · exact h
        · rename_i packet conversation w'' hcreate
          have hconversation := Conversation.reachable_createSendConversation
            (hw.after hverify) hcreate
          refine Keyed.All.modify h fun other hother => ?_
          have huser := h.all other (Keyed.mem_of_find hother)
          have hkey : other.publicSigningKey = senderId := Keyed.key_of_find hother
          exact ⟨huser.addConversation hconversation, hkey⟩

theorem sound_startReceiveConversation (h : Sound times library.users)
    (receiverId : PublicSigningKey B) (packet : List B) (createBackup : Bool) {w : World B}
    (hw : w.Shows times) :
    Sound times (library.startReceiveConversation receiverId packet createBackup w).2.1.users := by
  rw [startReceiveConversation]
  split
  · exact h
  · rename_i user hfound
    have huser := h.all user (Keyed.mem_of_find hfound)
    have hafter := Conversation.after_createReceiveConversation packet
      user.masterKeys.publicIdentityKey user.masterKeys.privateIdentityKey user.prekeys w
    have hprekeys : Sound times (UserStore.modify receiverId (fun user' => { user' with
        prekeys := (Conversation.createReceiveConversation packet
          user.masterKeys.publicIdentityKey user.masterKeys.privateIdentityKey user.prekeys
            w).2.1 }) library.users) := by
      refine Keyed.All.modify h fun other hother => ?_
      cases hfound.symm.trans hother
      have hkey : user.publicSigningKey = receiverId := Keyed.key_of_find hfound
      exact ⟨huser.createReceiveConversation packet hw, hkey⟩
    simp only
    split
    · exact hprekeys
    · rename_i message conversation heq
      have hconversation := Conversation.reachable_createReceiveConversation
        huser.genuine.prekeys hw (Prod.ext heq rfl)
      have hlist := sound_createPrekeyList ⟨_, library.globalBackupKey⟩ hprekeys receiverId
        (hw.after hafter)
      split
      · rename_i heq'
        exact (congrArg (fun result => Sound times result.2.1.users) heq').mp hlist
      · rename_i heq'
        have hrotated := (congrArg (fun result => Sound times result.2.1.users) heq').mp hlist
        refine Keyed.All.modify hrotated fun other hother => ?_
        have hreachable := hrotated.all other (Keyed.mem_of_find hother)
        have hkey : other.publicSigningKey = receiverId := Keyed.key_of_find hother
        exact ⟨hreachable.addConversation hconversation, hkey⟩

theorem sound_writeConversation (h : Sound times library.users) {user : User B}
    {old conversation : Conversation B}
    (hfound : UserStore.findConversation conversation.id library.users = some (user, old))
    (hconversation : conversation.Reachable (World.Shows times)) :
    Sound times (library.writeConversation conversation).users := by
  refine Sound.modifyContaining h fun user' old' hfound' => ?_
  cases hfound.symm.trans hfound'
  exact ⟨(h.findConversation hfound).1.addConversation hconversation, rfl⟩

theorem sound_encryptMessage (h : Sound times library.users) (id : ConversationId B)
    (message : List B) (createBackup : Bool) {w : World B} (hw : w.Shows times) :
    Sound times (library.encryptMessage id message createBackup w).2.1.users := by
  rw [encryptMessage]
  split
  · exact h
  · rename_i user conversation hfound
    obtain ⟨-, hconversation, rfl⟩ := h.findConversation hfound
    have hsent := hconversation.send message none hw
    have hid := conversation.send_id message none w
    split
    · rename_i heq
      rw [heq] at hsent hid
      exact sound_writeConversation h (hid.symm ▸ hfound) hsent
    · rename_i heq
      rw [heq] at hsent hid
      exact sound_writeConversation h (hid.symm ▸ hfound) hsent

theorem sound_decryptMessage (h : Sound times library.users) (id : ConversationId B)
    (packet : List B) (createBackup : Bool) {w : World B} (hw : w.Shows times) :
    Sound times (library.decryptMessage id packet createBackup w).2.1.users := by
  rw [decryptMessage]
  split
  · exact h
  · rename_i user conversation hfound
    obtain ⟨-, hconversation, rfl⟩ := h.findConversation hfound
    have hreceived := hconversation.receive packet hw
    have hid := conversation.receive_id packet w
    split
    · rename_i heq
      rw [heq] at hreceived hid
      exact sound_writeConversation h (hid.symm ▸ hfound) hreceived
    · rename_i heq
      rw [heq] at hreceived hid
      exact sound_writeConversation h (hid.symm ▸ hfound) hreceived

theorem sound_endConversation (h : Sound times library.users) (id : ConversationId B)
    (createBackup : Bool) (w : World B) :
    Sound times (library.endConversation id createBackup w).2.1.users := by
  rw [endConversation]
  split
  · exact h
  · refine Sound.modifyContaining h fun user conversation hfound => ?_
    exact ⟨(h.findConversation hfound).1.removeConversation id, rfl⟩

end Calls

section Backups

variable {backupKey key : BackupKey B} {backupType type : UInt32} {content opened : List B}
  {wrongType missingState : String} {w : World B}

/-- Unpacking inverts the packing of the backups that satisfy `Fits` and of what is encrypted in
them. -/
structure ReadsBackups (B : Type) [Sodium B] [ProtobufC B] (Fits : List B → Prop) : Prop where
  encryptedBackup : ∀ s : ProtobufCEncryptedBackup B, Fits (ProtobufC.encryptedBackupPack s) →
    ProtobufC.encryptedBackupUnpack (ProtobufC.encryptedBackupPack s) = some s
  backup : ∀ s : ProtobufCBackup B, Fits (ProtobufC.backupPack s) →
    ProtobufC.backupUnpack (ProtobufC.backupPack s) = some s
  conversation : ∀ s : ProtobufCConversation B, Fits (ProtobufC.conversationPack s) →
    ProtobufC.conversationUnpack (ProtobufC.conversationPack s) = some s
  content : ∀ (backupKey : BackupKey B) (backupType : UInt32) (content : List B) (w : World B),
    Fits (encryptBackup backupKey backupType content w).1 → Fits content

variable {Fits : List B → Prop}

omit [Byte B] [Platform] in
theorem readsBackups_of_roundTrip (hproto : ProtobufRoundTrip B) :
    ReadsBackups B fun _ => True where
  encryptedBackup s _ := hproto.encryptedBackup s
  backup s _ := hproto.backup s
  conversation s _ := hproto.conversation s
  content _ _ _ _ _ := trivial

omit [Byte B] [Platform] in
theorem openBackup_encryptBackup (hreads : ReadsBackups B Fits)
    (hfits : Fits (encryptBackup backupKey backupType content w).1) :
    openBackup type wrongType missingState (encryptBackup backupKey backupType content w).1 key =
      if backupType ≠ type then .error ⟨.incorrectData, wrongType⟩
      else
        match Sodium.cryptoSecretboxOpenEasy
            (Sodium.cryptoSecretboxEasy content (w.random 0 24) backupKey) (w.random 0 24) key with
        | some message => .ok message
        | none => .error ⟨.genericError, "Failed to decrypt message."⟩ := by
  have hlength := Sodium.length_cryptoSecretboxEasy content (w.random 0 24) backupKey
  have hnonce := (w.random 0 24).length_bytes
  have heta (h : (w.random 0 24).bytes.length = 24) :
      (⟨(w.random 0 24).bytes, h⟩ : Key B 24) = w.random 0 24 := rfl
  have hunpack := hreads.encryptedBackup ⟨0, some backupType, some (w.random 0 24).bytes,
    some (Sodium.cryptoSecretboxEasy content (w.random 0 24) backupKey)⟩ hfits
  simp only [openBackup, encryptBackup, World.randombytesBuf, hunpack, cryptoSecretboxOpen,
    hlength, hnonce]
  cases hopen : Sodium.cryptoSecretboxOpenEasy
      (Sodium.cryptoSecretboxEasy content (w.random 0 24) backupKey) (w.random 0 24) key with
  | none => simp [heta, hopen]
  | some message => simp [heta, hopen]

omit [Byte B] [Platform] in
theorem openBackup_of_fits (hreads : ReadsBackups B Fits) (hbox : SecretboxRoundTrip B)
    (hfits : Fits (encryptBackup backupKey backupType content w).1) :
    openBackup backupType wrongType missingState (encryptBackup backupKey backupType content w).1
      backupKey = .ok content := by
  rw [openBackup_encryptBackup hreads hfits, if_neg (not_not.mpr rfl), hbox]

omit [Byte B] [Platform] in
theorem openBackup_own (hproto : ProtobufRoundTrip B) (hbox : SecretboxRoundTrip B) :
    openBackup backupType wrongType missingState (encryptBackup backupKey backupType content w).1
      backupKey = .ok content :=
  openBackup_of_fits (readsBackups_of_roundTrip hproto) hbox trivial

omit [Byte B] [Platform] in
/-- A backup that the library has made opens with no other key and to nothing else. -/
theorem eq_of_openBackup (hreads : ReadsBackups B Fits) (hbox : SecretboxRoundTrip B)
    (hbound : SecretboxKeyBound B)
    (hfits : Fits (encryptBackup backupKey backupType content w).1)
    (h : openBackup type wrongType missingState (encryptBackup backupKey backupType content w).1
      key = .ok opened) : backupType = type ∧ key = backupKey ∧ opened = content := by
  rw [openBackup_encryptBackup hreads hfits] at h
  split at h
  · cases h
  · rename_i htype
    split at h
    · rename_i message hopen
      cases h
      have hkey := hbound _ _ _ _ _ hopen
      rw [hkey, hbox] at hopen
      exact ⟨not_not.mp htype, hkey, (Option.some.inj hopen).symm⟩
    · cases h

omit [Byte B] [Platform] in
theorem exists_of_exportAll {backup : List B} (h : (library.exportAll w).1 = .ok backup) :
    ∃ backupKey users, library.globalBackupKey = some backupKey ∧
      UserStore.exportProtobuf library.users = .ok users ∧
      backup = (encryptBackup backupKey backupTypeFullBackup (ProtobufC.backupPack ⟨users⟩)
        w).1 := by
  rw [exportAll] at h
  split at h
  · cases h
  · rename_i backupKey hkey
    split at h
    · cases h
    · rename_i users husers
      cases h
      exact ⟨backupKey, users, hkey, husers, rfl⟩

omit [Platform] in
theorem exists_of_exportConversation {backup : List B} {id : ConversationId B}
    (h : (library.exportConversation id w).1 = .ok backup) :
    ∃ backupKey user conversation exported, library.globalBackupKey = some backupKey ∧
      UserStore.findConversation id library.users = some (user, conversation) ∧
      conversation.exportProtobuf = .ok exported ∧
      backup = (encryptBackup backupKey backupTypeConversationBackup
        (ProtobufC.conversationPack exported) w).1 := by
  rw [exportConversation] at h
  split at h
  · cases h
  · rename_i backupKey hkey
    split at h
    · cases h
    · rename_i user conversation hfound
      split at h
      · cases h
      · rename_i exported hexported
        cases h
        exact ⟨backupKey, user, conversation, exported, hkey, hfound, hexported, rfl⟩

/-- The backup is one that the library can make in this state. -/
def Exports (library : Library B) (backup : List B) : Prop :=
  ∃ w, (library.exportAll w).1 = .ok backup ∨
    ∃ id, (library.exportConversation id w).1 = .ok backup

theorem sound_readUsers (hreads : ReadsBackups B Fits) (hbox : SecretboxRoundTrip B)
    (hbound : SecretboxKeyBound B) {exporter : Library B} (h : Sound times exporter.users)
    {backup : List B} (hexports : exporter.Exports backup) (hfits : Fits backup)
    {users : List (User B)} (hread : readUsers backup key = .ok users) : Sound times users := by
  obtain ⟨content, hopen, hread⟩ := Result.bind_eq_ok.mp hread
  obtain ⟨w, hexport | ⟨id, hexport⟩⟩ := hexports
  · obtain ⟨backupKey, exported, -, hexported, rfl⟩ := exists_of_exportAll hexport
    obtain ⟨-, rfl, rfl⟩ := eq_of_openBackup hreads hbox hbound hfits hopen
    rw [hreads.backup _ (hreads.content _ _ _ _ hfits)] at hread
    obtain ⟨imported, himported, hpure⟩ := Result.bind_eq_ok.mp hread
    cases hpure
    refine Keyed.All.foldl_add .nil fun user' huser' => ?_
    obtain ⟨exportedUser, hmem, himport⟩ := Result.mem_of_mapM_eq_ok himported huser'
    obtain ⟨user, huser, hexportUser⟩ := Result.mem_of_mapM_eq_ok hexported hmem
    exact (h.all user huser).restore hexportUser himport
  · obtain ⟨_, _, _, _, -, -, -, rfl⟩ := exists_of_exportConversation hexport
    obtain ⟨htype, -⟩ := eq_of_openBackup hreads hbox hbound hfits hopen
    exact absurd htype (by decide)

theorem sound_importConversation (hreads : ReadsBackups B Fits) (hbox : SecretboxRoundTrip B)
    (hbound : SecretboxKeyBound B) {exporter : Library B} (h : Sound times library.users)
    (hexporter : Sound times exporter.users) {backup : List B}
    (hexports : exporter.Exports backup) (hfits : Fits backup) (key : BackupKey B)
    (w : World B) :
    Sound times (library.importConversation backup key w).2.1.users := by
  rw [importConversation]
  split
  · exact h
  · rename_i conversation hread
    obtain ⟨content, exported, user, old, hopen, hunpack, himport, hfound⟩ :=
      readConversation_eq_ok hread
    refine sound_writeConversation h hfound ?_
    obtain ⟨w, hexport | ⟨id, hexport⟩⟩ := hexports
    · obtain ⟨_, _, -, -, rfl⟩ := exists_of_exportAll hexport
      obtain ⟨htype, -⟩ := eq_of_openBackup hreads hbox hbound hfits hopen
      exact absurd htype (by decide)
    · obtain ⟨_, _, original, exported', -, hfound', hexported, rfl⟩ :=
        exists_of_exportConversation hexport
      obtain ⟨-, rfl, rfl⟩ := eq_of_openBackup hreads hbox hbound hfits hopen
      rw [hreads.conversation _ (hreads.content _ _ _ _ hfits)] at hunpack
      cases hunpack
      exact (hexporter.findConversation hfound').2.1.restore hexported himport

end Backups

def Call.imported : Call B → Option (List B)
  | .importConversation backup _ => some backup
  | .importAll backup _ => some backup
  | _ => none

/-- The states that calls of the interface lead to, in this process or, through a backup, in
another one. Every backup that is imported was exported in such a state. -/
inductive Reachable (times : ℤ → Prop) : Library B → Prop
  | loaded : Reachable times Library.loaded
  | call {library exporter : Library B} (h : Reachable times library)
      (hexporter : Reachable times exporter) {w : World B} (hw : w.Shows times) (c : Call B)
      (hc : ∀ backup, c.imported = some backup → exporter.Exports backup) :
      Reachable times (Library.call (library, w) c).2.1

/-- The same where only backups that satisfy `Fits` are imported. -/
inductive ReachableWith (Fits : List B → Prop) (times : ℤ → Prop) : Library B → Prop
  | loaded : ReachableWith Fits times Library.loaded
  | call {library exporter : Library B} (h : ReachableWith Fits times library)
      (hexporter : ReachableWith Fits times exporter) {w : World B} (hw : w.Shows times)
      (c : Call B)
      (hc : ∀ backup, c.imported = some backup → exporter.Exports backup ∧ Fits backup) :
      ReachableWith Fits times (Library.call (library, w) c).2.1

theorem Reachable.reachableWith (h : library.Reachable times) :
    library.ReachableWith (fun _ => True) times := by
  induction h with
  | loaded => exact .loaded
  | call h hexporter hw c hc ih ihexporter =>
      exact .call ih ihexporter hw c fun backup hbackup => ⟨hc backup hbackup, trivial⟩

theorem ReachableWith.reachable {Fits : List B → Prop} (h : library.ReachableWith Fits times) :
    library.Reachable times := by
  induction h with
  | loaded => exact .loaded
  | call h hexporter hw c hc ih ihexporter =>
      exact .call ih ihexporter hw c fun backup hbackup => (hc backup hbackup).1

theorem ReachableWith.sound {Fits : List B → Prop} (hreads : ReadsBackups B Fits)
    (hbox : SecretboxRoundTrip B) (hbound : SecretboxKeyBound B)
    (h : library.ReachableWith Fits times) : Sound times library.users := by
  induction h with
  | loaded => exact .nil
  | call h hexporter hw c hc ih ihexporter =>
      cases c with
      | createUser createBackup randomSpice => exact sound_createUser ih _ _ hw
      | destroyUser userId createBackup => exact ih.remove userId
      | userCount => exact ih
      | destroyAllUsers => exact .nil
      | listUsers => exact ih
      | getMessageType packet => exact ih
      | startSendConversation senderId receiverId prekeyList message createBackup =>
          exact sound_startSendConversation ih _ _ _ _ _ hw
      | startReceiveConversation receiverId senderId packet createBackup =>
          exact sound_startReceiveConversation ih _ _ _ hw
      | encryptMessage id message createBackup => exact sound_encryptMessage ih _ _ _ hw
      | decryptMessage id packet createBackup => exact sound_decryptMessage ih _ _ _ hw
      | endConversation id createBackup => exact sound_endConversation ih _ _ _
      | listConversations userId => exact ih
      | exportConversation id => exact ih
      | importConversation backup backupKey =>
          obtain ⟨hexports, hfits⟩ := hc backup rfl
          exact sound_importConversation hreads hbox hbound ih ihexporter hexports hfits _ _
      | exportAll => exact ih
      | importAll backup backupKey =>
          rw [Library.call, importAll]
          split
          · exact ih
          · rename_i hread
            obtain ⟨hexports, hfits⟩ := hc backup rfl
            exact sound_readUsers hreads hbox hbound ihexporter hexports hfits hread
      | getPrekeyList userId =>
          have hlist := sound_createPrekeyList _ ih userId hw
          rw [Library.call]
          split
          · rename_i heq
            rw [heq] at hlist
            exact hlist
          · rename_i heq
            rw [heq] at hlist
            exact hlist
      | updateBackupKey => exact ih

theorem Reachable.sound (hproto : ProtobufRoundTrip B) (hbox : SecretboxRoundTrip B)
    (hbound : SecretboxKeyBound B) (h : library.Reachable times) : Sound times library.users :=
  h.reachableWith.sound (readsBackups_of_roundTrip hproto) hbox hbound

end Library

end Molch
