import Molch.LibraryLife
import Molch.PrekeyRotation
import Molch.SkippedConsumption

namespace Molch

section Backups

variable {B : Type} [Byte B] [Sodium B] [ProtobufC B] [Platform]

namespace User

def backedUp (user : User B) : User B :=
  user.restored (user.conversations.map Conversation.restored)

/-- What a restored user has in common with the original. The conversations come back one by
one, with all of their ratchets that is exported. -/
structure Restores (user restored : User B) : Prop where
  publicSigningKey : restored.publicSigningKey = user.publicSigningKey
  masterKeys : restored.masterKeys = user.masterKeys
  prekeys : restored.prekeys.prekeys = user.prekeys.prekeys
  deprecatedPrekeys : restored.prekeys.deprecatedPrekeys = user.prekeys.deprecatedPrekeys
  conversations : List.Forall₂ (fun conversation restored =>
    restored.id = conversation.id ∧ restored.ratchet = conversation.ratchet.restored ∧
      restored.exportProtobuf = conversation.exportProtobuf)
    user.conversations restored.conversations

variable {user : User B}

theorem Reachable.restores (hkdf : KdfNonzero B) (hpoint : ScalarmultFailsByPoint B)
    (h : user.Reachable SaneTime) : user.Restores user.backedUp where
  publicSigningKey := h.genuine.id.symm
  masterKeys := rfl
  prekeys := (h.datesSane fun _ htime => htime).prekeys_restored
  deprecatedPrekeys := (h.datesSane fun _ htime => htime).deprecatedPrekeys_restored
  conversations := by
    change List.Forall₂ _ user.conversations (user.conversations.map Conversation.restored)
    rw [List.forall₂_map_right_iff, List.forall₂_same]
    intro conversation hconversation
    obtain ⟨exported, hexported, -, hagain⟩ :=
      Conversation.Reachable.exportProtobuf hkdf hpoint (h.conversations _ hconversation)
    exact ⟨rfl, rfl, hagain.trans hexported.symm⟩

theorem Reachable.exportProtobuf (hkdf : KdfNonzero B) (hpoint : ScalarmultFailsByPoint B)
    (h : user.Reachable SaneTime) :
    ∃ exported, user.exportProtobuf = .ok exported ∧ import_ exported = .ok user.backedUp ∧
      user.backedUp.exportProtobuf = .ok exported := by
  have hrestored : ∀ conversation ∈ user.conversations, ∃ exported,
      conversation.exportProtobuf = .ok exported ∧
        Conversation.import_ exported = .ok conversation.restored ∧
          conversation.restored.exportProtobuf = .ok exported :=
    fun conversation hconversation =>
      Conversation.Reachable.exportProtobuf hkdf hpoint (h.conversations _ hconversation)
  have hdates := h.datesSane fun _ htime => htime
  obtain ⟨conversations, hconversations⟩ : ∃ conversations,
      ConversationStore.exportProtobuf user.conversations = .ok conversations :=
    Result.exists_mapM_eq_ok fun conversation hconversation => by
      obtain ⟨exported, hexported, -⟩ := hrestored conversation hconversation
      exact ⟨exported, hexported⟩
  obtain ⟨⟨keypairs, deprecatedKeypairs⟩, hprekeys⟩ := hdates.exportProtobuf
  have hexported : ∃ exported, user.exportProtobuf = .ok exported := by
    rw [User.exportProtobuf, hconversations, Result.ok_bind, hprekeys]
    exact ⟨_, rfl⟩
  obtain ⟨exported, hexported⟩ := hexported
  have hagain : user.backedUp.exportProtobuf = user.exportProtobuf := by
    have hsame : ConversationStore.exportProtobuf
        (user.conversations.map Conversation.restored) =
          ConversationStore.exportProtobuf user.conversations :=
      Result.mapM_congr fun conversation hconversation => by
        obtain ⟨exported, hexported, -, hagain⟩ := hrestored conversation hconversation
        exact hagain.trans hexported.symm
    have hprekeysSame : user.prekeys.restored.exportProtobuf = user.prekeys.exportProtobuf :=
      PrekeyStore.exportProtobuf_congr hdates.prekeys_restored hdates.deprecatedPrekeys_restored
    rw [User.exportProtobuf, User.exportProtobuf, backedUp, User.restored, hsame, hprekeysSame]
  refine ⟨exported, hexported, ?_, hagain.trans hexported⟩
  obtain ⟨hexport, himport⟩ := import_exportProtobuf hexported
  have hundo : ConversationStore.import_ exported.conversations =
      .ok (user.conversations.map Conversation.restored) := by
    refine Result.mapM_of_mapM ?_ hexport
    intro conversation hconversation bundle hbundle
    obtain ⟨exported, hexported, himported, -⟩ := hrestored conversation hconversation
    cases hexported.symm.trans hbundle
    exact himported
  rw [himport, hundo]
  rfl

end User

namespace Library

open UserStore

theorem sound_exportProtobuf (hkdf : KdfNonzero B) (hpoint : ScalarmultFailsByPoint B)
    {users : List (User B)} (h : Sound SaneTime users) :
    ∃ exported, UserStore.exportProtobuf users = .ok exported ∧
      UserStore.import_ exported = .ok (users.map User.backedUp) ∧
      UserStore.exportProtobuf (users.map User.backedUp) = .ok exported := by
  obtain ⟨exported, hexported⟩ : ∃ exported, UserStore.exportProtobuf users = .ok exported :=
    Result.exists_mapM_eq_ok fun user huser => by
      obtain ⟨exported, hexported, -⟩ := (h.all user huser).exportProtobuf hkdf hpoint
      exact ⟨exported, hexported⟩
  have himported : exported.mapM User.import_ = .ok (users.map User.backedUp) := by
    refine Result.mapM_of_mapM ?_ hexported
    intro user huser bundle hbundle
    obtain ⟨exported, hexported, himported, -⟩ := (h.all user huser).exportProtobuf hkdf hpoint
    cases hexported.symm.trans hbundle
    exact himported
  have hkeys : (users.map User.backedUp).map User.publicSigningKey =
      users.map User.publicSigningKey := by
    rw [List.map_map]
    exact List.map_congr_left fun user huser => (h.all user huser).genuine.id.symm
  have hadd : (users.map User.backedUp).foldl (fun users user => UserStore.add user users) [] =
      users.map User.backedUp := by
    have hnodup : (([] ++ users.map User.backedUp).map User.publicSigningKey).Nodup := by
      rw [List.nil_append, hkeys]
      exact h.nodup
    exact Keyed.foldl_add hnodup
  refine ⟨exported, hexported, ?_, ?_⟩
  · rw [UserStore.import_, himported, Result.ok_bind, hadd]
    rfl
  · rw [← hexported]
    refine Result.mapM_congr fun user huser => ?_
    obtain ⟨exported, hexported, -, hagain⟩ := (h.all user huser).exportProtobuf hkdf hpoint
    exact hagain.trans hexported.symm

/-- In every state with a backup key the whole library can be exported, and importing the
backup with that key brings the users back, who are exported as the same struct again. -/
theorem full_backup_round_trip (hkdf : KdfNonzero B) (hpoint : ScalarmultFailsByPoint B)
    (hproto : ProtobufRoundTrip B) (hbox : SecretboxRoundTrip B) (hbound : SecretboxKeyBound B)
    {library : Library B} (h : library.Reachable SaneTime) {backupKey : BackupKey B}
    (hkey : library.globalBackupKey = some backupKey) (w : World B) :
    ∃ exported backup w', UserStore.exportProtobuf library.users = .ok exported ∧
      library.exportAll w = (.ok backup, w') ∧
      openFullBackup backup backupKey = .ok (ProtobufC.backupPack ⟨exported⟩) ∧
      ∀ (importer : Library B) (v : World B), ∃ newBackupKey library' v',
        importer.importAll backup backupKey v =
          (.ok (.imported newBackupKey), library', v') ∧
        List.Forall₂ User.Restores library.users library'.users ∧
        UserStore.exportProtobuf library'.users = .ok exported := by
  have hsound := h.sound hproto hbox hbound
  obtain ⟨exported, hexported, himported, hagain⟩ := sound_exportProtobuf hkdf hpoint hsound
  have hopen : openFullBackup (encryptBackup backupKey backupTypeFullBackup
      (ProtobufC.backupPack ⟨exported⟩) w).1 backupKey = .ok (ProtobufC.backupPack ⟨exported⟩) :=
    openBackup_own hproto hbox
  have hread : readUsers (encryptBackup backupKey backupTypeFullBackup
      (ProtobufC.backupPack ⟨exported⟩) w).1 backupKey =
        .ok (library.users.map User.backedUp) := by
    rw [readUsers, hopen, Result.ok_bind, hproto.backup]
    exact himported
  refine ⟨exported, _, (encryptBackup backupKey backupTypeFullBackup
    (ProtobufC.backupPack ⟨exported⟩) w).2, hexported, ?_, hopen, ?_⟩
  · rw [exportAll, hkey, hexported]
  · intro importer v
    refine ⟨v.random 0 32, ⟨library.users.map User.backedUp, some (v.random 0 32)⟩,
      (v.randombytesBuf 32).2, ?_, ?_, hagain⟩
    · rw [importAll, hread]
      rfl
    · rw [List.forall₂_map_right_iff, List.forall₂_same]
      exact fun user huser => (hsound.all user huser).restores hkdf hpoint

end Library

end Backups

namespace Symbolic

open Library Sodium

theorem exists_receiver_calm :
    ∃ receiver : User ℕ,
      receiver.masterKeys.publicIdentityKey = cryptoScalarmultBase (calmWorld.random 1 32) ∧
      (receiver.prekeys.rotate calmWorld).1.All Prekey.IsPair ∧
      verifyPrekeyList (receiver.createPrekeyList calmWorld).1 receiver.publicSigningKey
        calmWorld = (.ok receiver.masterKeys.publicIdentityKey, calmWorld.now.2) := by
  obtain ⟨receiver, hreceiver, htheirs⟩ := exists_user shows_calmWorld
  have hshows : calmWorld.Shows fun _ => True := fun _ => trivial
  exact ⟨receiver, htheirs,
    hreceiver.genuine.prekeys.rotate (Prekey.lasting_isPair _) hshows,
    verifyPrekeyList_calm hreceiver (.refl calmWorld)⟩

section Started

variable [ProtobufC ℕ]

theorem exists_started_by_alice {sender : User ℕ}
    (hours : sender.masterKeys.publicIdentityKey = cryptoScalarmultBase (calmWorld.random 2 32)) :
    ∃ (receiver : User ℕ) (packet : List ℕ) (conversation : Conversation ℕ) (w : World ℕ),
      ¬ (receiver.createPrekeyList calmWorld).1.length < 32 + 64 + 8 ∧
      verifyPrekeyList (receiver.createPrekeyList calmWorld).1 receiver.publicSigningKey
        calmWorld = (.ok receiver.masterKeys.publicIdentityKey, calmWorld.now.2) ∧
      Conversation.createSendConversation [1, 2, 3] sender.masterKeys.publicIdentityKey
        sender.masterKeys.privateIdentityKey receiver.masterKeys.publicIdentityKey
        (signedPrekeys (receiver.createPrekeyList calmWorld).1) calmWorld.now.2 =
          (.ok (packet, conversation), w) ∧
      conversation.ratchet.receiveHeaderKey.isNone = false ∧
      conversation.ratchet.skippedHeaderAndMessageKeys = .clear ∧
      conversation.ratchet.receiveMessageNumber = 0 := by
  obtain ⟨receiver, htheirs, hpairs, hverify⟩ := exists_receiver_calm
  have hrole : Ratchet.chooseRole sender.masterKeys.publicIdentityKey
      receiver.masterKeys.publicIdentityKey = .ok .alice := by
    rw [hours, htheirs]
    exact chooseRole_calm Nat.one_lt_two
  have husable : ∀ key : PrivateKey ℕ, Usable (cryptoScalarmultBase key) :=
    fun key privateKey => scalarmultTotal privateKey key
  have hidentity : Usable receiver.masterKeys.publicIdentityKey := by
    rw [htheirs]
    exact husable _
  have hprekey : Usable ((receiver.prekeys.rotate calmWorld).1.prekeys
      calmWorld.now.2.drawnPlace).publicKey := by
    rw [← hpairs.active calmWorld.now.2.drawnPlace]
    exact husable _
  obtain ⟨ratchet, hratchet⟩ := Ratchet.exists_create hrole hidentity hprekey
    sender.masterKeys.privateIdentityKey (calmWorld.now.2.random 0 32)
    (cryptoScalarmultBase (calmWorld.now.2.random 0 32))
  let created : Conversation ℕ := ⟨calmWorld.now.2.random 1 32, ratchet⟩
  have hcreated : created.ratchet.WellFormed :=
    .create kdfNonzero scalarmultFailsByPoint rfl hratchet
  obtain ⟨packet, conversation, w, hsend, -⟩ :=
    Conversation.wellFormed_send kdfNonzero hcreated [1, 2, 3] _ _
  obtain ⟨hheader, hskipped, hnumber⟩ := Conversation.receiving_of_send hsend
  have hsent := Conversation.createSendConversation_of_send hratchet hsend
  rw [← signedPrekeys_createPrekeyList] at hsent
  obtain ⟨role, masterKey, hrole', -, rfl⟩ := Ratchet.exists_of_create hratchet
  cases hrole.symm.trans hrole'
  refine ⟨receiver, packet, conversation, w, receiver.length_createPrekeyList calmWorld, hverify,
    hsent, ?_, hskipped, hnumber⟩
  rw [hheader]
  exact Key.isZero_deriveSubkeyWithIndex kdfNonzero masterKey.key 1

theorem exists_started_library (Fits : List ℕ → Prop) :
    ∃ (library : Library ℕ) (backupKey : BackupKey ℕ) (user : User ℕ)
      (conversation : Conversation ℕ), library.ReachableWith Fits SaneTime ∧
        library.globalBackupKey = some backupKey ∧ library.users = [user] ∧
        user.conversations = [conversation] ∧
        user.prekeys.deprecatedPrekeys.length ≤ prekeyAmount ∧
        conversation.ratchet.receiveHeaderKey.isNone = false ∧
        conversation.ratchet.skippedHeaderAndMessageKeys = .clear ∧
        conversation.ratchet.receiveMessageNumber = 0 := by
  obtain ⟨sender, w, hcreate, hours⟩ := exists_created_user (calmWorld.randombytesBuf 32).2
  obtain ⟨receiver, packet, conversation, w', hlong, hverify, hsent, hreceiving⟩ :=
    exists_started_by_alice hours
  let listed : User ℕ := { sender with prekeys := (sender.prekeys.rotate w).1 }
  let created : Library ℕ := ⟨[listed], some (calmWorld.random 0 32)⟩
  have hcall : (call (loaded, calmWorld) (.createUser false none)).2.1 = created := by
    rw [call, createUser_eq _ _ hcreate]
    rfl
  have hstarted : created.ReachableWith Fits SaneTime := by
    rw [← hcall]
    refine .call .loaded .loaded shows_calmWorld _ ?_
    intro backup hbackup
    cases hbackup
  have hnext := hstarted.call .loaded shows_calmWorld (.startSendConversation
    sender.publicSigningKey receiver.publicSigningKey (receiver.createPrekeyList calmWorld).1
      [1, 2, 3] false) (by intro backup hbackup; cases hbackup)
  have hfind : UserStore.find sender.publicSigningKey created.users = some listed := by
    simp [UserStore.find, Keyed.find, created, listed]
  rw [call, startSendConversation_of_create hlong hfind hverify hsent] at hnext
  simp only [UserStore.modify, Keyed.modify, created, listed, if_true] at hnext
  obtain ⟨masterKeys, v, -, -, hsender⟩ := User.exists_of_create (congrArg Prod.fst hcreate)
  have hnone : sender.prekeys.deprecatedPrekeys = [] ∧ sender.conversations = [] := by
    rw [hsender, PrekeyStore.create_eq]
    exact ⟨rfl, rfl⟩
  have hlength := sender.prekeys.length_deprecatedPrekeys_rotate_le w
  rw [hnone.1, List.length_nil, Nat.zero_add] at hlength
  refine ⟨_, calmWorld.random 0 32, _, conversation, hnext, rfl, rfl, ?_, hlength, hreceiving⟩
  simp only [hnone.2]
  rfl

end Started

theorem exists_library_with_skipped_key :
    ∃ (library : Library ℕ) (backupKey : BackupKey ℕ) (user : User ℕ)
      (conversation : Conversation ℕ), library.Reachable SaneTime ∧
        library.globalBackupKey = some backupKey ∧ library.users = [user] ∧
        user.conversations = [conversation] ∧
        conversation.ratchet.skippedHeaderAndMessageKeys.keys.length = 1 := by
  obtain ⟨library, backupKey, user, conversation, hstarted, hkey, husers, hconversations, -,
    hheader, hskipped, hnumber⟩ := exists_started_library fun _ => True
  have hreachable := hstarted.reachable
  have hsound := hreachable.sound protobufRoundTrip secretboxRoundTrip secretboxKeyBound
  have huser : user.Reachable SaneTime := hsound.all user (by rw [husers]; exact List.mem_cons_self)
  have hconversation := huser.conversations conversation (by
    rw [hconversations]
    exact List.mem_cons_self)
  obtain ⟨packet, message, next, w, hreceive, hid, -, -, hkept⟩ :=
    exists_skipping_packet hconversation hheader hskipped hnumber
  have hfound := UserStore.findConversation_single husers hconversations
  have hcalled : (call (library, calmWorld) (.decryptMessage conversation.id packet false)).2.1 =
      library.writeConversation next := by
    rw [call, decryptMessage, hfound]
    simp only [hreceive]
  have hnext := hreachable.call .loaded shows_calmWorld (.decryptMessage conversation.id packet
    false) (by intro backup hbackup; cases hbackup)
  rw [hcalled] at hnext
  refine ⟨_, backupKey, { user with conversations := [next] }, next, hnext, hkey, ?_, rfl, ?_⟩
  · simp [writeConversation, husers, UserStore.modifyContaining, ConversationStore.find,
      ConversationStore.add, Keyed.find, Keyed.add, hconversations, hid]
  · rw [hkept]
    rfl

/-- The library is exported and imported into one that has just been loaded. -/
theorem full_backup_round_trip_skipped_key :
    ∃ (library : Library ℕ) (user : User ℕ) (conversation : Conversation ℕ)
      (exported : List (ProtobufCUser ℕ)) (backup : List ℕ) (backupKey newBackupKey : BackupKey ℕ)
      (library' : Library ℕ) (v : World ℕ),
      library.users = [user] ∧ user.conversations = [conversation] ∧
      conversation.ratchet.skippedHeaderAndMessageKeys.keys.length = 1 ∧
      Library.loaded.importAll backup backupKey calmWorld =
        (.ok (.imported newBackupKey), library', v) ∧
      List.Forall₂ User.Restores library.users library'.users ∧
      UserStore.exportProtobuf library'.users = .ok exported := by
  obtain ⟨library, backupKey, user, conversation, hreachable, hkey, husers, hconversations,
    hskipped⟩ := exists_library_with_skipped_key
  obtain ⟨exported, backup, -, -, -, -, himport⟩ := full_backup_round_trip kdfNonzero
    scalarmultFailsByPoint protobufRoundTrip secretboxRoundTrip secretboxKeyBound hreachable hkey
    calmWorld
  obtain ⟨newBackupKey, library', v, hcalled, hrestores, hagain⟩ := himport loaded calmWorld
  exact ⟨library, user, conversation, exported, backup, backupKey, newBackupKey, library', v,
    husers, hconversations, hskipped, hcalled, hrestores, hagain⟩

end Symbolic

end Molch
