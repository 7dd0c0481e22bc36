import Molch.FullBackup
import Molch.PrekeyRotation
import Molch.ProtobufWire

namespace Molch

open Wire

section Sizes

variable {B : Type} [Byte B]

theorem packedSize_key {n : ℕ} (key : Key B n) (hn : n < 126) :
    keyDescriptor.message.packedSize key.bytes = n + 3 := by
  have hone : ∀ length < 128, uint32Size (UInt32.ofNat length) = 1 := by
    intro length hlength
    rw [uint32Size, if_pos]
    rw [UInt32.toNat_ofNat_of_lt' (hlength.trans (by decide))]
    exact hlength
  have hkey : keyDescriptor.packedSize key.bytes = n + 2 := by
    have htag : tagSize 1 = 1 := rfl
    simp only [keyDescriptor, Descriptor.packedSize, List.map_cons, List.map_nil, List.sum_cons,
      List.sum_nil, Field.packedSize, FieldType.packedSize_bytes, id_eq, key.length_bytes,
      hone n (by omega), htag]
    omega
  change uint32Size (UInt32.ofNat (keyDescriptor.packedSize key.bytes)) +
    keyDescriptor.packedSize key.bytes = n + 3
  rw [hkey, hone _ (by omega)]
  omega

theorem packedSize_keyBundle {key : HeaderAndMessageKey B} {bundle : ProtobufCKeyBundle B}
    (hexported : key.exportProtobuf = .ok bundle) :
    keyBundleDescriptor.message.packedSize bundle ≤ 116 := by
  obtain ⟨time, -, hbundle⟩ := Result.bind_eq_ok.mp hexported
  cases hbundle
  refine (Descriptor.packedSize_message_le _).trans
    (Nat.add_le_add_right (Descriptor.length_pack_le 35 ?_ ?_) 5)
  · simp [keyBundleDescriptor, Field.id]
  · have htime : uint64Size time ≤ 35 := (uint64Size_le time).trans (by decide)
    simpa [keyBundleDescriptor, Field.Small, packedSize_key, Scalar.uint64] using htime

variable {conversation : Conversation B}

theorem length_conversationPack_le {exported : ProtobufCConversation B}
    (hexported : conversation.exportProtobuf = .ok exported) :
    (conversationDescriptor.pack exported).length ≤
      (27 + conversation.ratchet.skippedHeaderAndMessageKeys.keys.length +
        conversation.ratchet.stagedHeaderAndMessageKeys.keys.length) * 118 := by
  obtain ⟨ratchet, hratchet, hid⟩ := Result.bind_eq_ok.mp hexported
  cases hid
  simp only [Ratchet.exportProtobuf, Result.bind_eq_ok, require_eq_ok] at hratchet
  obtain ⟨-, -, -, -, -, -, -, -, -, -, -, -, -, -, skipped, hskipped, staged, hstaged, hratchet⟩ :=
    hratchet
  cases hratchet
  have hkey : uint32Size 32 ≤ 84 := by decide
  have hnumber : ∀ v, uint32Size v ≤ 116 := fun v => (uint32Size_le v).trans (by decide)
  have henum : ∀ v, int32Size v ≤ 116 := fun v => (int32Size_le v).trans (by decide)
  have hbundle : ∀ {store : HeaderAndMessageKeyStore B} {bundles : List (ProtobufCKeyBundle B)},
      store.exportProtobuf = .ok bundles → bundles.length = store.keys.length ∧
        ∀ bundle ∈ bundles, keyBundleDescriptor.message.packedSize bundle ≤ 116 := by
    intro store bundles h
    refine ⟨(Result.mapM_eq_ok_iff.mp h).length_eq.symm, fun bundle hmem => ?_⟩
    obtain ⟨key, -, hexport⟩ := Result.mem_of_mapM_eq_ok h hmem
    exact packedSize_keyBundle hexport
  obtain ⟨hskippedLength, hskippedSmall⟩ := hbundle hskipped
  obtain ⟨hstagedLength, hstagedSmall⟩ := hbundle hstaged
  refine (Descriptor.length_pack_le 116 ?_ ?_).trans (Nat.mul_le_mul_right _ ?_)
  · simp [conversationDescriptor, Field.id]
  · simp [conversationDescriptor, Field.Small, Ratchet.exported, EmptyableKey.exportOptional,
      Key.length_bytes, hkey, Scalar.uint32, hnumber, Scalar.enum, henum, Scalar.bool]
    exact ⟨hskippedSmall, hstagedSmall⟩
  · have hone : ∀ {γ : Type} (field : Option γ) (id : ℕ),
        (field.elim [] fun _ => [id]).length ≤ 1 := by
      intro γ field id
      cases field <;> simp
    have hroot := hone conversation.ratchet.purportedRootKey.exportOptional 3
    have hsend := hone (conversation.ratchet.sendHeaderKey.map (·.key.bytes)) 4
    have hheader := hone conversation.ratchet.purportedReceiveHeaderKey.exportOptional 8
    have hnext := hone conversation.ratchet.purportedNextReceiveHeaderKey.exportOptional 9
    have hchain := hone conversation.ratchet.purportedReceiveChainKey.exportOptional 12
    have hephemeral := hone (conversation.ratchet.theirPurportedPublicEphemeral.map (·.bytes)) 18
    simp [-Option.elim_map, conversationDescriptor, Field.tags, Ratchet.exported]
    omega

end Sizes

section Stores

variable {B : Type} [Byte B] [Sodium B] [ProtobufC B] [Platform] {readings : World B → Prop}
  {conversation : Conversation B}

omit [Byte B] [Sodium B] [ProtobufC B] [Platform] in
theorem length_committedKeys_le (skipped staged : HeaderAndMessageKeyStore B) (w : World B) :
    (committedKeys skipped staged w).keys.length ≤ maximumKeys := by
  simp only [committedKeys, HeaderAndMessageKeyStore.removeOutdatedAndTrimSize,
    HeaderAndMessageKeyStore.trim]
  split
  · rw [List.length_drop]
    omega
  · omega

theorem length_skipped_received {packet : List B} {w : World B}
    {result : Except Error (ReceivedMessage B)} {conversation' : Conversation B}
    (h : conversation.ratchet.skippedHeaderAndMessageKeys.keys.length ≤ maximumKeys)
    (hreceived : Conversation.Received conversation packet w result conversation') :
    conversation'.ratchet.skippedHeaderAndMessageKeys.keys.length ≤ maximumKeys := by
  have hremove : ∀ index,
      (conversation.ratchet.skippedHeaderAndMessageKeys.remove index).keys.length ≤
        maximumKeys := fun index => ((List.eraseIdx_sublist _ index).length_le).trans h
  cases hreceived with
  | skipped => exact hremove _
  | rejected hleft =>
      cases hleft with
      | all => exact h
      | removed => exact hremove _
  | currentChain => exact length_committedKeys_le _ _ _
  | nextChain => exact length_committedKeys_le _ _ _

theorem Conversation.Reachable.length_skipped_le (hkdf : KdfNonzero B)
    (hpoint : ScalarmultFailsByPoint B) (h : conversation.Reachable readings) :
    conversation.ratchet.skippedHeaderAndMessageKeys.keys.length ≤ maximumKeys := by
  induction h with
  | create hpair hcreate =>
      obtain ⟨role, masterKey, -, -, hratchet⟩ :=
        Ratchet.exists_of_create (ratchet_of_create hcreate)
      rw [hratchet]
      exact Nat.zero_le _
  | send h message prekeyMetadata hw ih =>
      rw [send_skipped hkdf (h.wellFormed hkdf hpoint)]
      exact ih
  | receive h packet hw ih =>
      exact length_skipped_received ih
        (WellFormed.receive_cases hkdf (h.wellFormed hkdf hpoint) packet _)
  | restore h hexport himport ih =>
      rw [import_exportProtobuf hexport (h.wellFormed hkdf hpoint).purported_canonical] at himport
      cases himport
      exact (List.length_map _).le.trans ih

/-- Whatever has happened to a conversation, its export takes less than 2^18 bytes. -/
theorem Conversation.Reachable.length_pack_lt (hkdf : KdfNonzero B)
    (hpoint : ScalarmultFailsByPoint B) (h : conversation.Reachable readings)
    {exported : ProtobufCConversation B} (hexported : conversation.exportProtobuf = .ok exported) :
    (conversationDescriptor.pack exported).length < 2 ^ 18 := by
  have hlength := length_conversationPack_le hexported
  have hskipped := h.length_skipped_le hkdf hpoint
  have hstaged : conversation.ratchet.stagedHeaderAndMessageKeys.keys.length = 0 := by
    rw [(h.wellFormed hkdf hpoint).staged]
    rfl
  rw [maximumKeys] at hskipped
  omega

/-- The bytes that a user can take at most: 276 for the keys, 118 for each prekey and less than
2^18 for each conversation. -/
def User.backupBound (user : User B) : ℕ :=
  276 + 118 * (prekeyAmount + user.prekeys.deprecatedPrekeys.length) +
    (2 ^ 18 + 7) * user.conversations.length

omit [Sodium B] [ProtobufC B] [Platform] in
theorem packedSize_prekey {prekey : Prekey B} {exported : ProtobufCPrekey B}
    (hexported : prekey.exportProtobuf = .ok exported) :
    prekeyDescriptor.message.packedSize exported ≤ 116 := by
  obtain ⟨time, -, hpure⟩ := Result.bind_eq_ok.mp hexported
  cases hpure
  refine (Descriptor.packedSize_message_le _).trans
    (Nat.add_le_add_right (Descriptor.length_pack_le 35 ?_ ?_) 5)
  · simp [prekeyDescriptor, Field.id]
  · have htime : uint64Size time ≤ 35 := (uint64Size_le time).trans (by decide)
    simpa [prekeyDescriptor, Field.Small, packedSize_key, Scalar.uint64] using htime

theorem User.Reachable.length_pack_le {times : ℤ → Prop} (hkdf : KdfNonzero B)
    (hpoint : ScalarmultFailsByPoint B) {user : User B} (h : user.Reachable times)
    {exported : ProtobufCUser B} (hexported : user.exportProtobuf = .ok exported) :
    (userDescriptor.pack exported).length ≤ user.backupBound := by
  obtain ⟨conversations, hconversations, hrest⟩ := Result.bind_eq_ok.mp hexported
  obtain ⟨⟨prekeys, deprecatedPrekeys⟩, hprekeys, hpure⟩ := Result.bind_eq_ok.mp hrest
  cases hpure
  obtain ⟨keypairs, hkeypairs, hrest⟩ := Result.bind_eq_ok.mp hprekeys
  obtain ⟨deprecatedKeypairs, hdeprecated, hpair⟩ := Result.bind_eq_ok.mp hrest
  cases hpair
  have hprekey : ∀ {prekeys : List (Prekey B)} {exported : List (ProtobufCPrekey B)} (id : ℕ),
      id < 2 ^ 11 → prekeys.mapM Prekey.exportProtobuf = .ok exported →
        (exported.flatMap (prekeyDescriptor.message.packTagged id)).length ≤
          prekeys.length * 118 := by
    intro prekeys exported id hid hexport
    rw [(Result.mapM_eq_ok_iff.mp hexport).length_eq]
    refine length_flatMap_packTagged_le hid fun v hv => ?_
    obtain ⟨prekey, -, hprekey⟩ := Result.mem_of_mapM_eq_ok hexport hv
    exact packedSize_prekey hprekey
  have hconversation :
      (conversations.flatMap (conversationDescriptor.message.packTagged 5)).length ≤
        user.conversations.length * (2 ^ 18 + 7) := by
    rw [(Result.mapM_eq_ok_iff.mp hconversations).length_eq]
    refine length_flatMap_packTagged_le (by decide) fun v hv => ?_
    obtain ⟨conversation, hmem, hconversation⟩ := Result.mem_of_mapM_eq_ok hconversations hv
    have hlength := (h.conversations conversation hmem).length_pack_lt hkdf hpoint hconversation
    have hmessage := conversationDescriptor.packedSize_message_le v
    omega
  have hkey : ∀ {n : ℕ} (key : Key B n) (id : ℕ), n ≤ 64 → id < 2 ^ 11 →
      (keyDescriptor.message.packTagged id key.bytes).length ≤ 69 := by
    intro n key id hn hid
    refine length_packTagged_le hid ?_
    rw [packedSize_key key (by omega)]
    omega
  have hprivateSigning := hkey user.masterKeys.privateSigningKey 1 le_rfl (by decide)
  have hpublicSigning := hkey user.masterKeys.publicSigningKey 2 (by decide) (by decide)
  have hprivateIdentity := hkey user.masterKeys.privateIdentityKey 3 (by decide) (by decide)
  have hpublicIdentity := hkey user.masterKeys.publicIdentityKey 4 (by decide) (by decide)
  have hactive := hprekey 6 (by decide) hkeypairs
  have hold := hprekey 7 (by decide) hdeprecated
  rw [PrekeyStore.active, List.length_ofFn] at hactive
  simp only [userDescriptor, Descriptor.pack, Field.pack, List.flatMap_cons, List.flatMap_nil,
    List.length_append, List.length_nil, Option.elim_some]
  rw [User.backupBound]
  omega

end Stores

namespace Library

variable {B : Type} [Byte B] [Sodium B]

/-- The bytes that a backup of the whole library can take at most. -/
def backupBound (library : Library B) : ℕ :=
  (library.users.map fun user => user.backupBound + 7).sum + 61

theorem length_backupPack_le [ProtobufC B] [Platform] {times : ℤ → Prop} (hkdf : KdfNonzero B)
    (hpoint : ScalarmultFailsByPoint B) {users : List (User B)}
    (h : ∀ user ∈ users, user.Reachable times) {exported : List (ProtobufCUser B)}
    (hexported : UserStore.exportProtobuf users = .ok exported) :
    (backupDescriptor.pack ⟨exported⟩).length ≤
      (users.map fun user => user.backupBound + 7).sum := by
  have hforall := Result.mapM_eq_ok_iff.mp hexported
  change ((exported.flatMap (userDescriptor.message.packTagged 1)) ++ []).length ≤ _
  rw [List.append_nil]
  clear hexported
  induction hforall with
  | nil => exact Nat.zero_le _
  | cons hexport _ ih =>
      obtain ⟨huser, hrest⟩ := List.forall_mem_cons.mp h
      have hpack := huser.length_pack_le hkdf hpoint hexport
      have hfirst := length_packTagged_le (by decide : 1 < 2 ^ 11)
        ((userDescriptor.packedSize_message_le _).trans (Nat.add_le_add_right hpack 5))
      have hlength := ih hrest
      rw [List.flatMap_cons, List.length_append, List.map_cons, List.sum_cons]
      omega

section Backups

variable (backupKey : BackupKey B) (backupType : UInt32) (content : List B) (w : World B)

theorem length_encryptBackup :
    letI := ProtobufC.wire B
    content.length ≤ (encryptBackup backupKey backupType content w).1.length ∧
      (encryptBackup backupKey backupType content w).1.length ≤ content.length + 61 := by
  let _ := ProtobufC.wire B
  have hlength : (encryptBackup backupKey backupType content w).1.length =
      encryptedBackupDescriptor.packedSize ⟨0, some backupType, some (w.random 0 24).bytes,
        some (Sodium.cryptoSecretboxEasy content (w.random 0 24) backupKey)⟩ :=
    Descriptor.length_pack _
  have hciphertext := Sodium.length_cryptoSecretboxEasy content (w.random 0 24) backupKey
  have htype := int32Size_le backupType
  have hprefix := uint32Size_le (UInt32.ofNat (content.length + 16))
  have hsizes : tagSize 1 = 1 ∧ tagSize 2 = 1 ∧ tagSize 3 = 1 ∧ tagSize 4 = 1 ∧
      uint32Size 0 = 1 ∧ uint32Size (UInt32.ofNat 24) = 1 := by decide
  obtain ⟨hone, htwo, hthree, hfour, hzero, hnonce⟩ := hsizes
  rw [hlength]
  simp only [encryptedBackupDescriptor, Descriptor.packedSize, Field.packedSize, List.map_cons,
    List.map_nil, List.sum_cons, List.sum_nil, Option.elim_some, Scalar.packedSize_type,
    FieldType.packedSize_bytes, Scalar.uint32, Scalar.enum, hciphertext, Key.length_bytes, hone,
    htwo, hthree, hfour, hzero, hnonce]
  omega

theorem readsBackups_wire :
    @ReadsBackups B _ (ProtobufC.wire B) fun backup => backup.length ≤ protobufLimit := by
  let _ := ProtobufC.wire B
  exact
    { encryptedBackup := toOption_unpack_pack encryptedBackupDescriptor
      backup := toOption_unpack_pack backupDescriptor
      conversation := toOption_unpack_pack conversationDescriptor
      content := fun backupKey backupType content w hlength =>
        (length_encryptBackup backupKey backupType content w).1.trans hlength }

end Backups

section RoundTrips

variable [Platform]

/-- In every state with a backup key the whole library can be exported, and as long as the
backup is within the limit of the format, importing its bytes brings the users back, who are
exported as the same struct again. -/
theorem full_backup_round_trip_on_wire (hkdf : KdfNonzero B) (hpoint : ScalarmultFailsByPoint B)
    (hbox : SecretboxRoundTrip B) (hbound : SecretboxKeyBound B) :
    letI := ProtobufC.wire B
    ∀ {library : Library B},
      library.ReachableWith (fun backup => backup.length ≤ protobufLimit) SaneTime →
      ∀ {backupKey : BackupKey B}, library.globalBackupKey = some backupKey → ∀ w : World B,
        ∃ exported backup w', UserStore.exportProtobuf library.users = .ok exported ∧
          library.exportAll w = (.ok backup, w') ∧
          backup.length ≤ library.backupBound ∧
          (backup.length ≤ protobufLimit → ∀ (importer : Library B) (v : World B),
            ∃ newBackupKey library' v',
              importer.importAll backup backupKey v =
                (.ok (.imported newBackupKey), library', v') ∧
              List.Forall₂ User.Restores library.users library'.users ∧
              UserStore.exportProtobuf library'.users = .ok exported) := by
  let _ := ProtobufC.wire B
  intro library h backupKey hkey w
  have hsound := h.sound readsBackups_wire hbox hbound
  obtain ⟨exported, hexported, himported, hagain⟩ := sound_exportProtobuf hkdf hpoint hsound
  obtain ⟨hshort, hlength⟩ := length_encryptBackup backupKey backupTypeFullBackup
    (backupDescriptor.pack ⟨exported⟩) w
  have hpack := length_backupPack_le hkdf hpoint hsound.all hexported
  refine ⟨exported, (encryptBackup backupKey backupTypeFullBackup
    (ProtobufC.backupPack ⟨exported⟩) w).1, (encryptBackup backupKey backupTypeFullBackup
    (ProtobufC.backupPack ⟨exported⟩) w).2, hexported, ?_,
    hlength.trans (Nat.add_le_add_right hpack 61), ?_⟩
  · rw [exportAll, hkey, hexported]
  · intro hlimit importer v
    have hread : readUsers (encryptBackup backupKey backupTypeFullBackup
        (ProtobufC.backupPack ⟨exported⟩) w).1 backupKey =
          .ok (library.users.map User.backedUp) := by
      rw [readUsers, openFullBackup, openBackup_of_fits readsBackups_wire hbox hlimit,
        Result.ok_bind, readsBackups_wire.backup _ (hshort.trans hlimit)]
      exact himported
    refine ⟨v.random 0 32, ⟨library.users.map User.backedUp, some (v.random 0 32)⟩,
      (v.randombytesBuf 32).2, ?_, ?_, hagain⟩
    · rw [importAll, hread]
      rfl
    · rw [List.forall₂_map_right_iff, List.forall₂_same]
      exact fun user huser => (hsound.all user huser).restores hkdf hpoint

/-- In every state with a backup key every conversation can be exported. The backup is never too
long to be read: a library that has a conversation with this id replaces it by the restored one,
and any other library refuses the backup. -/
theorem conversation_backup_round_trip_on_wire (hkdf : KdfNonzero B)
    (hpoint : ScalarmultFailsByPoint B) (hbox : SecretboxRoundTrip B)
    (hbound : SecretboxKeyBound B) :
    letI := ProtobufC.wire B
    ∀ {library : Library B},
      library.ReachableWith (fun backup => backup.length ≤ protobufLimit) SaneTime →
      ∀ {backupKey : BackupKey B}, library.globalBackupKey = some backupKey →
      ∀ {id : ConversationId B} {user : User B} {conversation : Conversation B},
        UserStore.findConversation id library.users = some (user, conversation) → ∀ w : World B,
        ∃ backup w', library.exportConversation id w = (.ok backup, w') ∧
          backup.length < 2 ^ 18 + 61 ∧
          ∀ (importer : Library B) (v : World B),
            (UserStore.findConversation id importer.users = none →
              importer.importConversation backup backupKey v =
                (.error (.error ⟨.notFound, "Containing store not found."⟩), importer, v)) ∧
            ((UserStore.findConversation id importer.users).isSome →
              ∃ newBackupKey library' v',
                importer.importConversation backup backupKey v =
                  (.ok (.importedConversation newBackupKey), library', v') ∧
                Replaces importer conversation.restored library') := by
  let _ := ProtobufC.wire B
  intro library h backupKey hkey id user conversation hfound w
  have hsound := h.sound readsBackups_wire hbox hbound
  obtain ⟨-, hreachable, hid⟩ := hsound.findConversation hfound
  obtain ⟨exported, hexported, himported, -⟩ :=
    Conversation.Reachable.exportProtobuf hkdf hpoint hreachable
  have hpack := hreachable.length_pack_lt hkdf hpoint hexported
  obtain ⟨hshort, hlength⟩ := length_encryptBackup backupKey backupTypeConversationBackup
    (conversationDescriptor.pack exported) w
  have hlimit : (encryptBackup backupKey backupTypeConversationBackup
      (ProtobufC.conversationPack exported) w).1.length ≤ protobufLimit :=
    hlength.trans (by rw [protobufLimit]; omega)
  have hname : Key.fromSpan exported.id = .ok id := by
    obtain ⟨ratchet, -, hpure⟩ := Result.bind_eq_ok.mp hexported
    cases hpure
    rw [← hid]
    exact Key.fromSpan_bytes _
  refine ⟨(encryptBackup backupKey backupTypeConversationBackup
    (ProtobufC.conversationPack exported) w).1, (encryptBackup backupKey
    backupTypeConversationBackup (ProtobufC.conversationPack exported) w).2, ?_,
    lt_of_le_of_lt hlength (by omega), ?_⟩
  · simp only [exportConversation, hkey, hfound, hexported]
  · intro importer v
    have hopened : openConversationBackup (encryptBackup backupKey backupTypeConversationBackup
        (ProtobufC.conversationPack exported) w).1 backupKey =
          .ok (ProtobufC.conversationPack exported) := by
      rw [openConversationBackup, openBackup_of_fits readsBackups_wire hbox hlimit]
    constructor
    · intro hnone
      rw [importConversation, readConversation, hopened, Result.ok_bind,
        readsBackups_wire.conversation _ (hshort.trans hlimit)]
      simp only [hname, Result.ok_bind, hnone]
    · intro hsome
      obtain ⟨⟨user', old⟩, hold⟩ := Option.isSome_iff_exists.mp hsome
      have hplace : UserStore.findConversation conversation.restored.id importer.users =
          some (user', old) := by
        rw [← hold, ← hid]
        rfl
      refine ⟨v.random 0 32, ⟨(importer.writeConversation conversation.restored).users,
        some (v.random 0 32)⟩, (v.randombytesBuf 32).2, ?_, replaces_writeConversation hplace⟩
      rw [importConversation, readConversation, hopened, Result.ok_bind,
        readsBackups_wire.conversation _ (hshort.trans hlimit)]
      simp only [hname, Result.ok_bind, hold, himported]
      rfl

end RoundTrips

end Library

namespace Symbolic

open Library Sodium

theorem backupBound_le_of_started {library : Library ℕ} {user : User ℕ}
    {conversation : Conversation ℕ} (husers : library.users = [user])
    (hconversations : user.conversations = [conversation])
    (hdeprecated : user.prekeys.deprecatedPrekeys.length ≤ prekeyAmount) :
    library.backupBound ≤ protobufLimit := by
  simp only [backupBound, User.backupBound, husers, hconversations, List.map_cons, List.map_nil,
    List.sum_cons, List.sum_nil, List.length_cons, List.length_nil, protobufLimit,
    prekeyAmount] at hdeprecated ⊢
  omega

/-- A user who has started a conversation is exported and comes back in a library as it is
loaded. -/
theorem full_backup_round_trip_on_wire_started :
    letI := ProtobufC.wire ℕ
    ∃ (library library' : Library ℕ) (backupKey newBackupKey : BackupKey ℕ) (backup : List ℕ)
        (w' v' : World ℕ),
      library.users ≠ [] ∧ library.exportAll calmWorld = (.ok backup, w') ∧
      loaded.importAll backup backupKey calmWorld =
        (.ok (.imported newBackupKey), library', v') ∧
      List.Forall₂ User.Restores library.users library'.users := by
  let _ := ProtobufC.wire ℕ
  obtain ⟨library, backupKey, user, conversation, hreachable, hkey, husers, hconversations,
    hdeprecated, -⟩ := exists_started_library fun backup => backup.length ≤ protobufLimit
  have hbound := backupBound_le_of_started husers hconversations hdeprecated
  obtain ⟨exported, backup, w', -, hexport, hlength, himport⟩ := full_backup_round_trip_on_wire
    kdfNonzero scalarmultFailsByPoint secretboxRoundTrip secretboxKeyBound hreachable hkey calmWorld
  obtain ⟨newBackupKey, library', v', himported, hrestores, -⟩ :=
    himport (hlength.trans hbound) loaded calmWorld
  refine ⟨library, library', backupKey, newBackupKey, backup, w', v', ?_, hexport, himported,
    hrestores⟩
  rw [husers]
  exact List.cons_ne_nil _ _

/-- A user who has started a conversation exports it and takes it back. -/
theorem conversation_backup_round_trip_on_wire_started :
    letI := ProtobufC.wire ℕ
    ∃ (library library' : Library ℕ) (conversation : Conversation ℕ) (backupKey newBackupKey :
        BackupKey ℕ) (backup : List ℕ) (w' v' : World ℕ),
      library.exportConversation conversation.id calmWorld = (.ok backup, w') ∧
      library.importConversation backup backupKey calmWorld =
        (.ok (.importedConversation newBackupKey), library', v') ∧
      Replaces library conversation.restored library' := by
  let _ := ProtobufC.wire ℕ
  obtain ⟨library, backupKey, user, conversation, hreachable, hkey, husers, hconversations, -⟩ :=
    exists_started_library fun backup => backup.length ≤ protobufLimit
  have hfound := UserStore.findConversation_single husers hconversations
  obtain ⟨backup, w', hexport, -, himport⟩ := conversation_backup_round_trip_on_wire kdfNonzero
    scalarmultFailsByPoint secretboxRoundTrip secretboxKeyBound hreachable hkey hfound calmWorld
  have hsome : (UserStore.findConversation conversation.id library.users).isSome := by
    rw [hfound]
    rfl
  obtain ⟨newBackupKey, library', v', himported, hreplaces⟩ :=
    (himport library calmWorld).2 hsome
  exact ⟨library, library', conversation, backupKey, newBackupKey, backup, w', v', hexport,
    himported, hreplaces⟩

end Symbolic

end Molch
