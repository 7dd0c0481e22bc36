import Molch.Foundation.Guarded
import Molch.Library
import Molch.Symbolic

/-!
When the private master keys are accessed. They are kept in a storage of their own for each
user, which can be read or written only between the constructor and the destructor of an
unlocker. For every function that accesses them this module lists the accesses, in the order
and on the paths of the function. A call may also be left early anywhere, by an error or an
exception.

Storages are numbered: those of the library's users come first, in the order of the users,
then those that a call allocates.
-/

namespace Molch

open Guarded

/-- `PrivateMasterKeyStorage`. -/
inductive PrivateMasterKey where
  | signingKey
  | identityKey
  deriving DecidableEq, Repr

abbrev KeyAccesses := Block ℕ PrivateMasterKey

variable {B : Type}

namespace MasterKeys

/-- The keys are generated, from whichever seed. -/
def writeAccesses (storage : ℕ) : KeyAccesses :=
  .write storage .signingKey (.write storage .identityKey .done)

/-- `sign`. -/
def signAccesses (storage : ℕ) : KeyAccesses :=
  .unlocker false storage (.read storage .signingKey .done) .done

/-- `exportProtobuf`. -/
def exportProtobufAccesses (storage : ℕ) : KeyAccesses :=
  .unlocker false storage (.read storage .signingKey (.read storage .identityKey .done)) .done

/-- `generate()`. -/
def generateAccesses (storage : ℕ) : KeyAccesses :=
  .unlocker true storage (writeAccesses storage) .done

/-- `generate` with a seed, which is checked before the keys are unlocked. -/
def generateSpicedAccesses [Byte B] [Sodium B] (lowEntropySeed : List B) (storage : ℕ)
    (w : World B) : KeyAccesses :=
  if lowEntropySeed.isEmpty then .done
  else
    .unlocker true storage
      (match (spicedRandom lowEntropySeed 64 w).1 with
      | .error _ => .done
      | .ok _ => writeAccesses storage) .done

/-- `create`, where `init` allocates and locks the storage. -/
def createAccesses [Byte B] [Sodium B] (lowEntropySeed : Option (List B)) (storage : ℕ)
    (w : World B) : KeyAccesses :=
  .allocate storage
    (match lowEntropySeed with
    | some seed => generateSpicedAccesses seed storage w
    | none => generateAccesses storage)

/-- `import`. A private key is written when the keys before it and it have been imported. -/
def importAccesses (publicSigningKey privateSigningKey publicIdentityKey
    privateIdentityKey : List B) (storage : ℕ) : KeyAccesses :=
  .allocate storage (.unlocker true storage
    (match (Key.fromSpan publicSigningKey : Except Error (PublicSigningKey B)),
        (Key.fromSpan privateSigningKey : Except Error (PrivateSigningKey B)) with
    | .ok _, .ok _ =>
        .write storage .signingKey
          (match (Key.fromSpan publicIdentityKey : Except Error (PublicKey B)),
              (Key.fromSpan privateIdentityKey : Except Error (PrivateKey B)) with
          | .ok _, .ok _ => .write storage .identityKey .done
          | _, _ => .done)
    | _, _ => .done) .done)

end MasterKeys

namespace User

variable [Byte B] [Sodium B]

/-- `User::create`. -/
def createAccesses (seed : Option (List B)) (storage : ℕ) (w : World B) : KeyAccesses :=
  MasterKeys.createAccesses seed storage w

/-- `User::import`. -/
def importAccesses (user : ProtobufCUser B) (storage : ℕ) : KeyAccesses :=
  match user.publicSigningKey, user.privateSigningKey, user.publicIdentityKey,
      user.privateIdentityKey with
  | some publicSigningKey, some privateSigningKey, some publicIdentityKey,
      some privateIdentityKey =>
      MasterKeys.importAccesses publicSigningKey privateSigningKey publicIdentityKey
        privateIdentityKey storage
  | _, _, _, _ => .done

end User

namespace UserStore

variable [Byte B]

/-- `UserStore::import`, which stops at the first user that cannot be imported. -/
def importAccesses [Sodium B] : List (ProtobufCUser B) → ℕ → KeyAccesses
  | [], _ => .done
  | user :: users, storage =>
      (User.importAccesses user storage).append
        (match User.import_ user with
        | .error _ => .done
        | .ok _ => importAccesses users (storage + 1))

/-- `UserStore::exportProtobuf`, which stops at the first user that cannot be exported. -/
def exportProtobufAccesses : List (User B × ℕ) → KeyAccesses
  | [] => .done
  | (user, storage) :: users =>
      (MasterKeys.exportProtobufAccesses storage).append
        (match user.exportProtobuf with
        | .error _ => .done
        | .ok _ => exportProtobufAccesses users)

end UserStore

namespace Conversation

variable [Byte B]

/-- `Conversation::create`: the identity goes into the key exchange, unless both parties are
the same. -/
def createAccesses (ourPublicIdentity theirPublicIdentity : PublicKey B) (storage : ℕ) :
    KeyAccesses :=
  match Ratchet.chooseRole ourPublicIdentity theirPublicIdentity with
  | .error _ => .done
  | .ok _ => .read storage .identityKey .done

variable [Sodium B]

/-- `Conversation::createSendConversation`. -/
def createSendConversationAccesses (senderPublicIdentity receiverPublicIdentity : PublicKey B)
    (receiverPrekeyList : List B) (storage : ℕ) (w : World B) : KeyAccesses :=
  if receiverPrekeyList.length ≠ 32 * prekeyAmount then .done
  else
    match cryptoBoxKeypair w with
    | (_, w) =>
        match w.randombytesUniform prekeyAmount with
        | (prekeyNumber, _) =>
            match (Key.fromSpan ((receiverPrekeyList.drop (32 * prekeyNumber)).take 32) :
                Except Error (PublicKey B)) with
            | .error _ => .done
            | .ok _ => createAccesses senderPublicIdentity receiverPublicIdentity storage

/-- `Conversation::createReceiveConversation`. -/
def createReceiveConversationAccesses [ProtobufC B] (packet : List B)
    (receiverPublicIdentity : PublicKey B) (receiverPrekeys : PrekeyStore B) (storage : ℕ)
    (w : World B) : KeyAccesses :=
  match unverifiedPrekeyMetadata packet with
  | .error _ => .done
  | .ok metadata =>
      match receiverPrekeys.getPrekey metadata.prekey w with
      | (.error _, _, _) => .done
      | (.ok _, _, _) => createAccesses receiverPublicIdentity metadata.identity storage

end Conversation

namespace Library

variable [Byte B] [Sodium B] [ProtobufC B]

def storages (library : Library B) : List ℕ :=
  List.range library.users.length

/-- The users, each with the storage of its private keys. -/
def stored (library : Library B) (storages : List ℕ) : List (User B × ℕ) :=
  library.users.zip storages

def createPrekeyListAccesses (library : Library B) (publicSigningKey : PublicSigningKey B)
    (storages : List ℕ) : KeyAccesses :=
  match Keyed.find (User.publicSigningKey ∘ Prod.fst) publicSigningKey
      (library.stored storages) with
  | none => .done
  | some (_, storage) => MasterKeys.signAccesses storage

def exportAllAccesses (library : Library B) (storages : List ℕ) : KeyAccesses :=
  match library.globalBackupKey with
  | none => .done
  | some _ => UserStore.exportProtobufAccesses (library.stored storages)

def exportIfAccesses (library : Library B) (createBackup : Bool) (storages : List ℕ) :
    KeyAccesses :=
  if createBackup then library.exportAllAccesses storages else .done

/-- The new keys get a new storage. A user with the same id gives up its own. -/
def createUserAccesses (library : Library B) (createBackup : Bool)
    (randomSpice : Option (List B)) (storages : List ℕ) (w : World B) : KeyAccesses :=
  match library.updateBackupKey w with
  | (_, library, w) =>
      (User.createAccesses randomSpice library.users.length w).append
        (match User.create randomSpice w with
        | (.error _, _) => .done
        | (.ok user, w) =>
            let users := Keyed.add (User.publicSigningKey ∘ Prod.fst)
              (user, library.users.length) (library.stored storages)
            let storages := users.map Prod.snd
            let library := { library with users := UserStore.add user library.users }
            (library.createPrekeyListAccesses user.publicSigningKey storages).append
              (match library.createPrekeyList user.publicSigningKey w with
              | (.error _, _, _) => .done
              | (.ok _, library, _) => library.exportIfAccesses createBackup storages))

/-- The keys of the user are freed, not accessed. -/
def destroyUserAccesses (library : Library B) (userId : PublicSigningKey B)
    (createBackup : Bool) (storages : List ℕ) : KeyAccesses :=
  let users := Keyed.remove (User.publicSigningKey ∘ Prod.fst) userId
    (library.stored storages)
  let library := { library with users := UserStore.remove userId library.users }
  library.exportIfAccesses createBackup (users.map Prod.snd)

/-- The identity is unlocked until the call returns, so also while all users are exported. -/
def startSendConversationAccesses (library : Library B) (senderId receiverId : PublicSigningKey B)
    (prekeyList message : List B) (createBackup : Bool) (storages : List ℕ) (w : World B) :
    KeyAccesses :=
  if prekeyList.length < 32 + 64 + 8 then .done
  else
    match Keyed.find (User.publicSigningKey ∘ Prod.fst) senderId
        (library.stored storages) with
    | none => .done
    | some (user, storage) =>
        match verifyPrekeyList prekeyList receiverId w with
        | (.error _, _) => .done
        | (.ok receiverPublicIdentity, w) =>
            .unlocker false storage
              ((Conversation.createSendConversationAccesses user.masterKeys.publicIdentityKey
                receiverPublicIdentity (signedPrekeys prekeyList) storage w).append
                (match Conversation.createSendConversation message
                    user.masterKeys.publicIdentityKey user.masterKeys.privateIdentityKey
                    receiverPublicIdentity (signedPrekeys prekeyList) w with
                | (.error _, _) => .done
                | (.ok (_, conversation), _) =>
                    let library := { library with
                      users := UserStore.modify senderId (fun user => { user with
                        conversations := ConversationStore.add conversation user.conversations })
                          library.users }
                    library.exportIfAccesses createBackup storages)) .done

def endConversationAccesses (library : Library B) (id : ConversationId B) (createBackup : Bool)
    (storages : List ℕ) : KeyAccesses :=
  match UserStore.findConversation id library.users with
  | none => .done
  | some _ =>
      let library := { library with
        users := UserStore.modifyContaining id (fun user => { user with
          conversations := ConversationStore.remove id user.conversations }) library.users }
      library.exportIfAccesses createBackup storages

/-- The users of the backup are read before those of the library are replaced. -/
def importAllAccesses (library : Library B) (backup : List B) (backupKey : BackupKey B) :
    KeyAccesses :=
  match openFullBackup backup backupKey with
  | .error _ => .done
  | .ok decrypted =>
      match ProtobufC.backupUnpack decrypted with
      | none => .done
      | some exported => UserStore.importAccesses exported.users library.users.length

variable [Platform]

/-- The identity is unlocked until the call returns, so also while the prekey list is signed
and while all users are exported. -/
def startReceiveConversationAccesses (library : Library B) (receiverId : PublicSigningKey B)
    (packet : List B) (createBackup : Bool) (storages : List ℕ) (w : World B) : KeyAccesses :=
  match Keyed.find (User.publicSigningKey ∘ Prod.fst) receiverId
      (library.stored storages) with
  | none => .done
  | some (user, storage) =>
      .unlocker false storage
        ((Conversation.createReceiveConversationAccesses packet
          user.masterKeys.publicIdentityKey user.prekeys storage w).append
          (match Conversation.createReceiveConversation packet user.masterKeys.publicIdentityKey
              user.masterKeys.privateIdentityKey user.prekeys w with
          | (.error _, _, _) => .done
          | (.ok (_, conversation), prekeys, w) =>
              let library := { library with
                users := UserStore.modify receiverId (fun user => { user with prekeys := prekeys })
                  library.users }
              (library.createPrekeyListAccesses receiverId storages).append
                (match library.createPrekeyList receiverId w with
                | (.error _, _, _) => .done
                | (.ok _, library, _) =>
                    let library := { library with
                      users := UserStore.modify receiverId (fun user => { user with
                        conversations := ConversationStore.add conversation user.conversations })
                          library.users }
                    library.exportIfAccesses createBackup storages))) .done

def callAccesses (state : Library B × World B) : Call B → KeyAccesses
  | .createUser createBackup randomSpice =>
      state.1.createUserAccesses createBackup randomSpice state.1.storages state.2
  | .destroyUser userId createBackup =>
      state.1.destroyUserAccesses userId createBackup state.1.storages
  | .startSendConversation senderId receiverId prekeyList message createBackup =>
      state.1.startSendConversationAccesses senderId receiverId prekeyList message createBackup
        state.1.storages state.2
  | .startReceiveConversation receiverId _ packet createBackup =>
      state.1.startReceiveConversationAccesses receiverId packet createBackup state.1.storages
        state.2
  | .endConversation id createBackup =>
      state.1.endConversationAccesses id createBackup state.1.storages
  | .exportAll => state.1.exportAllAccesses state.1.storages
  | .importAll backup backupKey => state.1.importAllAccesses backup backupKey
  | .getPrekeyList userId => state.1.createPrekeyListAccesses userId state.1.storages
  -- the other functions do not touch the master keys
  | .userCount | .destroyAllUsers | .listUsers | .getMessageType _ | .encryptMessage _ _ _
  | .decryptMessage _ _ _ | .listConversations _ | .exportConversation _
  | .importConversation _ _ | .updateBackupKey => .done

end Library

/-! What successful calls access. -/

namespace MasterKeys

theorem createAccesses_of_ok [Byte B] [Sodium B] {lowEntropySeed : Option (List B)}
    {w : World B} {masterKeys : MasterKeys B} (h : (create lowEntropySeed w).1 = .ok masterKeys)
    (storage : ℕ) :
    createAccesses lowEntropySeed storage w = .allocate storage (generateAccesses storage) := by
  cases lowEntropySeed with
  | none => rfl
  | some seed =>
      simp only [create, generateSpiced] at h
      split at h
      · cases h
      · rename_i hseed
        split at h
        · cases h
        · rename_i hspice
          simp only [createAccesses, generateSpicedAccesses, if_neg hseed, hspice]
          rfl

end MasterKeys

theorem User.createAccesses_of_ok [Byte B] [Sodium B] {seed : Option (List B)} {w : World B}
    {user : User B} (h : (create seed w).1 = .ok user) (storage : ℕ) :
    createAccesses seed storage w =
      .allocate storage (MasterKeys.generateAccesses storage) := by
  rw [create] at h
  split at h
  · cases h
  · rename_i hcreate
    exact MasterKeys.createAccesses_of_ok (congrArg Prod.fst hcreate) storage

theorem UserStore.trace_exportProtobufAccesses {users : List (User B × ℕ)}
    {exported : List (ProtobufCUser B)}
    (h : exportProtobuf (users.map Prod.fst) = .ok exported) :
    (exportProtobufAccesses users).trace =
      users.flatMap fun user => (MasterKeys.exportProtobufAccesses user.2).trace := by
  induction users generalizing exported with
  | nil => rfl
  | cons user users ih =>
      rw [exportProtobuf, List.map_cons, Result.mapM_eq_ok_iff, List.forall₂_cons_left_iff] at h
      obtain ⟨_, _, hfirst, hrest, -⟩ := h
      rw [exportProtobufAccesses, Block.trace_append, hfirst, List.flatMap_cons]
      exact congrArg _ (ih (Result.mapM_eq_ok_iff.mpr hrest))

namespace Conversation

variable [Byte B] [Sodium B] [ProtobufC B] {storage : ℕ} {w : World B}

omit [ProtobufC B] in
theorem createAccesses_of_ok {ourPublicIdentity theirPublicIdentity ourPublicEphemeral
    theirPublicEphemeral : PublicKey B} {ourPrivateIdentity ourPrivateEphemeral : PrivateKey B}
    {conversation : Conversation B}
    (h : (create ourPrivateIdentity ourPublicIdentity theirPublicIdentity ourPrivateEphemeral
      ourPublicEphemeral theirPublicEphemeral w).1 = .ok conversation) (storage : ℕ) :
    createAccesses ourPublicIdentity theirPublicIdentity storage =
      .read storage .identityKey .done := by
  rw [createAccesses]
  split
  · rename_i hrole
    rw [create, Ratchet.create_eq_error hrole] at h
    cases h
  · rfl

theorem createSendConversationAccesses_of_ok {message receiverPrekeyList : List B}
    {senderPublicIdentity receiverPublicIdentity : PublicKey B}
    {senderPrivateIdentity : PrivateKey B} {started : List B × Conversation B}
    (h : (createSendConversation message senderPublicIdentity senderPrivateIdentity
      receiverPublicIdentity receiverPrekeyList w).1 = .ok started) (storage : ℕ) :
    createSendConversationAccesses senderPublicIdentity receiverPublicIdentity
      receiverPrekeyList storage w = .read storage .identityKey .done := by
  rw [createSendConversation] at h
  split at h
  · cases h
  · rename_i hlength
    simp only at h
    split at h
    · cases h
    · rename_i hprekey
      split at h
      · cases h
      · rename_i hcreate
        rw [createSendConversationAccesses, if_neg hlength]
        simp only [hprekey]
        exact createAccesses_of_ok (congrArg Prod.fst hcreate) storage

theorem createReceiveConversationAccesses_of_ok [Platform] {packet : List B}
    {receiverPublicIdentity : PublicKey B} {receiverPrivateIdentity : PrivateKey B}
    {receiverPrekeys : PrekeyStore B} {started : List B × Conversation B}
    (h : (createReceiveConversation packet receiverPublicIdentity receiverPrivateIdentity
      receiverPrekeys w).1 = .ok started) (storage : ℕ) :
    createReceiveConversationAccesses packet receiverPublicIdentity receiverPrekeys storage w =
      .read storage .identityKey .done := by
  rw [createReceiveConversation] at h
  split at h
  · cases h
  · rename_i hmetadata
    split at h
    · cases h
    · rename_i hprekey
      split at h
      · cases h
      · rename_i hcreate
        simp only [createReceiveConversationAccesses, hmetadata, hprekey]
        exact createAccesses_of_ok (congrArg Prod.fst hcreate) storage

end Conversation

namespace Library

variable [Byte B] [Sodium B] [ProtobufC B] {library : Library B} {storages : List ℕ}
  {w : World B}

omit [Byte B] in
theorem trace_exportAllAccesses {backup : List B} (h : (library.exportAll w).1 = .ok backup)
    (hlength : storages.length = library.users.length) :
    (library.exportAllAccesses storages).trace =
      storages.flatMap fun storage => (MasterKeys.exportProtobufAccesses storage).trace := by
  rw [exportAll] at h
  split at h
  · cases h
  · rename_i hkey
    split at h
    · cases h
    · rename_i hexport
      have hfst : (library.stored storages).map Prod.fst = library.users :=
        List.map_fst_zip hlength.ge
      have hsnd : (library.stored storages).map Prod.snd = storages :=
        List.map_snd_zip hlength.le
      rw [← hfst] at hexport
      rw [exportAllAccesses, hkey]
      simp only [UserStore.trace_exportProtobufAccesses hexport]
      conv_rhs => rw [← hsnd, List.flatMap_map]

omit [Sodium B] [ProtobufC B] in
theorem find_stored (hlength : storages.length = library.users.length) {user : User B}
    {publicSigningKey : PublicSigningKey B}
    (h : UserStore.find publicSigningKey library.users = some user) :
    ∃ storage, Keyed.find (User.publicSigningKey ∘ Prod.fst) publicSigningKey
      (library.stored storages) = some (user, storage) := by
  rw [UserStore.find, ← List.map_fst_zip hlength.ge, ← Keyed.find_map,
    Option.map_eq_some_iff] at h
  obtain ⟨⟨user, storage⟩, hfind, rfl⟩ := h
  exact ⟨storage, hfind⟩

omit [Sodium B] [ProtobufC B] in
theorem find_stored_modify (change : User B → User B) {publicSigningKey : PublicSigningKey B}
    {user : User B} {storage : ℕ}
    (h : Keyed.find (User.publicSigningKey ∘ Prod.fst) publicSigningKey
      (library.stored storages) = some (user, storage))
    (hchange : (change user).publicSigningKey = publicSigningKey) :
    Keyed.find (User.publicSigningKey ∘ Prod.fst) publicSigningKey
      (stored { library with
        users := UserStore.modify publicSigningKey change library.users } storages) =
      some (change user, storage) := by
  rw [stored, UserStore.modify, Keyed.modify_zip]
  exact Keyed.find_modify h hchange

omit [Sodium B] [ProtobufC B] in
theorem find_stored_add (library : Library B)
    (hlength : storages.length = library.users.length) (user : User B) (storage : ℕ) :
    Keyed.find (User.publicSigningKey ∘ Prod.fst) user.publicSigningKey
      (stored { library with users := UserStore.add user library.users }
        ((Keyed.add (User.publicSigningKey ∘ Prod.fst) (user, storage)
          (library.stored storages)).map Prod.snd)) = some (user, storage) := by
  have hfst : (Keyed.add (User.publicSigningKey ∘ Prod.fst) (user, storage)
      (library.stored storages)).map Prod.fst = UserStore.add user library.users := by
    rw [Keyed.map_add, stored, List.map_fst_zip hlength.ge]
    rfl
  rw [stored, ← List.zip_of_prod hfst rfl]
  exact Keyed.find_add (user, storage) _

/-- The keys of a user that has been created are written before they sign the prekey list. -/
theorem trace_createUserAccesses {createBackup : Bool} {randomSpice : Option (List B)}
    {reply : Reply B} (h : (library.createUser createBackup randomSpice w).1 = .ok reply)
    (hlength : storages.length = library.users.length) :
    ∃ storage exporting,
      (library.createUserAccesses createBackup randomSpice storages w).trace =
        .allocate storage :: .lock storage :: .unlockReadwrite storage ::
          .write storage .signingKey :: .write storage .identityKey :: .lock storage ::
            .unlock storage :: .read storage .signingKey :: .lock storage :: exporting := by
  simp only [createUser, updateBackupKey] at h
  split at h
  · cases h
  · rename_i user _ hcreate
    have hfound := find_stored_add ⟨library.users, some (w.randombytesBuf 32).1⟩ hlength user
      library.users.length
    split at h
    · cases h
    · rename_i hlist
      simp only [createUserAccesses, updateBackupKey, hcreate,
        User.createAccesses_of_ok (congrArg Prod.fst hcreate), createPrekeyListAccesses, hfound,
        hlist]
      exact ⟨library.users.length, _, rfl⟩

theorem trace_startSendConversationAccesses {senderId receiverId : PublicSigningKey B}
    {prekeyList message : List B} {createBackup : Bool} {reply : Reply B}
    (h : (library.startSendConversation senderId receiverId prekeyList message createBackup
      w).1 = .ok reply) (hlength : storages.length = library.users.length) :
    ∃ storage exporting,
      (library.startSendConversationAccesses senderId receiverId prekeyList message createBackup
        storages w).trace =
        .unlock storage :: .read storage .identityKey :: exporting ++ [.lock storage] := by
  rw [startSendConversation] at h
  split at h
  · cases h
  · rename_i hlong
    split at h
    · cases h
    · rename_i hfound
      obtain ⟨storage, hstored⟩ := find_stored hlength hfound
      split at h
      · cases h
      · rename_i hverify
        split at h
        · cases h
        · rename_i hcreate
          rw [startSendConversationAccesses, if_neg hlong, hstored]
          simp only [hverify, hcreate,
            Conversation.createSendConversationAccesses_of_ok (congrArg Prod.fst hcreate)]
          exact ⟨storage, _, rfl⟩

theorem trace_startReceiveConversationAccesses [Platform] {receiverId : PublicSigningKey B}
    {packet : List B} {createBackup : Bool} {reply : Reply B}
    (h : (library.startReceiveConversation receiverId packet createBackup w).1 = .ok reply)
    (hlength : storages.length = library.users.length) :
    ∃ storage exporting,
      (library.startReceiveConversationAccesses receiverId packet createBackup storages
        w).trace =
        .unlock storage :: .read storage .identityKey ::
          .unlock storage :: .read storage .signingKey :: .lock storage ::
            exporting ++ [.lock storage] := by
  rw [startReceiveConversation] at h
  split at h
  · cases h
  · rename_i user hfound
    obtain ⟨storage, hstored⟩ := find_stored hlength hfound
    rcases hcreate : Conversation.createReceiveConversation packet
      user.masterKeys.publicIdentityKey user.masterKeys.privateIdentityKey user.prekeys w with
      ⟨result, prekeys, w'⟩
    rw [hcreate] at h
    cases result with
    | error e => cases h
    | ok started =>
        have hkey : user.publicSigningKey = receiverId := Keyed.key_of_find hfound
        have hsigner := find_stored_modify (fun user => { user with prekeys := prekeys }) hstored
          hkey
        simp only at h
        split at h
        · cases h
        · rename_i hlist
          rw [startReceiveConversationAccesses, hstored]
          simp only [hcreate, createPrekeyListAccesses, hsigner, hlist,
            Conversation.createReceiveConversationAccesses_of_ok (congrArg Prod.fst hcreate)]
          exact ⟨storage, _, rfl⟩

end Library

namespace MasterKeys

theorem signAccesses_selfContained (storage : ℕ) : (signAccesses storage).SelfContained := by
  refine .unlocker ?_ Block.selfContained_done
  intro memory hopen
  simp [hopen, Block.opened]

theorem exportProtobufAccesses_selfContained (storage : ℕ) :
    (exportProtobufAccesses storage).SelfContained := by
  refine .unlocker ?_ Block.selfContained_done
  intro memory hopen
  simp [hopen, Block.opened]

theorem guards_writeAccesses {storage : ℕ} {memory : ℕ → Access}
    (hopen : memory storage = Block.opened true) : (writeAccesses storage).Guards memory := by
  simp [writeAccesses, hopen, Block.opened]

theorem generateSpicedAccesses_selfContained [Byte B] [Sodium B] (lowEntropySeed : List B)
    (storage : ℕ) (w : World B) :
    (generateSpicedAccesses lowEntropySeed storage w).SelfContained := by
  rw [generateSpicedAccesses]
  split
  · exact Block.selfContained_done
  · refine .unlocker ?_ Block.selfContained_done
    intro memory hopen
    split
    · exact Block.guards_done
    · exact guards_writeAccesses hopen

theorem createAccesses_selfContained [Byte B] [Sodium B] (lowEntropySeed : Option (List B))
    (storage : ℕ) (w : World B) :
    (createAccesses lowEntropySeed storage w).SelfContained := by
  refine .allocate ?_ storage
  split
  · exact generateSpicedAccesses_selfContained _ storage w
  · exact .unlocker (fun _ => guards_writeAccesses) Block.selfContained_done

theorem importAccesses_selfContained (publicSigningKey privateSigningKey publicIdentityKey
    privateIdentityKey : List B) (storage : ℕ) :
    (importAccesses publicSigningKey privateSigningKey publicIdentityKey privateIdentityKey
      storage).SelfContained := by
  refine .allocate (.unlocker ?_ Block.selfContained_done) storage
  intro memory hopen
  split
  · refine Block.guards_write.mpr ⟨hopen, ?_⟩
    split
    · exact Block.guards_write.mpr ⟨hopen, Block.guards_done⟩
    · exact Block.guards_done
  · exact Block.guards_done

end MasterKeys

namespace UserStore

variable [Byte B]

theorem importAccesses_selfContained [Sodium B] (users : List (ProtobufCUser B))
    (storage : ℕ) : (importAccesses users storage).SelfContained := by
  induction users generalizing storage with
  | nil => exact Block.selfContained_done
  | cons user users ih =>
      refine .append ?_ ?_
      · rw [User.importAccesses]
        split
        · exact MasterKeys.importAccesses_selfContained _ _ _ _ storage
        · exact Block.selfContained_done
      · split
        · exact Block.selfContained_done
        · exact ih (storage + 1)

omit [Byte B] in
theorem exportProtobufAccesses_selfContained (users : List (User B × ℕ)) :
    (exportProtobufAccesses users).SelfContained := by
  induction users with
  | nil => exact Block.selfContained_done
  | cons user users ih =>
      refine .append (MasterKeys.exportProtobufAccesses_selfContained user.2) ?_
      split
      · exact Block.selfContained_done
      · exact ih

end UserStore

namespace Conversation

variable [Byte B] {storage : ℕ} {memory : ℕ → Access}

theorem guards_createAccesses (hopen : memory storage = Block.opened false)
    (ourPublicIdentity theirPublicIdentity : PublicKey B) :
    (createAccesses ourPublicIdentity theirPublicIdentity storage).Guards memory := by
  rw [createAccesses]
  split
  · exact Block.guards_done
  · simp [hopen, Block.opened]

variable [Sodium B]

theorem guards_createSendConversationAccesses (hopen : memory storage = Block.opened false)
    (senderPublicIdentity receiverPublicIdentity : PublicKey B) (receiverPrekeyList : List B)
    (w : World B) :
    (createSendConversationAccesses senderPublicIdentity receiverPublicIdentity
      receiverPrekeyList storage w).Guards memory := by
  rw [createSendConversationAccesses]
  split
  · exact Block.guards_done
  · simp only
    split
    · exact Block.guards_done
    · exact guards_createAccesses hopen _ _

theorem guards_createReceiveConversationAccesses [ProtobufC B]
    (hopen : memory storage = Block.opened false) (packet : List B)
    (receiverPublicIdentity : PublicKey B) (receiverPrekeys : PrekeyStore B) (w : World B) :
    (createReceiveConversationAccesses packet receiverPublicIdentity receiverPrekeys storage
      w).Guards memory := by
  rw [createReceiveConversationAccesses]
  split
  · exact Block.guards_done
  · split
    · exact Block.guards_done
    · exact guards_createAccesses hopen _ _

end Conversation

namespace Library

variable [Byte B] [Sodium B] [ProtobufC B]

omit [Sodium B] [ProtobufC B] in
theorem createPrekeyListAccesses_selfContained (library : Library B)
    (publicSigningKey : PublicSigningKey B) (storages : List ℕ) :
    (library.createPrekeyListAccesses publicSigningKey storages).SelfContained := by
  rw [createPrekeyListAccesses]
  split
  · exact Block.selfContained_done
  · exact MasterKeys.signAccesses_selfContained _

omit [Byte B] [Sodium B] [ProtobufC B] in
theorem exportAllAccesses_selfContained (library : Library B) (storages : List ℕ) :
    (library.exportAllAccesses storages).SelfContained := by
  rw [exportAllAccesses]
  split
  · exact Block.selfContained_done
  · exact UserStore.exportProtobufAccesses_selfContained _

omit [Byte B] [Sodium B] [ProtobufC B] in
theorem exportIfAccesses_selfContained (library : Library B) (createBackup : Bool)
    (storages : List ℕ) : (library.exportIfAccesses createBackup storages).SelfContained := by
  rw [exportIfAccesses]
  split
  · exact library.exportAllAccesses_selfContained storages
  · exact Block.selfContained_done

omit [ProtobufC B] in
theorem createUserAccesses_selfContained (library : Library B) (createBackup : Bool)
    (randomSpice : Option (List B)) (storages : List ℕ) (w : World B) :
    (library.createUserAccesses createBackup randomSpice storages w).SelfContained := by
  refine .append (MasterKeys.createAccesses_selfContained randomSpice _ _) ?_
  split
  · exact Block.selfContained_done
  · refine .append (createPrekeyListAccesses_selfContained _ _ _) ?_
    split
    · exact Block.selfContained_done
    · exact exportIfAccesses_selfContained _ createBackup _

theorem startSendConversationAccesses_selfContained (library : Library B)
    (senderId receiverId : PublicSigningKey B) (prekeyList message : List B)
    (createBackup : Bool) (storages : List ℕ) (w : World B) :
    (library.startSendConversationAccesses senderId receiverId prekeyList message createBackup
      storages w).SelfContained := by
  rw [startSendConversationAccesses]
  split
  · exact Block.selfContained_done
  · split
    · exact Block.selfContained_done
    · split
      · exact Block.selfContained_done
      · refine .unlocker ?_ Block.selfContained_done
        intro memory hopen
        -- the identity is read before the export locks it
        refine (Conversation.guards_createSendConversationAccesses hopen _ _ _ _).append ?_
        split
        · exact Block.selfContained_done
        · exact exportIfAccesses_selfContained _ createBackup storages

omit [ProtobufC B] [Sodium B] in
theorem endConversationAccesses_selfContained (library : Library B) (id : ConversationId B)
    (createBackup : Bool) (storages : List ℕ) :
    (library.endConversationAccesses id createBackup storages).SelfContained := by
  rw [endConversationAccesses]
  split
  · exact Block.selfContained_done
  · exact exportIfAccesses_selfContained _ createBackup storages

theorem importAllAccesses_selfContained (library : Library B) (backup : List B)
    (backupKey : BackupKey B) :
    (library.importAllAccesses backup backupKey).SelfContained := by
  rw [importAllAccesses]
  split
  · exact Block.selfContained_done
  · split
    · exact Block.selfContained_done
    · exact UserStore.importAccesses_selfContained _ _

variable [Platform]

theorem startReceiveConversationAccesses_selfContained (library : Library B)
    (receiverId : PublicSigningKey B) (packet : List B) (createBackup : Bool)
    (storages : List ℕ) (w : World B) :
    (library.startReceiveConversationAccesses receiverId packet createBackup storages
      w).SelfContained := by
  rw [startReceiveConversationAccesses]
  split
  · exact Block.selfContained_done
  · refine .unlocker ?_ Block.selfContained_done
    intro memory hopen
    -- the identity is read before the signature locks it
    refine (Conversation.guards_createReceiveConversationAccesses hopen _ _ _ _).append ?_
    split
    · exact Block.selfContained_done
    · refine .append (createPrekeyListAccesses_selfContained _ receiverId storages) ?_
      split
      · exact Block.selfContained_done
      · exact exportIfAccesses_selfContained _ createBackup storages

theorem callAccesses_selfContained (state : Library B × World B) (call : Call B) :
    (callAccesses state call).SelfContained := by
  cases call with
  | createUser createBackup randomSpice =>
      exact state.1.createUserAccesses_selfContained createBackup randomSpice _ state.2
  | destroyUser userId createBackup => exact exportIfAccesses_selfContained _ createBackup _
  | startSendConversation senderId receiverId prekeyList message createBackup =>
      exact state.1.startSendConversationAccesses_selfContained senderId receiverId prekeyList
        message createBackup _ state.2
  | startReceiveConversation receiverId senderId packet createBackup =>
      exact state.1.startReceiveConversationAccesses_selfContained receiverId packet createBackup
        _ state.2
  | endConversation id createBackup =>
      exact state.1.endConversationAccesses_selfContained id createBackup _
  | exportAll => exact state.1.exportAllAccesses_selfContained _
  | importAll backup backupKey => exact state.1.importAllAccesses_selfContained backup backupKey
  | getPrekeyList userId => exact state.1.createPrekeyListAccesses_selfContained userId _
  | _ => exact Block.selfContained_done

/-- Wherever a call is left, it has read private keys only while they were unlocked and
written them only while they were unlocked for that, and all of them are locked again. -/
theorem private_keys_accessed_unlocked (state : Library B × World B) (call : Call B)
    {executed : KeyAccesses} (h : Block.Cut (callAccesses state call) executed) :
    (∀ before event after, executed.trace = before ++ event :: after →
      event.Permitted (Runs.final Event.step (fun _ => .noAccess) before)) ∧
    ∀ storage, Runs.final Event.step (fun _ => .noAccess) executed.trace storage = .noAccess :=
  (callAccesses_selfContained state call).cut h

theorem callAccesses_createUser (state : Library B × World B) (createBackup : Bool) :
    ∃ rest, callAccesses state (.createUser createBackup none) =
      .allocate state.1.users.length (.unlocker true state.1.users.length
        (MasterKeys.writeAccesses state.1.users.length) rest) :=
  ⟨_, rfl⟩

end Library

namespace Symbolic

/-- An exception after the first private key of a new user has been written. -/
theorem private_keys_accessed_unlocked_interrupted :
    let executed : KeyAccesses :=
      .allocate 0 (.unlocker true 0 (.write 0 .signingKey .done) .done)
    (∀ before event after, executed.trace = before ++ event :: after →
      event.Permitted (Runs.final Event.step (fun _ => .noAccess) before)) ∧
    ∀ storage, Runs.final Event.step (fun _ => .noAccess) executed.trace storage = .noAccess := by
  obtain ⟨rest, heq⟩ := Library.callAccesses_createUser (Library.loaded, world) false
  refine Library.private_keys_accessed_unlocked (Library.loaded, world) (.createUser false none) ?_
  rw [heq]
  exact .allocate (.inside (.write .done))

end Symbolic

end Molch
