import Molch.User

/-!
The C interface: the users and the backup key that the library keeps between two calls,
and one function for each `molch_*` function. The arguments have passed the checks of
pointers and lengths that each of these functions starts with, so that ids and keys have
their sizes; `sodium_init` and the memory protection of libsodium succeed. What a call
does before it fails stays done.
-/

namespace Molch

/-- The static variables of `molch.cpp`. -/
structure Library (B : Type) where
  users : List (User B)
  globalBackupKey : Option (BackupKey B)

/-- What a successful call writes to its outputs. -/
inductive Reply (B : Type) where
  | createdUser (userId : PublicSigningKey B) (prekeyList : List B) (backupKey : BackupKey B)
      (backup : Option (List B))
  | destroyedUser (backup : Option (List B))
  | destroyedAllUsers
  | userCount (count : ℕ)
  | userList (list : List B) (count : ℕ)
  | messageType (type : MessageType)
  | startedSendConversation (id : ConversationId B) (packet : List B) (backup : Option (List B))
  | startedReceiveConversation (id : ConversationId B) (prekeyList message : List B)
      (backup : Option (List B))
  | encryptedMessage (packet : List B) (conversationBackup : Option (List B))
  | decryptedMessage (message : List B) (messageNumber previousMessageNumber : UInt32)
      (conversationBackup : Option (List B))
  | endedConversation (backup : Option (List B))
  | conversationList (list : List B) (count : ℕ)
  | exportedConversation (backup : List B)
  | exported (backup : List B)
  | importedConversation (newBackupKey : BackupKey B)
  | imported (newBackupKey : BackupKey B)
  | prekeyList (list : List B)
  | updatedBackupKey (newKey : BackupKey B)

namespace Library

variable {B : Type} [Byte B] [Sodium B] [ProtobufC B]

def createPrekeyList (library : Library B) (publicSigningKey : PublicSigningKey B)
    (w : World B) : Except Error (List B) × Library B × World B :=
  match UserStore.find publicSigningKey library.users with
  | none =>
      (.error ⟨.notFound, "Couldn't find the user to create a prekey list from."⟩, library, w)
  | some user =>
      match user.createPrekeyList w with
      | (prekeyList, user, w) =>
          (.ok prekeyList, { library with
            users := UserStore.modify publicSigningKey (fun _ => user) library.users }, w)

/-- The key is created if there is none, and filled with random bytes. -/
def updateBackupKey (library : Library B) (w : World B) : BackupKey B × Library B × World B :=
  match w.randombytesBuf 32 with
  | (backupKey, w) => (backupKey, { library with globalBackupKey := some backupKey }, w)

/-- The encryption that both kinds of backups end with. -/
def encryptBackup (backupKey : BackupKey B) (backupType : UInt32) (content : List B)
    (w : World B) : List B × World B :=
  match w.randombytesBuf 24 with
  | (nonce, w) =>
      (ProtobufC.encryptedBackupPack ⟨0, some backupType, some nonce.bytes,
        some (Sodium.cryptoSecretboxEasy content nonce backupKey)⟩, w)

/-- `export_all`. The unlocker ends the process before the missing key is reported. -/
def exportAll (library : Library B) (w : World B) : Except Failure (List B) × World B :=
  match library.globalBackupKey with
  | none => (.error .terminate, w)
  | some backupKey =>
      match UserStore.exportProtobuf library.users with
      | .error failure => (.error failure, w)
      | .ok users =>
          match encryptBackup backupKey backupTypeFullBackup
              (ProtobufC.backupPack ⟨users⟩) w with
          | (backup, w) => (.ok backup, w)

def exportIf (library : Library B) (createBackup : Bool) (w : World B) :
    Except Failure (Option (List B)) × World B :=
  if createBackup then
    match library.exportAll w with
    | (backup, w) => (backup.map some, w)
  else (.ok none, w)

def createUser (library : Library B) (createBackup : Bool) (randomSpice : Option (List B))
    (w : World B) : Except Failure (Reply B) × Library B × World B :=
  match library.updateBackupKey w with
  | (backupKey, library, w) =>
      match User.create randomSpice w with
      | (.error e, w) => (.error (.error e), library, w)
      | (.ok user, w) =>
          let library := { library with users := UserStore.add user library.users }
          match library.createPrekeyList user.publicSigningKey w with
          | (.error e, library, w) => (.error (.error e), library, w)
          | (.ok prekeyList, library, w) =>
              match library.exportIf createBackup w with
              | (.error failure, w) => (.error failure, library, w)
              | (.ok backup, w) =>
                  (.ok (.createdUser user.publicSigningKey prekeyList backupKey backup),
                    library, w)

def destroyUser (library : Library B) (userId : PublicSigningKey B) (createBackup : Bool)
    (w : World B) : Except Failure (Reply B) × Library B × World B :=
  let library := { library with users := UserStore.remove userId library.users }
  match library.exportIf createBackup w with
  | (backup, w) => (backup.map .destroyedUser, library, w)

def listUsers (library : Library B) : Reply B :=
  .userList (UserStore.list library.users) ((UserStore.list library.users).length / 32)

omit [Byte B] [Sodium B] in
def getMessageType (packet : List B) : MessageType :=
  match packetGetMetadataWithoutVerification packet with
  | .error _ => .invalid
  | .ok metadata => metadata.packetType

/-- The prekeys of a signed list, whose length the entry check has compared with that of
everything else in it. -/
def signedPrekeys (prekeyList : List B) : List B :=
  (prekeyList.drop (32 + 64)).take (prekeyList.length - 32 - 64 - 8)

def startSendConversation (library : Library B) (senderId receiverId : PublicSigningKey B)
    (prekeyList message : List B) (createBackup : Bool) (w : World B) :
    Except Failure (Reply B) × Library B × World B :=
  if prekeyList.length < 32 + 64 + 8 then
    (.error (.error ⟨.invalidValue, "Invalid input to molch_start_send_conversation"⟩),
      library, w)
  else
    match UserStore.find senderId library.users with
    | none => (.error (.error ⟨.notFound, "User not found."⟩), library, w)
    | some user =>
        match verifyPrekeyList prekeyList receiverId w with
        | (.error failure, w) => (.error failure, library, w)
        | (.ok receiverPublicIdentity, w) =>
            match Conversation.createSendConversation message user.masterKeys.publicIdentityKey
                user.masterKeys.privateIdentityKey receiverPublicIdentity
                (signedPrekeys prekeyList) w with
            | (.error e, w) => (.error (.error e), library, w)
            | (.ok (packet, conversation), w) =>
                let library := { library with
                  users := UserStore.modify senderId (fun user => { user with
                    conversations := ConversationStore.add conversation user.conversations })
                      library.users }
                match library.exportIf createBackup w with
                | (backup, w) =>
                    (backup.map (.startedSendConversation conversation.id packet), library, w)

/-- `export_conversation`, which does report a missing key. -/
def exportConversation (library : Library B) (id : ConversationId B) (w : World B) :
    Except Failure (List B) × World B :=
  match library.globalBackupKey with
  | none => (.error (.error ⟨.incorrectData, "No backup key found."⟩), w)
  | some backupKey =>
      match UserStore.findConversation id library.users with
      | none => (.error (.error ⟨.notFound, "Failed to find the conversation."⟩), w)
      | some (_, conversation) =>
          match conversation.exportProtobuf with
          | .error failure => (.error failure, w)
          | .ok exported =>
              match encryptBackup backupKey backupTypeConversationBackup
                  (ProtobufC.conversationPack exported) w with
              | (backup, w) => (.ok backup, w)

def exportConversationIf (library : Library B) (createBackup : Bool) (id : ConversationId B)
    (w : World B) : Except Failure (Option (List B)) × World B :=
  if createBackup then
    match library.exportConversation id w with
    | (backup, w) => (backup.map some, w)
  else (.ok none, w)

/-- A conversation is changed through the pointer that `findConversation` returns. -/
def writeConversation (library : Library B) (conversation : Conversation B) : Library B :=
  { library with
    users := UserStore.modifyContaining conversation.id (fun user => { user with
      conversations := ConversationStore.add conversation user.conversations }) library.users }

def encryptMessage (library : Library B) (id : ConversationId B) (message : List B)
    (createBackup : Bool) (w : World B) : Except Failure (Reply B) × Library B × World B :=
  match UserStore.findConversation id library.users with
  | none =>
      (.error (.error ⟨.notFound, "Failed to find a conversation for the given ID."⟩),
        library, w)
  | some (_, conversation) =>
      match conversation.send message none w with
      | (.error e, conversation, w) =>
          (.error (.error e), library.writeConversation conversation, w)
      | (.ok packet, conversation, w) =>
          let library := library.writeConversation conversation
          match library.exportConversationIf createBackup id w with
          | (backup, w) => (backup.map (.encryptedMessage packet), library, w)

def endConversation (library : Library B) (id : ConversationId B) (createBackup : Bool)
    (w : World B) : Except Failure (Reply B) × Library B × World B :=
  match UserStore.findConversation id library.users with
  | none => (.error (.error ⟨.notFound, "Couldn't find conversation."⟩), library, w)
  | some _ =>
      let library := { library with
        users := UserStore.modifyContaining id (fun user => { user with
          conversations := ConversationStore.remove id user.conversations }) library.users }
      match library.exportIf createBackup w with
      | (backup, w) => (backup.map .endedConversation, library, w)

def listConversations (library : Library B) (userId : PublicSigningKey B) :
    Except Failure (Reply B) :=
  match UserStore.find userId library.users with
  | none => .error (.error ⟨.notFound, "No user found for the given public identity."⟩)
  | some user =>
      let list := ConversationStore.list user.conversations
      if list.length % 32 ≠ 0 then
        .error (.error ⟨.incorrectBufferSize,
          "The conversation ID buffer has an incorrect length."⟩)
      else .ok (.conversationList list (list.length / 32))

/-- What both imports check before they look at the content: the version, the type, the
ciphertext and the nonce of the backup. -/
def openBackup (backupType : UInt32) (wrongType missingState : String) (backup : List B)
    (backupKey : BackupKey B) : Except Error (List B) :=
  match ProtobufC.encryptedBackupUnpack backup with
  | none =>
      .error ⟨.protobufUnpackError, "Failed to unpack encrypted backup from protobuf."⟩
  | some encrypted =>
      if encrypted.backupVersion ≠ 0 then .error ⟨.incorrectData, "Incompatible backup."⟩
      else if encrypted.backupType ≠ some backupType then .error ⟨.incorrectData, wrongType⟩
      else
        match encrypted.encryptedBackup with
        | none => .error ⟨.protobufMissingError, missingState⟩
        | some ciphertext =>
            if ciphertext.length < 16 then .error ⟨.protobufMissingError, missingState⟩
            else
              match encrypted.encryptedBackupNonce with
              | none => .error ⟨.protobufMissingError, "The backup is missing the nonce."⟩
              | some nonce =>
                  if nonce.length ≠ 24 then
                    .error ⟨.protobufMissingError, "The backup is missing the nonce."⟩
                  else cryptoSecretboxOpen ciphertext nonce backupKey

def openConversationBackup (backup : List B) (backupKey : BackupKey B) :
    Except Error (List B) :=
  openBackup backupTypeConversationBackup "Backup is not a conversation backup."
    "The backup is missing the encrypted conversation state." backup backupKey

def openFullBackup (backup : List B) (backupKey : BackupKey B) : Except Error (List B) :=
  openBackup backupTypeFullBackup "Backup is not a full backup."
    "The backup is missing the encrypted state." backup backupKey

/-- The conversation of a backup, if there is one with its id to be replaced. -/
def readConversation (library : Library B) (backup : List B) (backupKey : BackupKey B) :
    Except Error (Conversation B) := do
  let decrypted ← openConversationBackup backup backupKey
  match ProtobufC.conversationUnpack decrypted with
  | none => .error ⟨.protobufUnpackError, "Failed to unpack conversations protobuf-c."⟩
  | some exported => do
      let id ← Key.fromSpan exported.id
      match UserStore.findConversation id library.users with
      | none => .error ⟨.notFound, "Containing store not found."⟩
      | some _ => Conversation.import_ exported

def importConversation (library : Library B) (backup : List B) (backupKey : BackupKey B)
    (w : World B) : Except Failure (Reply B) × Library B × World B :=
  match library.readConversation backup backupKey with
  | .error e => (.error (.error e), library, w)
  | .ok conversation =>
      match (library.writeConversation conversation).updateBackupKey w with
      | (newBackupKey, library, w) => (.ok (.importedConversation newBackupKey), library, w)

def readUsers (backup : List B) (backupKey : BackupKey B) : Except Error (List (User B)) := do
  let decrypted ← openFullBackup backup backupKey
  match ProtobufC.backupUnpack decrypted with
  | none => .error ⟨.protobufUnpackError, "Failed to unpack backups protobuf-c."⟩
  | some exported => UserStore.import_ exported.users

def importAll (library : Library B) (backup : List B) (backupKey : BackupKey B) (w : World B) :
    Except Failure (Reply B) × Library B × World B :=
  match readUsers backup backupKey with
  | .error e => (.error (.error e), library, w)
  | .ok users =>
      match library.updateBackupKey w with
      | (newBackupKey, library, w) =>
          (.ok (.imported newBackupKey), { library with users := users }, w)

variable [Platform]

/-- The prekeys that the packet has used up stay so when the call fails. -/
def startReceiveConversation (library : Library B) (receiverId : PublicSigningKey B)
    (packet : List B) (createBackup : Bool) (w : World B) :
    Except Failure (Reply B) × Library B × World B :=
  match UserStore.find receiverId library.users with
  | none => (.error (.error ⟨.notFound, "User not found in the user store."⟩), library, w)
  | some user =>
      match Conversation.createReceiveConversation packet user.masterKeys.publicIdentityKey
          user.masterKeys.privateIdentityKey user.prekeys w with
      | (result, prekeys, w) =>
          let library := { library with
            users := UserStore.modify receiverId (fun user => { user with prekeys := prekeys })
              library.users }
          match result with
          | .error e => (.error (.error e), library, w)
          | .ok (message, conversation) =>
              match library.createPrekeyList receiverId w with
              | (.error e, library, w) => (.error (.error e), library, w)
              | (.ok prekeyList, library, w) =>
                  let library := { library with
                    users := UserStore.modify receiverId (fun user => { user with
                      conversations := ConversationStore.add conversation user.conversations })
                        library.users }
                  match library.exportIf createBackup w with
                  | (backup, w) =>
                      (backup.map (.startedReceiveConversation conversation.id prekeyList
                        message), library, w)

def decryptMessage (library : Library B) (id : ConversationId B) (packet : List B)
    (createBackup : Bool) (w : World B) : Except Failure (Reply B) × Library B × World B :=
  match UserStore.findConversation id library.users with
  | none =>
      (.error (.error ⟨.notFound, "Failed to find conversation with the given ID."⟩),
        library, w)
  | some (_, conversation) =>
      match conversation.receive packet w with
      | (.error e, conversation, w) =>
          (.error (.error e), library.writeConversation conversation, w)
      | (.ok received, conversation, w) =>
          let library := library.writeConversation conversation
          match library.exportConversationIf createBackup id w with
          | (backup, w) =>
              (backup.map (.decryptedMessage received.message received.messageNumber
                received.previousMessageNumber), library, w)

/-- A call of the interface. A flag says whether the caller asks for a backup. -/
inductive Call (B : Type) where
  | createUser (createBackup : Bool) (randomSpice : Option (List B))
  | destroyUser (userId : PublicSigningKey B) (createBackup : Bool)
  | userCount
  | destroyAllUsers
  | listUsers
  | getMessageType (packet : List B)
  | startSendConversation (senderId receiverId : PublicSigningKey B) (prekeyList message : List B)
      (createBackup : Bool)
  | startReceiveConversation (receiverId senderId : PublicSigningKey B) (packet : List B)
      (createBackup : Bool)
  | encryptMessage (id : ConversationId B) (message : List B) (createBackup : Bool)
  | decryptMessage (id : ConversationId B) (packet : List B) (createBackup : Bool)
  | endConversation (id : ConversationId B) (createBackup : Bool)
  | listConversations (userId : PublicSigningKey B)
  | exportConversation (id : ConversationId B)
  | importConversation (backup : List B) (backupKey : BackupKey B)
  | exportAll
  | importAll (backup : List B) (backupKey : BackupKey B)
  | getPrekeyList (userId : PublicSigningKey B)
  | updateBackupKey

/-- One world goes through all calls. -/
def call (state : Library B × World B) :
    Call B → Except Failure (Reply B) × Library B × World B
  | .createUser createBackup randomSpice => state.1.createUser createBackup randomSpice state.2
  | .destroyUser userId createBackup => state.1.destroyUser userId createBackup state.2
  | .userCount => (.ok (.userCount state.1.users.length), state)
  | .destroyAllUsers => (.ok .destroyedAllUsers, { state.1 with users := [] }, state.2)
  | .listUsers => (.ok state.1.listUsers, state)
  | .getMessageType packet => (.ok (.messageType (getMessageType packet)), state)
  | .startSendConversation senderId receiverId prekeyList message createBackup =>
      state.1.startSendConversation senderId receiverId prekeyList message createBackup state.2
  | .startReceiveConversation receiverId _ packet createBackup =>
      state.1.startReceiveConversation receiverId packet createBackup state.2
  | .encryptMessage id message createBackup =>
      state.1.encryptMessage id message createBackup state.2
  | .decryptMessage id packet createBackup => state.1.decryptMessage id packet createBackup state.2
  | .endConversation id createBackup => state.1.endConversation id createBackup state.2
  | .listConversations userId => (state.1.listConversations userId, state)
  | .exportConversation id =>
      match state.1.exportConversation id state.2 with
      | (backup, w) => (backup.map .exportedConversation, state.1, w)
  | .importConversation backup backupKey => state.1.importConversation backup backupKey state.2
  | .exportAll =>
      match state.1.exportAll state.2 with
      | (backup, w) => (backup.map .exported, state.1, w)
  | .importAll backup backupKey => state.1.importAll backup backupKey state.2
  | .getPrekeyList userId =>
      match state.1.createPrekeyList userId state.2 with
      | (.error e, state) => (.error (.error e), state)
      | (.ok list, state) => (.ok (.prekeyList list), state)
  | .updateBackupKey =>
      match state.1.updateBackupKey state.2 with
      | (newKey, state) => (.ok (.updatedBackupKey newKey), state)

def loaded : Library B := ⟨[], none⟩

end Library

end Molch
