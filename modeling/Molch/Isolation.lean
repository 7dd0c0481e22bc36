import Molch.FirstContact
import Molch.Foundation.Projection
import Molch.LibraryLife

namespace Molch

variable {B : Type}

section Search

variable [DecidableEq B] {id : ConversationId B} {users : List (User B)}

def User.conversationOf (id : ConversationId B) (user : User B) : Option (Conversation B) :=
  ConversationStore.find id user.conversations

/-- The conversation that `findConversation` returns a pointer to. -/
def UserStore.conversationOf (id : ConversationId B) (users : List (User B)) :
    Option (Conversation B) :=
  (UserStore.findConversation id users).map Prod.snd

theorem User.conversationOf_add_of_ne {conversation : Conversation B}
    (hne : conversation.id ≠ id) (user : User B) :
    User.conversationOf id { user with
      conversations := ConversationStore.add conversation user.conversations } =
        user.conversationOf id :=
  Keyed.find_add_of_ne hne user.conversations

theorem User.conversationOf_remove_of_ne {id' : ConversationId B} (hne : id' ≠ id)
    (user : User B) :
    User.conversationOf id { user with
      conversations := ConversationStore.remove id' user.conversations } =
        user.conversationOf id :=
  Keyed.find_remove_of_ne hne user.conversations

namespace UserStore

theorem conversationOf_eq_findSome (id : ConversationId B) (users : List (User B)) :
    conversationOf id users = users.findSome? (User.conversationOf id) := by
  induction users with
  | nil => rfl
  | cons user users ih =>
      rw [List.findSome?_cons, ← ih, conversationOf, findConversation, User.conversationOf]
      cases ConversationStore.find id user.conversations with
      | none => rfl
      | some conversation => rfl

theorem id_of_conversationOf {conversation : Conversation B}
    (h : conversationOf id users = some conversation) : conversation.id = id := by
  rw [conversationOf_eq_findSome] at h
  obtain ⟨user, -, hfound⟩ := List.exists_of_findSome?_eq_some h
  exact Keyed.key_of_find hfound

theorem conversationOf_add {user : User B} (hnew : user.conversationOf id = none)
    (hold : ∀ other, find user.publicSigningKey users = some other →
      other.conversationOf id = none) :
    conversationOf id (add user users) = conversationOf id users := by
  rw [conversationOf_eq_findSome, conversationOf_eq_findSome]
  exact Keyed.findSome_add hnew hold

theorem conversationOf_remove {userId : PublicSigningKey B}
    (h : ∀ user, find userId users = some user → user.conversationOf id = none) :
    conversationOf id (remove userId users) = conversationOf id users := by
  rw [conversationOf_eq_findSome, conversationOf_eq_findSome]
  exact Keyed.findSome_remove h

theorem conversationOf_modify {userId : PublicSigningKey B} {change : User B → User B}
    (h : ∀ user, (change user).conversationOf id = user.conversationOf id) :
    conversationOf id (modify userId change users) = conversationOf id users := by
  rw [conversationOf_eq_findSome, conversationOf_eq_findSome]
  exact Keyed.findSome_modify fun user _ => h user

theorem conversationOf_modifyContaining {id' : ConversationId B} {change : User B → User B}
    (h : ∀ user, (change user).conversationOf id = user.conversationOf id) :
    conversationOf id (modifyContaining id' change users) = conversationOf id users := by
  rw [conversationOf_eq_findSome, conversationOf_eq_findSome]
  induction users with
  | nil => rfl
  | cons user users ih =>
      rw [modifyContaining]
      split
      · rw [List.findSome?_cons, List.findSome?_cons, h]
      · rw [List.findSome?_cons, List.findSome?_cons, ih]

end UserStore

end Search

variable [Byte B] [Sodium B] [ProtobufC B]

namespace Conversation

section Ids

variable {ourPrivateIdentity ourPrivateEphemeral : PrivateKey B}
  {ourPublicIdentity theirPublicIdentity ourPublicEphemeral theirPublicEphemeral : PublicKey B}
  {w w' : World B} {conversation : Conversation B}

omit [ProtobufC B] in
theorem create_id (h : create ourPrivateIdentity ourPublicIdentity theirPublicIdentity
    ourPrivateEphemeral ourPublicEphemeral theirPublicEphemeral w = (.ok conversation, w')) :
    conversation.id = w.random 0 32 := by
  rw [create] at h
  simp only at h
  split at h
  · cases h
  · cases h
    rfl

theorem createSendConversation_id {message packet prekeyList : List B}
    (h : createSendConversation message ourPublicIdentity ourPrivateIdentity theirPublicIdentity
      prekeyList w = (.ok (packet, conversation), w')) : ∃ i, conversation.id = w.random i 32 := by
  rw [createSendConversation] at h
  split at h
  · cases h
  · simp only at h
    split at h
    · cases h
    · rename_i prekey _
      split at h
      · cases h
      · rename_i created w'' hcreate
        split at h
        · cases h
        · rename_i hsend
          cases h
          have hid := created.send_id message (some ⟨ourPublicIdentity, (cryptoBoxKeypair w).1.1,
            prekey⟩) w''
          rw [hsend] at hid
          exact ⟨1, hid.trans (create_id hcreate)⟩

omit [ProtobufC B] in
theorem getPrekey_random (prekeys : PrekeyStore B) (publicKey : PublicKey B) (w : World B) :
    ∃ draws, ∀ i, (prekeys.getPrekey publicKey w).2.2.random i = w.random (i + draws) := by
  rw [PrekeyStore.getPrekey]
  split
  · exact ⟨1, fun i => rfl⟩
  · split
    · exact ⟨0, fun i => rfl⟩
    · exact ⟨0, fun i => rfl⟩

theorem createReceiveConversation_id [Platform] {packet message : List B}
    {prekeys prekeys' : PrekeyStore B}
    (h : createReceiveConversation packet ourPublicIdentity ourPrivateIdentity prekeys w =
      (.ok (message, conversation), prekeys', w')) : ∃ i, conversation.id = w.random i 32 := by
  rw [createReceiveConversation] at h
  split at h
  · cases h
  · rename_i metadata _
    obtain ⟨draws, hdraws⟩ := getPrekey_random prekeys metadata.prekey w
    split at h
    · cases h
    · rename_i w'' hfound
      rw [hfound] at hdraws
      split at h
      · cases h
      · rename_i created w''' hcreate
        split at h
        · cases h
        · rename_i hreceive
          cases h
          have hid := created.receive_id packet w'''
          rw [hreceive] at hid
          refine ⟨0 + draws, hid.trans ((create_id hcreate).trans ?_)⟩
          rw [← hdraws]

end Ids

end Conversation

namespace Library

open UserStore

/-- The call does not take the conversation away or put another one in its place: its user is
not destroyed or replaced, a conversation that is started or imported has another id, and the
library is not imported as a whole. -/
def Spares (id : ConversationId B) (state : Library B × World B) : Call B → Prop
  | .createUser _ randomSpice => ∀ user other,
      (User.create randomSpice (state.2.randombytesBuf 32).2).1 = .ok user →
      UserStore.find user.publicSigningKey state.1.users = some other →
        other.conversationOf id = none
  | .destroyUser userId _ => ∀ user, UserStore.find userId state.1.users = some user →
      user.conversationOf id = none
  | .destroyAllUsers => False
  | .startSendConversation .. => ∀ i, state.2.random i 32 ≠ id
  | .startReceiveConversation .. => ∀ i, state.2.random i 32 ≠ id
  | .endConversation id' _ => id' ≠ id
  | .importConversation backup backupKey => ∀ conversation,
      state.1.readConversation backup backupKey = .ok conversation → conversation.id ≠ id
  | .importAll backup backupKey => ∃ e, readUsers backup backupKey = .error e
  | _ => True

def conversationCalls (id : ConversationId B) (state : Library B × World B) :
    Call B → List (Conversation.Call B)
  | .encryptMessage id' message _ => if id' = id then [.send message none state.2] else []
  | .decryptMessage id' packet _ => if id' = id then [.receive packet state.2] else []
  | _ => []

def Call.asksForBackup : Call B → Bool
  | .encryptMessage _ _ createBackup => createBackup
  | .decryptMessage _ _ createBackup => createBackup
  | _ => false

/-- What the caller gets for an outcome of the conversation. Once the conversation has
succeeded only the backup can fail. -/
inductive Answers : Bool → Except Failure (Reply B) → Conversation.Outcome B → Prop
  | notSent {createBackup : Bool} (e : Error) :
      Answers createBackup (.error (.error e)) (.sent none)
  | sent {createBackup : Bool} (packet : List B) (backup : Except Failure (Option (List B)))
      (hbackup : createBackup = false → backup = .ok none) :
      Answers createBackup (backup.map (.encryptedMessage packet)) (.sent (some packet))
  | notReceived {createBackup : Bool} (e : Error) :
      Answers createBackup (.error (.error e)) (.received none)
  | received {createBackup : Bool} (message : ReceivedMessage B)
      (backup : Except Failure (Option (List B)))
      (hbackup : createBackup = false → backup = .ok none) :
      Answers createBackup (backup.map (.decryptedMessage message.message message.messageNumber
        message.previousMessageNumber)) (.received (some message))

section Answers

variable {createBackup : Bool} {reply : Except Failure (Reply B)}

omit [Byte B] [Sodium B] [ProtobufC B]

theorem Answers.of_sent {packet : List B} (h : Answers createBackup reply (.sent (some packet))) :
    ∃ backup : Except Failure (Option (List B)), (createBackup = false → backup = .ok none) ∧
      reply = backup.map (.encryptedMessage packet) := by
  cases h with
  | sent packet backup hbackup => exact ⟨backup, hbackup, rfl⟩

theorem Answers.of_received {message : ReceivedMessage B}
    (h : Answers createBackup reply (.received (some message))) :
    ∃ backup : Except Failure (Option (List B)), (createBackup = false → backup = .ok none) ∧
      reply = backup.map (.decryptedMessage message.message message.messageNumber
        message.previousMessageNumber) := by
  cases h with
  | received message backup hbackup => exact ⟨backup, hbackup, rfl⟩

theorem Answers.of_notReceived (h : Answers createBackup reply (.received none)) :
    ∃ e, reply = .error (.error e) := by
  cases h with
  | notReceived e => exact ⟨e, rfl⟩

end Answers

section Calls

variable {library : Library B} {id : ConversationId B} {w : World B}

omit [Sodium B] [ProtobufC B] in
theorem conversationOf_writeConversation_of_ne {conversation : Conversation B}
    (hne : conversation.id ≠ id) :
    conversationOf id (library.writeConversation conversation).users =
      conversationOf id library.users :=
  conversationOf_modifyContaining fun user => User.conversationOf_add_of_ne hne user

omit [Sodium B] [ProtobufC B] in
theorem conversationOf_writeConversation {conversation old : Conversation B}
    (hfound : conversationOf conversation.id library.users = some old) :
    conversationOf conversation.id (library.writeConversation conversation).users =
      some conversation := by
  obtain ⟨⟨user, _⟩, hfirst, -⟩ := Option.map_eq_some_iff.mp hfound
  obtain ⟨before, after, husers, hconversation, hbefore⟩ := findConversation_eq_some hfirst
  have hadded : User.conversationOf conversation.id { user with
      conversations := ConversationStore.add conversation user.conversations } =
        some conversation := Keyed.find_add conversation user.conversations
  rw [conversationOf_eq_findSome, writeConversation, husers,
    modifyContaining_append hconversation hbefore, List.findSome?_append,
    List.findSome?_cons, hadded]
  have hnone : before.findSome? (User.conversationOf conversation.id) = none :=
    List.findSome?_eq_none_iff.mpr hbefore
  rw [hnone]
  rfl

omit [ProtobufC B] in
theorem conversationOf_createPrekeyList (id : ConversationId B) (library : Library B)
    (userId : PublicSigningKey B) (w : World B) :
    conversationOf id (library.createPrekeyList userId w).2.1.users =
      conversationOf id library.users := by
  rw [createPrekeyList]
  cases hfound : UserStore.find userId library.users with
  | none => rfl
  | some user =>
      rw [conversationOf_eq_findSome, conversationOf_eq_findSome]
      refine Keyed.findSome_modify fun other hother => ?_
      cases hfound.symm.trans hother
      rw [User.createPrekeyList_eq]
      rfl

theorem conversationOf_createUser {createBackup : Bool} {randomSpice : Option (List B)}
    (h : Spares id (library, w) (.createUser createBackup randomSpice)) :
    conversationOf id (library.createUser createBackup randomSpice w).2.1.users =
      conversationOf id library.users := by
  cases hcreate : User.create randomSpice (w.randombytesBuf 32).2 with
  | mk result w' =>
      cases result with
      | error e =>
          rw [createUser, updateBackupKey]
          simp only [hcreate]
      | ok user =>
          obtain ⟨masterKeys, _, -, -, huser⟩ := User.exists_of_create (congrArg Prod.fst hcreate)
          have hkey : (user.createPrekeyList w').2.1.publicSigningKey = user.publicSigningKey := by
            rw [User.createPrekeyList_eq]
          have hadded : conversationOf id (add (user.createPrekeyList w').2.1 library.users) =
              conversationOf id library.users := by
            refine conversationOf_add ?_ fun other hother => ?_
            · rw [User.createPrekeyList_eq, huser]
              rfl
            · rw [hkey] at hother
              exact h user other (congrArg Prod.fst hcreate) hother
          rw [createUser_eq library createBackup hcreate]
          simp only
          split
          · exact hadded
          · exact hadded

omit [ProtobufC B] in
theorem random_verifyPrekeyList (prekeyList : List B) (key : PublicSigningKey B) (w : World B) :
    (verifyPrekeyList prekeyList key w).2.random = w.random := by
  rw [verifyPrekeyList]
  split
  · rfl
  · split
    · rfl
    · simp only
      split_ifs
      · rfl
      · split
        · rfl
        · rfl

theorem conversationOf_startSendConversation {senderId receiverId : PublicSigningKey B}
    {prekeyList message : List B} {createBackup : Bool}
    (h : Spares id (library, w)
      (.startSendConversation senderId receiverId prekeyList message createBackup)) :
    conversationOf id (library.startSendConversation senderId receiverId prekeyList message
      createBackup w).2.1.users = conversationOf id library.users := by
  rw [startSendConversation]
  split
  · rfl
  · split
    · rfl
    · split
      · rfl
      · rename_i identity w' hverify
        split
        · rfl
        · rename_i packet conversation w'' hcreate
          obtain ⟨i, hid⟩ := Conversation.createSendConversation_id hcreate
          refine conversationOf_modify fun user => User.conversationOf_add_of_ne ?_ user
          have hrandom := random_verifyPrekeyList prekeyList receiverId w
          rw [hverify] at hrandom
          rw [hid, hrandom]
          exact h i

theorem conversationOf_startReceiveConversation [Platform]
    {receiverId senderId : PublicSigningKey B} {packet : List B} {createBackup : Bool}
    (h : Spares id (library, w)
      (.startReceiveConversation receiverId senderId packet createBackup)) :
    conversationOf id (library.startReceiveConversation receiverId packet createBackup
      w).2.1.users = conversationOf id library.users := by
  rw [startReceiveConversation]
  split
  · rfl
  · rename_i user _
    simp only
    have hprekeys (prekeys : PrekeyStore B) : conversationOf id
        (UserStore.modify receiverId (fun user => { user with prekeys := prekeys })
          library.users) = conversationOf id library.users :=
      conversationOf_modify fun user => rfl
    split
    · exact hprekeys _
    · rename_i message conversation heq
      obtain ⟨i, hid⟩ := Conversation.createReceiveConversation_id (Prod.ext heq rfl)
      have hlist := conversationOf_createPrekeyList id ⟨UserStore.modify receiverId
        (fun user' => { user' with prekeys := (Conversation.createReceiveConversation packet
          user.masterKeys.publicIdentityKey user.masterKeys.privateIdentityKey user.prekeys
            w).2.1 }) library.users, library.globalBackupKey⟩ receiverId
        (Conversation.createReceiveConversation packet user.masterKeys.publicIdentityKey
          user.masterKeys.privateIdentityKey user.prekeys w).2.2
      rw [hprekeys] at hlist
      split
      · rename_i heq'
        rw [heq'] at hlist
        exact hlist
      · rename_i heq'
        rw [heq'] at hlist
        refine Eq.trans (conversationOf_modify fun user =>
          User.conversationOf_add_of_ne ?_ user) hlist
        rw [hid]
        exact h i

theorem conversationOf_endConversation {id' : ConversationId B} (hne : id' ≠ id)
    (createBackup : Bool) :
    conversationOf id (library.endConversation id' createBackup w).2.1.users =
      conversationOf id library.users := by
  rw [endConversation]
  split
  · rfl
  · exact conversationOf_modifyContaining fun user => User.conversationOf_remove_of_ne hne user

theorem conversationOf_importConversation {backup : List B} {backupKey : BackupKey B}
    (h : Spares id (library, w) (.importConversation backup backupKey)) :
    conversationOf id (library.importConversation backup backupKey w).2.1.users =
      conversationOf id library.users := by
  rw [importConversation]
  split
  · rfl
  · rename_i conversation hread
    exact conversationOf_writeConversation_of_ne (h conversation hread)

theorem conversationOf_importAll {backup : List B} {backupKey : BackupKey B}
    (h : Spares id (library, w) (.importAll backup backupKey)) :
    conversationOf id (library.importAll backup backupKey w).2.1.users =
      conversationOf id library.users := by
  obtain ⟨e, hread⟩ := h
  rw [importAll, hread]

theorem conversationOf_encryptMessage_of_ne {id' : ConversationId B} (hne : id' ≠ id)
    (message : List B) (createBackup : Bool) :
    conversationOf id (library.encryptMessage id' message createBackup w).2.1.users =
      conversationOf id library.users := by
  rw [encryptMessage]
  split
  · rfl
  · rename_i user conversation hfound
    have hid : conversation.id = id' := id_of_conversationOf (by rw [conversationOf, hfound]; rfl)
    have hsend := conversation.send_id message none w
    split
    · rename_i heq
      rw [heq, hid] at hsend
      exact conversationOf_writeConversation_of_ne (hsend ▸ hne)
    · rename_i heq
      rw [heq, hid] at hsend
      exact conversationOf_writeConversation_of_ne (hsend ▸ hne)

theorem conversationOf_decryptMessage_of_ne [Platform] {id' : ConversationId B} (hne : id' ≠ id)
    (packet : List B) (createBackup : Bool) :
    conversationOf id (library.decryptMessage id' packet createBackup w).2.1.users =
      conversationOf id library.users := by
  rw [decryptMessage]
  split
  · rfl
  · rename_i user conversation hfound
    have hid : conversation.id = id' := id_of_conversationOf (by rw [conversationOf, hfound]; rfl)
    have hreceive := conversation.receive_id packet w
    split
    · rename_i heq
      rw [heq, hid] at hreceive
      exact conversationOf_writeConversation_of_ne (hreceive ▸ hne)
    · rename_i heq
      rw [heq, hid] at hreceive
      exact conversationOf_writeConversation_of_ne (hreceive ▸ hne)

theorem encryptMessage_own {conversation : Conversation B}
    (hfound : conversationOf id library.users = some conversation) (message : List B)
    (createBackup : Bool) :
    conversationOf id (library.encryptMessage id message createBackup w).2.1.users =
        some (conversation.send message none w).2.1 ∧
      Answers createBackup (library.encryptMessage id message createBackup w).1
        (.sent (conversation.send message none w).1.toOption) := by
  obtain rfl := id_of_conversationOf hfound
  obtain ⟨⟨user, found⟩, hfirst, hsame⟩ := Option.map_eq_some_iff.mp hfound
  obtain rfl : found = conversation := hsame
  have hid := found.send_id message none w
  rw [encryptMessage, hfirst]
  simp only
  split
  · rename_i e conversation' w' heq
    rw [heq] at hid
    simp only at hid
    rw [heq, ← hid]
    rw [← hid] at hfound
    exact ⟨conversationOf_writeConversation hfound, .notSent e⟩
  · rename_i packet conversation' w' heq
    rw [heq] at hid
    simp only at hid
    rw [heq, ← hid]
    rw [← hid] at hfound
    refine ⟨conversationOf_writeConversation hfound, .sent packet _ fun hno => ?_⟩
    rw [hno]
    rfl

theorem decryptMessage_own [Platform] {conversation : Conversation B}
    (hfound : conversationOf id library.users = some conversation) (packet : List B)
    (createBackup : Bool) :
    conversationOf id (library.decryptMessage id packet createBackup w).2.1.users =
        some (conversation.receive packet w).2.1 ∧
      Answers createBackup (library.decryptMessage id packet createBackup w).1
        (.received (conversation.receive packet w).1.toOption) := by
  obtain rfl := id_of_conversationOf hfound
  obtain ⟨⟨user, found⟩, hfirst, hsame⟩ := Option.map_eq_some_iff.mp hfound
  obtain rfl : found = conversation := hsame
  have hid := found.receive_id packet w
  rw [decryptMessage, hfirst]
  simp only
  split
  · rename_i e conversation' w' heq
    rw [heq] at hid
    simp only at hid
    rw [heq, ← hid]
    rw [← hid] at hfound
    exact ⟨conversationOf_writeConversation hfound, .notReceived e⟩
  · rename_i message conversation' w' heq
    rw [heq] at hid
    simp only at hid
    rw [heq, ← hid]
    rw [← hid] at hfound
    refine ⟨conversationOf_writeConversation hfound, .received message _ fun hno => ?_⟩
    rw [hno]
    rfl

end Calls

section Runs

variable [Platform] {id : ConversationId B}

theorem conversationOf_call {state : Library B × World B} {c : Call B} (h : Spares id state c)
    (hcalls : conversationCalls id state c = []) :
    conversationOf id (call state c).2.1.users = conversationOf id state.1.users := by
  obtain ⟨library, w⟩ := state
  cases c with
  | createUser createBackup randomSpice => exact conversationOf_createUser h
  | destroyUser userId createBackup => exact conversationOf_remove h
  | userCount => rfl
  | destroyAllUsers => exact h.elim
  | listUsers => rfl
  | getMessageType packet => rfl
  | startSendConversation senderId receiverId prekeyList message createBackup =>
      exact conversationOf_startSendConversation h
  | startReceiveConversation receiverId senderId packet createBackup =>
      exact conversationOf_startReceiveConversation h
  | encryptMessage id' message createBackup =>
      rw [conversationCalls, ite_eq_right_iff] at hcalls
      exact conversationOf_encryptMessage_of_ne (fun heq => List.cons_ne_nil _ _ (hcalls heq)) _ _
  | decryptMessage id' packet createBackup =>
      rw [conversationCalls, ite_eq_right_iff] at hcalls
      exact conversationOf_decryptMessage_of_ne (fun heq => List.cons_ne_nil _ _ (hcalls heq)) _ _
  | endConversation id' createBackup => exact conversationOf_endConversation h createBackup
  | listConversations userId => rfl
  | exportConversation id' => rfl
  | importConversation backup backupKey => exact conversationOf_importConversation h
  | exportAll => rfl
  | importAll backup backupKey => exact conversationOf_importAll h
  | getPrekeyList userId =>
      have hlist := conversationOf_createPrekeyList id library userId w
      rw [call]
      split
      · rename_i heq
        rw [heq] at hlist
        exact hlist
      · rename_i heq
        rw [heq] at hlist
        exact hlist
  | updateBackupKey => rfl

omit [Sodium B] [ProtobufC B] [Platform] in
theorem conversationCalls_cases (id : ConversationId B) (state : Library B × World B)
    (c : Call B) : conversationCalls id state c = [] ∨ ∃ createBackup,
      (∃ message, c = .encryptMessage id message createBackup) ∨
        ∃ packet, c = .decryptMessage id packet createBackup := by
  cases c with
  | encryptMessage id' message createBackup =>
      rw [conversationCalls]
      split
      · rename_i heq
        exact .inr ⟨createBackup, .inl ⟨message, by rw [heq]⟩⟩
      · exact .inl rfl
  | decryptMessage id' packet createBackup =>
      rw [conversationCalls]
      split
      · rename_i heq
        exact .inr ⟨createBackup, .inr ⟨packet, by rw [heq]⟩⟩
      · exact .inl rfl
  | _ => exact .inl rfl

theorem call_own {state : Library B × World B} {c : Call B} {conversation : Conversation B}
    (h : Spares id state c) (hfound : conversationOf id state.1.users = some conversation) :
    conversationOf id (call state c).2.1.users = some (Runs.final Conversation.call conversation
        (conversationCalls id state c)) ∧
      ∀ outcome ∈ Runs.outputs Conversation.call conversation (conversationCalls id state c),
        Answers c.asksForBackup (call state c).1 outcome := by
  rcases conversationCalls_cases id state c with
    hnone | ⟨createBackup, ⟨message, rfl⟩ | ⟨packet, rfl⟩⟩
  · rw [conversationOf_call h hnone, hnone]
    exact ⟨hfound, fun outcome hmem => absurd hmem List.not_mem_nil⟩
  · obtain ⟨hafter, hanswers⟩ := encryptMessage_own hfound message createBackup (w := state.2)
    rw [conversationCalls, if_pos rfl]
    refine ⟨hafter, fun outcome hmem => ?_⟩
    rw [List.mem_singleton.mp hmem]
    exact hanswers
  · obtain ⟨hafter, hanswers⟩ := decryptMessage_own hfound packet createBackup (w := state.2)
    rw [conversationCalls, if_pos rfl]
    refine ⟨hafter, fun outcome hmem => ?_⟩
    rw [List.mem_singleton.mp hmem]
    exact hanswers

theorem projects_conversation (id : ConversationId B) :
    Runs.Projects call Conversation.call (Spares id)
      (fun state => conversationOf id state.1.users) (conversationCalls id)
      (fun c reply outcomes => ∀ outcome ∈ outcomes, Answers c.asksForBackup reply outcome) where
  view_step h hfound := (call_own h hfound).1
  answers_step h hfound := (call_own h hfound).2

/-- Whatever else the library is used for, a conversation goes through the run that the calls
for it make of a conversation on its own, and each of these calls is answered as that one
answers. -/
theorem conversation_isolated {state : Library B × World B} {conversation : Conversation B}
    (hfound : conversationOf id state.1.users = some conversation) {calls : List (Call B)}
    (hspares : Runs.Admitted call (Spares id) state calls) :
    conversationOf id (Runs.final call state calls).1.users =
        some (Runs.final Conversation.call conversation
          (Runs.projected call (conversationCalls id) state calls)) ∧
      ∀ before c after, calls = before ++ c :: after →
        ∀ outcome ∈ Runs.outputs Conversation.call
            (Runs.final Conversation.call conversation
              (Runs.projected call (conversationCalls id) state before))
            (conversationCalls id (Runs.final call state before) c),
          Answers c.asksForBackup (call (Runs.final call state before) c).1 outcome := by
  have h := projects_conversation id
  refine ⟨h.view_final hfound hspares, ?_⟩
  rintro before c after rfl
  exact h.answers_run hfound hspares

end Runs

end Library

namespace Symbolic

open Library UserStore

theorem exists_owner (conversation : Conversation ℕ) : ∃ user : User ℕ,
    conversationOf conversation.id [user] = some conversation := by
  obtain ⟨user, -, -, -⟩ := exists_created_user calmWorld
  refine ⟨{ user with conversations := [conversation] }, ?_⟩
  rw [conversationOf, findConversation_single rfl rfl]
  rfl

/-- A message is sent between calls that have nothing to do with the conversation. -/
theorem conversation_isolated_calm :
    ∃ (library : Library ℕ) (conversation : Conversation ℕ),
      conversationOf conversation.id library.users = some conversation ∧
      conversationOf conversation.id (Runs.final call (library, calmWorld)
        [.userCount, .encryptMessage conversation.id [1, 2, 3] false, .updateBackupKey]).1.users =
          some (conversation.send [1, 2, 3] none calmWorld).2.1 := by
  obtain ⟨session, -⟩ := exists_session
  obtain ⟨user, hfound⟩ := exists_owner (session.party .alice)
  refine ⟨⟨[user], none⟩, session.party .alice, hfound, ?_⟩
  have hspares : Runs.Admitted call (Spares (session.party .alice).id)
      (⟨[user], none⟩, calmWorld) [.userCount,
        .encryptMessage (session.party .alice).id [1, 2, 3] false, .updateBackupKey] :=
    .cons trivial (.cons trivial (.cons trivial (.nil _)))
  rw [(conversation_isolated hfound hspares).1]
  simp only [Runs.projected, conversationCalls, if_true]
  rfl

end Symbolic

end Molch
