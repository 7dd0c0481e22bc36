import Molch.ConversationSetup
import Molch.Foundation.Keyed
import Molch.MasterKeys
import Molch.RatchetBackup

namespace Molch

/-- `User`. The id of the user is kept beside the master keys. -/
structure User (B : Type) where
  publicSigningKey : PublicSigningKey B
  masterKeys : MasterKeys B
  prekeys : PrekeyStore B
  conversations : List (Conversation B)

variable {B : Type}

namespace ConversationStore

def find [DecidableEq B] (id : ConversationId B) (conversations : List (Conversation B)) :
    Option (Conversation B) :=
  Keyed.find Conversation.id id conversations

def add [DecidableEq B] (conversation : Conversation B) (conversations : List (Conversation B)) :
    List (Conversation B) :=
  Keyed.add Conversation.id conversation conversations

def remove [DecidableEq B] (id : ConversationId B) (conversations : List (Conversation B)) :
    List (Conversation B) :=
  Keyed.remove Conversation.id id conversations

/-- `ConversationStore::list`: the ids one after the other. -/
def list (conversations : List (Conversation B)) : List B :=
  (conversations.map fun conversation => conversation.id.bytes).flatten

variable [Byte B]

def import_ (conversations : List (ProtobufCConversation B)) :
    Except Error (List (Conversation B)) :=
  conversations.mapM Conversation.import_

def exportProtobuf (conversations : List (Conversation B)) :
    Except Failure (List (ProtobufCConversation B)) :=
  conversations.mapM Conversation.exportProtobuf

end ConversationStore

namespace User

variable [Byte B]

def exportProtobuf (user : User B) : Except Failure (ProtobufCUser B) := do
  let conversations ← ConversationStore.exportProtobuf user.conversations
  let (prekeys, deprecatedPrekeys) ← user.prekeys.exportProtobuf
  pure
    { privateSigningKey := some user.masterKeys.privateSigningKey.bytes
      publicSigningKey := some user.masterKeys.publicSigningKey.bytes
      privateIdentityKey := some user.masterKeys.privateIdentityKey.bytes
      publicIdentityKey := some user.masterKeys.publicIdentityKey.bytes
      conversations := conversations
      prekeys := prekeys
      deprecatedPrekeys := deprecatedPrekeys }

variable [Sodium B]

def create (seed : Option (List B)) (w : World B) : Except Error (User B) × World B :=
  match MasterKeys.create seed w with
  | (.error e, w) => (.error e, w)
  | (.ok masterKeys, w) =>
      match PrekeyStore.create w with
      | (prekeys, w) => (.ok ⟨masterKeys.publicSigningKey, masterKeys, prekeys, []⟩, w)

def import_ (user : ProtobufCUser B) : Except Error (User B) :=
  match user.publicSigningKey, user.privateSigningKey, user.publicIdentityKey,
      user.privateIdentityKey with
  | some publicSigningKey, some privateSigningKey, some publicIdentityKey,
      some privateIdentityKey => do
      let masterKeys ← MasterKeys.import_ publicSigningKey privateSigningKey publicIdentityKey
        privateIdentityKey
      let publicSigningKey ← Key.fromSpan publicSigningKey
      let conversations ← ConversationStore.import_ user.conversations
      let prekeys ← PrekeyStore.import_ user.prekeys user.deprecatedPrekeys
      pure ⟨publicSigningKey, masterKeys, prekeys, conversations⟩
  | _, _, _, _ => .error ⟨.protobufMissingError, "Missing keys."⟩

/-- What `create_prekey_list` signs: the identity, the public prekeys and the date on which
the list expires. -/
def unsignedPrekeyList (user : User B) (expirationDate : ℤ) : List B :=
  user.masterKeys.publicIdentityKey.bytes ++ user.prekeys.list ++
    toBigEndian 8 (expirationDate % 2 ^ 64).toNat

/-- `create_prekey_list` for a user that has been found. The prekeys are rotated first. -/
def createPrekeyList (user : User B) (w : World B) : List B × User B × World B :=
  match user.prekeys.rotate w with
  | (prekeys, w) =>
      let user := { user with prekeys := prekeys }
      match w.now with
      | (time, w) =>
          (user.masterKeys.sign (user.unsignedPrekeyList (time + 3 * month)), user, w)

end User

/-- `int64_t` in big endian. -/
def int64OfBigEndian [Byte B] (bytes : List B) : ℤ :=
  if fromBigEndian bytes < 2 ^ 63 then fromBigEndian bytes
  else (fromBigEndian bytes : ℤ) - 2 ^ 64

/-- `verify_prekey_list`. A list that is too short for its expiration date violates the
precondition of `subspan`, which throws. -/
def verifyPrekeyList [Byte B] [Sodium B] (prekeyList : List B)
    (publicSigningKey : PublicSigningKey B) (w : World B) :
    Except Failure (PublicKey B) × World B :=
  match cryptoSignOpen prekeyList publicSigningKey with
  | .error e => (.error (.error e), w)
  | .ok verified =>
      if verified.length < 32 + 32 * prekeyAmount + 8 then
        (.error (.exception "GSL: Precondition failure"), w)
      else
        match w.now with
        | (currentTime, w) =>
            if int64OfBigEndian ((verified.drop (32 + 32 * prekeyAmount)).take 8) <
                currentTime then
              (.error (.error ⟨.outdated, "Prekey list has expired (older than 3 months)."⟩), w)
            else
              match Key.fromSpan (verified.take 32) with
              | .error e => (.error (.error e), w)
              | .ok publicIdentityKey => (.ok publicIdentityKey, w)

namespace UserStore

section Search

variable [DecidableEq B]

def find (publicSigningKey : PublicSigningKey B) (users : List (User B)) : Option (User B) :=
  Keyed.find User.publicSigningKey publicSigningKey users

def add (user : User B) (users : List (User B)) : List (User B) :=
  Keyed.add User.publicSigningKey user users

/-- A user is changed through the pointer that `find` returns. -/
def modify (publicSigningKey : PublicSigningKey B) (change : User B → User B)
    (users : List (User B)) : List (User B) :=
  Keyed.modify User.publicSigningKey publicSigningKey change users

def remove (publicSigningKey : PublicSigningKey B) (users : List (User B)) : List (User B) :=
  Keyed.remove User.publicSigningKey publicSigningKey users

/-- `UserStore::findConversation`: the first user that has the conversation, and it. -/
def findConversation (id : ConversationId B) : List (User B) → Option (User B × Conversation B)
  | [] => none
  | user :: users =>
      match ConversationStore.find id user.conversations with
      | some conversation => some (user, conversation)
      | none => findConversation id users

/-- The first user that has the conversation is changed in its place. -/
def modifyContaining (id : ConversationId B) (change : User B → User B) :
    List (User B) → List (User B)
  | [] => []
  | user :: users =>
      match ConversationStore.find id user.conversations with
      | some _ => change user :: users
      | none => user :: modifyContaining id change users

end Search

/-- `UserStore::list`: the public signing keys one after the other. -/
def list (users : List (User B)) : List B :=
  (users.map fun user => user.publicSigningKey.bytes).flatten

variable [Byte B]

def exportProtobuf (users : List (User B)) : Except Failure (List (ProtobufCUser B)) :=
  users.mapM User.exportProtobuf

def import_ [Sodium B] (users : List (ProtobufCUser B)) : Except Error (List (User B)) := do
  let imported ← users.mapM User.import_
  pure (imported.foldl (fun users user => add user users) [])

end UserStore

namespace UserStore

variable [DecidableEq B] {id : ConversationId B} {users : List (User B)}

theorem findConversation_eq_some {user : User B} {conversation : Conversation B}
    (h : findConversation id users = some (user, conversation)) :
    ∃ before after, users = before ++ user :: after ∧
      ConversationStore.find id user.conversations = some conversation ∧
      ∀ other ∈ before, ConversationStore.find id other.conversations = none := by
  induction users with
  | nil => cases h
  | cons first users ih =>
      rw [findConversation] at h
      cases hfirst : ConversationStore.find id first.conversations with
      | some found =>
          rw [hfirst] at h
          cases h
          exact ⟨[], users, rfl, hfirst, fun _ hmem => absurd hmem List.not_mem_nil⟩
      | none =>
          rw [hfirst] at h
          obtain ⟨before, after, rfl, hfound, hbefore⟩ := ih h
          refine ⟨first :: before, after, rfl, hfound, ?_⟩
          intro other hother
          rcases List.mem_cons.mp hother with rfl | hother
          · exact hfirst
          · exact hbefore other hother

theorem findConversation_single {user : User B} {conversation : Conversation B}
    (husers : users = [user]) (hconversations : user.conversations = [conversation]) :
    findConversation conversation.id users = some (user, conversation) := by
  simp [husers, findConversation, hconversations, ConversationStore.find, Keyed.find]

theorem modifyContaining_of_none (change : User B → User B)
    (h : findConversation id users = none) : modifyContaining id change users = users := by
  induction users with
  | nil => rfl
  | cons user users ih =>
      rw [findConversation] at h
      rw [modifyContaining]
      split at h
      · cases h
      · simp only [ih h]

theorem modifyContaining_append {change : User B → User B} {before after : List (User B)}
    {user : User B} {conversation : Conversation B}
    (hfound : ConversationStore.find id user.conversations = some conversation)
    (hbefore : ∀ other ∈ before, ConversationStore.find id other.conversations = none) :
    modifyContaining id change (before ++ user :: after) = before ++ change user :: after := by
  induction before with
  | nil =>
      rw [List.nil_append, modifyContaining, hfound]
      rfl
  | cons first before ih =>
      rw [List.cons_append, modifyContaining, hbefore first List.mem_cons_self]
      simp only [ih fun other hother => hbefore other (List.mem_cons_of_mem _ hother)]
      rfl

end UserStore

end Molch
