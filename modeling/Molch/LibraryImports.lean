import Molch.Library

namespace Molch

namespace Library

variable {B : Type} [Byte B] [Sodium B] [ProtobufC B]

theorem readConversation_eq_ok {library : Library B} {backup : List B} {backupKey : BackupKey B}
    {conversation : Conversation B} (h : library.readConversation backup backupKey =
      .ok conversation) :
    ∃ content exported user old, openConversationBackup backup backupKey = .ok content ∧
      ProtobufC.conversationUnpack content = some exported ∧
      Conversation.import_ exported = .ok conversation ∧
      UserStore.findConversation conversation.id library.users = some (user, old) := by
  obtain ⟨content, hcontent, h⟩ := Result.bind_eq_ok.mp h
  cases hunpack : ProtobufC.conversationUnpack content with
  | none =>
      rw [hunpack] at h
      cases h
  | some exported =>
      rw [hunpack] at h
      obtain ⟨id, hid, h⟩ := Result.bind_eq_ok.mp h
      cases hfound : UserStore.findConversation id library.users with
      | none =>
          rw [hfound] at h
          cases h
      | some found =>
          rw [hfound] at h
          obtain ⟨id', hid', himport⟩ := Result.bind_eq_ok.mp h
          obtain ⟨ratchet, -, hpure⟩ := Result.bind_eq_ok.mp himport
          cases hid.symm.trans hid'
          cases hpure
          exact ⟨content, exported, found.1, found.2, hcontent, hunpack, h, hfound⟩

/-- The conversation takes the place of the one with its id, and nothing else changes. -/
def Replaces (library : Library B) (conversation : Conversation B) (library' : Library B) :
    Prop :=
  ∃ before user after earlier old later,
    library.users = before ++ user :: after ∧
    user.conversations = earlier ++ old :: later ∧ old.id = conversation.id ∧
    (∀ other ∈ before, ∀ c ∈ other.conversations, c.id ≠ conversation.id) ∧
    (∀ c ∈ earlier, c.id ≠ conversation.id) ∧
    library'.users = before ++
      { user with conversations := earlier ++ conversation :: later } :: after

omit [Sodium B] [ProtobufC B] in
theorem replaces_writeConversation {library : Library B} {conversation old : Conversation B}
    {user : User B}
    (hfound : UserStore.findConversation conversation.id library.users = some (user, old)) :
    Replaces library conversation (library.writeConversation conversation) := by
  obtain ⟨before, after, husers, hfind, hbefore⟩ := UserStore.findConversation_eq_some hfound
  obtain ⟨earlier, later, hconversations, hold, hearlier⟩ := Keyed.find_eq_some_iff.mp hfind
  refine ⟨before, user, after, earlier, old, later, husers, hconversations, hold, ?_, hearlier, ?_⟩
  · intro other hother
    exact Keyed.find_eq_none_iff.mp (hbefore other hother)
  · rw [writeConversation, husers, UserStore.modifyContaining_append hfind hbefore,
      hconversations, ConversationStore.add, Keyed.add_append hold hearlier]

variable [Platform]

/-- A failed import leaves the library as it is; an imported conversation replaces one. -/
theorem imports_all_or_nothing (library : Library B) (backup : List B)
    (backupKey : BackupKey B) (w : World B) :
    (∀ failure, (call (library, w) (.importAll backup backupKey)).1 = .error failure →
      (call (library, w) (.importAll backup backupKey)).2.1 = library) ∧
    (∀ failure, (call (library, w) (.importConversation backup backupKey)).1 = .error failure →
      (call (library, w) (.importConversation backup backupKey)).2.1 = library) ∧
    (∀ reply, (call (library, w) (.importConversation backup backupKey)).1 = .ok reply →
      ∃ content exported conversation, openConversationBackup backup backupKey = .ok content ∧
        ProtobufC.conversationUnpack content = some exported ∧
        Conversation.import_ exported = .ok conversation ∧
        Replaces library conversation
          (call (library, w) (.importConversation backup backupKey)).2.1) := by
  refine ⟨?_, ?_, ?_⟩
  · intro failure hfailed
    simp only [call, importAll] at hfailed ⊢
    cases hread : readUsers backup backupKey with
    | error e => rfl
    | ok users =>
        rw [hread] at hfailed
        cases hfailed
  · intro failure hfailed
    simp only [call, importConversation] at hfailed ⊢
    cases hread : library.readConversation backup backupKey with
    | error e => rfl
    | ok conversation =>
        rw [hread] at hfailed
        cases hfailed
  · intro reply hreply
    simp only [call, importConversation] at hreply ⊢
    cases hread : library.readConversation backup backupKey with
    | error e =>
        rw [hread] at hreply
        cases hreply
    | ok conversation =>
        obtain ⟨content, exported, user, old, hcontent, hunpack, himport, hfound⟩ :=
          readConversation_eq_ok hread
        exact ⟨content, exported, conversation, hcontent, hunpack, himport,
          replaces_writeConversation hfound⟩

end Library

end Molch
