import Molch.Foundation.Runs
import Molch.Library
import Molch.Symbolic

namespace Molch

/-- The computation does not end the process. -/
def Returns {α : Type} (x : Except Failure α) : Prop := x ≠ .error .terminate

section Returns

variable {α β : Type}

theorem returns_ok (a : α) : Returns (.ok a : Except Failure α) := by
  intro h
  cases h

theorem returns_error (e : Error) : Returns (.error (.error e) : Except Failure α) := by
  intro h
  cases h

theorem Returns.bind {x : Except Failure α} {f : α → Except Failure β} (hx : Returns x)
    (hf : ∀ a, Returns (f a)) : Returns (x >>= f) := by
  cases x with
  | error failure =>
      intro h
      cases h
      exact hx rfl
  | ok a => exact hf a

theorem Returns.mapM {f : α → Except Failure β} (hf : ∀ a, Returns (f a)) (l : List α) :
    Returns (l.mapM f) := by
  intro h
  obtain ⟨a, -, ha⟩ := Result.mem_of_mapM_eq_error h
  exact hf a ha

theorem Returns.map {x : Except Failure α} (f : α → β) (hx : Returns x) : Returns (x.map f) :=
  fun h => hx (Result.map_eq_error.mp h)

theorem returns_require (condition : Bool) (e : Error) :
    Returns (require condition (Failure.error e)) := by
  intro h
  cases condition with
  | false => cases h
  | true => cases h

theorem returns_narrowUInt64 (seconds : ℤ) : Returns (narrowUInt64 seconds) := by
  rw [narrowUInt64]
  split
  · exact returns_ok _
  · intro h
    cases h

end Returns

variable {B : Type}

section Exports

theorem returns_exportKey (key : HeaderAndMessageKey B) : Returns key.exportProtobuf :=
  (returns_narrowUInt64 _).bind fun _ => returns_ok _

theorem returns_exportPrekeys (prekeys : PrekeyStore B) : Returns prekeys.exportProtobuf := by
  have hprekey (prekey : Prekey B) : Returns prekey.exportProtobuf :=
    (returns_narrowUInt64 _).bind fun _ => returns_ok _
  exact (Returns.mapM hprekey _).bind fun _ => (Returns.mapM hprekey _).bind fun _ => returns_ok _

theorem returns_exportConversation (conversation : Conversation B) :
    Returns conversation.exportProtobuf := by
  have hkeys (store : HeaderAndMessageKeyStore B) : Returns store.exportProtobuf :=
    Returns.mapM returns_exportKey _
  refine Returns.bind ?_ fun _ => returns_ok _
  rw [Ratchet.exportProtobuf]
  -- seven checks, then the two key stores
  repeat refine (returns_require _ _).bind fun _ => ?_
  exact (hkeys _).bind fun _ => (hkeys _).bind fun _ => returns_ok _

theorem returns_exportUsers [Byte B] (users : List (User B)) : Returns (UserStore.exportProtobuf users) := by
  refine Returns.mapM (fun user => ?_) users
  refine (Returns.mapM returns_exportConversation _).bind fun _ => ?_
  exact (returns_exportPrekeys _).bind fun _ => returns_ok _

theorem returns_verifyPrekeyList [Byte B] [Sodium B] (prekeyList : List B) (publicSigningKey : PublicSigningKey B)
    (w : World B) : Returns (verifyPrekeyList prekeyList publicSigningKey w).1 := by
  rw [verifyPrekeyList]
  split
  · exact returns_error _
  · split
    · intro h
      cases h
    · simp only
      split_ifs
      · exact returns_error _
      · split
        · exact returns_error _
        · exact returns_ok _

end Exports

namespace Library

variable [Byte B] [Sodium B] [ProtobufC B]

section Terminating

variable {library : Library B}

omit [Byte B] in
theorem exportAll_eq_terminate (library : Library B) (h : library.globalBackupKey = none)
    (w : World B) : library.exportAll w = (.error .terminate, w) := by
  rw [exportAll, h]

theorem returns_exportAll (h : library.globalBackupKey ≠ none) (w : World B) :
    Returns (library.exportAll w).1 := by
  rw [exportAll]
  cases hkey : library.globalBackupKey with
  | none => exact absurd hkey h
  | some backupKey =>
      have hexport := returns_exportUsers library.users
      cases husers : UserStore.exportProtobuf library.users with
      | error failure =>
          rw [husers] at hexport
          intro hterminate
          cases hterminate
          exact hexport rfl
      | ok users => exact returns_ok _

theorem returns_exportIf (h : library.globalBackupKey ≠ none) (createBackup : Bool)
    (w : World B) : Returns (library.exportIf createBackup w).1 := by
  rw [exportIf]
  split
  · exact (returns_exportAll h w).map some
  · exact returns_ok _

theorem exportAll_terminates_iff (library : Library B) (w : World B) :
    (library.exportAll w).1 = .error .terminate ↔ library.globalBackupKey = none := by
  constructor
  · intro hterminate
    by_contra hkey
    exact returns_exportAll hkey w hterminate
  · intro hkey
    rw [exportAll_eq_terminate library hkey]

theorem exportIf_terminates_iff (library : Library B) (createBackup : Bool) (w : World B) :
    (library.exportIf createBackup w).1 = .error .terminate ↔
      library.globalBackupKey = none ∧ createBackup = true := by
  rw [exportIf]
  cases createBackup with
  | false => exact iff_of_false (returns_ok _) fun hand => Bool.false_ne_true hand.2
  | true =>
      refine Result.map_eq_error.trans ((library.exportAll_terminates_iff w).trans ?_)
      exact (and_iff_left rfl).symm

theorem returns_exportConversationIf (library : Library B) (createBackup : Bool)
    (id : ConversationId B) (w : World B) :
    Returns (library.exportConversation id w).1 ∧
      Returns (library.exportConversationIf createBackup id w).1 := by
  have hexport : Returns (library.exportConversation id w).1 := by
    rw [exportConversation]
    split
    · exact returns_error _
    · split
      · exact returns_error _
      · rename_i conversation hfound
        have hconversation := returns_exportConversation conversation
        split
        · rename_i failure hfailure
          rw [hfailure] at hconversation
          intro h
          cases h
          exact hconversation rfl
        · exact returns_ok _
  refine ⟨hexport, ?_⟩
  rw [exportConversationIf]
  split
  · exact hexport.map some
  · exact returns_ok _

end Terminating

/-- Whenever there is a user there is a backup key. -/
def KeyForUsers (library : Library B) : Prop :=
  library.users ≠ [] → library.globalBackupKey ≠ none

/-- What most calls do to the key: they return, they keep it, and they make no user. -/
structure KeepsKey (library : Library B)
    (result : Except Failure (Reply B) × Library B × World B) : Prop where
  returns : Returns result.1
  key : result.2.1.globalBackupKey = library.globalBackupKey
  users : library.users = [] → result.2.1.users = []

section Keeping

variable {library : Library B}

omit [Byte B] [Sodium B] [ProtobufC B] in
theorem keepsKey_error (library : Library B) (e : Error) (w : World B) :
    KeepsKey library (.error (.error e), library, w) where
  returns := returns_error e
  key := rfl
  users h := h

omit [Sodium B] [ProtobufC B] in
theorem users_ne_nil_of_find {userId : PublicSigningKey B} {user : User B}
    (h : UserStore.find userId library.users = some user) : library.users ≠ [] :=
  List.ne_nil_of_mem (Keyed.mem_of_find h)

omit [Sodium B] [ProtobufC B] in
theorem users_ne_nil_of_findConversation {id : ConversationId B} {user : User B}
    {conversation : Conversation B}
    (h : UserStore.findConversation id library.users = some (user, conversation)) :
    library.users ≠ [] := by
  obtain ⟨before, after, husers, -, -⟩ := UserStore.findConversation_eq_some h
  rw [husers]
  exact List.append_ne_nil_of_right_ne_nil _ (List.cons_ne_nil _ _)

omit [Byte B] [Sodium B] [ProtobufC B] in
theorem keepsKey_of_users (hne : library.users ≠ [])
    {result : Except Failure (Reply B) × Library B × World B} (hreturns : Returns result.1)
    (hkey : result.2.1.globalBackupKey = library.globalBackupKey) : KeepsKey library result where
  returns := hreturns
  key := hkey
  users hnil := absurd hnil hne

omit [ProtobufC B] in
theorem createPrekeyList_key (library : Library B) (userId : PublicSigningKey B) (w : World B) :
    (library.createPrekeyList userId w).2.1.globalBackupKey = library.globalBackupKey := by
  rw [createPrekeyList]
  split
  · rfl
  · rfl

theorem keepsKey_startSendConversation (h : library.KeyForUsers)
    (senderId receiverId : PublicSigningKey B) (prekeyList message : List B)
    (createBackup : Bool) (w : World B) :
    KeepsKey library (library.startSendConversation senderId receiverId prekeyList message
      createBackup w) := by
  rw [startSendConversation]
  split
  · exact keepsKey_error library _ w
  · cases hfound : UserStore.find senderId library.users with
    | none => exact keepsKey_error library _ w
    | some user =>
        have hne := users_ne_nil_of_find hfound
        have hverify := returns_verifyPrekeyList prekeyList receiverId w
        simp only
        split
        · rename_i heq
          rw [heq] at hverify
          refine keepsKey_of_users hne ?_ rfl
          intro hterminate
          cases hterminate
          exact hverify rfl
        · split
          · exact keepsKey_error library _ _
          · refine keepsKey_of_users hne ((returns_exportIf ?_ createBackup _).map _) rfl
            exact h hne

theorem keepsKey_endConversation (h : library.KeyForUsers) (id : ConversationId B)
    (createBackup : Bool) (w : World B) :
    KeepsKey library (library.endConversation id createBackup w) := by
  rw [endConversation]
  cases hfound : UserStore.findConversation id library.users with
  | none => exact keepsKey_error library _ w
  | some found =>
      have hne := users_ne_nil_of_findConversation hfound
      refine keepsKey_of_users hne ((returns_exportIf ?_ createBackup _).map _) rfl
      exact h hne

theorem keepsKey_encryptMessage (library : Library B) (id : ConversationId B)
    (message : List B) (createBackup : Bool) (w : World B) :
    KeepsKey library (library.encryptMessage id message createBackup w) := by
  rw [encryptMessage]
  cases hfound : UserStore.findConversation id library.users with
  | none => exact keepsKey_error library _ w
  | some found =>
      have hne := users_ne_nil_of_findConversation hfound
      simp only
      split
      · exact keepsKey_of_users hne (returns_error _) rfl
      · exact keepsKey_of_users hne
          ((returns_exportConversationIf _ createBackup id _).2.map _) rfl

variable [Platform]

theorem keepsKey_decryptMessage (library : Library B) (id : ConversationId B)
    (packet : List B) (createBackup : Bool) (w : World B) :
    KeepsKey library (library.decryptMessage id packet createBackup w) := by
  rw [decryptMessage]
  cases hfound : UserStore.findConversation id library.users with
  | none => exact keepsKey_error library _ w
  | some found =>
      have hne := users_ne_nil_of_findConversation hfound
      simp only
      split
      · exact keepsKey_of_users hne (returns_error _) rfl
      · exact keepsKey_of_users hne
          ((returns_exportConversationIf _ createBackup id _).2.map _) rfl

theorem keepsKey_getPrekeyList (library : Library B) (userId : PublicSigningKey B)
    (w : World B) : KeepsKey library (call (library, w) (.getPrekeyList userId)) := by
  have hkey := library.createPrekeyList_key userId w
  have husers : library.users = [] → (library.createPrekeyList userId w).2.1.users = [] := by
    intro hnil
    rw [createPrekeyList, hnil]
    exact hnil
  simp only [call]
  split
  · rename_i heq
    rw [heq] at hkey husers
    exact ⟨returns_error _, hkey, husers⟩
  · rename_i heq
    rw [heq] at hkey husers
    exact ⟨returns_ok _, hkey, husers⟩

theorem keepsKey_startReceiveConversation (h : library.KeyForUsers)
    (receiverId : PublicSigningKey B) (packet : List B) (createBackup : Bool) (w : World B) :
    KeepsKey library (library.startReceiveConversation receiverId packet createBackup w) := by
  rw [startReceiveConversation]
  cases hfound : UserStore.find receiverId library.users with
  | none => exact keepsKey_error library _ w
  | some user =>
      have hne := users_ne_nil_of_find hfound
      simp only
      split
      · exact keepsKey_of_users hne (returns_error _) rfl
      · split
        · rename_i heq
          refine keepsKey_of_users hne (returns_error _) ?_
          exact (congrArg (fun result => result.2.1.globalBackupKey) heq).symm.trans
            (createPrekeyList_key _ _ _)
        · rename_i heq
          have hkey := (congrArg (fun result => result.2.1.globalBackupKey) heq).symm.trans
            (createPrekeyList_key _ _ _)
          refine keepsKey_of_users hne ((returns_exportIf ?_ createBackup _).map _) hkey
          simp only at hkey ⊢
          rw [hkey]
          exact h hne

end Keeping

/-- The calls that get to `export_all` in a library without users. -/
def Call.EndsWithoutKey : Call B → Prop
  | .exportAll => True
  | .destroyUser _ createBackup => createBackup = true
  | _ => False

/-- The calls that ask for a backup even then; `create_user` has made a key by that time, and
the others find no user first. -/
def Call.AsksForBackup : Call B → Prop
  | .exportAll => True
  | .destroyUser _ createBackup => createBackup = true
  | .exportConversation _ => True
  | _ => False

theorem returns_createUser (library : Library B) (createBackup : Bool)
    (randomSpice : Option (List B)) (w : World B) :
    Returns (library.createUser createBackup randomSpice w).1 ∧
      (library.createUser createBackup randomSpice w).2.1.globalBackupKey =
        some (w.random 0 32) := by
  rw [createUser]
  simp only [updateBackupKey, World.randombytesBuf]
  split
  · exact ⟨returns_error _, rfl⟩
  · rename_i user w' _
    have hkey := createPrekeyList_key (B := B)
      ⟨UserStore.add user library.users, some (w.random 0 32)⟩ user.publicSigningKey w'
    split
    · rename_i heq
      rw [heq] at hkey
      exact ⟨returns_error _, hkey⟩
    · rename_i library' w'' heq
      rw [heq] at hkey
      have hne : library'.globalBackupKey ≠ none := by
        rw [hkey]
        exact Option.some_ne_none _
      have hexport := returns_exportIf hne createBackup w''
      split
      · rename_i hfailure
        rw [hfailure] at hexport
        refine ⟨?_, hkey⟩
        intro hterminate
        cases hterminate
        exact hexport rfl
      · exact ⟨returns_ok _, hkey⟩

omit [Byte B] [Sodium B] [ProtobufC B] in
theorem KeepsKey.keyForUsers {library : Library B}
    {result : Except Failure (Reply B) × Library B × World B} (h : KeepsKey library result)
    (hkey : library.KeyForUsers) : result.2.1.KeyForUsers := by
  intro hne
  rw [h.key]
  exact hkey fun hnil => hne (h.users hnil)

variable [Platform]

theorem keyForUsers_call {state : Library B × World B} (h : state.1.KeyForUsers) (c : Call B) :
    (call state c).2.1.KeyForUsers ∧
      ((call state c).1 = .error .terminate ↔
        state.1.globalBackupKey = none ∧ c.EndsWithoutKey) := by
  have hkeeps {result : Except Failure (Reply B) × Library B × World B} {p : Prop}
      (hkeepsKey : KeepsKey state.1 result) (hp : ¬ p) :
      result.2.1.KeyForUsers ∧ (result.1 = .error .terminate ↔ state.1.globalBackupKey = none ∧ p) :=
    ⟨hkeepsKey.keyForUsers h, iff_of_false hkeepsKey.returns fun hand => hp hand.2⟩
  cases c with
  | createUser createBackup randomSpice =>
      obtain ⟨hreturns, hkey⟩ := state.1.returns_createUser createBackup randomSpice state.2
      refine ⟨fun _ hnone => ?_, iff_of_false hreturns fun hand => hand.2⟩
      cases hnone.symm.trans hkey
  | destroyUser userId createBackup =>
      refine ⟨fun hne => h fun hnil => hne ?_, ?_⟩
      · simp only [call, destroyUser, hnil]
        rfl
      · exact Result.map_eq_error.trans (exportIf_terminates_iff _ createBackup state.2)
  | userCount => exact hkeeps ⟨returns_ok _, rfl, id⟩ id
  | destroyAllUsers => exact hkeeps ⟨returns_ok _, rfl, fun _ => rfl⟩ id
  | listUsers => exact hkeeps ⟨returns_ok _, rfl, id⟩ id
  | getMessageType packet => exact hkeeps ⟨returns_ok _, rfl, id⟩ id
  | startSendConversation senderId receiverId prekeyList message createBackup =>
      exact hkeeps (keepsKey_startSendConversation h senderId receiverId prekeyList message
        createBackup state.2) id
  | startReceiveConversation receiverId senderId packet createBackup =>
      exact hkeeps (keepsKey_startReceiveConversation h receiverId packet createBackup state.2) id
  | encryptMessage id message createBackup =>
      exact hkeeps (state.1.keepsKey_encryptMessage id message createBackup state.2) fun h => h
  | decryptMessage id packet createBackup =>
      exact hkeeps (state.1.keepsKey_decryptMessage id packet createBackup state.2) fun h => h
  | endConversation id createBackup =>
      exact hkeeps (keepsKey_endConversation h id createBackup state.2) fun h => h
  | listConversations userId =>
      refine hkeeps ⟨?_, rfl, id⟩ id
      simp only [call, listConversations]
      split
      · exact returns_error _
      · split
        · exact returns_error _
        · exact returns_ok _
  | exportConversation id =>
      exact hkeeps ⟨(returns_exportConversationIf state.1 true id state.2).1.map _, rfl,
        fun h => h⟩ fun h => h
  | importConversation backup backupKey =>
      simp only [call, importConversation]
      split
      · exact hkeeps (keepsKey_error _ _ _) id
      · exact ⟨fun _ => Option.some_ne_none _, iff_of_false (returns_ok _) fun hand => hand.2⟩
  | exportAll =>
      refine ⟨h, Result.map_eq_error.trans ?_⟩
      exact (state.1.exportAll_terminates_iff state.2).trans (and_iff_left trivial).symm
  | importAll backup backupKey =>
      simp only [call, importAll]
      split
      · exact hkeeps (keepsKey_error _ _ _) id
      · exact ⟨fun _ => Option.some_ne_none _, iff_of_false (returns_ok _) fun hand => hand.2⟩
  | getPrekeyList userId => exact hkeeps (state.1.keepsKey_getPrekeyList userId state.2) id
  | updateBackupKey =>
      exact ⟨fun _ => Option.some_ne_none _, iff_of_false (returns_ok _) fun hand => hand.2⟩

theorem keyForUsers_final (w : World B) (calls : List (Call B)) :
    (Runs.final call (loaded, w) calls).1.KeyForUsers := by
  have hstart : (loaded : Library B).KeyForUsers := fun hne => absurd rfl hne
  have hrun (state : Library B × World B) (hstate : state.1.KeyForUsers) :
      (Runs.final call state calls).1.KeyForUsers := by
    induction calls generalizing state with
    | nil => exact hstate
    | cons c calls ih => exact ih _ (keyForUsers_call hstate c).1
  exact hrun (loaded, w) hstart

/-- What the interface promises about the key along a run. -/
structure NeverAborts (start : Library B × World B) (calls : List (Call B)) : Prop where
  returns : ∀ before c after, calls = before ++ c :: after →
    Returns (call (Runs.final call start before) c).1
  missingKey : ∀ before c after, calls = before ++ c :: after →
    (Runs.final call start before).1.globalBackupKey = none → c.AsksForBackup →
    (call (Runs.final call start before) c).1 =
      .error (.error ⟨.incorrectData, "No backup key found."⟩)
  keyForUsers : ∀ before after, calls = before ++ after →
    (Runs.final call start before).1.KeyForUsers

/-- The process ends exactly in the runs that ask for a full backup without a key. -/
theorem never_aborts_iff (w : World B) (calls : List (Call B)) :
    NeverAborts (loaded, w) calls ↔
      Runs.Admitted call (fun state c => state.1.globalBackupKey = none → ¬ c.EndsWithoutKey)
        (loaded, w) calls := by
  constructor
  · intro h before c after hcalls hkey hends
    have hstep := keyForUsers_call (keyForUsers_final w before) c
    exact h.returns before c after hcalls (hstep.2.mpr ⟨hkey, hends⟩)
  · intro h
    refine ⟨?_, ?_, fun before _ _ => keyForUsers_final w before⟩
    · intro before c after hcalls hterminate
      have hstep := keyForUsers_call (keyForUsers_final w before) c
      obtain ⟨hkey, hends⟩ := hstep.2.mp hterminate
      exact h before c after hcalls hkey hends
    · intro before c after hcalls hkey hasks
      have hnot := h before c after hcalls hkey
      cases c with
      | exportAll => exact absurd trivial hnot
      | destroyUser userId createBackup => exact absurd hasks hnot
      | exportConversation id =>
          rw [call, exportConversation, hkey]
          rfl
      | _ => cases hasks

end Library

namespace Symbolic

open Library

/-- The first call of all is `molch_export`. -/
theorem export_without_key_terminates :
    ¬ NeverAborts (loaded, world) [.exportAll] := by
  intro h
  exact h.returns [] .exportAll [] rfl rfl

end Symbolic

end Molch
