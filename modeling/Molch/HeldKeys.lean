import Molch.BackupKeys
import Molch.FullBackup

namespace Molch

variable {B : Type}

def Reply.backupKey : Reply B → Option (BackupKey B)
  | .createdUser _ _ backupKey _ => some backupKey
  | .importedConversation newBackupKey => some newBackupKey
  | .imported newBackupKey => some newBackupKey
  | .updatedBackupKey newKey => some newKey
  | _ => none

def Reply.backup : Reply B → Option (List B)
  | .createdUser _ _ _ backup => backup
  | .destroyedUser backup => backup
  | .startedSendConversation _ _ backup => backup
  | .startedReceiveConversation _ _ _ backup => backup
  | .encryptedMessage _ conversationBackup => conversationBackup
  | .decryptedMessage _ _ _ conversationBackup => conversationBackup
  | .endedConversation backup => backup
  | .exportedConversation backup => some backup
  | .exported backup => some backup
  | _ => none

namespace Library

/-- A call that fails gives no key to the caller. -/
def handedOut : Except Failure (Reply B) → Option (BackupKey B)
  | .ok reply => reply.backupKey
  | .error _ => none

def returnedBackup : Except Failure (Reply B) → Option (List B)
  | .ok reply => reply.backup
  | .error _ => none

variable [ProtobufC B] [Sodium B]

/-- The caller can decrypt the backup, whichever kind it is. -/
def Opens (backupKey : BackupKey B) (backup : List B) : Prop :=
  ∃ content, openFullBackup backup backupKey = .ok content ∨
    openConversationBackup backup backupKey = .ok content

/-- The key changes only to one that is given to the caller, and a backup opens with the key
in use after the call. -/
structure Accounts (library : Library B) (result : Except Failure (Reply B) × Library B × World B) :
    Prop where
  key : result.2.1.globalBackupKey = (handedOut result.1).or library.globalBackupKey
  backup : ∀ backup, returnedBackup result.1 = some backup →
    ∃ backupKey, result.2.1.globalBackupKey = some backupKey ∧ Opens backupKey backup

section Accounts

variable {library library' : Library B} {w : World B}

theorem accounts_error (hkey : library'.globalBackupKey = library.globalBackupKey)
    (failure : Failure) (w : World B) : Accounts library (.error failure, library', w) where
  key := hkey
  backup _ h := by cases h

theorem accounts_silent (hkey : library'.globalBackupKey = library.globalBackupKey)
    (reply : Reply B) (hsilent : reply.backupKey = none) (hnone : reply.backup = none)
    (w : World B) : Accounts library (.ok reply, library', w) where
  key := by
    rw [handedOut, hsilent]
    exact hkey
  backup backup h := by
    rw [returnedBackup, hnone] at h
    cases h

theorem accounts_newKey {reply : Reply B} {backupKey : BackupKey B}
    (hkey : library'.globalBackupKey = some backupKey) (hreply : reply.backupKey = some backupKey)
    (hnone : reply.backup = none) (w : World B) : Accounts library (.ok reply, library', w) where
  key := by
    rw [handedOut, hreply]
    exact hkey
  backup backup h := by
    rw [returnedBackup, hnone] at h
    cases h

theorem opens_of_exportAll (hproto : ProtobufRoundTrip B) (hbox : SecretboxRoundTrip B)
    {backup : List B} (h : (library.exportAll w).1 = .ok backup) :
    ∃ backupKey, library.globalBackupKey = some backupKey ∧ Opens backupKey backup := by
  obtain ⟨backupKey, users, hkey, -, rfl⟩ := exists_of_exportAll h
  exact ⟨backupKey, hkey, _, .inl (openBackup_own hproto hbox)⟩

theorem opens_of_exportIf (hproto : ProtobufRoundTrip B) (hbox : SecretboxRoundTrip B)
    {createBackup : Bool} (answer : Option (List B)) (backup : List B)
    (h : (library.exportIf createBackup w).1 = .ok answer) (hbackup : answer = some backup) :
    ∃ backupKey, library.globalBackupKey = some backupKey ∧ Opens backupKey backup := by
  subst hbackup
  rw [exportIf] at h
  split at h
  · obtain ⟨exported, hexported, heq⟩ := Result.map_eq_ok.mp h
    cases heq
    exact opens_of_exportAll hproto hbox hexported
  · cases h

variable [Byte B]

theorem opens_of_exportConversation (hproto : ProtobufRoundTrip B) (hbox : SecretboxRoundTrip B)
    {id : ConversationId B} {backup : List B}
    (h : (library.exportConversation id w).1 = .ok backup) :
    ∃ backupKey, library.globalBackupKey = some backupKey ∧ Opens backupKey backup := by
  obtain ⟨backupKey, _, _, _, hkey, -, -, rfl⟩ := exists_of_exportConversation h
  exact ⟨backupKey, hkey, _, .inr (openBackup_own hproto hbox)⟩

theorem opens_of_exportConversationIf (hproto : ProtobufRoundTrip B)
    (hbox : SecretboxRoundTrip B) {createBackup : Bool} {id : ConversationId B}
    (answer : Option (List B)) (backup : List B)
    (h : (library.exportConversationIf createBackup id w).1 = .ok answer)
    (hbackup : answer = some backup) :
    ∃ backupKey, library.globalBackupKey = some backupKey ∧ Opens backupKey backup := by
  subst hbackup
  rw [exportConversationIf] at h
  split at h
  · obtain ⟨exported, hexported, heq⟩ := Result.map_eq_ok.mp h
    cases heq
    exact opens_of_exportConversation hproto hbox hexported
  · cases h

omit [Byte B] in
theorem accounts_map {α : Type} {result : Except Failure (Reply B) × Library B × World B}
    {answer : Except Failure α} {reply : α → Reply B} (hresult : result.1 = answer.map reply)
    (hkey : result.2.1.globalBackupKey = library.globalBackupKey)
    (hsilent : ∀ a, (reply a).backupKey = none)
    (hopens : ∀ a backup, answer = .ok a → (reply a).backup = some backup →
      ∃ backupKey, result.2.1.globalBackupKey = some backupKey ∧ Opens backupKey backup) :
    Accounts library result := by
  obtain ⟨output, library', w⟩ := result
  cases answer with
  | error failure =>
      cases hresult
      exact accounts_error hkey failure w
  | ok a =>
      cases hresult
      constructor
      · rw [handedOut, hsilent]
        exact hkey
      · intro backup h
        exact hopens a backup rfl h

end Accounts

section Calls

variable {library : Library B} [Byte B] (hproto : ProtobufRoundTrip B)
  (hbox : SecretboxRoundTrip B)

include hproto hbox

theorem accounts_destroyUser (userId : PublicSigningKey B) (createBackup : Bool) (w : World B) :
    Accounts library (library.destroyUser userId createBackup w) :=
  accounts_map rfl rfl (fun _ => rfl) (opens_of_exportIf hproto hbox)

theorem accounts_startSendConversation (senderId receiverId : PublicSigningKey B)
    (prekeyList message : List B) (createBackup : Bool) (w : World B) :
    Accounts library (library.startSendConversation senderId receiverId prekeyList message
      createBackup w) := by
  rw [startSendConversation]
  split
  · exact accounts_error rfl _ _
  · split
    · exact accounts_error rfl _ _
    · split
      · exact accounts_error rfl _ _
      · split
        · exact accounts_error rfl _ _
        · exact accounts_map rfl rfl (fun _ => rfl) (opens_of_exportIf hproto hbox)

theorem accounts_encryptMessage (id : ConversationId B) (message : List B) (createBackup : Bool)
    (w : World B) : Accounts library (library.encryptMessage id message createBackup w) := by
  rw [encryptMessage]
  split
  · exact accounts_error rfl _ _
  · split
    · refine accounts_error ?_ _ _
      rfl
    · exact accounts_map rfl rfl (fun _ => rfl)
        (opens_of_exportConversationIf hproto hbox)

theorem accounts_endConversation (id : ConversationId B) (createBackup : Bool) (w : World B) :
    Accounts library (library.endConversation id createBackup w) := by
  rw [endConversation]
  split
  · exact accounts_error rfl _ _
  · exact accounts_map rfl rfl (fun _ => rfl) (opens_of_exportIf hproto hbox)

variable [Platform]

theorem accounts_decryptMessage (id : ConversationId B) (packet : List B) (createBackup : Bool)
    (w : World B) : Accounts library (library.decryptMessage id packet createBackup w) := by
  rw [decryptMessage]
  split
  · exact accounts_error rfl _ _
  · split
    · refine accounts_error ?_ _ _
      rfl
    · exact accounts_map rfl rfl (fun _ => rfl)
        (opens_of_exportConversationIf hproto hbox)

theorem accounts_startReceiveConversation (receiverId : PublicSigningKey B) (packet : List B)
    (createBackup : Bool) (w : World B) :
    Accounts library (library.startReceiveConversation receiverId packet createBackup w) := by
  rw [startReceiveConversation]
  split
  · exact accounts_error rfl _ _
  · simp only
    split
    · refine accounts_error ?_ _ _
      rfl
    · split
      · rename_i heq
        refine accounts_error ?_ _ _
        exact (congrArg (fun result => result.2.1.globalBackupKey) heq).symm.trans
          (createPrekeyList_key _ _ _)
      · rename_i heq
        refine accounts_map rfl ?_ (fun _ => rfl) (opens_of_exportIf hproto hbox)
        exact (congrArg (fun result => result.2.1.globalBackupKey) heq).symm.trans
          (createPrekeyList_key _ _ _)

end Calls

section Creation

variable [Byte B]

omit [ProtobufC B] in
theorem exists_masterKeys {randomSpice : Option (List B)} {w : World B}
    (h : ∀ spice, randomSpice = some spice →
      spice ≠ [] ∧ (Sodium.cryptoPwhash 64 spice (w.random 1 16)).isSome) :
    ∃ masterKeys w', MasterKeys.create randomSpice w = (.ok masterKeys, w') := by
  cases randomSpice with
  | none => exact ⟨(MasterKeys.generate w).1, (MasterKeys.generate w).2, rfl⟩
  | some spice =>
      obtain ⟨hne, hhash⟩ := h spice rfl
      obtain ⟨hashed, hhashed⟩ := Option.isSome_iff_exists.mp hhash
      have hnotEmpty : spice.isEmpty = false := List.isEmpty_eq_false_iff.mpr hne
      have hspiced : ∃ seed w', spicedRandom spice 64 w = (.ok seed, w') := by
        rw [spicedRandom, hnotEmpty]
        simp only [World.randombytesBuf, hhashed]
        exact ⟨_, _, rfl⟩
      obtain ⟨seed, w', hseed⟩ := hspiced
      rw [MasterKeys.create, MasterKeys.generateSpiced, hnotEmpty, hseed]
      exact ⟨_, _, rfl⟩

omit [ProtobufC B] in
theorem exists_create {randomSpice : Option (List B)} {w : World B}
    (h : ∀ spice, randomSpice = some spice →
      spice ≠ [] ∧ (Sodium.cryptoPwhash 64 spice (w.random 1 16)).isSome) :
    ∃ user w', User.create randomSpice w = (.ok user, w') := by
  obtain ⟨masterKeys, w', hmasterKeys⟩ := exists_masterKeys h
  obtain ⟨prekeys, w'', hprekeys⟩ : ∃ prekeys w'', PrekeyStore.create w' = (prekeys, w'') :=
    ⟨_, _, Prod.mk.eta.symm⟩
  refine ⟨⟨masterKeys.publicSigningKey, masterKeys, prekeys, []⟩, w'', ?_⟩
  rw [User.create, hmasterKeys]
  simp only [hprekeys]

variable [Platform]

theorem exportProtobuf_created {randomSpice : Option (List B)} {w w' : World B} {user : User B}
    (hw : w.Shows SaneTime) (h : User.create randomSpice w = (.ok user, w')) :
    ∃ exported, (user.createPrekeyList w').2.1.exportProtobuf = .ok exported := by
  have hreachable : user.Reachable SaneTime := .create hw (congrArg Prod.fst h)
  have hafter := User.after_create randomSpice w
  rw [h] at hafter
  have hdates := (hreachable.createPrekeyList (hw.after hafter)).datesSane fun _ htime => htime
  obtain ⟨⟨keypairs, deprecatedKeypairs⟩, hprekeys⟩ := hdates.exportProtobuf
  obtain ⟨masterKeys, _, -, -, rfl⟩ := User.exists_of_create (congrArg Prod.fst h)
  rw [User.createPrekeyList_eq] at hprekeys ⊢
  rw [User.exportProtobuf, hprekeys]
  exact ⟨_, rfl⟩

/-- What `create_user` needs to get to its end: a spice that can be hashed if there is one, and
users that can be exported if the caller asks for a backup. -/
def CreatesUser (state : Library B × World B) : Call B → Prop
  | .createUser createBackup randomSpice =>
      (∀ spice, randomSpice = some spice →
        spice ≠ [] ∧ (Sodium.cryptoPwhash 64 spice (state.2.random 2 16)).isSome) ∧
      (createBackup = true → state.2.Shows SaneTime ∧
        ∀ user ∈ state.1.users, ∃ exported, user.exportProtobuf = .ok exported)
  | _ => True

theorem accounts_createUser (hproto : ProtobufRoundTrip B) (hbox : SecretboxRoundTrip B)
    {library : Library B} {w : World B} {createBackup : Bool} {randomSpice : Option (List B)}
    (h : CreatesUser (library, w) (.createUser createBackup randomSpice)) :
    Accounts library (library.createUser createBackup randomSpice w) := by
  obtain ⟨hspice, hexport⟩ := h
  obtain ⟨user, w', hcreate⟩ := exists_create (w := (w.randombytesBuf 32).2) hspice
  have hexported (hbackup : createBackup = true) : ∃ users, UserStore.exportProtobuf
      (UserStore.add (user.createPrekeyList w').2.1 library.users) = .ok users := by
    obtain ⟨hw, husers⟩ := hexport hbackup
    refine Result.exists_mapM_eq_ok fun other hother => ?_
    rcases Keyed.mem_of_mem_add hother with rfl | hother
    · exact exportProtobuf_created (hw.after (w.after_randombytesBuf 32)) hcreate
    · exact husers other hother
  rw [createUser_eq library createBackup hcreate]
  simp only
  split
  · rename_i failure _ hfailure
    rw [exportIf] at hfailure
    split at hfailure
    · rename_i hbackup
      obtain ⟨users, husers⟩ := hexported hbackup
      rw [exportAll] at hfailure
      simp only [husers] at hfailure
      cases hfailure
    · cases hfailure
  · rename_i backup _ hbackup
    constructor
    · rfl
    · intro backup' h
      exact opens_of_exportIf hproto hbox backup backup' (congrArg Prod.fst hbackup) h

theorem accounts_call (hproto : ProtobufRoundTrip B) (hbox : SecretboxRoundTrip B)
    {state : Library B × World B} {c : Call B} (h : CreatesUser state c) :
    Accounts state.1 (call state c) := by
  cases c with
  | createUser createBackup randomSpice => exact accounts_createUser hproto hbox h
  | destroyUser userId createBackup =>
      exact accounts_destroyUser hproto hbox userId createBackup state.2
  | userCount => exact accounts_silent rfl (.userCount _) rfl rfl state.2
  | destroyAllUsers =>
      refine accounts_silent ?_ .destroyedAllUsers rfl rfl state.2
      rfl
  | listUsers => exact accounts_silent rfl (.userList _ _) rfl rfl state.2
  | getMessageType packet => exact accounts_silent rfl (.messageType _) rfl rfl state.2
  | startSendConversation senderId receiverId prekeyList message createBackup =>
      exact accounts_startSendConversation hproto hbox senderId receiverId prekeyList message
        createBackup state.2
  | startReceiveConversation receiverId senderId packet createBackup =>
      exact accounts_startReceiveConversation hproto hbox receiverId packet createBackup state.2
  | encryptMessage id message createBackup =>
      exact accounts_encryptMessage hproto hbox id message createBackup state.2
  | decryptMessage id packet createBackup =>
      exact accounts_decryptMessage hproto hbox id packet createBackup state.2
  | endConversation id createBackup =>
      exact accounts_endConversation hproto hbox id createBackup state.2
  | listConversations userId =>
      simp only [call, listConversations]
      split
      · exact accounts_error rfl _ _
      · split
        · exact accounts_error rfl _ _
        · exact accounts_silent rfl (.conversationList _ _) rfl rfl _
  | exportConversation id =>
      refine accounts_map (α := List B) rfl rfl (fun _ => rfl) ?_
      intro exported backup h hbackup
      cases hbackup
      exact opens_of_exportConversation hproto hbox h
  | importConversation backup backupKey =>
      simp only [call, importConversation]
      split
      · exact accounts_error rfl _ _
      · exact accounts_newKey rfl rfl rfl _
  | exportAll =>
      refine accounts_map (α := List B) rfl rfl (fun _ => rfl) ?_
      intro exported backup h hbackup
      cases hbackup
      exact opens_of_exportAll hproto hbox h
  | importAll backup backupKey =>
      simp only [call, importAll]
      split
      · exact accounts_error rfl _ _
      · exact accounts_newKey rfl rfl rfl _
  | getPrekeyList userId =>
      have hkey := state.1.createPrekeyList_key userId state.2
      simp only [call]
      split
      · rename_i heq
        rw [heq] at hkey
        exact accounts_error hkey _ _
      · rename_i heq
        rw [heq] at hkey
        exact accounts_silent hkey (.prekeyList _) rfl rfl _
  | updateBackupKey => exact accounts_newKey rfl rfl rfl _

def keysHandedOut (outputs : List (Except Failure (Reply B))) : List (BackupKey B) :=
  outputs.filterMap handedOut

/-- In a run the key in use, if there is one, is the last that has been given to the caller, and
every backup opens with one of those keys. -/
structure CallerHoldsKey (start : Library B × World B) (calls : List (Call B)) : Prop where
  key : ∀ before after, calls = before ++ after → ∀ backupKey,
    (Runs.final call start before).1.globalBackupKey = some backupKey →
    (keysHandedOut (Runs.outputs call start before)).getLast? = some backupKey
  backup : ∀ before c after, calls = before ++ c :: after → ∀ backup,
    returnedBackup (call (Runs.final call start before) c).1 = some backup →
    ∃ backupKey ∈ keysHandedOut (Runs.outputs call start (before ++ [c])),
      Opens backupKey backup

def LastHandedOut (outputs : List (Except Failure (Reply B))) (state : Library B × World B) :
    Prop :=
  state.1.globalBackupKey = (keysHandedOut outputs).getLast?

omit [ProtobufC B] [Sodium B] [Byte B] [Platform] in
theorem keysHandedOut_append (outputs : List (Except Failure (Reply B)))
    (output : Except Failure (Reply B)) :
    (keysHandedOut (outputs ++ [output])).getLast? =
      (handedOut output).or (keysHandedOut outputs).getLast? := by
  rw [keysHandedOut, List.filterMap_append, List.getLast?_append]
  cases hout : handedOut output with
  | none => simp [hout, keysHandedOut]
  | some backupKey => simp [hout]

theorem lastHandedOut_final (hproto : ProtobufRoundTrip B) (hbox : SecretboxRoundTrip B)
    {w : World B} {calls : List (Call B)}
    (h : Runs.Admitted call CreatesUser (loaded, w) calls) :
    LastHandedOut (Runs.outputs call (loaded, w) calls) (Runs.final call (loaded, w) calls) := by
  have hstart : LastHandedOut [] ((loaded, w) : Library B × World B) := rfl
  have hstep (earlier : List (Except Failure (Reply B))) (state : Library B × World B)
      (c : Call B) (hlast : LastHandedOut earlier state) (hcreates : CreatesUser state c) :
      LastHandedOut (earlier ++ [(call state c).1]) (call state c).2 := by
    rw [LastHandedOut, keysHandedOut_append, ← hlast]
    exact (accounts_call hproto hbox hcreates).key
  exact h.outputs_invariant LastHandedOut hstep hstart

/-- The caller keeps up with the key as long as `create_user` does not fail. -/
theorem caller_holds_key (hproto : ProtobufRoundTrip B) (hbox : SecretboxRoundTrip B)
    (w : World B) (calls : List (Call B))
    (h : Runs.Admitted call CreatesUser (loaded, w) calls) :
    CallerHoldsKey (loaded, w) calls := by
  constructor
  · rintro before after rfl backupKey hkey
    have hlast := lastHandedOut_final hproto hbox h.prefix_of_append
    exact hlast.symm.trans hkey
  · rintro before c after rfl backup hbackup
    obtain ⟨backupKey, hkey, hopens⟩ := (accounts_call hproto hbox
      (h before c after rfl)).backup backup hbackup
    rw [← List.singleton_append, ← List.append_assoc] at h
    have hlast := lastHandedOut_final hproto hbox h.prefix_of_append
    rw [LastHandedOut, Runs.final_append] at hlast
    exact ⟨backupKey, List.mem_of_getLast? (hlast.symm.trans hkey), hopens⟩

end Creation

end Library

namespace Symbolic

open Library

/-- A user is created and everything is backed up. -/
theorem creator_holds_key :
    CallerHoldsKey (loaded, calmWorld) [.createUser true none, .exportAll] := by
  apply caller_holds_key protobufRoundTrip secretboxRoundTrip
  apply Runs.Admitted.cons
  · refine ⟨fun spice h => (by cases h), fun _ => ⟨shows_calmWorld, ?_⟩⟩
    exact fun user huser => absurd huser List.not_mem_nil
  · exact .cons trivial (.nil _)

/-- After a key has been handed out `create_user` is called with an empty spice. -/
theorem failed_creation_replaces_key :
    let calls : List (Call ℕ) := [.updateBackupKey, .createUser false (some [])]
    Runs.outputs call (loaded, calmWorld) calls =
        [.ok (.updatedBackupKey (calmWorld.random 0 32)),
          .error (.error (expectationFailed "lib/master-keys.cpp"))] ∧
      (Runs.final call (loaded, calmWorld) calls).1.globalBackupKey =
        some (calmWorld.random 1 32) ∧
      ¬ CallerHoldsKey (loaded, calmWorld) calls := by
  refine ⟨rfl, rfl, ?_⟩
  intro h
  have hkey := h.key _ [] (List.append_nil _).symm (calmWorld.random 1 32) rfl
  have hsame : calmWorld.random 0 32 = calmWorld.random 1 32 := Option.some.inj hkey
  exact absurd (freshWorld_injective (congrArg Sodium.cryptoScalarmultBase hsame)) (by decide)

end Symbolic

end Molch
