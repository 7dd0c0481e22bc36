import Molch.FirstContact
import Molch.LibraryLife
import Molch.PrekeyRotation

/-!
Prekey packets that come a second time. Every prekey packet starts its ratchet from scratch,
so that nothing but the prekeys of the receiver stands between a packet and one more
conversation.
-/

namespace Molch

open Conversation

namespace Library

section Calls

variable {B : Type} [Byte B] [Sodium B] [ProtobufC B] [Platform]

/-- The packet starts a conversation of the receiver, whatever becomes of the call afterwards. -/
def Starts (state : Library B × World B) (receiverId : PublicSigningKey B) (packet : List B) :
    Prop :=
  ∃ user started, UserStore.find receiverId state.1.users = some user ∧
    (createReceiveConversation packet user.masterKeys.publicIdentityKey
      user.masterKeys.privateIdentityKey user.prekeys state.2).1 = .ok started

/-- The prekey that the packet names is still with the receiver, active or deprecated. -/
def KeepsPrekey (state : Library B × World B) (receiverId : PublicSigningKey B)
    (packet : List B) : Prop :=
  ∃ user metadata, UserStore.find receiverId state.1.users = some user ∧
    unverifiedPrekeyMetadata packet = .ok metadata ∧
    (metadata.prekey ∈ user.prekeys.activeKeys ∨ metadata.prekey ∈ user.prekeys.deprecatedKeys)

/-- A call of the run has been made with the packet for the receiver and has started a
conversation. -/
def StartedIn (start : Library B × World B) (calls : List (Call B))
    (receiverId : PublicSigningKey B) (packet : List B) : Prop :=
  ∃ before senderId createBackup after,
    calls = before ++ .startReceiveConversation receiverId senderId packet createBackup :: after ∧
    Starts (Runs.final call start before) receiverId packet

/-- A packet that has started a conversation starts no other one: the call fails, and nothing
of the packet gets to the caller. -/
def StartsAtMostOnce (start : Library B × World B) (calls : List (Call B)) : Prop :=
  ∀ before receiverId senderId packet createBackup after,
    calls = before ++ .startReceiveConversation receiverId senderId packet createBackup :: after →
    StartedIn start before receiverId packet →
    ¬ Starts (Runs.final call start before) receiverId packet ∧
      ∃ e, (call (Runs.final call start before)
        (.startReceiveConversation receiverId senderId packet createBackup)).1 = .error (.error e)

/-- When a packet comes again its prekey has been thrown away. -/
def ReplaysFindNoPrekey (start : Library B × World B) (calls : List (Call B)) : Prop :=
  ∀ before receiverId senderId packet createBackup after,
    calls = before ++ .startReceiveConversation receiverId senderId packet createBackup :: after →
    StartedIn start before receiverId packet →
    ¬ KeepsPrekey (Runs.final call start before) receiverId packet

variable {state : Library B × World B} {receiverId senderId : PublicSigningKey B}
  {packet : List B} {createBackup : Bool}

theorem keepsPrekey_of_starts (h : Starts state receiverId packet) :
    KeepsPrekey state receiverId packet := by
  obtain ⟨user, started, hfound, hstarted⟩ := h
  rw [createReceiveConversation] at hstarted
  split at hstarted
  · cases hstarted
  · rename_i metadata hmetadata
    refine ⟨user, metadata, hfound, hmetadata, ?_⟩
    by_contra hnot
    obtain ⟨hactive, hdeprecated⟩ := not_or.mp hnot
    have hmissing := PrekeyStore.getPrekey_eq_notFound hactive hdeprecated state.2
    split at hstarted
    · cases hstarted
    · rename_i heq
      rw [heq] at hmissing
      cases hmissing

theorem error_of_not_starts (h : ¬ Starts state receiverId packet) :
    ∃ e, (call state (.startReceiveConversation receiverId senderId packet createBackup)).1 =
      .error (.error e) := by
  rw [call, startReceiveConversation]
  cases hfound : UserStore.find receiverId state.1.users with
  | none => exact ⟨_, rfl⟩
  | some user =>
      simp only
      cases hresult : (createReceiveConversation packet user.masterKeys.publicIdentityKey
          user.masterKeys.privateIdentityKey user.prekeys state.2).1 with
      | error e => exact ⟨e, rfl⟩
      | ok started => exact absurd ⟨user, started, hfound, hresult⟩ h

theorem starts_of_reply {reply : Reply B}
    (h : (call state (.startReceiveConversation receiverId senderId packet createBackup)).1 =
      .ok reply) : Starts state receiverId packet := by
  by_contra hnot
  obtain ⟨e, he⟩ := error_of_not_starts hnot
  cases he.symm.trans h

/-- In a run a packet starts one conversation at most if its prekey has gone whenever it comes
again. -/
theorem starts_at_most_once (w : World B) (calls : List (Call B))
    (h : ReplaysFindNoPrekey (loaded, w) calls) : StartsAtMostOnce (loaded, w) calls := by
  intro before receiverId senderId packet createBackup after hcalls hstarted
  have hgone := h before receiverId senderId packet createBackup after hcalls hstarted
  have hnot := mt keepsPrekey_of_starts hgone
  exact ⟨hnot, error_of_not_starts hnot⟩

theorem startReceiveConversation_of_create (senderId : PublicSigningKey B) {user : User B}
    {message : List B}
    {conversation : Conversation B} {prekeys : PrekeyStore B} {w' : World B}
    (hfound : UserStore.find receiverId state.1.users = some user)
    (hcreate : createReceiveConversation packet user.masterKeys.publicIdentityKey
      user.masterKeys.privateIdentityKey user.prekeys state.2 =
        (.ok (message, conversation), prekeys, w')) :
    ∃ prekeyList library', call state (.startReceiveConversation receiverId senderId packet false) =
        (.ok (.startedReceiveConversation conversation.id prekeyList message none), library',
          (prekeys.rotate w').2.now.2) ∧
      UserStore.find receiverId library'.users = some { user with
        prekeys := (prekeys.rotate w').1
        conversations := ConversationStore.add conversation user.conversations } := by
  have hid : user.publicSigningKey = receiverId := Keyed.key_of_find hfound
  have hused : UserStore.find receiverId (UserStore.modify receiverId
      (fun user' => { user' with prekeys := prekeys }) state.1.users) =
        some { user with prekeys := prekeys } := Keyed.find_modify hfound hid
  have hrotated : UserStore.find receiverId (UserStore.modify receiverId
      (fun _ => { user with prekeys := (prekeys.rotate w').1 }) (UserStore.modify receiverId
        (fun user' => { user' with prekeys := prekeys }) state.1.users)) =
          some { user with prekeys := (prekeys.rotate w').1 } := Keyed.find_modify hused hid
  have hlist : ∃ prekeyList, createPrekeyList ⟨UserStore.modify receiverId
      (fun user' => { user' with prekeys := prekeys }) state.1.users,
        state.1.globalBackupKey⟩ receiverId w' = (.ok prekeyList, ⟨UserStore.modify receiverId
          (fun _ => { user with prekeys := (prekeys.rotate w').1 }) (UserStore.modify receiverId
            (fun user' => { user' with prekeys := prekeys }) state.1.users),
              state.1.globalBackupKey⟩, (prekeys.rotate w').2.now.2) := by
    rw [createPrekeyList, hused]
    exact ⟨_, rfl⟩
  obtain ⟨prekeyList, hlist⟩ := hlist
  rw [call, startReceiveConversation, hfound]
  simp only [hcreate, hlist]
  exact ⟨prekeyList, _, rfl, Keyed.find_modify hrotated hid⟩

/-- A receiver without deprecated prekeys starts a conversation, and the rotation at the end of
the call comes too late for the prekey of the packet. -/
theorem not_keepsPrekey_of_create (senderId : PublicSigningKey B) {user : User B} {message : List B}
    {conversation : Conversation B} {prekeys : PrekeyStore B} {v : World B}
    (hfound : UserStore.find receiverId state.1.users = some user)
    (hcreate : createReceiveConversation packet user.masterKeys.publicIdentityKey
      user.masterKeys.privateIdentityKey user.prekeys state.2 =
        (.ok (message, conversation), prekeys, v))
    (hdistinct : Function.Injective fun place => (user.prekeys.prekeys place).publicKey)
    (hnone : user.prekeys.deprecatedPrekeys = [])
    (hfresh : ∀ place, Sodium.cryptoScalarmultBase (state.2.random 0 32) ≠
      (user.prekeys.prekeys place).publicKey)
    (hactive : ∀ place i, state.2.clock i ≤ (user.prekeys.prekeys place).expirationDate)
    (hrenewed : ∀ i, state.2.clock i ≤ state.2.clock 1 + prekeyExpirationTime)
    (hlate : ∀ i, state.2.clock 0 + deprecatedPrekeyExpirationTime < state.2.clock (i + 2)) :
    ¬ KeepsPrekey (call state (.startReceiveConversation receiverId senderId packet false)).2
      receiverId packet := by
  obtain ⟨prekeyList, library', hcalled, hfound'⟩ :=
    startReceiveConversation_of_create senderId hfound hcreate
  have hstarts : Starts state receiverId packet :=
    ⟨user, (message, conversation), hfound, congrArg Prod.fst hcreate⟩
  obtain ⟨user', metadata, hsame, hmetadata, hkept⟩ := keepsPrekey_of_starts hstarts
  cases hfound.symm.trans hsame
  have hprekeys := createReceiveConversation_prekeys hmetadata user.masterKeys.publicIdentityKey
    user.masterKeys.privateIdentityKey user.prekeys state.2
  have hreadings := after_getPrekey_createReceiveConversation hmetadata
    user.masterKeys.publicIdentityKey user.masterKeys.privateIdentityKey user.prekeys state.2
  rw [hcreate] at hprekeys hreadings
  rcases user.prekeys.getPrekey_cases metadata.prekey state.2 with
    ⟨index, hkey, heq⟩ | ⟨-, prekey, hprekey, -⟩ | ⟨hgone, hgone', -⟩
  · rw [heq] at hprekeys hreadings
    simp only at hprekeys hreadings
    subst hprekeys
    obtain ⟨readings, hclock⟩ := hreadings
    have hv : v.clock 0 = state.2.clock (0 + readings + 2) := by
      rw [hclock, PrekeyStore.deprecate_eq]
    have hlast : state.2.clock 0 + deprecatedPrekeyExpirationTime < v.clock 0 := by
      rw [hv]
      exact hlate _
    have hdates : ∀ place, v.clock 0 ≤
        ((user.prekeys.deprecate_ index state.2).1.prekeys place).expirationDate := by
      intro place
      rw [hv]
      by_cases hplace : place = index
      · rw [hplace, PrekeyStore.deprecate_eq]
        simp only [Function.update_self]
        exact hrenewed _
      · rw [PrekeyStore.deprecate_prekeys_of_ne _ hplace]
        exact hactive place _
    have hgone := PrekeyStore.notMem_keys_rotate_deprecate_ hdistinct hnone (hfresh index) hdates
      hlast
    rw [hkey] at hgone
    rw [hcalled]
    rintro ⟨later, metadata', hlater, hmetadata', hstill⟩
    cases hfound'.symm.trans hlater
    cases hmetadata.symm.trans hmetadata'
    exact hstill.elim hgone.1 hgone.2
  · rw [hnone] at hprekey
    cases hprekey
  · exact absurd hkept (not_or.mpr ⟨hgone, hgone'⟩)

omit [Platform] in
theorem unverifiedPrekeyMetadata_of_createSend (hproto : ProtobufRoundTrip B)
    {message packet : List B} {senderPublicIdentity receiverPublicIdentity : PublicKey B}
    {senderPrivateIdentity : PrivateKey B} {prekeys : PrekeyStore B} {w w' : World B}
    {conversation : Conversation B}
    (h : createSendConversation message senderPublicIdentity senderPrivateIdentity
      receiverPublicIdentity prekeys.list w = (.ok (packet, conversation), w')) :
    ∃ metadata, unverifiedPrekeyMetadata packet = .ok metadata ∧
      metadata.prekey = (prekeys.prekeys w.drawnPlace).publicKey := by
  rw [createSendConversation, if_neg (not_not.mpr prekeys.length_list)] at h
  simp only [cryptoBoxKeypair, World.randombytesBuf, World.randombytesUniform,
    prekeys.fromSpan_drawn w] at h
  split at h
  · cases h
  · split at h
    · cases h
    · rename_i hsend
      cases h
      exact ⟨_, unverifiedPrekeyMetadata_of_send hproto hsend, rfl⟩

/-- A packet that a user has made from the list of another one starts a conversation whenever
its prekey is still there, however often it has done so before. -/
theorem first_packet_starts_iff (hideal : Idealised B) (hsign : SignRoundTrip B)
    {times : ℤ → Prop} {sender receiver : User B} (hsender : sender.Reachable times)
    (hreceiver : receiver.Reachable times)
    (hdistinct : sender.masterKeys.publicIdentityKey ≠ receiver.masterKeys.publicIdentityKey)
    (message : List B) {w₀ w w' : World B} {identity : PublicKey B}
    (hverify : verifyPrekeyList (receiver.createPrekeyList w₀).1 receiver.publicSigningKey w =
      (.ok identity, w')) :
    ∃ packet s w'', createSendConversation message sender.masterKeys.publicIdentityKey
        sender.masterKeys.privateIdentityKey identity
        (signedPrekeys (receiver.createPrekeyList w₀).1) w' = (.ok (packet, s), w'') ∧
      ∀ (state : Library B × World B) (receiverId : PublicSigningKey B) (receiver' : User B),
        UserStore.find receiverId state.1.users = some receiver' →
        receiver'.Reachable times → receiver'.masterKeys = receiver.masterKeys →
        (Starts state receiverId packet ↔ KeepsPrekey state receiverId packet) := by
  obtain ⟨packet, s, w'', hsend, hreceived⟩ :=
    exists_first_packet hideal hsign hsender hreceiver hdistinct message hverify
  refine ⟨packet, s, w'', hsend, ?_⟩
  rw [signedPrekeys_createPrekeyList] at hsend
  obtain ⟨metadata, hmetadata, hprekey⟩ :=
    unverifiedPrekeyMetadata_of_createSend hideal.protobuf hsend
  intro state receiverId receiver' hfound hreachable hkeys
  refine ⟨keepsPrekey_of_starts, ?_⟩
  rintro ⟨user, metadata', hfound', hmetadata', hkept⟩
  cases hfound.symm.trans hfound'
  cases hmetadata.symm.trans hmetadata'
  rw [hprekey] at hkept
  obtain ⟨r, prekeys, v, hcreate⟩ := hreceived receiver' hreachable hkeys hkept state.2
  exact ⟨receiver', (message, r), hfound, congrArg Prod.fst hcreate⟩

end Calls

end Library

namespace Symbolic

open Library UserStore Sodium

/-- The receiver still has the prekey that the packet names, and with that prekey it accepts
the packet. -/
structure Accepts (receiverId : PublicSigningKey ℕ) (packet message : List ℕ)
    (state : Library ℕ × World ℕ) : Prop where
  calm : calmWorld.After state.2
  sound : Sound SaneTime state.1.users
  accepts : ∃ user prekey, find receiverId state.1.users = some user ∧
    (prekey ∈ user.prekeys.activeKeys ∨ prekey ∈ user.prekeys.deprecatedKeys) ∧
    ∀ user' : User ℕ, user'.Reachable SaneTime → user'.masterKeys = user.masterKeys →
      prekey ∈ user'.prekeys.activeKeys ∨ prekey ∈ user'.prekeys.deprecatedKeys →
      ∀ v, ∃ r prekeys v', createReceiveConversation packet user'.masterKeys.publicIdentityKey
        user'.masterKeys.privateIdentityKey user'.prekeys v = (.ok (message, r), prekeys, v')

variable {receiverId : PublicSigningKey ℕ} {packet message : List ℕ}
  {state : Library ℕ × World ℕ}

theorem Accepts.call (h : Accepts receiverId packet message state)
    (senderId : PublicSigningKey ℕ) :
    (∃ id prekeyList, (Library.call state
      (.startReceiveConversation receiverId senderId packet false)).1 =
        .ok (.startedReceiveConversation id prekeyList message none)) ∧
      Accepts receiverId packet message
        (Library.call state (.startReceiveConversation receiverId senderId packet false)).2 := by
  obtain ⟨user, prekey, hfound, hkept, haccepts⟩ := h.accepts
  have hw : state.2.Shows SaneTime := shows_calmWorld.after h.calm
  have huser : user.Reachable SaneTime := h.sound.all user (Keyed.mem_of_find hfound)
  obtain ⟨r, prekeys, v, hcreate⟩ := haccepts user huser rfl hkept state.2
  have hused : User.Reachable SaneTime { user with prekeys := prekeys } := by
    have hreceived := huser.createReceiveConversation packet hw
    rw [hcreate] at hreceived
    exact hreceived
  have hv : calmWorld.After v := by
    have hreceived := after_createReceiveConversation packet user.masterKeys.publicIdentityKey
      user.masterKeys.privateIdentityKey user.prekeys state.2
    rw [hcreate] at hreceived
    exact h.calm.trans hreceived
  have hzero (i : ℕ) : v.clock i = 0 := clock_of_calmWorld hv i
  have hprekeys : prekey ∈ prekeys.activeKeys ∨ prekey ∈ prekeys.deprecatedKeys := by
    have hstarts : Starts state receiverId packet :=
      ⟨user, (message, r), hfound, congrArg Prod.fst hcreate⟩
    obtain ⟨_, metadata, -, hmetadata, -⟩ := keepsPrekey_of_starts hstarts
    have hget := createReceiveConversation_prekeys hmetadata user.masterKeys.publicIdentityKey
      user.masterKeys.privateIdentityKey user.prekeys state.2
    rw [hcreate] at hget
    rw [show prekeys = _ from hget]
    exact PrekeyStore.mem_keys_getPrekey metadata.prekey hkept
  have hrotated : prekey ∈ (prekeys.rotate v).1.activeKeys ∨
      prekey ∈ (prekeys.rotate v).1.deprecatedKeys := by
    refine PrekeyStore.mem_keys_rotate ?_ ?_ hprekeys
    · intro i
      rw [hzero, hzero]
    · intro other hother _
      rw [hzero]
      exact ((hused.datesSane fun _ htime => htime).deprecated other hother).1
  obtain ⟨prekeyList, library', hcalled, hfound'⟩ :=
    startReceiveConversation_of_create senderId hfound hcreate
  have hsound := sound_startReceiveConversation h.sound receiverId packet false hw
  rw [hcalled]
  refine ⟨⟨_, _, rfl⟩, hv.trans ((PrekeyStore.after_rotate prekeys v).trans (World.after_now _)),
    ?_, _, prekey, hfound', hrotated, haccepts⟩
  exact (congrArg (fun result => Sound SaneTime result.2.1.users) hcalled).mp hsound

theorem exists_first_packet_to {w : World ℕ} (hw : w.Shows SaneTime)
    (hdistinct : cryptoScalarmultBase (calmWorld.random 1 32) ≠
      cryptoScalarmultBase (w.random 2 32)) :
    ∃ (user : User ℕ) (w' : World ℕ) (packet : List ℕ) (reply : Reply ℕ),
      User.create none (w.randombytesBuf 32).2 = (.ok user, w') ∧
      Library.call (loaded, w) (.createUser false none) =
        (.ok reply, ⟨[(user.createPrekeyList w').2.1], some (w.random 0 32)⟩,
          (user.createPrekeyList w').2.2) ∧
      ∀ user' : User ℕ, user'.Reachable SaneTime → user'.masterKeys = user.masterKeys →
        ((user.prekeys.rotate w').1.prekeys calmWorld.drawnPlace).publicKey ∈
            user'.prekeys.activeKeys ∨
          ((user.prekeys.rotate w').1.prekeys calmWorld.drawnPlace).publicKey ∈
            user'.prekeys.deprecatedKeys →
        ∀ v, ∃ r prekeys v', createReceiveConversation packet user'.masterKeys.publicIdentityKey
          user'.masterKeys.privateIdentityKey user'.prekeys v =
            (.ok ([1, 2, 3], r), prekeys, v') := by
  obtain ⟨user, w', hcreate, htheirs⟩ := exists_created_user (w.randombytesBuf 32).2
  obtain ⟨sender, hsender, hours⟩ := exists_user shows_calmWorld
  have hlater : (w.randombytesBuf 32).2.Shows SaneTime := hw
  have huser : user.Reachable SaneTime := .create hlater (congrArg Prod.fst hcreate)
  have hkeys : sender.masterKeys.publicIdentityKey ≠ user.masterKeys.publicIdentityKey := by
    rw [hours, htheirs]
    exact hdistinct
  -- the sender looks at the list on the day on which it expires
  let v : World ℕ := { calmWorld with clock := fun _ => user.listExpiration w' }
  have hverify : verifyPrekeyList (user.createPrekeyList w').1 user.publicSigningKey v =
      (.ok user.masterKeys.publicIdentityKey, v.now.2) := by
    rw [huser.genuine.id, verifyPrekeyList_createPrekeyList signRoundTrip
      huser.genuine.masterKeys]
    exact if_neg (lt_irrefl _)
  obtain ⟨packet, _, _, -, hreceived⟩ := exists_first_packet idealised signRoundTrip hsender huser
    hkeys [1, 2, 3] hverify
  have hcalled : ∃ reply, Library.call (loaded, w) (.createUser false none) =
      (.ok reply, ⟨[(user.createPrekeyList w').2.1], some (w.random 0 32)⟩,
        (user.createPrekeyList w').2.2) := by
    rw [Library.call, createUser_eq _ _ hcreate]
    exact ⟨_, rfl⟩
  obtain ⟨reply, hcalled⟩ := hcalled
  exact ⟨user, w', packet, reply, hcreate, hcalled, hreceived⟩

theorem exists_accepts :
    ∃ receiverId packet reply state, Library.call (loaded, calmWorld) (.createUser false none) =
      (.ok reply, state) ∧ Accepts receiverId packet [1, 2, 3] state := by
  obtain ⟨user, w, packet, reply, hcreate, hcalled, hreceived⟩ :=
    exists_first_packet_to shows_calmWorld fun h => absurd (freshWorld_injective h) (by decide)
  have hlater : (calmWorld.randombytesBuf 32).2.Shows SaneTime := shows_calmWorld
  have huser : user.Reachable SaneTime := .create hlater (congrArg Prod.fst hcreate)
  have hw : calmWorld.After w := by
    have hafter := User.after_create none (calmWorld.randombytesBuf 32).2
    rw [hcreate] at hafter
    exact hafter
  have hlisted := huser.createPrekeyList (shows_calmWorld.after hw)
  rw [User.createPrekeyList_eq] at hcalled hlisted
  refine ⟨user.publicSigningKey, packet, reply, _, hcalled, ?_, ?_, ?_⟩
  · exact hw.trans ((PrekeyStore.after_rotate user.prekeys w).trans (World.after_now _))
  · exact Keyed.All.nil.add hlisted
  · refine ⟨_, _, Keyed.find_eq_some_iff.mpr ⟨[], [], rfl, rfl, ?_⟩,
      .inl (PrekeyStore.mem_activeKeys.mpr ⟨calmWorld.drawnPlace, rfl⟩), hreceived⟩
    exact fun other hother => absurd hother List.not_mem_nil

/-- The same packet starts two conversations, and its message is delivered twice. -/
theorem packet_starts_two_conversations :
    ∃ (receiverId : PublicSigningKey ℕ) (packet : List ℕ) (reply : Reply ℕ)
      (id id' : ConversationId ℕ) (prekeyList prekeyList' : List ℕ),
      let calls : List (Library.Call ℕ) := [.createUser false none,
        .startReceiveConversation receiverId receiverId packet false,
        .startReceiveConversation receiverId receiverId packet false]
      Runs.outputs Library.call (loaded, calmWorld) calls = [.ok reply,
          .ok (.startedReceiveConversation id prekeyList [1, 2, 3] none),
          .ok (.startedReceiveConversation id' prekeyList' [1, 2, 3] none)] ∧
        ¬ StartsAtMostOnce (loaded, calmWorld) calls := by
  obtain ⟨receiverId, packet, reply, state, hcreated, haccepts⟩ := exists_accepts
  obtain ⟨⟨id, prekeyList, hfirst⟩, hagain⟩ := haccepts.call receiverId
  obtain ⟨⟨id', prekeyList', hsecond⟩, -⟩ := hagain.call receiverId
  refine ⟨receiverId, packet, reply, id, id', prekeyList, prekeyList', ?_, ?_⟩
  · simp only [Runs.outputs, hcreated, hfirst, hsecond]
  · intro honce
    have hstarts : Runs.final Library.call (loaded, calmWorld) [.createUser false none] = state := by
      rw [Runs.final, hcreated, Runs.final]
    obtain ⟨hnot, -⟩ := honce [.createUser false none,
      .startReceiveConversation receiverId receiverId packet false] receiverId receiverId packet
      false [] rfl ⟨[.createUser false none], receiverId, false, [], rfl, by
        rw [hstarts]
        exact starts_of_reply hfirst⟩
    refine hnot ?_
    rw [Runs.final, hcreated, Runs.final, Runs.final]
    exact starts_of_reply hsecond

/-- The clock stands still until the receiver has looked up the prekey of its first packet, and
then it is two hours later. -/
def expiringWorld : World ℕ := { freshWorld with clock := fun i => if i < 103 then 0 else 7200 }

theorem shows_expiringWorld : expiringWorld.Shows SaneTime := by
  intro i
  simp only [expiringWorld]
  split_ifs <;> decide

theorem expiringWorld_le (i : ℕ) : expiringWorld.clock i ≤ 7200 := by
  simp only [expiringWorld]
  split_ifs <;> decide

theorem expiringWorld_early {i : ℕ} (h : i < 103) : expiringWorld.clock i = 0 := if_pos h

theorem expiringWorld_late {i : ℕ} (h : 103 ≤ i) : expiringWorld.clock i = 7200 :=
  if_neg h.not_gt

theorem prekeys_expiringWorld {user : User ℕ} {w : World ℕ}
    (hcreate : User.create none (expiringWorld.randombytesBuf 32).2 = (.ok user, w)) :
    (∀ index, user.prekeys.prekeys index =
      ⟨cryptoScalarmultBase (freshWorld.random (index + 3) 32), freshWorld.random (index + 3) 32,
        prekeyExpirationTime⟩) ∧
      user.prekeys.deprecatedPrekeys = [] ∧
      (∀ i, w.clock i = expiringWorld.clock (i + 100)) ∧
      ∀ i, w.random i = freshWorld.random (i + 103) := by
  simp only [User.create, MasterKeys.create, PrekeyStore.create_eq, Prod.mk.injEq,
    Except.ok.injEq] at hcreate
  obtain ⟨rfl, rfl⟩ := hcreate
  refine ⟨fun index => ?_, rfl, fun i => rfl, fun i => rfl⟩
  have hclock : expiringWorld.clock index = 0 :=
    expiringWorld_early (index.isLt.trans (by decide))
  have hdate : expiringWorld.clock index + prekeyExpirationTime = prekeyExpirationTime := by
    rw [hclock, zero_add]
  exact congrArg (Prekey.mk _ _) hdate

theorem listed_expiringWorld {user : User ℕ} {w : World ℕ}
    (hcreate : User.create none (expiringWorld.randombytesBuf 32).2 = (.ok user, w)) :
    (user.prekeys.rotate w).1.prekeys = user.prekeys.prekeys ∧
      (user.prekeys.rotate w).1.deprecatedPrekeys = [] ∧
      (user.prekeys.rotate w).2 = w.now.2 := by
  obtain ⟨hprekeys, hnone, hclock, -⟩ := prekeys_expiringWorld hcreate
  have hzero : w.clock 0 = 0 := (hclock 0).trans (expiringWorld_early (by decide))
  have hnil : user.prekeys.renewals (w.clock 0) = [] := by
    apply PrekeyStore.renewals_eq_nil
    intro index
    rw [hprekeys, hzero]
    exact (by decide : (0 : ℤ) ≤ prekeyExpirationTime)
  rw [PrekeyStore.rotate_of_renewals_nil hnil]
  refine ⟨funext fun index => ?_, ?_, rfl⟩
  · rw [(PrekeyStore.removeOutdated_prekeys _ _).1, PrekeyStore.corrected_prekeys, hzero, hprekeys,
      zero_add, ite_self]
  · apply List.sublist_nil.mp
    have hsublist := PrekeyStore.removeOutdated_sublist (user.prekeys.corrected (w.clock 0))
      (w.clock 0)
    rwa [PrekeyStore.corrected_deprecatedPrekeys, hnone, List.map_nil, ite_self] at hsublist

theorem exists_removed_prekey :
    ∃ (receiverId : PublicSigningKey ℕ) (packet : List ℕ) (reply : Reply ℕ)
      (state : Library ℕ × World ℕ),
      Library.call (loaded, expiringWorld) (.createUser false none) = (.ok reply, state) ∧
        Starts state receiverId packet ∧
        (find receiverId (Library.call state
          (.startReceiveConversation receiverId receiverId packet false)).2.1.users).isSome ∧
        ¬ KeepsPrekey (Library.call state
          (.startReceiveConversation receiverId receiverId packet false)).2 receiverId packet := by
  have hdraw : cryptoScalarmultBase (calmWorld.random 1 32) ≠
      cryptoScalarmultBase (expiringWorld.random 2 32) := fun h =>
    absurd (freshWorld_injective h) (by decide)
  obtain ⟨user, w, packet, reply, hcreate, hcalled, hreceived⟩ :=
    exists_first_packet_to shows_expiringWorld hdraw
  obtain ⟨hprekeys, -, hclock, hrandom⟩ := prekeys_expiringWorld hcreate
  obtain ⟨hlisted, hnone, hrotated⟩ := listed_expiringWorld hcreate
  have hlater : (expiringWorld.randombytesBuf 32).2.Shows SaneTime := shows_expiringWorld
  have huser : user.Reachable SaneTime := .create hlater (congrArg Prod.fst hcreate)
  have hlistedUser := huser.createPrekeyList (shows_expiringWorld.after ⟨100, hclock⟩)
  rw [User.createPrekeyList_eq, hrotated] at hcalled hlistedUser
  let listed : User ℕ := { user with prekeys := (user.prekeys.rotate w).1 }
  let state : Library ℕ × World ℕ :=
    (⟨[listed], some (expiringWorld.random 0 32)⟩, w.now.2.now.2)
  have hfound : find user.publicSigningKey state.1.users = some listed :=
    Keyed.find_eq_some_iff.mpr ⟨[], [], rfl, rfl, fun _ h => absurd h List.not_mem_nil⟩
  obtain ⟨r, prekeys, v, hstart⟩ := hreceived listed hlistedUser rfl
    (.inl (PrekeyStore.mem_activeKeys.mpr ⟨calmWorld.drawnPlace, rfl⟩)) state.2
  have hprekey (place : Fin prekeyAmount) : listed.prekeys.prekeys place =
      ⟨cryptoScalarmultBase (freshWorld.random (place + 3) 32), freshWorld.random (place + 3) 32,
        prekeyExpirationTime⟩ :=
    (congrFun hlisted place).trans (hprekeys place)
  have hreads (i : ℕ) : state.2.clock i = expiringWorld.clock (i + 2 + 100) := hclock (i + 2)
  have hmonth : 7200 ≤ prekeyExpirationTime := by decide
  refine ⟨user.publicSigningKey, packet, reply, state, hcalled,
    ⟨listed, _, hfound, congrArg Prod.fst hstart⟩, ?_, ?_⟩
  · obtain ⟨prekeyList, library', hcalled', hfound'⟩ :=
      startReceiveConversation_of_create user.publicSigningKey hfound hstart
    rw [hcalled', hfound']
    rfl
  · refine not_keepsPrekey_of_create _ hfound hstart ?_ hnone ?_ ?_ ?_ ?_
    · intro place place' hkey
      simp only [hprekey] at hkey
      exact Fin.ext (Nat.add_right_cancel (freshWorld_injective hkey))
    · intro place hkey
      rw [hprekey] at hkey
      have hnumber := freshWorld_injective
        ((congrArg (fun draw => cryptoScalarmultBase (draw 32)) (hrandom 0)).symm.trans hkey)
      have hlast : (place : ℕ) < 100 := place.isLt
      omega
    · intro place i
      rw [hprekey, hreads]
      exact (expiringWorld_le _).trans hmonth
    · intro i
      have hsecond : expiringWorld.clock (1 + 2 + 100) = 7200 := expiringWorld_late le_rfl
      rw [hreads, hreads, hsecond]
      exact (expiringWorld_le _).trans (hmonth.trans (Int.le_add_of_nonneg_left (by decide)))
    · intro i
      rw [hreads, hreads, expiringWorld_early (by decide), expiringWorld_late (by omega)]
      decide

/-- The packet comes again when a rotation has removed its prekey. -/
theorem replay_finds_no_prekey :
    ∃ (receiverId : PublicSigningKey ℕ) (packet : List ℕ),
      StartedIn (loaded, expiringWorld) [.createUser false none,
        .startReceiveConversation receiverId receiverId packet false] receiverId packet ∧
      (find receiverId (Runs.final Library.call (loaded, expiringWorld) [.createUser false none,
        .startReceiveConversation receiverId receiverId packet false]).1.users).isSome ∧
      StartsAtMostOnce (loaded, expiringWorld) [.createUser false none,
        .startReceiveConversation receiverId receiverId packet false,
        .startReceiveConversation receiverId receiverId packet false] := by
  obtain ⟨receiverId, packet, reply, state, hcreated, hstarts, hstays, hgone⟩ :=
    exists_removed_prekey
  have hfinal : Runs.final Library.call (loaded, expiringWorld) [.createUser false none] =
      state := by
    rw [Runs.final, hcreated, Runs.final]
  have hfinal' : Runs.final Library.call (loaded, expiringWorld) [.createUser false none,
      .startReceiveConversation receiverId receiverId packet false] =
        (Library.call state (.startReceiveConversation receiverId receiverId packet false)).2 := by
    rw [Runs.final, hcreated, Runs.final, Runs.final]
  refine ⟨receiverId, packet, ⟨[.createUser false none], receiverId, false, [], rfl, by
    rwa [hfinal]⟩, by simpa only [hfinal'] using hstays, ?_⟩
  apply starts_at_most_once
  intro before receiverId' senderId packet' createBackup after hcalls hstarted
  rcases before with _ | ⟨_, _ | ⟨_, _ | ⟨_, before⟩⟩⟩
  · cases hcalls
  · -- the first call with the packet comes after none
    cases hcalls
    obtain ⟨before', _, _, _, hbefore, -⟩ := hstarted
    rcases before' with _ | ⟨_, before'⟩
    · cases hbefore
    · simp at hbefore
  · cases hcalls
    rwa [hfinal']
  · simp at hcalls

end Symbolic

end Molch
