import Molch.Network
import Molch.PrekeyReplay

namespace Molch

open Sodium

section Start

variable {B : Type} [Byte B] [Sodium B] [ProtobufC B] [Platform]

namespace Session

/-- Two parties that have started reach a session in which the first packet of one of them has
arrived. What the receiver becomes does not depend on its clock. -/
theorem Started.reached_first (hideal : Idealised B) {session : Session B} (h : session.Started)
    (sender : Role) (message : List B) (prekeyMetadata : Option (PrekeyMetadata B))
    (w v : World B) :
    ∃ packet s r w' v', (session.party sender).send message prekeyMetadata w =
        (.ok packet, s, w') ∧
      (session.party sender.other).receive packet v = (.ok ⟨0, 0, message⟩, r, v') ∧
      ∃ session' : Session B, session'.Reached ∧ session'.party sender = s ∧
        session'.party sender.other = r ∧ session'.sent sender = [⟨packet, message, 0, 0⟩] ∧
        session'.sent sender.other = [] ∧ session'.delivered sender = [] ∧
        session'.delivered sender.other = [0] := by
  obtain ⟨-, hsendNumber, hpreviousNumber, -⟩ := h.numbers sender
  obtain ⟨-, -, -, hreceivedOther, hskippedOther, -⟩ := h.numbers sender.other
  have hsafe := h.safe hideal
  obtain ⟨data, ratchet, w', hdata, hempty⟩ := hsafe.getSendData hideal sender w
  obtain ⟨packet, w'', hsend, -⟩ := Conversation.send_of_getSendData hdata hempty message
    prekeyMetadata
  obtain ⟨hnumber, hprevious, -⟩ := numbers_of_getSendData hdata hsendNumber
    fun _ => hpreviousNumber
  have hsending : (session.step (.send sender message prekeyMetadata w)).Reached := by
    refine (Reached.start h).step fun _ => ?_
    rw [hsendNumber]
    decide
  have hstep : session.step (.send sender message prekeyMetadata w) = { session with
      party := Function.update session.party sender ⟨(session.party sender).id, ratchet⟩
      sent := Function.update session.sent sender [⟨packet, message, 0, 0⟩] } := by
    simp only [step, hdata, hsend, h.sent sender, hnumber, hprevious, List.nil_append]
  generalize session.step (.send sender message prekeyMetadata w) = sending at hsending hstep
  have hself : sending.party sender = ⟨(session.party sender).id, ratchet⟩ := by
    rw [hstep]
    exact Function.update_self _ _ _
  have hother : sending.party sender.other = session.party sender.other := by
    rw [hstep]
    exact Function.update_of_ne sender.other_ne _ _
  have hlog : sending.sent sender = [⟨packet, message, 0, 0⟩] := by
    rw [hstep]
    exact Function.update_self _ _ _
  have hlogOther : sending.sent sender.other = [] := by
    rw [hstep]
    exact (Function.update_of_ne sender.other_ne _ _).trans (h.sent _)
  have hdelivered : ∀ role, sending.delivered role = [] := by
    rw [hstep]
    exact h.delivered
  have hsent : (sending.sent sender.other.other)[0]? = some ⟨packet, message, 0, 0⟩ := by
    rw [Role.other_other, hlog]
    rfl
  have hadmissible : sending.Admissible (.deliver sender.other 0 v.atRest) := by
    intro sent hsent'
    cases hsent.symm.trans hsent'
    rw [hother]
    refine ⟨inReach_of_le_one hskippedOther ?_ (Nat.zero_le _) rfl, ?_, v.steady_atRest⟩
    · rw [hreceivedOther]
      exact Nat.zero_le _
    · rw [hskippedOther]
      exact fun key hkey => absurd hkey List.not_mem_nil
  obtain ⟨hresult, -, -⟩ := (hsending.safe hideal).deliver hideal hsent hadmissible
  have hfirst := hresult (by rw [hdelivered]; exact List.not_mem_nil)
  rw [hother] at hfirst
  generalize hreceive : (session.party sender.other).receive packet v.atRest = outcome at hfirst
  obtain ⟨result, r, v'⟩ := outcome
  obtain rfl : result = .ok ⟨0, 0, message⟩ := hfirst
  obtain ⟨hvalid, htried, hstaged, hchain⟩ := hsafe.ready hideal sender.other
  obtain ⟨r', v'', hreceive', hsame⟩ := Conversation.receive_any_time hideal.kdfNonzero hvalid
    htried hchain hreceive v
  obtain ⟨rfl, -⟩ := hsame hskippedOther hstaged rfl rfl
  refine ⟨packet, ⟨(session.party sender).id, ratchet⟩, _, w'', v'', hsend, hreceive', _,
    hsending.step hadmissible, ?_, ?_, ?_, ?_, ?_, ?_⟩
  · rw [party_step_deliver hsent, Function.update_of_ne sender.ne_other, hself]
  · rw [party_step_deliver hsent, Function.update_self, hother, Conversation.call, hreceive]
  · simp only [step, hsent, hlog]
  · simp only [step, hsent, hlogOther]
  · simp only [step, hsent, Function.update_of_ne sender.ne_other, hdelivered]
  · simp only [step, hsent, Function.update_self, hdelivered]

end Session

namespace Conversation

theorem first_packet_reached (hideal : Idealised B) {identity identity' : PrivateKey B}
    (hdistinct : cryptoScalarmultBase identity ≠ cryptoScalarmultBase identity')
    {prekeys prekeys' prekeys'' : PrekeyStore B} (hpairs : prekeys.All Prekey.IsPair)
    (hpairs' : prekeys'.All Prekey.IsPair) {message message' packet : List B}
    {s r : Conversation B} {w w' v v' : World B}
    (hsend : createSendConversation message (cryptoScalarmultBase identity) identity
      (cryptoScalarmultBase identity') prekeys.list w = (.ok (packet, s), w'))
    (hreceive : createReceiveConversation packet (cryptoScalarmultBase identity') identity'
      prekeys' v = (.ok (message', r), prekeys'', v')) :
    message' = message ∧ ∃ (session : Session B) (sender : Role), session.Reached ∧
      session.party sender = s ∧ session.party sender.other = r ∧
      session.sent sender = [⟨packet, message, 0, 0⟩] ∧ session.sent sender.other = [] ∧
      session.delivered sender = [] ∧ session.delivered sender.other = [0] := by
  have hplace := hpairs.active w.drawnPlace
  let metadata : PrekeyMetadata B := ⟨cryptoScalarmultBase identity,
    cryptoScalarmultBase (w.random 0 32), (prekeys.prekeys w.drawnPlace).publicKey⟩
  let sending : World B := { w with
    random := fun i => w.random (i + 2)
    uniform := fun i => w.uniform (i + 1) }
  obtain ⟨ratchet, _, hratchet, _, hsessions⟩ := Session.exists_between hideal identity
    (w.random 0 32) identity' (prekeys.prekeys w.drawnPlace).privateKey hdistinct
  rw [hplace] at hratchet
  obtain ⟨session, role, hstarted, hparty, -⟩ := hsessions (w.random 1 32) Key.zero
  obtain ⟨packet₁, s₁, -, w₁, -, hsend₁, -⟩ :=
    hstarted.reached_first hideal role message (some metadata) sending w
  rw [hparty] at hsend₁
  cases hsend.symm.trans (createSendConversation_of_send hratchet hsend₁)
  have hmetadata : unverifiedPrekeyMetadata packet = .ok metadata :=
    unverifiedPrekeyMetadata_of_send hideal.protobuf hsend₁
  cases hget : prekeys'.getPrekey metadata.prekey v with
  | mk result state =>
      cases result with
      | error e =>
          rw [createReceiveConversation, hmetadata] at hreceive
          simp only [hget] at hreceive
          cases hreceive
      | ok privatePrekey =>
          have hprivate : cryptoScalarmultBase privatePrekey = metadata.prekey :=
            hpairs'.pair_of_getPrekey (congrArg Prod.fst hget)
          -- the private prekey may be another one, but the sender has seen only the public one
          obtain ⟨ratchet₂, ratchet', hratchet₂, hratchet', hsessions'⟩ := Session.exists_between
            hideal identity (w.random 0 32) identity' privatePrekey hdistinct
          rw [hprivate] at hratchet₂ hratchet'
          cases hratchet.symm.trans hratchet₂
          obtain ⟨session', role', hstarted', hparty', hother'⟩ :=
            hsessions' (w.random 1 32) (state.2.random 0 32)
          obtain ⟨packet₂, s₂, r₂, w₂, v₂, hsend₂, hreceive₂, reached, hreached, hs, hr, hlog,
              hlogOther, hdelivered, hdeliveredOther⟩ :=
            hstarted'.reached_first hideal role' message (some metadata) sending
              (state.2.randombytesBuf 32).2
          rw [hparty'] at hsend₂
          rw [hother'] at hreceive₂
          cases hsend₁.symm.trans hsend₂
          cases hreceive.symm.trans
            (createReceiveConversation_of_receive hmetadata hget hratchet' hreceive₂)
          exact ⟨rfl, reached, role', hreached, hs, hr, hlog, hlogOther, hdelivered,
            hdeliveredOther⟩

omit [Platform] in
theorem ne_of_createSendConversation {message packet prekeyList : List B}
    {senderPublicIdentity receiverPublicIdentity : PublicKey B}
    {senderPrivateIdentity : PrivateKey B} {w w' : World B} {conversation : Conversation B}
    (h : createSendConversation message senderPublicIdentity senderPrivateIdentity
      receiverPublicIdentity prekeyList w = (.ok (packet, conversation), w')) :
    senderPublicIdentity ≠ receiverPublicIdentity := by
  rintro rfl
  rw [createSendConversation] at h
  split at h
  · cases h
  · simp only at h
    split at h
    · cases h
    · split at h
      · cases h
      · rename_i hcreate
        rw [create] at hcreate
        simp only at hcreate
        split at hcreate
        · cases hcreate
        · rename_i hratchet
          obtain ⟨role, _, hrole, -⟩ := Ratchet.exists_of_create hratchet
          rw [Ratchet.chooseRole_self] at hrole
          cases hrole

end Conversation

namespace UserStore

variable {id : ConversationId B} {users : List (User B)}

omit [Sodium B] [ProtobufC B] [Platform] in
theorem conversationOf_modify_add {userId : PublicSigningKey B} {user : User B}
    {conversation : Conversation B} (hfind : find userId users = some user)
    (hnew : conversationOf conversation.id users = none) :
    conversationOf conversation.id (modify userId (fun user => { user with
      conversations := ConversationStore.add conversation user.conversations }) users) =
        some conversation := by
  obtain ⟨before, after, rfl, huser, hbefore⟩ := Keyed.find_eq_some_iff.mp hfind
  rw [conversationOf_eq_findSome, List.findSome?_append, Option.or_eq_none_iff] at hnew
  have hadded : User.conversationOf conversation.id { user with
      conversations := ConversationStore.add conversation user.conversations } =
        some conversation := Keyed.find_add conversation user.conversations
  rw [modify, Keyed.modify_append huser hbefore, conversationOf_eq_findSome,
    List.findSome?_append, hnew.1, List.findSome?_cons, hadded]
  rfl

end UserStore

namespace Library

open UserStore

variable {library : Library B}

theorem exists_of_startSendConversation {senderId receiverId : PublicSigningKey B}
    {prekeyList message packet : List B} {createBackup : Bool} {backup : Option (List B)}
    {id : ConversationId B} {w : World B} {state : Library B × World B}
    (h : call (library, w) (.startSendConversation senderId receiverId prekeyList message
      createBackup) = (.ok (.startedSendConversation id packet backup), state)) :
    ∃ user identity s w₁ w₂, UserStore.find senderId library.users = some user ∧
      verifyPrekeyList prekeyList receiverId w = (.ok identity, w₁) ∧
      Conversation.createSendConversation message user.masterKeys.publicIdentityKey
        user.masterKeys.privateIdentityKey identity (signedPrekeys prekeyList) w₁ =
          (.ok (packet, s), w₂) ∧ s.id = id ∧
      state.1.users = UserStore.modify senderId (fun user => { user with
        conversations := ConversationStore.add s user.conversations }) library.users := by
  rw [call, startSendConversation] at h
  split at h
  · cases h
  · split at h
    · cases h
    · rename_i user hfound
      split at h
      · cases h
      · rename_i identity w₁ hverify
        split at h
        · cases h
        · rename_i packet' s w₂ hcreate
          simp only at h
          obtain ⟨hreply, hstate⟩ := Prod.mk.inj h
          obtain ⟨backup', -, hreply⟩ := Result.map_eq_ok.mp hreply
          cases hreply
          exact ⟨user, identity, s, w₁, w₂, hfound, hverify, hcreate, rfl,
            congrArg (fun state : Library B × World B => state.1.users) hstate.symm⟩

theorem exists_of_startReceiveConversation {receiverId senderId : PublicSigningKey B}
    {packet prekeyList message : List B} {createBackup : Bool} {backup : Option (List B)}
    {id : ConversationId B} {w : World B} {state : Library B × World B}
    (h : call (library, w) (.startReceiveConversation receiverId senderId packet createBackup) =
      (.ok (.startedReceiveConversation id prekeyList message backup), state))
    (hnew : conversationOf id library.users = none) :
    ∃ user r prekeys w₁, UserStore.find receiverId library.users = some user ∧
      Conversation.createReceiveConversation packet user.masterKeys.publicIdentityKey
        user.masterKeys.privateIdentityKey user.prekeys w = (.ok (message, r), prekeys, w₁) ∧
      conversationOf id state.1.users = some r := by
  rw [call, startReceiveConversation] at h
  split at h
  · cases h
  · rename_i user hfound
    simp only at h
    split at h
    · cases h
    · rename_i message' r hcreate
      generalize hreceived : Conversation.createReceiveConversation packet
        user.masterKeys.publicIdentityKey user.masterKeys.privateIdentityKey user.prekeys w =
          received at h hcreate
      obtain ⟨result, prekeys, w₁⟩ := received
      obtain rfl : result = .ok (message', r) := hcreate
      have hkey : user.publicSigningKey = receiverId := Keyed.key_of_find hfound
      have hfind : UserStore.find receiverId (UserStore.modify receiverId
          (fun user => { user with prekeys := prekeys }) library.users) =
            some { user with prekeys := prekeys } :=
        Keyed.find_modify hfound hkey
      have hlist := conversationOf_createPrekeyList id
        ⟨UserStore.modify receiverId (fun user => { user with prekeys := prekeys }) library.users,
          library.globalBackupKey⟩ receiverId w₁
      have hprekeys : conversationOf id (UserStore.modify receiverId
          (fun user => { user with prekeys := prekeys }) library.users) = none := by
        rw [conversationOf_modify]
        · exact hnew
        · exact fun user => rfl
      rw [createPrekeyList] at hlist h
      simp only [hfind, hprekeys] at hlist h
      obtain ⟨hreply, hstate⟩ := Prod.mk.inj h
      obtain ⟨backup', -, hreply⟩ := Result.map_eq_ok.mp hreply
      cases hreply
      refine ⟨user, r, prekeys, w₁, hfound, hreceived, ?_⟩
      rw [← hstate]
      refine conversationOf_modify_add (Keyed.find_modify hfind ?_) hlist
      rw [User.createPrekeyList_eq]
      exact hkey

theorem exists_of_getPrekeyList {userId : PublicSigningKey B} {prekeyList : List B} {w : World B}
    (h : (call (library, w) (.getPrekeyList userId)).1 = .ok (.prekeyList prekeyList)) :
    ∃ user, UserStore.find userId library.users = some user ∧
      prekeyList = (user.createPrekeyList w).1 := by
  rw [call, createPrekeyList] at h
  cases hfound : UserStore.find userId library.users with
  | none =>
      rw [hfound] at h
      cases h
  | some user =>
      rw [hfound] at h
      cases h
      exact ⟨user, rfl, rfl⟩

end Library

namespace Network

open Library UserStore

/-- Once a conversation has been started with a published list and its packet has been accepted
by the user who published it, both libraries are in a network. -/
theorem first_contact (hideal : Idealised B) (hsign : SignRoundTrip B) {times : ℤ → Prop}
    {publishing sending receiving : Library B} (hpublishing : publishing.Reachable times)
    (hsending : sending.Reachable times) (hreceiving : receiving.Reachable times)
    {senderId receiverId senderId' : PublicSigningKey B} {id id' : ConversationId B}
    {message message' prekeyList prekeyList' packet : List B} {createBackup createBackup' : Bool}
    {backup backup' : Option (List B)} {u w v : World B} {sender receiver : Library B × World B}
    (hlist : (call (publishing, u) (.getPrekeyList receiverId)).1 =
      .ok (.prekeyList prekeyList))
    (hsame : (UserStore.find receiverId receiving.users).map User.masterKeys =
      (UserStore.find receiverId publishing.users).map User.masterKeys)
    (hnew : conversationOf id sending.users = none)
    (hstart : call (sending, w) (.startSendConversation senderId receiverId prekeyList message
      createBackup) = (.ok (.startedSendConversation id packet backup), sender))
    (hnew' : conversationOf id' receiving.users = none)
    (hreceive : call (receiving, v) (.startReceiveConversation receiverId senderId' packet
      createBackup') = (.ok (.startedReceiveConversation id' prekeyList' message' backup'),
        receiver)) :
    message' = message ∧ ∃ (session : Session B) (role : Role),
      Reached (role.assign id id') ⟨role.assign sender receiver, session⟩ ∧
      session.sent role = [⟨packet, message, 0, 0⟩] ∧ session.sent role.other = [] ∧
      session.delivered role = [] ∧ session.delivered role.other = [0] := by
  have hsound : ∀ {library : Library B}, library.Reachable times → Sound times library.users :=
    fun h => h.sound hideal.protobuf hideal.secretbox hideal.keyBound
  obtain ⟨publisher, hpublisher, rfl⟩ := exists_of_getPrekeyList hlist
  obtain ⟨user, identity, s, w₁, w₂, huser, hverify, hcreate, rfl, hafter⟩ :=
    exists_of_startSendConversation hstart
  obtain ⟨user', r, prekeys, v₁, huser', hcreate', hr⟩ :=
    exists_of_startReceiveConversation hreceive hnew'
  rw [huser', hpublisher] at hsame
  have hmasterKeys : user'.masterKeys = publisher.masterKeys := Option.some.inj hsame
  have hpublisherReachable := (hsound hpublishing).all publisher (Keyed.mem_of_find hpublisher)
  have hgenuine' := ((hsound hreceiving).all user' (Keyed.mem_of_find huser')).genuine
  have hours := ((hsound hsending).all user (Keyed.mem_of_find huser)).genuine.masterKeys.identity
  have htheirs := hpublisherReachable.genuine.masterKeys.identity
  have hid : publisher.publicSigningKey = receiverId := Keyed.key_of_find hpublisher
  have hshows : u.Shows fun _ => True := fun _ => trivial
  have hpairs := hpublisherReachable.genuine.prekeys.rotate (Prekey.lasting_isPair _) hshows
  rw [← hid] at hverify
  obtain ⟨rfl, rfl⟩ := verified_createPrekeyList hsign hpublisherReachable hverify
  have hdistinct := Conversation.ne_of_createSendConversation hcreate
  rw [signedPrekeys_createPrekeyList, hours, htheirs] at hcreate
  rw [hmasterKeys, htheirs] at hcreate'
  rw [hours, htheirs] at hdistinct
  obtain ⟨hmessage, session, role, hreached, hs, hr', hlog⟩ :=
    Conversation.first_packet_reached hideal hdistinct hpairs hgenuine'.prekeys hcreate hcreate'
  refine ⟨hmessage, session, role, .start hreached ?_, hlog⟩
  refine (role.forall_iff _).mpr ⟨?_, ?_⟩
  · simp only [Role.assign_self, hs, hafter]
    exact conversationOf_modify_add huser hnew
  · simp only [Role.assign_other, hr', hr]

end Network

end Start

namespace Symbolic

open Library UserStore

theorem exists_created_library {w : World ℕ} (hw : w.Shows SaneTime) :
    ∃ (library : Library ℕ) (user : User ℕ), library.Reachable SaneTime ∧
      library.users = [user] ∧ user.conversations = [] ∧
      user.masterKeys.publicIdentityKey = cryptoScalarmultBase (w.random 2 32) := by
  obtain ⟨user, w', hcreate, hidentity⟩ := exists_created_user (w.randombytesBuf 32).2
  obtain ⟨masterKeys, v, -, -, huser⟩ := User.exists_of_create (congrArg Prod.fst hcreate)
  have hcall : (Library.call (loaded, w) (.createUser false none)).2.1 =
      ⟨[(user.createPrekeyList w').2.1], some (w.random 0 32)⟩ := by
    rw [Library.call, createUser_eq _ _ hcreate]
    rfl
  refine ⟨⟨[(user.createPrekeyList w').2.1], some (w.random 0 32)⟩,
    (user.createPrekeyList w').2.1, ?_, rfl, ?_, ?_⟩
  · rw [← hcall]
    exact .call .loaded .loaded hw _ fun backup hbackup => by cases hbackup
  · rw [User.createPrekeyList_eq, huser]
  · rw [User.createPrekeyList_eq, hidentity]
    rfl

theorem conversationOf_single {user : User ℕ} (h : user.conversations = [])
    (id : ConversationId ℕ) : conversationOf id [user] = none := by
  rw [conversationOf, findConversation, h]
  rfl

theorem find_single {user : User ℕ} : UserStore.find user.publicSigningKey [user] = some user := by
  simp [UserStore.find, Keyed.find]

/-- Two users in two libraries meet for the first time. -/
theorem first_contact_calm :
    ∃ (id id' : ConversationId ℕ) (packet : List ℕ) (network : Network ℕ) (role : Role),
      network.Reached (role.assign id id') ∧
      network.session.sent role = [⟨packet, [1, 2, 3], 0, 0⟩] ∧
      network.session.delivered role.other = [0] := by
  have hlater : (calmWorld.randombytesBuf 1).2.Shows SaneTime := shows_calmWorld
  obtain ⟨publishing, receiver, hpublishing, hreceivers, hnone, htheirs⟩ :=
    exists_created_library shows_calmWorld
  obtain ⟨sending, sender, hsending, hsenders, hnone', hours⟩ := exists_created_library hlater
  have hsound : ∀ {library : Library ℕ}, library.Reachable SaneTime →
      Sound SaneTime library.users :=
    fun h => h.sound protobufRoundTrip secretboxRoundTrip secretboxKeyBound
  have hreceiver := (hsound hpublishing).all receiver (by rw [hreceivers]; exact List.mem_cons_self)
  have hsender := (hsound hsending).all sender (by rw [hsenders]; exact List.mem_cons_self)
  have hdistinct : sender.masterKeys.publicIdentityKey ≠
      receiver.masterKeys.publicIdentityKey := by
    rw [hours, htheirs]
    intro h
    exact absurd (freshWorld_injective h) (by decide)
  have hverify := verifyPrekeyList_calm hreceiver (.refl calmWorld)
  obtain ⟨packet, s, w, hsend, hreceived⟩ := exists_first_packet idealised signRoundTrip hsender
    hreceiver hdistinct [1, 2, 3] hverify
  obtain ⟨listed, hrotated⟩ : ∃ listed, listed = (receiver.createPrekeyList calmWorld).2.1 :=
    ⟨_, rfl⟩
  have hlisted : listed.publicSigningKey = receiver.publicSigningKey := by
    rw [hrotated, User.createPrekeyList_eq]
  have hkeys : listed.masterKeys = receiver.masterKeys := by
    rw [hrotated, User.createPrekeyList_eq]
  have hconversations : listed.conversations = [] := by
    rw [hrotated, User.createPrekeyList_eq]
    exact hnone
  have hcall : Library.call (publishing, calmWorld) (.getPrekeyList receiver.publicSigningKey) =
      (.ok (.prekeyList (receiver.createPrekeyList calmWorld).1),
        ⟨[listed], publishing.globalBackupKey⟩, (receiver.createPrekeyList calmWorld).2.2) := by
    rw [Library.call, createPrekeyList, hreceivers, find_single]
    simp [UserStore.modify, Keyed.modify, hrotated]
  have hreceiving := hpublishing.call .loaded shows_calmWorld
    (.getPrekeyList receiver.publicSigningKey) (fun backup hbackup => by cases hbackup)
  rw [hcall] at hreceiving
  have hstart : Library.call (sending, calmWorld) (.startSendConversation sender.publicSigningKey
      receiver.publicSigningKey (receiver.createPrekeyList calmWorld).1 [1, 2, 3] false) =
        (.ok (.startedSendConversation s.id packet none),
          ⟨UserStore.modify sender.publicSigningKey (fun user => { user with
            conversations := ConversationStore.add s user.conversations }) sending.users,
            sending.globalBackupKey⟩, w) := by
    rw [Library.call, startSendConversation, if_neg (receiver.length_createPrekeyList calmWorld)]
    simp only [hsenders, find_single, hverify, hsend]
    rfl
  have hlistedReachable : listed.Reachable SaneTime := (hsound hreceiving).all listed
    List.mem_cons_self
  obtain ⟨r, prekeys, v, hcreate⟩ := hreceived listed hlistedReachable hkeys
    (.inl (PrekeyStore.mem_activeKeys.mpr ⟨_, by rw [hrotated]⟩)) calmWorld
  have hfound : UserStore.find receiver.publicSigningKey
      ((⟨[listed], publishing.globalBackupKey⟩, calmWorld) : Library ℕ × World ℕ).1.users =
        some listed := by
    rw [← hlisted]
    exact find_single
  obtain ⟨prekeyList, library', hreceive, -⟩ :=
    startReceiveConversation_of_create sender.publicSigningKey hfound hcreate
  obtain ⟨-, session, role, hreached, hsent, -, -, hdelivered⟩ := Network.first_contact idealised
    signRoundTrip hpublishing hsending hreceiving (congrArg Prod.fst hcall)
    (by rw [hfound, hreceivers, find_single, Option.map_some, Option.map_some, hkeys])
    (by rw [hsenders]; exact conversationOf_single hnone' s.id) hstart
    (conversationOf_single hconversations r.id) hreceive
  exact ⟨s.id, r.id, packet, _, role, hreached, hsent, hdelivered⟩

end Symbolic

end Molch
