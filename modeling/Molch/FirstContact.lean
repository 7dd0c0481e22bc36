import Molch.Library
import Molch.UserLife

namespace Molch

open Sodium

variable {B : Type} [Byte B] [Sodium B]

section PrekeyLists

omit [Byte B] in
theorem cryptoSignOpen_sign (hsign : SignRoundTrip B) {masterKeys : MasterKeys B}
    (h : masterKeys.Paired) (data : List B) :
    cryptoSignOpen (masterKeys.sign data) masterKeys.publicSigningKey = .ok data := by
  obtain ⟨seed, hseed⟩ := h.signing
  have hverify := hsign seed data
  rw [hseed] at hverify
  have hlength := (cryptoSignDetached data masterKeys.privateSigningKey).length_bytes
  rw [cryptoSignOpen, dif_pos (by simp [MasterKeys.sign, cryptoSign, hlength])]
  simp [MasterKeys.sign, cryptoSign, List.take_left' hlength, List.drop_left' hlength, hverify]

/-- What `verify_prekey_list` reads as the date on which the list expires. -/
def User.listExpiration (user : User B) (w : World B) : ℤ :=
  int64OfBigEndian (toBigEndian 8 (((user.prekeys.rotate w).2.clock 0 + 3 * month) % 2 ^ 64).toNat :
    List B)

omit [Sodium B] in
theorem int64OfBigEndian_toBigEndian {date : ℤ} (hlow : -2 ^ 63 ≤ date) (hhigh : date < 2 ^ 63) :
    int64OfBigEndian (toBigEndian 8 (date % 2 ^ 64).toNat : List B) = date := by
  have hread : fromBigEndian (toBigEndian 8 (date % 2 ^ 64).toNat : List B) =
      (date % 2 ^ 64).toNat := by
    rw [fromBigEndian_toBigEndian]
    exact Nat.mod_eq_of_lt (by omega)
  rw [int64OfBigEndian, hread]
  split <;> omega

theorem User.listExpiration_of_fits (user : User B) {w : World B}
    (hlow : -2 ^ 63 ≤ (user.prekeys.rotate w).2.clock 0 + 3 * month)
    (hhigh : (user.prekeys.rotate w).2.clock 0 + 3 * month < 2 ^ 63) :
    user.listExpiration w = (user.prekeys.rotate w).2.clock 0 + 3 * month :=
  int64OfBigEndian_toBigEndian hlow hhigh

theorem User.listExpiration_eq (user : User B) {w : World B} (hw : w.Shows SaneTime) :
    user.listExpiration w = (user.prekeys.rotate w).2.clock 0 + 3 * month := by
  obtain ⟨hlow, hhigh⟩ := hw.after (PrekeyStore.after_rotate user.prekeys w) 0
  refine user.listExpiration_of_fits ?_ hhigh
  rw [month]
  omega

theorem verifyPrekeyList_of_open {prekeyList list date : List B} {key : PublicSigningKey B}
    {identity : PublicKey B}
    (hopen : cryptoSignOpen prekeyList key = .ok (identity.bytes ++ list ++ date))
    (hlist : list.length = 32 * prekeyAmount) (hdate : date.length = 8) (w : World B) :
    verifyPrekeyList prekeyList key w =
      if int64OfBigEndian date < w.clock 0 then
        (.error (.error ⟨.outdated, "Prekey list has expired (older than 3 months)."⟩), w.now.2)
      else (.ok identity, w.now.2) := by
  have hbody : (identity.bytes ++ list).length = 32 + 32 * prekeyAmount := by
    rw [List.length_append, identity.length_bytes, hlist]
  have hlength : ¬ (identity.bytes ++ list ++ date).length < 32 + 32 * prekeyAmount + 8 := by
    rw [List.length_append, hbody, hdate]
    exact lt_irrefl _
  have hread : ((identity.bytes ++ list ++ date).drop (32 + 32 * prekeyAmount)).take 8 = date := by
    rw [List.drop_left' hbody, List.take_of_length_le hdate.le]
  have hfirst : (identity.bytes ++ list ++ date).take 32 = identity.bytes := by
    rw [List.append_assoc, List.take_left' identity.length_bytes]
  rw [verifyPrekeyList, hopen]
  simp only [if_neg hlength, hread, hfirst, Key.fromSpan_bytes]
  rfl

theorem verifyPrekeyList_createPrekeyList (hsign : SignRoundTrip B) {user : User B}
    (h : user.masterKeys.Paired) (w₀ w : World B) :
    verifyPrekeyList (user.createPrekeyList w₀).1 user.masterKeys.publicSigningKey w =
      if user.listExpiration w₀ < w.clock 0 then
        (.error (.error ⟨.outdated, "Prekey list has expired (older than 3 months)."⟩), w.now.2)
      else (.ok user.masterKeys.publicIdentityKey, w.now.2) := by
  rw [User.createPrekeyList_eq]
  exact verifyPrekeyList_of_open (cryptoSignOpen_sign hsign h _) (PrekeyStore.length_list _)
    (length_toBigEndian _ _) w

theorem signedPrekeys_createPrekeyList (user : User B) (w : World B) :
    Library.signedPrekeys (user.createPrekeyList w).1 = (user.prekeys.rotate w).1.list := by
  rw [User.createPrekeyList_eq]
  generalize (user.prekeys.rotate w).1 = prekeys
  generalize (user.prekeys.rotate w).2.clock 0 + 3 * month = date
  have hlist := prekeys.length_list
  simp only [MasterKeys.sign, cryptoSign, User.unsignedPrekeyList]
  generalize hsignature : (cryptoSignDetached _ user.masterKeys.privateSigningKey).bytes = signature
  have hhead : (signature ++ user.masterKeys.publicIdentityKey.bytes).length = 32 + 64 := by
    rw [List.length_append, ← hsignature, Key.length_bytes, Key.length_bytes]
  rw [Library.signedPrekeys, ← List.append_assoc, ← List.append_assoc, List.append_assoc _ prekeys.list,
    List.drop_left' hhead]
  apply List.take_left'
  rw [List.length_append, hhead, List.length_append, length_toBigEndian]
  omega

end PrekeyLists

namespace Role

variable {α : Type}

def assign (role : Role) (ours theirs : α) : Role → α :=
  Function.update (fun _ => theirs) role ours

theorem assign_self (role : Role) (ours theirs : α) : role.assign ours theirs role = ours :=
  Function.update_self _ _ _

theorem assign_other (role : Role) (ours theirs : α) :
    role.assign ours theirs role.other = theirs :=
  Function.update_of_ne role.other_ne _ _

theorem forall_iff (role : Role) (p : Role → Prop) : (∀ r, p r) ↔ p role ∧ p role.other := by
  constructor
  · intro h
    exact ⟨h role, h role.other⟩
  · rintro ⟨hrole, hother⟩ r
    cases role with
    | alice =>
        cases r with
        | alice => exact hrole
        | bob => exact hother
    | bob =>
        cases r with
        | alice => exact hother
        | bob => exact hrole

end Role

namespace Ratchet

omit [Sodium B] in
theorem exists_chooseRole {ourPublicIdentity theirPublicIdentity : PublicKey B}
    (h : ourPublicIdentity ≠ theirPublicIdentity) :
    ∃ role, chooseRole ourPublicIdentity theirPublicIdentity = .ok role := by
  rw [chooseRole]
  split_ifs with hone hminus
  · exact ⟨_, rfl⟩
  · exact ⟨_, rfl⟩
  · have hzero : sodiumCompare ourPublicIdentity.bytes theirPublicIdentity.bytes = 0 := by
      rw [sodiumCompare] at hone hminus ⊢
      split_ifs at hone hminus ⊢ <;> simp_all
    exact absurd (Key.ext (sodiumCompare_eq_zero.mp hzero)) h

end Ratchet

variable [ProtobufC B]

theorem Session.exists_between (hideal : Idealised B)
    (identity ephemeral identity' ephemeral' : PrivateKey B)
    (hdistinct : cryptoScalarmultBase identity ≠ cryptoScalarmultBase identity') :
    ∃ ratchet ratchet',
      Ratchet.create identity (cryptoScalarmultBase identity) (cryptoScalarmultBase identity')
        ephemeral (cryptoScalarmultBase ephemeral) (cryptoScalarmultBase ephemeral') =
          .ok ratchet ∧
      Ratchet.create identity' (cryptoScalarmultBase identity') (cryptoScalarmultBase identity)
        ephemeral' (cryptoScalarmultBase ephemeral') (cryptoScalarmultBase ephemeral) =
          .ok ratchet' ∧
      ∀ id id' : ConversationId B, ∃ (session : Session B) (role : Role), session.Started ∧
        session.party role = ⟨id, ratchet⟩ ∧ session.party role.other = ⟨id', ratchet'⟩ := by
  have husable : ∀ key : PrivateKey B, Usable (cryptoScalarmultBase key) :=
    fun key privateKey => hideal.total privateKey key
  obtain ⟨role, hrole⟩ := Ratchet.exists_chooseRole hdistinct
  have hother := Ratchet.chooseRole_other hrole
  obtain ⟨ratchet, hratchet⟩ := Ratchet.exists_create hrole (husable identity')
    (husable ephemeral') identity ephemeral (cryptoScalarmultBase ephemeral)
  obtain ⟨ratchet', hratchet'⟩ := Ratchet.exists_create hother (husable identity)
    (husable ephemeral) identity' ephemeral' (cryptoScalarmultBase ephemeral')
  refine ⟨ratchet, ratchet', hratchet, hratchet', ?_⟩
  intro id id'
  refine ⟨⟨role.assign ⟨id, ratchet⟩ ⟨id', ratchet'⟩, fun _ => [], fun _ => []⟩, role, ?_,
    role.assign_self _ _, role.assign_other _ _⟩
  apply started_of_create (role.assign identity identity') (role.assign ephemeral ephemeral')
  · refine (role.forall_iff _).mpr ⟨?_, ?_⟩
    · rw [role.assign_self, role.assign_other]
      exact hrole
    · rw [role.other_other, role.assign_self, role.assign_other]
      exact hother
  · refine (role.forall_iff _).mpr ⟨?_, ?_⟩
    · rw [role.assign_self, role.assign_other, role.assign_self, role.assign_other, role.assign_self]
      exact hratchet
    · rw [role.other_other, role.assign_self, role.assign_other, role.assign_self,
        role.assign_other, role.assign_other]
      exact hratchet'

def World.drawnPlace (w : World B) : Fin prekeyAmount :=
  ⟨w.uniform 0 % prekeyAmount, Nat.mod_lt _ (by decide)⟩

omit [Byte B] [Sodium B] [ProtobufC B] in
theorem PrekeyStore.fromSpan_drawn (prekeys : PrekeyStore B) (w : World B) :
    Key.fromSpan ((prekeys.list.drop (32 * (w.uniform 0 % prekeyAmount))).take 32) =
      .ok (prekeys.prekeys w.drawnPlace).publicKey := by
  have hlist := prekeys.take_drop_list w.drawnPlace
  rw [World.drawnPlace] at hlist ⊢
  rw [hlist, Key.fromSpan_bytes]

namespace Conversation

theorem createSendConversation_of_send {message packet : List B}
    {senderPublicIdentity receiverPublicIdentity : PublicKey B}
    {senderPrivateIdentity : PrivateKey B} {prekeys : PrekeyStore B} {w w' : World B}
    {ratchet : Ratchet B} {conversation : Conversation B}
    (hcreate : Ratchet.create senderPrivateIdentity senderPublicIdentity receiverPublicIdentity
      (w.random 0 32) (cryptoScalarmultBase (w.random 0 32))
      (prekeys.prekeys w.drawnPlace).publicKey = .ok ratchet)
    (hsend : (⟨w.random 1 32, ratchet⟩ : Conversation B).send message
      (some ⟨senderPublicIdentity, cryptoScalarmultBase (w.random 0 32),
        (prekeys.prekeys w.drawnPlace).publicKey⟩)
      { w with
        random := fun i => w.random (i + 2)
        uniform := fun i => w.uniform (i + 1) } = (.ok packet, conversation, w')) :
    createSendConversation message senderPublicIdentity senderPrivateIdentity
      receiverPublicIdentity prekeys.list w = (.ok (packet, conversation), w') := by
  rw [createSendConversation, if_neg (not_not.mpr prekeys.length_list)]
  simp only [cryptoBoxKeypair, World.randombytesBuf, World.randombytesUniform,
    prekeys.fromSpan_drawn w, create_of_ratchet hcreate, Nat.zero_add, hsend]

variable [Platform]

theorem createReceiveConversation_of_receive {packet message : List B}
    {metadata : PrekeyMetadata B} {publicIdentity : PublicKey B} {privateIdentity : PrivateKey B}
    {privatePrekey : PrivateKey B} {prekeys prekeys' : PrekeyStore B} {v v' v'' : World B}
    {ratchet : Ratchet B} {conversation : Conversation B} {number previousNumber : UInt32}
    (hmetadata : unverifiedPrekeyMetadata packet = .ok metadata)
    (hget : prekeys.getPrekey metadata.prekey v = (.ok privatePrekey, prekeys', v'))
    (hcreate : Ratchet.create privateIdentity publicIdentity metadata.identity privatePrekey
      metadata.prekey metadata.ephemeral = .ok ratchet)
    (hreceive : (⟨v'.random 0 32, ratchet⟩ : Conversation B).receive packet
      (v'.randombytesBuf 32).2 =
        (.ok ⟨number, previousNumber, message⟩, conversation, v'')) :
    createReceiveConversation packet publicIdentity privateIdentity prekeys v =
      (.ok (message, conversation), prekeys', v'') := by
  rw [createReceiveConversation, hmetadata]
  simp only [hget, create_of_ratchet hcreate, hreceive]

omit [Platform] in
theorem unverifiedPrekeyMetadata_of_send (hproto : ProtobufRoundTrip B)
    {conversation conversation' : Conversation B} {message packet : List B}
    {metadata : PrekeyMetadata B} {w w' : World B}
    (h : conversation.send message (some metadata) w = (.ok packet, conversation', w')) :
    unverifiedPrekeyMetadata packet = .ok metadata := by
  obtain ⟨data, ratchet, w'', hdata, hkey⟩ := getSendData_of_send h
  rw [send_eq hdata hkey] at h
  cases h
  rw [unverifiedPrekeyMetadata, packetGetMetadataWithoutVerification,
    packetUnpack_encryptedPacketStruct hproto _ _ _ _ _ _ _ _
      (sentType_eq_prekeyMessage (some metadata))]
  rfl

/-- The next message of the party that has sent the first one is understood, and so is the
reply of the other one. -/
structure Corresponds (sender receiver : Conversation B) : Prop where
  next : ∀ message w v, ∃ packet sender' w',
    sender.send message none w = (.ok packet, sender', w') ∧
      (receiver.receive packet v).1 = .ok ⟨1, 0, message⟩
  reply : ∀ message w v, ∃ packet receiver' w',
    receiver.send message none w = (.ok packet, receiver', w') ∧
      (sender.receive packet v).1 = .ok ⟨0, 0, message⟩

end Conversation

open Conversation

section Users

variable [Platform]

omit [ProtobufC B] [Platform] in
theorem PrekeyStore.All.exists_getPrekey {prekeys : PrekeyStore B}
    (h : prekeys.All Prekey.IsPair) {publicKey : PublicKey B}
    (hkey : publicKey ∈ prekeys.activeKeys ∨ publicKey ∈ prekeys.deprecatedKeys) (v : World B) :
    ∃ privateKey prekeys' v', prekeys.getPrekey publicKey v = (.ok privateKey, prekeys', v') ∧
      cryptoScalarmultBase privateKey = publicKey := by
  rcases prekeys.getPrekey_cases publicKey v with
    ⟨index, rfl, heq⟩ | ⟨-, prekey, hprekey, rfl, heq⟩ | ⟨hactive, hdeprecated, -⟩
  · exact ⟨_, _, _, heq, h.active index⟩
  · exact ⟨_, _, _, heq, h.deprecated prekey hprekey⟩
  · exact absurd hkey (not_or.mpr ⟨hactive, hdeprecated⟩)

theorem first_packet_received (hideal : Idealised B) {identity identity' : PrivateKey B}
    (hdistinct : cryptoScalarmultBase identity ≠ cryptoScalarmultBase identity')
    {prekeys : PrekeyStore B} (hpairs : prekeys.All Prekey.IsPair) (message : List B)
    (w : World B) :
    ∃ packet s w', createSendConversation message (cryptoScalarmultBase identity) identity
        (cryptoScalarmultBase identity') prekeys.list w = (.ok (packet, s), w') ∧
      ∀ prekeys' : PrekeyStore B, prekeys'.All Prekey.IsPair →
        (prekeys.prekeys w.drawnPlace).publicKey ∈ prekeys'.activeKeys ∨
          (prekeys.prekeys w.drawnPlace).publicKey ∈ prekeys'.deprecatedKeys →
        ∀ v, ∃ r prekeys'' v', createReceiveConversation packet (cryptoScalarmultBase identity')
          identity' prekeys' v = (.ok (message, r), prekeys'', v') ∧ Corresponds s r := by
  have hplace := hpairs.active w.drawnPlace
  obtain ⟨ratchet, _, hratchet, _, hsessions⟩ := Session.exists_between hideal identity
    (w.random 0 32) identity' (prekeys.prekeys w.drawnPlace).privateKey hdistinct
  rw [hplace] at hratchet
  obtain ⟨session, role, hstarted, hparty, -⟩ := hsessions (w.random 1 32) Key.zero
  obtain ⟨packet, s, -, w', -, hsend, -⟩ := hstarted.first_messages hideal role message
    (some ⟨cryptoScalarmultBase identity, cryptoScalarmultBase (w.random 0 32),
      (prekeys.prekeys w.drawnPlace).publicKey⟩)
    { w with
      random := fun i => w.random (i + 2)
      uniform := fun i => w.uniform (i + 1) } w
  rw [hparty] at hsend
  refine ⟨packet, s, w', createSendConversation_of_send hratchet hsend, ?_⟩
  intro prekeys' hpairs' hkey v
  obtain ⟨privatePrekey, prekeys'', v', hget, hprivate⟩ := hpairs'.exists_getPrekey hkey v
  -- the private prekey may be another one, but the sender has seen only the public one
  obtain ⟨ratchet₁, ratchet', hratchet₁, hratchet', hsessions'⟩ := Session.exists_between hideal
    identity (w.random 0 32) identity' privatePrekey hdistinct
  rw [hprivate] at hratchet₁ hratchet'
  cases hratchet.symm.trans hratchet₁
  obtain ⟨session', role', hstarted', hparty', hother'⟩ :=
    hsessions' (w.random 1 32) (v'.random 0 32)
  obtain ⟨packet₁, s₁, r, w₁, v'', hsend₁, hreceive, hnext, hreply⟩ :=
    hstarted'.first_messages hideal role' message
      (some ⟨cryptoScalarmultBase identity, cryptoScalarmultBase (w.random 0 32),
        (prekeys.prekeys w.drawnPlace).publicKey⟩)
      { w with
        random := fun i => w.random (i + 2)
        uniform := fun i => w.uniform (i + 1) } (v'.randombytesBuf 32).2
  rw [hparty'] at hsend₁
  rw [hother'] at hreceive
  cases hsend.symm.trans hsend₁
  exact ⟨r, prekeys'', v'', createReceiveConversation_of_receive
    (unverifiedPrekeyMetadata_of_send hideal.protobuf hsend) hget hratchet' hreceive,
    hnext, hreply⟩

theorem verified_createPrekeyList (hsign : SignRoundTrip B) {times : ℤ → Prop} {receiver : User B}
    (h : receiver.Reachable times) {w₀ w w' : World B} {identity : PublicKey B}
    (hverify : verifyPrekeyList (receiver.createPrekeyList w₀).1 receiver.publicSigningKey w =
      (.ok identity, w')) :
    identity = receiver.masterKeys.publicIdentityKey ∧ w' = w.now.2 := by
  rw [h.genuine.id, verifyPrekeyList_createPrekeyList hsign h.genuine.masterKeys] at hverify
  split at hverify
  · cases hverify
  · cases hverify
    exact ⟨rfl, rfl⟩

theorem exists_first_packet (hideal : Idealised B) (hsign : SignRoundTrip B) {times : ℤ → Prop}
    {sender receiver : User B} (hsender : sender.Reachable times)
    (hreceiver : receiver.Reachable times)
    (hdistinct : sender.masterKeys.publicIdentityKey ≠ receiver.masterKeys.publicIdentityKey)
    (message : List B) {w₀ w w' : World B} {identity : PublicKey B}
    (hverify : verifyPrekeyList (receiver.createPrekeyList w₀).1 receiver.publicSigningKey w =
      (.ok identity, w')) :
    ∃ packet s w'', createSendConversation message sender.masterKeys.publicIdentityKey
        sender.masterKeys.privateIdentityKey identity
        (Library.signedPrekeys (receiver.createPrekeyList w₀).1) w' = (.ok (packet, s), w'') ∧
      ∀ user : User B, user.Reachable times → user.masterKeys = receiver.masterKeys →
        let prekey := ((receiver.createPrekeyList w₀).2.1.prekeys.prekeys w'.drawnPlace).publicKey
        prekey ∈ user.prekeys.activeKeys ∨ prekey ∈ user.prekeys.deprecatedKeys →
        ∀ v, ∃ r prekeys v', createReceiveConversation packet user.masterKeys.publicIdentityKey
          user.masterKeys.privateIdentityKey user.prekeys v = (.ok (message, r), prekeys, v') := by
  obtain ⟨rfl, rfl⟩ := verified_createPrekeyList hsign hreceiver hverify
  have hours := hsender.genuine.masterKeys.identity
  have htheirs := hreceiver.genuine.masterKeys.identity
  have hshows : w₀.Shows fun _ => True := fun _ => trivial
  rw [hours, htheirs] at hdistinct
  obtain ⟨packet, s, w', hsend, hreceived⟩ := first_packet_received hideal hdistinct
    (hreceiver.genuine.prekeys.rotate (Prekey.lasting_isPair _) hshows) message w.now.2
  rw [signedPrekeys_createPrekeyList, User.createPrekeyList_eq, hours, htheirs]
  refine ⟨packet, s, w', hsend, ?_⟩
  intro user huser hsame prekey hkey v
  obtain ⟨r, prekeys, v', hcreate, -⟩ :=
    hreceived user.prekeys huser.genuine.prekeys hkey v
  rw [hsame, htheirs]
  exact ⟨r, prekeys, v', hcreate⟩

/-- A conversation that is started from a list that verifies is received as long as the
prekey is there, at any time, and then both parties understand each other. -/
theorem session_established (hideal : Idealised B) (hsign : SignRoundTrip B) {times : ℤ → Prop}
    {sender receiver : User B} (hsender : sender.Reachable times)
    (hreceiver : receiver.Reachable times)
    (hdistinct : sender.masterKeys.publicIdentityKey ≠ receiver.masterKeys.publicIdentityKey)
    (message : List B) {w₀ w w' : World B} {identity : PublicKey B}
    (hverify : verifyPrekeyList (receiver.createPrekeyList w₀).1 receiver.publicSigningKey w =
      (.ok identity, w')) :
    ∃ packet s w'', createSendConversation message sender.masterKeys.publicIdentityKey
        sender.masterKeys.privateIdentityKey identity
        (Library.signedPrekeys (receiver.createPrekeyList w₀).1) w' = (.ok (packet, s), w'') ∧
      ∀ receiver' : User B, receiver'.Reachable times →
        receiver'.masterKeys = receiver.masterKeys →
        let prekey := ((receiver.createPrekeyList w₀).2.1.prekeys.prekeys w'.drawnPlace).publicKey
        prekey ∈ receiver'.prekeys.activeKeys ∨ prekey ∈ receiver'.prekeys.deprecatedKeys →
        ∀ v, ∃ r prekeys v', createReceiveConversation packet
            receiver'.masterKeys.publicIdentityKey receiver'.masterKeys.privateIdentityKey
            receiver'.prekeys v = (.ok (message, r), prekeys, v') ∧ Corresponds s r := by
  have hours := hsender.genuine.masterKeys.identity
  have htheirs := hreceiver.genuine.masterKeys.identity
  have hshows : w₀.Shows fun _ => True := fun _ => trivial
  have hpairs := hreceiver.genuine.prekeys.rotate (Prekey.lasting_isPair _) hshows
  rw [hreceiver.genuine.id,
    verifyPrekeyList_createPrekeyList hsign hreceiver.genuine.masterKeys] at hverify
  split at hverify
  · cases hverify
  · cases hverify
    rw [hours, htheirs] at hdistinct
    obtain ⟨packet, s, w', hsend, hreceived⟩ := first_packet_received hideal hdistinct hpairs
      message w.now.2
    rw [signedPrekeys_createPrekeyList, User.createPrekeyList_eq, hours, htheirs]
    refine ⟨packet, s, w', hsend, ?_⟩
    intro receiver' hreceiver' hsame prekey hkey v
    rw [hsame, htheirs]
    exact hreceived receiver'.prekeys hreceiver'.genuine.prekeys hkey v

end Users

namespace Symbolic

/-- A world that never draws the same bytes twice while its clock stands still. -/
def calmWorld : World ℕ := { freshWorld with clock := fun _ => 0 }

theorem shows_calmWorld : calmWorld.Shows SaneTime := by
  intro i
  have hzero : SaneTime 0 := by decide
  exact hzero

theorem clock_of_calmWorld {w : World ℕ} (h : calmWorld.After w) (i : ℕ) : w.clock i = 0 := by
  obtain ⟨readings, hclock⟩ := h
  exact hclock i

theorem create_without_seed (w : World ℕ) :
    (User.create none w).1 = .ok ⟨(MasterKeys.generate w).1.publicSigningKey,
      (MasterKeys.generate w).1, (PrekeyStore.create (MasterKeys.generate w).2).1, []⟩ := by
  simp only [User.create, MasterKeys.create]

theorem exists_user {w : World ℕ} {times : ℤ → Prop} (hw : w.Shows times) :
    ∃ user : User ℕ, user.Reachable times ∧
      user.masterKeys.publicIdentityKey = cryptoScalarmultBase (w.random 1 32) :=
  ⟨_, .create hw (create_without_seed w), rfl⟩

theorem encode_cons_lt {a b : ℕ} (h : a < b) (codes : List ℕ) :
    Encodable.encode (a :: codes) < Encodable.encode (b :: codes) := by
  rw [Encodable.encode_list_cons, Encodable.encode_list_cons]
  exact Nat.succ_lt_succ (Nat.pair_lt_pair_left _ h)

theorem chooseRole_calm {i j : ℕ} (h : j < i) :
    Ratchet.chooseRole (cryptoScalarmultBase (calmWorld.random i 32))
      (cryptoScalarmultBase (calmWorld.random j 32)) = .ok .alice := by
  have hbytes (code : ℕ) : (carry 32 code).bytes = code :: List.replicate 31 0 := rfl
  have hcodes : publicCode (carry 32 j) < publicCode (carry 32 i) := by
    rw [publicCode, publicCode, hbytes, hbytes]
    exact Nat.succ_lt_succ (encode_cons_lt h _)
  exact chooseRole_carry hcodes

theorem exists_created_user (w : World ℕ) :
    ∃ user w', User.create none w = (.ok user, w') ∧
      user.masterKeys.publicIdentityKey = cryptoScalarmultBase (w.random 1 32) := by
  have hresult := create_without_seed w
  cases hcreate : User.create none w with
  | mk result w' =>
      rw [hcreate] at hresult
      cases hresult
      exact ⟨_, w', rfl, rfl⟩

theorem verifyPrekeyList_calm {receiver : User ℕ} (hreceiver : receiver.Reachable SaneTime)
    {w : World ℕ} (hw : calmWorld.After w) :
    verifyPrekeyList (receiver.createPrekeyList w).1 receiver.publicSigningKey calmWorld =
      (.ok receiver.masterKeys.publicIdentityKey, calmWorld.now.2) := by
  have hclock := clock_of_calmWorld (hw.trans (PrekeyStore.after_rotate receiver.prekeys w)) 0
  rw [hreceiver.genuine.id, verifyPrekeyList_createPrekeyList signRoundTrip
    hreceiver.genuine.masterKeys, User.listExpiration_eq receiver (shows_calmWorld.after hw), hclock]
  exact if_neg (by decide)

/-- Two users who meet for the first time. -/
theorem session_established_calm :
    ∃ (sender receiver : User ℕ) (packet : List ℕ) (s r : Conversation ℕ)
      (prekeys : PrekeyStore ℕ) (v : World ℕ),
      sender.masterKeys.publicIdentityKey ≠ receiver.masterKeys.publicIdentityKey ∧
      createReceiveConversation packet receiver.masterKeys.publicIdentityKey
        receiver.masterKeys.privateIdentityKey receiver.prekeys calmWorld =
          (.ok ([1, 2, 3], r), prekeys, v) ∧ Corresponds s r := by
  obtain ⟨sender, hsender, hours⟩ := exists_user shows_calmWorld
  have hlater : (calmWorld.randombytesBuf 1).2.Shows SaneTime := shows_calmWorld
  obtain ⟨receiver, hreceiver, htheirs⟩ := exists_user hlater
  have hdistinct : sender.masterKeys.publicIdentityKey ≠
      receiver.masterKeys.publicIdentityKey := by
    rw [hours, htheirs]
    intro h
    exact absurd (freshWorld_injective h) (by decide)
  have hverify := verifyPrekeyList_calm hreceiver (.refl calmWorld)
  have hlist := hreceiver.createPrekeyList shows_calmWorld
  obtain ⟨packet, s, w, -, hreceived⟩ := session_established idealised signRoundTrip hsender
    hreceiver hdistinct [1, 2, 3] hverify
  obtain ⟨r, prekeys, v, hreceive, hcorresponds⟩ := hreceived _ hlist
    (by rw [User.createPrekeyList_eq]) (.inl (PrekeyStore.mem_activeKeys.mpr ⟨_, rfl⟩)) calmWorld
  refine ⟨sender, _, packet, s, r, prekeys, v, ?_, hreceive, hcorresponds⟩
  rw [User.createPrekeyList_eq]
  exact hdistinct

end Symbolic

end Molch
