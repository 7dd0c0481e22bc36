import Molch.ExactlyOnce

namespace Molch

open Sodium

variable {B : Type} [Byte B] [Sodium B]

namespace Ratchet

/-- What Alice sends with is what Bob receives with and the other way around. -/
structure Mirrored (alice bob : Ratchet B) : Prop where
  aliceRole : alice.role = .alice
  bobRole : bob.role = .bob
  aliceFlag : alice.ratchetFlag = true
  bobFlag : bob.ratchetFlag = false
  rootKey : alice.rootKey = bob.rootKey
  rootKey_not_empty : alice.rootKey.empty = false
  chainKey : alice.receiveChainKey = bob.sendChainKey
  chainKey_not_empty : alice.receiveChainKey.empty = false
  headerKey : bob.sendHeaderKey = some alice.receiveHeaderKey
  headerKey_not_empty : alice.receiveHeaderKey.empty = false
  aliceNextHeaderKey : alice.nextSendHeaderKey = bob.nextReceiveHeaderKey
  bobNextHeaderKey : bob.nextSendHeaderKey = alice.nextReceiveHeaderKey
  noSendHeaderKey : alice.sendHeaderKey = none
  noSendChainKey : alice.sendChainKey = .clear
  noReceiveHeaderKey : bob.receiveHeaderKey = .clear
  noReceiveChainKey : bob.receiveChainKey = .clear

theorem mirrored_ofInitialKeys (masterKey : Key B 32)
    (aliceIdentity aliceEphemeral bobIdentity bobEphemeral : PublicKey B)
    (alicePrivate bobPrivate : PrivateKey B) :
    Mirrored
      (ofInitialKeys .alice (.ofMasterKey masterKey .alice) aliceIdentity bobIdentity alicePrivate
        aliceEphemeral bobEphemeral)
      (ofInitialKeys .bob (.ofMasterKey masterKey .bob) bobIdentity aliceIdentity bobPrivate
        bobEphemeral aliceEphemeral) := by
  constructor <;> rfl

omit [Sodium B] in
theorem chooseRole_self (identity : PublicKey B) :
    chooseRole identity identity = .error ⟨.shouldntHappen,
      "This mustn't happen, both conversation partners have the same public key!"⟩ := by
  have hzero : sodiumCompare identity.bytes identity.bytes = 0 := sodiumCompare_eq_zero.mpr rfl
  unfold chooseRole
  rw [hzero]
  rfl

theorem create_eq_error {ourPublicIdentity theirPublicIdentity : PublicKey B} {e : Error}
    (h : chooseRole ourPublicIdentity theirPublicIdentity = .error e)
    (ourPrivateIdentity ourPrivateEphemeral : PrivateKey B)
    (ourPublicEphemeral theirPublicEphemeral : PublicKey B) :
    create ourPrivateIdentity ourPublicIdentity theirPublicIdentity ourPrivateEphemeral
      ourPublicEphemeral theirPublicEphemeral = .error e := by
  unfold create
  rw [h]
  rfl

/-- Two parties that know each other's public keys create mirrored ratchets, or neither of them
creates one; with equal public identities both fail. -/
theorem create_mirrored (hcommutes : ScalarmultCommutes B)
    (identity ephemeral identity' ephemeral' : PrivateKey B) :
    let ours := create identity (cryptoScalarmultBase identity) (cryptoScalarmultBase identity')
      ephemeral (cryptoScalarmultBase ephemeral) (cryptoScalarmultBase ephemeral')
    let theirs := create identity' (cryptoScalarmultBase identity')
      (cryptoScalarmultBase identity) ephemeral' (cryptoScalarmultBase ephemeral')
      (cryptoScalarmultBase ephemeral)
    (cryptoScalarmultBase identity ≠ cryptoScalarmultBase identity' → ∀ ratchet,
      ours = .ok ratchet → ∃ ratchet', theirs = .ok ratchet' ∧
        (Mirrored ratchet ratchet' ∨ Mirrored ratchet' ratchet)) ∧
    (cryptoScalarmultBase identity = cryptoScalarmultBase identity' →
      (∃ e, ours = .error e) ∧ ∃ e, theirs = .error e) := by
  intro ours theirs
  refine ⟨fun _ ratchet hours => ?_, fun hequal => ⟨?_, ?_⟩⟩
  · obtain ⟨role, masterKey, hrole, hmaster, rfl⟩ := exists_of_create hours
    have hmirror := tripleDiffieHellman_mirror hcommutes identity ephemeral identity' ephemeral'
      role
    rw [hmaster] at hmirror
    have htheirs : theirs = .ok (ofInitialKeys role.other (.ofMasterKey masterKey.key role.other)
        (cryptoScalarmultBase identity') (cryptoScalarmultBase identity) ephemeral'
        (cryptoScalarmultBase ephemeral') (cryptoScalarmultBase ephemeral)) := by
      simp only [theirs, create, deriveInitialRootChainAndHeaderKeys, chooseRole_other hrole,
        Result.ok_bind, hmirror, Result.pure_eq_ok]
    refine ⟨_, htheirs, ?_⟩
    cases role with
    | alice => exact .inl (mirrored_ofInitialKeys _ _ _ _ _ _ _)
    | bob => exact .inr (mirrored_ofInitialKeys _ _ _ _ _ _ _)
  · exact ⟨_, create_eq_error (by rw [hequal]; exact chooseRole_self _) _ _ _ _⟩
  · exact ⟨_, create_eq_error (by rw [hequal]; exact chooseRole_self _) _ _ _ _⟩

end Ratchet

variable [ProtobufC B]

namespace World

def atRest (w : World B) : World B := { w with clock := fun _ => w.clock 0 }

omit [Byte B] [Sodium B] [ProtobufC B] in
theorem steady_atRest (w : World B) : w.atRest.Steady := by
  intro i j
  change w.clock 0 - maximumAge < w.clock 0 + maximumAge
  have : (0 : ℤ) < maximumAge := by decide
  omega

end World

namespace Conversation

variable [Platform] {conversation conversation' : Conversation B} {packet : List B}
  {message : ReceivedMessage B}

/-- A message that is delivered at one time is delivered at every time, with the same outcome
if it skips no other message. -/
theorem receive_any_time (hkdf : KdfNonzero B)
    (hvalid : conversation.ratchet.receivedValid = true)
    (htried : conversation.ratchet.headerDecryptable = .notTried)
    (hchain : conversation.ratchet.receiveHeaderKey.isNone = false →
      conversation.ratchet.receiveChainKey.isNone = false) {w w' : World B}
    (h : conversation.receive packet w = (.ok message, conversation', w')) (v : World B) :
    ∃ conversation'' v', conversation.receive packet v = (.ok message, conversation'', v') ∧
      (conversation.ratchet.skippedHeaderAndMessageKeys = .clear →
        conversation.ratchet.stagedHeaderAndMessageKeys = .clear →
        message.messageNumber = 0 → message.previousMessageNumber = 0 →
        conversation'' = conversation' ∧
          conversation'.ratchet.skippedHeaderAndMessageKeys = .clear ∧
          conversation'.ratchet.receiveMessageNumber = 1) := by
  have hcases := Conversation.receive_cases hkdf hvalid htried hchain packet w
  rw [h] at hcases
  have hreceive := fun conversation'' (hreceived : Received conversation packet v (.ok message)
    conversation'') => hreceived.receive_eq hkdf hvalid htried hchain
  cases hcases with
  | skipped hfound hheader =>
      obtain ⟨v', heq⟩ := hreceive _ (.skipped hfound hheader)
      refine ⟨_, v', heq, fun hskipped => ?_⟩
      rw [hskipped] at hfound
      cases hfound
  | currentChain hleft hopen hheader hnone hskip hcount hstaged hmessage =>
      rename_i left header message extracted count staged
      obtain ⟨v', heq⟩ := hreceive _ (.currentChain hleft hopen hheader hnone hskip hcount rfl
        hmessage)
      refine ⟨_, v', heq, fun hskipped hclear hnumber _ => ?_⟩
      simp only at hnumber
      have hzero : count = 0 := by
        rw [hcount, Ratchet.skippedCount, hnumber]
        exact Nat.zero_sub _
      have hnothing : left = .clear := by
        cases hleft with
        | all => exact hskipped
        | removed hfound =>
            rw [hskipped] at hfound
            cases hfound
      subst hzero hstaged hnothing
      rw [hclear, hnumber]
      exact ⟨by simp only [stagedKeys, committedKeys_clear], committedKeys_clear _, rfl⟩
  | nextChain hleft hcurrent hopen hheader hflag hrest hderived hskip hstagedRest hstaged
      hmessage =>
      rename_i left header message extracted derived rest staged
      obtain ⟨v', heq⟩ := hreceive _ (.nextChain hleft hcurrent hopen hheader hflag hrest hderived
        hskip rfl rfl hmessage)
      refine ⟨_, v', heq, fun hskipped hclear hnumber hprevious => ?_⟩
      simp only at hnumber hprevious
      have hnothing : left = .clear := by
        cases hleft with
        | all => exact hskipped
        | removed hfound =>
            rw [hskipped] at hfound
            cases hfound
      have hnoRest : ∀ u, conversation.ratchet.stagedRest 0 u = (.clear, u) := by
        intro u
        have hcount : conversation.ratchet.skippedCount 0 = 0 := Nat.zero_sub _
        unfold Ratchet.stagedRest
        rw [hclear, hcount]
        split
        · rfl
        · rfl
      subst hstaged hstagedRest hnothing
      rw [hnumber, hprevious, hnoRest, hnoRest]
      exact ⟨by simp only [UInt32.toNat_zero, stagedKeys, committedKeys_clear],
        committedKeys_clear _, rfl⟩

end Conversation

namespace Session

variable {session : Session B} {role : Role}

theorem Safe.getSendData (hideal : Idealised B) (h : session.Safe) (role : Role) (w : World B) :
    ∃ data ratchet w', (session.party role).ratchet.getSendData w = (.ok data, ratchet, w') ∧
      data.headerKey.empty = false := by
  obtain ⟨x, hvalid, schedule, hfollows⟩ := h
  have hparty := (hfollows schedule fun _ _ => rfl).party role
  cases hflag : x.flag role with
  | false =>
      have hsending := hparty.sending hflag
      have hempty : (session.party role).ratchet.sendChainKey.empty = false := by
        rw [hsending.sendChainKey]
        rfl
      exact ⟨_, _, _, Ratchet.getSendData_of_chain (hparty.flag.trans hflag) hempty
        hsending.sendHeaderKey w, rfl⟩
  | true =>
      have hlistening := hparty.listening hflag x.newest (hvalid.newest role hflag)
      have hroot : (session.party role).ratchet.rootKey.empty = false := by
        rw [hlistening.rootKey]
        rfl
      have hsecret : (cryptoScalarmult (w.random 0 32)
          (session.party role).ratchet.theirPublicEphemeral).isSome := by
        rw [hlistening.theirPublicEphemeral]
        exact hideal.total _ _
      obtain ⟨derived, hderived⟩ := exists_derived hroot hsecret
        (session.party role).ratchet.role
      refine ⟨_, _, _, Ratchet.getSendData_of_flag (hparty.flag.trans hflag) hderived, ?_⟩
      change (session.party role).ratchet.nextSendHeaderKey.empty = false
      rw [hlistening.nextSendHeaderKey]
      rfl

theorem Safe.ready (hideal : Idealised B) (h : session.Safe) (role : Role) :
    (session.party role).ratchet.receivedValid = true ∧
    (session.party role).ratchet.headerDecryptable = .notTried ∧
    (session.party role).ratchet.stagedHeaderAndMessageKeys = .clear ∧
    ((session.party role).ratchet.receiveHeaderKey.isNone = false →
      (session.party role).ratchet.receiveChainKey.isNone = false) := by
  obtain ⟨x, -, schedule, hfollows⟩ := h
  have hparty := (hfollows schedule fun _ _ => rfl).party role
  exact ⟨hparty.receivedValid, hparty.headerDecryptable, hparty.staged,
    hparty.receiveChainKey hideal.kdfNonzero⟩

variable [Platform]

omit [ProtobufC B] [Sodium B] [Byte B] in
theorem tooManySkipped_of_le_one {current future : UInt32} (hfuture : future.toNat ≤ 1)
    (hcurrent : current.toNat ≤ 1) : tooManySkipped current future = false := by
  apply decide_eq_false
  rw [Nat.mod_eq_of_lt]
  · unfold maximumSkippedMessages
    omega
  · unfold maximumSkippedMessages
    rcases Platform.sizeBits_eq with h | h <;> rw [h] <;> omega

theorem inReach_of_le_one {ratchet : Ratchet B} {sent : Sent B}
    (hskipped : ratchet.skippedHeaderAndMessageKeys = .clear)
    (hreceived : ratchet.receiveMessageNumber.toNat ≤ 1) (hnumber : sent.messageNumber.toNat ≤ 1)
    (hprevious : sent.previousMessageNumber = 0) : ratchet.InReach sent := by
  have hempty : ratchet.skippedHeaderAndMessageKeys.keys.length = 0 := by
    rw [hskipped]
    rfl
  have hrest : ratchet.restCount sent.previousMessageNumber = 0 := by
    unfold Ratchet.restCount Ratchet.skippedCount
    rw [hprevious]
    split
    · rfl
    · exact Nat.zero_sub _
  have hcount : ratchet.skippedCount sent.messageNumber ≤ 1 := by
    unfold Ratchet.skippedCount
    omega
  refine ⟨fun _ _ => ⟨tooManySkipped_of_le_one hnumber hreceived, ?_⟩,
    fun _ _ => ⟨fun _ => ?_, tooManySkipped_of_le_one hnumber (Nat.zero_le _), ?_⟩⟩
  · unfold maximumKeys
    omega
  · rw [hprevious]
    exact tooManySkipped_of_le_one (Nat.zero_le _) hreceived
  · unfold maximumKeys
    omega

theorem Safe.send_deliver (hideal : Idealised B) (h : session.Safe) (sender : Role)
    (message : List B) (prekeyMetadata : Option (PrekeyMetadata B)) (w v : World B)
    (hroom : (session.party sender).ratchet.ratchetFlag = false →
      (session.party sender).ratchet.sendMessageNumber.toNat + 1 < 2 ^ 32)
    (hsmall : ∀ data ratchet w', (session.party sender).ratchet.getSendData w =
      (.ok data, ratchet, w') → data.messageNumber.toNat ≤ 1 ∧ data.previousMessageNumber = 0)
    (hskipped : (session.party sender.other).ratchet.skippedHeaderAndMessageKeys = .clear)
    (hreceived : (session.party sender.other).ratchet.receiveMessageNumber.toNat ≤ 1)
    (hnew : (session.sent sender).length ∉ session.delivered sender.other) :
    ∃ data packet s r w' v' w'', (session.party sender).ratchet.getSendData w =
        (.ok data, s.ratchet, w') ∧
      (session.party sender).send message prekeyMetadata w = (.ok packet, s, w'') ∧
      (session.party sender.other).receive packet v.atRest =
        (.ok ⟨data.messageNumber, data.previousMessageNumber, message⟩, r, v') ∧
      ∃ session' : Session B, session'.Safe ∧ session'.party sender = s ∧
        session'.party sender.other = r ∧
        session'.sent sender.other = session.sent sender.other ∧
        session'.delivered sender = session.delivered sender ∧
        (session'.sent sender).length = (session.sent sender).length + 1 ∧
        session'.delivered sender.other =
          (session.sent sender).length :: session.delivered sender.other := by
  obtain ⟨data, ratchet, w', hdata, hempty⟩ := h.getSendData hideal sender w
  obtain ⟨packet, w'', hsend, -⟩ := Conversation.send_of_getSendData hdata hempty message
    prekeyMetadata
  obtain ⟨hnumber, hprevious⟩ := hsmall _ _ _ hdata
  have hstep : session.step (.send sender message prekeyMetadata w) = { session with
      party := Function.update session.party sender ⟨(session.party sender).id, ratchet⟩
      sent := Function.update session.sent sender (session.sent sender ++
        [⟨packet, message, data.messageNumber, data.previousMessageNumber⟩]) } := by
    simp only [step, hdata, hsend]
  have hsafe : (session.step (.send sender message prekeyMetadata w)).Safe := h.send hideal hroom
  generalize session.step (.send sender message prekeyMetadata w) = sending at hstep hsafe
  have hother : sending.party sender.other = session.party sender.other := by
    rw [hstep]
    exact Function.update_of_ne sender.other_ne _ _
  have hsent : (sending.sent sender.other.other)[(session.sent sender).length]? =
      some ⟨packet, message, data.messageNumber, data.previousMessageNumber⟩ := by
    rw [hstep, Role.other_other]
    simp
  have hadmissible : sending.Admissible
      (.deliver sender.other (session.sent sender).length v.atRest) := by
    intro sent hsent'
    rw [hsent] at hsent'
    cases hsent'
    rw [hother]
    refine ⟨inReach_of_le_one hskipped hreceived hnumber hprevious, ?_, v.steady_atRest⟩
    rw [hskipped]
    exact fun key hkey => absurd hkey List.not_mem_nil
  obtain ⟨hresult, -, hdelivered⟩ := hsafe.deliver hideal hsent hadmissible
  have hfirst := hresult (by rw [hstep]; exact hnew)
  rw [hother] at hfirst
  generalize hreceive : (session.party sender.other).receive packet v.atRest = outcome at hfirst
  obtain ⟨result, r, v'⟩ := outcome
  simp only at hfirst
  subst hfirst
  refine ⟨data, packet, ⟨(session.party sender).id, ratchet⟩, r, w', v', w'', hdata, hsend,
    hreceive, _, hdelivered, ?_, ?_, ?_, ?_, ?_, ?_⟩
  · simp only [step, hsent]
    rw [Function.update_of_ne sender.ne_other, hstep]
    exact Function.update_self _ _ _
  · simp only [step, hsent, Function.update_self, hother, hreceive]
  · simp only [step, hsent]
    rw [hstep]
    exact Function.update_of_ne sender.other_ne _ _
  · simp only [step, hsent]
    rw [Function.update_of_ne sender.ne_other, hstep]
  · simp only [step, hsent]
    rw [hstep]
    simp
  · simp only [step, hsent, Function.update_self]
    rw [hstep]

omit [ProtobufC B] [Platform] in
theorem Started.numbers (h : session.Started) (role : Role) :
    (session.party role).ratchet.ratchetFlag = role.toBool ∧
    (session.party role).ratchet.sendMessageNumber = 0 ∧
    (session.party role).ratchet.previousMessageNumber = 0 ∧
    (session.party role).ratchet.receiveMessageNumber = 0 ∧
    (session.party role).ratchet.skippedHeaderAndMessageKeys = .clear ∧
    (role = .bob → (session.party role).ratchet.receiveHeaderKey.isNone = true) := by
  obtain ⟨_, _, _, _, _, _, heq⟩ := h.ratchet_eq role
  rw [heq]
  refine ⟨rfl, rfl, rfl, rfl, rfl, ?_⟩
  rintro rfl
  rfl

omit [ProtobufC B] [Platform] in
theorem numbers_of_getSendData {ratchet ratchet' : Ratchet B} {data : SendData B} {w w' : World B}
    (h : ratchet.getSendData w = (.ok data, ratchet', w')) (hsend : ratchet.sendMessageNumber = 0)
    (hprevious : ratchet.ratchetFlag = false → ratchet.previousMessageNumber = 0) :
    data.messageNumber = 0 ∧ data.previousMessageNumber = 0 ∧ ratchet'.ratchetFlag = false ∧
      ratchet'.sendMessageNumber = 1 ∧ ratchet'.previousMessageNumber = 0 ∧
      ratchet'.receiveMessageNumber = ratchet.receiveMessageNumber ∧
      ratchet'.skippedHeaderAndMessageKeys = ratchet.skippedHeaderAndMessageKeys := by
  rcases Ratchet.getSendData_cases h with ⟨hflag, -, headerKey, -, rfl, rfl⟩ |
    ⟨hflag, derived, -, rfl, rfl⟩
  · refine ⟨hsend, hprevious hflag, hflag, ?_, hprevious hflag, rfl, rfl⟩
    change ratchet.sendMessageNumber + 1 = 1
    rw [hsend]
    rfl
  · exact ⟨rfl, hsend, rfl, rfl, hsend, rfl, rfl⟩

theorem Started.flag_of_receive (hideal : Idealised B) (h : session.Started) {role : Role}
    {packet : List B} {w w' : World B} {message : ReceivedMessage B} {r : Conversation B}
    (hreceive : (session.party role).receive packet w = (.ok message, r, w')) :
    r.ratchet.ratchetFlag = true ∧ r.ratchet.sendMessageNumber = 0 ∧
      (role = .bob → r.ratchet.purportedRootKey = r.ratchet.rootKey) := by
  obtain ⟨hflag, hsend, -, -, hskipped, hbob⟩ := h.numbers role
  obtain ⟨hvalid, htried, -, hchain⟩ := (h.safe hideal).ready hideal role
  have hcases := Conversation.receive_cases hideal.kdfNonzero hvalid htried hchain packet w
  rw [hreceive] at hcases
  cases hcases with
  | skipped hfound =>
      rw [hskipped] at hfound
      cases hfound
  | currentChain _ _ _ hnone =>
      cases role with
      | alice => exact ⟨hflag, hsend, fun hrole => by cases hrole⟩
      | bob =>
          rw [hbob rfl] at hnone
          cases hnone
  | nextChain => exact ⟨rfl, hsend, fun _ => rfl⟩

theorem Started.first_messages (hideal : Idealised B) (h : session.Started) (sender : Role)
    (message : List B) (prekeyMetadata : Option (PrekeyMetadata B)) (w v : World B) :
    ∃ packet s r w' v', (session.party sender).send message prekeyMetadata w =
        (.ok packet, s, w') ∧
      (session.party sender.other).receive packet v = (.ok ⟨0, 0, message⟩, r, v') ∧
      (∀ message' w v, ∃ packet' s' w', s.send message' none w = (.ok packet', s', w') ∧
        (r.receive packet' v).1 = .ok ⟨1, 0, message'⟩) ∧
      (∀ message' w v, ∃ packet' r' w', r.send message' none w = (.ok packet', r', w') ∧
        (s.receive packet' v).1 = .ok ⟨0, 0, message'⟩) := by
  obtain ⟨-, hsendNumber, hpreviousNumber, hreceivedNumber, hskipped, -⟩ := h.numbers sender
  obtain ⟨-, -, -, hreceivedOther, hskippedOther, -⟩ := h.numbers sender.other
  have hsafe := h.safe hideal
  have hone : (1 : UInt32).toNat = 1 := rfl
  obtain ⟨data, packet, s, r, w', v', w'', hdata, hsend, hreceive, session', hsafe', rfl, rfl,
      hsentOther, hdelivered, hlength, hdeliveredOther⟩ :=
    hsafe.send_deliver hideal sender message prekeyMetadata w v
      (fun _ => by rw [hsendNumber]; decide)
      (fun data ratchet w' hdata => by
        obtain ⟨hnumber, hprevious, -⟩ := numbers_of_getSendData hdata hsendNumber
          fun _ => hpreviousNumber
        rw [hnumber]
        exact ⟨Nat.zero_le _, hprevious⟩)
      hskippedOther (by rw [hreceivedOther]; exact Nat.zero_le _)
      (by rw [h.delivered]; exact List.not_mem_nil)
  obtain ⟨hnumber, hprevious, hsFlag, hsNumber, hsPrevious, hsReceived, hsSkipped⟩ :=
    numbers_of_getSendData hdata hsendNumber fun _ => hpreviousNumber
  rw [hnumber, hprevious] at hreceive
  obtain ⟨hvalid, htried, hstaged, hchain⟩ := hsafe.ready hideal sender.other
  obtain ⟨r', v'', hreceive', hsame⟩ := Conversation.receive_any_time hideal.kdfNonzero hvalid
    htried hchain hreceive v
  obtain ⟨rfl, hrSkipped, hrReceived⟩ := hsame hskippedOther hstaged rfl rfl
  obtain ⟨hrFlag, hrNumber, -⟩ := h.flag_of_receive hideal hreceive
  refine ⟨packet, _, _, w'', v'', hsend, hreceive', ?_, ?_⟩
  · intro message' w v
    have hnumbers : ∀ data ratchet w', (session'.party sender).ratchet.getSendData w =
        (.ok data, ratchet, w') → data.messageNumber = 1 ∧ data.previousMessageNumber = 0 := by
      intro data ratchet w' hdata
      rcases Ratchet.getSendData_cases hdata with ⟨-, -, headerKey, -, rfl, -⟩ | ⟨hflag, -⟩
      · exact ⟨hsNumber, hsPrevious⟩
      · rw [hsFlag] at hflag
        cases hflag
    obtain ⟨data', packet', s', r', _, v', w', hdata', hsend', hreceive'', -⟩ :=
      hsafe'.send_deliver hideal sender message' none w v
        (fun _ => by rw [hsNumber]; decide)
        (fun data ratchet w' hdata => by
          rw [(hnumbers _ _ _ hdata).1]
          exact ⟨hone.le, (hnumbers _ _ _ hdata).2⟩)
        hrSkipped (by rw [hrReceived]; exact hone.le)
        (by simp [hlength, hdeliveredOther, h.sent, h.delivered])
    obtain ⟨hnumber', hprevious'⟩ := hnumbers _ _ _ hdata'
    rw [hnumber', hprevious'] at hreceive''
    obtain ⟨hvalid', htried', -, hchain'⟩ := hsafe'.ready hideal sender.other
    obtain ⟨_, _, hlater, -⟩ := Conversation.receive_any_time hideal.kdfNonzero hvalid' htried'
      hchain' hreceive'' v
    exact ⟨packet', s', w', hsend', by rw [hlater]⟩
  · intro message' w v
    have hflagFalse : (session'.party sender.other).ratchet.ratchetFlag = false →
        (session'.party sender.other).ratchet.previousMessageNumber = 0 := by
      intro hfalse
      rw [hrFlag] at hfalse
      cases hfalse
    obtain ⟨data', packet', r', s', _, v', w', hdata', hsend', hreceive'', -⟩ :=
      hsafe'.send_deliver hideal sender.other message' none w v
        (fun _ => by rw [hrNumber]; decide)
        (fun data ratchet w' hdata => by
          obtain ⟨hnumber, hprevious, -⟩ := numbers_of_getSendData hdata hrNumber hflagFalse
          rw [hnumber]
          exact ⟨Nat.zero_le _, hprevious⟩)
        (by rw [Role.other_other, hsSkipped, hskipped])
        (by rw [Role.other_other, hsReceived, hreceivedNumber]; exact Nat.zero_le _)
        (by rw [Role.other_other, hdelivered, h.delivered]; exact List.not_mem_nil)
    obtain ⟨hnumber', hprevious', -⟩ := numbers_of_getSendData hdata' hrNumber hflagFalse
    rw [hnumber', hprevious', Role.other_other] at hreceive''
    obtain ⟨hvalid', htried', -, hchain'⟩ := hsafe'.ready hideal sender
    obtain ⟨_, _, hlater, -⟩ := Conversation.receive_any_time hideal.kdfNonzero hvalid' htried'
      hchain' hreceive'' v
    exact ⟨packet', r', w', hsend', by rw [hlater]⟩

end Session

namespace Symbolic

theorem create_mirrored_carry :
    let identity : PrivateKey ℕ := carry 32 0
    let identity' : PrivateKey ℕ := carry 32 1
    ∃ ratchet ratchet' : Ratchet ℕ,
      Ratchet.create identity (cryptoScalarmultBase identity) (cryptoScalarmultBase identity')
        identity (cryptoScalarmultBase identity) (cryptoScalarmultBase identity') = .ok ratchet ∧
      Ratchet.create identity' (cryptoScalarmultBase identity') (cryptoScalarmultBase identity)
        identity' (cryptoScalarmultBase identity') (cryptoScalarmultBase identity) =
          .ok ratchet' ∧
      (ratchet.Mirrored ratchet' ∨ ratchet'.Mirrored ratchet) := by
  intro identity identity'
  have hne : publicCode identity ≠ publicCode identity' := fun h =>
    Nat.zero_ne_one (carry_injective (by decide) (publicCode_injective h))
  have husable : ∀ key : PrivateKey ℕ, Usable (cryptoScalarmultBase key) :=
    fun key privateKey => scalarmultTotal privateKey key
  have hrole : ∃ role, Ratchet.chooseRole (cryptoScalarmultBase identity)
      (cryptoScalarmultBase identity') = .ok role := by
    rcases lt_or_gt_of_ne hne with hlt | hlt
    · exact ⟨_, Ratchet.chooseRole_other (chooseRole_carry hlt)⟩
    · exact ⟨_, chooseRole_carry hlt⟩
  obtain ⟨role, hrole⟩ := hrole
  obtain ⟨ratchet, hratchet⟩ := Ratchet.exists_create hrole (husable identity')
    (husable identity') identity identity (cryptoScalarmultBase identity)
  have hpublic : (cryptoScalarmultBase identity : PublicKey ℕ) ≠
      cryptoScalarmultBase identity' := fun h => hne (carry_injective (by decide) h)
  obtain ⟨ratchet', hratchet', hmirrored⟩ := (Ratchet.create_mirrored scalarmultCommutes identity
    identity identity' identity').1 hpublic ratchet hratchet
  exact ⟨ratchet, ratchet', hratchet, hratchet', hmirrored⟩

end Symbolic

end Molch
