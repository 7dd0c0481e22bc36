import Molch.Delivery
import Molch.Symbolic

/-!
Exactly once delivery: every packet that arrives for the first time delivers the message
it was made of, and it is rejected whenever it arrives again.
-/

namespace Molch

open Sodium

variable {B : Type} [Byte B] [Sodium B]

namespace Exchange

variable {x : Exchange} {role : Role}

theorem count_send_of_ne {chain : ℕ} (hne : chain ≠ x.turn role) :
    (x.send role).count chain = x.count chain := by
  simp [send, hne]

theorem count_send_turn (x : Exchange) (role : Role) :
    (x.send role).count (x.turn role) = x.count (x.turn role) + 1 := by
  simp [send]

theorem previous_send {chain : ℕ} (hchain : chain ≤ x.turn role + 1) :
    (x.send role).previous chain = x.previous chain := by
  unfold previous
  split
  · rfl
  · exact count_send_of_ne (by omega)

/-- From one exchange to the other a party has got a packet, and nothing has changed for its
peer. -/
structure Delivers (x y : Exchange) (role : Role) (k : ℕ) : Prop where
  newest : y.newest = x.newest
  log : y.log = x.log
  count : y.count = x.count
  delivered : y.delivered = Function.update x.delivered role (k :: x.delivered role)
  turn : y.turn role.other = x.turn role.other
  flag : y.flag role.other = x.flag role.other
  received : y.received role.other = x.received role.other
  outstanding : y.outstanding role.other = x.outstanding role.other

theorem delivers_deliver (x : Exchange) (role : Role) (k : ℕ) :
    x.Delivers (x.deliver role k) role k :=
  ⟨rfl, rfl, rfl, rfl, rfl, rfl, rfl, rfl⟩

theorem delivers_take (x : Exchange) (role : Role) (k : ℕ) (place : Place) :
    x.Delivers (x.take role k place) role k :=
  { delivers_deliver x role k with
    outstanding := by simp [take, deliver, role.other_ne] }

theorem delivers_acceptCurrent (x : Exchange) (role : Role) (k number : ℕ) :
    x.Delivers (x.acceptCurrent role k number) role k :=
  { delivers_deliver x role k with
    received := by simp [acceptCurrent, deliver, role.other_ne]
    outstanding := by simp [acceptCurrent, deliver, role.other_ne] }

theorem delivers_acceptNext (x : Exchange) (role : Role) (k number : ℕ) :
    x.Delivers (x.acceptNext role k number) role k :=
  { delivers_deliver x role k with
    turn := by simp [acceptNext, deliver, role.other_ne]
    flag := by simp [acceptNext, deliver, role.other_ne]
    received := by simp [acceptNext, deliver, role.other_ne]
    outstanding := by simp [acceptNext, deliver, role.other_ne] }

theorem Valid.turn_other_ne (h : x.Valid) (role : Role) : x.turn role.other ≠ x.turn role := by
  intro heq
  have hother := h.sender role.other
  rw [heq, h.sender role] at hother
  exact role.ne_other hother

end Exchange

/-- The data for a message of the place where a party sends next. -/
structure SendData.Fits (data : SendData B) (schedule : Schedule B) (x : Exchange)
    (role : Role) : Prop where
  headerKey : data.headerKey = .ofKey (schedule.headerKey (x.turn role))
  messageKey : data.messageKey = schedule.messageKey ⟨x.turn role, x.count (x.turn role)⟩
  ephemeral : data.ephemeral = cryptoScalarmultBase (schedule (x.turn role)).ephemeral
  messageNumber : data.messageNumber.toNat = x.count (x.turn role)
  previousMessageNumber : data.previousMessageNumber.toNat = x.previous (x.turn role)

namespace Ratchet.Represents

variable {schedule : Schedule B} {x : Exchange} {role : Role} {ratchet : Ratchet B}

theorem start_alice {derivation : Key B 32} {ephemeral : PrivateKey B}
    (hzero : schedule 0 = ⟨derivation, ephemeral⟩)
    (ourPublicIdentity theirPublicIdentity : PublicKey B) (ourPrivateEphemeral : PrivateKey B)
    (ourPublicEphemeral : PublicKey B) :
    (ofInitialKeys .alice (.ofMasterKey derivation .alice) ourPublicIdentity theirPublicIdentity
      ourPrivateEphemeral ourPublicEphemeral
      (cryptoScalarmultBase ephemeral)).Represents schedule .start .alice where
  ratchetRole := rfl
  receivedValid := rfl
  headerDecryptable := rfl
  staged := rfl
  flag := rfl
  nextReceiveHeaderKey := by
    simp only [Exchange.start, Schedule.headerKey, hzero]
    rfl
  silent hturn := by cases hturn
  receiving chain hchain := by
    have hfirst : chain = 0 := by
      simpa [Exchange.start] using hchain.symm
    subst hfirst
    exact
      { receiveHeaderKey := by
          simp only [Schedule.headerKey, hzero]
          rfl
        receiveChainKey := by
          simp only [Schedule.chainKey, hzero]
          rfl
        receiveMessageNumber := rfl }
  sending hflag := by cases hflag
  listening _ chain hchain := by
    have hfirst : chain = 0 := by
      simpa [Exchange.start] using hchain.symm
    subst hfirst
    exact
      { rootKey := by
          simp only [Schedule.rootKey, hzero]
          rfl
        nextSendHeaderKey := by
          simp only [Schedule.headerKey, hzero]
          rfl
        theirPublicEphemeral := by
          rw [hzero]
          rfl
        sendMessageNumber := rfl }
  skipped := .refl _

theorem start_bob {derivation : Key B 32} {ephemeral : PrivateKey B}
    (hzero : schedule 0 = ⟨derivation, ephemeral⟩)
    (ourPublicIdentity theirPublicIdentity theirPublicEphemeral : PublicKey B) :
    (ofInitialKeys .bob (.ofMasterKey derivation .bob) ourPublicIdentity theirPublicIdentity
      ephemeral (cryptoScalarmultBase ephemeral) theirPublicEphemeral).Represents schedule
        .start .bob where
  ratchetRole := rfl
  receivedValid := rfl
  headerDecryptable := rfl
  staged := rfl
  flag := rfl
  nextReceiveHeaderKey := by
    simp only [Exchange.start, Schedule.headerKey, hzero]
    rfl
  silent _ := ⟨rfl, rfl⟩
  receiving chain hchain := by cases hchain
  sending _ := by
    change Ratchet.Sending schedule .start 0 _
    exact
      { rootKey := by
          simp only [Schedule.rootKey, hzero]
          rfl
        sendHeaderKey := by
          simp only [Schedule.headerKey, hzero]
          rfl
        sendChainKey := by
          simp only [Schedule.chainKey, hzero]
          rfl
        nextSendHeaderKey := by
          simp only [Schedule.headerKey, hzero]
          rfl
        ourPrivateEphemeral := by
          rw [hzero]
          rfl
        ourPublicEphemeral := by
          rw [hzero]
          rfl
        sendMessageNumber := rfl
        previousMessageNumber := rfl }
  listening hflag := by cases hflag
  skipped := .refl _

theorem getSendData (h : ratchet.Represents schedule x role)
    (hflag : x.flag role = false) (hnumber : ratchet.sendMessageNumber.toNat + 1 < 2 ^ 32)
    (w : World B) :
    ∃ data ratchet' w', ratchet.getSendData w = (.ok data, ratchet', w') ∧
      data.Fits schedule x role ∧ ratchet'.Represents schedule (x.send role) role := by
  have hsending := h.sending hflag
  have hempty : ratchet.sendChainKey.empty = false := by
    rw [hsending.sendChainKey]
    rfl
  refine ⟨_, _, w, getSendData_of_chain (h.flag.trans hflag) hempty hsending.sendHeaderKey w,
    ?_, ?_⟩
  · exact
      { headerKey := rfl
        messageKey := by
          change ratchet.sendChainKey.key.messageKey = _
          rw [hsending.sendChainKey]
          rfl
        ephemeral := hsending.ourPublicEphemeral
        messageNumber := hsending.sendMessageNumber
        previousMessageNumber := hsending.previousMessageNumber }
  · exact { h with
      flag := by
        change ratchet.ratchetFlag = (x.send role).flag role
        rw [h.flag, hflag]
        simp [Exchange.send]
      receiving := fun chain hchain => { h.receiving chain hchain with }
      sending := fun _ => { hsending with
        sendChainKey := by
          change EmptyableKey.ofKey ratchet.sendChainKey.key.nextChainKey =
            .ofKey ((schedule.chainKey (x.turn role)).advance ((x.send role).count (x.turn role)))
          rw [hsending.sendChainKey, Exchange.count_send_turn, Key.advance_succ']
          rfl
        sendMessageNumber := by
          change (ratchet.sendMessageNumber + 1).toNat = (x.send role).count (x.turn role)
          rw [Exchange.count_send_turn, toNat_add_one hnumber, hsending.sendMessageNumber]
        previousMessageNumber := by
          change ratchet.previousMessageNumber.toNat = (x.send role).previous (x.turn role)
          rw [Exchange.previous_send (Nat.le_succ _), hsending.previousMessageNumber] }
      listening := fun htrue => by
        simp [Exchange.send] at htrue }

theorem getSendData_start (h : ratchet.Represents schedule x role) (hvalid : x.Valid)
    (hflag : x.flag role = true) {w : World B} {secret : Key B 32}
    (hsecret : diffieHellman (w.random 0 32) (cryptoScalarmultBase (w.random 0 32))
      ratchet.theirPublicEphemeral role = .ok secret)
    (hnew : schedule (x.turn role) =
      ⟨cryptoGenerichash secret.bytes ratchet.rootKey.key.bytes, w.random 0 32⟩) :
    ∃ data ratchet' w', ratchet.getSendData w = (.ok data, ratchet', w') ∧
      data.Fits schedule x role ∧ ratchet'.Represents schedule (x.send role) role := by
  obtain ⟨chain, hchain⟩ : ∃ chain, x.turn role = chain + 1 :=
    ⟨x.newest, hvalid.newest role hflag⟩
  have hlistening := h.listening hflag chain hchain
  have hzero : x.count (x.turn role) = 0 := by
    apply hvalid.unstarted
    rw [hvalid.newest role hflag]
    exact Nat.lt_succ_self _
  have hderived : deriveRootNextHeaderAndChainKeys (w.random 0 32)
      (cryptoScalarmultBase (w.random 0 32)) ratchet.theirPublicEphemeral ratchet.rootKey
      ratchet.role = .ok ⟨schedule.rootKey (x.turn role), schedule.headerKey (x.turn role + 2),
        schedule.chainKey (x.turn role)⟩ := by
    unfold deriveRootNextHeaderAndChainKeys
    rw [h.ratchetRole, hsecret, hlistening.rootKey]
    rw [hlistening.rootKey, hchain] at hnew
    simp only [EmptyableKey.ofKey_empty, EmptyableKey.ofKey_key, Result.ok_bind,
      Result.pure_eq_ok, Bool.false_eq_true, if_false, hchain, Schedule.rootKey,
      Schedule.headerKey, Schedule.chainKey, hnew]
    rfl
  refine ⟨_, _, _, getSendData_of_flag (h.flag.trans hflag) hderived, ?_, ?_⟩
  · exact
      { headerKey := by
          rw [hchain]
          exact hlistening.nextSendHeaderKey
        messageKey := by
          rw [hzero]
          rfl
        ephemeral := by
          rw [hnew]
          rfl
        messageNumber := by
          rw [hzero]
          rfl
        previousMessageNumber := by
          rw [hchain]
          exact hlistening.sendMessageNumber }
  · exact { h with
      flag := by
        change false = (x.send role).flag role
        simp [Exchange.send]
      receiving := fun chain hchain => { h.receiving chain hchain with }
      sending := fun _ =>
        { rootKey := rfl
          sendHeaderKey := by
            change some ratchet.nextSendHeaderKey = some (.ofKey (schedule.headerKey (x.turn role)))
            rw [hchain, hlistening.nextSendHeaderKey]
          sendChainKey := by
            change EmptyableKey.ofKey (schedule.chainKey (x.turn role)).nextChainKey =
              .ofKey ((schedule.chainKey (x.turn role)).advance ((x.send role).count (x.turn role)))
            rw [Exchange.count_send_turn, hzero]
            rfl
          nextSendHeaderKey := rfl
          ourPrivateEphemeral := by
            change w.random 0 32 = (schedule (x.turn role)).ephemeral
            rw [hnew]
          ourPublicEphemeral := by
            change cryptoScalarmultBase (w.random 0 32) =
              cryptoScalarmultBase (schedule (x.turn role)).ephemeral
            rw [hnew]
          sendMessageNumber := by
            change (0 + 1 : UInt32).toNat = (x.send role).count (x.turn role)
            rw [Exchange.count_send_turn, hzero]
            rfl
          previousMessageNumber := by
            change ratchet.sendMessageNumber.toNat = (x.send role).previous (x.turn role)
            rw [Exchange.previous_send (Nat.le_succ _), hlistening.sendMessageNumber, hchain] }
      listening := fun htrue => by
        simp [Exchange.send] at htrue }

theorem send_other (h : ratchet.Represents schedule x role.other) (hvalid : x.Valid) :
    ratchet.Represents schedule (x.send role) role.other := by
  have hadjacent := hvalid.adjacent role.other
  rw [Role.other_other] at hadjacent
  refine h.congr rfl ?_ rfl rfl (Exchange.count_send_of_ne (hvalid.turn_other_ne role))
    (Exchange.previous_send hadjacent)
  simp [Exchange.send, role.other_ne]

end Ratchet.Represents

variable [ProtobufC B]

namespace Session

/-- The session follows an exchange with the keys of a schedule. -/
structure Follows (session : Session B) (schedule : Schedule B) (x : Exchange) : Prop where
  linked : schedule.Linked x.newest
  party : ∀ role, (session.party role).ratchet.Represents schedule x role
  length_sent : ∀ role, (session.sent role).length = (x.log role).length
  sent : ∀ role (k : ℕ) (sent : Sent B) (place : Place), (session.sent role)[k]? = some sent →
    (x.log role)[k]? = some place → sent.Carries schedule x place
  delivered : session.delivered = x.delivered

/-- The joint invariant. What a schedule says about chains that have not been started yet is
left open. -/
def Safe (session : Session B) : Prop :=
  ∃ x : Exchange, x.Valid ∧ ∃ schedule : Schedule B, ∀ schedule' : Schedule B,
    (∀ chain ≤ x.newest, schedule' chain = schedule chain) → session.Follows schedule' x

variable {session : Session B}

theorem Started.safe (hideal : Idealised B) (h : session.Started) : session.Safe := by
  obtain ⟨identity, ephemeral, hcreated⟩ := h.created
  obtain ⟨role, masterKey, -, hmaster, halice⟩ := Ratchet.exists_of_create (hcreated .alice)
  have hrole : role = .alice := by
    have := h.role .alice
    rw [halice] at this
    exact this
  subst hrole
  obtain ⟨role, masterKey', -, hmaster', hbob⟩ := Ratchet.exists_of_create (hcreated .bob)
  have hrole : role = .bob := by
    have := h.role .bob
    rw [hbob] at this
    exact this
  subst hrole
  have hmirror := tripleDiffieHellman_mirror hideal.commutes (identity .alice) (ephemeral .alice)
    (identity .bob) (ephemeral .bob) .alice
  simp only [Role.other] at hmirror hmaster hmaster' halice hbob
  rw [hmaster, hmaster'] at hmirror
  cases hmirror
  obtain ⟨-, input, rfl⟩ := exists_of_tripleDiffieHellman hmaster
  refine ⟨.start, Exchange.valid_start,
    fun _ => ⟨cryptoGenerichash input [], ephemeral .bob⟩, ?_⟩
  intro schedule hschedule
  have hzero := hschedule 0 le_rfl
  exact
    { linked :=
        { first := ⟨input, by rw [hzero]⟩
          next := fun chain hchain => absurd hchain (Nat.not_lt_zero _) }
      party := by
        intro role
        cases role with
        | alice =>
            rw [halice]
            exact .start_alice hzero _ _ _ _
        | bob =>
            rw [hbob]
            exact .start_bob hzero _ _ _
      length_sent := by
        intro role
        rw [h.sent]
        rfl
      sent := by
        intro role k sent place hsent
        rw [h.sent] at hsent
        cases hsent
      delivered := funext h.delivered }

section Sending

variable {schedule : Schedule B} {x : Exchange} {role : Role}

theorem carries_send {sent : Sent B} {place : Place} (h : sent.Carries schedule x place)
    (hchain : place.chain ≤ x.turn role + 1) : sent.Carries schedule (x.send role) place :=
  { h with
    previousMessageNumber := by
      rw [Exchange.previous_send hchain]
      exact h.previousMessageNumber }

theorem Follows.send (h : session.Follows schedule x) (hideal : Idealised B) (hvalid : x.Valid)
    {data : SendData B} {ratchet : Ratchet B} {w w' : World B}
    (hdata : (session.party role).ratchet.getSendData w = (.ok data, ratchet, w'))
    (hfits : data.Fits schedule x role) (hself : ratchet.Represents schedule (x.send role) role)
    (hlinked : schedule.Linked (x.send role).newest) [Platform] (message : List B)
    (prekeyMetadata : Option (PrekeyMetadata B)) :
    (session.step (.send role message prekeyMetadata w)).Follows schedule (x.send role) := by
  have hempty : data.headerKey.empty = false := by
    rw [hfits.headerKey]
    rfl
  obtain ⟨packet, w'', hsend, hseals⟩ := Conversation.send_of_getSendData hdata hempty message
    prekeyMetadata
  have hstep : session.step (.send role message prekeyMetadata w) = { session with
      party := Function.update session.party role ⟨(session.party role).id, ratchet⟩
      sent := Function.update session.sent role (session.sent role ++
        [⟨packet, message, data.messageNumber, data.previousMessageNumber⟩]) } := by
    simp only [step, hdata, hsend]
  have hseals := hseals hideal.protobuf
  rw [hfits.headerKey, hfits.messageKey, hfits.ephemeral] at hseals
  have hnew : (Sent.mk packet message data.messageNumber data.previousMessageNumber).Carries
      schedule x ⟨x.turn role, x.count (x.turn role)⟩ :=
    ⟨hseals, hfits.messageNumber, hfits.previousMessageNumber⟩
  rw [hstep]
  exact
    { linked := hlinked
      party := by
        intro role'
        rcases Role.eq_or_eq_other role role' with rfl | rfl
        · simpa using hself
        · simpa [role.other_ne] using (h.party role.other).send_other hvalid
      length_sent := by
        intro role'
        rcases Role.eq_or_eq_other role role' with rfl | rfl
        · simpa [Exchange.send] using h.length_sent role'
        · simpa [Exchange.send, role.other_ne] using h.length_sent role.other
      sent := by
        intro role' k sent place hsent hplace
        rcases Role.eq_or_eq_other role role' with rfl | rfl
        · simp only [Function.update_self, Exchange.send] at hsent hplace
          by_cases hk : k < (session.sent role').length
          · rw [List.getElem?_append_left hk] at hsent
            rw [List.getElem?_append_left (h.length_sent role' ▸ hk)] at hplace
            have hle := (hvalid.log role' place (List.mem_of_getElem? hplace)).2.1
            exact carries_send (h.sent role' k sent place hsent hplace) (by omega)
          · rw [List.getElem?_append_right (not_lt.mp hk)] at hsent
            rw [List.getElem?_append_right (h.length_sent role' ▸ not_lt.mp hk)] at hplace
            have hsent := List.mem_singleton.mp (List.mem_of_getElem? hsent)
            have hplace := List.mem_singleton.mp (List.mem_of_getElem? hplace)
            rw [hsent, hplace]
            exact carries_send hnew (Nat.le_succ _)
        · simp only [Exchange.send, Function.update_of_ne role.other_ne] at hsent hplace
          have hle := (hvalid.log role.other place (List.mem_of_getElem? hplace)).2.1
          have hadjacent := hvalid.adjacent role.other
          rw [Role.other_other] at hadjacent
          exact carries_send (h.sent role.other k sent place hsent hplace) (by omega)
      delivered := h.delivered }

end Sending

theorem Follows.deliver {schedule : Schedule B} {x y : Exchange} {role : Role} {k : ℕ}
    {conversation : Conversation B} (h : session.Follows schedule x) (hmove : x.Delivers y role k)
    (hself : conversation.ratchet.Represents schedule y role) :
    Follows { session with
      party := Function.update session.party role conversation
      delivered := Function.update session.delivered role (k :: session.delivered role) }
      schedule y := by
  have hprevious : y.previous = x.previous := by
    funext chain
    unfold Exchange.previous
    rw [hmove.count]
  exact
    { linked := hmove.newest ▸ h.linked
      party := by
        intro role'
        rcases Role.eq_or_eq_other role role' with rfl | rfl
        · simpa using hself
        · simpa [role.other_ne] using (h.party role.other).congr hmove.turn hmove.flag
            hmove.received hmove.outstanding (congrFun hmove.count _) (congrFun hprevious _)
      length_sent := by
        rw [hmove.log]
        exact h.length_sent
      sent := by
        rw [hmove.log]
        intro role' k' sent place hsent hplace
        exact { h.sent role' k' sent place hsent hplace with
          previousMessageNumber := by
            rw [hprevious]
            exact (h.sent role' k' sent place hsent hplace).previousMessageNumber }
      delivered := by
        rw [hmove.delivered, ← h.delivered] }

variable [Platform]

theorem Safe.send (hideal : Idealised B) (h : session.Safe) {role : Role} {message : List B}
    {prekeyMetadata : Option (PrekeyMetadata B)} {w : World B}
    (hadmissible : session.Admissible (.send role message prekeyMetadata w)) :
    (session.step (.send role message prekeyMetadata w)).Safe := by
  obtain ⟨x, hvalid, schedule, hfollows⟩ := h
  have hparty := (hfollows schedule fun _ _ => rfl).party role
  cases hflag : x.flag role with
  | false =>
      have hnumber := hadmissible (hparty.flag.trans hflag)
      have hnewest : (x.send role).newest = x.newest := max_eq_left (hvalid.newest' role hflag)
      have hcount : x.count (x.turn role) + 1 < 2 ^ 32 := by
        rw [← (hparty.sending hflag).sendMessageNumber]
        exact hnumber
      refine ⟨x.send role, hvalid.send hcount, schedule, fun schedule' hagree => ?_⟩
      rw [hnewest] at hagree
      have hfollows' := hfollows schedule' hagree
      obtain ⟨data, ratchet, w', hdata, hfits, hself⟩ :=
        (hfollows'.party role).getSendData hflag hnumber w
      exact hfollows'.send hideal hvalid hdata hfits hself (hnewest ▸ hfollows'.linked) message
        prekeyMetadata
  | true =>
      have hturn := hvalid.newest role hflag
      have hnewest : (x.send role).newest = x.newest + 1 := by
        change max x.newest (x.turn role) = x.newest + 1
        omega
      have hzero : x.count (x.turn role) = 0 := hvalid.unstarted _ (by omega)
      have hlistening := hparty.listening hflag x.newest hturn
      obtain ⟨secret, hsecret⟩ : ∃ secret, diffieHellman (w.random 0 32)
          (cryptoScalarmultBase (w.random 0 32))
          (session.party role).ratchet.theirPublicEphemeral role = .ok secret := by
        apply exists_diffieHellman
        rw [hlistening.theirPublicEphemeral]
        exact hideal.total _ _
      refine ⟨x.send role, hvalid.send (by omega), Function.update schedule (x.newest + 1)
        ⟨cryptoGenerichash secret.bytes (session.party role).ratchet.rootKey.key.bytes,
          w.random 0 32⟩, fun schedule' hagree => ?_⟩
      rw [hnewest] at hagree
      have hnew := hagree (x.newest + 1) le_rfl
      rw [Function.update_self] at hnew
      have hfollows' := hfollows schedule' fun chain hchain => by
        rw [hagree chain (by omega), Function.update_of_ne (by omega)]
      have hparty' := hfollows'.party role
      have hlistening' := hparty'.listening hflag x.newest hturn
      obtain ⟨data, ratchet, w', hdata, hfits, hself⟩ :=
        hparty'.getSendData_start hvalid hflag hsecret (by rw [hturn]; exact hnew)
      refine hfollows'.send hideal hvalid hdata hfits hself ?_ message prekeyMetadata
      rw [hnewest]
      refine hfollows'.linked.succ hideal.commutes secret (w.random 0 32) ?_ ?_
      · rw [← hturn, hvalid.sender role, ← hlistening'.theirPublicEphemeral]
        exact hsecret
      · rw [hnew, hlistening'.rootKey]
        rfl

/-- The session stays safe if, whatever the schedule says about later chains, the receiver
ends where the exchange takes it. -/
theorem safe_deliver {x y : Exchange} {schedule : Schedule B} {role : Role} {k : ℕ}
    {sent : Sent B} {w : World B} (hsent : (session.sent role.other)[k]? = some sent)
    (hfollows : ∀ schedule' : Schedule B, (∀ chain ≤ x.newest, schedule' chain = schedule chain) →
      session.Follows schedule' x)
    (hvalid : y.Valid) (hmove : x.Delivers y role k)
    (hself : ∀ schedule', session.Follows schedule' x →
      ((session.party role).receive sent.packet w).2.1.ratchet.Represents schedule' y role) :
    (session.step (.deliver role k w)).Safe := by
  refine ⟨y, hvalid, schedule, fun schedule' hagree => ?_⟩
  rw [hmove.newest] at hagree
  have hfollow := hfollows schedule' hagree
  simp only [step, hsent]
  exact hfollow.deliver hmove (hself schedule' hfollow)

/-- A packet of the peer that arrives for the first time delivers its message, one that has
arrived before is rejected, and either way the session stays safe. -/
theorem Safe.deliver (hideal : Idealised B) (h : session.Safe) {role : Role} {k : ℕ}
    {sent : Sent B} {w : World B} (hsent : (session.sent role.other)[k]? = some sent)
    (hadmissible : session.Admissible (.deliver role k w)) :
    (k ∉ session.delivered role → ((session.party role).receive sent.packet w).1 =
      .ok ⟨sent.messageNumber, sent.previousMessageNumber, sent.message⟩) ∧
    (k ∈ session.delivered role →
      ∃ e, ((session.party role).receive sent.packet w).1 = .error e) ∧
    (session.step (.deliver role k w)).Safe := by
  obtain ⟨hreach, hkeeps⟩ := hadmissible sent hsent
  obtain ⟨x, hvalid, schedule, hfollows⟩ := h
  have hfollow := hfollows schedule fun _ _ => rfl
  obtain ⟨place, hplace⟩ : ∃ place, (x.log role.other)[k]? = some place := by
    have hlt := (List.getElem?_eq_some_iff.mp hsent).1
    rw [hfollow.length_sent] at hlt
    exact ⟨_, List.getElem?_eq_getElem hlt⟩
  have hlog := List.mem_of_getElem? hplace
  have hdelivered := hvalid.delivered role k place hplace
  rw [hfollow.delivered]
  have haccepted : ∀ y : Exchange, k ∉ x.delivered role → y.Valid → x.Delivers y role k →
      (∀ schedule', session.Follows schedule' x → sent.Carries schedule' x place →
        ∃ conversation' w', (session.party role).receive sent.packet w =
          (.ok ⟨sent.messageNumber, sent.previousMessageNumber, sent.message⟩,
            conversation', w') ∧ conversation'.ratchet.Represents schedule' y role) →
      (k ∉ x.delivered role → ((session.party role).receive sent.packet w).1 =
        .ok ⟨sent.messageNumber, sent.previousMessageNumber, sent.message⟩) ∧
      (k ∈ x.delivered role → ∃ e, ((session.party role).receive sent.packet w).1 = .error e) ∧
      (session.step (.deliver role k w)).Safe := by
    intro y hnot hy hmove hreceive
    refine ⟨fun _ => ?_, fun hk => absurd hk hnot, safe_deliver hsent hfollows hy hmove ?_⟩
    · obtain ⟨conversation', w', heq, -⟩ := hreceive schedule hfollow
        (hfollow.sent role.other k sent place hsent hplace)
      rw [heq]
    · intro schedule' hfollow'
      obtain ⟨conversation', w', heq, hself⟩ := hreceive schedule' hfollow'
        (hfollow'.sent role.other k sent place hsent hplace)
      rw [heq]
      exact hself
  by_cases hout : place ∈ x.outstanding role
  · exact haccepted _ (fun hk => (hdelivered.mp hk).2 hout) (hvalid.take hplace hout)
      (x.delivers_take role k place) fun schedule' hfollow' hcarries =>
        Conversation.receive_outstanding (hfollow'.party role) hideal hcarries hout k w
  · by_cases hpassed : x.Passed role place
    · have hk := hdelivered.mpr ⟨hpassed, hout⟩
      refine ⟨fun hnot => absurd hk hnot, fun _ => ?_,
        safe_deliver hsent hfollows (hvalid.deliver hk) (x.delivers_deliver role k) ?_⟩
      · exact (Conversation.receive_again (hfollow.party role) hideal hvalid hfollow.linked
          (hfollow.sent role.other k sent place hsent hplace) hpassed
          (hvalid.log_le_newest hlog) hout w).1
      · intro schedule' hfollow'
        exact (Conversation.receive_again (hfollow'.party role) hideal hvalid hfollow'.linked
          (hfollow'.sent role.other k sent place hsent hplace) hpassed
          (hvalid.log_le_newest hlog) hout w).2.deliver role k
    · have hnot : k ∉ x.delivered role := fun hk => hpassed (hdelivered.mp hk).1
      rcases hvalid.log_cases hlog with hlt | ⟨hchain, hflag, -⟩
      · have hturn : x.turn role = place.chain + 1 := by
          by_contra hne
          exact hpassed (.inl (by omega))
        have hnumber : x.received role ≤ place.number := by
          by_contra hlt'
          exact hpassed (.inr ⟨hturn.symm, by omega⟩)
        have hplace' : (x.log role.other)[k]? = some ⟨x.turn role - 1, place.number⟩ := by
          rw [hplace, hturn]
          rfl
        exact haccepted _ hnot (hvalid.acceptCurrent (by omega) hplace' hnumber)
          (x.delivers_acceptCurrent role k place.number) fun schedule' hfollow' hcarries =>
            Conversation.receive_currentChain (hfollow'.party role) hideal hvalid hfollow'.linked
              hcarries hlog hturn hnumber k hreach hkeeps
      · have hplace' : (x.log role.other)[k]? = some ⟨x.turn role + 1, place.number⟩ := by
          rw [hplace, ← hchain]
        exact haccepted _ hnot (hvalid.acceptNext hplace')
          (x.delivers_acceptNext role k place.number) fun schedule' hfollow' hcarries =>
            Conversation.receive_nextChain (hfollow'.party role) hideal hvalid hfollow'.linked
              hcarries hlog hchain hflag k hreach hkeeps

theorem receive_foreign (hideal : Idealised B) {schedule : Schedule B} {x : Exchange}
    {role : Role} {conversation : Conversation B} {packet : List B}
    (h : conversation.ratchet.Represents schedule x role) (hforeign : conversation.Foreign packet)
    (w : World B) :
    (conversation.receive packet w).2.1.ratchet.Represents schedule x role := by
  have hnone := firstDecryption_eq_none.mpr hforeign.skipped
  have hcases := Conversation.receive_cases hideal.kdfNonzero h.receivedValid
    h.headerDecryptable (h.receiveChainKey hideal.kdfNonzero) packet w
  generalize (conversation.receive packet w).1 = result at hcases
  generalize (conversation.receive packet w).2.1 = conversation' at hcases ⊢
  cases hcases with
  | skipped hfound =>
      rw [hnone] at hfound
      cases hfound
  | rejected hleft hpurported =>
      cases hleft with
      | all => exact h.settle _
      | removed hfound =>
          rw [hnone] at hfound
          cases hfound
  | currentChain hleft hopen hheader hheaderKey hskip hcount hstaged hmessage =>
      obtain ⟨e, he⟩ := hforeign.currentChain _ hopen _
      rw [hmessage] at he
      cases he
  | nextChain hleft hcurrent hopen hheader hflag hrest hderived hskip hstagedRest hstaged
      hmessage =>
      obtain ⟨e, he⟩ := hforeign.nextChain _ _ _ hopen hheader hderived _
      rw [hmessage] at he
      cases he

theorem Safe.inject (hideal : Idealised B) (h : session.Safe) {role : Role} {packet : List B}
    {w : World B} (hadmissible : session.Admissible (.inject role packet w)) :
    (session.step (.inject role packet w)).Safe := by
  obtain ⟨x, hvalid, schedule, hfollows⟩ := h
  refine ⟨x, hvalid, schedule, fun schedule' hagree => ?_⟩
  have hfollow := hfollows schedule' hagree
  exact { hfollow with
    party := by
      intro role'
      rcases Role.eq_or_eq_other role role' with rfl | rfl
      · simpa [step] using receive_foreign hideal (hfollow.party role') hadmissible w
      · simpa [step, role.other_ne] using hfollow.party role.other }

theorem Reached.safe (hideal : Idealised B) (h : session.Reached) : session.Safe := by
  induction h with
  | start h => exact h.safe hideal
  | step h hadmissible ih =>
      rename_i session action
      cases action with
      | send role message prekeyMetadata w => exact ih.send hideal hadmissible
      | inject role packet w => exact ih.inject hideal hadmissible
      | deliver role k w =>
          cases hsent : (session.sent role.other)[k]? with
          | none =>
              simp only [Session.step, hsent]
              exact ih
          | some sent => exact (ih.deliver hideal hsent hadmissible).2.2

/-- Whatever has happened before, a packet of the peer delivers its message and numbers the
first time it arrives and is rejected every time after that. -/
theorem exactly_once_delivery (hideal : Idealised B) (h : session.Reached) {role : Role} {k : ℕ}
    {sent : Sent B} {w : World B} (hsent : (session.sent role.other)[k]? = some sent)
    (hadmissible : session.Admissible (.deliver role k w)) :
    (k ∉ session.delivered role → ((session.party role).receive sent.packet w).1 =
      .ok ⟨sent.messageNumber, sent.previousMessageNumber, sent.message⟩) ∧
    (k ∈ session.delivered role →
      ∃ e, ((session.party role).receive sent.packet w).1 = .error e) := by
  obtain ⟨hfirst, hagain, -⟩ := (h.safe hideal).deliver hideal hsent hadmissible
  exact ⟨hfirst, hagain⟩

section FirstMessage

omit [ProtobufC B] [Platform] in
theorem started_of_create (identity ephemeral : Role → PrivateKey B)
    {party : Role → Conversation B}
    (hroles : ∀ role : Role, Ratchet.chooseRole (cryptoScalarmultBase (identity role))
      (cryptoScalarmultBase (identity role.other)) = .ok role)
    (hcreate : ∀ role, Ratchet.create (identity role) (cryptoScalarmultBase (identity role))
      (cryptoScalarmultBase (identity role.other)) (ephemeral role)
      (cryptoScalarmultBase (ephemeral role)) (cryptoScalarmultBase (ephemeral role.other)) =
        .ok (party role).ratchet) :
    Started ⟨party, fun _ => [], fun _ => []⟩ := by
  refine ⟨⟨identity, ephemeral, hcreate⟩, ?_, fun _ => rfl, fun _ => rfl⟩
  intro role
  obtain ⟨role', masterKey, hchosen, -, heq⟩ := Ratchet.exists_of_create (hcreate role)
  rw [hroles role] at hchosen
  cases hchosen
  rw [heq]
  rfl

omit [Platform] in
theorem exists_started (hideal : Idealised B) (identity ephemeral : Role → PrivateKey B)
    (hrole : Ratchet.chooseRole (cryptoScalarmultBase (identity .alice))
      (cryptoScalarmultBase (identity .bob)) = .ok .alice) :
    ∃ session : Session B, session.Started := by
  have husable : ∀ key : PrivateKey B, Usable (cryptoScalarmultBase key) :=
    fun key privateKey => hideal.total privateKey key
  have hroles : ∀ role : Role, Ratchet.chooseRole (cryptoScalarmultBase (identity role))
      (cryptoScalarmultBase (identity role.other)) = .ok role := by
    intro role
    cases role with
    | alice => exact hrole
    | bob => exact Ratchet.chooseRole_other hrole
  choose ratchet hratchet using fun role => Ratchet.exists_create (hroles role)
    (husable (identity role.other)) (husable (ephemeral role.other)) (identity role)
    (ephemeral role) (cryptoScalarmultBase (ephemeral role))
  have hstarted : Started ⟨fun role => ⟨Key.zero, ratchet role⟩, fun _ => [], fun _ => []⟩ :=
    started_of_create identity ephemeral hroles hratchet
  exact ⟨_, hstarted⟩

omit [ProtobufC B] [Platform] in
theorem Started.ratchet_eq (h : session.Started) (role : Role) :
    ∃ derivation ourPublicIdentity theirPublicIdentity ourPrivateEphemeral ourPublicEphemeral
      theirPublicEphemeral, (session.party role).ratchet = Ratchet.ofInitialKeys role
        (.ofMasterKey derivation role) ourPublicIdentity theirPublicIdentity ourPrivateEphemeral
        ourPublicEphemeral theirPublicEphemeral := by
  obtain ⟨identity, ephemeral, hcreated⟩ := h.created
  obtain ⟨role', masterKey, -, -, heq⟩ := Ratchet.exists_of_create (hcreated role)
  have hrole : role' = role := by
    have hratchet := h.role role
    rw [heq] at hratchet
    exact hratchet
  subst hrole
  exact ⟨_, _, _, _, _, _, heq⟩

theorem Started.send_first (h : session.Started) (message : List B) {w : World B}
    (hw : w.Steady) :
    let session' := session.step (.send .bob message none w)
    session.Admissible (.send .bob message none w) ∧
      (∃ sent, (session'.sent .bob)[0]? = some sent ∧ sent.message = message) ∧
      session'.delivered = session.delivered ∧ session'.Admissible (.deliver .alice 0 w) := by
  obtain ⟨derivation, ourIdentity, theirIdentity, ourPrivate, ourPublic, theirPublic, hbob⟩ :=
    h.ratchet_eq .bob
  obtain ⟨derivation', ourIdentity', theirIdentity', ourPrivate', ourPublic', theirPublic',
    halice⟩ := h.ratchet_eq .alice
  have hdata : (session.party .bob).ratchet.getSendData w =
      (.ok ⟨0, 0, ourPublic, (derivation.deriveSubkeyWithIndex 4).messageKey,
        .ofKey (derivation.deriveSubkeyWithIndex 1)⟩,
        (session.party .bob).ratchet.advanceSendChain, w) := by
    rw [hbob]
    exact Ratchet.getSendData_of_chain rfl rfl rfl w
  obtain ⟨packet, w', hsend, -⟩ := Conversation.send_of_getSendData hdata rfl message none
  have hsent : (session.step (.send .bob message none w)).sent .bob =
      [⟨packet, message, 0, 0⟩] := by
    simp [step, hdata, hsend, h.sent]
  have hparty : (session.step (.send .bob message none w)).party .alice =
      session.party .alice := by
    simp [step, hdata, hsend]
  refine ⟨fun _ => ?_, ⟨_, by rw [hsent]; rfl, rfl⟩, by simp [step, hdata, hsend], ?_⟩
  · rw [hbob]
    exact Nat.one_lt_two_pow (by decide)
  · intro sent hsent'
    rw [show Role.alice.other = .bob from rfl, hsent] at hsent'
    cases hsent'
    have hskip : ∀ number, tooManySkipped number 0 = false := by
      intro number
      exact decide_eq_false (Nat.not_lt_zero _)
    rw [hparty, halice]
    refine ⟨⟨fun _ _ => ⟨hskip _, ?_⟩, fun _ _ => ⟨fun _ => hskip _, hskip _, ?_⟩⟩, ?_, hw⟩
    · exact Nat.zero_le _
    · unfold Ratchet.restCount
      split
      · exact Nat.zero_le _
      · exact Nat.zero_le _
    · intro key hkey
      cases hkey

end FirstMessage

end Session

namespace Symbolic

theorem idealised : Idealised ℕ where
  secretbox := secretboxRoundTrip
  keyBound := secretboxKeyBound
  generichash := generichashInjective
  kdf := kdfInjective
  kdfNonzero := kdfNonzero
  commutes := scalarmultCommutes
  total := scalarmultTotal
  protobuf := protobufRoundTrip

theorem exists_session : ∃ session : Session ℕ, session.Started := by
  have hne : publicCode (carry 32 0) ≠ publicCode (carry 32 1) := by
    intro h
    exact Nat.zero_ne_one (carry_injective (by decide) (publicCode_injective h))
  rcases lt_or_gt_of_ne hne with hlt | hlt
  · exact Session.exists_started idealised
      (fun role => if role = .alice then carry 32 1 else carry 32 0) (fun _ => Key.zero)
      (chooseRole_carry hlt)
  · exact Session.exists_started idealised
      (fun role => if role = .alice then carry 32 0 else carry 32 1) (fun _ => Key.zero)
      (chooseRole_carry hlt)

/-- Bob sends a message, Alice gets it once. -/
theorem exactly_once_delivery_first_message :
    ∃ (session : Session ℕ) (sent : Sent ℕ), session.Reached ∧
      (session.sent .bob)[0]? = some sent ∧ sent.message = [1, 2, 3] ∧
      ((session.party .alice).receive sent.packet world).1 =
        .ok ⟨sent.messageNumber, sent.previousMessageNumber, [1, 2, 3]⟩ := by
  obtain ⟨start, hstart⟩ := exists_session
  have hsteady : world.Steady := by
    intro i j
    change (0 : ℤ) - maximumAge < 0 + maximumAge
    decide
  have hfirst := hstart.send_first [1, 2, 3] hsteady
  simp only at hfirst
  obtain ⟨hsend, ⟨sent, hsent, hmessage⟩, hdelivered, hdeliver⟩ := hfirst
  have hreached := (Session.Reached.start hstart).step hsend
  refine ⟨start.step (.send .bob [1, 2, 3] none world), sent, ?_, ?_, ?_, ?_⟩
  · exact hreached
  · exact hsent
  · exact hmessage
  have hnot : 0 ∉ (start.step (.send .bob [1, 2, 3] none world)).delivered .alice := by
    rw [hdelivered, hstart.delivered]
    exact List.not_mem_nil
  have hresult := Session.exactly_once_delivery idealised hreached hsent hdeliver
  rw [hresult.1 hnot, hmessage]

end Symbolic

end Molch
