import Molch.Foundation.Runs
import Molch.Symbolic
import Molch.WellFormed

namespace Molch

variable {B : Type} [Byte B] [Sodium B]

/-- Keys that are equal or that both count as none. -/
def EmptyableKey.Agree {n : ℕ} (key key' : EmptyableKey B n) : Prop :=
  key = key' ∨ key.isNone = true ∧ key'.isNone = true

namespace EmptyableKey.Agree

variable {n : ℕ} {key key' : EmptyableKey B n}

omit [Sodium B]

theorem refl (key : EmptyableKey B n) : key.Agree key := .inl rfl

theorem symm (h : key.Agree key') : key'.Agree key := by
  rcases h with h | ⟨h, h'⟩
  · exact .inl h.symm
  · exact .inr ⟨h', h⟩

theorem isNone_eq (h : key.Agree key') : key.isNone = key'.isNone := by
  rcases h with rfl | ⟨h, h'⟩
  · rfl
  · rw [h, h']

theorem eq (h : key.Agree key') (hnone : key.isNone = false) : key = key' := by
  rcases h with h | ⟨h, -⟩
  · exact h
  · rw [hnone] at h
    cases h

theorem restored (h : key.Canonical) : key.Agree key.restored := by
  cases hempty : key.empty with
  | true =>
      rw [h hempty]
      exact .inr ⟨rfl, Key.isZero_zero⟩
  | false => exact .inl (EmptyableKey.restored_eq hempty).symm

end EmptyableKey.Agree

namespace Ratchet

/-- Two ratchets that a caller cannot tell apart. Purported values are written before they are
read, so they do not matter. -/
structure Alike (ratchet ratchet' : Ratchet B) : Prop where
  wellFormed : ratchet.WellFormed
  wellFormed' : ratchet'.WellFormed
  rootKey : ratchet.rootKey = ratchet'.rootKey
  sendHeaderKey : ratchet.sendHeaderKey = ratchet'.sendHeaderKey
  receiveHeaderKey : ratchet.receiveHeaderKey.Agree ratchet'.receiveHeaderKey
  nextSendHeaderKey : ratchet.nextSendHeaderKey = ratchet'.nextSendHeaderKey
  nextReceiveHeaderKey : ratchet.nextReceiveHeaderKey = ratchet'.nextReceiveHeaderKey
  sendChainKey : ratchet.sendChainKey.Agree ratchet'.sendChainKey
  receiveChainKey : ratchet.receiveChainKey.Agree ratchet'.receiveChainKey
  ourPrivateEphemeral : ratchet.ourPrivateEphemeral = ratchet'.ourPrivateEphemeral
  ourPublicEphemeral : ratchet.ourPublicEphemeral = ratchet'.ourPublicEphemeral
  theirPublicEphemeral : ratchet.theirPublicEphemeral = ratchet'.theirPublicEphemeral
  sendMessageNumber : ratchet.sendMessageNumber = ratchet'.sendMessageNumber
  receiveMessageNumber : ratchet.receiveMessageNumber = ratchet'.receiveMessageNumber
  previousMessageNumber : ratchet.previousMessageNumber = ratchet'.previousMessageNumber
  ratchetFlag : ratchet.ratchetFlag = ratchet'.ratchetFlag
  role : ratchet.role = ratchet'.role
  skipped : ratchet.skippedHeaderAndMessageKeys = ratchet'.skippedHeaderAndMessageKeys

namespace Alike

variable {ratchet ratchet' : Ratchet B}

theorem symm (h : ratchet.Alike ratchet') : ratchet'.Alike ratchet where
  wellFormed := h.wellFormed'
  wellFormed' := h.wellFormed
  rootKey := h.rootKey.symm
  sendHeaderKey := h.sendHeaderKey.symm
  receiveHeaderKey := h.receiveHeaderKey.symm
  nextSendHeaderKey := h.nextSendHeaderKey.symm
  nextReceiveHeaderKey := h.nextReceiveHeaderKey.symm
  sendChainKey := h.sendChainKey.symm
  receiveChainKey := h.receiveChainKey.symm
  ourPrivateEphemeral := h.ourPrivateEphemeral.symm
  ourPublicEphemeral := h.ourPublicEphemeral.symm
  theirPublicEphemeral := h.theirPublicEphemeral.symm
  sendMessageNumber := h.sendMessageNumber.symm
  receiveMessageNumber := h.receiveMessageNumber.symm
  previousMessageNumber := h.previousMessageNumber.symm
  ratchetFlag := h.ratchetFlag.symm
  role := h.role.symm
  skipped := h.skipped.symm

theorem deriveRootNextHeaderAndChainKeys_eq (h : ratchet.Alike ratchet')
    (privateEphemeral : PrivateKey B) (publicEphemeral : PublicKey B) :
    deriveRootNextHeaderAndChainKeys privateEphemeral publicEphemeral
        ratchet.theirPublicEphemeral ratchet.rootKey ratchet.role =
      deriveRootNextHeaderAndChainKeys privateEphemeral publicEphemeral
        ratchet'.theirPublicEphemeral ratchet'.rootKey ratchet'.role := by
  rw [h.theirPublicEphemeral, h.rootKey, h.role]

theorem advanceSendChain (h : ratchet.Alike ratchet') (hkdf : KdfNonzero B)
    (hchain : ratchet.sendChainKey = ratchet'.sendChainKey) :
    ratchet.advanceSendChain.Alike ratchet'.advanceSendChain :=
  { h with
    wellFormed := h.wellFormed.advanceSendChain hkdf
    wellFormed' := h.wellFormed'.advanceSendChain hkdf
    sendMessageNumber := congrArg (· + 1) h.sendMessageNumber
    sendChainKey := .inl (by
      unfold Ratchet.advanceSendChain
      rw [hchain]) }

theorem getSendData (h : ratchet.Alike ratchet') (hkdf : KdfNonzero B) (w : World B) :
    ∃ data next next' w', ratchet.getSendData w = (.ok data, next, w') ∧
      ratchet'.getSendData w = (.ok data, next', w') ∧ data.headerKey.empty = false ∧
      next.Alike next' := by
  cases hflag : ratchet.ratchetFlag with
  | false =>
      have hflag' : ratchet'.ratchetFlag = false := by rw [← h.ratchetFlag, hflag]
      obtain ⟨headerKey, hheader⟩ := h.wellFormed.sendHeaderKey hflag
      have hheader' : ratchet'.sendHeaderKey = some (.ofKey headerKey) := by
        rw [← h.sendHeaderKey, hheader]
      have hnone := h.wellFormed.sendChainKey hflag
      have hchain := h.sendChainKey.eq hnone
      have hempty := EmptyableKey.empty_eq_false_of_isNone hnone
      have hempty' : ratchet'.sendChainKey.empty = false := by rw [← hchain, hempty]
      have hdata : ratchet'.sendData (.ofKey headerKey) = ratchet.sendData (.ofKey headerKey) := by
        unfold sendData
        rw [hchain, h.sendMessageNumber, h.previousMessageNumber, h.ourPublicEphemeral]
      refine ⟨_, _, _, _, getSendData_of_chain hflag hempty hheader w, ?_, rfl,
        h.advanceSendChain hkdf hchain⟩
      rw [getSendData_of_chain hflag' hempty' hheader' w, hdata]
  | true =>
      have hflag' : ratchet'.ratchetFlag = true := by rw [← h.ratchetFlag, hflag]
      obtain ⟨derived, hderived⟩ := exists_derived h.wellFormed.rootKey
        (h.wellFormed.theirEphemeral (w.random 0 32)) ratchet.role
      have hderived' := hderived
      rw [h.deriveRootNextHeaderAndChainKeys_eq] at hderived'
      have hstarted : (ratchet.withSendChain (w.random 0 32) derived).Alike
          (ratchet'.withSendChain (w.random 0 32) derived) :=
        { h with
          wellFormed := h.wellFormed.withSendChain hkdf hderived
          wellFormed' := h.wellFormed'.withSendChain hkdf hderived'
          rootKey := rfl
          sendHeaderKey := congrArg some h.nextSendHeaderKey
          nextSendHeaderKey := rfl
          sendChainKey := .refl _
          ourPrivateEphemeral := rfl
          ourPublicEphemeral := rfl
          sendMessageNumber := rfl
          previousMessageNumber := h.sendMessageNumber
          ratchetFlag := rfl }
      have hdata : (ratchet'.withSendChain (w.random 0 32) derived).sendData
          ratchet'.nextSendHeaderKey = (ratchet.withSendChain (w.random 0 32) derived).sendData
            ratchet.nextSendHeaderKey := by
        unfold sendData withSendChain
        rw [h.nextSendHeaderKey, h.sendMessageNumber]
      refine ⟨_, _, _, _, getSendData_of_flag hflag hderived, ?_, h.wellFormed.nextSendHeaderKey,
        hstarted.advanceSendChain hkdf rfl⟩
      rw [getSendData_of_flag hflag' hderived', hdata]

theorem stagedRest (h : ratchet.Alike ratchet') (previousNumber : UInt32) (w : World B) :
    ratchet.stagedRest previousNumber w = ratchet'.stagedRest previousNumber w := by
  unfold Ratchet.stagedRest skippedCount
  rw [h.wellFormed.staged, h.wellFormed'.staged, ← h.receiveChainKey.isNone_eq,
    h.receiveMessageNumber]
  cases hnone : ratchet.receiveChainKey.isNone with
  | true => rfl
  | false =>
      have hheader : ratchet.receiveHeaderKey.isNone = false := by
        rw [h.wellFormed.receiving, hnone]
      rw [h.receiveChainKey.eq hnone, h.receiveHeaderKey.eq hheader]

theorem settle (h : ratchet.Alike ratchet') {purported purported' : Purported B}
    {skipped : HeaderAndMessageKeyStore B}
    (hwell : (ratchet.settle purported skipped).WellFormed)
    (hwell' : (ratchet'.settle purported' skipped).WellFormed) :
    (ratchet.settle purported skipped).Alike (ratchet'.settle purported' skipped) :=
  { h with
    wellFormed := hwell
    wellFormed' := hwell'
    skipped := rfl }

end Alike

end Ratchet

namespace Conversation

open Ratchet

variable [ProtobufC B] {conversation conversation' : Conversation B} {packet : List B}

theorem SkippedLeft.alike (h : conversation.ratchet.Alike conversation'.ratchet)
    {skipped : HeaderAndMessageKeyStore B} (hleft : conversation.SkippedLeft packet skipped) :
    conversation'.SkippedLeft packet skipped := by
  cases hleft with
  | all hnone =>
      rw [h.skipped] at hnone ⊢
      exact .all hnone
  | removed hfound hheader =>
      rw [h.skipped] at hfound ⊢
      exact .removed hfound hheader

theorem SkippedLeft.unique {skipped skipped' : HeaderAndMessageKeyStore B}
    (hleft : conversation.SkippedLeft packet skipped)
    (hleft' : conversation.SkippedLeft packet skipped') : skipped = skipped' := by
  cases hleft with
  | all hnone =>
      cases hleft' with
      | all => rfl
      | removed hfound =>
          rw [hnone] at hfound
          cases hfound
  | removed hfound =>
      cases hleft' with
      | all hnone =>
          rw [hnone] at hfound
          cases hfound
      | removed hfound' =>
          rw [hfound] at hfound'
          cases hfound'
          rfl

omit [Byte B] in
theorem headerKey_unique (hone : SecretboxOneKey B) {key key' : EmptyableHeaderKey B}
    {header header' : List B} (hopen : packetDecryptHeader packet key = .ok header)
    (hopen' : packetDecryptHeader packet key' = .ok header') : key = key' := by
  have hopened : ∀ {key : EmptyableHeaderKey B} {header : List B},
      packetDecryptHeader packet key = .ok header → key.empty = false ∧
        ∃ unpacked, packetUnpack packet = .ok unpacked ∧
          Sodium.cryptoSecretboxOpenEasy unpacked.encryptedAxolotlHeader unpacked.headerNonce
            key.key = some header := by
    intro key header h
    unfold packetDecryptHeader at h
    split at h
    · cases h
    · rename_i hempty
      split at h
      · cases h
      · rename_i unpacked hunpack
        split at h
        · cases h
        · split at h
          · cases h
          · rename_i hbox
            cases h
            exact ⟨by simpa using hempty, unpacked, hunpack, hbox⟩
  obtain ⟨hempty, unpacked, hunpack, hbox⟩ := hopened hopen
  obtain ⟨hempty', unpacked', hunpack', hbox'⟩ := hopened hopen'
  rw [hunpack] at hunpack'
  cases hunpack'
  exact EmptyableKey.ext (hone _ _ _ _ _ _ hbox hbox') (hempty.trans hempty'.symm)

/-- A packet for the next chain does not open under a current header key that counts as
none, whether it is empty or zero. -/
theorem current_undecryptable (hone : SecretboxOneKey B)
    (h : conversation.ratchet.Alike conversation'.ratchet) {header : List B}
    (hcurrent : ∃ e, packetDecryptHeader packet conversation.ratchet.receiveHeaderKey = .error e)
    (hopen : packetDecryptHeader packet conversation.ratchet.nextReceiveHeaderKey = .ok header) :
    ∃ e, packetDecryptHeader packet conversation'.ratchet.receiveHeaderKey = .error e := by
  rcases h.receiveHeaderKey with heq | ⟨-, hnone⟩
  · rw [← heq]
    exact hcurrent
  · cases hopen' : packetDecryptHeader packet conversation'.ratchet.receiveHeaderKey with
    | error e => exact ⟨e, rfl⟩
    | ok header' =>
        rw [headerKey_unique hone hopen' hopen, h.wellFormed.nextReceiveHeaderKey] at hnone
        cases hnone

variable [Platform]

theorem Received.alike (hkdf : KdfNonzero B) (hpoint : ScalarmultFailsByPoint B)
    (hone : SecretboxOneKey B) (h : conversation.ratchet.Alike conversation'.ratchet)
    {w : World B} {message : ReceivedMessage B} {next : Conversation B}
    (hreceived : Received conversation packet w (.ok message) next) :
    ∃ next', Received conversation' packet w (.ok message) next' ∧
      next.ratchet.Alike next'.ratchet := by
  have hwell := wellFormed_received hkdf hpoint h.wellFormed hreceived
  cases hreceived with
  | skipped hfound hheader =>
      have hfound' := hfound
      rw [h.skipped] at hfound'
      have hreceived' := Received.skipped (w := w) hfound' hheader
      exact ⟨_, hreceived', { h with
        wellFormed := hwell
        wellFormed' := wellFormed_received hkdf hpoint h.wellFormed' hreceived'
        skipped := by simp only [h.skipped] }⟩
  | currentChain hleft hopen hheader hnone hskip hcount hstaged hmessage =>
      have hkey := h.receiveHeaderKey.eq hnone
      have hchain := h.receiveChainKey.eq (h.wellFormed.receiveChainKey hnone)
      unfold Ratchet.skippedCount at hcount
      rw [h.receiveMessageNumber] at hskip hcount
      rw [h.wellFormed.staged, ← h.wellFormed'.staged, hkey, hchain] at hstaged
      rw [hchain] at hmessage
      rw [hkey] at hopen hnone
      have hreceived' := Received.currentChain (hleft.alike h) hopen hheader hnone hskip hcount
        hstaged hmessage
      exact ⟨_, hreceived', { h with
        wellFormed := hwell
        wellFormed' := wellFormed_received hkdf hpoint h.wellFormed' hreceived'
        receiveChainKey := .inl (by simp only [acceptCurrent, hchain])
        receiveMessageNumber := rfl
        skipped := rfl }⟩
  | nextChain hleft hcurrent hopen hheader hflag hrest hderived hskip hstagedRest hstaged
      hmessage =>
      have hcurrent' := current_undecryptable hone h hcurrent hopen
      rw [h.stagedRest] at hstagedRest
      unfold restInReach at hrest
      rw [h.receiveChainKey.isNone_eq, h.receiveMessageNumber] at hrest
      rw [h.ourPrivateEphemeral, h.ourPublicEphemeral, h.rootKey, h.role] at hderived
      rw [h.nextReceiveHeaderKey] at hopen hstaged
      rw [h.ratchetFlag] at hflag
      have hreceived' := Received.nextChain (hleft.alike h) hcurrent' hopen hheader hflag hrest
        hderived hskip hstagedRest hstaged hmessage
      exact ⟨_, hreceived', { h with
        wellFormed := hwell
        wellFormed' := wellFormed_received hkdf hpoint h.wellFormed' hreceived'
        rootKey := rfl
        receiveHeaderKey := .inl h.nextReceiveHeaderKey
        nextReceiveHeaderKey := rfl
        receiveChainKey := .refl _
        ourPrivateEphemeral := rfl
        theirPublicEphemeral := rfl
        receiveMessageNumber := rfl
        ratchetFlag := rfl
        skipped := rfl }⟩

theorem receive_ok_of_alike (hkdf : KdfNonzero B) (hpoint : ScalarmultFailsByPoint B)
    (hone : SecretboxOneKey B) (h : conversation.ratchet.Alike conversation'.ratchet)
    {w : World B} {message : ReceivedMessage B}
    (hok : (conversation.receive packet w).1 = .ok message) :
    (conversation'.receive packet w).1 = .ok message ∧
      (conversation.receive packet w).2.1.ratchet.Alike
        (conversation'.receive packet w).2.1.ratchet := by
  have hreceived := WellFormed.receive_cases hkdf h.wellFormed packet w
  rw [hok] at hreceived
  obtain ⟨next', hreceived', halike⟩ := hreceived.alike hkdf hpoint hone h
  obtain ⟨w', hreceive'⟩ := hreceived'.receive_eq hkdf h.wellFormed'.receivedValid
    h.wellFormed'.headerDecryptable h.wellFormed'.receiveChainKey
  rw [hreceive']
  exact ⟨rfl, halike⟩

theorem receive_alike (hkdf : KdfNonzero B) (hpoint : ScalarmultFailsByPoint B)
    (hone : SecretboxOneKey B) (h : conversation.ratchet.Alike conversation'.ratchet)
    (packet : List B) (w : World B) :
    (conversation.receive packet w).1.toOption = (conversation'.receive packet w).1.toOption ∧
      (conversation.receive packet w).2.1.ratchet.Alike
        (conversation'.receive packet w).2.1.ratchet := by
  cases hresult : (conversation.receive packet w).1 with
  | ok message =>
      obtain ⟨hok, halike⟩ := receive_ok_of_alike hkdf hpoint hone h hresult
      exact ⟨by rw [hok], halike⟩
  | error e =>
      cases hresult' : (conversation'.receive packet w).1 with
      | ok message =>
          obtain ⟨hok, -⟩ := receive_ok_of_alike hkdf hpoint hone h.symm hresult'
          rw [hresult] at hok
          cases hok
      | error e' =>
          refine ⟨rfl, ?_⟩
          have hreceived := WellFormed.receive_cases hkdf h.wellFormed packet w
          have hreceived' := WellFormed.receive_cases hkdf h.wellFormed' packet w
          have hwell := wellFormed_received hkdf hpoint h.wellFormed hreceived
          have hwell' := wellFormed_received hkdf hpoint h.wellFormed' hreceived'
          rw [hresult] at hreceived
          rw [hresult'] at hreceived'
          generalize (conversation.receive packet w).2.1 = next at hreceived hwell ⊢
          generalize (conversation'.receive packet w).2.1 = next' at hreceived' hwell' ⊢
          cases hreceived with
          | rejected hleft =>
              cases hreceived' with
              | rejected hleft' =>
                  have hsame := (hleft.alike h).unique hleft'
                  subst hsame
                  exact h.settle hwell hwell'

omit [Platform] in
theorem send_alike (hkdf : KdfNonzero B)
    (h : conversation.ratchet.Alike conversation'.ratchet) (message : List B)
    (prekeyMetadata : Option (PrekeyMetadata B)) (w : World B) :
    (conversation.send message prekeyMetadata w).1 =
        (conversation'.send message prekeyMetadata w).1 ∧
      (conversation.send message prekeyMetadata w).2.1.ratchet.Alike
        (conversation'.send message prekeyMetadata w).2.1.ratchet := by
  obtain ⟨data, next, next', w', hdata, hdata', -, halike⟩ := h.getSendData hkdf w
  unfold send
  rw [hdata, hdata']
  exact ⟨rfl, halike⟩

theorem call_alike (hkdf : KdfNonzero B) (hpoint : ScalarmultFailsByPoint B)
    (hone : SecretboxOneKey B) (conversation conversation' : Conversation B) (c : Call B)
    (h : conversation.ratchet.Alike conversation'.ratchet) :
    (conversation.call c).1 = (conversation'.call c).1 ∧
      (conversation.call c).2.ratchet.Alike (conversation'.call c).2.ratchet := by
  cases c with
  | send message prekeyMetadata w =>
      obtain ⟨hpacket, halike⟩ := send_alike hkdf h message prekeyMetadata w
      exact ⟨congrArg (fun result => Outcome.sent (Except.toOption result)) hpacket, halike⟩
  | receive packet w =>
      obtain ⟨hmessage, halike⟩ := receive_alike hkdf hpoint hone h packet w
      exact ⟨congrArg Outcome.received hmessage, halike⟩

end Conversation

section Restored

omit [Byte B] [Sodium B] in
theorem HeaderAndMessageKeyStore.restored_eq {store : HeaderAndMessageKeyStore B}
    (hdates : store.DatesSane) (hkeys : ∀ key ∈ store.keys, key.headerKey.empty = false) :
    store.restored = store := by
  apply HeaderAndMessageKeyStore.ext
  calc store.keys.map HeaderAndMessageKey.restored
      = store.keys.map id := by
        apply List.map_congr_left
        intro key hkey
        obtain ⟨hpositive, hrange⟩ := hdates key hkey
        unfold HeaderAndMessageKey.restored
        rw [EmptyableKey.restored_eq (hkeys key hkey), restoredDate_eq hpositive hrange]
        rfl
    _ = store.keys := List.map_id _

variable {ratchet : Ratchet B}

theorem Ratchet.WellFormed.restored_skipped (h : ratchet.WellFormed)
    (hdates : ratchet.skippedHeaderAndMessageKeys.DatesSane) :
    ratchet.restored.skippedHeaderAndMessageKeys = ratchet.skippedHeaderAndMessageKeys :=
  HeaderAndMessageKeyStore.restored_eq hdates h.skipped

theorem Ratchet.WellFormed.restored_sendHeaderKey (h : ratchet.WellFormed) :
    ratchet.restored.sendHeaderKey = ratchet.sendHeaderKey := by
  change ratchet.sendHeaderKey.map EmptyableKey.restored = ratchet.sendHeaderKey
  cases hkey : ratchet.sendHeaderKey with
  | none => rfl
  | some key => exact congrArg some (EmptyableKey.restored_eq (h.sendHeaderKey_not_empty key hkey))

theorem Ratchet.WellFormed.alike_restored (h : ratchet.WellFormed)
    (hdates : ratchet.skippedHeaderAndMessageKeys.DatesSane) :
    ratchet.Alike ratchet.restored where
  wellFormed := h
  wellFormed' := h.restored
  rootKey := rfl
  sendHeaderKey := h.restored_sendHeaderKey.symm
  receiveHeaderKey := .restored h.receiveHeaderKey_canonical
  nextSendHeaderKey := rfl
  nextReceiveHeaderKey := rfl
  sendChainKey := .restored h.sendChainKey_canonical
  receiveChainKey := .restored h.receiveChainKey_canonical
  ourPrivateEphemeral := rfl
  ourPublicEphemeral := rfl
  theirPublicEphemeral := rfl
  sendMessageNumber := rfl
  receiveMessageNumber := rfl
  previousMessageNumber := rfl
  ratchetFlag := rfl
  role := rfl
  skipped := (h.restored_skipped hdates).symm

theorem Ratchet.WellFormed.exportProtobuf_restored (h : ratchet.WellFormed)
    (hdates : ratchet.skippedHeaderAndMessageKeys.DatesSane) :
    ratchet.restored.exportProtobuf = ratchet.exportProtobuf := by
  rw [h.exportable.exportProtobuf_eq, h.restored.exportable.exportProtobuf_eq,
    h.restored_skipped hdates, h.restored.staged, h.staged]
  unfold Ratchet.exported
  rw [h.restored_sendHeaderKey]
  rfl

end Restored

theorem Conversation.Reachable.exportProtobuf [ProtobufC B] [Platform] (hkdf : KdfNonzero B)
    (hpoint : ScalarmultFailsByPoint B) {conversation : Conversation B}
    (h : Reachable World.ClockSane conversation) :
    ∃ exported, conversation.exportProtobuf = .ok exported ∧
      import_ exported = .ok conversation.restored ∧
      conversation.restored.exportProtobuf = .ok exported := by
  have hwell := h.wellFormed hkdf hpoint
  have hdates := h.datesSane hkdf hpoint
  obtain ⟨skipped, hskipped⟩ := hdates.exportProtobuf
  have hexport : ∃ exported, conversation.exportProtobuf = .ok exported := by
    unfold Conversation.exportProtobuf
    rw [hwell.exportable.exportProtobuf_eq, hskipped, hwell.staged]
    exact ⟨_, rfl⟩
  obtain ⟨exported, hexported⟩ := hexport
  refine ⟨exported, hexported, import_exportProtobuf hexported hwell.purported_canonical, ?_⟩
  rw [← hexported]
  unfold Conversation.exportProtobuf Conversation.restored
  rw [hwell.exportProtobuf_restored hdates]

/-- Backing up a conversation and restoring it changes nothing that a caller can observe. -/
theorem Conversation.restored_conversation_behaves_alike [ProtobufC B] [Platform]
    (hkdf : KdfNonzero B) (hpoint : ScalarmultFailsByPoint B) (hone : SecretboxOneKey B)
    {conversation : Conversation B} (h : Reachable World.ClockSane conversation) :
    ∃ exported conversation', conversation.exportProtobuf = .ok exported ∧
      import_ exported = .ok conversation' ∧ conversation'.exportProtobuf = .ok exported ∧
      ∀ calls : List (Call B),
        Runs.outputs call conversation calls = Runs.outputs call conversation' calls := by
  obtain ⟨exported, hexported, himported, hagain⟩ := h.exportProtobuf hkdf hpoint
  have halike := (h.wellFormed hkdf hpoint).alike_restored (h.datesSane hkdf hpoint)
  refine ⟨exported, conversation.restored, hexported, himported, hagain, ?_⟩
  intro calls
  exact Runs.outputs_eq_of_simulation (call_alike hkdf hpoint hone) halike calls

/-- A conversation that has just been created survives a backup. -/
theorem Symbolic.created_conversation_behaves_alike_restored :
    ∃ conversation conversation' : Conversation ℕ, ∃ exported,
      conversation.Reachable World.ClockSane ∧ conversation.exportProtobuf = .ok exported ∧
      Conversation.import_ exported = .ok conversation' ∧
      ∀ calls, Runs.outputs Conversation.call conversation calls =
        Runs.outputs Conversation.call conversation' calls := by
  obtain ⟨conversation, hreachable⟩ := exists_created
  obtain ⟨exported, conversation', hexport, himport, -, hcalls⟩ :=
    Conversation.restored_conversation_behaves_alike kdfNonzero scalarmultFailsByPoint
      secretboxOneKey (hreachable World.ClockSane)
  exact ⟨conversation, conversation', exported, hreachable _, hexport, himport, hcalls⟩

end Molch
