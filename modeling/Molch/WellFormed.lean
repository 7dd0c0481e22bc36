import Molch.ConversationSteps
import Molch.Handshake
import Molch.RatchetBackup
import Molch.Rollback
import Molch.Symbolic

namespace Molch

variable {B : Type} [Byte B] [Sodium B]

namespace Ratchet

structure WellFormed (ratchet : Ratchet B) : Prop where
  headerDecryptable : ratchet.headerDecryptable = .notTried
  receivedValid : ratchet.receivedValid = true
  staged : ratchet.stagedHeaderAndMessageKeys = .clear
  rootKey : ratchet.rootKey.empty = false
  nextSendHeaderKey : ratchet.nextSendHeaderKey.empty = false
  nextReceiveHeaderKey : ratchet.nextReceiveHeaderKey.isNone = false
  sendHeaderKey : ratchet.ratchetFlag = false →
    ∃ key, ratchet.sendHeaderKey = some (.ofKey key)
  sendChainKey : ratchet.ratchetFlag = false → ratchet.sendChainKey.isNone = false
  ourEphemeral : ratchet.ratchetFlag = false →
    IsKeyPair ratchet.ourPrivateEphemeral ratchet.ourPublicEphemeral
  sendHeaderKey_not_empty : ∀ key ∈ ratchet.sendHeaderKey, key.empty = false
  receiving : ratchet.receiveHeaderKey.isNone = ratchet.receiveChainKey.isNone
  theirEphemeral : Usable ratchet.theirPublicEphemeral
  bob : ratchet.role = .bob →
    ratchet.sendHeaderKey.isSome = true ∧ ratchet.sendChainKey.empty = false
  alice : ratchet.role = .alice →
    ratchet.receiveHeaderKey.empty = false ∧ ratchet.receiveChainKey.empty = false
  receiveHeaderKey_canonical : ratchet.receiveHeaderKey.Canonical
  receiveChainKey_canonical : ratchet.receiveChainKey.Canonical
  sendChainKey_canonical : ratchet.sendChainKey.Canonical
  purported_canonical : ∀ key ∈ ratchet.purportedKeys, key.Canonical
  skipped : ∀ key ∈ ratchet.skippedHeaderAndMessageKeys.keys, key.headerKey.empty = false

namespace WellFormed

variable {ratchet : Ratchet B}

theorem exportable (h : ratchet.WellFormed) : ratchet.Exportable where
  rootKey := h.rootKey
  nextSendHeaderKey := h.nextSendHeaderKey
  nextReceiveHeaderKey := EmptyableKey.empty_eq_false_of_isNone h.nextReceiveHeaderKey
  bob := h.bob
  alice := h.alice

theorem receiveChainKey (h : ratchet.WellFormed)
    (hheader : ratchet.receiveHeaderKey.isNone = false) :
    ratchet.receiveChainKey.isNone = false := by
  rw [← h.receiving]
  exact hheader

end WellFormed

omit [Byte B] [Sodium B] in
theorem canonical_of_not_empty {n : ℕ} [Byte B] {key : EmptyableKey B n}
    (h : key.empty = false) : key.Canonical := by
  intro hempty
  rw [h] at hempty
  cases hempty

omit [Sodium B] in
theorem canonical_ofOption {n : ℕ} (key : Option (Key B n)) :
    (EmptyableKey.ofOption key).Canonical := by
  cases key with
  | none => exact fun _ => rfl
  | some key => exact canonical_of_not_empty rfl

section Preservation

theorem WellFormed.create (hkdf : KdfNonzero B) (hpoint : ScalarmultFailsByPoint B)
    {ourPrivateIdentity ourPrivateEphemeral : PrivateKey B}
    {ourPublicIdentity theirPublicIdentity ourPublicEphemeral theirPublicEphemeral : PublicKey B}
    {ratchet : Ratchet B} (hpair : IsKeyPair ourPrivateEphemeral ourPublicEphemeral)
    (h : Ratchet.create ourPrivateIdentity ourPublicIdentity theirPublicIdentity
      ourPrivateEphemeral ourPublicEphemeral theirPublicEphemeral = .ok ratchet) :
    ratchet.WellFormed := by
  obtain ⟨role, masterKey, -, hmaster, rfl⟩ := exists_of_create h
  obtain ⟨⟨secret, hsecret⟩, input, rfl⟩ := exists_of_tripleDiffieHellman hmaster
  have hnone : ∀ i, (EmptyableKey.ofKey
      ((Sodium.cryptoGenerichash input []).deriveSubkeyWithIndex i : Key B 32)).isNone = false :=
    fun i => Key.isZero_deriveSubkeyWithIndex hkdf _ _
  have hpurported : ∀ key ∈ [(.clear : EmptyableKey B 32), .clear, .clear, .clear],
      key.Canonical := by
    intro key hkey _
    simpa using hkey
  cases role with
  | alice =>
      exact
        { headerDecryptable := rfl
          receivedValid := rfl
          staged := rfl
          rootKey := rfl
          nextSendHeaderKey := rfl
          nextReceiveHeaderKey := hnone 3
          sendHeaderKey := fun hflag => by cases hflag
          sendChainKey := fun hflag => by cases hflag
          ourEphemeral := fun hflag => by cases hflag
          sendHeaderKey_not_empty := fun key hkey => by cases hkey
          receiving := (hnone 1).trans (hnone 4).symm
          theirEphemeral := usable_of_diffieHellman hpoint hsecret
          bob := fun hrole => by cases hrole
          alice := fun _ => ⟨rfl, rfl⟩
          receiveHeaderKey_canonical := canonical_ofOption _
          receiveChainKey_canonical := canonical_ofOption _
          sendChainKey_canonical := canonical_ofOption _
          purported_canonical := hpurported
          skipped := fun _ hkey => by cases hkey }
  | bob =>
      exact
        { headerDecryptable := rfl
          receivedValid := rfl
          staged := rfl
          rootKey := rfl
          nextSendHeaderKey := rfl
          nextReceiveHeaderKey := hnone 2
          sendHeaderKey := fun _ => ⟨_, rfl⟩
          sendChainKey := fun _ => hnone 4
          ourEphemeral := fun _ => hpair
          sendHeaderKey_not_empty := fun key hkey => by
            cases hkey
            rfl
          receiving := rfl
          theirEphemeral := usable_of_diffieHellman hpoint hsecret
          bob := fun _ => ⟨rfl, rfl⟩
          alice := fun hrole => by cases hrole
          receiveHeaderKey_canonical := canonical_ofOption _
          receiveChainKey_canonical := canonical_ofOption _
          sendChainKey_canonical := canonical_ofOption _
          purported_canonical := hpurported
          skipped := fun _ hkey => by cases hkey }

variable {ratchet : Ratchet B}

theorem WellFormed.advanceSendChain (hkdf : KdfNonzero B) (h : ratchet.WellFormed) :
    ratchet.advanceSendChain.WellFormed where
  headerDecryptable := h.headerDecryptable
  receivedValid := h.receivedValid
  staged := h.staged
  rootKey := h.rootKey
  nextSendHeaderKey := h.nextSendHeaderKey
  nextReceiveHeaderKey := h.nextReceiveHeaderKey
  sendHeaderKey := h.sendHeaderKey
  sendChainKey _ := Key.isZero_deriveSubkeyWithIndex hkdf _ _
  ourEphemeral := h.ourEphemeral
  sendHeaderKey_not_empty := h.sendHeaderKey_not_empty
  receiving := h.receiving
  theirEphemeral := h.theirEphemeral
  bob hrole := ⟨(h.bob hrole).1, rfl⟩
  alice := h.alice
  receiveHeaderKey_canonical := h.receiveHeaderKey_canonical
  receiveChainKey_canonical := h.receiveChainKey_canonical
  sendChainKey_canonical := canonical_of_not_empty rfl
  purported_canonical := h.purported_canonical
  skipped := h.skipped

theorem WellFormed.withSendChain (hkdf : KdfNonzero B) (h : ratchet.WellFormed)
    {privateEphemeral : PrivateKey B} {derived : DerivedRootNextHeadAndChainKey B}
    {ourPrivate : PrivateKey B} {ourPublic theirPublic : PublicKey B}
    {rootKey : EmptyableRootKey B} {role : Role}
    (hderived : deriveRootNextHeaderAndChainKeys ourPrivate ourPublic theirPublic rootKey role =
      .ok derived) : (ratchet.withSendChain privateEphemeral derived).WellFormed where
  headerDecryptable := h.headerDecryptable
  receivedValid := h.receivedValid
  staged := h.staged
  rootKey := rfl
  nextSendHeaderKey := rfl
  nextReceiveHeaderKey := h.nextReceiveHeaderKey
  sendHeaderKey _ := ⟨_, congrArg some (EmptyableKey.eq_ofKey h.nextSendHeaderKey)⟩
  sendChainKey _ := derived_chainKey_isNone hkdf hderived
  ourEphemeral _ := rfl
  sendHeaderKey_not_empty key hkey := by
    cases hkey
    exact h.nextSendHeaderKey
  receiving := h.receiving
  theirEphemeral := h.theirEphemeral
  bob _ := ⟨rfl, rfl⟩
  alice := h.alice
  receiveHeaderKey_canonical := h.receiveHeaderKey_canonical
  receiveChainKey_canonical := h.receiveChainKey_canonical
  sendChainKey_canonical := canonical_of_not_empty rfl
  purported_canonical := h.purported_canonical
  skipped := h.skipped

theorem WellFormed.getSendData (hkdf : KdfNonzero B) (h : ratchet.WellFormed) (w : World B) :
    ∃ data ratchet' w', ratchet.getSendData w = (.ok data, ratchet', w') ∧
      data.headerKey.empty = false ∧ ratchet'.WellFormed := by
  cases hflag : ratchet.ratchetFlag with
  | false =>
      obtain ⟨headerKey, hheader⟩ := h.sendHeaderKey hflag
      have hchain := EmptyableKey.empty_eq_false_of_isNone (h.sendChainKey hflag)
      exact ⟨_, _, _, getSendData_of_chain hflag hchain hheader w, rfl,
        h.advanceSendChain hkdf⟩
  | true =>
      obtain ⟨derived, hderived⟩ := exists_derived h.rootKey (h.theirEphemeral (w.random 0 32))
        ratchet.role
      exact ⟨_, _, _, getSendData_of_flag hflag hderived, h.nextSendHeaderKey,
        (h.withSendChain hkdf hderived).advanceSendChain hkdf⟩

theorem WellFormed.purports (h : ratchet.WellFormed) {purported : Purported B}
    (hpurports : ratchet.Purports purported) (skipped : HeaderAndMessageKeyStore B) :
    ∀ key ∈ (ratchet.settle purported skipped).purportedKeys, key.Canonical := by
  have hold := h.purported_canonical
  have hnext := EmptyableKey.empty_eq_false_of_isNone h.nextReceiveHeaderKey
  simp only [purportedKeys, List.forall_mem_cons, List.not_mem_nil, false_implies,
    implies_true, and_true] at hold
  obtain ⟨hroot, hheader, hnextHeader, hchain⟩ := hold
  simp only [purportedKeys, List.forall_mem_cons, List.not_mem_nil, false_implies,
    implies_true, and_true]
  cases hpurports with
  | untouched => exact ⟨hroot, hheader, hnextHeader, hchain⟩
  | tooManySkipped => exact ⟨hroot, hheader, hnextHeader, hchain⟩
  | currentChain => exact ⟨hroot, hheader, hnextHeader, canonical_of_not_empty rfl⟩
  | tooManySkippedBefore => exact ⟨hroot, hheader, hnextHeader, hchain⟩
  | noSharedSecret => exact ⟨hroot, canonical_of_not_empty hnext, hnextHeader, hchain⟩
  | nextChain =>
      exact ⟨canonical_of_not_empty rfl, canonical_of_not_empty hnext,
        canonical_of_not_empty rfl, canonical_of_not_empty rfl⟩

theorem WellFormed.settle (h : ratchet.WellFormed) {purported : Purported B}
    {skipped : HeaderAndMessageKeyStore B}
    (hpurported : ∀ key ∈ (ratchet.settle purported skipped).purportedKeys, key.Canonical)
    (hskipped : ∀ key ∈ skipped.keys, key.headerKey.empty = false) :
    (ratchet.settle purported skipped).WellFormed where
  headerDecryptable := rfl
  receivedValid := rfl
  staged := rfl
  rootKey := h.rootKey
  nextSendHeaderKey := h.nextSendHeaderKey
  nextReceiveHeaderKey := h.nextReceiveHeaderKey
  sendHeaderKey := h.sendHeaderKey
  sendChainKey := h.sendChainKey
  ourEphemeral := h.ourEphemeral
  sendHeaderKey_not_empty := h.sendHeaderKey_not_empty
  receiving := h.receiving
  theirEphemeral := h.theirEphemeral
  bob := h.bob
  alice := h.alice
  receiveHeaderKey_canonical := h.receiveHeaderKey_canonical
  receiveChainKey_canonical := h.receiveChainKey_canonical
  sendChainKey_canonical := h.sendChainKey_canonical
  purported_canonical := hpurported
  skipped := hskipped

theorem advance_succ_isNone (hkdf : KdfNonzero B) (chainKey : ChainKey B) (count : ℕ) :
    (EmptyableKey.ofKey (chainKey.advance (count + 1))).isNone = false := by
  rw [Key.advance_succ']
  exact Key.isZero_deriveSubkeyWithIndex hkdf _ _

theorem WellFormed.acceptCurrent (hkdf : KdfNonzero B) (h : ratchet.WellFormed)
    (hheader : ratchet.receiveHeaderKey.isNone = false) (messageNumber : UInt32) (count : ℕ)
    {skipped : HeaderAndMessageKeyStore B}
    (hskipped : ∀ key ∈ skipped.keys, key.headerKey.empty = false) :
    (ratchet.acceptCurrent messageNumber (ratchet.receiveChainKey.key.advance (count + 1))
      skipped).WellFormed :=
  { h.settle (h.purports (.currentChain messageNumber count hheader) skipped) hskipped with
    receiving := hheader.trans (advance_succ_isNone hkdf _ _).symm
    alice := fun hrole => ⟨(h.alice hrole).1, rfl⟩
    receiveChainKey_canonical := canonical_of_not_empty rfl }

theorem WellFormed.acceptNext (hkdf : KdfNonzero B) (hpoint : ScalarmultFailsByPoint B)
    (h : ratchet.WellFormed) (hflag : ratchet.ratchetFlag = false)
    {theirEphemeral : PublicKey B} {derived : DerivedRootNextHeadAndChainKey B}
    (hderived : deriveRootNextHeaderAndChainKeys ratchet.ourPrivateEphemeral
      ratchet.ourPublicEphemeral theirEphemeral ratchet.rootKey ratchet.role = .ok derived)
    (messageNumber previousNumber : UInt32) (count : ℕ) {skipped : HeaderAndMessageKeyStore B}
    (hskipped : ∀ key ∈ skipped.keys, key.headerKey.empty = false) :
    (ratchet.acceptNext theirEphemeral messageNumber previousNumber derived
      (derived.chainKey.advance (count + 1)) skipped).WellFormed :=
  have hnext := EmptyableKey.empty_eq_false_of_isNone h.nextReceiveHeaderKey
  { h.settle (h.purports (.nextChain theirEphemeral messageNumber previousNumber derived
      (count + 1) hflag hderived) skipped) hskipped with
    rootKey := rfl
    nextReceiveHeaderKey := derived_nextHeaderKey_isNone hkdf hderived
    sendHeaderKey := fun hflag => by cases hflag
    sendChainKey := fun hflag => by cases hflag
    ourEphemeral := fun hflag => by cases hflag
    receiving := h.nextReceiveHeaderKey.trans (advance_succ_isNone hkdf _ _).symm
    theirEphemeral := by
      obtain ⟨-, secret, hsecret, -⟩ := exists_of_derived hderived
      exact usable_of_diffieHellman hpoint hsecret
    alice := fun _ => ⟨hnext, rfl⟩
    receiveHeaderKey_canonical := canonical_of_not_empty hnext
    receiveChainKey_canonical := canonical_of_not_empty rfl }

omit [Sodium B] in
theorem isNone_restored {n : ℕ} {key : EmptyableKey B n} (h : key.Canonical) :
    key.restored.isNone = key.isNone := by
  cases hempty : key.empty with
  | true =>
      rw [h hempty]
      exact Key.isZero_zero
  | false => rw [EmptyableKey.restored_eq hempty]

theorem WellFormed.restored (h : ratchet.WellFormed) : ratchet.restored.WellFormed where
  headerDecryptable := h.headerDecryptable
  receivedValid := h.receivedValid
  staged := by
    change ratchet.stagedHeaderAndMessageKeys.restored = _
    rw [h.staged]
    rfl
  rootKey := h.rootKey
  nextSendHeaderKey := h.nextSendHeaderKey
  nextReceiveHeaderKey := h.nextReceiveHeaderKey
  sendHeaderKey hflag := by
    obtain ⟨key, hkey⟩ := h.sendHeaderKey hflag
    exact ⟨key, congrArg (Option.map EmptyableKey.restored) hkey⟩
  sendChainKey hflag := (isNone_restored h.sendChainKey_canonical).trans (h.sendChainKey hflag)
  ourEphemeral := h.ourEphemeral
  sendHeaderKey_not_empty key hkey := by
    obtain ⟨old, -, rfl⟩ := Option.map_eq_some_iff.mp hkey
    rfl
  receiving := by
    change ratchet.receiveHeaderKey.restored.isNone = ratchet.receiveChainKey.restored.isNone
    rw [isNone_restored h.receiveHeaderKey_canonical,
      isNone_restored h.receiveChainKey_canonical]
    exact h.receiving
  theirEphemeral := h.theirEphemeral
  bob hrole := ⟨by simpa [Ratchet.restored] using (h.bob hrole).1, rfl⟩
  alice _ := ⟨rfl, rfl⟩
  receiveHeaderKey_canonical := canonical_of_not_empty rfl
  receiveChainKey_canonical := canonical_of_not_empty rfl
  sendChainKey_canonical := canonical_of_not_empty rfl
  purported_canonical := h.purported_canonical
  skipped key hkey := by
    obtain ⟨old, -, rfl⟩ := List.mem_map.mp hkey
    rfl

end Preservation

theorem getSendData_skipped {ratchet ratchet' : Ratchet B} {w w' : World B}
    {result : Except Error (SendData B)} (h : ratchet.getSendData w = (result, ratchet', w')) :
    ratchet'.skippedHeaderAndMessageKeys = ratchet.skippedHeaderAndMessageKeys := by
  have hnext : ∀ ratchet : Ratchet B, ratchet.nextSendData.2.skippedHeaderAndMessageKeys =
      ratchet.skippedHeaderAndMessageKeys := by
    intro ratchet
    unfold nextSendData
    split
    · rfl
    · split
      · rfl
      · simp only
        split <;> rfl
  have hstart : ∀ ratchet : Ratchet B, (ratchet.startSendChain
      w).2.1.skippedHeaderAndMessageKeys = ratchet.skippedHeaderAndMessageKeys := by
    intro ratchet
    unfold startSendChain
    simp only
    split <;> rfl
  unfold getSendData at h
  split at h
  · have hstarted := hstart ratchet
    split at h
    · rename_i heq
      cases h
      rw [heq] at hstarted
      exact hstarted
    · rename_i started _ heq
      cases h
      rw [heq] at hstarted
      exact (hnext started).trans hstarted
  · cases h
    exact hnext ratchet

end Ratchet

namespace Conversation

open Ratchet

variable [ProtobufC B] {conversation : Conversation B}

theorem mem_of_skippedLeft {packet : List B} {skipped : HeaderAndMessageKeyStore B}
    (h : conversation.SkippedLeft packet skipped) {key : HeaderAndMessageKey B}
    (hkey : key ∈ skipped.keys) :
    key ∈ conversation.ratchet.skippedHeaderAndMessageKeys.keys := by
  cases h with
  | all => exact hkey
  | removed => exact HeaderAndMessageKeyStore.mem_of_mem_remove hkey

theorem wellFormed_send (hkdf : KdfNonzero B) (h : conversation.ratchet.WellFormed)
    (message : List B) (prekeyMetadata : Option (PrekeyMetadata B)) (w : World B) :
    ∃ packet conversation' w', conversation.send message prekeyMetadata w =
      (.ok packet, conversation', w') ∧ conversation'.ratchet.WellFormed := by
  obtain ⟨data, ratchet, w', hdata, hkey, hwell⟩ := h.getSendData hkdf w
  obtain ⟨packet, w'', hsend, -⟩ := send_of_getSendData hdata hkey message prekeyMetadata
  exact ⟨packet, _, w'', hsend, hwell⟩

variable [Platform]

theorem WellFormed.receive_cases (hkdf : KdfNonzero B) (h : conversation.ratchet.WellFormed)
    (packet : List B) (w : World B) :
    Received conversation packet w (conversation.receive packet w).1
      (conversation.receive packet w).2.1 :=
  Conversation.receive_cases hkdf h.receivedValid h.headerDecryptable h.receiveChainKey packet w

omit [ProtobufC B] [Platform] in
theorem headerKey_of_mem_stagedRest (h : conversation.ratchet.WellFormed)
    {previousNumber : UInt32} {w : World B} {key : HeaderAndMessageKey B}
    (hkey : key ∈ (conversation.ratchet.stagedRest previousNumber w).1.keys) :
    key.headerKey.empty = false := by
  unfold stagedRest at hkey
  split at hkey
  · rw [h.staged] at hkey
    cases hkey
  · rename_i hnone
    rw [h.staged] at hkey
    rcases mem_stagedKeys hkey with hkey | ⟨hheader, -⟩
    · cases hkey
    · rw [hheader]
      apply EmptyableKey.empty_eq_false_of_isNone
      rw [h.receiving]
      simpa using hnone

theorem wellFormed_received (hkdf : KdfNonzero B) (hpoint : ScalarmultFailsByPoint B)
    (h : conversation.ratchet.WellFormed) {packet : List B} {w : World B}
    {result : Except Error (ReceivedMessage B)} {conversation' : Conversation B}
    (hreceived : Received conversation packet w result conversation') :
    conversation'.ratchet.WellFormed := by
  cases hreceived with
  | skipped =>
      exact { h with
        skipped := fun key hkey =>
          h.skipped key (HeaderAndMessageKeyStore.mem_of_mem_remove hkey) }
  | rejected hleft hpurported =>
      exact h.settle (h.purports hpurported _)
        fun key hkey => h.skipped key (mem_of_skippedLeft hleft hkey)
  | currentChain hleft hopen hheader hnone hskip hcount hstaged hmessage =>
      apply h.acceptCurrent hkdf hnone
      intro key hkey
      rcases mem_committedKeys hkey with hkey | hkey
      · exact h.skipped key (mem_of_skippedLeft hleft hkey)
      · rw [hstaged, h.staged] at hkey
        rcases mem_stagedKeys hkey with hkey | ⟨hkeyHeader, -⟩
        · cases hkey
        · rw [hkeyHeader]
          exact EmptyableKey.empty_eq_false_of_isNone hnone
  | nextChain hleft hcurrent hopen hheader hflag hrest hderived hskip hstagedRest hstaged hmessage =>
      apply h.acceptNext hkdf hpoint hflag hderived
      intro key hkey
      rcases mem_committedKeys hkey with hkey | hkey
      · exact h.skipped key (mem_of_skippedLeft hleft hkey)
      · rw [hstaged] at hkey
        rcases mem_stagedKeys hkey with hkey | ⟨hkeyHeader, -⟩
        · rw [hstagedRest] at hkey
          exact headerKey_of_mem_stagedRest h hkey
        · rw [hkeyHeader]
          exact EmptyableKey.empty_eq_false_of_isNone h.nextReceiveHeaderKey

/-- The conversations that a sequence of calls can lead to, with the clock and the random
source of every call restricted to `readings`. Nothing is assumed about the packets. -/
inductive Reachable (readings : World B → Prop) : Conversation B → Prop
  | create {ourPrivateIdentity ourPrivateEphemeral : PrivateKey B}
      {ourPublicIdentity theirPublicIdentity ourPublicEphemeral theirPublicEphemeral :
        PublicKey B} {w w' : World B} {conversation : Conversation B}
      (hpair : IsKeyPair ourPrivateEphemeral ourPublicEphemeral)
      (h : Conversation.create ourPrivateIdentity ourPublicIdentity theirPublicIdentity
        ourPrivateEphemeral ourPublicEphemeral theirPublicEphemeral w =
          (.ok conversation, w')) :
      Reachable readings conversation
  | send {conversation : Conversation B} (h : Reachable readings conversation)
      (message : List B) (prekeyMetadata : Option (PrekeyMetadata B)) {w : World B}
      (hw : readings w) :
      Reachable readings (conversation.send message prekeyMetadata w).2.1
  | receive {conversation : Conversation B} (h : Reachable readings conversation)
      (packet : List B) {w : World B} (hw : readings w) :
      Reachable readings (conversation.receive packet w).2.1
  | restore {conversation conversation' : Conversation B} (h : Reachable readings conversation)
      {exported : ProtobufCConversation B}
      (hexport : conversation.exportProtobuf = .ok exported)
      (himport : import_ exported = .ok conversation') :
      Reachable readings conversation'

theorem Reachable.mono {readings readings' : World B → Prop} (h : Reachable readings conversation)
    (himp : ∀ w, readings w → readings' w) : Reachable readings' conversation := by
  induction h with
  | create hpair h => exact .create hpair h
  | send h message prekeyMetadata hw ih => exact ih.send message prekeyMetadata (himp _ hw)
  | receive h packet hw ih => exact ih.receive packet (himp _ hw)
  | restore h hexport himport ih => exact ih.restore hexport himport

omit [ProtobufC B] [Platform] in
theorem ratchet_of_create {ourPrivateIdentity ourPrivateEphemeral : PrivateKey B}
    {ourPublicIdentity theirPublicIdentity ourPublicEphemeral theirPublicEphemeral : PublicKey B}
    {w w' : World B}
    (h : Conversation.create ourPrivateIdentity ourPublicIdentity theirPublicIdentity
      ourPrivateEphemeral ourPublicEphemeral theirPublicEphemeral w = (.ok conversation, w')) :
    Ratchet.create ourPrivateIdentity ourPublicIdentity theirPublicIdentity ourPrivateEphemeral
      ourPublicEphemeral theirPublicEphemeral = .ok conversation.ratchet := by
  unfold Conversation.create at h
  simp only at h
  split at h
  · cases h
  · rename_i ratchet hcreate
    cases h
    exact hcreate

omit [ProtobufC B] [Platform] in
theorem create_of_ratchet {ourPrivateIdentity ourPrivateEphemeral : PrivateKey B}
    {ourPublicIdentity theirPublicIdentity ourPublicEphemeral theirPublicEphemeral : PublicKey B}
    {ratchet : Ratchet B}
    (h : Ratchet.create ourPrivateIdentity ourPublicIdentity theirPublicIdentity
      ourPrivateEphemeral ourPublicEphemeral theirPublicEphemeral = .ok ratchet) (w : World B) :
    Conversation.create ourPrivateIdentity ourPublicIdentity theirPublicIdentity
      ourPrivateEphemeral ourPublicEphemeral theirPublicEphemeral w =
        (.ok ⟨w.random 0 32, ratchet⟩, (w.randombytesBuf 32).2) := by
  unfold Conversation.create
  rw [h]
  rfl

theorem Reachable.wellFormed (hkdf : KdfNonzero B) (hpoint : ScalarmultFailsByPoint B)
    {readings : World B → Prop} (h : Reachable readings conversation) :
    conversation.ratchet.WellFormed := by
  induction h with
  | create hpair h => exact .create hkdf hpoint hpair (ratchet_of_create h)
  | send h message prekeyMetadata hw ih =>
      rename_i w
      obtain ⟨packet, conversation', w', hsend, hwell⟩ :=
        wellFormed_send hkdf ih message prekeyMetadata w
      rw [hsend]
      exact hwell
  | receive h packet hw ih =>
      exact wellFormed_received hkdf hpoint ih (WellFormed.receive_cases hkdf ih packet _)
  | restore h hexport himport ih =>
      rw [import_exportProtobuf hexport ih.purported_canonical] at himport
      cases himport
      exact ih.restored

def Created (conversation : Conversation B) : Prop :=
  ∃ (ourPrivateIdentity ourPrivateEphemeral : PrivateKey B)
    (ourPublicIdentity theirPublicIdentity ourPublicEphemeral theirPublicEphemeral : PublicKey B)
    (w w' : World B), IsKeyPair ourPrivateEphemeral ourPublicEphemeral ∧
      Conversation.create ourPrivateIdentity ourPublicIdentity theirPublicIdentity
        ourPrivateEphemeral ourPublicEphemeral theirPublicEphemeral w = (.ok conversation, w')

theorem Reachable.call (h : Reachable (fun _ => True) conversation)
    (c : Call B) : Reachable (fun _ => True) (conversation.call c).2 := by
  cases c with
  | send message prekeyMetadata w => exact h.send message prekeyMetadata trivial
  | receive packet w => exact h.receive packet trivial

theorem Created.reachable (h : conversation.Created) : Reachable (fun _ => True) conversation := by
  obtain ⟨_, _, _, _, _, _, w, w', hpair, hcreate⟩ := h
  exact .create hpair hcreate

section Dates

omit [Byte B] [Sodium B] [ProtobufC B] [Platform] in
theorem dateSane_of_clock {w : World B} (hw : w.ClockSane) {date : ℤ} {j : ℕ}
    (hdate : date = w.clock j + maximumAge) : 0 ≤ date ∧ date < 2 ^ 63 := by
  obtain ⟨hlow, hhigh⟩ := hw j
  simp only [maximumAge, month] at hdate hhigh ⊢
  omega

omit [ProtobufC B] [Platform] in
theorem datesSane_stagedKeys {headerKey : EmptyableHeaderKey B} {count : ℕ}
    {chainKey : ChainKey B} {stagingArea : HeaderAndMessageKeyStore B} {w : World B}
    (hw : w.ClockSane) (h : stagingArea.DatesSane) :
    (stagedKeys headerKey count chainKey stagingArea w).1.DatesSane := by
  intro key hkey
  rcases mem_stagedKeys hkey with hkey | ⟨-, -, j, hdate⟩
  · exact h key hkey
  · exact dateSane_of_clock hw hdate

omit [ProtobufC B] [Platform] in
theorem clockSane_stagedKeys {headerKey : EmptyableHeaderKey B} {count : ℕ}
    {chainKey : ChainKey B} {stagingArea : HeaderAndMessageKeyStore B} {w : World B}
    (hw : w.ClockSane) : (stagedKeys headerKey count chainKey stagingArea w).2.ClockSane := by
  induction count generalizing chainKey stagingArea w with
  | zero => exact hw
  | succ count ih =>
      apply ih
      rw [HeaderAndMessageKeyStore.add, HeaderAndMessageKey.create]
      simp only [HeaderAndMessageKeyStore.addKey_world]
      exact hw.now.now

omit [Byte B] [Sodium B] [ProtobufC B] [Platform] in
theorem datesSane_committedKeys {skipped staged : HeaderAndMessageKeyStore B} {w : World B}
    (hskipped : skipped.DatesSane) (hstaged : staged.DatesSane) :
    (committedKeys skipped staged w).DatesSane := by
  intro key hkey
  rcases mem_committedKeys hkey with hkey | hkey
  · exact hskipped key hkey
  · exact hstaged key hkey

theorem datesSane_received (h : conversation.ratchet.WellFormed)
    (hdates : conversation.ratchet.skippedHeaderAndMessageKeys.DatesSane) {packet : List B}
    {w : World B} (hw : w.ClockSane) {result : Except Error (ReceivedMessage B)}
    {conversation' : Conversation B}
    (hreceived : Received conversation packet w result conversation') :
    conversation'.ratchet.skippedHeaderAndMessageKeys.DatesSane := by
  have hleftSane : ∀ skipped, conversation.SkippedLeft packet skipped → skipped.DatesSane :=
    fun _ hleft key hkey => hdates key (mem_of_skippedLeft hleft hkey)
  have hempty : conversation.ratchet.stagedHeaderAndMessageKeys.DatesSane := by
    rw [h.staged]
    intro key hkey
    cases hkey
  cases hreceived with
  | skipped =>
      exact fun key hkey => hdates key (HeaderAndMessageKeyStore.mem_of_mem_remove hkey)
  | rejected hleft => exact hleftSane _ hleft
  | currentChain hleft hopen hheader hnone hskip hcount hstaged hmessage =>
      apply datesSane_committedKeys (hleftSane _ hleft)
      rw [hstaged]
      exact datesSane_stagedKeys hw hempty
  | nextChain hleft hcurrent hopen hheader hflag hrest hderived hskip hstagedRest hstaged hmessage =>
      rename_i extracted _ _ _
      have hrestSane : (conversation.ratchet.stagedRest extracted.previousMessageNumber
          w).1.DatesSane ∧ (conversation.ratchet.stagedRest extracted.previousMessageNumber
          w).2.ClockSane := by
        unfold stagedRest
        split
        · exact ⟨hempty, hw⟩
        · exact ⟨datesSane_stagedKeys hw hempty, clockSane_stagedKeys hw⟩
      apply datesSane_committedKeys (hleftSane _ hleft)
      rw [hstaged, hstagedRest]
      exact datesSane_stagedKeys hrestSane.2 hrestSane.1

omit [Platform] in
theorem send_skipped (hkdf : KdfNonzero B) {conversation : Conversation B}
    (h : conversation.ratchet.WellFormed) (message : List B)
    (prekeyMetadata : Option (PrekeyMetadata B)) (w : World B) :
    (conversation.send message prekeyMetadata w).2.1.ratchet.skippedHeaderAndMessageKeys =
      conversation.ratchet.skippedHeaderAndMessageKeys := by
  obtain ⟨data, ratchet, w', hdata, hkey, -⟩ := h.getSendData hkdf w
  obtain ⟨packet, w'', hsend, -⟩ := send_of_getSendData hdata hkey message prekeyMetadata
  rw [hsend]
  exact getSendData_skipped hdata

theorem Reachable.datesSane (hkdf : KdfNonzero B) (hpoint : ScalarmultFailsByPoint B)
    (h : Reachable World.ClockSane conversation) :
    conversation.ratchet.skippedHeaderAndMessageKeys.DatesSane := by
  induction h with
  | create hpair h =>
      obtain ⟨role, masterKey, -, -, hratchet⟩ := exists_of_create (ratchet_of_create h)
      rw [hratchet]
      intro key hkey
      cases hkey
  | send h message prekeyMetadata hw ih =>
      rw [send_skipped hkdf (h.wellFormed hkdf hpoint)]
      exact ih
  | receive h packet hw ih =>
      have hwell := h.wellFormed hkdf hpoint
      exact datesSane_received hwell ih hw (WellFormed.receive_cases hkdf hwell packet _)
  | restore h hexport himport ih =>
      rw [import_exportProtobuf hexport (h.wellFormed hkdf hpoint).purported_canonical] at himport
      cases himport
      intro key hkey
      obtain ⟨old, hold, rfl⟩ := List.mem_map.mp hkey
      obtain ⟨hpositive, hrange⟩ := ih old hold
      simp only [HeaderAndMessageKey.restored, restoredDate_eq hpositive hrange]
      exact ⟨hpositive, hrange⟩

end Dates

omit [ProtobufC B] [Platform] in
theorem messageKey_ne_zero (hkdf : KdfNonzero B) (chainKey : ChainKey B) :
    chainKey.messageKey ≠ Key.zero := by
  intro h
  have hzero := Key.isZero_deriveSubkeyWithIndex hkdf chainKey 0
  change chainKey.messageKey.isZero = false at hzero
  rw [h, Key.isZero_zero] at hzero
  cases hzero

omit [ProtobufC B] in
/-- A key that the ratchet hands out is never the key of the default constructor. -/
theorem receive_ne_zero (hkdf : KdfNonzero B) {ratchet : Ratchet B} (h : ratchet.WellFormed)
    {skipped : HeaderAndMessageKeyStore B} {headerDecryptable : HeaderDecryptability}
    (htried : headerDecryptable ≠ .notTried) {theirEphemeral : PublicKey B}
    {messageNumber previousNumber : UInt32} {messageKey : MessageKey B} {ratchet' : Ratchet B}
    {w w' : World B}
    (hreceive : (ratchet.trying skipped headerDecryptable).receive theirEphemeral messageNumber
      previousNumber w = (.ok messageKey, ratchet', w')) : messageKey ≠ Key.zero := by
  by_cases hcurrent : headerDecryptable = .currentDecryptable ∧
      ratchet.receiveHeaderKey.isNone = false
  · obtain ⟨rfl, hheader⟩ := hcurrent
    cases hskip : tooManySkipped ratchet.receiveMessageNumber messageNumber with
    | true =>
        obtain ⟨e, herror⟩ := receive_current_tooManySkipped skipped h.receivedValid hheader
          (h.receiveChainKey hheader) hskip theirEphemeral previousNumber w
        rw [herror] at hreceive
        cases hreceive
    | false =>
        rw [receive_current skipped h.receivedValid hheader (h.receiveChainKey hheader) hskip
          theirEphemeral previousNumber w] at hreceive
        cases hreceive
        exact messageKey_ne_zero hkdf _
  · by_cases hnext : headerDecryptable = .nextDecryptable ∧ ratchet.ratchetFlag = false
    · obtain ⟨rfl, hflag⟩ := hnext
      by_cases hreach : ratchet.restInReach previousNumber ∧
          (∃ derived, deriveRootNextHeaderAndChainKeys ratchet.ourPrivateEphemeral
            ratchet.ourPublicEphemeral theirEphemeral ratchet.rootKey ratchet.role =
              .ok derived) ∧ tooManySkipped 0 messageNumber = false
      · obtain ⟨hrest, ⟨derived, hderived⟩, hskip⟩ := hreach
        rw [receive_next skipped hkdf h.receivedValid hflag hrest hderived hskip w] at hreceive
        cases hreceive
        exact messageKey_ne_zero hkdf _
      · obtain ⟨e, purported, staged, w'', -, herror⟩ :=
          receive_next_error skipped hkdf h.receivedValid hflag hreach w
        rw [herror] at hreceive
        cases hreceive
    · obtain ⟨e, herror⟩ := receive_undecryptable skipped h.receivedValid htried
        (fun heq => by simpa [heq] using hcurrent) (fun heq => by simpa [heq] using hnext)
        theirEphemeral messageNumber previousNumber w
      rw [herror] at hreceive
      cases hreceive

/-- Between two calls the state is well formed, so that `getSendData` and `exportProtobuf` do
not fail and the error branches for inconsistent states are dead code. The second to last
clause follows `internalReceive` from the attempt with the skipped keys to the verdict about
the message. -/
theorem reachable_state_is_consistent (hkdf : KdfNonzero B) (hpoint : ScalarmultFailsByPoint B)
    {readings : World B → Prop} (h : Reachable readings conversation) :
    let ratchet := conversation.ratchet
    ratchet.headerDecryptable = .notTried ∧ ratchet.receivedValid = true ∧
    ratchet.stagedHeaderAndMessageKeys = .clear ∧
    ratchet.rootKey.empty = false ∧ ratchet.nextSendHeaderKey.empty = false ∧
    ratchet.nextReceiveHeaderKey.empty = false ∧
    (ratchet.ratchetFlag = false → ratchet.sendHeaderKey.isSome ∧
      ratchet.sendChainKey.isNone = false ∧
      IsKeyPair ratchet.ourPrivateEphemeral ratchet.ourPublicEphemeral) ∧
    (ratchet.receiveHeaderKey.isNone = false → ratchet.receiveChainKey.isNone = false) ∧
    (∀ w, ∃ data, (ratchet.getSendData w).1 = .ok data) ∧
    (∀ e, conversation.exportProtobuf ≠ .error (.error e)) ∧
    (∀ packet headerDecryptable, headerDecryptable ≠ .notTried →
      ∃ tried, (conversation.trySkippedHeaderAndMessageKeys
          packet).2.ratchet.setHeaderDecryptability headerDecryptable = (.ok (), tried) ∧
        tried.receivedValid = true ∧
        ∀ theirEphemeral messageNumber previousNumber w messageKey received w',
          tried.receive theirEphemeral messageNumber previousNumber w =
            (.ok messageKey, received, w') →
          messageKey ≠ Key.zero ∧ (received.setLastMessageAuthenticity true w').1 = .ok ()) ∧
    ((∀ w, readings w → w.ClockSane) → ∃ exported, conversation.exportProtobuf = .ok exported) := by
  have hwell := h.wellFormed hkdf hpoint
  refine ⟨hwell.headerDecryptable, hwell.receivedValid, hwell.staged, hwell.rootKey,
    hwell.nextSendHeaderKey, hwell.exportable.nextReceiveHeaderKey, ?_, hwell.receiveChainKey,
    ?_, ?_, ?_, ?_⟩
  · intro hflag
    obtain ⟨key, hkey⟩ := hwell.sendHeaderKey hflag
    exact ⟨by rw [hkey]; rfl, hwell.sendChainKey hflag, hwell.ourEphemeral hflag⟩
  · intro w
    obtain ⟨data, ratchet, w', hdata, -⟩ := hwell.getSendData hkdf w
    exact ⟨data, by rw [hdata]⟩
  · intro e hexport
    unfold exportProtobuf at hexport
    rw [hwell.exportable.exportProtobuf_eq] at hexport
    cases hskipped : conversation.ratchet.skippedHeaderAndMessageKeys.exportProtobuf with
    | error failure =>
        rw [hskipped] at hexport
        cases hexport
        exact HeaderAndMessageKeyStore.exportProtobuf_ne_error _ _ hskipped
    | ok skipped =>
        rw [hskipped, hwell.staged] at hexport
        cases hexport
  · intro packet headerDecryptable htried
    have hleaving : ∃ skipped, (conversation.trySkippedHeaderAndMessageKeys packet).2 =
        conversation.leaving skipped := by
      rcases trySkippedHeaderAndMessageKeys_cases conversation packet with
        ⟨index, decrypted, header, -, -, htry⟩ | ⟨e, skipped, -, htry⟩
      · exact ⟨_, by rw [htry]⟩
      · exact ⟨skipped, by rw [htry]⟩
    obtain ⟨skipped, hskipped⟩ := hleaving
    rw [hskipped, setHeaderDecryptability_leaving hwell.headerDecryptable skipped htried]
    refine ⟨_, rfl, hwell.receivedValid, ?_⟩
    intro theirEphemeral messageNumber previousNumber w messageKey received w' hreceive
    exact ⟨receive_ne_zero hkdf hwell htried hreceive,
      setLastMessageAuthenticity_of_receive hreceive⟩
  · intro hclock
    have hsane : Reachable World.ClockSane conversation := h.mono hclock
    obtain ⟨skipped, hskipped⟩ := (hsane.datesSane hkdf hpoint).exportProtobuf
    unfold exportProtobuf
    rw [hwell.exportable.exportProtobuf_eq, hskipped, hwell.staged]
    exact ⟨_, rfl⟩

end Conversation

namespace Symbolic

open Ratchet

theorem exists_just_created : ∃ conversation : Conversation ℕ, conversation.Created := by
  obtain ⟨ratchet, hratchet⟩ := exists_create (chooseRole_carry Nat.one_lt_two)
    (usable (by decide)) (usable (base_isZero Key.zero)) Key.zero Key.zero
    (Sodium.cryptoScalarmultBase Key.zero)
  exact ⟨_, _, _, _, _, _, _, _, _, rfl, Conversation.create_of_ratchet hratchet world⟩

theorem exists_created : ∃ conversation : Conversation ℕ,
    ∀ readings, conversation.Reachable readings := by
  obtain ⟨conversation, _, _, _, _, _, _, _, _, hpair, hcreate⟩ := exists_just_created
  exact ⟨conversation, fun _ => .create hpair hcreate⟩

end Symbolic

end Molch
