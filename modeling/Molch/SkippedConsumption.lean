import Molch.BackupBehaviour
import Molch.FirstContact
import Molch.KeyAge
import Molch.Readings

namespace Molch

open HeaderAndMessageKeyStore

section Receiving

variable {B : Type} [Byte B] [Sodium B] [ProtobufC B] [Platform]

namespace HeaderAndMessageKeyStore

omit [Sodium B] [ProtobufC B] [Platform] in
/-- The stored keys together with new ones, as far as the age and the number allow. -/
def GrownTo (store store' : HeaderAndMessageKeyStore B) (w : World B) : Prop :=
  ∃ added i, store'.keys = latest (w.clock i)
    (Retained.merge HeaderAndMessageKey.expirationDate store.keys added)

end HeaderAndMessageKeyStore

omit [ProtobufC B] [Platform] in
theorem Ratchet.WellFormed.sortedAndBounded_staged {ratchet : Ratchet B} (h : ratchet.WellFormed) :
    ratchet.stagedHeaderAndMessageKeys.SortedAndBounded := by
  rw [h.staged]
  exact .clear

namespace Conversation

/-- What a call of `receive` does to the skipped keys. -/
structure KeepsSkipped (conversation : Conversation B) (packet : List B) (w : World B) :
    Prop where
  rejected : ∀ e, (conversation.receive packet w).1 = .error e →
    (conversation.receive packet w).2.1.ratchet.skippedHeaderAndMessageKeys =
      conversation.ratchet.skippedHeaderAndMessageKeys
  skipped : ∀ message, (conversation.trySkippedHeaderAndMessageKeys packet).1 = .ok message →
    (conversation.receive packet w).1 = .ok message ∧ ∃ index node decrypted,
      conversation.ratchet.skippedHeaderAndMessageKeys.keys[index]? = some node ∧
      packetDecrypt packet node.headerKey node.messageKey = .ok decrypted ∧
      (conversation.receive packet w).2.1 = conversation.leaving
        (conversation.ratchet.skippedHeaderAndMessageKeys.remove index)
  chain : ∀ message e, (conversation.receive packet w).1 = .ok message →
    (conversation.trySkippedHeaderAndMessageKeys packet).1 = .error e →
      conversation.ratchet.skippedHeaderAndMessageKeys.GrownTo
        (conversation.receive packet w).2.1.ratchet.skippedHeaderAndMessageKeys w

/-- The first stored key that decrypts the packet finds a proper header in it. -/
def HeaderExtracts (conversation : Conversation B) (packet : List B) : Prop :=
  ∀ index decrypted, firstDecryption packet
      conversation.ratchet.skippedHeaderAndMessageKeys.keys = some (index, decrypted) →
    ∃ header, headerExtract decrypted.header = .ok header

section Order

omit [ProtobufC B] [Platform] in
theorem sortedAndBounded_stagedKeys (headerKey : EmptyableHeaderKey B) (count : ℕ)
    (chainKey : ChainKey B) {stagingArea : HeaderAndMessageKeyStore B} (w : World B)
    (h : stagingArea.SortedAndBounded) :
    (stagedKeys headerKey count chainKey stagingArea w).1.SortedAndBounded := by
  induction count generalizing chainKey stagingArea w with
  | zero => exact h
  | succ count ih => exact ih _ _ (h.add headerKey chainKey.messageKey w)

variable {conversation : Conversation B} {packet : List B}

omit [ProtobufC B] [Platform] in
theorem sortedAndBounded_stagedRest (h : conversation.ratchet.WellFormed) (previousNumber : UInt32)
    (w : World B) :
    (conversation.ratchet.stagedRest previousNumber w).1.SortedAndBounded := by
  have hclear := h.sortedAndBounded_staged
  rw [Ratchet.stagedRest]
  split
  · exact hclear
  · exact sortedAndBounded_stagedKeys _ _ _ _ hclear

omit [Platform] in
theorem SkippedLeft.sortedAndBounded
    (h : conversation.ratchet.skippedHeaderAndMessageKeys.SortedAndBounded)
    {skipped : HeaderAndMessageKeyStore B} (hleft : conversation.SkippedLeft packet skipped) :
    skipped.SortedAndBounded := by
  cases hleft with
  | all => exact h
  | removed => exact h.remove _

theorem sortedAndBounded_received (hwell : conversation.ratchet.WellFormed)
    (h : conversation.ratchet.skippedHeaderAndMessageKeys.SortedAndBounded) {w : World B}
    {result : Except Error (ReceivedMessage B)} {conversation' : Conversation B}
    (hreceived : Received conversation packet w result conversation') :
    conversation'.ratchet.skippedHeaderAndMessageKeys.SortedAndBounded := by
  have hcommitted : ∀ {skipped staged : HeaderAndMessageKeyStore B} (w : World B),
      skipped.SortedAndBounded → staged.SortedAndBounded →
      (committedKeys skipped staged w).SortedAndBounded := by
    intro skipped staged w hskipped hstaged
    exact (hskipped.addStore hstaged w).removeOutdatedAndTrimSize _
  cases hreceived with
  | skipped => exact h.remove _
  | rejected hleft => exact hleft.sortedAndBounded h
  | currentChain hleft hopen hheader hnone hskip hcount hstaged hmessage =>
      apply hcommitted _ (hleft.sortedAndBounded h)
      rw [hstaged]
      exact sortedAndBounded_stagedKeys _ _ _ _ hwell.sortedAndBounded_staged
  | nextChain hleft hcurrent hopen hheader hflag hrest hderived hskip hstagedRest hstaged
      hmessage =>
      apply hcommitted _ (hleft.sortedAndBounded h)
      rw [hstaged, hstagedRest]
      exact sortedAndBounded_stagedKeys _ _ _ _ (sortedAndBounded_stagedRest hwell _ _)

theorem Reachable.sortedAndBounded (hkdf : KdfNonzero B) (hpoint : ScalarmultFailsByPoint B)
    (h : Reachable World.ClockSane conversation) :
    conversation.ratchet.skippedHeaderAndMessageKeys.SortedAndBounded := by
  induction h with
  | create hpair h =>
      obtain ⟨role, masterKey, -, -, hratchet⟩ := Ratchet.exists_of_create (ratchet_of_create h)
      rw [hratchet]
      exact .clear
  | send h message prekeyMetadata hw ih =>
      rw [send_skipped hkdf (h.wellFormed hkdf hpoint)]
      exact ih
  | receive h packet hw ih =>
      have hwell := h.wellFormed hkdf hpoint
      exact sortedAndBounded_received hwell ih (WellFormed.receive_cases hkdf hwell packet _)
  | restore h hexport himport ih =>
      have hwell := h.wellFormed hkdf hpoint
      rw [import_exportProtobuf hexport hwell.purported_canonical] at himport
      cases himport
      have hrestored := hwell.restored_skipped (h.datesSane hkdf hpoint)
      rw [← hrestored] at ih
      exact ih

end Order

section Worlds

omit [ProtobufC B] [Platform] in
theorem after_stagedKeys (headerKey : EmptyableHeaderKey B) (count : ℕ) (chainKey : ChainKey B)
    (stagingArea : HeaderAndMessageKeyStore B) (w : World B) :
    w.After (stagedKeys headerKey count chainKey stagingArea w).2 := by
  induction count generalizing chainKey stagingArea w with
  | zero => exact .refl w
  | succ count ih => exact (after_addKey stagingArea headerKey _ w).trans (ih _ _ _)

omit [ProtobufC B] [Platform] in
theorem after_stagedRest (ratchet : Ratchet B) (previousNumber : UInt32) (w : World B) :
    w.After (ratchet.stagedRest previousNumber w).2 := by
  rw [Ratchet.stagedRest]
  split
  · exact .refl w
  · exact after_stagedKeys _ _ _ _ w

omit [Byte B] [Sodium B] [ProtobufC B] [Platform] in
theorem grownTo_committedKeys [Byte B] {skipped staged : HeaderAndMessageKeyStore B}
    (hskipped : skipped.SortedAndBounded) (hstaged : staged.SortedAndBounded) {w w' : World B}
    (hafter : w.After w') : skipped.GrownTo (committedKeys skipped staged w') w := by
  obtain ⟨readings, hclock⟩ := hafter
  rw [Ratchet.committedKeys_eq hskipped hstaged]
  rcases max_choice (w'.clock 0) (w'.clock 1) with hmax | hmax
  · refine ⟨staged.keys, 0 + readings, ?_⟩
    rw [hmax, hclock]
  · refine ⟨staged.keys, 1 + readings, ?_⟩
    rw [hmax, hclock]

end Worlds

section Consumption

omit [Platform] in
theorem packetDecryptHeader_of_packetDecrypt {packet : List B} {headerKey : EmptyableHeaderKey B}
    {messageKey : MessageKey B} {decrypted : DecryptedPacket B}
    (h : packetDecrypt packet headerKey messageKey = .ok decrypted) :
    packetDecryptHeader packet headerKey = .ok decrypted.header := by
  simp only [packetDecrypt, Result.bind_eq_ok] at h
  obtain ⟨_, -, header, hheader, message, -, hdecrypted⟩ := h
  cases hdecrypted
  exact hheader

variable {conversation : Conversation B} {packet : List B} {w : World B}

omit [Platform] in
theorem SkippedLeft.eq_of_headerExtracts (h : conversation.HeaderExtracts packet)
    {skipped : HeaderAndMessageKeyStore B} (hleft : conversation.SkippedLeft packet skipped) :
    skipped = conversation.ratchet.skippedHeaderAndMessageKeys := by
  cases hleft with
  | all => rfl
  | removed hfound hheader =>
      obtain ⟨header, hok⟩ := h _ _ hfound
      cases hheader.symm.trans hok

theorem keepsSkipped_of_headerExtracts (hkdf : KdfNonzero B)
    (hwell : conversation.ratchet.WellFormed)
    (hsorted : conversation.ratchet.skippedHeaderAndMessageKeys.SortedAndBounded)
    (h : conversation.HeaderExtracts packet) : conversation.KeepsSkipped packet w := by
  have hclear := hwell.sortedAndBounded_staged
  have hreceived := WellFormed.receive_cases hkdf hwell packet w
  have hskipped : ∀ index decrypted header, firstDecryption packet
      conversation.ratchet.skippedHeaderAndMessageKeys.keys = some (index, decrypted) →
      headerExtract decrypted.header = .ok header → conversation.receive packet w =
        (.ok ⟨header.messageNumber, header.previousMessageNumber, decrypted.message⟩,
          conversation.leaving
            (conversation.ratchet.skippedHeaderAndMessageKeys.remove index), w) := by
    intro index decrypted header hfound hheader
    rw [receive, internalReceive, trySkippedHeaderAndMessageKeys, hfound]
    simp only [hheader]
    rfl
  generalize hresult : (conversation.receive packet w).1 = result at hreceived
  generalize hafter : (conversation.receive packet w).2.1 = conversation' at hreceived
  refine ⟨?_, ?_, ?_⟩
  · intro e he
    rw [hresult] at he
    subst he
    rw [hafter]
    cases hreceived with
    | rejected hleft => exact hleft.eq_of_headerExtracts h
  · intro message hmessage
    rcases trySkippedHeaderAndMessageKeys_cases conversation packet with
      ⟨index, decrypted, header, hfound, hheader, htry⟩ | ⟨e, skipped, -, htry⟩
    · obtain ⟨node, hnode, hdecrypt⟩ := firstDecryption_eq_some hfound
      rw [htry] at hmessage
      cases hmessage
      have heq := hskipped index decrypted header hfound hheader
      rw [heq]
      exact ⟨rfl, index, node, decrypted, hnode, hdecrypt, rfl⟩
    · rw [htry] at hmessage
      cases hmessage
  · intro message e hmessage herror
    rw [hresult] at hmessage
    subst hmessage
    rw [hafter]
    cases hreceived with
    | skipped hfound hheader =>
        rw [trySkippedHeaderAndMessageKeys, hfound] at herror
        simp only [hheader] at herror
        cases herror
    | currentChain hleft hopen hheader hnone hskip hcount hstaged =>
        have hsame := hleft.eq_of_headerExtracts h
        subst hsame hstaged
        exact grownTo_committedKeys hsorted (sortedAndBounded_stagedKeys _ _ _ _ hclear)
          (after_stagedKeys _ _ _ _ w)
    | nextChain hleft hcurrent hopen hheader hflag hrest hderived hskip hstagedRest hstaged =>
        have hsame := hleft.eq_of_headerExtracts h
        subst hsame hstaged hstagedRest
        exact grownTo_committedKeys hsorted (sortedAndBounded_stagedKeys _ _ _ _
          (sortedAndBounded_stagedRest hwell _ _))
          ((after_stagedRest _ _ w).trans (after_stagedKeys _ _ _ _ _))

/-- A key that finds no header is taken although it delivers nothing. -/
theorem headerExtracts_of_keepsSkipped (hone : SecretboxOneKey B) (hkdf : KdfNonzero B)
    (hwell : conversation.ratchet.WellFormed) (h : conversation.KeepsSkipped packet w) :
    conversation.HeaderExtracts packet := by
  intro index decrypted hfound
  cases hheader : headerExtract decrypted.header with
  | ok header => exact ⟨header, rfl⟩
  | error e =>
      exfalso
      obtain ⟨node, hnode, hdecrypt⟩ := firstDecryption_eq_some hfound
      have hstored := packetDecryptHeader_of_packetDecrypt hdecrypt
      have hchain : ∀ {key : EmptyableHeaderKey B} {header : List B} {extracted},
          packetDecryptHeader packet key = .ok header →
          headerExtract header ≠ .ok extracted := by
        intro key header extracted hopen hok
        rw [← headerKey_unique hone hstored hopen, hstored] at hopen
        cases hopen
        cases hheader.symm.trans hok
      have hreceived := WellFormed.receive_cases hkdf hwell packet w
      generalize hresult : (conversation.receive packet w).1 = result at hreceived
      generalize hafter : (conversation.receive packet w).2.1 = conversation' at hreceived
      cases hreceived with
      | skipped hfound' hheader' =>
          cases hfound.symm.trans hfound'
          cases hheader.symm.trans hheader'
      | rejected hleft =>
          have hsame := h.rejected _ hresult
          rw [hafter] at hsame
          cases hleft with
          | all hnone => cases hfound.symm.trans hnone
          | removed hfound' =>
              cases hfound.symm.trans hfound'
              have hlength := congrArg (fun store => store.keys.length) hsame
              have hindex := (List.getElem?_eq_some_iff.mp hnode).1
              simp only [Ratchet.settle, HeaderAndMessageKeyStore.remove,
                List.length_eraseIdx_of_lt hindex] at hlength
              omega
      | currentChain hleft hopen hheader' => exact hchain hopen hheader'
      | nextChain hleft hcurrent hopen hheader' => exact hchain hopen hheader'

end Consumption

/-- In every reachable state a key is consumed only by a delivered message exactly if the key
search does not end with a packet without a proper header. -/
theorem skipped_key_consumed_iff (hkdf : KdfNonzero B) (hpoint : ScalarmultFailsByPoint B)
    {conversation : Conversation B} (h : Reachable World.ClockSane conversation)
    (packet : List B) (w : World B) :
    (conversation.HeaderExtracts packet → conversation.KeepsSkipped packet w) ∧
      (SecretboxOneKey B → conversation.KeepsSkipped packet w →
        conversation.HeaderExtracts packet) := by
  have hwell := h.wellFormed hkdf hpoint
  constructor
  · intro hextracts
    exact keepsSkipped_of_headerExtracts hkdf hwell (h.sortedAndBounded hkdf hpoint) hextracts
  · intro hone hkeeps
    exact headerExtracts_of_keepsSkipped hone hkdf hwell hkeeps

end Conversation

section Sealing

omit [Platform] in
theorem exists_seals (hproto : ProtobufRoundTrip B) (headerKey : HeaderKey B) (header : List B)
    (messageKey : MessageKey B) (message : List B) (nonce : Nonce B) :
    ∃ packet, Seals packet headerKey header messageKey message :=
  ⟨_, _, packetUnpack_encryptedPacketStruct hproto .normalMessage header headerKey
    (paddedMessage message) messageKey none nonce nonce (by simp), rfl, rfl⟩

omit [Platform] in
theorem Seals.firstDecryption_singleton (hbox : SecretboxRoundTrip B) {packet header : List B}
    {headerKey : HeaderKey B} {messageKey : MessageKey B} {message : List B}
    (h : Seals packet headerKey header messageKey message) (date : ℤ) :
    ∃ metadata, firstDecryption packet [⟨.ofKey headerKey, messageKey, date⟩] =
      some (0, ⟨header, message, metadata⟩) := by
  obtain ⟨unpacked, hunpack, -⟩ := id h
  simp only [firstDecryption, packetDecrypt, packetGetMetadataWithoutVerification, hunpack,
    Result.ok_bind, Result.pure_eq_ok, h.packetDecryptHeader hbox, h.packetDecryptMessage hbox]
  exact ⟨_, rfl⟩

end Sealing

end Receiving

namespace Symbolic

open Conversation

theorem messageKey_ne_zero (chainKey : ChainKey ℕ) : chainKey.messageKey ≠ Key.zero := by
  intro hzero
  have hnonzero : chainKey.messageKey.isZero = false :=
    Key.isZero_deriveSubkeyWithIndex kdfNonzero chainKey 0
  rw [Key.isZero_iff.mpr hzero] at hnonzero
  cases hnonzero

/-- A party that has received nothing yet gets the message 1 and keeps the key of the message
0. -/
theorem exists_skipping_packet {conversation : Conversation ℕ}
    (hreachable : Reachable World.ClockSane conversation)
    (hheader : conversation.ratchet.receiveHeaderKey.isNone = false)
    (hskipped : conversation.ratchet.skippedHeaderAndMessageKeys = .clear)
    (hnumber : conversation.ratchet.receiveMessageNumber = 0) :
    ∃ packet message next w', conversation.receive packet calmWorld = (.ok message, next, w') ∧
      next.id = conversation.id ∧
      next.ratchet.receiveHeaderKey = conversation.ratchet.receiveHeaderKey ∧
      next.ratchet.receiveMessageNumber = 2 ∧
      next.ratchet.skippedHeaderAndMessageKeys = ⟨[⟨conversation.ratchet.receiveHeaderKey,
        conversation.ratchet.receiveChainKey.key.messageKey, month⟩]⟩ := by
  obtain ⟨id, ratchet⟩ := conversation
  have hwell := hreachable.wellFormed kdfNonzero scalarmultFailsByPoint
  have hchain := hwell.receiveChainKey hheader
  have hstaged := hwell.staged
  simp only at hheader hskipped hnumber hchain hstaged
  have hkey := EmptyableKey.eq_ofKey (EmptyableKey.empty_eq_false_of_isNone hheader)
  obtain ⟨packet, hseals⟩ := exists_seals protobufRoundTrip ratchet.receiveHeaderKey.key
    (headerConstruct Key.zero 1 0) (ratchet.receiveChainKey.key.advance 1).messageKey [] Key.zero
  have hcount : 1 = ratchet.skippedCount 1 := by
    rw [Ratchet.skippedCount, hnumber]
    rfl
  have hskip : tooManySkipped ratchet.receiveMessageNumber 1 = false := by
    rw [hnumber]
    decide
  have hopen := hseals.packetDecryptHeader secretboxRoundTrip
  rw [← hkey] at hopen
  have hleft : (⟨id, ratchet⟩ : Conversation ℕ).SkippedLeft packet
      ratchet.skippedHeaderAndMessageKeys := .of_clear hskipped packet
  obtain ⟨w', hreceive⟩ := Received.receive_eq kdfNonzero hwell.receivedValid
    hwell.headerDecryptable (fun _ => hchain) (w := calmWorld) (.currentChain hleft hopen
      (headerExtract_headerConstruct protobufRoundTrip _ _ _) hheader
      hskip hcount rfl (hseals.packetDecryptMessage secretboxRoundTrip))
  refine ⟨packet, _, _, w', hreceive, rfl, rfl, rfl, ?_⟩
  have hone : stagedKeys ratchet.receiveHeaderKey 1 ratchet.receiveChainKey.key .clear calmWorld =
      (⟨[⟨ratchet.receiveHeaderKey, ratchet.receiveChainKey.key.messageKey, month⟩]⟩,
        calmWorld.now.2.now.2) := rfl
  simp only [Ratchet.acceptCurrent, Ratchet.settle, hskipped, hstaged, hone]
  exact committedKeys_one (show max _ _ - maximumAge < month by decide) (.inl ⟨rfl, rfl⟩)

theorem exists_skipping : ∃ (conversation : Conversation ℕ) (headerKey : HeaderKey ℕ)
    (messageKey : MessageKey ℕ) (date : ℤ), Reachable World.ClockSane conversation ∧
      conversation.ratchet.receiveHeaderKey = .ofKey headerKey ∧
      conversation.ratchet.skippedHeaderAndMessageKeys =
        ⟨[⟨.ofKey headerKey, messageKey, date⟩]⟩ ∧
      conversation.ratchet.receiveMessageNumber = 2 ∧ messageKey ≠ Key.zero ∧
      conversation.ratchet.receiveHeaderKey.isNone = false := by
  have hclock : calmWorld.ClockSane := shows_calmWorld
  obtain ⟨ratchet, ⟨ours, theirs, hcreate⟩, -, -, hheader, -, hskipped, -, hnumber⟩ :=
    exists_receiving
  have hstart : Reachable World.ClockSane ⟨calmWorld.random 0 32, ratchet⟩ :=
    .create rfl (create_of_ratchet hcreate calmWorld)
  obtain ⟨packet, _, conversation, w', hreceive, -, hsame, hnext, hkept⟩ :=
    exists_skipping_packet hstart hheader hskipped hnumber
  have hreached := hstart.receive packet hclock
  rw [hreceive] at hreached
  have hkey := EmptyableKey.eq_ofKey (EmptyableKey.empty_eq_false_of_isNone hheader)
  refine ⟨conversation, ratchet.receiveHeaderKey.key, ratchet.receiveChainKey.key.messageKey, month,
    hreached, hsame.trans hkey, ?_, hnext, messageKey_ne_zero _, ?_⟩
  · rw [hkept, ← hkey]
  · rw [hsame]
    exact hheader

/-- Alice gets a packet with the number 5 whose message is corrupted. When that is noticed, the
keys of the messages 2, 3 and 4 are staged already. -/
theorem receive_error_keeps_ratchet_corrupted_message :
    ∃ (conversation conversation' : Conversation ℕ) (packet : List ℕ) (e : Error) (w' : World ℕ),
      Reachable World.ClockSane conversation ∧
      (conversation.internalReceive packet
        calmWorld).2.1.ratchet.stagedHeaderAndMessageKeys.keys.length = 3 ∧
      conversation.receive packet calmWorld = (.error e, conversation', w') ∧
      conversation'.ratchet.core = conversation.ratchet.core ∧
      conversation'.ratchet.stagedHeaderAndMessageKeys = .clear ∧
      conversation'.ratchet.headerDecryptable = .notTried ∧
      conversation'.ratchet.receivedValid = true := by
  obtain ⟨conversation, headerKey, messageKey, date, hreachable, hkey, hskipped, hnumber, hne,
    hheader⟩ := exists_skipping
  have hwell := hreachable.wellFormed kdfNonzero scalarmultFailsByPoint
  obtain ⟨packet, hseals⟩ := exists_seals protobufRoundTrip headerKey
    (headerConstruct Key.zero 5 0) Key.zero [] Key.zero
  have hopen := hseals.packetDecryptHeader secretboxRoundTrip
  rw [← hkey] at hopen
  have hleft : conversation.SkippedLeft packet
      conversation.ratchet.skippedHeaderAndMessageKeys := by
    refine .all (firstDecryption_eq_none.mpr fun node hnode => ?_)
    rw [hskipped] at hnode
    obtain rfl := List.mem_singleton.mp hnode
    obtain ⟨e, he⟩ := hseals.packetDecryptMessage_ne secretboxKeyBound hne
    cases hdecrypt : packetDecrypt packet (.ofKey headerKey) messageKey with
    | error e' => exact ⟨e', rfl⟩
    | ok decrypted => cases he.symm.trans (packetDecryptMessage_of_packetDecrypt hdecrypt)
  have hskip : tooManySkipped conversation.ratchet.receiveMessageNumber 5 = false := by
    rw [hnumber]
    decide
  have hcount : conversation.ratchet.skippedCount 5 = 3 := by
    rw [Ratchet.skippedCount, hnumber]
    rfl
  obtain ⟨e', htry⟩ := hleft.trySkippedHeaderAndMessageKeys
  have hreceive := Ratchet.receive_current conversation.ratchet.skippedHeaderAndMessageKeys
    hwell.receivedValid hheader (hwell.receiveChainKey hheader) hskip Key.zero 0 calmWorld
  have hwith := receiveWithHeader_of_ok packet hwell.headerDecryptable (by decide)
    (headerExtract_headerConstruct protobufRoundTrip Key.zero 5 0) hreceive
    (Ratchet.setLastMessageAuthenticity_current _ hheader _ _ _ _)
  obtain ⟨e, hcorrupted⟩ := hseals.packetDecryptMessage_ne secretboxKeyBound
    (messageKey_ne_zero (conversation.ratchet.receiveChainKey.key.advance 3))
  rw [hcount, hcorrupted] at hwith
  have htrying : conversation.internalReceive packet calmWorld =
      (conversation.leaving conversation.ratchet.skippedHeaderAndMessageKeys).receiveWithHeader
        packet (headerConstruct Key.zero 5 0) .currentDecryptable calmWorld := by
    rw [internalReceive, htry]
    simp only [receiveWithHeaderKeys]
    rw [show (conversation.leaving conversation.ratchet.skippedHeaderAndMessageKeys).ratchet =
      conversation.ratchet from rfl, hopen]
  have hinternal := htrying.trans hwith
  have hrejected := receive_of_internalReceive_error hinternal
  refine ⟨conversation, _, packet, e, _, hreachable, ?_, hrejected,
    receive_error_keeps_ratchet hrejected⟩
  rw [hinternal, hwell.staged]
  rfl

/-- The key of the message 0 is used by the message 0. -/
theorem skipped_key_consumed_by_message :
    ∃ (conversation : Conversation ℕ) (packet : List ℕ),
      (∃ message, (conversation.trySkippedHeaderAndMessageKeys packet).1 = .ok message) ∧
      conversation.KeepsSkipped packet calmWorld := by
  obtain ⟨conversation, headerKey, messageKey, date, hreachable, -, hskipped, -⟩ :=
    exists_skipping
  obtain ⟨header, extracted, hheader⟩ : ∃ header : List ℕ, ∃ extracted,
      headerExtract header = .ok extracted :=
    ⟨_, _, headerExtract_headerConstruct protobufRoundTrip Key.zero 0 0⟩
  obtain ⟨packet, hseals⟩ := exists_seals protobufRoundTrip headerKey header messageKey []
    Key.zero
  obtain ⟨metadata, hfound⟩ := hseals.firstDecryption_singleton secretboxRoundTrip date
  have hextracts : conversation.HeaderExtracts packet := by
    intro index decrypted hdecrypted
    rw [hskipped, hfound] at hdecrypted
    cases hdecrypted
    exact ⟨_, hheader⟩
  refine ⟨conversation, packet, ?_, (skipped_key_consumed_iff kdfNonzero scalarmultFailsByPoint
    hreachable packet calmWorld).1 hextracts⟩
  rw [trySkippedHeaderAndMessageKeys, hskipped, hfound]
  simp only [hheader]
  exact ⟨_, rfl⟩

/-- Whoever has the key of the message 0 can make a packet that is rejected and takes the key
with it. -/
theorem rejected_packet_takes_skipped_key :
    ∃ (conversation : Conversation ℕ) (packet : List ℕ) (e : Error),
      Reachable World.ClockSane conversation ∧
      (conversation.receive packet calmWorld).1 = .error e ∧
      conversation.ratchet.skippedHeaderAndMessageKeys.keys.length = 1 ∧
      (conversation.receive packet calmWorld).2.1.ratchet.skippedHeaderAndMessageKeys.keys = [] := by
  obtain ⟨conversation, headerKey, messageKey, date, hreachable, hkey, hskipped, -⟩ :=
    exists_skipping
  obtain ⟨packet, hseals⟩ := exists_seals protobufRoundTrip headerKey [] messageKey [] Key.zero
  obtain ⟨metadata, hfound⟩ := hseals.firstDecryption_singleton secretboxRoundTrip date
  have hopened := hseals.packetDecryptHeader secretboxRoundTrip
  have hheader : headerExtract ([] : List ℕ) =
      .error ⟨.protobufUnpackError, "Failed to unpack header."⟩ := rfl
  have hreceived := WellFormed.receive_cases kdfNonzero
    (hreachable.wellFormed kdfNonzero scalarmultFailsByPoint) packet calmWorld
  generalize hresult : (conversation.receive packet calmWorld).1 = result at hreceived
  generalize hafter : (conversation.receive packet calmWorld).2.1 = conversation' at hreceived
  cases hreceived with
  | skipped hfound' hheader' =>
      rw [hskipped, hfound] at hfound'
      cases hfound'
      cases hheader.symm.trans hheader'
  | rejected hleft =>
      refine ⟨conversation, packet, _, hreachable, hresult, by rw [hskipped]; rfl, ?_⟩
      rw [hafter]
      cases hleft with
      | all hnone =>
          rw [hskipped, hfound] at hnone
          cases hnone
      | removed hfound' =>
          rw [hskipped, hfound] at hfound'
          cases hfound'
          simp only [Ratchet.settle, hskipped]
          rfl
  | currentChain hleft hopen hheader' =>
      rw [hkey, hopened] at hopen
      cases hopen
      cases hheader.symm.trans hheader'
  | nextChain hleft hcurrent =>
      obtain ⟨e, he⟩ := hcurrent
      rw [hkey, hopened] at he
      cases he

end Symbolic

end Molch
