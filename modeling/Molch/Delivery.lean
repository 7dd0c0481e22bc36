import Molch.SessionInvariant

namespace Molch

open Sodium

variable {B : Type} [Byte B] [Sodium B] [ProtobufC B]

/-- The packet carries the message of a place, with the numbers that belong to it. -/
structure Sent.Carries (sent : Sent B) (schedule : Schedule B) (x : Exchange) (place : Place) :
    Prop where
  seals : Seals sent.packet (schedule.headerKey place.chain)
    (headerConstruct (cryptoScalarmultBase (schedule place.chain).ephemeral) sent.messageNumber
      sent.previousMessageNumber) (schedule.messageKey place) sent.message
  messageNumber : sent.messageNumber.toNat = place.number
  previousMessageNumber : sent.previousMessageNumber.toNat = x.previous place.chain

namespace Sent.Carries

variable {sent : Sent B} {schedule : Schedule B} {x : Exchange} {place : Place}

theorem packetDecrypt (h : sent.Carries schedule x place) (hbox : SecretboxRoundTrip B) :
    ∃ metadata, packetDecrypt sent.packet (.ofKey (schedule.headerKey place.chain))
        (schedule.messageKey place) =
      .ok ⟨headerConstruct (cryptoScalarmultBase (schedule place.chain).ephemeral)
        sent.messageNumber sent.previousMessageNumber, sent.message, metadata⟩ := by
  obtain ⟨unpacked, hunpack, -⟩ := id h.seals
  simp only [Molch.packetDecrypt, packetGetMetadataWithoutVerification, hunpack, Result.ok_bind,
    Result.pure_eq_ok, h.seals.packetDecryptHeader hbox,
    h.seals.packetDecryptMessage hbox]
  exact ⟨_, rfl⟩

theorem packetDecrypt_ne (h : sent.Carries schedule x place) (hkey : SecretboxKeyBound B)
    {headerKey : EmptyableHeaderKey B} {messageKey : MessageKey B}
    (hne : (headerKey, messageKey) ≠ schedule.keys place) :
    ∃ e, Molch.packetDecrypt sent.packet headerKey messageKey = .error e := by
  obtain ⟨unpacked, hunpack, -⟩ := id h.seals
  simp only [Molch.packetDecrypt, packetGetMetadataWithoutVerification, hunpack, Result.ok_bind,
    Result.pure_eq_ok]
  by_cases hheader : headerKey = .ofKey (schedule.headerKey place.chain)
  · have hmessage : messageKey ≠ schedule.messageKey place := by
      intro hmessage
      exact hne (Prod.ext hheader hmessage)
    obtain ⟨e, he⟩ := h.seals.packetDecryptMessage_ne hkey hmessage
    cases packetDecryptHeader sent.packet headerKey with
    | error e' => exact ⟨e', rfl⟩
    | ok header =>
        rw [he]
        exact ⟨e, rfl⟩
  · obtain ⟨e, he⟩ := h.seals.packetDecryptHeader_ne hkey hheader
    rw [he]
    exact ⟨e, rfl⟩

theorem headerKey_of_open (h : sent.Carries schedule x place) (hideal : Idealised B)
    {headerKey : EmptyableHeaderKey B} {header : List B}
    (hopen : packetDecryptHeader sent.packet headerKey = .ok header) :
    headerKey = .ofKey (schedule.headerKey place.chain) ∧
      headerExtract header = .ok ⟨cryptoScalarmultBase (schedule place.chain).ephemeral,
        sent.messageNumber, sent.previousMessageNumber⟩ := by
  have hkey : headerKey = .ofKey (schedule.headerKey place.chain) := by
    by_contra hne
    obtain ⟨e, he⟩ := h.seals.packetDecryptHeader_ne hideal.keyBound hne
    rw [hopen] at he
    cases he
  rw [hkey, h.seals.packetDecryptHeader hideal.secretbox] at hopen
  cases hopen
  exact ⟨hkey, headerExtract_headerConstruct hideal.protobuf _ _ _⟩

end Sent.Carries

namespace Ratchet.Represents

variable {sent : Sent B} {schedule : Schedule B} {x : Exchange} {place : Place} {role : Role}
  {ratchet : Ratchet B}

omit [ProtobufC B] in
/-- Every skipped key belongs to a message that the party waits for. -/
theorem exists_of_skipped (h : ratchet.Represents schedule x role) {key : HeaderAndMessageKey B}
    (hkey : key ∈ ratchet.skippedHeaderAndMessageKeys.keys) :
    ∃ place ∈ x.outstanding role, (key.headerKey, key.messageKey) = schedule.keys place := by
  have hmem := h.skipped.subset (List.mem_map_of_mem hkey)
  obtain ⟨place, hplace, heq⟩ := List.mem_map.mp hmem
  exact ⟨place, hplace, heq.symm⟩

theorem firstDecryption_eq_none (h : ratchet.Represents schedule x role)
    (hideal : Idealised B) (hvalid : x.Valid) (hlinked : schedule.Linked x.newest)
    (hcarries : sent.Carries schedule x place) (hplace : place.chain ≤ x.newest)
    (hnot : place ∉ x.outstanding role) :
    firstDecryption sent.packet ratchet.skippedHeaderAndMessageKeys.keys = none := by
  rw [Molch.firstDecryption_eq_none]
  intro node hnode
  obtain ⟨other, hother, heq⟩ := h.exists_of_skipped hnode
  apply hcarries.packetDecrypt_ne hideal.keyBound
  rw [heq]
  intro hkeys
  have hsame := hlinked.keys_inj hideal.generichash hideal.kdf
    (hvalid.outstanding_le_newest hother) hplace hkeys
  rw [hsame] at hother
  exact hnot hother

theorem firstDecryption_eq_some (h : ratchet.Represents schedule x role)
    (hideal : Idealised B) (hcarries : sent.Carries schedule x place) (hmem : place ∈ x.outstanding role) :
    ∃ index decrypted,
      firstDecryption sent.packet ratchet.skippedHeaderAndMessageKeys.keys =
        some (index, decrypted) ∧
      headerExtract decrypted.header =
        .ok ⟨cryptoScalarmultBase (schedule place.chain).ephemeral, sent.messageNumber,
          sent.previousMessageNumber⟩ ∧
      decrypted.message = sent.message ∧
      (ratchet.skippedHeaderAndMessageKeys.remove index).pairs.Perm
        (((x.outstanding role).erase place).map schedule.keys) := by
  obtain ⟨metadata, hopen⟩ := hcarries.packetDecrypt hideal.secretbox
  have hsome : firstDecryption sent.packet ratchet.skippedHeaderAndMessageKeys.keys ≠ none := by
    rw [ne_eq, Molch.firstDecryption_eq_none]
    intro hnone
    have hpair := h.skipped.symm.subset (List.mem_map_of_mem hmem)
    obtain ⟨key, hkey, heq⟩ := List.mem_map.mp hpair
    obtain ⟨e, he⟩ := hnone key hkey
    obtain ⟨hheader, hmessage⟩ := Prod.mk.inj heq
    rw [hheader, hmessage, hopen] at he
    cases he
  obtain ⟨⟨index, decrypted⟩, hfound⟩ := Option.ne_none_iff_exists'.mp hsome
  obtain ⟨node, hindex, hdecrypt⟩ := Molch.firstDecryption_eq_some hfound
  have hkeys : (node.headerKey, node.messageKey) = schedule.keys place := by
    by_contra hne
    obtain ⟨e, he⟩ := hcarries.packetDecrypt_ne hideal.keyBound hne
    rw [hdecrypt] at he
    cases he
  obtain ⟨hheader, hmessage⟩ := Prod.mk.inj hkeys
  rw [hheader, hmessage, hopen] at hdecrypt
  cases hdecrypt
  refine ⟨index, _, hfound, headerExtract_headerConstruct hideal.protobuf _ _ _, rfl, ?_⟩
  obtain ⟨hlt, hget⟩ := List.getElem?_eq_some_iff.mp hindex
  have hlt' : index < ratchet.skippedHeaderAndMessageKeys.pairs.length := by
    rwa [length_pairs]
  have hget' : ratchet.skippedHeaderAndMessageKeys.pairs[index] = schedule.keys place := by
    rw [← hkeys]
    simp [HeaderAndMessageKeyStore.pairs, hget]
  have hremove : (ratchet.skippedHeaderAndMessageKeys.remove index).pairs =
      ratchet.skippedHeaderAndMessageKeys.pairs.eraseIdx index := by
    simp [HeaderAndMessageKeyStore.pairs, HeaderAndMessageKeyStore.remove, List.eraseIdx_map]
  have hleft := List.getElem_cons_eraseIdx_perm hlt'
  rw [hget', ← hremove] at hleft
  have hright := (List.perm_cons_erase hmem).map schedule.keys
  exact ((hleft.trans h.skipped).trans hright).cons_inv

end Ratchet.Represents

namespace Conversation

open Ratchet

variable {sent : Sent B} {schedule : Schedule B} {x : Exchange} {place : Place} {role : Role}
  {conversation : Conversation B}

theorem header_chain_of_current (h : conversation.ratchet.Represents schedule x role)
    (hideal : Idealised B) (hvalid : x.Valid) (hlinked : schedule.Linked x.newest)
    (hplace : place.chain ≤ x.newest)
    (hkey : conversation.ratchet.receiveHeaderKey = .ofKey (schedule.headerKey place.chain)) :
    x.turn role = place.chain + 1 := by
  cases hturn : x.turn role with
  | zero =>
      rw [(h.silent hturn).1] at hkey
      cases congrArg EmptyableKey.empty hkey
  | succ chain =>
      rw [(h.receiving chain hturn).receiveHeaderKey] at hkey
      have hle := hvalid.turn_le role
      rw [hlinked.headerKey_inj hideal.generichash hideal.kdf (by omega) (by omega)
        (EmptyableKey.ofKey_injective hkey)]

variable [Platform]

theorem receive_outstanding (h : conversation.ratchet.Represents schedule x role)
    (hideal : Idealised B) (hcarries : sent.Carries schedule x place)
    (hmem : place ∈ x.outstanding role) (k : ℕ) (w : World B) :
    ∃ conversation' w', conversation.receive sent.packet w =
        (.ok ⟨sent.messageNumber, sent.previousMessageNumber, sent.message⟩, conversation', w') ∧
      conversation'.ratchet.Represents schedule (x.take role k place) role := by
  obtain ⟨index, decrypted, hfound, hheader, hmessage, hperm⟩ :=
    h.firstDecryption_eq_some hideal hcarries hmem
  have hreceived := Received.skipped (w := w) hfound hheader
  obtain ⟨w', hreceive⟩ := hreceived.receive_eq hideal.kdfNonzero h.receivedValid
    h.headerDecryptable (h.receiveChainKey hideal.kdfNonzero)
  rw [hmessage] at hreceive
  refine ⟨_, w', hreceive, ?_⟩
  have htake : (x.take role k place).outstanding role = (x.outstanding role).erase place := by
    simp [Exchange.take]
  exact { h with
    receiving := fun chain hchain => { h.receiving chain hchain with }
    sending := fun hflag => { h.sending hflag with }
    listening := fun hflag chain hchain => { h.listening hflag chain hchain with }
    skipped := by
      rw [htake]
      exact hperm }

theorem receive_again (h : conversation.ratchet.Represents schedule x role)
    (hideal : Idealised B) (hvalid : x.Valid) (hlinked : schedule.Linked x.newest)
    (hcarries : sent.Carries schedule x place) (hpassed : x.Passed role place)
    (hplace : place.chain ≤ x.newest) (hnot : place ∉ x.outstanding role) (w : World B) :
    (∃ e, (conversation.receive sent.packet w).1 = .error e) ∧
      (conversation.receive sent.packet w).2.1.ratchet.Represents schedule x role := by
  have hnone := h.firstDecryption_eq_none hideal hvalid hlinked hcarries hplace hnot
  have hcases := Conversation.receive_cases hideal.kdfNonzero h.receivedValid
    h.headerDecryptable (h.receiveChainKey hideal.kdfNonzero) sent.packet w
  generalize (conversation.receive sent.packet w).1 = result at hcases ⊢
  generalize (conversation.receive sent.packet w).2.1 = conversation' at hcases ⊢
  cases hcases with
  | skipped hfound =>
      rw [hnone] at hfound
      cases hfound
  | rejected hleft hpurported =>
      cases hleft with
      | all => exact ⟨⟨_, rfl⟩, h.settle _⟩
      | removed hfound =>
          rw [hnone] at hfound
          cases hfound
  | currentChain hleft hopen hheader hheaderKey hskip hcount hstaged hmessage =>
      -- the receiving chain has moved beyond the key of the message
      exfalso
      obtain ⟨hkey, hextract⟩ := hcarries.headerKey_of_open hideal hopen
      rw [hextract] at hheader
      cases hheader
      have hturn := header_chain_of_current h hideal hvalid hlinked hplace hkey
      have hreceiving := h.receiving place.chain hturn
      have hnumber : place.number < x.received role := by
        rcases hpassed with hpassed | ⟨-, hnumber⟩
        · omega
        · exact hnumber
      have hzero : conversation.ratchet.skippedCount sent.messageNumber = 0 := by
        unfold skippedCount
        rw [hcarries.messageNumber, hreceiving.receiveMessageNumber]
        omega
      rw [hcount, hzero, hreceiving.receiveChainKey] at hmessage
      have hne : schedule.messageKey ⟨place.chain, x.received role⟩ ≠
          schedule.messageKey place := by
        intro heq
        have hsame : (⟨place.chain, x.received role⟩ : Place) = place :=
          hlinked.chained.messageKey_inj hideal.generichash hideal.kdf hplace hplace heq
        have hnumber' := congrArg Place.number hsame
        simp only at hnumber'
        omega
      obtain ⟨e, he⟩ := hcarries.seals.packetDecryptMessage_ne hideal.keyBound hne
      cases hmessage.symm.trans he
  | nextChain hleft hcurrent hopen =>
      exfalso
      obtain ⟨hkey, -⟩ := hcarries.headerKey_of_open hideal hopen
      rw [h.nextReceiveHeaderKey] at hkey
      have hle := hvalid.turn_le role
      have hchain := hlinked.headerKey_inj hideal.generichash hideal.kdf (by omega) (by omega)
        (EmptyableKey.ofKey_injective hkey)
      have hlt := Exchange.lt_of_passed hpassed
      omega

omit [ProtobufC B] [Platform] in
theorem stagedKeys_places (schedule : Schedule B) (chain first last : ℕ)
    {stagingArea : HeaderAndMessageKeyStore B} {w : World B} (hw : w.Steady)
    (hsize : stagingArea.keys.length + (last - first) ≤ maximumKeys) :
    let staged := stagedKeys (.ofKey (schedule.headerKey chain)) (last - first)
      ((schedule.chainKey chain).advance first) stagingArea w
    staged.1.pairs.Perm (stagingArea.pairs ++ (places chain first last).map schedule.keys) ∧
      w.Continues staged.2 := by
  have hplaces : (places chain first last).map schedule.keys =
      (List.range (last - first)).map fun i => (.ofKey (schedule.headerKey chain),
        (((schedule.chainKey chain).advance first).advance i).messageKey) := by
    unfold places
    rw [List.map_map]
    apply List.map_congr_left
    intro i _
    rw [Key.advance_advance]
    rfl
  rw [hplaces]
  exact stagedKeys_pairs _ _ hw hsize

omit [ProtobufC B] [Platform] in
theorem committedKeys_places {skipped staged : HeaderAndMessageKeyStore B}
    {schedule : Schedule B} {stored new : List Place} {w w' : World B} (hw : w.Steady)
    (hw' : w.Continues w')
    (hfresh : ∀ key ∈ skipped.keys, ∀ i, key.outdated (w.clock i) = false)
    (hskipped : skipped.pairs.Perm (stored.map schedule.keys))
    (hstaged : staged.pairs.Perm (new.map schedule.keys)) (hdated : staged.DatedBy w)
    (hsize : skipped.keys.length + new.length ≤ maximumKeys) :
    (committedKeys skipped staged w').pairs.Perm ((stored ++ new).map schedule.keys) := by
  have hlength := hstaged.length_eq
  rw [length_pairs, List.length_map] at hlength
  rw [List.map_append]
  exact (committedKeys_pairs hw hw' hfresh hdated (by omega)).trans (hskipped.append hstaged)

omit [Byte B] [Sodium B] [ProtobufC B] [Platform] in
theorem datedBy_clear (w : World B) :
    (HeaderAndMessageKeyStore.clear : HeaderAndMessageKeyStore B).DatedBy w := by
  intro key hkey
  cases hkey

theorem receive_currentChain (h : conversation.ratchet.Represents schedule x role)
    (hideal : Idealised B) (hvalid : x.Valid) (hlinked : schedule.Linked x.newest)
    (hcarries : sent.Carries schedule x place) (hlog : place ∈ x.log role.other)
    (hturn : x.turn role = place.chain + 1) (hnumber : x.received role ≤ place.number)
    (k : ℕ) {w : World B} (hreach : conversation.ratchet.InReach sent)
    (hkeeps : conversation.ratchet.KeepsKeys w) :
    ∃ conversation' w', conversation.receive sent.packet w =
        (.ok ⟨sent.messageNumber, sent.previousMessageNumber, sent.message⟩, conversation', w') ∧
      conversation'.ratchet.Represents schedule (x.acceptCurrent role k place.number) role := by
  have hnot : place ∉ x.outstanding role := by
    intro hmem
    rcases (hvalid.outstanding role place hmem).2 with hpassed | ⟨-, hpassed⟩
    · omega
    · omega
  have hreceiving := h.receiving place.chain hturn
  have hopen := hcarries.seals.packetDecryptHeader hideal.secretbox
  rw [← hreceiving.receiveHeaderKey] at hopen
  obtain ⟨hskip, hsize⟩ := hreach.currentChain _ hopen
  have hcount : place.number - x.received role =
      conversation.ratchet.skippedCount sent.messageNumber := by
    unfold skippedCount
    rw [hcarries.messageNumber, hreceiving.receiveMessageNumber]
  rw [← hcount] at hsize
  have hadvance : ∀ n, conversation.ratchet.receiveChainKey.key.advance n =
      (schedule.chainKey place.chain).advance (x.received role + n) := by
    intro n
    rw [hreceiving.receiveChainKey]
    exact Key.advance_advance _ _ _
  have hmessage : packetDecryptMessage sent.packet (conversation.ratchet.receiveChainKey.key.advance
      (place.number - x.received role)).messageKey = .ok sent.message := by
    rw [hadvance, Nat.add_sub_cancel' hnumber]
    exact hcarries.seals.packetDecryptMessage hideal.secretbox
  have hstaged : stagedKeys (.ofKey (schedule.headerKey place.chain))
      (place.number - x.received role) ((schedule.chainKey place.chain).advance (x.received role))
      .clear w = stagedKeys conversation.ratchet.receiveHeaderKey (place.number - x.received role)
        conversation.ratchet.receiveChainKey.key
        conversation.ratchet.stagedHeaderAndMessageKeys w := by
    rw [hreceiving.receiveHeaderKey, hreceiving.receiveChainKey, h.staged]
    rfl
  have hreceived := Received.currentChain (.all (h.firstDecryption_eq_none hideal hvalid hlinked
      hcarries (hvalid.log_le_newest hlog) hnot)) hopen
    (headerExtract_headerConstruct hideal.protobuf _ _ _)
    (by rw [hreceiving.receiveHeaderKey]; exact schedule.isNone_headerKey hideal.kdfNonzero _)
    hskip hcount hstaged hmessage
  obtain ⟨w', hreceive⟩ := hreceived.receive_eq hideal.kdfNonzero h.receivedValid
    h.headerDecryptable (h.receiveChainKey hideal.kdfNonzero)
  refine ⟨_, w', hreceive, ?_⟩
  obtain ⟨hperm, hcontinues⟩ := stagedKeys_places schedule place.chain (x.received role)
    place.number hkeeps.steady (show (HeaderAndMessageKeyStore.clear :
      HeaderAndMessageKeyStore B).keys.length + (place.number - x.received role) ≤ maximumKeys by
        simp only [HeaderAndMessageKeyStore.clear, List.length_nil]
        omega)
  have hcommitted := committedKeys_places hkeeps.steady hcontinues hkeeps.stored h.skipped hperm
    (stagedKeys_datedBy (.refl w) (datedBy_clear w)) (by
      rw [length_places]
      exact hsize)
  have hlt := (hvalid.log role.other place hlog).2.2.2
  have hbound := hvalid.count_lt place.chain
  exact { h with
    receivedValid := rfl
    headerDecryptable := rfl
    staged := rfl
    silent := fun hzero => by
      change x.turn role = 0 at hzero
      omega
    receiving := by
      intro chain hchain
      have heq : chain = place.chain := by
        change x.turn role = chain + 1 at hchain
        omega
      subst heq
      rw [Exchange.received_acceptCurrent]
      exact
        { receiveHeaderKey := hreceiving.receiveHeaderKey
          receiveChainKey := by
            change EmptyableKey.ofKey _ = _
            rw [hadvance, ← Nat.add_assoc, Nat.add_sub_cancel' hnumber]
          receiveMessageNumber := by
            change (sent.messageNumber + 1).toNat = _
            rw [toNat_add_one (by rw [hcarries.messageNumber]; omega), hcarries.messageNumber] }
    sending := fun hflag => { h.sending hflag with }
    listening := fun hflag chain hchain => { h.listening hflag chain hchain with }
    skipped := by
      rw [Exchange.outstanding_acceptCurrent, hturn, Nat.add_sub_cancel]
      exact hcommitted }

omit [ProtobufC B] [Platform] in
theorem derive_next (h : conversation.ratchet.Represents schedule x role) (hvalid : x.Valid)
    (hlinked : schedule.Linked x.newest) (hflag : x.flag role = false)
    (hlt : x.turn role < x.newest) :
    deriveRootNextHeaderAndChainKeys conversation.ratchet.ourPrivateEphemeral
      conversation.ratchet.ourPublicEphemeral
      (cryptoScalarmultBase (schedule (x.turn role + 1)).ephemeral)
      conversation.ratchet.rootKey conversation.ratchet.role =
        .ok ⟨schedule.rootKey (x.turn role + 1), schedule.headerKey (x.turn role + 3),
          schedule.chainKey (x.turn role + 1)⟩ := by
  have hsending := h.sending hflag
  have hderive := hlinked.derive hlt
  rw [hvalid.sender role] at hderive
  rw [hsending.ourPrivateEphemeral, hsending.ourPublicEphemeral, hsending.rootKey, h.ratchetRole]
  exact hderive

omit [ProtobufC B] [Platform] in
theorem stagedRest_places (h : conversation.ratchet.Represents schedule x role)
    (hkdf : KdfNonzero B) {previousNumber : UInt32}
    (hprevious : previousNumber.toNat = x.previous (x.turn role + 1)) {w : World B}
    (hw : w.Steady) (hsize : conversation.ratchet.restCount previousNumber ≤ maximumKeys) :
    let rest := conversation.ratchet.stagedRest previousNumber w
    rest.1.pairs.Perm ((x.rest role).map schedule.keys) ∧ rest.1.DatedBy w ∧
      w.Continues rest.2 ∧
      (x.rest role).length = conversation.ratchet.restCount previousNumber := by
  unfold restCount at hsize ⊢
  unfold stagedRest Exchange.rest
  cases hturn : x.turn role with
  | zero =>
      rw [(h.silent hturn).2, h.staged, if_pos rfl]
      exact ⟨.refl _, datedBy_clear w, .refl w, rfl⟩
  | succ chain =>
      have hreceiving := h.receiving chain hturn
      have hnone : conversation.ratchet.receiveChainKey.isNone = false := by
        rw [hreceiving.receiveChainKey]
        exact schedule.isNone_advance_chainKey hkdf _ _
      have hcount : conversation.ratchet.skippedCount previousNumber =
          x.previous (chain + 1 + 1) - x.received role := by
        unfold skippedCount
        rw [hprevious, hturn, hreceiving.receiveMessageNumber]
      rw [hnone, hcount] at hsize
      rw [hnone, hcount, if_neg (by simp), hreceiving.receiveHeaderKey,
        hreceiving.receiveChainKey, h.staged]
      simp only [Nat.add_sub_cancel, Nat.succ_ne_zero, if_false, length_places,
        Bool.false_eq_true, EmptyableKey.ofKey_key]
      obtain ⟨hperm, hcontinues⟩ := stagedKeys_places schedule chain (x.received role)
        (x.previous (chain + 1 + 1)) hw (show (HeaderAndMessageKeyStore.clear :
          HeaderAndMessageKeyStore B).keys.length +
            (x.previous (chain + 1 + 1) - x.received role) ≤ maximumKeys by
          simpa [HeaderAndMessageKeyStore.clear] using hsize)
      exact ⟨hperm, stagedKeys_datedBy (.refl w) (datedBy_clear w), hcontinues, trivial⟩

omit [Platform] in
theorem committedNext_places (h : conversation.ratchet.Represents schedule x role)
    (hkdf : KdfNonzero B) (hcarries : sent.Carries schedule x place)
    (hchain : place.chain = x.turn role + 1) {w : World B}
    (hkeeps : conversation.ratchet.KeepsKeys w)
    (hsize : conversation.ratchet.skippedHeaderAndMessageKeys.keys.length +
      conversation.ratchet.restCount sent.previousMessageNumber + sent.messageNumber.toNat ≤
        maximumKeys) :
    let rest := conversation.ratchet.stagedRest sent.previousMessageNumber w
    let staged := stagedKeys conversation.ratchet.nextReceiveHeaderKey sent.messageNumber.toNat
      (schedule.chainKey (x.turn role + 1)) rest.1 rest.2
    (committedKeys conversation.ratchet.skippedHeaderAndMessageKeys staged.1 staged.2).pairs.Perm
      ((x.outstanding role ++ (x.rest role ++ places (x.turn role + 1) 0 place.number)).map
        schedule.keys) := by
  obtain ⟨hrestPerm, hrestDated, hrestContinues, hrestLength⟩ := stagedRest_places h
    hkdf (by rw [hcarries.previousMessageNumber, hchain]) hkeeps.steady
    (by omega : conversation.ratchet.restCount sent.previousMessageNumber ≤ maximumKeys)
  have hrestKeys := hrestPerm.length_eq
  rw [length_pairs, List.length_map, hrestLength] at hrestKeys
  obtain ⟨hperm, hcontinues⟩ := stagedKeys_places schedule (x.turn role + 1) 0 place.number
    (hkeeps.steady.continues hrestContinues)
    (by
      rw [hrestKeys, Nat.sub_zero, ← hcarries.messageNumber]
      omega)
  have hstaged : stagedKeys (.ofKey (schedule.headerKey (x.turn role + 1))) (place.number - 0)
      ((schedule.chainKey (x.turn role + 1)).advance 0)
      (conversation.ratchet.stagedRest sent.previousMessageNumber w).1
      (conversation.ratchet.stagedRest sent.previousMessageNumber w).2 =
      stagedKeys conversation.ratchet.nextReceiveHeaderKey sent.messageNumber.toNat
        (schedule.chainKey (x.turn role + 1))
        (conversation.ratchet.stagedRest sent.previousMessageNumber w).1
        (conversation.ratchet.stagedRest sent.previousMessageNumber w).2 := by
    rw [h.nextReceiveHeaderKey, hcarries.messageNumber]
    rfl
  rw [hstaged] at hperm hcontinues
  have hnew := hperm.trans (hrestPerm.append_right _)
  rw [← List.map_append] at hnew
  refine committedKeys_places hkeeps.steady (hrestContinues.trans hcontinues)
    hkeeps.stored h.skipped hnew (stagedKeys_datedBy hrestContinues hrestDated) ?_
  rw [List.length_append, hrestLength, length_places, ← hcarries.messageNumber]
  omega

/-- The first message of a new chain is delivered, and the party waits for the rest of the
chain before and for the messages it skips on the new one. -/
theorem receive_nextChain (h : conversation.ratchet.Represents schedule x role)
    (hideal : Idealised B) (hvalid : x.Valid) (hlinked : schedule.Linked x.newest)
    (hcarries : sent.Carries schedule x place) (hlog : place ∈ x.log role.other)
    (hchain : place.chain = x.turn role + 1) (hflag : x.flag role = false) (k : ℕ) {w : World B}
    (hreach : conversation.ratchet.InReach sent) (hkeeps : conversation.ratchet.KeepsKeys w) :
    ∃ conversation' w', conversation.receive sent.packet w =
        (.ok ⟨sent.messageNumber, sent.previousMessageNumber, sent.message⟩, conversation', w') ∧
      conversation'.ratchet.Represents schedule (x.acceptNext role k place.number) role := by
  have hnewest := hvalid.log_le_newest hlog
  have hnot : place ∉ x.outstanding role := by
    intro hmem
    have hlt := (hvalid.outstanding role place hmem).1
    omega
  have hsending := h.sending hflag
  have hopen := hcarries.seals.packetDecryptHeader hideal.secretbox
  have hcurrent : ∃ e, packetDecryptHeader sent.packet conversation.ratchet.receiveHeaderKey =
      .error e := by
    apply hcarries.seals.packetDecryptHeader_ne hideal.keyBound
    intro hkey
    have hturn := header_chain_of_current h hideal hvalid hlinked hnewest hkey
    omega
  rw [hchain, ← h.nextReceiveHeaderKey] at hopen
  obtain ⟨hrest, hskip, hsize⟩ := hreach.nextChain _ hopen
  have hderived := derive_next h hvalid hlinked hflag (by omega)
  have hmessage : packetDecryptMessage sent.packet ((schedule.chainKey (x.turn role + 1)).advance
      sent.messageNumber.toNat).messageKey = .ok sent.message := by
    rw [← hchain, hcarries.messageNumber]
    exact hcarries.seals.packetDecryptMessage hideal.secretbox
  have hreceived := Received.nextChain (.all (h.firstDecryption_eq_none hideal hvalid hlinked
      hcarries hnewest hnot)) hcurrent hopen
    (headerExtract_headerConstruct hideal.protobuf _ _ _) (h.flag.trans hflag) hrest hderived hskip
    (w := w) rfl rfl hmessage
  obtain ⟨w', hreceive⟩ := hreceived.receive_eq hideal.kdfNonzero h.receivedValid
    h.headerDecryptable (h.receiveChainKey hideal.kdfNonzero)
  refine ⟨_, w', hreceive, ?_⟩
  have hcommitted := committedNext_places h hideal.kdfNonzero hcarries hchain hkeeps hsize
  have hturn := x.turn_acceptNext role k place.number
  have hflagged := x.flag_acceptNext role k place.number
  have hlt := (hvalid.log role.other place hlog).2.2.2
  have hbound := hvalid.count_lt place.chain
  exact
    { ratchetRole := h.ratchetRole
      receivedValid := rfl
      headerDecryptable := rfl
      staged := rfl
      flag := hflagged.symm
      nextReceiveHeaderKey := by
        rw [hturn]
        rfl
      silent := fun hzero => by
        rw [hturn] at hzero
        omega
      receiving := by
        intro chain hchain'
        have heq : chain = x.turn role + 1 := by
          rw [hturn] at hchain'
          omega
        subst heq
        rw [Exchange.received_acceptNext]
        exact
          { receiveHeaderKey := h.nextReceiveHeaderKey
            receiveChainKey := by
              change EmptyableKey.ofKey _ = _
              rw [hcarries.messageNumber]
            receiveMessageNumber := by
              change (sent.messageNumber + 1).toNat = _
              rw [toNat_add_one (by rw [hcarries.messageNumber]; omega), hcarries.messageNumber] }
      sending := fun hfalse => by
        rw [hflagged] at hfalse
        cases hfalse
      listening := by
        intro _ chain hchain'
        have heq : chain = x.turn role + 1 := by
          rw [hturn] at hchain'
          omega
        subst heq
        exact
          { rootKey := rfl
            nextSendHeaderKey := hsending.nextSendHeaderKey
            theirPublicEphemeral := rfl
            sendMessageNumber := hsending.sendMessageNumber }
      skipped := by
        rw [Exchange.outstanding_acceptNext]
        exact hcommitted }

end Conversation

end Molch
