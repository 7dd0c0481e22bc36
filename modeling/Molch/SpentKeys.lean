import Molch.ForwardSecrecy
import Molch.MessageNumbers

namespace Molch

open Sodium

variable {B : Type} [Byte B] [Sodium B]

section Derivations

variable {held : Set (Secret B)} {key : ChainKey B}

theorem derivable_advance (h : Derivable Derives held (.chainKey (.ofKey key))) (n : ℕ) :
    Derivable Derives held (.chainKey (.ofKey (key.advance n))) := by
  induction n with
  | zero => exact h
  | succ n ih =>
      rw [Key.advance_succ']
      refine .rule ?_ (.nextChainKey (EmptyableKey.deriveChainKey_ofKey (key.advance n)))
      rintro secret hsecret
      rw [List.mem_singleton.mp hsecret]
      exact ih

theorem derivable_messageKey (h : Derivable Derives held (.chainKey (.ofKey key))) (n : ℕ) :
    Derivable Derives held (.messageKey (key.advance n).messageKey) := by
  refine .rule ?_ (.messageKey (EmptyableKey.deriveMessageKey_ofKey (key.advance n)))
  rintro secret hsecret
  rw [List.mem_singleton.mp hsecret]
  exact derivable_advance h n

end Derivations

namespace Ratchet

/-- The ratchet without the root key that a message has left behind. -/
def withoutPurported (ratchet : Ratchet B) : Ratchet B :=
  { ratchet with purportedRootKey := .clear }

variable {ratchet : Ratchet B}

theorem recoverable_sendChain (hempty : ratchet.sendChainKey.empty = false) :
    ratchet.Recoverable ratchet.sendChainKey.key.messageKey := by
  have hchain : Derivable Derives ratchet.toRatchetStorage.Holds
      (.chainKey (.ofKey ratchet.sendChainKey.key)) := by
    rw [← EmptyableKey.eq_ofKey hempty]
    exact .held .sendChainKey
  exact .inr (.inr (derivable_messageKey hchain 0))

theorem recoverable_receiveChain (hempty : ratchet.receiveChainKey.empty = false) (n : ℕ) :
    ratchet.Recoverable (ratchet.receiveChainKey.key.advance n).messageKey := by
  have hchain : Derivable Derives ratchet.toRatchetStorage.Holds
      (.chainKey (.ofKey ratchet.receiveChainKey.key)) := by
    rw [← EmptyableKey.eq_ofKey hempty]
    exact .held .receiveChainKey
  exact .inr (.inr (derivable_messageKey hchain n))

theorem recoverable_skipped {key : HeaderAndMessageKey B}
    (hkey : key ∈ ratchet.skippedHeaderAndMessageKeys.keys) :
    ratchet.Recoverable key.messageKey :=
  .inl (List.mem_map_of_mem hkey)

theorem Purports.withoutPurported {purported : Purported B} (h : ratchet.Purports purported)
    (left : HeaderAndMessageKeyStore B) :
    ∃ purported', ratchet.withoutPurported.Purports purported' ∧
      (ratchet.withoutPurported.settle purported' left).withoutPurported =
        (ratchet.settle purported left).withoutPurported := by
  cases h with
  | untouched => exact ⟨_, .untouched, rfl⟩
  | tooManySkipped messageNumber => exact ⟨_, .tooManySkipped messageNumber, rfl⟩
  | currentChain messageNumber count hheader =>
      exact ⟨_, .currentChain messageNumber count hheader, rfl⟩
  | tooManySkippedBefore theirEphemeral messageNumber previousNumber =>
      exact ⟨_, .tooManySkippedBefore theirEphemeral messageNumber previousNumber, rfl⟩
  | noSharedSecret theirEphemeral messageNumber previousNumber =>
      exact ⟨_, .noSharedSecret theirEphemeral messageNumber previousNumber, rfl⟩
  | nextChain theirEphemeral messageNumber previousNumber derived count hflag hderived =>
      exact ⟨_, .nextChain theirEphemeral messageNumber previousNumber derived count hflag
        hderived, rfl⟩

namespace Retains

variable {schedule : Schedule B} {newest : ℕ} {used skipped : List Place}

theorem withoutPurported (h : ratchet.Retains schedule newest used skipped) :
    ratchet.withoutPurported.Retains schedule newest used skipped :=
  { h with purportedRootKey := .inl rfl }

/-- The place of a key that can still be recovered has not been used. -/
theorem not_used (h : ratchet.Retains schedule newest used skipped)
    (hhash : GenerichashInjective B) (hkdf : KdfInjective B) {place : Place} {key : MessageKey B}
    (hkey : key = schedule.messageKey place) (hrecoverable : ratchet.Recoverable key) :
    place ∉ used := by
  intro hplace
  rw [hkey] at hrecoverable
  exact h.not_recoverable hhash hkdf hplace hrecoverable

end Retains

end Ratchet

namespace Conversation

variable [ProtobufC B] [Platform] {conversation : Conversation B}

/-- The conversation has used the given keys, each of them once. -/
def Spent (conversation : Conversation B) (keys : List (MessageKey B)) : Prop :=
  ∃ (schedule : Schedule B) (newest : ℕ) (used skipped : List Place),
    keys.Perm (used.map schedule.messageKey) ∧ used.Nodup ∧
      conversation.ratchet.withoutPurported.Retains schedule newest used skipped

namespace Spent

variable {keys : List (MessageKey B)}

omit [ProtobufC B] [Platform] in
theorem nodup (hhash : GenerichashInjective B) (hkdf : KdfInjective B)
    (h : conversation.Spent keys) : keys.Nodup := by
  obtain ⟨schedule, newest, used, skipped, hkeys, hnodup, hretains⟩ := h
  refine hkeys.nodup_iff.mpr (hnodup.map_on fun place hplace place' hplace' heq => ?_)
  exact hretains.chained.messageKey_inj hhash hkdf (hretains.started_used place hplace)
    (hretains.started_used place' hplace') heq

omit [ProtobufC B] [Platform] in
theorem perm {keys' : List (MessageKey B)} (h : conversation.Spent keys) (hperm : keys'.Perm keys) :
    conversation.Spent keys' := by
  obtain ⟨schedule, newest, used, skipped, hkeys, hrest⟩ := h
  exact ⟨schedule, newest, used, skipped, hperm.trans hkeys, hrest⟩

omit [ProtobufC B] [Platform] in
theorem snoc {conversation' : Conversation B} {schedule : Schedule B} {newest : ℕ}
    {used skipped : List Place} {place : Place} {key : MessageKey B}
    (hkeys : keys.Perm (used.map schedule.messageKey)) (hnodup : used.Nodup)
    (hkey : key = schedule.messageKey place) (hnew : place ∉ used)
    (hretains : conversation'.ratchet.withoutPurported.Retains schedule newest (used ++ [place])
      skipped) : conversation'.Spent (keys ++ [key]) := by
  refine ⟨schedule, newest, _, skipped, ?_, ?_, hretains⟩
  · rw [List.map_append, List.map_singleton, hkey]
    exact hkeys.append_right _
  · refine hnodup.append (List.nodup_singleton _) fun other hother hplace => ?_
    rw [List.mem_singleton.mp hplace] at hother
    exact hnew hother

theorem receive (hhash : GenerichashInjective B) (hkdf : KdfInjective B)
    (hnonzero : KdfNonzero B) (hwell : conversation.ratchet.WellFormed)
    (h : conversation.Spent keys) (packet : List B) (w : World B) :
    (conversation.receive packet w).2.1.Spent
      (keys ++ (conversation.usedKey (.receive packet w)).toList) := by
  obtain ⟨schedule, newest, used, skipped, hkeys, hnodup, hretains⟩ := h
  have hchain : conversation.ratchet.receiveHeaderKey.isNone = false →
      conversation.ratchet.receiveChainKey.empty = false :=
    fun hnone => EmptyableKey.empty_eq_false_of_isNone (hwell.receiveChainKey hnone)
  have hcases := WellFormed.receive_cases hnonzero hwell packet w
  rw [usedKey]
  generalize (conversation.receive packet w).1 = result at hcases ⊢
  generalize (conversation.receive packet w).2.1 = conversation' at hcases ⊢
  cases hcases with
  | skipped hfound hheader =>
      obtain ⟨node, hnode, -⟩ := firstDecryption_eq_some hfound
      obtain ⟨place, hkey, hremoved⟩ := hretains.remove hnode
      simp only [keyForPacket_skipped hfound hheader, hnode, Option.map_some]
      exact .snoc hkeys hnodup hkey (hretains.not_used hhash hkdf hkey
        (Ratchet.recoverable_skipped (List.mem_of_getElem? hnode))) hremoved.withoutPurported
  | rejected hleft hpurports =>
      obtain ⟨purported', hpurports', heq⟩ := hpurports.withoutPurported _
      have hsettled := hretains.settle hchain hpurports'
        (hleft.messageKeys_subperm.trans hretains.skippedKeys)
      simp only [Option.toList_none, List.append_nil]
      refine ⟨schedule, newest, used, skipped, hkeys, hnodup, ?_⟩
      rw [← heq]
      exact hsettled.withoutPurported
  | currentChain hleft hopen hheader hnone hskip hcount hstaged hmessage =>
      rename_i left header message extracted count staged
      obtain ⟨place, skipped', hkey, haccepted⟩ := hretains.acceptCurrent (hchain hnone)
        (hleft.messageKeys_subperm.trans hretains.skippedKeys) count extracted.messageNumber
        conversation.ratchet.receiveHeaderKey w staged.2
      have hempty : conversation.ratchet.withoutPurported.receiveChainKey.empty = false :=
        hchain hnone
      simp only [keyForPacket_currentChain hwell hleft hopen hheader hnone hskip w, ← hcount]
      subst hstaged
      exact .snoc hkeys hnodup hkey (hretains.not_used hhash hkdf hkey
        (Ratchet.recoverable_receiveChain hempty count)) haccepted.withoutPurported
  | nextChain hleft hcurrent hopen hheader hflag hrest hderived hskip hstagedRest hstaged
      hmessage =>
      rename_i left header message extracted derived rest staged
      have hused := keyForPacket_nextChain hnonzero hwell hleft hcurrent hopen hheader hflag hrest
        hderived hskip w
      obtain ⟨-, secret, -, rfl⟩ := exists_of_derived hderived
      obtain ⟨schedule', hnew, hsame, hretains'⟩ := hretains.extend
        (cryptoGenerichash secret.bytes conversation.ratchet.rootKey.key.bytes)
      obtain ⟨place, skipped', hkey, haccepted⟩ := hretains'.acceptNext hflag
        (hleft.messageKeys_subperm.trans hretains'.skippedKeys) hnew
        extracted.theirPublicEphemeral extracted.messageNumber extracted.previousMessageNumber
        extracted.messageNumber.toNat conversation.ratchet.nextReceiveHeaderKey w rest.2 staged.2
      -- nothing has been sent or received on the new chain
      have hplace : place ∉ used := by
        intro hmem
        have hchained := haccepted.chained
        have hlast : (⟨newest + 1, extracted.messageNumber.toNat⟩ : Place) = place :=
          hchained.messageKey_inj hhash hkdf le_rfl
            (haccepted.started_used place (List.mem_append_right _ List.mem_cons_self)) hkey
        have hle := hretains'.started_used place hmem
        rw [← hlast] at hle
        exact absurd hle (Nat.not_succ_le_self newest)
      rw [hnew] at hkey haccepted
      simp only [hused]
      subst hstaged hstagedRest
      rw [← hsame] at hkeys
      exact .snoc hkeys hnodup hkey hplace haccepted.withoutPurported

theorem send (hhash : GenerichashInjective B) (hkdf : KdfInjective B)
    (hwell : conversation.ratchet.WellFormed) (h : conversation.Spent keys) (message : List B)
    (prekeyMetadata : Option (PrekeyMetadata B)) (w : World B) :
    (conversation.send message prekeyMetadata w).2.1.Spent
      (keys ++ (conversation.usedKey (.send message prekeyMetadata w)).toList) := by
  obtain ⟨schedule, newest, used, skipped, hkeys, hnodup, hretains⟩ := h
  rw [usedKey]
  cases hflag : conversation.ratchet.ratchetFlag with
  | false =>
      obtain ⟨headerKey, hheader⟩ := hwell.sendHeaderKey hflag
      have hempty := EmptyableKey.empty_eq_false_of_isNone (hwell.sendChainKey hflag)
      have hdata := Ratchet.getSendData_of_chain hflag hempty hheader w
      obtain ⟨packet, w', hsend, -⟩ := send_of_getSendData hdata rfl message prekeyMetadata
      obtain ⟨place, hkey, hadvanced⟩ := hretains.advanceSendChain hflag hempty
      simp only [hdata, hsend, Ratchet.sendData]
      exact .snoc hkeys hnodup hkey (hretains.not_used hhash hkdf hkey
        (Ratchet.recoverable_sendChain hempty)) hadvanced.withoutPurported
  | true =>
      obtain ⟨derived, hderived⟩ := exists_derived hwell.rootKey
        (hwell.theirEphemeral (w.random 0 32)) conversation.ratchet.role
      have hdata := Ratchet.getSendData_of_flag hflag hderived
      obtain ⟨packet, w', hsend, -⟩ := send_of_getSendData hdata hwell.nextSendHeaderKey message
        prekeyMetadata
      obtain ⟨-, secret, -, rfl⟩ := exists_of_derived hderived
      obtain ⟨schedule', hnew, hsame, hretains'⟩ := hretains.extend
        (cryptoGenerichash secret.bytes conversation.ratchet.rootKey.key.bytes)
      have hstarted := hretains'.withSendChain hflag rfl hnew (w.random 0 32)
      rw [hnew] at hstarted
      obtain ⟨place, hkey, hadvanced⟩ := hstarted.advanceSendChain rfl rfl
      simp only [hdata, hsend, Ratchet.sendData]
      rw [← hsame] at hkeys
      exact .snoc hkeys hnodup hkey (hstarted.not_used hhash hkdf hkey
        (Ratchet.recoverable_sendChain rfl)) hadvanced.withoutPurported

theorem call (hhash : GenerichashInjective B) (hkdf : KdfInjective B) (hnonzero : KdfNonzero B)
    (hwell : conversation.ratchet.WellFormed) (h : conversation.Spent keys) (c : Call B) :
    (conversation.call c).2.Spent (keys ++ (conversation.usedKey c).toList) := by
  cases c with
  | send message prekeyMetadata w => exact h.send hhash hkdf hwell message prekeyMetadata w
  | receive packet w => exact h.receive hhash hkdf hnonzero hwell packet w

theorem run (hhash : GenerichashInjective B) (hkdf : KdfInjective B) (hnonzero : KdfNonzero B)
    (hpoint : ScalarmultFailsByPoint B) (hreachable : Reachable (fun _ => True) conversation)
    (h : conversation.Spent keys) (calls : List (Call B)) :
    (Runs.final callWithKey conversation calls).Spent
      (keys ++ (Runs.outputs callWithKey conversation calls).reduceOption) := by
  induction calls generalizing conversation keys with
  | nil => simpa [Runs.final, Runs.outputs] using h
  | cons c calls ih =>
      have hnext := h.call hhash hkdf hnonzero (hreachable.wellFormed hnonzero hpoint) c
      have hrun := ih (hreachable.call c) hnext
      rw [List.append_assoc] at hrun
      rw [Runs.final, Runs.outputs, callWithKey]
      cases hused : conversation.usedKey c with
      | none => simpa [hused] using hrun
      | some key => simpa [hused] using hrun

end Spent

omit [ProtobufC B] [Platform] in
theorem Created.spent (h : conversation.Created) : conversation.Spent [] := by
  obtain ⟨_, _, _, _, _, _, w, w', -, hcreate⟩ := h
  obtain ⟨role, masterKey, -, hmaster, heq⟩ :=
    Ratchet.exists_of_create (ratchet_of_create hcreate)
  obtain ⟨-, input, rfl⟩ := exists_of_tripleDiffieHellman hmaster
  refine ⟨fun _ => ⟨cryptoGenerichash input [], Key.zero⟩, 0, [], [], .refl _, List.nodup_nil, ?_⟩
  rw [heq]
  exact (Ratchet.Retains.ofInitialKeys rfl role _ _ _ _ _).withoutPurported

/-- The keys of the messages that a conversation sends and receives in a run differ from each
other, whatever packets it gets. -/
theorem used_keys_never_reused (hhash : GenerichashInjective B) (hkdf : KdfInjective B)
    (hnonzero : KdfNonzero B) (hpoint : ScalarmultFailsByPoint B) (h : conversation.Created)
    (calls : List (Call B)) :
    (Runs.outputs callWithKey conversation calls).reduceOption.Nodup := by
  have hrun := h.spent.run hhash hkdf hnonzero hpoint h.reachable calls
  rw [List.nil_append] at hrun
  exact hrun.nodup hhash hkdf

end Conversation

namespace Symbolic

open Conversation

theorem Awaits.usedKey {conversation : Conversation ℕ} {headerKey : HeaderKey ℕ}
    {chainKey : ChainKey ℕ} (h : Awaits conversation headerKey chainKey) (message : List ℕ) :
    conversation.usedKey (.receive (numberedZero headerKey chainKey.messageKey message) world) =
      some chainKey.messageKey := by
  have hopens := h.opensCurrent message
  obtain ⟨header, hopen, hheader⟩ := hopens.header
  obtain ⟨_, _, hreceive, -⟩ := h.receive message 0 chainKey
  rw [Conversation.usedKey, hreceive]
  simp only [keyForPacket_currentChain h.wellFormed (.of_clear h.skipped _) hopen hheader
    hopens.headerKey hopens.inReach, h.advance_skippedCount_zero]

/-- Two messages are accepted and one is sent. -/
theorem used_keys_never_reused_answer :
    ∃ (conversation : Conversation ℕ) (packet packet' : List ℕ) (key key' key'' : MessageKey ℕ),
      conversation.Created ∧
      Runs.outputs callWithKey conversation [.receive packet world, .receive packet' world,
        .send [3] none world] = [some key, some key', some key''] ∧
      [key, key', key''].Nodup := by
  obtain ⟨conversation, masterKey, hcreated, hawaits⟩ := exists_created_alice
  obtain ⟨next, w, hreceive, -, hnext⟩ := hawaits.receive [1] 0 Key.zero
  obtain ⟨last, w', hreceive', -, hlast⟩ := hnext.receive [2] 0 Key.zero
  obtain ⟨data, ratchet, v, hdata, hempty, -⟩ := hlast.wellFormed.getSendData kdfNonzero world
  obtain ⟨packet, v', hsend, -⟩ := send_of_getSendData hdata hempty [3] none
  have hused : last.usedKey (.send [3] none world) = some data.messageKey := by
    rw [Conversation.usedKey, hdata, hsend]
  let chainKey : ChainKey ℕ := masterKey.deriveSubkeyWithIndex 4
  let headerKey : HeaderKey ℕ := masterKey.deriveSubkeyWithIndex 1
  let calls : List (Call ℕ) := [.receive (numberedZero headerKey chainKey.messageKey [1]) world,
    .receive (numberedZero headerKey chainKey.nextChainKey.messageKey [2]) world,
    .send [3] none world]
  have hkeys : Runs.outputs callWithKey conversation calls =
      [some chainKey.messageKey, some chainKey.nextChainKey.messageKey, some data.messageKey] := by
    simp only [calls, Runs.outputs, callWithKey, hawaits.usedKey [1], Conversation.call, hreceive,
      hnext.usedKey [2], hreceive', hused, chainKey, headerKey]
  refine ⟨conversation, _, _, _, _, _, hcreated, hkeys, ?_⟩
  have hnodup := used_keys_never_reused generichashInjective kdfInjective kdfNonzero
    scalarmultFailsByPoint hcreated calls
  rw [hkeys] at hnodup
  exact hnodup

end Symbolic

end Molch
