import Molch.Foundation.Runs
import Molch.KeySchedule
import Molch.WellFormed
import Mathlib.Data.List.ReduceOption

namespace Molch

open Sodium

variable {B : Type} [Byte B] [Sodium B]

namespace Ratchet

/-- The sending side of a ratchet that has handed out the keys of the places in `sent`. -/
structure Sends (schedule : Schedule B) (newest : ℕ) (sent : List Place)
    (ratchet : Ratchet B) : Prop where
  chained : schedule.Chained newest
  rootKey : ratchet.rootKey = .ofKey (schedule.rootKey newest)
  sendChainKey : ratchet.sendChainKey.empty = true ∨ ∃ chain,
    chain + ratchet.ratchetFlag.toNat = newest ∧
      schedule.Beyond sent chain ratchet.sendChainKey
  started : ∀ place ∈ sent, place.chain ≤ newest
  nodup : sent.Nodup

namespace Sends

variable {schedule : Schedule B} {newest : ℕ} {sent : List Place} {ratchet ratchet' : Ratchet B}

theorem of_eq (h : ratchet.Sends schedule newest sent) (hroot : ratchet'.rootKey = ratchet.rootKey)
    (hchain : ratchet'.sendChainKey = ratchet.sendChainKey)
    (hflag : ratchet'.ratchetFlag = ratchet.ratchetFlag) :
    ratchet'.Sends schedule newest sent where
  chained := h.chained
  rootKey := by rw [hroot, h.rootKey]
  sendChainKey := by rw [hchain, hflag]; exact h.sendChainKey
  started := h.started
  nodup := h.nodup

theorem extend (h : ratchet.Sends schedule newest sent) (derivation : Key B 32) :
    ∃ schedule' : Schedule B, (schedule' (newest + 1)).derivation = derivation ∧
      sent.map schedule'.messageKey = sent.map schedule.messageKey ∧
      ratchet.Sends schedule' newest sent := by
  obtain ⟨schedule', hnew, hagree⟩ := schedule.exists_continuation newest derivation
  refine ⟨schedule', hnew, ?_, ?_⟩
  · apply List.map_congr_left
    intro place hplace
    exact Schedule.messageKey_congr (hagree _ (h.started place hplace))
  · refine { h with chained := h.chained.congr hagree, rootKey := ?_, sendChainKey := ?_ }
    · rw [h.rootKey, Schedule.rootKey_congr (hagree newest le_rfl)]
    · refine h.sendChainKey.imp_right ?_
      rintro ⟨chain, hchain, hkey⟩
      exact ⟨chain, hchain, hkey.congr (hagree chain (by omega))⟩

theorem ofInitialKeys {input : List B}
    (hzero : (schedule 0).derivation = cryptoGenerichash input []) (role : Role)
    (ourPublicIdentity theirPublicIdentity : PublicKey B) (ourPrivateEphemeral : PrivateKey B)
    (ourPublicEphemeral theirPublicEphemeral : PublicKey B) :
    (Ratchet.ofInitialKeys role (.ofMasterKey (schedule 0).derivation role) ourPublicIdentity
      theirPublicIdentity ourPrivateEphemeral ourPublicEphemeral
      theirPublicEphemeral).Sends schedule 0 [] where
  chained := ⟨⟨input, hzero⟩, fun chain hchain => absurd hchain (Nat.not_lt_zero _)⟩
  rootKey := by
    cases role with
    | alice => rfl
    | bob => rfl
  sendChainKey := by
    cases role with
    | alice => exact .inl rfl
    | bob => exact .inr ⟨0, rfl, 0, rfl, fun _ hplace => absurd hplace List.not_mem_nil⟩
  started _ hplace := absurd hplace List.not_mem_nil
  nodup := List.nodup_nil

theorem advanceSendChain (h : ratchet.Sends schedule newest sent)
    (hflag : ratchet.ratchetFlag = false) (hempty : ratchet.sendChainKey.empty = false) :
    ∃ place, ratchet.sendChainKey.key.messageKey = schedule.messageKey place ∧
      ratchet.advanceSendChain.Sends schedule newest (sent ++ [place]) := by
  obtain ⟨n, hkey, hn⟩ : schedule.Beyond sent newest ratchet.sendChainKey := by
    rcases h.sendChainKey with hkey | ⟨chain, hchain, hkey⟩
    · rw [hempty] at hkey
      cases hkey
    · rw [hflag] at hchain
      exact hchain ▸ hkey
  refine ⟨⟨newest, n⟩, by rw [hkey]; rfl, { h with
    sendChainKey := .inr ⟨newest, ?_, ?_⟩, started := ?_, nodup := ?_ }⟩
  · rw [show ratchet.advanceSendChain.ratchetFlag = false from hflag]
    rfl
  · change schedule.Beyond _ newest (.ofKey ratchet.sendChainKey.key.nextChainKey)
    rw [hkey]
    exact Schedule.beyond_snoc hn
  · intro place hplace
    rcases List.mem_append.mp hplace with hplace | hplace
    · exact h.started place hplace
    · rw [List.mem_singleton.mp hplace]
  · refine h.nodup.append (List.nodup_singleton _) fun place hplace hnew => ?_
    rw [List.mem_singleton.mp hnew] at hplace
    exact absurd (hn _ hplace rfl) (lt_irrefl n)

theorem withSendChain (h : ratchet.Sends schedule newest sent) {input : List B}
    (hnew : (schedule (newest + 1)).derivation =
      cryptoGenerichash input ratchet.rootKey.key.bytes) (privateEphemeral : PrivateKey B) :
    (ratchet.withSendChain privateEphemeral (.ofDerivationKey
      (schedule (newest + 1)).derivation)).Sends schedule (newest + 1) sent := by
  rw [h.rootKey] at hnew
  refine { h with
    chained := h.chained.succ hnew, rootKey := rfl, sendChainKey := ?_, started := ?_ }
  · refine .inr ⟨newest + 1, rfl, 0, rfl, fun place hplace hchain => ?_⟩
    have hle := h.started place hplace
    omega
  · intro place hplace
    exact Nat.le_succ_of_le (h.started place hplace)

theorem acceptNext (h : ratchet.Sends schedule newest sent) (hflag : ratchet.ratchetFlag = false)
    {input : List B} (hnew : (schedule (newest + 1)).derivation =
      cryptoGenerichash input ratchet.rootKey.key.bytes)
    (theirEphemeral : PublicKey B) (messageNumber previousNumber : UInt32)
    (chainKey : ChainKey B) (skipped : HeaderAndMessageKeyStore B) :
    (ratchet.acceptNext theirEphemeral messageNumber previousNumber
      (.ofDerivationKey (schedule (newest + 1)).derivation) chainKey skipped).Sends schedule
        (newest + 1) sent := by
  rw [h.rootKey] at hnew
  refine { h with
    chained := h.chained.succ hnew, rootKey := rfl, sendChainKey := ?_, started := ?_ }
  · rcases h.sendChainKey with hkey | ⟨chain, hchain, hkey⟩
    · exact .inl hkey
    · rw [hflag] at hchain
      exact .inr ⟨chain, congrArg (· + 1) hchain, hkey⟩
  · intro place hplace
    exact Nat.le_succ_of_le (h.started place hplace)

end Sends

end Ratchet

namespace Conversation

/-- How many keys were handed out on the last but one and on the last sending chain. Every
entry says whether a new chain was started for it. -/
def chainLengths (sent : List (Bool × SendData B)) : ℕ × ℕ :=
  sent.foldl (fun lengths entry =>
    if entry.1 then (lengths.2, 1) else (lengths.1, lengths.2 + 1)) (0, 0)

omit [Byte B] [Sodium B] in
theorem chainLengths_concat (sent : List (Bool × SendData B)) (entry : Bool × SendData B) :
    chainLengths (sent ++ [entry]) = if entry.1 then ((chainLengths sent).2, 1)
      else ((chainLengths sent).1, (chainLengths sent).2 + 1) := by
  rw [chainLengths, List.foldl_append]
  rfl

/-- The message numbers count the keys of the chain, modulo the size of the counter. -/
def Numbered (sent : List (Bool × SendData B)) : Prop :=
  ∀ before step data after, sent = before ++ (step, data) :: after →
    data.messageNumber = UInt32.ofNat (if step then 0 else (chainLengths before).2) ∧
      data.previousMessageNumber =
        UInt32.ofNat (if step then (chainLengths before).2 else (chainLengths before).1)

omit [Byte B] [Sodium B] in
theorem Numbered.concat {sent : List (Bool × SendData B)} (h : Numbered sent) {step : Bool}
    {data : SendData B}
    (hnumber : data.messageNumber = UInt32.ofNat (if step then 0 else (chainLengths sent).2))
    (hprevious : data.previousMessageNumber =
      UInt32.ofNat (if step then (chainLengths sent).2 else (chainLengths sent).1)) :
    Numbered (sent ++ [(step, data)]) := by
  intro before step' data' after heq
  rcases List.eq_nil_or_concat after with rfl | ⟨after, last, rfl⟩
  · obtain ⟨rfl, hentry⟩ := List.append_inj' heq rfl
    cases hentry
    exact ⟨hnumber, hprevious⟩
  · rw [List.concat_eq_append, ← List.cons_append, ← List.append_assoc] at heq
    exact h before step' data' after (List.append_inj' heq rfl).1

omit [Byte B] [Sodium B] in
theorem chainLengths_fst_lt {bound : ℕ} {sent : List (Bool × SendData B)} (hbound : 0 < bound)
    (h : ∀ before after, sent = before ++ after → (chainLengths before).2 < bound) :
    (chainLengths sent).1 < bound := by
  induction sent using List.reverseRecOn with
  | nil => exact hbound
  | append_singleton sent entry ih =>
      have hsent : (chainLengths sent).1 < bound := by
        refine ih fun before after heq => h before (after ++ [entry]) ?_
        rw [heq, List.append_assoc]
      rw [chainLengths_concat]
      split
      · exact h sent [entry] rfl
      · exact hsent

variable [ProtobufC B]

/-- What `getSendData` hands out for a call, and whether it starts a new chain. -/
def sentData (conversation : Conversation B) : Call B → Option (Bool × SendData B)
  | .send _ _ w =>
      (conversation.ratchet.getSendData w).1.toOption.map (conversation.ratchet.ratchetFlag, ·)
  | .receive _ _ => none

variable [Platform]

/-- A call with what it hands out for sending as its result. -/
def callWithData (conversation : Conversation B) (c : Call B) :
    Option (Bool × SendData B) × Conversation B :=
  (conversation.sentData c, (conversation.call c).2)

/-- The state of a conversation that has handed out the data in `sent`. -/
structure HandedOut (conversation : Conversation B) (sent : List (Bool × SendData B)) : Prop where
  keys : ∃ schedule newest places, sent.map (·.2.messageKey) = places.map schedule.messageKey ∧
    conversation.ratchet.Sends schedule newest places
  sendMessageNumber : conversation.ratchet.sendMessageNumber = UInt32.ofNat (chainLengths sent).2
  previousMessageNumber :
    conversation.ratchet.previousMessageNumber = UInt32.ofNat (chainLengths sent).1
  numbered : Numbered sent

variable {conversation : Conversation B} {sent : List (Bool × SendData B)}

omit [ProtobufC B] [Platform] in
theorem Created.handedOut (h : conversation.Created) : conversation.HandedOut [] := by
  obtain ⟨_, _, _, _, _, _, w, w', -, hcreate⟩ := h
  obtain ⟨role, masterKey, -, hmaster, heq⟩ :=
    Ratchet.exists_of_create (ratchet_of_create hcreate)
  obtain ⟨-, input, rfl⟩ := exists_of_tripleDiffieHellman hmaster
  refine ⟨⟨fun _ => ⟨cryptoGenerichash input [], Key.zero⟩, 0, [], rfl, ?_⟩, ?_, ?_, ?_⟩
  · rw [heq]
    exact .ofInitialKeys rfl role _ _ _ _ _
  · rw [heq]
    rfl
  · rw [heq]
    rfl
  · intro before step data after hnil
    cases before <;> cases hnil

theorem HandedOut.receive (hkdf : KdfNonzero B) (hwell : conversation.ratchet.WellFormed)
    (h : conversation.HandedOut sent) (packet : List B) (w : World B) :
    (conversation.receive packet w).2.1.HandedOut sent := by
  obtain ⟨⟨schedule, newest, places, hkeys, hsends⟩, hnumber, hprevious, hnumbered⟩ := h
  have hcases := WellFormed.receive_cases hkdf hwell packet w
  generalize (conversation.receive packet w).1 = result at hcases
  generalize (conversation.receive packet w).2.1 = conversation' at hcases ⊢
  cases hcases with
  | skipped hfound hheader =>
      exact ⟨⟨schedule, newest, places, hkeys, hsends.of_eq rfl rfl rfl⟩, hnumber, hprevious,
        hnumbered⟩
  | rejected hleft hpurports =>
      exact ⟨⟨schedule, newest, places, hkeys, hsends.of_eq rfl rfl rfl⟩, hnumber, hprevious,
        hnumbered⟩
  | currentChain hleft hopen hheader hnone hskip hcount hstaged hmessage =>
      exact ⟨⟨schedule, newest, places, hkeys, hsends.of_eq rfl rfl rfl⟩, hnumber, hprevious,
        hnumbered⟩
  | nextChain hleft hcurrent hopen hheader hflag hrest hderived hskip hstagedRest hstaged
      hmessage =>
      obtain ⟨-, secret, -, rfl⟩ := exists_of_derived hderived
      obtain ⟨schedule', hnew, hkeys', hsends'⟩ := hsends.extend
        (cryptoGenerichash secret.bytes conversation.ratchet.rootKey.key.bytes)
      refine ⟨⟨schedule', newest + 1, places, hkeys.trans hkeys'.symm, ?_⟩, hnumber, hprevious,
        hnumbered⟩
      rw [← hnew]
      exact hsends'.acceptNext hflag hnew _ _ _ _ _

omit [Platform] in
theorem HandedOut.send (hkdf : KdfNonzero B) (hwell : conversation.ratchet.WellFormed)
    (h : conversation.HandedOut sent) (message : List B)
    (prekeyMetadata : Option (PrekeyMetadata B)) (w : World B) :
    (conversation.send message prekeyMetadata w).2.1.HandedOut
      (sent ++ (conversation.sentData (.send message prekeyMetadata w)).toList) := by
  obtain ⟨⟨schedule, newest, places, hkeys, hsends⟩, hnumber, hprevious, hnumbered⟩ := h
  obtain ⟨data, ratchet, w', hdata, hkey, -⟩ := hwell.getSendData hkdf w
  rw [send_eq hdata hkey, sentData, hdata]
  simp only [Except.toOption, Option.map_some, Option.toList_some]
  rcases Ratchet.getSendData_cases hdata with
    ⟨hflag, hempty, headerKey, -, rfl, rfl⟩ | ⟨hflag, derived, hderived, rfl, rfl⟩
  · obtain ⟨place, hplace, hadvanced⟩ := hsends.advanceSendChain hflag hempty
    refine ⟨⟨schedule, newest, places ++ [place], ?_, hadvanced⟩, ?_, ?_, hnumbered.concat ?_ ?_⟩
    · rw [List.map_append, List.map_append, hkeys]
      exact congrArg (_ ++ [·]) hplace
    · rw [chainLengths_concat, hflag]
      change conversation.ratchet.sendMessageNumber + 1 = _
      rw [hnumber]
      simp
    · rw [chainLengths_concat, hflag]
      exact hprevious
    · rw [hflag]
      exact hnumber
    · rw [hflag]
      exact hprevious
  · obtain ⟨-, secret, -, rfl⟩ := exists_of_derived hderived
    obtain ⟨schedule', hnew, hkeys', hsends'⟩ := hsends.extend
      (cryptoGenerichash secret.bytes conversation.ratchet.rootKey.key.bytes)
    have hstarted := hsends'.withSendChain hnew (w.random 0 32)
    rw [hnew] at hstarted
    obtain ⟨place, hplace, hadvanced⟩ := hstarted.advanceSendChain rfl rfl
    refine ⟨⟨schedule', newest + 1, places ++ [place], ?_, hadvanced⟩, ?_, ?_,
      hnumbered.concat ?_ ?_⟩
    · rw [List.map_append, List.map_append, hkeys, hkeys']
      exact congrArg (_ ++ [·]) hplace
    · rw [chainLengths_concat, hflag]
      rfl
    · rw [chainLengths_concat, hflag]
      exact hnumber
    · rw [hflag]
      rfl
    · rw [hflag]
      exact hnumber

theorem HandedOut.run (hkdf : KdfNonzero B) (hpoint : ScalarmultFailsByPoint B)
    (hreachable : Reachable (fun _ => True) conversation) (h : conversation.HandedOut sent)
    (calls : List (Call B)) :
    (Runs.final callWithData conversation calls).HandedOut
      (sent ++ (Runs.outputs callWithData conversation calls).reduceOption) := by
  induction calls generalizing conversation sent with
  | nil => simpa [Runs.final, Runs.outputs] using h
  | cons c calls ih =>
      have hwell := hreachable.wellFormed hkdf hpoint
      have hnext : (conversation.call c).2.HandedOut
          (sent ++ (conversation.sentData c).toList) := by
        cases c with
        | send message prekeyMetadata w => exact h.send hkdf hwell message prekeyMetadata w
        | receive packet w =>
            rw [sentData, Option.toList_none, List.append_nil]
            exact h.receive hkdf hwell packet w
      have hrun := ih (hreachable.call c) hnext
      rw [List.append_assoc] at hrun
      rw [Runs.final, Runs.outputs, callWithData]
      cases hdata : conversation.sentData c with
      | none => simpa [hdata] using hrun
      | some entry => simpa [hdata] using hrun

/-- In every run the keys that are handed out differ from each other, and the message numbers
count them chain by chain. -/
theorem message_keys_never_reused (hhash : GenerichashInjective B) (hkdf : KdfInjective B)
    (hnonzero : KdfNonzero B) (hpoint : ScalarmultFailsByPoint B) (h : conversation.Created)
    (calls : List (Call B)) :
    let sent := (Runs.outputs callWithData conversation calls).reduceOption
    (sent.map (·.2.messageKey)).Nodup ∧
    ((∀ before after, sent = before ++ after → (chainLengths before).2 < 2 ^ 32) →
      ∀ before step data after, sent = before ++ (step, data) :: after →
        data.messageNumber.toNat = (if step then 0 else (chainLengths before).2) ∧
        data.previousMessageNumber.toNat =
          (if step then (chainLengths before).2 else (chainLengths before).1)) := by
  intro sent
  have hrun := h.handedOut.run hnonzero hpoint h.reachable calls
  rw [List.nil_append] at hrun
  constructor
  · obtain ⟨schedule, newest, places, hkeys, hsends⟩ := hrun.keys
    rw [hkeys]
    refine hsends.nodup.map_on fun place hplace place' hplace' heq => ?_
    exact hsends.chained.messageKey_inj hhash hkdf (hsends.started place hplace)
      (hsends.started place' hplace') heq
  · intro hbound before step data after heq
    have hcurrent : (chainLengths before).2 < 2 ^ 32 := hbound before _ heq
    have hprevious : (chainLengths before).1 < 2 ^ 32 := by
      refine chainLengths_fst_lt (by decide) fun before' after' heq' =>
        hbound before' (after' ++ (step, data) :: after) ?_
      rw [heq, heq', List.append_assoc]
    obtain ⟨hnumber, hpreviousNumber⟩ := hrun.numbered before step data after heq
    rw [hnumber, hpreviousNumber]
    cases step with
    | true => exact ⟨rfl, UInt32.toNat_ofNat_of_lt' hcurrent⟩
    | false =>
        exact ⟨UInt32.toNat_ofNat_of_lt' hcurrent, UInt32.toNat_ofNat_of_lt' hprevious⟩

end Conversation

namespace Symbolic

open Conversation

/-- Three messages around a packet that is not one. -/
theorem three_keys_differ : ∃ conversation : Conversation ℕ, conversation.Created ∧
    (((Runs.outputs callWithData conversation [.send [1] none world, .receive [] world,
      .send [1] none world, .send [1] none world]).reduceOption).map (·.2.messageKey)).Nodup := by
  obtain ⟨conversation, hcreated⟩ := exists_just_created
  exact ⟨conversation, hcreated, (message_keys_never_reused generichashInjective kdfInjective
    kdfNonzero scalarmultFailsByPoint hcreated _).1⟩

end Symbolic

end Molch
