import Molch.Recoverable
import Molch.SkippedKeys

namespace Molch

open Sodium

variable {B : Type} [Byte B] [Sodium B]

section Stores

omit [Byte B] [Sodium B] in
theorem map_messageKey_subperm {keys keys' : List (HeaderAndMessageKey B)}
    (h : keys.Subperm keys') : (keys.map HeaderAndMessageKey.messageKey).Subperm
      (keys'.map HeaderAndMessageKey.messageKey) := by
  obtain ⟨kept, hperm, hsublist⟩ := h
  exact ⟨kept.map _, hperm.map _, hsublist.map _⟩

theorem stagedKeys_subperm (headerKey : EmptyableHeaderKey B) (count : ℕ) (chainKey : ChainKey B)
    (stagingArea : HeaderAndMessageKeyStore B) (w : World B) :
    (stagedKeys headerKey count chainKey stagingArea w).1.messageKeys.Subperm
      (stagingArea.messageKeys ++
        (List.range count).map fun i => (chainKey.advance i).messageKey) := by
  induction count generalizing chainKey stagingArea w with
  | zero => simpa [stagedKeys] using List.Subperm.refl _
  | succ count ih =>
      refine (ih _ _ _).trans ?_
      have hadded : (stagingArea.add headerKey chainKey.messageKey w).1.messageKeys.Subperm
          (chainKey.messageKey :: stagingArea.messageKeys) :=
        map_messageKey_subperm (HeaderAndMessageKeyStore.addKey_subperm stagingArea _ _)
      rw [List.range_succ_eq_map, List.map_cons, List.map_map]
      refine (hadded.append (List.Subperm.refl _)).trans ?_
      exact List.perm_middle.symm.subperm

omit [Byte B] [Sodium B] in
theorem committedKeys_subperm (skipped staged : HeaderAndMessageKeyStore B) (w : World B) :
    (committedKeys skipped staged w).messageKeys.Subperm
      (skipped.messageKeys ++ staged.messageKeys) := by
  unfold committedKeys HeaderAndMessageKeyStore.messageKeys
  rw [← List.map_append]
  apply map_messageKey_subperm
  exact (HeaderAndMessageKeyStore.trim_sublist _ _).subperm.trans
    (HeaderAndMessageKeyStore.addStore_subperm _ _ _)

theorem map_messageKey_places (schedule : Schedule B) (chain first count : ℕ) :
    (places chain first (first + count)).map schedule.messageKey =
      (List.range count).map fun i =>
        (((schedule.chainKey chain).advance first).advance i).messageKey := by
  unfold places
  rw [List.map_map, Nat.add_sub_cancel_left]
  apply List.map_congr_left
  intro i _
  rw [Key.advance_advance]
  rfl

end Stores

namespace Schedule

/-- The derivation key of the newest chain or of one that could follow it. -/
def Ahead (schedule : Schedule B) (newest : ℕ) (derivation : Key B 32) : Prop :=
  derivation = (schedule newest).derivation ∨
    ∃ input, derivation = cryptoGenerichash input (schedule.rootKey newest).bytes

variable {schedule : Schedule B} {newest : ℕ} {places places' : List Place} {chain : ℕ}
  {key : EmptyableChainKey B}

theorem Chained.not_ahead (h : schedule.Chained newest) (hhash : GenerichashInjective B)
    (hkdf : KdfInjective B) {chain : ℕ} (hchain : chain < newest) :
    ¬ schedule.Ahead newest (schedule chain).derivation := by
  rintro (heq | ⟨input, heq⟩)
  · have hsame := h.derivation_inj hhash hkdf hchain.le le_rfl heq
    omega
  · obtain ⟨before, hbefore, hroot⟩ := h.rootKey_of_derivation hhash hchain.le heq
    have hderivation := (Key.deriveSubkeyWithIndex_inj hkdf hroot).1
    have hsame := h.derivation_inj hhash hkdf le_rfl hbefore.le hderivation
    omega

theorem Chained.not_forbidden_of_beyond (h : schedule.Chained newest)
    (hhash : GenerichashInjective B) (hkdf : KdfInjective B) {used : List Place}
    (hused : ∀ place ∈ used, place.chain ≤ newest) (hchain : chain ≤ newest)
    (hbeyond : schedule.Beyond used chain key) :
    ¬ schedule.Forbidden newest used (.chainKey key) := by
  obtain ⟨n, rfl, hn⟩ := hbeyond
  intro hforbidden
  generalize hkey : EmptyableKey.ofKey _ = key at hforbidden
  cases hforbidden with
  | chainKey hplace hle =>
      obtain ⟨rfl, rfl⟩ := h.advance_chainKey_inj hhash hkdf hchain (hused _ hplace)
        (EmptyableKey.ofKey_injective hkey)
      have hlt := hn _ hplace rfl
      omega

theorem Chained.not_forbidden_of_next (h : schedule.Chained newest)
    (hhash : GenerichashInjective B) (hkdf : KdfInjective B) {used : List Place}
    (hused : ∀ place ∈ used, place.chain ≤ newest) (input : List B) (n : ℕ) :
    ¬ schedule.Forbidden newest used (.chainKey (.ofKey ((Key.deriveSubkeyWithIndex
      (cryptoGenerichash input (schedule.rootKey newest).bytes) 2).advance n))) := by
  intro hforbidden
  generalize hkey : EmptyableKey.ofKey _ = key at hforbidden
  cases hforbidden with
  | chainKey hplace hle =>
      rename_i place m
      have heq := EmptyableKey.ofKey_injective hkey
      clear hkey hle
      induction n generalizing m with
      | zero =>
          cases m with
          | zero =>
              rw [Key.advance_zero, Key.advance_zero, chainKey_eq] at heq
              have hderivation := (Key.deriveSubkeyWithIndex_inj hkdf heq).1
              obtain ⟨before, hbefore, hroot⟩ :=
                h.rootKey_of_derivation hhash (hused _ hplace) hderivation.symm
              have hsame := h.derivation_inj hhash hkdf le_rfl hbefore.le
                (Key.deriveSubkeyWithIndex_inj hkdf hroot).1
              omega
          | succ m =>
              rw [Key.advance_zero, Key.advance_succ'] at heq
              exact absurd (Key.deriveSubkeyWithIndex_inj hkdf heq).2 (by decide)
      | succ n ih =>
          cases m with
          | zero =>
              rw [Key.advance_zero, Key.advance_succ', chainKey_eq] at heq
              exact absurd (Key.deriveSubkeyWithIndex_inj hkdf heq).2.symm
                (chainKeyIndex_ne_one _)
          | succ m =>
              rw [Key.advance_succ', Key.advance_succ'] at heq
              exact ih (Key.deriveSubkeyWithIndex_inj hkdf heq).1

section Accepting

variable {used skipped : List Place} {chain n : ℕ}

/-- A message is accepted at a place of a chain whose key is beyond all the others: the chain
key moves behind the place and behind those that are skipped before it. -/
theorem beyond_accept (schedule : Schedule B)
    (hn : ∀ place ∈ used ++ skipped, place.chain = chain → place.number < n) (count : ℕ) :
    schedule.Beyond (used ++ [⟨chain, n + count⟩] ++
      (skipped ++ Molch.places chain n (n + count))) chain
        (.ofKey ((schedule.chainKey chain).advance (n + (count + 1)))) := by
  refine ⟨_, rfl, fun place hplace hchain => ?_⟩
  simp only [List.mem_append, List.mem_singleton, mem_places] at hplace
  rcases hplace with (hused | rfl) | hskipped | ⟨-, -, hlast⟩
  · exact Nat.lt_add_right _ (hn place (List.mem_append_left _ hused) hchain)
  · exact Nat.lt_succ_self _
  · exact Nat.lt_add_right _ (hn place (List.mem_append_right _ hskipped) hchain)
  · omega

omit [Byte B] [Sodium B] in
theorem started_accept (hstarted : ∀ place ∈ used ++ skipped, place.chain ≤ newest)
    (hchain : chain ≤ newest) (m : ℕ) :
    ∀ place ∈ used ++ [⟨chain, m⟩] ++ (skipped ++ Molch.places chain n m),
      place.chain ≤ newest := by
  intro place hplace
  simp only [List.mem_append, List.mem_singleton, mem_places] at hplace
  rcases hplace with (hused | rfl) | hskipped | ⟨rfl, -⟩
  · exact hstarted place (List.mem_append_left _ hused)
  · exact hchain
  · exact hstarted place (List.mem_append_right _ hskipped)
  · exact hchain

omit [Byte B] [Sodium B] in
theorem unused_accept (hn : ∀ place ∈ used ++ skipped, place.chain = chain → place.number < n)
    (hunused : ∀ place ∈ skipped, place ∉ used) (count : ℕ) :
    ∀ place ∈ skipped ++ Molch.places chain n (n + count),
      place ∉ used ++ [⟨chain, n + count⟩] := by
  intro place hplace hused
  simp only [List.mem_append, List.mem_singleton, mem_places] at hplace hused
  rcases hplace with hskipped | ⟨hchain, hfirst, hlast⟩
  · rcases hused with hused | rfl
    · exact hunused place hskipped hused
    · have hlt := hn _ (List.mem_append_right _ hskipped) rfl
      simp only at hlt
      omega
  · rcases hused with hused | rfl
    · have hlt := hn place (List.mem_append_left _ hused) hchain
      omega
    · simp only at hlast
      omega

omit [Byte B] [Sodium B] in
theorem nodup_accept (hn : ∀ place ∈ used ++ skipped, place.chain = chain → place.number < n)
    (hnodup : skipped.Nodup) (count : ℕ) :
    (skipped ++ Molch.places chain n (n + count)).Nodup := by
  refine hnodup.append (nodup_places _ _ _) fun place hskipped hnew => ?_
  obtain ⟨hchain, hfirst, -⟩ := mem_places.mp hnew
  have hlt := hn place (List.mem_append_right _ hskipped) hchain
  omega

end Accepting

end Schedule

namespace Ratchet

/-- What a ratchet keeps. `used` are the places of the messages it has sent and received,
`skipped` those whose keys it may still hold. -/
structure Retains (schedule : Schedule B) (newest : ℕ) (used skipped : List Place)
    (ratchet : Ratchet B) : Prop where
  chained : schedule.Chained newest
  rootKey : ratchet.rootKey = .ofKey (schedule.rootKey newest)
  purportedRootKey : ratchet.purportedRootKey.empty = true ∨ ∃ derivation,
    schedule.Ahead newest derivation ∧
      ratchet.purportedRootKey = .ofKey (derivation.deriveSubkeyWithIndex 0)
  sendChainKey : ratchet.sendChainKey.empty = true ∨ ∃ chain,
    chain + ratchet.ratchetFlag.toNat = newest ∧
      schedule.Beyond used chain ratchet.sendChainKey
  receiveChainKey : ratchet.receiveChainKey.empty = true ∨ ∃ chain,
    chain + (!ratchet.ratchetFlag).toNat = newest ∧
      schedule.Beyond (used ++ skipped) chain ratchet.receiveChainKey
  purportedReceiveChainKey : ratchet.purportedReceiveChainKey.empty = true ∨
    (∃ chain, chain + (!ratchet.ratchetFlag).toNat = newest ∧
      schedule.Beyond (used ++ skipped) chain ratchet.purportedReceiveChainKey) ∨
    ratchet.ratchetFlag = false ∧ ∃ input n, ratchet.purportedReceiveChainKey =
      .ofKey ((Key.deriveSubkeyWithIndex
        (cryptoGenerichash input (schedule.rootKey newest).bytes) 2).advance n)
  started : ∀ place ∈ used ++ skipped, place.chain ≤ newest
  notSent : ∀ place ∈ skipped, place.chain + ratchet.ratchetFlag.toNat ≠ newest
  unused : ∀ place ∈ skipped, place ∉ used
  nodup : skipped.Nodup
  skippedKeys : ratchet.skippedHeaderAndMessageKeys.messageKeys.Subperm
    (skipped.map schedule.messageKey)
  staged : ratchet.stagedHeaderAndMessageKeys = .clear

namespace Retains

variable {schedule : Schedule B} {newest : ℕ} {used skipped : List Place} {ratchet : Ratchet B}

theorem started_used (h : ratchet.Retains schedule newest used skipped) :
    ∀ place ∈ used, place.chain ≤ newest :=
  fun place hplace => h.started place (List.mem_append_left _ hplace)

theorem congr (h : ratchet.Retains schedule newest used skipped) {schedule' : Schedule B}
    (hagree : ∀ chain ≤ newest, schedule' chain = schedule chain) :
    ratchet.Retains schedule' newest used skipped := by
  refine { h with
    chained := h.chained.congr hagree, rootKey := ?_, purportedRootKey := ?_, sendChainKey := ?_
    receiveChainKey := ?_, purportedReceiveChainKey := ?_, skippedKeys := ?_ }
  · rw [h.rootKey, Schedule.rootKey_congr (hagree newest le_rfl)]
  · unfold Schedule.Ahead
    rw [hagree newest le_rfl, Schedule.rootKey_congr (hagree newest le_rfl)]
    exact h.purportedRootKey
  · refine h.sendChainKey.imp_right ?_
    rintro ⟨chain, hchain, hkey⟩
    exact ⟨chain, hchain, hkey.congr (hagree chain (by omega))⟩
  · refine h.receiveChainKey.imp_right ?_
    rintro ⟨chain, hchain, hkey⟩
    exact ⟨chain, hchain, hkey.congr (hagree chain (by omega))⟩
  · rw [Schedule.rootKey_congr (hagree newest le_rfl)]
    refine h.purportedReceiveChainKey.imp_right fun hkey => hkey.imp_left ?_
    rintro ⟨chain, hchain, hkey⟩
    exact ⟨chain, hchain, hkey.congr (hagree chain (by omega))⟩
  · have hkeys : skipped.map schedule'.messageKey = skipped.map schedule.messageKey := by
      apply List.map_congr_left
      intro place hplace
      exact Schedule.messageKey_congr
        (hagree _ (h.started place (List.mem_append_right _ hplace)))
    rw [hkeys]
    exact h.skippedKeys

theorem extend (h : ratchet.Retains schedule newest used skipped) (derivation : Key B 32) :
    ∃ schedule' : Schedule B, (schedule' (newest + 1)).derivation = derivation ∧
      used.map schedule'.messageKey = used.map schedule.messageKey ∧
      ratchet.Retains schedule' newest used skipped := by
  obtain ⟨schedule', hnew, hagree⟩ := schedule.exists_continuation newest derivation
  refine ⟨schedule', hnew, ?_, h.congr hagree⟩
  apply List.map_congr_left
  intro place hplace
  exact Schedule.messageKey_congr (hagree _ (h.started_used place hplace))

theorem not_forbidden (h : ratchet.Retains schedule newest used skipped)
    (hhash : GenerichashInjective B) (hkdf : KdfInjective B) {secret : Secret B}
    (hholds : ratchet.toRatchetStorage.Holds secret) :
    ¬ schedule.Forbidden newest used secret := by
  have hempty : ∀ key : EmptyableChainKey B, key.empty = true →
      ¬ schedule.Forbidden newest used (.chainKey key) := by
    intro key hkey hforbidden
    cases hforbidden
    cases hkey
  have hbeyond : ∀ chain ≤ newest, ∀ key, schedule.Beyond used chain key →
      ¬ schedule.Forbidden newest used (.chainKey key) :=
    fun chain hchain key => h.chained.not_forbidden_of_beyond hhash hkdf h.started_used hchain
  have hroot : ∀ derivation, schedule.Ahead newest derivation →
      ¬ schedule.Forbidden newest used (.rootKey (.ofKey (derivation.deriveSubkeyWithIndex 0))) := by
    intro derivation hahead hforbidden
    generalize hkey : EmptyableKey.ofKey _ = key at hforbidden
    cases hforbidden with
    | rootKey hchain =>
        have hderivation := (Key.deriveSubkeyWithIndex_inj hkdf
          (EmptyableKey.ofKey_injective hkey)).1
        rw [hderivation] at hahead
        exact h.chained.not_ahead hhash hkdf hchain hahead
  cases hholds with
  | rootKey =>
      rw [h.rootKey]
      exact hroot _ (.inl rfl)
  | purportedRootKey =>
      rcases h.purportedRootKey with hkey | ⟨derivation, hahead, hkey⟩
      · intro hforbidden
        generalize ratchet.purportedRootKey = key at hkey hforbidden
        cases hforbidden
        cases hkey
      · rw [hkey]
        exact hroot _ hahead
  | sendChainKey =>
      rcases h.sendChainKey with hkey | ⟨chain, hchain, hkey⟩
      · exact hempty _ hkey
      · exact hbeyond chain (by omega) _ hkey
  | receiveChainKey =>
      rcases h.receiveChainKey with hkey | ⟨chain, hchain, hkey⟩
      · exact hempty _ hkey
      · exact hbeyond chain (by omega) _
          (hkey.mono fun place hplace _ => List.mem_append_left _ hplace)
  | purportedReceiveChainKey =>
      rcases h.purportedReceiveChainKey with hkey | ⟨chain, hchain, hkey⟩ | ⟨-, input, n, hkey⟩
      · exact hempty _ hkey
      · exact hbeyond chain (by omega) _
          (hkey.mono fun place hplace _ => List.mem_append_left _ hplace)
      · rw [hkey]
        exact h.chained.not_forbidden_of_next hhash hkdf h.started_used input n
  | sendHeaderKey | receiveHeaderKey | nextSendHeaderKey | nextReceiveHeaderKey
  | purportedReceiveHeaderKey | purportedNextReceiveHeaderKey | ourPublicIdentity
  | theirPublicIdentity | ourPrivateEphemeral | ourPublicEphemeral | theirPublicEphemeral
  | theirPurportedPublicEphemeral =>
      intro hforbidden
      cases hforbidden

theorem not_recoverable (h : ratchet.Retains schedule newest used skipped)
    (hhash : GenerichashInjective B) (hkdf : KdfInjective B) {place : Place}
    (hplace : place ∈ used) : ¬ ratchet.Recoverable (schedule.messageKey place) := by
  rintro (hstored | hstaged | hderivable)
  · obtain ⟨place', hskipped, heq⟩ := List.mem_map.mp (h.skippedKeys.subset hstored)
    have hsame := h.chained.messageKey_inj hhash hkdf
      (h.started place' (List.mem_append_right _ hskipped)) (h.started_used place hplace) heq
    subst hsame
    exact h.unused place' hskipped hplace
  · rw [h.staged] at hstaged
    cases hstaged
  · exact (h.chained.guards hhash hkdf h.started_used).not_mem_of_derivable
      (fun _ hholds => h.not_forbidden hhash hkdf hholds) hderivable (.messageKey hplace)

theorem ofInitialKeys {input : List B}
    (hzero : (schedule 0).derivation = cryptoGenerichash input []) (role : Role)
    (ourPublicIdentity theirPublicIdentity : PublicKey B) (ourPrivateEphemeral : PrivateKey B)
    (ourPublicEphemeral theirPublicEphemeral : PublicKey B) :
    (Ratchet.ofInitialKeys role (.ofMasterKey (schedule 0).derivation role) ourPublicIdentity
      theirPublicIdentity ourPrivateEphemeral ourPublicEphemeral
      theirPublicEphemeral).Retains schedule 0 [] [] where
  chained := ⟨⟨input, hzero⟩, fun chain hchain => absurd hchain (Nat.not_lt_zero _)⟩
  rootKey := by
    cases role with
    | alice => rfl
    | bob => rfl
  purportedRootKey := .inl rfl
  sendChainKey := by
    cases role with
    | alice => exact .inl rfl
    | bob => exact .inr ⟨0, rfl, 0, rfl, fun _ hplace => absurd hplace List.not_mem_nil⟩
  receiveChainKey := by
    cases role with
    | alice => exact .inr ⟨0, rfl, 0, rfl, fun _ hplace => absurd hplace List.not_mem_nil⟩
    | bob => exact .inl rfl
  purportedReceiveChainKey := .inl rfl
  started _ hplace := absurd hplace List.not_mem_nil
  notSent _ hplace := absurd hplace List.not_mem_nil
  unused _ hplace := absurd hplace List.not_mem_nil
  nodup := List.nodup_nil
  skippedKeys := List.Subperm.refl _
  staged := rfl

theorem advanceSendChain (h : ratchet.Retains schedule newest used skipped)
    (hflag : ratchet.ratchetFlag = false) (hempty : ratchet.sendChainKey.empty = false) :
    ∃ place, ratchet.sendChainKey.key.messageKey = schedule.messageKey place ∧
      ratchet.advanceSendChain.Retains schedule newest (used ++ [place]) skipped := by
  have hsend : schedule.Beyond used newest ratchet.sendChainKey := by
    rcases h.sendChainKey with hkey | ⟨chain, hchain, hkey⟩
    · rw [hempty] at hkey
      cases hkey
    · rw [hflag] at hchain
      exact hchain ▸ hkey
  obtain ⟨n, hkey, hn⟩ := hsend
  -- the other chain keys belong to the receiving chain
  have hother : ∀ chain key, chain + (!ratchet.ratchetFlag).toNat = newest →
      schedule.Beyond (used ++ skipped) chain key →
      schedule.Beyond (used ++ [⟨newest, n⟩] ++ skipped) chain key := by
    intro chain key hchain hbeyond
    rw [hflag, Bool.not_false, Bool.toNat_true] at hchain
    refine hbeyond.mono fun place hplace hplaceChain => ?_
    simp only [List.mem_append, List.mem_singleton] at hplace ⊢
    rcases hplace with (hplace | rfl) | hplace
    · exact .inl hplace
    · simp only at hplaceChain
      omega
    · exact .inr hplace
  refine ⟨⟨newest, n⟩, by rw [hkey]; rfl, { h with
    sendChainKey := ?_, receiveChainKey := ?_, purportedReceiveChainKey := ?_, started := ?_,
    unused := ?_ }⟩
  · refine .inr ⟨newest, by rw [show ratchet.advanceSendChain.ratchetFlag = false from hflag]; rfl,
      ?_⟩
    change schedule.Beyond _ newest (.ofKey ratchet.sendChainKey.key.nextChainKey)
    rw [hkey]
    exact Schedule.beyond_snoc hn
  · rcases h.receiveChainKey with hkey | ⟨chain, hchain, hkey⟩
    · exact .inl hkey
    · exact .inr ⟨chain, hchain, hother chain _ hchain hkey⟩
  · rcases h.purportedReceiveChainKey with hkey | ⟨chain, hchain, hkey⟩ | hkey
    · exact .inl hkey
    · exact .inr (.inl ⟨chain, hchain, hother chain _ hchain hkey⟩)
    · exact .inr (.inr hkey)
  · intro place hplace
    simp only [List.mem_append, List.mem_singleton] at hplace
    rcases hplace with (hplace | rfl) | hplace
    · exact h.started_used place hplace
    · exact le_rfl
    · exact h.started place (List.mem_append_right _ hplace)
  · intro place hplace hused
    rcases List.mem_append.mp hused with hused | hused
    · exact h.unused place hplace hused
    · have hnot := h.notSent place hplace
      rw [List.mem_singleton.mp hused, hflag] at hnot
      exact hnot rfl

/-- A new sending chain starts. The root key before it must not be left behind. -/
theorem withSendChain (h : ratchet.Retains schedule newest used skipped)
    (hflag : ratchet.ratchetFlag = true) (hclean : ratchet.purportedRootKey.empty = true)
    {input : List B} (hnew : (schedule (newest + 1)).derivation =
      cryptoGenerichash input ratchet.rootKey.key.bytes) (privateEphemeral : PrivateKey B) :
    (ratchet.withSendChain privateEphemeral (.ofDerivationKey
      (schedule (newest + 1)).derivation)).Retains schedule (newest + 1) used skipped := by
  rw [h.rootKey] at hnew
  have hreceive : ∀ chain, chain + (!ratchet.ratchetFlag).toNat = newest →
      chain + (!false).toNat = newest + 1 := by
    intro chain hchain
    rw [hflag] at hchain
    exact congrArg (· + 1) hchain
  refine { h with
    chained := h.chained.succ hnew, rootKey := rfl, purportedRootKey := .inl hclean, sendChainKey := ?_,
    receiveChainKey := ?_, purportedReceiveChainKey := ?_, started := ?_, notSent := ?_ }
  · refine .inr ⟨newest + 1, rfl, 0, rfl, fun place hplace hchain => ?_⟩
    have hle := h.started_used place hplace
    omega
  · rcases h.receiveChainKey with hkey | ⟨chain, hchain, hkey⟩
    · exact .inl hkey
    · exact .inr ⟨chain, hreceive chain hchain, hkey⟩
  · rcases h.purportedReceiveChainKey with hkey | ⟨chain, hchain, hkey⟩ | ⟨hfalse, -⟩
    · exact .inl hkey
    · exact .inr (.inl ⟨chain, hreceive chain hchain, hkey⟩)
    · rw [hflag] at hfalse
      cases hfalse
  · intro place hplace
    exact Nat.le_succ_of_le (h.started place hplace)
  · intro place hplace
    have hle := h.started place (List.mem_append_right _ hplace)
    change place.chain + 0 ≠ newest + 1
    omega

theorem remove (h : ratchet.Retains schedule newest used skipped) {index : ℕ}
    {node : HeaderAndMessageKey B}
    (hnode : ratchet.skippedHeaderAndMessageKeys.keys[index]? = some node) :
    ∃ place, node.messageKey = schedule.messageKey place ∧
      { ratchet with skippedHeaderAndMessageKeys :=
        ratchet.skippedHeaderAndMessageKeys.remove index : Ratchet B }.Retains schedule newest
          (used ++ [place]) (skipped.erase place) := by
  have hperm : ratchet.skippedHeaderAndMessageKeys.messageKeys.Perm
      (node.messageKey :: (ratchet.skippedHeaderAndMessageKeys.remove index).messageKeys) := by
    obtain ⟨hlt, hget⟩ := List.getElem?_eq_some_iff.mp hnode
    have hkeys := (List.getElem_cons_eraseIdx_perm hlt).symm
    rw [hget] at hkeys
    exact hkeys.map _
  have hkeys := hperm.symm.subperm.trans h.skippedKeys
  obtain ⟨place, hplace, heq⟩ := List.mem_map.mp (hkeys.subset List.mem_cons_self)
  have herase : (skipped.map schedule.messageKey).Perm
      (schedule.messageKey place :: (skipped.erase place).map schedule.messageKey) :=
    (List.perm_cons_erase hplace).map _
  have hmove : ∀ place', place' ∈ used ++ [place] ++ skipped.erase place →
      place' ∈ used ++ skipped := by
    intro place' hplace'
    simp only [List.mem_append, List.mem_singleton] at hplace' ⊢
    rcases hplace' with (hused | rfl) | herased
    · exact .inl hused
    · exact .inr hplace
    · exact .inr (List.mem_of_mem_erase herased)
  refine ⟨place, heq.symm, { h with
    sendChainKey := ?_, receiveChainKey := ?_, purportedReceiveChainKey := ?_, started := ?_,
    notSent := ?_, unused := ?_, nodup := h.nodup.erase place, skippedKeys := ?_ }⟩
  · rcases h.sendChainKey with hkey | ⟨chain, hchain, hkey⟩
    · exact .inl hkey
    · refine .inr ⟨chain, hchain, hkey.snoc_of_ne ?_⟩
      rintro rfl
      exact h.notSent place hplace hchain
  · rcases h.receiveChainKey with hkey | ⟨chain, hchain, hkey⟩
    · exact .inl hkey
    · exact .inr ⟨chain, hchain, hkey.mono fun place' hplace' _ => hmove place' hplace'⟩
  · rcases h.purportedReceiveChainKey with hkey | ⟨chain, hchain, hkey⟩ | hkey
    · exact .inl hkey
    · exact .inr (.inl ⟨chain, hchain, hkey.mono fun place' hplace' _ => hmove place' hplace'⟩)
    · exact .inr (.inr hkey)
  · intro place' hplace'
    exact h.started place' (hmove place' hplace')
  · intro place' hplace'
    exact h.notSent place' (List.mem_of_mem_erase hplace')
  · intro place' hplace' hused
    obtain ⟨hne, hskipped⟩ := h.nodup.mem_erase_iff.mp hplace'
    rcases List.mem_append.mp hused with hused | hnew
    · exact h.unused place' hskipped hused
    · exact hne (List.mem_singleton.mp hnew)
  · rw [← heq] at hkeys
    exact List.subperm_cons _ |>.mp (hkeys.trans herase.subperm)

theorem settle (h : ratchet.Retains schedule newest used skipped)
    (hchain : ratchet.receiveHeaderKey.isNone = false → ratchet.receiveChainKey.empty = false)
    {purported : Purported B} (hpurports : ratchet.Purports purported)
    {left : HeaderAndMessageKeyStore B}
    (hleft : left.messageKeys.Subperm (skipped.map schedule.messageKey)) :
    (ratchet.settle purported left).Retains schedule newest used skipped := by
  have hkept : (ratchet.settle { ratchet.purported with
      receiveChainKey := purported.receiveChainKey
      rootKey := purported.rootKey } left).Retains schedule newest used skipped →
      (ratchet.settle purported left).Retains schedule newest used skipped :=
    fun hretains => { hretains with }
  apply hkept
  have hsame : (ratchet.settle ratchet.purported left).Retains schedule newest used skipped :=
    { h with skippedKeys := hleft, staged := rfl }
  cases hpurports with
  | untouched => exact hsame
  | tooManySkipped => exact hsame
  | tooManySkippedBefore => exact hsame
  | noSharedSecret => exact hsame
  | currentChain messageNumber count hheader =>
      refine { hsame with purportedReceiveChainKey := ?_ }
      rcases h.receiveChainKey with hkey | ⟨chain, hplaces, n, hkey, hn⟩
      · rw [hchain hheader] at hkey
        cases hkey
      · refine .inr (.inl ⟨chain, hplaces, n + (count + 1), ?_, fun place hplace hplaceChain => ?_⟩)
        · change EmptyableKey.ofKey (ratchet.receiveChainKey.key.advance (count + 1)) = _
          rw [hkey, EmptyableKey.ofKey_key, Key.advance_advance]
        · exact Nat.lt_add_right _ (hn place hplace hplaceChain)
  | nextChain theirEphemeral messageNumber previousNumber derived count hflag hderived =>
      obtain ⟨-, secret, -, rfl⟩ := exists_of_derived hderived
      rw [h.rootKey]
      exact { hsame with
        purportedRootKey := .inr ⟨_, .inr ⟨_, rfl⟩, rfl⟩
        purportedReceiveChainKey := .inr (.inr ⟨hflag, _, _, rfl⟩) }

theorem acceptCurrent (h : ratchet.Retains schedule newest used skipped)
    (hempty : ratchet.receiveChainKey.empty = false)
    {left : HeaderAndMessageKeyStore B}
    (hleft : left.messageKeys.Subperm (skipped.map schedule.messageKey))
    (count : ℕ) (messageNumber : UInt32) (headerKey : EmptyableHeaderKey B) (w w' : World B) :
    ∃ place skipped', (ratchet.receiveChainKey.key.advance count).messageKey =
        schedule.messageKey place ∧
      (ratchet.acceptCurrent messageNumber (ratchet.receiveChainKey.key.advance (count + 1))
        (committedKeys left (stagedKeys headerKey count ratchet.receiveChainKey.key
          ratchet.stagedHeaderAndMessageKeys w).1 w')).Retains schedule newest
            (used ++ [place]) skipped' := by
  obtain ⟨chain, hchain, n, hkey, hn⟩ : ∃ chain, chain + (!ratchet.ratchetFlag).toNat = newest ∧
      schedule.Beyond (used ++ skipped) chain ratchet.receiveChainKey := by
    rcases h.receiveChainKey with hkey | hkey
    · rw [hempty] at hkey
      cases hkey
    · exact hkey
  have hchainKey : ratchet.receiveChainKey.key = (schedule.chainKey chain).advance n := by
    rw [hkey]
    rfl
  rw [hchainKey, Key.advance_advance, Key.advance_advance, h.staged]
  have hnotSend : chain + ratchet.ratchetFlag.toNat ≠ newest := by
    rw [← hchain]
    cases ratchet.ratchetFlag <;> simp
  have hbeyond := schedule.beyond_accept hn count
  refine ⟨⟨chain, n + count⟩, skipped ++ places chain n (n + count), rfl, { h with
    sendChainKey := ?_, receiveChainKey := .inr ⟨chain, hchain, hbeyond⟩
    purportedReceiveChainKey := .inr (.inl ⟨chain, hchain, hbeyond⟩)
    started := Schedule.started_accept h.started (Nat.le.intro hchain) _
    notSent := ?_, unused := Schedule.unused_accept hn h.unused count
    nodup := Schedule.nodup_accept hn h.nodup count, skippedKeys := ?_, staged := rfl }⟩
  · rcases h.sendChainKey with hsend | ⟨chain', hchain', hsend⟩
    · exact .inl hsend
    · refine .inr ⟨chain', hchain', hsend.snoc_of_ne ?_⟩
      rintro rfl
      exact hnotSend hchain'
  · intro place hplace
    rcases List.mem_append.mp hplace with hskipped | hnew
    · exact h.notSent place hskipped
    · rw [(mem_places.mp hnew).1]
      exact hnotSend
  · refine (committedKeys_subperm _ _ _).trans ?_
    rw [List.map_append, map_messageKey_places]
    exact hleft.append (stagedKeys_subperm headerKey count _ .clear w)

theorem stagedRest (h : ratchet.Retains schedule newest used skipped)
    (hflag : ratchet.ratchetFlag = false) (previousNumber : UInt32) (w : World B) :
    ∃ rest : List Place, rest.Nodup ∧
      (∀ place ∈ rest, place.chain + 1 = newest ∧ place ∉ used ++ skipped) ∧
      (ratchet.stagedRest previousNumber w).1.messageKeys.Subperm
        (rest.map schedule.messageKey) := by
  unfold Ratchet.stagedRest
  split
  · rw [h.staged]
    exact ⟨[], List.nodup_nil, fun place hplace => absurd hplace List.not_mem_nil,
      List.Subperm.refl _⟩
  · rename_i hnone
    have hempty := EmptyableKey.empty_eq_false_of_isNone (Bool.not_eq_true _ ▸ hnone)
    rcases h.receiveChainKey with hkey | ⟨chain, hchain, n, hkey, hn⟩
    · rw [hempty] at hkey
      cases hkey
    · rw [hflag] at hchain
      refine ⟨places chain n (n + ratchet.skippedCount previousNumber), nodup_places _ _ _,
        fun place hplace => ?_, ?_⟩
      · obtain ⟨rfl, hfirst, -⟩ := mem_places.mp hplace
        refine ⟨hchain, fun hold => ?_⟩
        have hlt := hn place hold rfl
        omega
      · rw [map_messageKey_places, h.staged, hkey]
        exact stagedKeys_subperm _ _ _ .clear w

theorem acceptNext (h : ratchet.Retains schedule newest used skipped)
    (hflag : ratchet.ratchetFlag = false) {left : HeaderAndMessageKeyStore B}
    (hleft : left.messageKeys.Subperm (skipped.map schedule.messageKey)) {input : List B}
    (hnew : (schedule (newest + 1)).derivation =
      cryptoGenerichash input ratchet.rootKey.key.bytes)
    (theirEphemeral : PublicKey B) (messageNumber previousNumber : UInt32) (count : ℕ)
    (headerKey : EmptyableHeaderKey B) (w w' w'' : World B) :
    let derived := DerivedRootNextHeadAndChainKey.ofDerivationKey
      (schedule (newest + 1)).derivation
    ∃ place skipped', (derived.chainKey.advance count).messageKey = schedule.messageKey place ∧
      (ratchet.acceptNext theirEphemeral messageNumber previousNumber derived
        (derived.chainKey.advance (count + 1))
        (committedKeys left (stagedKeys headerKey count derived.chainKey
          (ratchet.stagedRest previousNumber w).1 w').1 w'')).Retains schedule (newest + 1)
            (used ++ [place]) skipped' := by
  intro derived
  obtain ⟨rest, hrestNodup, hrest, hrestKeys⟩ := h.stagedRest hflag previousNumber w
  rw [h.rootKey] at hnew
  have hold : ∀ place ∈ used ++ (skipped ++ rest), place.chain ≤ newest := by
    intro place hplace
    rw [← List.append_assoc] at hplace
    rcases List.mem_append.mp hplace with hplace | hplace
    · exact h.started place hplace
    · exact Nat.le.intro (hrest place hplace).1
  have hunused : ∀ place ∈ skipped ++ rest, place ∉ used := by
    intro place hplace hused
    rcases List.mem_append.mp hplace with hskipped | hrestPlace
    · exact h.unused place hskipped hused
    · exact (hrest place hrestPlace).2 (List.mem_append_left _ hused)
  have hnodup : (skipped ++ rest).Nodup :=
    h.nodup.append hrestNodup fun place hskipped hrestPlace =>
      (hrest place hrestPlace).2 (List.mem_append_right _ hskipped)
  -- nothing has been sent or received on the new chain
  have hn : ∀ place ∈ used ++ (skipped ++ rest), place.chain = newest + 1 → place.number < 0 := by
    intro place hplace hchain
    have hle := hold place hplace
    omega
  have hbeyond := schedule.beyond_accept hn count
  rw [Nat.zero_add, Nat.zero_add] at hbeyond
  refine ⟨⟨newest + 1, count⟩, skipped ++ rest ++ places (newest + 1) 0 count, rfl,
    { h with
      chained := h.chained.succ hnew, rootKey := rfl, purportedRootKey := .inr ⟨_, .inl rfl, rfl⟩
      sendChainKey := ?_, receiveChainKey := .inr ⟨newest + 1, rfl, hbeyond⟩
      purportedReceiveChainKey := .inr (.inl ⟨newest + 1, rfl, hbeyond⟩)
      started := Schedule.started_accept
        (fun place hplace => Nat.le_succ_of_le (hold place hplace)) le_rfl count
      notSent := ?_, unused := ?_, nodup := ?_, skippedKeys := ?_, staged := rfl }⟩
  · rcases h.sendChainKey with hsend | ⟨chain, hchain, hsend⟩
    · exact .inl hsend
    · rw [hflag] at hchain
      refine .inr ⟨chain, congrArg (· + 1) hchain, hsend.snoc_of_ne ?_⟩
      simp only [Bool.toNat_false] at hchain ⊢
      omega
  · intro place hplace
    change place.chain + 1 ≠ newest + 1
    simp only [List.mem_append, mem_places] at hplace
    rcases hplace with (hskipped | hrestPlace) | ⟨hplaceChain, -⟩
    · have hnot := h.notSent place hskipped
      rw [hflag] at hnot
      simp only [Bool.toNat_false] at hnot
      omega
    · have hchain := (hrest place hrestPlace).1
      omega
    · omega
  · have hnew := Schedule.unused_accept hn hunused count
    rwa [Nat.zero_add] at hnew
  · have hnew := Schedule.nodup_accept hn hnodup count
    rwa [Nat.zero_add] at hnew
  · refine (committedKeys_subperm _ _ _).trans ?_
    have hplaces := map_messageKey_places schedule (newest + 1) 0 count
    rw [Nat.zero_add] at hplaces
    rw [List.append_assoc, List.map_append, List.map_append, hplaces]
    exact hleft.append ((stagedKeys_subperm headerKey count _ _ w').trans
      (hrestKeys.append (List.Subperm.refl _)))

end Retains

end Ratchet

end Molch
