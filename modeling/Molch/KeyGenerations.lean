import Molch.Foundation.Lineage
import Molch.Recoverable
import Molch.WellFormed

namespace Molch

open Sodium Lineage

variable {B : Type} [Byte B] [Sodium B] {origin : Key B 32 → Prop}

/-- The derivation key of a new conversation. -/
def Initial (derivation : Key B 32) : Prop := ∃ input, derivation = cryptoGenerichash input []

/-- The later derivation key contains the root key that comes from the earlier one. -/
def Precedes (derivation derivation' : Key B 32) : Prop :=
  ∃ input, derivation' = cryptoGenerichash input (derivation.deriveSubkeyWithIndex 0).bytes

/-- The derivation keys so many steps after one of the given ones. -/
abbrev DerivationOf (origin : Key B 32 → Prop) (n : ℕ) (derivation : Key B 32) : Prop :=
  Generation origin Precedes n derivation

theorem unique_derivation (hhash : GenerichashInjective B) (hkdf : KdfInjective B) :
    Unique (Initial (B := B)) Precedes where
  root_ne := by
    rintro derivation derivation' ⟨input, rfl⟩ ⟨input', heq⟩
    have hlength := congrArg List.length (hhash _ _ _ _ heq).2
    rw [Key.length_bytes] at hlength
    cases hlength
  parent_eq := by
    rintro derivation derivation' _ ⟨input, rfl⟩ ⟨input', heq⟩
    exact (Key.deriveSubkeyWithIndex_inj hkdf (Key.ext (hhash _ _ _ _ heq).2)).1

theorem Schedule.Chained.derivationOf {schedule : Schedule B} {newest : ℕ}
    (h : schedule.Chained newest) {chain : ℕ} (hchain : chain ≤ newest) :
    DerivationOf Initial chain (schedule chain).derivation := by
  induction chain with
  | zero => exact .root h.first
  | succ chain ih => exact (ih (Nat.le_of_succ_le hchain)).child (h.next chain hchain)

/-- The root, chain and message keys that come from a derivation key. -/
inductive Stems (derivation : Key B 32) : Secret B → Prop
  | rootKey : Stems derivation (.rootKey (.ofKey (derivation.deriveSubkeyWithIndex 0)))
  | chainKey {i : UInt32} (hi : i ≠ 1) (n : ℕ) :
      Stems derivation (.chainKey (.ofKey ((derivation.deriveSubkeyWithIndex i).advance n)))
  | messageKey {i : UInt32} (hi : i ≠ 1) (n : ℕ) :
      Stems derivation (.messageKey ((derivation.deriveSubkeyWithIndex i).advance n).messageKey)

section Injectivity

variable {derivation derivation' : Key B 32} {i i' : UInt32}

theorem advance_subkey_inj (hkdf : KdfInjective B) (hi : i ≠ 1) (hi' : i' ≠ 1) {n n' : ℕ}
    (h : (derivation.deriveSubkeyWithIndex i).advance n =
      (derivation'.deriveSubkeyWithIndex i').advance n') : derivation = derivation' := by
  induction n generalizing n' with
  | zero =>
      cases n' with
      | zero => exact (Key.deriveSubkeyWithIndex_inj hkdf h).1
      | succ n' =>
          rw [Key.advance_succ'] at h
          exact absurd (Key.deriveSubkeyWithIndex_inj hkdf h).2 hi
  | succ n ih =>
      cases n' with
      | zero =>
          rw [Key.advance_succ'] at h
          exact absurd (Key.deriveSubkeyWithIndex_inj hkdf h).2.symm hi'
      | succ n' =>
          rw [Key.advance_succ', Key.advance_succ'] at h
          exact ih (Key.deriveSubkeyWithIndex_inj hkdf h).1

theorem Stems.derivation_eq (hkdf : KdfInjective B) {secret : Secret B}
    (h : Stems derivation secret) (h' : Stems derivation' secret) : derivation = derivation' := by
  cases h with
  | rootKey =>
      generalize hkey : EmptyableKey.ofKey _ = key at h'
      cases h'
      exact (Key.deriveSubkeyWithIndex_inj hkdf (EmptyableKey.ofKey_injective hkey)).1
  | chainKey hi n =>
      generalize hkey : EmptyableKey.ofKey _ = key at h'
      cases h' with
      | chainKey hi' n' =>
          exact advance_subkey_inj hkdf hi hi' (EmptyableKey.ofKey_injective hkey)
  | messageKey hi n =>
      generalize hkey : ((derivation.deriveSubkeyWithIndex _).advance n).messageKey = key at h'
      cases h' with
      | messageKey hi' n' =>
          exact advance_subkey_inj hkdf hi hi' (Key.deriveSubkeyWithIndex_inj hkdf hkey).1

end Injectivity

/-- A key up to a generation after one of the given derivation keys, or one that counts as
none. -/
inductive UpTo (origin : Key B 32 → Prop) (bound : ℕ) : Secret B → Prop
  | noRootKey {key : EmptyableRootKey B} (h : key.isNone = true) :
      UpTo origin bound (.rootKey key)
  | noChainKey {key : EmptyableChainKey B} (h : key.isNone = true) :
      UpTo origin bound (.chainKey key)
  | stems {n : ℕ} {derivation : Key B 32} {secret : Secret B} (hn : n ≤ bound)
      (hderivation : DerivationOf origin n derivation) (h : Stems derivation secret) :
      UpTo origin bound secret

namespace UpTo

variable {bound bound' : ℕ} {secret : Secret B}

theorem mono (h : UpTo origin bound secret) (hbound : bound ≤ bound') :
    UpTo origin bound' secret := by
  cases h with
  | noRootKey h => exact .noRootKey h
  | noChainKey h => exact .noChainKey h
  | stems hn hderivation h => exact .stems (hn.trans hbound) hderivation h

theorem advance {key : EmptyableChainKey B} (h : UpTo origin bound (.chainKey key))
    (hnone : key.isNone = false) (m : ℕ) :
    UpTo origin bound (.chainKey (.ofKey (key.key.advance m))) ∧
      UpTo origin bound (.messageKey (key.key.advance m).messageKey) := by
  cases h with
  | noChainKey h =>
      rw [hnone] at h
      cases h
  | stems hn hderivation h =>
      cases h with
      | chainKey hi n =>
          rw [EmptyableKey.ofKey_key, Key.advance_advance]
          exact ⟨.stems hn hderivation (.chainKey hi _), .stems hn hderivation (.messageKey hi _)⟩

end UpTo

namespace Ratchet

/-- The root key is what that many steps have made of the first one. -/
def Turned (origin : Key B 32 → Prop) (n : ℕ) (ratchet : Ratchet B) : Prop :=
  ∃ derivation, DerivationOf origin n derivation ∧
    ratchet.rootKey = .ofKey (derivation.deriveSubkeyWithIndex 0)

/-- The sending chain comes from our ephemeral key and the one of the peer. -/
def SendsFrom (derivation : Key B 32) (ratchet : Ratchet B) : Prop :=
  ∃ (secret : Key B 32) (rootKey : List B) (n : ℕ),
    diffieHellman ratchet.ourPrivateEphemeral ratchet.ourPublicEphemeral
      ratchet.theirPublicEphemeral ratchet.role = .ok secret ∧
    derivation = cryptoGenerichash secret.bytes rootKey ∧
    ratchet.sendChainKey = .ofKey ((derivation.deriveSubkeyWithIndex 2).advance n)

/-- The generations of the keys of a ratchet that has turned `n` times. -/
structure AtGeneration (origin : Key B 32 → Prop) (n : ℕ) (ratchet : Ratchet B) : Prop where
  turned : ratchet.Turned origin n
  purportedRootKey : UpTo origin (n + 1) (.rootKey ratchet.purportedRootKey)
  sendChainKey : UpTo origin (n + 1) (.chainKey ratchet.sendChainKey)
  receiveChainKey : UpTo origin (n + 1) (.chainKey ratchet.receiveChainKey)
  purportedReceiveChainKey : UpTo origin (n + 1) (.chainKey ratchet.purportedReceiveChainKey)
  skipped : ∀ key ∈ ratchet.skippedHeaderAndMessageKeys.keys,
    UpTo origin (n + 1) (.messageKey key.messageKey)
  sending : ratchet.ratchetFlag = false → 0 < n →
    ∃ derivation, DerivationOf origin n derivation ∧ ratchet.SendsFrom derivation

theorem Turned.unique (hhash : GenerichashInjective B) (hkdf : KdfInjective B)
    {ratchet : Ratchet B} {n n' : ℕ} (h : ratchet.Turned Initial n)
    (h' : ratchet.Turned Initial n') : n = n' := by
  obtain ⟨derivation, hderivation, hkey⟩ := h
  obtain ⟨derivation', hderivation', hkey'⟩ := h'
  rw [hkey] at hkey'
  rw [(Key.deriveSubkeyWithIndex_inj hkdf (EmptyableKey.ofKey_injective hkey')).1] at hderivation
  exact hderivation.unique (unique_derivation hhash hkdf) hderivation'

theorem Turned.exists_of_derived {ratchet : Ratchet B} {n : ℕ} (h : ratchet.Turned origin n)
    {ourPrivate : PrivateKey B} {ourPublic theirPublic : PublicKey B} {role : Role}
    {derived : DerivedRootNextHeadAndChainKey B}
    (hderived : deriveRootNextHeaderAndChainKeys ourPrivate ourPublic theirPublic ratchet.rootKey
      role = .ok derived) :
    ∃ secret derivation, diffieHellman ourPrivate ourPublic theirPublic role = .ok secret ∧
      derivation = cryptoGenerichash secret.bytes ratchet.rootKey.key.bytes ∧
      derived = .ofDerivationKey derivation ∧ DerivationOf origin (n + 1) derivation := by
  obtain ⟨-, secret, hsecret, rfl⟩ := Molch.exists_of_derived hderived
  obtain ⟨derivation, hderivation, hkey⟩ := h
  refine ⟨secret, _, hsecret, rfl, rfl, hderivation.child ⟨secret.bytes, ?_⟩⟩
  rw [hkey]
  rfl

namespace AtGeneration

variable {n : ℕ} {ratchet : Ratchet B}

theorem holds (h : ratchet.AtGeneration origin n) {secret : Secret B}
    (hholds : ratchet.toRatchetStorage.Holds secret) :
    UpTo origin (n + 1) secret ∨ (∃ key, secret = .headerKey key) ∨
      (∃ key, secret = .privateKey key) ∨ ∃ key, secret = .publicKey key := by
  cases hholds with
  | rootKey =>
      obtain ⟨derivation, hderivation, hkey⟩ := h.turned
      rw [hkey]
      exact .inl (.stems (Nat.le_succ n) hderivation .rootKey)
  | purportedRootKey => exact .inl h.purportedRootKey
  | sendChainKey => exact .inl h.sendChainKey
  | receiveChainKey => exact .inl h.receiveChainKey
  | purportedReceiveChainKey => exact .inl h.purportedReceiveChainKey
  | sendHeaderKey | receiveHeaderKey | nextSendHeaderKey | nextReceiveHeaderKey
  | purportedReceiveHeaderKey | purportedNextReceiveHeaderKey => exact .inr (.inl ⟨_, rfl⟩)
  | ourPrivateEphemeral => exact .inr (.inr (.inl ⟨_, rfl⟩))
  | ourPublicIdentity | theirPublicIdentity | ourPublicEphemeral | theirPublicEphemeral
  | theirPurportedPublicEphemeral => exact .inr (.inr (.inr ⟨_, rfl⟩))

theorem ofInitialKeys {masterKey : Key B 32} (horigin : origin masterKey) (role : Role)
    (ourPublicIdentity theirPublicIdentity : PublicKey B) (ourPrivateEphemeral : PrivateKey B)
    (ourPublicEphemeral theirPublicEphemeral : PublicKey B) :
    (Ratchet.ofInitialKeys role (.ofMasterKey masterKey role) ourPublicIdentity
      theirPublicIdentity ourPrivateEphemeral ourPublicEphemeral
      theirPublicEphemeral).AtGeneration origin 0 := by
  have hroot : DerivationOf origin 0 masterKey := .root horigin
  have hchain : UpTo origin 1 (.chainKey (.ofKey (masterKey.deriveSubkeyWithIndex 4))) :=
    .stems (Nat.zero_le 1) hroot (.chainKey (by decide) 0)
  cases role with
  | alice =>
      exact ⟨⟨_, hroot, rfl⟩, .noRootKey rfl, .noChainKey rfl, hchain, .noChainKey rfl,
        fun key hkey => (by cases hkey), fun _ h => absurd h (Nat.lt_irrefl 0)⟩
  | bob =>
      exact ⟨⟨_, hroot, rfl⟩, .noRootKey rfl, hchain, .noChainKey rfl, .noChainKey rfl,
        fun key hkey => (by cases hkey), fun _ h => absurd h (Nat.lt_irrefl 0)⟩

theorem advanceSendChain (h : ratchet.AtGeneration origin n)
    (hnone : ratchet.sendChainKey.isNone = false) :
    ratchet.advanceSendChain.AtGeneration origin n := by
  have hnext := (h.sendChainKey.advance hnone 1).1
  rw [Key.advance_succ', Key.advance_zero] at hnext
  refine { h with sendChainKey := hnext, sending := fun hflag hn => ?_ }
  obtain ⟨derivation, hderivation, secret, rootKey, m, hsecret, heq, hchain⟩ := h.sending hflag hn
  refine ⟨derivation, hderivation, secret, rootKey, m + 1, hsecret, heq, ?_⟩
  change EmptyableKey.ofKey ratchet.sendChainKey.key.nextChainKey = _
  rw [hchain, EmptyableKey.ofKey_key, Key.advance_succ']

variable {derived : DerivedRootNextHeadAndChainKey B}

theorem withSendChain (h : ratchet.AtGeneration origin n) {privateEphemeral : PrivateKey B}
    (hderived : deriveRootNextHeaderAndChainKeys privateEphemeral
      (cryptoScalarmultBase privateEphemeral) ratchet.theirPublicEphemeral ratchet.rootKey
      ratchet.role = .ok derived) :
    (ratchet.withSendChain privateEphemeral derived).AtGeneration origin (n + 1) := by
  obtain ⟨secret, derivation, hsecret, heq, rfl, hderivation⟩ :=
    h.turned.exists_of_derived hderived
  exact
    { turned := ⟨derivation, hderivation, rfl⟩
      purportedRootKey := h.purportedRootKey.mono (Nat.le_succ _)
      sendChainKey := .stems (Nat.le_succ _) hderivation (.chainKey (by decide) 0)
      receiveChainKey := h.receiveChainKey.mono (Nat.le_succ _)
      purportedReceiveChainKey := h.purportedReceiveChainKey.mono (Nat.le_succ _)
      skipped := fun key hkey => (h.skipped key hkey).mono (Nat.le_succ _)
      sending := fun _ _ => ⟨derivation, hderivation, secret, _, 0, hsecret, heq, rfl⟩ }

theorem settle (h : ratchet.AtGeneration origin n)
    (hchain : ratchet.receiveHeaderKey.isNone = false → ratchet.receiveChainKey.isNone = false)
    {purported : Purported B} (hpurports : ratchet.Purports purported)
    {left : HeaderAndMessageKeyStore B}
    (hleft : ∀ key ∈ left.keys, key ∈ ratchet.skippedHeaderAndMessageKeys.keys) :
    (ratchet.settle purported left).AtGeneration origin n := by
  have hsame : (ratchet.settle ratchet.purported left).AtGeneration origin n :=
    { h with skipped := fun key hkey => h.skipped key (hleft key hkey) }
  cases hpurports with
  | untouched => exact hsame
  | tooManySkipped => exact { hsame with }
  | tooManySkippedBefore => exact { hsame with }
  | noSharedSecret => exact { hsame with }
  | currentChain messageNumber count hheader =>
      exact { hsame with
        purportedReceiveChainKey := (h.receiveChainKey.advance (hchain hheader) (count + 1)).1 }
  | nextChain theirEphemeral messageNumber previousNumber derived count hflag hderived =>
      obtain ⟨-, derivation, -, -, rfl, hderivation⟩ := h.turned.exists_of_derived hderived
      exact { hsame with
        purportedRootKey := .stems le_rfl hderivation .rootKey
        purportedReceiveChainKey := .stems le_rfl hderivation (.chainKey (by decide) count) }

theorem acceptCurrent (h : ratchet.AtGeneration origin n)
    (hnone : ratchet.receiveChainKey.isNone = false) (messageNumber : UInt32) (count : ℕ)
    {skipped : HeaderAndMessageKeyStore B}
    (hskipped : ∀ key ∈ skipped.keys, UpTo origin (n + 1) (.messageKey key.messageKey)) :
    (ratchet.acceptCurrent messageNumber (ratchet.receiveChainKey.key.advance (count + 1))
      skipped).AtGeneration origin n :=
  have hnext := (h.receiveChainKey.advance hnone (count + 1)).1
  { h with
    receiveChainKey := hnext
    purportedReceiveChainKey := hnext
    skipped := hskipped }

theorem acceptNext (h : ratchet.AtGeneration origin n) {derivation : Key B 32}
    (hderivation : DerivationOf origin (n + 1) derivation) (theirEphemeral : PublicKey B)
    (messageNumber previousNumber : UInt32) (count : ℕ) {skipped : HeaderAndMessageKeyStore B}
    (hskipped : ∀ key ∈ skipped.keys, UpTo origin (n + 2) (.messageKey key.messageKey)) :
    (ratchet.acceptNext theirEphemeral messageNumber previousNumber (.ofDerivationKey derivation)
      ((Key.deriveSubkeyWithIndex derivation 2).advance (count + 1)) skipped).AtGeneration
        origin (n + 1) := by
  have hchain : UpTo origin (n + 2) (.chainKey (.ofKey
      ((Key.deriveSubkeyWithIndex derivation 2).advance (count + 1)))) :=
    .stems (Nat.le_succ _) hderivation (.chainKey (by decide) _)
  exact
    { turned := ⟨derivation, hderivation, rfl⟩
      purportedRootKey := .stems (Nat.le_succ _) hderivation .rootKey
      sendChainKey := h.sendChainKey.mono (Nat.le_succ _)
      receiveChainKey := hchain
      purportedReceiveChainKey := hchain
      skipped := hskipped
      sending := fun hflag => by cases hflag }

theorem restored (h : ratchet.AtGeneration origin n) (hwell : ratchet.WellFormed) :
    ratchet.restored.AtGeneration origin n := by
  have hkey : ∀ key : EmptyableChainKey B, key.Canonical → UpTo origin (n + 1) (.chainKey key) →
      UpTo origin (n + 1) (.chainKey key.restored) := by
    intro key hcanonical hkey
    cases hempty : key.empty with
    | false =>
        rw [EmptyableKey.restored_eq hempty]
        exact hkey
    | true =>
        refine .noChainKey ?_
        rw [isNone_restored hcanonical, hcanonical hempty]
        rfl
  exact
    { turned := h.turned
      purportedRootKey := h.purportedRootKey
      sendChainKey := hkey _ hwell.sendChainKey_canonical h.sendChainKey
      receiveChainKey := hkey _ hwell.receiveChainKey_canonical h.receiveChainKey
      purportedReceiveChainKey := h.purportedReceiveChainKey
      skipped := by
        intro key hmem
        obtain ⟨old, hold, rfl⟩ := List.mem_map.mp hmem
        exact h.skipped old hold
      sending := by
        intro hflag hn
        obtain ⟨derivation, hderivation, secret, rootKey, m, hsecret, heq, hchain⟩ :=
          h.sending hflag hn
        refine ⟨derivation, hderivation, secret, rootKey, m, hsecret, heq, ?_⟩
        change ratchet.sendChainKey.restored = _
        rw [hchain]
        rfl }

end AtGeneration

end Ratchet

namespace Conversation

open Ratchet

variable [ProtobufC B] [Platform] {conversation : Conversation B} {n : ℕ}

theorem atGeneration_received (h : conversation.ratchet.AtGeneration origin n)
    (hwell : conversation.ratchet.WellFormed) {packet : List B} {w : World B}
    {result : Except Error (ReceivedMessage B)} {conversation' : Conversation B}
    (hreceived : Received conversation packet w result conversation') :
    ∃ n', conversation'.ratchet.AtGeneration origin n' := by
  have hleftMem : ∀ {left}, conversation.SkippedLeft packet left → ∀ key ∈ left.keys,
      key ∈ conversation.ratchet.skippedHeaderAndMessageKeys.keys :=
    fun hleft key hkey => mem_of_skippedLeft hleft hkey
  cases hreceived with
  | skipped =>
      exact ⟨n, { h with
        skipped := fun key hkey =>
          h.skipped key (HeaderAndMessageKeyStore.mem_of_mem_remove hkey) }⟩
  | rejected hleft hpurported =>
      exact ⟨n, h.settle hwell.receiveChainKey hpurported (hleftMem hleft)⟩
  | currentChain hleft hopen hheader hnone hskip hcount hstaged hmessage =>
      have hchain := hwell.receiveChainKey hnone
      refine ⟨n, h.acceptCurrent hchain _ _ fun key hkey => ?_⟩
      rcases mem_committedKeys hkey with hkey | hkey
      · exact h.skipped key (hleftMem hleft key hkey)
      · rw [hstaged, hwell.staged] at hkey
        rcases mem_stagedKeys hkey with hkey | ⟨-, ⟨i, -, hmessageKey⟩, -⟩
        · cases hkey
        · rw [hmessageKey]
          exact (h.receiveChainKey.advance hchain i).2
  | nextChain hleft hcurrent hopen hheader hflag hrest hderived hskip hstagedRest hstaged
      hmessage =>
      obtain ⟨-, derivation, -, -, rfl, hderivation⟩ := h.turned.exists_of_derived hderived
      refine ⟨n + 1, h.acceptNext hderivation _ _ _ _ fun key hkey => ?_⟩
      rcases mem_committedKeys hkey with hkey | hkey
      · exact (h.skipped key (hleftMem hleft key hkey)).mono (Nat.le_succ _)
      · rw [hstaged] at hkey
        rcases mem_stagedKeys hkey with hkey | ⟨-, ⟨i, -, hmessageKey⟩, -⟩
        · rw [hstagedRest, stagedRest, hwell.staged] at hkey
          split at hkey
          · cases hkey
          · rename_i hchain
            rcases mem_stagedKeys hkey with hkey | ⟨-, ⟨i, -, hmessageKey⟩, -⟩
            · cases hkey
            · rw [hmessageKey]
              exact (h.receiveChainKey.advance (by simpa using hchain) i).2.mono (Nat.le_succ _)
        · rw [hmessageKey]
          exact .stems (Nat.le_succ _) hderivation (.messageKey (by decide) i)

omit [ProtobufC B] [Platform] in
theorem atGeneration_getSendData (hkdf : KdfNonzero B) {ratchet ratchet' : Ratchet B}
    (h : ratchet.AtGeneration origin n) (hwell : ratchet.WellFormed) {data : SendData B}
    {w w' : World B} (hdata : ratchet.getSendData w = (.ok data, ratchet', w')) :
    ∃ n', ratchet'.AtGeneration origin n' := by
  rcases getSendData_cases hdata with ⟨hflag, -, headerKey, -, -, rfl⟩ |
    ⟨-, derived, hderived, -, rfl⟩
  · exact ⟨n, h.advanceSendChain (hwell.sendChainKey hflag)⟩
  · exact ⟨n + 1, (h.withSendChain hderived).advanceSendChain
      (derived_chainKey_isNone hkdf hderived)⟩

theorem atGeneration_call (hkdf : KdfNonzero B) (h : conversation.ratchet.AtGeneration origin n)
    (hwell : conversation.ratchet.WellFormed) (c : Call B) :
    ∃ n', (conversation.call c).2.ratchet.AtGeneration origin n' := by
  cases c with
  | send message prekeyMetadata w =>
      obtain ⟨data, ratchet, w', hdata, hkey, -⟩ := hwell.getSendData hkdf w
      obtain ⟨packet, w'', hsend, -⟩ := send_of_getSendData hdata hkey message prekeyMetadata
      rw [call, hsend]
      exact atGeneration_getSendData hkdf h hwell hdata
  | receive packet w =>
      exact atGeneration_received h hwell (WellFormed.receive_cases hkdf hwell packet w)

omit [ProtobufC B] [Platform] in
theorem Created.exists_masterKey (h : conversation.Created) :
    ∃ masterKey, Initial masterKey ∧
      conversation.ratchet.rootKey = .ofKey (masterKey.deriveSubkeyWithIndex 0) ∧
      ∀ origin : Key B 32 → Prop, origin masterKey →
        conversation.ratchet.AtGeneration origin 0 := by
  obtain ⟨_, _, _, _, _, _, w, w', -, hcreate⟩ := h
  obtain ⟨role, masterKey, -, hmaster, heq⟩ :=
    Ratchet.exists_of_create (ratchet_of_create hcreate)
  obtain ⟨-, input, rfl⟩ := exists_of_tripleDiffieHellman hmaster
  refine ⟨cryptoGenerichash input [], ⟨input, rfl⟩, ?_, fun origin horigin => ?_⟩
  · rw [heq]
    cases role with
    | alice => rfl
    | bob => rfl
  · rw [heq]
    exact .ofInitialKeys horigin role _ _ _ _ _

omit [ProtobufC B] [Platform] in
theorem Created.atGeneration (h : conversation.Created) :
    conversation.ratchet.AtGeneration Initial 0 := by
  obtain ⟨masterKey, hinitial, -, hat⟩ := h.exists_masterKey
  exact hat Initial hinitial

theorem Reachable.atGeneration (hkdf : KdfNonzero B) (hpoint : ScalarmultFailsByPoint B)
    {readings : World B → Prop} (h : Reachable readings conversation) :
    ∃ n, conversation.ratchet.AtGeneration Initial n := by
  induction h with
  | create hpair h => exact ⟨0, Created.atGeneration ⟨_, _, _, _, _, _, _, _, hpair, h⟩⟩
  | send h message prekeyMetadata hw ih =>
      rename_i conversation w
      obtain ⟨n, hn⟩ := ih
      exact atGeneration_call hkdf hn (h.wellFormed hkdf hpoint) (.send message prekeyMetadata w)
  | receive h packet hw ih =>
      obtain ⟨n, hn⟩ := ih
      exact atGeneration_call hkdf hn (h.wellFormed hkdf hpoint) (.receive packet _)
  | restore h hexport himport ih =>
      obtain ⟨n, hn⟩ := ih
      have hwell := h.wellFormed hkdf hpoint
      rw [import_exportProtobuf hexport hwell.purported_canonical] at himport
      cases himport
      exact ⟨n, hn.restored hwell⟩

end Conversation

end Molch
