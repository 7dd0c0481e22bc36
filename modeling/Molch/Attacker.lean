import Molch.SealedKeys

/-!
Somebody who can do everything that the library does, also start conversations of his own. The
keys of a conversation stay secret from him as long as he lacks both private keys of one of the
three Diffie-Hellmans with which it has been created.
-/

namespace Molch

open Sodium Lineage Relation

variable {B : Type} [Byte B] [Sodium B]

section Handshake

variable {ourPrivateIdentity ourPrivateEphemeral : PrivateKey B}
  {ourPublicIdentity theirPublicIdentity ourPublicEphemeral theirPublicEphemeral : PublicKey B}
  {role : Role}

/-- Two keys in the order of `triple_diffie_hellman`, where the first is ours. -/
def Role.arrange (ours theirs : Key B 32) : Role → List B
  | .alice => ours.bytes ++ theirs.bytes
  | .bob => theirs.bytes ++ ours.bytes

omit [Byte B] in
theorem exists_secrets_of_tripleDiffieHellman {masterKey : EmptyableKey B 32}
    (h : tripleDiffieHellman ourPrivateIdentity ourPublicIdentity ourPrivateEphemeral
      ourPublicEphemeral theirPublicIdentity theirPublicEphemeral role = .ok masterKey) :
    ∃ ours theirs both,
      diffieHellman ourPrivateIdentity ourPublicIdentity theirPublicEphemeral role = .ok ours ∧
      diffieHellman ourPrivateEphemeral ourPublicEphemeral theirPublicIdentity role = .ok theirs ∧
      diffieHellman ourPrivateEphemeral ourPublicEphemeral theirPublicEphemeral role = .ok both ∧
      masterKey = .ofKey (cryptoGenerichash (role.arrange ours theirs ++ both.bytes) []) := by
  obtain ⟨secrets, hsecrets, hrest⟩ := Result.bind_eq_ok.mp h
  obtain ⟨both, hboth, hok⟩ := Result.bind_eq_ok.mp hrest
  cases hok
  cases role with
  | alice =>
      obtain ⟨dh1, hdh1, hrest⟩ := Result.bind_eq_ok.mp hsecrets
      obtain ⟨dh2, hdh2, hok⟩ := Result.bind_eq_ok.mp hrest
      cases hok
      exact ⟨dh1, dh2, both, hdh1, hdh2, hboth, rfl⟩
  | bob =>
      obtain ⟨dh1, hdh1, hrest⟩ := Result.bind_eq_ok.mp hsecrets
      obtain ⟨dh2, hdh2, hok⟩ := Result.bind_eq_ok.mp hrest
      cases hok
      exact ⟨dh2, dh1, both, hdh2, hdh1, hboth, rfl⟩

omit [Byte B] [Sodium B] in
theorem Role.arrange_inj {ours theirs ours' theirs' : Key B 32}
    (h : role.arrange ours theirs = role.arrange ours' theirs') : ours = ours' ∧ theirs = theirs' := by
  have hinj : ∀ {a b a' b' : Key B 32}, a.bytes ++ b.bytes = a'.bytes ++ b'.bytes →
      a = a' ∧ b = b' := by
    intro a b a' b' heq
    obtain ⟨ha, hb⟩ := List.append_inj heq (by simp [Key.length_bytes])
    exact ⟨Key.ext ha, Key.ext hb⟩
  cases role with
  | alice => exact hinj h
  | bob => exact (hinj h).symm

omit [Byte B] [Sodium B] in
theorem Role.arrange_other (ours theirs : Key B 32) :
    role.other.arrange ours theirs = role.arrange theirs ours := by
  cases role with
  | alice => rfl
  | bob => rfl

/-- Our private key and the public key of the peer in one of the three Diffie-Hellmans. -/
inductive Paired (ourPrivateIdentity ourPrivateEphemeral : PrivateKey B)
    (theirPublicIdentity theirPublicEphemeral : PublicKey B) : PrivateKey B → PublicKey B → Prop
  | identity : Paired ourPrivateIdentity ourPrivateEphemeral theirPublicIdentity
      theirPublicEphemeral ourPrivateIdentity theirPublicEphemeral
  | ephemeral : Paired ourPrivateIdentity ourPrivateEphemeral theirPublicIdentity
      theirPublicEphemeral ourPrivateEphemeral theirPublicIdentity
  | both : Paired ourPrivateIdentity ourPrivateEphemeral theirPublicIdentity
      theirPublicEphemeral ourPrivateEphemeral theirPublicEphemeral

omit [Byte B] in
theorem private_of_tripleDiffieHellman (hhash : GenerichashInjective B)
    (hcommutes : ScalarmultCommutes B) (hbound : ScalarmultKeyBound B) {ours theirs : PrivateKey B}
    (hpaired : Paired ourPrivateIdentity ourPrivateEphemeral theirPublicIdentity
      theirPublicEphemeral ours (cryptoScalarmultBase theirs)) {masterKey : EmptyableKey B 32}
    (h : tripleDiffieHellman ourPrivateIdentity (cryptoScalarmultBase ourPrivateIdentity)
      ourPrivateEphemeral (cryptoScalarmultBase ourPrivateEphemeral) theirPublicIdentity
      theirPublicEphemeral role = .ok masterKey) {identity ephemeral : PrivateKey B}
    {publicIdentity publicEphemeral peerIdentity peerEphemeral : PublicKey B} {role' : Role}
    (h' : tripleDiffieHellman identity publicIdentity ephemeral publicEphemeral peerIdentity
      peerEphemeral role' = .ok masterKey) :
    ∃ key, (key = identity ∨ key = ephemeral) ∧
      (cryptoScalarmultBase key = cryptoScalarmultBase ours ∨
        cryptoScalarmultBase key = cryptoScalarmultBase theirs) := by
  obtain ⟨first, second, third, hfirst, hsecond, hthird, rfl⟩ :=
    exists_secrets_of_tripleDiffieHellman h
  obtain ⟨first', second', third', hfirst', hsecond', hthird', heq⟩ :=
    exists_secrets_of_tripleDiffieHellman h'
  have hinput := (hhash _ _ _ _ (EmptyableKey.ofKey_injective heq)).1
  obtain ⟨harranged, hlast⟩ := List.append_inj' hinput (by simp [Key.length_bytes])
  have hboth : (first = first' ∧ second = second') ∨ (first = second' ∧ second = first') := by
    rcases Role.eq_or_eq_other role role' with rfl | rfl
    · exact .inl (Role.arrange_inj harranged)
    · rw [Role.arrange_other] at harranged
      exact .inr (Role.arrange_inj harranged)
  cases hpaired with
  | identity =>
      rcases hboth with ⟨rfl, -⟩ | ⟨rfl, -⟩
      · exact ⟨identity, .inl rfl,
          private_of_diffieHellman hhash hcommutes hbound hfirst hfirst'⟩
      · exact ⟨ephemeral, .inr rfl,
          private_of_diffieHellman hhash hcommutes hbound hfirst hsecond'⟩
  | ephemeral =>
      rcases hboth with ⟨-, rfl⟩ | ⟨-, rfl⟩
      · exact ⟨ephemeral, .inr rfl,
          private_of_diffieHellman hhash hcommutes hbound hsecond hsecond'⟩
      · exact ⟨identity, .inl rfl,
          private_of_diffieHellman hhash hcommutes hbound hsecond hfirst'⟩
  | both =>
      rw [Key.ext hlast] at hthird
      exact ⟨ephemeral, .inr rfl,
        private_of_diffieHellman hhash hcommutes hbound hthird hthird'⟩

end Handshake

inductive DerivedInitialRootChainAndHeaderKeys.Holds
    (derived : DerivedInitialRootChainAndHeaderKeys B) : Secret B → Prop
  | rootKey : Holds derived (.rootKey (.ofKey derived.rootKey))
  | sendChainKey {key : ChainKey B} (h : derived.sendChainKey = some key) :
      Holds derived (.chainKey (.ofKey key))
  | receiveChainKey {key : ChainKey B} (h : derived.receiveChainKey = some key) :
      Holds derived (.chainKey (.ofKey key))
  | sendHeaderKey {key : HeaderKey B} (h : derived.sendHeaderKey = some key) :
      Holds derived (.headerKey (.ofKey key))
  | receiveHeaderKey {key : HeaderKey B} (h : derived.receiveHeaderKey = some key) :
      Holds derived (.headerKey (.ofKey key))
  | nextSendHeaderKey : Holds derived (.headerKey (.ofKey derived.nextSendHeaderKey))
  | nextReceiveHeaderKey : Holds derived (.headerKey (.ofKey derived.nextReceiveHeaderKey))

/-- The derivations of the library, with `derive_initial_root_chain_and_header_keys`. -/
inductive DerivesAll : List (Secret B) → Secret B → Prop
  | derives {premises : List (Secret B)} {conclusion : Secret B}
      (h : Derives premises conclusion) : DerivesAll premises conclusion
  | initial {ourPrivateIdentity ourPrivateEphemeral : PrivateKey B}
      {ourPublicIdentity theirPublicIdentity ourPublicEphemeral theirPublicEphemeral : PublicKey B}
      {role : Role} {derived : DerivedInitialRootChainAndHeaderKeys B} {conclusion : Secret B}
      (h : deriveInitialRootChainAndHeaderKeys ourPrivateIdentity ourPublicIdentity
        theirPublicIdentity ourPrivateEphemeral ourPublicEphemeral theirPublicEphemeral role =
          .ok derived)
      (hholds : derived.Holds conclusion) :
      DerivesAll [.privateKey ourPrivateIdentity, .publicKey ourPublicIdentity,
        .publicKey theirPublicIdentity, .privateKey ourPrivateEphemeral,
        .publicKey ourPublicEphemeral, .publicKey theirPublicEphemeral] conclusion

theorem stems_of_holds {masterKey : Key B 32} {role : Role} {secret : Secret B}
    (h : (DerivedInitialRootChainAndHeaderKeys.ofMasterKey masterKey role).Holds secret) :
    Stems masterKey secret ∨ ∃ key, secret = .headerKey key := by
  cases h with
  | rootKey =>
      cases role with
      | alice => exact .inl .rootKey
      | bob => exact .inl .rootKey
  | sendChainKey hkey =>
      cases role with
      | alice => cases hkey
      | bob =>
          cases hkey
          exact .inl (.chainKey (by decide) 0)
  | receiveChainKey hkey =>
      cases role with
      | alice =>
          cases hkey
          exact .inl (.chainKey (by decide) 0)
      | bob => cases hkey
  | sendHeaderKey | receiveHeaderKey | nextSendHeaderKey | nextReceiveHeaderKey =>
      exact .inr ⟨_, rfl⟩

namespace Sealed

variable {masterKey : Key B 32} {ours theirs : PrivateKey B}

theorem guards_all (hhash : GenerichashInjective B) (hkdf : KdfInjective B)
    (hcommutes : ScalarmultCommutes B) (hbound : ScalarmultKeyBound B)
    {ourPrivateIdentity ourPrivateEphemeral : PrivateKey B}
    {theirPublicIdentity theirPublicEphemeral : PublicKey B} {role : Role}
    (hpaired : Paired ourPrivateIdentity ourPrivateEphemeral theirPublicIdentity
      theirPublicEphemeral ours (cryptoScalarmultBase theirs))
    (hmaster : tripleDiffieHellman ourPrivateIdentity (cryptoScalarmultBase ourPrivateIdentity)
      ourPrivateEphemeral (cryptoScalarmultBase ourPrivateEphemeral) theirPublicIdentity
      theirPublicEphemeral role = .ok (.ofKey masterKey)) :
    Guards DerivesAll (Sealed masterKey ours theirs) := by
  have hinitial : Initial masterKey := by
    obtain ⟨-, input, heq⟩ := exists_of_tripleDiffieHellman hmaster
    exact ⟨input, EmptyableKey.ofKey_injective heq⟩
  rintro premises conclusion hderives hsealed
  cases hderives with
  | derives h =>
      exact guards hhash hkdf (hinitial.locked hhash ours theirs) premises conclusion h hsealed
  | initial h hholds =>
      rename_i identity ephemeral _ _ _ _ _ _
      obtain ⟨other, hother, hok⟩ := Result.bind_eq_ok.mp h
      cases hok
      cases hsealed with
      | stems hdescends hstems =>
          rcases stems_of_holds hholds with hstems' | ⟨key, rfl⟩
          · rw [hstems.derivation_eq hkdf hstems'] at hdescends
            obtain ⟨-, input, rfl⟩ := exists_of_tripleDiffieHellman hother
            have hroot : Initial (cryptoGenerichash input [] : Key B 32) := ⟨input, rfl⟩
            have hsame := (unique_derivation hhash hkdf).eq_of_descends_root hroot hdescends
            change tripleDiffieHellman _ _ _ _ _ _ _ = .ok (.ofKey (cryptoGenerichash input []))
              at hother
            rw [← hsame] at hother
            obtain ⟨key, hkey, hprivate⟩ := private_of_tripleDiffieHellman hhash hcommutes hbound
              hpaired hmaster hother
            refine ⟨.privateKey key, ?_, .privateKey hprivate⟩
            rcases hkey with rfl | rfl
            · simp
            · simp
          · cases hstems
      | privateKey => cases hholds

end Sealed

namespace Conversation

section Origins

theorem rootKey_ofMasterKey (masterKey : Key B 32) (role : Role) :
    (DerivedInitialRootChainAndHeaderKeys.ofMasterKey masterKey role).rootKey =
      masterKey.deriveSubkeyWithIndex 0 := by
  cases role with
  | alice => rfl
  | bob => rfl

/-- The master key with which a conversation has been created. -/
def StartsFrom (conversation : Conversation B) (masterKey : Key B 32) : Prop :=
  Initial masterKey ∧ conversation.ratchet.rootKey = .ofKey (masterKey.deriveSubkeyWithIndex 0)

variable {conversation other : Conversation B} {masterKey masterKey' : Key B 32}

theorem StartsFrom.eq (hkdf : KdfInjective B) (h : conversation.StartsFrom masterKey)
    (h' : other.StartsFrom masterKey')
    (hroot : other.ratchet.rootKey = conversation.ratchet.rootKey) : masterKey = masterKey' := by
  rw [h.2, h'.2] at hroot
  exact (Key.deriveSubkeyWithIndex_inj hkdf (EmptyableKey.ofKey_injective hroot)).1.symm

theorem Created.atGeneration_startsFrom (h : conversation.Created) :
    conversation.ratchet.AtGeneration conversation.StartsFrom 0 := by
  obtain ⟨masterKey, hinitial, hroot, hat⟩ := h.exists_masterKey
  exact hat _ ⟨hinitial, hroot⟩

/-- Conversations that have derivation keys in common have the same first root key. -/
theorem rootKey_eq_of_descends (hhash : GenerichashInjective B) (hkdf : KdfInjective B)
    (h : conversation.StartsFrom masterKey) {derivation : Key B 32}
    (hdescends : ReflTransGen Precedes masterKey derivation) {n : ℕ}
    (hderivation : DerivationOf other.StartsFrom n derivation) :
    other.ratchet.rootKey = conversation.ratchet.rootKey := by
  obtain ⟨masterKey', hother, hdescends'⟩ := hderivation.exists_root
  rw [h.2, hother.2,
    (unique_derivation hhash hkdf).root_eq h.1 hother.1 hdescends hdescends']

/-- Conversations with the same first root key have been created by the two parties of one
handshake, or both by the same party: each of them has the public keys of the other. -/
theorem parties_agree (hhash : GenerichashInjective B) (hkdf : KdfInjective B)
    (h : conversation.Created) (h' : other.Created)
    (hroot : other.ratchet.rootKey = conversation.ratchet.rootKey) :
    let ratchet := conversation.ratchet
    let ratchet' := other.ratchet
    (ratchet'.role = ratchet.role.other ∧
      ratchet'.ourPublicIdentity = ratchet.theirPublicIdentity ∧
      ratchet'.theirPublicIdentity = ratchet.ourPublicIdentity ∧
      ratchet'.ourPublicEphemeral = ratchet.theirPublicEphemeral ∧
      ratchet'.theirPublicEphemeral = ratchet.ourPublicEphemeral) ∨
    (ratchet'.role = ratchet.role ∧
      ratchet'.ourPublicIdentity = ratchet.ourPublicIdentity ∧
      ratchet'.theirPublicIdentity = ratchet.theirPublicIdentity ∧
      ratchet'.ourPublicEphemeral = ratchet.ourPublicEphemeral ∧
      ratchet'.theirPublicEphemeral = ratchet.theirPublicEphemeral) := by
  obtain ⟨_, _, _, _, _, _, _, _, -, hcreate⟩ := h
  obtain ⟨_, _, _, _, _, _, _, _, -, hcreate'⟩ := h'
  obtain ⟨role, masterKey, -, hmaster, heq⟩ := Ratchet.exists_of_create (ratchet_of_create hcreate)
  obtain ⟨role', masterKey', -, hmaster', heq'⟩ :=
    Ratchet.exists_of_create (ratchet_of_create hcreate')
  obtain ⟨first, second, third, hfirst, hsecond, -, rfl⟩ :=
    exists_secrets_of_tripleDiffieHellman hmaster
  obtain ⟨first', second', third', hfirst', hsecond', -, rfl⟩ :=
    exists_secrets_of_tripleDiffieHellman hmaster'
  rw [heq, heq'] at hroot
  have hmasters := EmptyableKey.ofKey_injective hroot
  rw [rootKey_ofMasterKey, rootKey_ofMasterKey] at hmasters
  have hinput := (hhash _ _ _ _ (Key.deriveSubkeyWithIndex_inj hkdf hmasters).1).1
  obtain ⟨harranged, -⟩ := List.append_inj' hinput (by simp [Key.length_bytes])
  rw [heq, heq']
  rcases Role.eq_or_eq_other role role' with rfl | rfl
  · obtain ⟨rfl, rfl⟩ := Role.arrange_inj harranged
    obtain ⟨hours, htheirs⟩ := publics_eq_of_diffieHellman hhash hfirst hfirst'
    obtain ⟨hours', htheirs'⟩ := publics_eq_of_diffieHellman hhash hsecond hsecond'
    exact .inr ⟨rfl, hours, htheirs', hours', htheirs⟩
  · rw [Role.arrange_other] at harranged
    obtain ⟨rfl, rfl⟩ := Role.arrange_inj harranged
    obtain ⟨hours, htheirs⟩ := publics_swap_of_diffieHellman hhash hfirst hsecond'
    obtain ⟨hours', htheirs'⟩ := publics_swap_of_diffieHellman hhash hsecond hfirst'
    exact .inl ⟨rfl, hours', htheirs, hours, htheirs'⟩

end Origins

/-- One of the three Diffie-Hellmans with which the conversation has been created is that of the
two private keys. -/
def Shares (ours theirs : PrivateKey B) (conversation : Conversation B) : Prop :=
  ∃ (ourPrivateIdentity ourPrivateEphemeral : PrivateKey B)
    (theirPublicIdentity theirPublicEphemeral : PublicKey B) (w w' : World B),
    Paired ourPrivateIdentity ourPrivateEphemeral theirPublicIdentity theirPublicEphemeral ours
        (cryptoScalarmultBase theirs) ∧
      Conversation.create ourPrivateIdentity (cryptoScalarmultBase ourPrivateIdentity)
        theirPublicIdentity ourPrivateEphemeral (cryptoScalarmultBase ourPrivateEphemeral)
        theirPublicEphemeral w = (.ok conversation, w')

variable {conversation : Conversation B} {ours theirs : PrivateKey B}

theorem Shares.exists_guards (hhash : GenerichashInjective B) (hkdf : KdfInjective B)
    (hcommutes : ScalarmultCommutes B) (hbound : ScalarmultKeyBound B)
    (h : conversation.Shares ours theirs) :
    ∃ masterKey, conversation.StartsFrom masterKey ∧
      Guards DerivesAll (Sealed masterKey ours theirs) := by
  obtain ⟨_, _, _, _, w, w', hpaired, hcreate⟩ := h
  obtain ⟨role, masterKey, -, hmaster, heq⟩ :=
    Ratchet.exists_of_create (ratchet_of_create hcreate)
  obtain ⟨-, input, rfl⟩ := exists_of_tripleDiffieHellman hmaster
  refine ⟨cryptoGenerichash input [], ⟨⟨input, rfl⟩, ?_⟩,
    Sealed.guards_all hhash hkdf hcommutes hbound hpaired hmaster⟩
  rw [heq]
  exact congrArg EmptyableKey.ofKey (rootKey_ofMasterKey _ _)

variable [ProtobufC B] [Platform]

/-- What somebody may know without knowing the keys of the conversation: all public keys and
header keys, private keys except for the given two, and whatever conversations with other first
root keys store at any time. -/
inductive Outside (conversation : Conversation B) (ours theirs : PrivateKey B) : Secret B → Prop
  | publicKey (key : PublicKey B) : Outside conversation ours theirs (.publicKey key)
  | headerKey (key : EmptyableHeaderKey B) : Outside conversation ours theirs (.headerKey key)
  | privateKey {key : PrivateKey B} (hours : cryptoScalarmultBase key ≠ cryptoScalarmultBase ours)
      (htheirs : cryptoScalarmultBase key ≠ cryptoScalarmultBase theirs) :
      Outside conversation ours theirs (.privateKey key)
  | stored {other : Conversation B} (h : other.Created)
      (hother : other.ratchet.rootKey ≠ conversation.ratchet.rootKey) (calls : List (Call B))
      {secret : Secret B}
      (hholds : (Runs.final call other calls).ratchet.toRatchetStorage.Holds secret)
      (hnot : ∀ key, secret ≠ .privateKey key) : Outside conversation ours theirs secret
  | skipped {other : Conversation B} (h : other.Created)
      (hother : other.ratchet.rootKey ≠ conversation.ratchet.rootKey) (calls : List (Call B))
      {key : HeaderAndMessageKey B}
      (hkey : key ∈ (Runs.final call other calls).ratchet.skippedHeaderAndMessageKeys.keys) :
      Outside conversation ours theirs (.messageKey key.messageKey)

theorem Created.atGeneration_final (hkdf : KdfNonzero B) (hpoint : ScalarmultFailsByPoint B)
    (h : conversation.Created) (calls : List (Call B)) :
    ∃ n, (Runs.final call conversation calls).ratchet.AtGeneration conversation.StartsFrom n := by
  have hall : Runs.Admitted call (fun _ _ => True) conversation calls := fun _ _ _ _ => trivial
  have hrun := hall.invariant (fun state => Reachable (fun _ => True) state ∧
    ∃ n, state.ratchet.AtGeneration conversation.StartsFrom n) ?_
    ⟨h.reachable, 0, h.atGeneration_startsFrom⟩
  · exact hrun.2
  · rintro state c ⟨hreachable, n, hat⟩ -
    exact ⟨hreachable.call c, atGeneration_call hkdf hat (hreachable.wellFormed hkdf hpoint) c⟩

theorem Outside.not_sealed (hhash : GenerichashInjective B) (hkdf : KdfInjective B)
    (hnonzero : KdfNonzero B) (hpoint : ScalarmultFailsByPoint B) {masterKey : Key B 32}
    (hstarts : conversation.StartsFrom masterKey) {secret : Secret B}
    (h : conversation.Outside ours theirs secret) : ¬ Sealed masterKey ours theirs secret := by
  have hforeign : ∀ {other : Conversation B} {bound : ℕ} {secret : Secret B},
      other.ratchet.rootKey ≠ conversation.ratchet.rootKey →
      UpTo other.StartsFrom bound secret → ¬ Sealed masterKey ours theirs secret := by
    intro other bound secret hother hupTo hsealed
    obtain ⟨n, -, derivation, hderivation, hdescends⟩ :=
      Sealed.exists_of_upTo hkdf hnonzero hupTo hsealed
    exact hother (rootKey_eq_of_descends hhash hkdf hstarts hdescends hderivation)
  intro hsealed
  cases h with
  | publicKey key => exact Sealed.not_publicKey key hsealed
  | headerKey key => exact Sealed.not_headerKey key hsealed
  | privateKey hours htheirs => exact hsealed.of_privateKey.elim hours htheirs
  | stored hcreated hother calls hholds hnot =>
      obtain ⟨n, hat⟩ := hcreated.atGeneration_final hnonzero hpoint calls
      rcases hat.holds hholds with hupTo | ⟨key, rfl⟩ | ⟨key, rfl⟩ | ⟨key, rfl⟩
      · exact hforeign hother hupTo hsealed
      · exact Sealed.not_headerKey key hsealed
      · exact hnot key rfl
      · exact Sealed.not_publicKey key hsealed
  | skipped hcreated hother calls hkey =>
      obtain ⟨n, hat⟩ := hcreated.atGeneration_final hnonzero hpoint calls
      exact hforeign hother (hat.skipped _ hkey) hsealed

end Conversation

theorem Session.Started.rootKey_eq (hcommutes : ScalarmultCommutes B) {session : Session B}
    (h : session.Started) :
    (session.party .bob).ratchet.rootKey = (session.party .alice).ratchet.rootKey := by
  obtain ⟨identity, ephemeral, hcreated⟩ := h.created
  obtain ⟨role, masterKey, hrole, hmaster, halice⟩ := Ratchet.exists_of_create (hcreated .alice)
  obtain ⟨role', masterKey', hrole', hmaster', hbob⟩ := Ratchet.exists_of_create (hcreated .bob)
  obtain rfl : role' = role.other :=
    Except.ok.inj (hrole'.symm.trans (Ratchet.chooseRole_other hrole))
  have hmirror := tripleDiffieHellman_mirror hcommutes (identity .alice) (ephemeral .alice)
    (identity .bob) (ephemeral .bob) role
  obtain rfl : masterKey' = masterKey :=
    Except.ok.inj (hmaster'.symm.trans (hmirror.trans hmaster))
  rw [halice, hbob]
  exact congrArg EmptyableKey.ofKey ((Conversation.rootKey_ofMasterKey _ _).trans
    (Conversation.rootKey_ofMasterKey _ _).symm)

namespace Symbolic

/-- Each of the two parties of a session has the public keys of the other. -/
theorem parties_agree_started :
    ∃ (session : Session ℕ) (alice bob : Ratchet ℕ), session.Started ∧
      alice = (session.party .alice).ratchet ∧ bob = (session.party .bob).ratchet ∧
      bob.ourPublicIdentity = alice.theirPublicIdentity ∧
      bob.theirPublicIdentity = alice.ourPublicIdentity ∧
      bob.ourPublicEphemeral = alice.theirPublicEphemeral ∧
      bob.theirPublicEphemeral = alice.ourPublicEphemeral := by
  obtain ⟨session, h⟩ := exists_session
  refine ⟨session, _, _, h, rfl, rfl, ?_⟩
  rcases Conversation.parties_agree generichashInjective kdfInjective (created_party h .alice)
    (created_party h .bob) (h.rootKey_eq scalarmultCommutes) with ⟨-, hkeys⟩ | ⟨hrole, -⟩
  · exact hkeys
  · rw [h.role, h.role] at hrole
    cases hrole

end Symbolic

end Molch
