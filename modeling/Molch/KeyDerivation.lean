import Molch.Foundation.Result
import Molch.Sodium

namespace Molch

open Sodium

inductive Role where
  | alice
  | bob
deriving DecidableEq, Repr

namespace Role

def other : Role → Role
  | alice => bob
  | bob => alice

@[simp] theorem other_other (role : Role) : role.other.other = role := by
  cases role <;> rfl

/-- `static_cast<bool>(role)`. -/
def toBool : Role → Bool
  | alice => true
  | bob => false

/-- `static_cast<Role>(flag)`. -/
def ofBool : Bool → Role
  | true => alice
  | false => bob

@[simp] theorem ofBool_toBool (role : Role) : ofBool role.toBool = role := by
  cases role <;> rfl

end Role

variable {B : Type} [Byte B] [Sodium B]

/-- The personalisation string with its terminating zero. -/
def personal : List B :=
  [109, 111, 108, 99, 104, 95, 99, 114, 121, 112, 116, 111, 108, 105, 98, 0].map Byte.ofUInt8

/-- The salt of the subkey with the given number. -/
def subkeySalt (subkeyCounter : UInt32) : List B :=
  List.replicate 12 Byte.zero ++ toBigEndian 4 subkeyCounter.toNat

omit [Sodium B] in
theorem subkeySalt_injective : Function.Injective (subkeySalt : UInt32 → List B) := by
  intro i j h
  have hcounter := congrArg fromBigEndian (List.append_cancel_left h)
  rw [fromBigEndian_toBigEndian, fromBigEndian_toBigEndian] at hcounter
  have hi := i.toNat_lt
  have hj := j.toNat_lt
  apply UInt32.toNat_inj.mp
  omega

namespace Key

/-- `deriveSubkeyWithIndex` of a key of 32 bytes. -/
def deriveSubkeyWithIndex (key : Key B 32) (subkeyCounter : UInt32) : Key B 32 :=
  cryptoGenerichashBlake2bSaltPersonal [] key.bytes (subkeySalt subkeyCounter) personal

theorem deriveSubkeyWithIndex_inj (hkdf : KdfInjective B) {key key' : Key B 32}
    {i j : UInt32} (h : key.deriveSubkeyWithIndex i = key'.deriveSubkeyWithIndex j) :
    key = key' ∧ i = j := by
  obtain ⟨hkey, hsalt⟩ := hkdf _ _ _ _ _ _ h
  exact ⟨Key.ext hkey, subkeySalt_injective hsalt⟩

theorem isZero_deriveSubkeyWithIndex (hkdf : KdfNonzero B) (key : Key B 32) (i : UInt32) :
    (key.deriveSubkeyWithIndex i).isZero = false := by
  rw [Bool.eq_false_iff]
  intro h
  exact hkdf _ _ _ (isZero_iff.mp h)

def messageKey (chainKey : ChainKey B) : MessageKey B := chainKey.deriveSubkeyWithIndex 0

def nextChainKey (chainKey : ChainKey B) : ChainKey B := chainKey.deriveSubkeyWithIndex 1

def advance (chainKey : ChainKey B) (count : ℕ) : ChainKey B := nextChainKey^[count] chainKey

@[simp] theorem advance_zero (chainKey : ChainKey B) : chainKey.advance 0 = chainKey := rfl

theorem advance_succ (chainKey : ChainKey B) (count : ℕ) :
    chainKey.advance (count + 1) = chainKey.nextChainKey.advance count :=
  Function.iterate_succ_apply _ _ _

theorem advance_succ' (chainKey : ChainKey B) (count : ℕ) :
    chainKey.advance (count + 1) = (chainKey.advance count).nextChainKey :=
  Function.iterate_succ_apply' _ _ _

theorem advance_advance (chainKey : ChainKey B) (m n : ℕ) :
    (chainKey.advance m).advance n = chainKey.advance (m + n) := by
  rw [advance, advance, advance, ← Function.iterate_add_apply, Nat.add_comm]

end Key

namespace EmptyableKey

/-- `deriveSubkeyWithIndex` of an emptyable key. -/
def deriveSubkeyWithIndex (key : EmptyableKey B 32) (subkeyCounter : UInt32) :
    Except Error (EmptyableKey B 32) :=
  if key.empty then .error (expectationFailed "lib/key.hpp")
  else .ok (ofKey (key.key.deriveSubkeyWithIndex subkeyCounter))

def deriveMessageKey (chainKey : EmptyableChainKey B) : Except Error (MessageKey B) :=
  (chainKey.deriveSubkeyWithIndex 0).map EmptyableKey.key

def deriveChainKey (chainKey : EmptyableChainKey B) : Except Error (EmptyableChainKey B) :=
  chainKey.deriveSubkeyWithIndex 1

@[simp] theorem deriveMessageKey_ofKey (chainKey : ChainKey B) :
    (ofKey chainKey).deriveMessageKey = .ok chainKey.messageKey := rfl

@[simp] theorem deriveChainKey_ofKey (chainKey : ChainKey B) :
    (ofKey chainKey).deriveChainKey = .ok (ofKey chainKey.nextChainKey) := rfl

theorem of_deriveSubkeyWithIndex {key derived : EmptyableKey B 32} {i : UInt32}
    (h : key.deriveSubkeyWithIndex i = .ok derived) :
    key.empty = false ∧ derived = ofKey (key.key.deriveSubkeyWithIndex i) := by
  unfold deriveSubkeyWithIndex at h
  split at h
  · cases h
  · rename_i hempty
    cases h
    exact ⟨by simpa using hempty, rfl⟩

theorem of_deriveMessageKey {chainKey : EmptyableChainKey B} {messageKey : MessageKey B}
    (h : chainKey.deriveMessageKey = .ok messageKey) :
    chainKey.empty = false ∧ messageKey = chainKey.key.messageKey := by
  obtain ⟨derived, hderived, rfl⟩ := Result.map_eq_ok.mp h
  obtain ⟨hempty, rfl⟩ := of_deriveSubkeyWithIndex hderived
  exact ⟨hempty, rfl⟩

theorem of_deriveChainKey {chainKey nextChainKey : EmptyableChainKey B}
    (h : chainKey.deriveChainKey = .ok nextChainKey) :
    chainKey.empty = false ∧ nextChainKey = ofKey chainKey.key.nextChainKey :=
  of_deriveSubkeyWithIndex h

end EmptyableKey

/-- `diffie_hellman`: the shared secret hashed with both public keys, Alice's first. -/
def diffieHellman (ourPrivateKey : PrivateKey B) (ourPublicKey theirPublicKey : PublicKey B)
    (role : Role) : Except Error (Key B 32) :=
  match cryptoScalarmult ourPrivateKey theirPublicKey with
  | none => .error ⟨.genericError, "Failed to calculate shared secret."⟩
  | some secret =>
      match role with
      | .alice => .ok (cryptoGenerichash
          (secret.bytes ++ ourPublicKey.bytes ++ theirPublicKey.bytes) [])
      | .bob => .ok (cryptoGenerichash
          (secret.bytes ++ theirPublicKey.bytes ++ ourPublicKey.bytes) [])

def IsKeyPair (privateKey : PrivateKey B) (publicKey : PublicKey B) : Prop :=
  cryptoScalarmultBase privateKey = publicKey

/-- A point that no private key multiplies to zero. -/
def Usable (publicKey : PublicKey B) : Prop :=
  ∀ privateKey : PrivateKey B, (cryptoScalarmult privateKey publicKey).isSome

omit [Byte B] in
theorem isSome_of_diffieHellman {ourPrivate : PrivateKey B} {ourPublic theirPublic : PublicKey B}
    {role : Role} {secret : Key B 32}
    (h : diffieHellman ourPrivate ourPublic theirPublic role = .ok secret) :
    (cryptoScalarmult ourPrivate theirPublic).isSome := by
  unfold diffieHellman at h
  cases hmult : cryptoScalarmult ourPrivate theirPublic with
  | none =>
      rw [hmult] at h
      cases h
  | some shared => rfl

omit [Byte B] in
theorem usable_of_diffieHellman (hpoint : ScalarmultFailsByPoint B) {ourPrivate : PrivateKey B}
    {ourPublic theirPublic : PublicKey B} {role : Role} {secret : Key B 32}
    (h : diffieHellman ourPrivate ourPublic theirPublic role = .ok secret) :
    Usable theirPublic := by
  intro privateKey
  rw [hpoint privateKey ourPrivate]
  exact isSome_of_diffieHellman h

omit [Byte B] in
theorem exists_diffieHellman {ourPrivate : PrivateKey B} {ourPublic theirPublic : PublicKey B}
    (h : (cryptoScalarmult ourPrivate theirPublic).isSome) (role : Role) :
    ∃ secret, diffieHellman ourPrivate ourPublic theirPublic role = .ok secret := by
  obtain ⟨shared, hshared⟩ := Option.isSome_iff_exists.mp h
  unfold diffieHellman
  rw [hshared]
  cases role with
  | alice => exact ⟨_, rfl⟩
  | bob => exact ⟨_, rfl⟩

/-- The two secrets of `triple_diffie_hellman` that involve an identity key: first the one
with Alice's identity. -/
def identitySecrets (ourPrivateIdentity : PrivateKey B) (ourPublicIdentity : PublicKey B)
    (ourPrivateEphemeral : PrivateKey B) (ourPublicEphemeral : PublicKey B)
    (theirPublicIdentity theirPublicEphemeral : PublicKey B) :
    Role → Except Error (Key B 32 × Key B 32)
  | .alice => do
      let dh1 ← diffieHellman ourPrivateIdentity ourPublicIdentity theirPublicEphemeral .alice
      let dh2 ← diffieHellman ourPrivateEphemeral ourPublicEphemeral theirPublicIdentity .alice
      pure (dh1, dh2)
  | .bob => do
      let dh1 ← diffieHellman ourPrivateEphemeral ourPublicEphemeral theirPublicIdentity .bob
      let dh2 ← diffieHellman ourPrivateIdentity ourPublicIdentity theirPublicEphemeral .bob
      pure (dh1, dh2)

def tripleDiffieHellman (ourPrivateIdentity : PrivateKey B) (ourPublicIdentity : PublicKey B)
    (ourPrivateEphemeral : PrivateKey B) (ourPublicEphemeral : PublicKey B)
    (theirPublicIdentity theirPublicEphemeral : PublicKey B) (role : Role) :
    Except Error (EmptyableKey B 32) := do
  let secrets ← identitySecrets ourPrivateIdentity ourPublicIdentity ourPrivateEphemeral
    ourPublicEphemeral theirPublicIdentity theirPublicEphemeral role
  let dh3 ← diffieHellman ourPrivateEphemeral ourPublicEphemeral theirPublicEphemeral role
  pure (.ofKey (cryptoGenerichash
    (secrets.1.bytes ++ secrets.2.bytes ++ dh3.bytes) []))

omit [Byte B] in
theorem exists_of_tripleDiffieHellman {ourPrivateIdentity ourPrivateEphemeral : PrivateKey B}
    {ourPublicIdentity ourPublicEphemeral theirPublicIdentity theirPublicEphemeral : PublicKey B}
    {role : Role} {masterKey : EmptyableKey B 32}
    (h : tripleDiffieHellman ourPrivateIdentity ourPublicIdentity ourPrivateEphemeral
      ourPublicEphemeral theirPublicIdentity theirPublicEphemeral role = .ok masterKey) :
    (∃ secret, diffieHellman ourPrivateEphemeral ourPublicEphemeral theirPublicEphemeral role =
        .ok secret) ∧
      ∃ input, masterKey = .ofKey (cryptoGenerichash input []) := by
  obtain ⟨secrets, -, hrest⟩ := Result.bind_eq_ok.mp h
  obtain ⟨dh3, hdh3, hok⟩ := Result.bind_eq_ok.mp hrest
  cases hok
  exact ⟨⟨dh3, hdh3⟩, _, rfl⟩

structure DerivedRootNextHeadAndChainKey (B : Type) where
  rootKey : RootKey B
  nextHeaderKey : HeaderKey B
  chainKey : ChainKey B

/-- The three keys of a ratchet step. -/
def DerivedRootNextHeadAndChainKey.ofDerivationKey (derivationKey : Key B 32) :
    DerivedRootNextHeadAndChainKey B where
  rootKey := derivationKey.deriveSubkeyWithIndex 0
  nextHeaderKey := derivationKey.deriveSubkeyWithIndex 1
  chainKey := derivationKey.deriveSubkeyWithIndex 2

def deriveRootNextHeaderAndChainKeys (ourPrivateEphemeral : PrivateKey B)
    (ourPublicEphemeral theirPublicEphemeral : PublicKey B)
    (previousRootKey : EmptyableRootKey B) (role : Role) :
    Except Error (DerivedRootNextHeadAndChainKey B) :=
  if previousRootKey.empty then .error (expectationFailed "lib/key-derivation.cpp")
  else do
    let secret ← diffieHellman ourPrivateEphemeral ourPublicEphemeral theirPublicEphemeral role
    pure (.ofDerivationKey (cryptoGenerichash secret.bytes previousRootKey.key.bytes))

theorem exists_of_derived {ourPrivate : PrivateKey B} {ourPublic theirPublic : PublicKey B}
    {rootKey : EmptyableRootKey B} {role : Role} {derived : DerivedRootNextHeadAndChainKey B}
    (h : deriveRootNextHeaderAndChainKeys ourPrivate ourPublic theirPublic rootKey role =
      .ok derived) :
    rootKey.empty = false ∧ ∃ secret,
      diffieHellman ourPrivate ourPublic theirPublic role = .ok secret ∧
      derived = .ofDerivationKey (cryptoGenerichash secret.bytes rootKey.key.bytes) := by
  unfold deriveRootNextHeaderAndChainKeys at h
  split at h
  · cases h
  · rename_i hempty
    obtain ⟨secret, hsecret, hok⟩ := Result.bind_eq_ok.mp h
    cases hok
    exact ⟨by simpa using hempty, secret, hsecret, rfl⟩

theorem exists_derived {ourPrivate : PrivateKey B} {ourPublic theirPublic : PublicKey B}
    {rootKey : EmptyableRootKey B} (hroot : rootKey.empty = false)
    (h : (cryptoScalarmult ourPrivate theirPublic).isSome) (role : Role) :
    ∃ derived, deriveRootNextHeaderAndChainKeys ourPrivate ourPublic theirPublic rootKey role =
      .ok derived := by
  obtain ⟨secret, hsecret⟩ := exists_diffieHellman h role
  unfold deriveRootNextHeaderAndChainKeys
  rw [hroot, hsecret]
  exact ⟨_, rfl⟩

theorem derived_chainKey_isNone (hkdf : KdfNonzero B) {ourPrivate : PrivateKey B}
    {ourPublic theirPublic : PublicKey B} {rootKey : EmptyableRootKey B} {role : Role}
    {derived : DerivedRootNextHeadAndChainKey B}
    (h : deriveRootNextHeaderAndChainKeys ourPrivate ourPublic theirPublic rootKey role =
      .ok derived) : (EmptyableKey.ofKey derived.chainKey).isNone = false := by
  obtain ⟨-, secret, -, rfl⟩ := exists_of_derived h
  exact Key.isZero_deriveSubkeyWithIndex hkdf _ _

theorem derived_nextHeaderKey_isNone (hkdf : KdfNonzero B) {ourPrivate : PrivateKey B}
    {ourPublic theirPublic : PublicKey B} {rootKey : EmptyableRootKey B} {role : Role}
    {derived : DerivedRootNextHeadAndChainKey B}
    (h : deriveRootNextHeaderAndChainKeys ourPrivate ourPublic theirPublic rootKey role =
      .ok derived) : (EmptyableKey.ofKey derived.nextHeaderKey).isNone = false := by
  obtain ⟨-, secret, -, rfl⟩ := exists_of_derived h
  exact Key.isZero_deriveSubkeyWithIndex hkdf _ _

structure DerivedInitialRootChainAndHeaderKeys (B : Type) where
  rootKey : RootKey B
  sendChainKey : Option (ChainKey B)
  receiveChainKey : Option (ChainKey B)
  sendHeaderKey : Option (HeaderKey B)
  receiveHeaderKey : Option (HeaderKey B)
  nextSendHeaderKey : HeaderKey B
  nextReceiveHeaderKey : HeaderKey B

/-- The keys both sides take from the master key, as one side stores them. -/
def DerivedInitialRootChainAndHeaderKeys.ofMasterKey (masterKey : Key B 32) :
    Role → DerivedInitialRootChainAndHeaderKeys B
  | .alice =>
      { rootKey := masterKey.deriveSubkeyWithIndex 0
        sendChainKey := none
        receiveChainKey := some (masterKey.deriveSubkeyWithIndex 4)
        sendHeaderKey := none
        receiveHeaderKey := some (masterKey.deriveSubkeyWithIndex 1)
        nextSendHeaderKey := masterKey.deriveSubkeyWithIndex 2
        nextReceiveHeaderKey := masterKey.deriveSubkeyWithIndex 3 }
  | .bob =>
      { rootKey := masterKey.deriveSubkeyWithIndex 0
        sendChainKey := some (masterKey.deriveSubkeyWithIndex 4)
        receiveChainKey := none
        sendHeaderKey := some (masterKey.deriveSubkeyWithIndex 1)
        receiveHeaderKey := none
        nextSendHeaderKey := masterKey.deriveSubkeyWithIndex 3
        nextReceiveHeaderKey := masterKey.deriveSubkeyWithIndex 2 }

def deriveInitialRootChainAndHeaderKeys (ourPrivateIdentity : PrivateKey B)
    (ourPublicIdentity theirPublicIdentity : PublicKey B)
    (ourPrivateEphemeral : PrivateKey B)
    (ourPublicEphemeral theirPublicEphemeral : PublicKey B) (role : Role) :
    Except Error (DerivedInitialRootChainAndHeaderKeys B) := do
  let masterKey ← tripleDiffieHellman ourPrivateIdentity ourPublicIdentity
    ourPrivateEphemeral ourPublicEphemeral theirPublicIdentity theirPublicEphemeral role
  pure (.ofMasterKey masterKey.key role)

end Molch
