import Molch.Foundation.Closure
import Molch.KeySchedule
import Mathlib.Data.List.Perm.Subperm

/-!
What a stolen ratchet gives away: the keys it stores and all keys that the derivations
of the library make of them. A chain key or root key from before a point of the key
schedule does not follow from the keys after it.
-/

namespace Molch

open Sodium

variable {B : Type} [Byte B] [Sodium B]

/-- A value that a ratchet stores, together with what it is used as. -/
inductive Secret (B : Type) where
  | rootKey (key : EmptyableRootKey B)
  | headerKey (key : EmptyableHeaderKey B)
  | chainKey (key : EmptyableChainKey B)
  | messageKey (key : MessageKey B)
  | privateKey (key : PrivateKey B)
  | publicKey (key : PublicKey B)

/-- The derivations of the library: `deriveMessageKey`, `deriveChainKey` and the three keys of
`derive_root_next_header_and_chain_keys`. -/
inductive Derives : List (Secret B) → Secret B → Prop
  | messageKey {chainKey : EmptyableChainKey B} {messageKey : MessageKey B}
      (h : chainKey.deriveMessageKey = .ok messageKey) :
      Derives [.chainKey chainKey] (.messageKey messageKey)
  | nextChainKey {chainKey nextChainKey : EmptyableChainKey B}
      (h : chainKey.deriveChainKey = .ok nextChainKey) :
      Derives [.chainKey chainKey] (.chainKey nextChainKey)
  | rootKey {ourPrivate : PrivateKey B} {ourPublic theirPublic : PublicKey B}
      {rootKey : EmptyableRootKey B} {role : Role} {derived : DerivedRootNextHeadAndChainKey B}
      (h : deriveRootNextHeaderAndChainKeys ourPrivate ourPublic theirPublic rootKey role =
        .ok derived) :
      Derives [.privateKey ourPrivate, .publicKey ourPublic, .publicKey theirPublic,
        .rootKey rootKey] (.rootKey (.ofKey derived.rootKey))
  | nextHeaderKey {ourPrivate : PrivateKey B} {ourPublic theirPublic : PublicKey B}
      {rootKey : EmptyableRootKey B} {role : Role} {derived : DerivedRootNextHeadAndChainKey B}
      (h : deriveRootNextHeaderAndChainKeys ourPrivate ourPublic theirPublic rootKey role =
        .ok derived) :
      Derives [.privateKey ourPrivate, .publicKey ourPublic, .publicKey theirPublic,
        .rootKey rootKey] (.headerKey (.ofKey derived.nextHeaderKey))
  | chainKey {ourPrivate : PrivateKey B} {ourPublic theirPublic : PublicKey B}
      {rootKey : EmptyableRootKey B} {role : Role} {derived : DerivedRootNextHeadAndChainKey B}
      (h : deriveRootNextHeaderAndChainKeys ourPrivate ourPublic theirPublic rootKey role =
        .ok derived) :
      Derives [.privateKey ourPrivate, .publicKey ourPublic, .publicKey theirPublic,
        .rootKey rootKey] (.chainKey (.ofKey derived.chainKey))

/-- The values of a ratchet storage, one for each of its fields. -/
inductive RatchetStorage.Holds (storage : RatchetStorage B) : Secret B → Prop
  | rootKey : Holds storage (.rootKey storage.rootKey)
  | purportedRootKey : Holds storage (.rootKey storage.purportedRootKey)
  | sendHeaderKey {key : EmptyableHeaderKey B} (h : storage.sendHeaderKey = some key) :
      Holds storage (.headerKey key)
  | receiveHeaderKey : Holds storage (.headerKey storage.receiveHeaderKey)
  | nextSendHeaderKey : Holds storage (.headerKey storage.nextSendHeaderKey)
  | nextReceiveHeaderKey : Holds storage (.headerKey storage.nextReceiveHeaderKey)
  | purportedReceiveHeaderKey : Holds storage (.headerKey storage.purportedReceiveHeaderKey)
  | purportedNextReceiveHeaderKey :
      Holds storage (.headerKey storage.purportedNextReceiveHeaderKey)
  | sendChainKey : Holds storage (.chainKey storage.sendChainKey)
  | receiveChainKey : Holds storage (.chainKey storage.receiveChainKey)
  | purportedReceiveChainKey : Holds storage (.chainKey storage.purportedReceiveChainKey)
  | ourPublicIdentity : Holds storage (.publicKey storage.ourPublicIdentity)
  | theirPublicIdentity : Holds storage (.publicKey storage.theirPublicIdentity)
  | ourPrivateEphemeral : Holds storage (.privateKey storage.ourPrivateEphemeral)
  | ourPublicEphemeral : Holds storage (.publicKey storage.ourPublicEphemeral)
  | theirPublicEphemeral : Holds storage (.publicKey storage.theirPublicEphemeral)
  | theirPurportedPublicEphemeral {key : PublicKey B}
      (h : storage.theirPurportedPublicEphemeral = some key) : Holds storage (.publicKey key)

def HeaderAndMessageKeyStore.messageKeys (store : HeaderAndMessageKeyStore B) :
    List (MessageKey B) :=
  store.keys.map HeaderAndMessageKey.messageKey

/-- A message key is recoverable from a ratchet if it is stored for a skipped message or
follows from the storage by the derivations of the library. -/
def Ratchet.Recoverable (ratchet : Ratchet B) (key : MessageKey B) : Prop :=
  key ∈ ratchet.skippedHeaderAndMessageKeys.messageKeys ∨
    key ∈ ratchet.stagedHeaderAndMessageKeys.messageKeys ∨
    Derivable Derives ratchet.toRatchetStorage.Holds (.messageKey key)

namespace Schedule

/-- What has to be kept from whoever steals the ratchet: the keys of the used places, every
chain key that leads to one of them and every root key before the newest one. -/
inductive Forbidden (schedule : Schedule B) (newest : ℕ) (used : List Place) : Secret B → Prop
  | rootKey {chain : ℕ} (hchain : chain < newest) :
      Forbidden schedule newest used (.rootKey (.ofKey (schedule.rootKey chain)))
  | chainKey {place : Place} {n : ℕ} (hplace : place ∈ used) (hn : n ≤ place.number) :
      Forbidden schedule newest used
        (.chainKey (.ofKey ((schedule.chainKey place.chain).advance n)))
  | messageKey {place : Place} (hplace : place ∈ used) :
      Forbidden schedule newest used (.messageKey (schedule.messageKey place))

variable {schedule : Schedule B} {newest : ℕ} {used : List Place}

theorem Chained.rootKey_of_derivation (h : schedule.Chained newest)
    (hhash : GenerichashInjective B) {chain : ℕ} (hchain : chain ≤ newest) {input : List B}
    {rootKey : RootKey B}
    (heq : (schedule chain).derivation = cryptoGenerichash input rootKey.bytes) :
    ∃ before < newest, rootKey = schedule.rootKey before := by
  cases chain with
  | zero => exact absurd heq (h.first_ne hhash _ _)
  | succ chain => exact ⟨chain, hchain, h.rootKey_eq hhash hchain heq⟩

/-- No derivation leads back: whoever derives a forbidden key has one already. -/
theorem Chained.guards (h : schedule.Chained newest) (hhash : GenerichashInjective B)
    (hkdf : KdfInjective B) (hused : ∀ place ∈ used, place.chain ≤ newest) :
    Guards Derives (schedule.Forbidden newest used) := by
  rintro premises secret hderives hforbidden
  cases hderives with
  | messageKey hderive =>
      rename_i chainKey messageKey
      cases hforbidden with
      | messageKey hplace =>
          rename_i place
          refine ⟨_, List.mem_singleton_self _, ?_⟩
          obtain ⟨hempty, hkey⟩ := EmptyableKey.of_deriveMessageKey hderive
          have hchainKey := (Key.deriveSubkeyWithIndex_inj hkdf hkey).1
          rw [EmptyableKey.eq_ofKey hempty, ← hchainKey]
          exact .chainKey hplace le_rfl
  | nextChainKey hderive =>
      rename_i chainKey nextChainKey
      obtain ⟨hempty, rfl⟩ := EmptyableKey.of_deriveChainKey hderive
      refine ⟨_, List.mem_singleton_self _, ?_⟩
      generalize hkey : EmptyableKey.ofKey chainKey.key.nextChainKey = key at hforbidden
      cases hforbidden with
      | chainKey hplace hn =>
          rename_i place n
          have hnext := EmptyableKey.ofKey_injective hkey
          cases n with
          | zero =>
              rw [Key.advance_zero, chainKey_eq] at hnext
              exact absurd (Key.deriveSubkeyWithIndex_inj hkdf hnext).2.symm
                (chainKeyIndex_ne_one _)
          | succ n =>
              rw [Key.advance_succ'] at hnext
              have hchainKey := (Key.deriveSubkeyWithIndex_inj hkdf hnext).1
              rw [EmptyableKey.eq_ofKey hempty, hchainKey]
              exact .chainKey hplace (Nat.le_of_succ_le hn)
  | rootKey hderive =>
      rename_i ourPrivate ourPublic theirPublic rootKey role derived
      obtain ⟨hempty, secret, -, rfl⟩ := exists_of_derived hderive
      refine ⟨.rootKey rootKey, by simp, ?_⟩
      generalize hkey : EmptyableKey.ofKey _ = key at hforbidden
      cases hforbidden with
      | rootKey hchain =>
          have hderivation := (Key.deriveSubkeyWithIndex_inj hkdf
            (EmptyableKey.ofKey_injective hkey)).1
          obtain ⟨before, hbefore, hroot⟩ :=
            h.rootKey_of_derivation hhash hchain.le hderivation.symm
          rw [EmptyableKey.eq_ofKey hempty, hroot]
          exact .rootKey hbefore
  | nextHeaderKey hderive => cases hforbidden
  | chainKey hderive =>
      rename_i ourPrivate ourPublic theirPublic rootKey role derived
      obtain ⟨hempty, secret, -, rfl⟩ := exists_of_derived hderive
      refine ⟨.rootKey rootKey, by simp, ?_⟩
      generalize hkey : EmptyableKey.ofKey _ = key at hforbidden
      cases hforbidden with
      | chainKey hplace hn =>
          rename_i place n
          have hstart := EmptyableKey.ofKey_injective hkey
          cases n with
          | zero =>
              rw [Key.advance_zero, chainKey_eq] at hstart
              have hderivation := (Key.deriveSubkeyWithIndex_inj hkdf hstart).1
              obtain ⟨before, hbefore, hroot⟩ :=
                h.rootKey_of_derivation hhash (hused place hplace) hderivation.symm
              rw [EmptyableKey.eq_ofKey hempty, hroot]
              exact .rootKey hbefore
          | succ n =>
              rw [Key.advance_succ'] at hstart
              exact absurd (Key.deriveSubkeyWithIndex_inj hkdf hstart).2 (by decide)

end Schedule

end Molch
