import Molch.ForwardSecrecy
import Molch.KeyGenerations

namespace Molch

open Sodium Lineage Relation

variable {B : Type} [Byte B] [Sodium B]

section SharedSecrets

variable {ours theirs key : PrivateKey B} {ourPublic theirPublic : PublicKey B} {role role' : Role}
  {secret : Key B 32}

omit [Byte B] in
/-- The hash of a shared secret contains both public keys, Alice's first. -/
theorem diffieHellman_inj (hhash : GenerichashInjective B)
    {ourPublic' theirPublic' : PublicKey B}
    (h : diffieHellman ours ourPublic theirPublic role = .ok secret)
    (h' : diffieHellman key ourPublic' theirPublic' role' = .ok secret) :
    cryptoScalarmult key theirPublic' = cryptoScalarmult ours theirPublic ∧
      ((role' = role ∧ ourPublic' = ourPublic ∧ theirPublic' = theirPublic) ∨
        (role' = role.other ∧ ourPublic' = theirPublic ∧ theirPublic' = ourPublic)) := by
  have hinputs : ∀ {a b c a' b' c' : Key B 32},
      cryptoGenerichash (a.bytes ++ b.bytes ++ c.bytes) [] =
        (cryptoGenerichash (a'.bytes ++ b'.bytes ++ c'.bytes) [] : Key B 32) →
      a = a' ∧ b = b' ∧ c = c' := by
    intro a b c a' b' c' heq
    obtain ⟨hfront, hc⟩ := List.append_inj' (hhash _ _ _ _ heq).1 (by simp [Key.length_bytes])
    obtain ⟨ha, hb⟩ := List.append_inj' hfront (by simp [Key.length_bytes])
    exact ⟨Key.ext ha, Key.ext hb, Key.ext hc⟩
  unfold diffieHellman at h h'
  cases hshared : cryptoScalarmult ours theirPublic with
  | none =>
      rw [hshared] at h
      cases h
  | some shared =>
      cases hshared' : cryptoScalarmult key theirPublic' with
      | none =>
          rw [hshared'] at h'
          cases h'
      | some shared' =>
          rw [hshared] at h
          rw [hshared'] at h'
          cases role with
          | alice =>
              cases role' with
              | alice =>
                  obtain ⟨rfl, rfl, rfl⟩ := hinputs (Except.ok.inj (h'.trans h.symm))
                  exact ⟨rfl, .inl ⟨rfl, rfl, rfl⟩⟩
              | bob =>
                  obtain ⟨rfl, rfl, rfl⟩ := hinputs (Except.ok.inj (h'.trans h.symm))
                  exact ⟨rfl, .inr ⟨rfl, rfl, rfl⟩⟩
          | bob =>
              cases role' with
              | alice =>
                  obtain ⟨rfl, rfl, rfl⟩ := hinputs (Except.ok.inj (h'.trans h.symm))
                  exact ⟨rfl, .inr ⟨rfl, rfl, rfl⟩⟩
              | bob =>
                  obtain ⟨rfl, rfl, rfl⟩ := hinputs (Except.ok.inj (h'.trans h.symm))
                  exact ⟨rfl, .inl ⟨rfl, rfl, rfl⟩⟩

omit [Byte B] in
theorem publics_eq_of_diffieHellman (hhash : GenerichashInjective B)
    {ourPublic' theirPublic' : PublicKey B}
    (h : diffieHellman ours ourPublic theirPublic role = .ok secret)
    (h' : diffieHellman key ourPublic' theirPublic' role = .ok secret) :
    ourPublic' = ourPublic ∧ theirPublic' = theirPublic := by
  obtain ⟨-, ⟨-, hours, htheirs⟩ | ⟨hother, -⟩⟩ := diffieHellman_inj hhash h h'
  · exact ⟨hours, htheirs⟩
  · exact absurd hother role.ne_other

omit [Byte B] in
theorem publics_swap_of_diffieHellman (hhash : GenerichashInjective B)
    {ourPublic' theirPublic' : PublicKey B}
    (h : diffieHellman ours ourPublic theirPublic role = .ok secret)
    (h' : diffieHellman key ourPublic' theirPublic' role.other = .ok secret) :
    ourPublic' = theirPublic ∧ theirPublic' = ourPublic := by
  obtain ⟨-, ⟨hsame, -⟩ | ⟨-, hours, htheirs⟩⟩ := diffieHellman_inj hhash h h'
  · exact absurd hsame role.other_ne
  · exact ⟨hours, htheirs⟩

omit [Byte B] in
theorem private_of_diffieHellman (hhash : GenerichashInjective B)
    (hcommutes : ScalarmultCommutes B) (hbound : ScalarmultKeyBound B)
    (h : diffieHellman ours (cryptoScalarmultBase ours) (cryptoScalarmultBase theirs) role =
      .ok secret)
    (h' : diffieHellman key ourPublic theirPublic role' = .ok secret) :
    cryptoScalarmultBase key = cryptoScalarmultBase ours ∨
      cryptoScalarmultBase key = cryptoScalarmultBase theirs := by
  obtain ⟨hshared, ⟨-, -, rfl⟩ | ⟨-, -, rfl⟩⟩ := diffieHellman_inj hhash h h'
  · exact .inl (hbound _ _ _ hshared)
  · rw [hcommutes ours theirs] at hshared
    exact .inr (hbound _ _ _ hshared)

end SharedSecrets

/-- No step of the ratchet leads to the derivation key without one of the private keys. -/
def Locked (start : Key B 32) (ours theirs : PrivateKey B) : Prop :=
  ∀ (ourPrivate : PrivateKey B) (ourPublic theirPublic : PublicKey B) (role : Role)
    (secret : Key B 32) (rootKey : RootKey B),
    diffieHellman ourPrivate ourPublic theirPublic role = .ok secret →
    start = cryptoGenerichash secret.bytes rootKey.bytes →
      cryptoScalarmultBase ourPrivate = cryptoScalarmultBase ours ∨
        cryptoScalarmultBase ourPrivate = cryptoScalarmultBase theirs

omit [Byte B] in
theorem locked_of_diffieHellman (hhash : GenerichashInjective B)
    (hcommutes : ScalarmultCommutes B) (hbound : ScalarmultKeyBound B) {ours theirs : PrivateKey B}
    {role : Role} {secret : Key B 32}
    (hsecret : diffieHellman ours (cryptoScalarmultBase ours) (cryptoScalarmultBase theirs) role =
      .ok secret) (rootKey : List B) :
    Locked (cryptoGenerichash secret.bytes rootKey) ours theirs := by
  intro ourPrivate ourPublic theirPublic role' secret' rootKey' hsecret' heq
  rw [← Key.ext (hhash _ _ _ _ heq).1] at hsecret'
  exact private_of_diffieHellman hhash hcommutes hbound hsecret hsecret'

omit [Byte B] in
theorem Initial.locked (hhash : GenerichashInjective B) {start : Key B 32} (h : Initial start)
    (ours theirs : PrivateKey B) : Locked start ours theirs := by
  intro ourPrivate ourPublic theirPublic role secret rootKey hsecret heq
  obtain ⟨input, rfl⟩ := h
  have hlength := congrArg List.length (hhash _ _ _ _ heq).2
  rw [Key.length_bytes] at hlength
  cases hlength

/-- The keys that come from a derivation key or from later ones, and the two private keys. -/
inductive Sealed (start : Key B 32) (ours theirs : PrivateKey B) : Secret B → Prop
  | stems {derivation : Key B 32} {secret : Secret B}
      (hdescends : ReflTransGen Precedes start derivation) (h : Stems derivation secret) :
      Sealed start ours theirs secret
  | privateKey {key : PrivateKey B}
      (h : cryptoScalarmultBase key = cryptoScalarmultBase ours ∨
        cryptoScalarmultBase key = cryptoScalarmultBase theirs) :
      Sealed start ours theirs (.privateKey key)

namespace Sealed

variable {start : Key B 32} {ours theirs : PrivateKey B}

theorem not_publicKey (key : PublicKey B) : ¬ Sealed start ours theirs (.publicKey key) := by
  rintro (⟨-, hstems⟩ | -)
  cases hstems

theorem not_headerKey (key : EmptyableHeaderKey B) :
    ¬ Sealed start ours theirs (.headerKey key) := by
  rintro (⟨-, hstems⟩ | -)
  cases hstems

theorem of_privateKey {key : PrivateKey B} (h : Sealed start ours theirs (.privateKey key)) :
    cryptoScalarmultBase key = cryptoScalarmultBase ours ∨
      cryptoScalarmultBase key = cryptoScalarmultBase theirs := by
  rcases h with ⟨-, hstems⟩ | hkey
  · cases hstems
  · exact hkey

theorem of_derivation (hhash : GenerichashInjective B) (hlocked : Locked start ours theirs)
    {derivation : Key B 32} (hdescends : ReflTransGen Precedes start derivation)
    {ourPrivate : PrivateKey B} {ourPublic theirPublic : PublicKey B}
    {previous : EmptyableRootKey B} {role : Role} {secret : Key B 32}
    (hempty : previous.empty = false)
    (hsecret : diffieHellman ourPrivate ourPublic theirPublic role = .ok secret)
    (heq : derivation = cryptoGenerichash secret.bytes previous.key.bytes) :
    ∃ premise ∈ [Secret.privateKey ourPrivate, .publicKey ourPublic, .publicKey theirPublic,
      .rootKey previous], Sealed start ours theirs premise := by
  rcases hdescends.cases_tail with rfl | ⟨before, hbefore, input, hinput⟩
  · exact ⟨_, List.mem_cons_self, .privateKey (hlocked _ _ _ _ _ _ hsecret heq)⟩
  · refine ⟨.rootKey previous, by simp, ?_⟩
    rw [EmptyableKey.eq_ofKey hempty,
      ← Key.ext (hhash _ _ _ _ (hinput.symm.trans heq)).2]
    exact .stems hbefore .rootKey

/-- No derivation leads to sealed keys from outside. -/
theorem guards (hhash : GenerichashInjective B) (hkdf : KdfInjective B)
    (hlocked : Locked start ours theirs) : Guards Derives (Sealed start ours theirs) := by
  rintro premises conclusion hderives hsealed
  cases hderives with
  | messageKey hderive =>
      rename_i chainKey messageKey
      obtain ⟨hempty, rfl⟩ := EmptyableKey.of_deriveMessageKey hderive
      refine ⟨_, List.mem_singleton_self _, ?_⟩
      generalize hkey : chainKey.key.messageKey = key at hsealed
      cases hsealed with
      | stems hdescends h =>
          cases h with
          | messageKey hi n =>
              rw [EmptyableKey.eq_ofKey hempty, (Key.deriveSubkeyWithIndex_inj hkdf hkey).1]
              exact .stems hdescends (.chainKey hi n)
  | nextChainKey hderive =>
      rename_i chainKey nextChainKey
      obtain ⟨hempty, rfl⟩ := EmptyableKey.of_deriveChainKey hderive
      refine ⟨_, List.mem_singleton_self _, ?_⟩
      generalize hkey : EmptyableKey.ofKey chainKey.key.nextChainKey = key at hsealed
      cases hsealed with
      | stems hdescends h =>
          cases h with
          | chainKey hi n =>
              have hnext := EmptyableKey.ofKey_injective hkey
              cases n with
              | zero => exact absurd (Key.deriveSubkeyWithIndex_inj hkdf hnext).2.symm hi
              | succ n =>
                  rw [Key.advance_succ'] at hnext
                  rw [EmptyableKey.eq_ofKey hempty, (Key.deriveSubkeyWithIndex_inj hkdf hnext).1]
                  exact .stems hdescends (.chainKey hi n)
  | rootKey hderive =>
      obtain ⟨hempty, secret', hsecret', rfl⟩ := exists_of_derived hderive
      generalize hkey : EmptyableKey.ofKey _ = key at hsealed
      cases hsealed with
      | stems hdescends h =>
          cases h
          exact of_derivation hhash hlocked hdescends hempty hsecret'
            (Key.deriveSubkeyWithIndex_inj hkdf (EmptyableKey.ofKey_injective hkey)).1.symm
  | nextHeaderKey hderive =>
      cases hsealed with
      | stems hdescends h => cases h
  | chainKey hderive =>
      obtain ⟨hempty, secret', hsecret', rfl⟩ := exists_of_derived hderive
      generalize hkey : EmptyableKey.ofKey _ = key at hsealed
      cases hsealed with
      | stems hdescends h =>
          cases h with
          | chainKey hi n =>
              have hchain := EmptyableKey.ofKey_injective hkey
              cases n with
              | zero =>
                  exact of_derivation hhash hlocked hdescends hempty hsecret'
                    (Key.deriveSubkeyWithIndex_inj hkdf hchain).1.symm
              | succ n =>
                  rw [Key.advance_succ'] at hchain
                  exact absurd (Key.deriveSubkeyWithIndex_inj hkdf hchain).2 (by decide)

theorem exists_of_upTo (hkdf : KdfInjective B) (hnonzero : KdfNonzero B)
    {origin : Key B 32 → Prop} {bound : ℕ} {secret : Secret B} (h : UpTo origin bound secret)
    (hsealed : Sealed start ours theirs secret) :
    ∃ n ≤ bound, ∃ derivation, DerivationOf origin n derivation ∧
      ReflTransGen Precedes start derivation := by
  cases h with
  | noRootKey hnone =>
      cases hsealed with
      | stems hdescends hstems =>
          cases hstems
          rw [EmptyableKey.isNone_ofKey, Key.isZero_deriveSubkeyWithIndex hnonzero] at hnone
          cases hnone
  | noChainKey hnone =>
      cases hsealed with
      | stems hdescends hstems =>
          cases hstems with
          | chainKey hi m =>
              cases m with
              | zero =>
                  rw [Key.advance_zero, EmptyableKey.isNone_ofKey,
                    Key.isZero_deriveSubkeyWithIndex hnonzero] at hnone
                  cases hnone
              | succ m =>
                  rw [Ratchet.advance_succ_isNone hnonzero] at hnone
                  cases hnone
  | stems hle hderivation hstems =>
      cases hsealed with
      | stems hdescends hstems' =>
          rw [hstems'.derivation_eq hkdf hstems] at hdescends
          exact ⟨_, hle, _, hderivation, hdescends⟩
      | privateKey => cases hstems

theorem not_of_upTo (hhash : GenerichashInjective B) (hkdf : KdfInjective B)
    (hnonzero : KdfNonzero B) {n bound : ℕ} (hstart : DerivationOf Initial n start)
    (hlt : bound < n) {secret : Secret B} (h : UpTo Initial bound secret) :
    ¬ Sealed start ours theirs secret := by
  intro hsealed
  obtain ⟨m, hle, derivation, hderivation, hdescends⟩ := exists_of_upTo hkdf hnonzero h hsealed
  exact hstart.not_descends (unique_derivation hhash hkdf) hderivation
    (Nat.lt_of_le_of_lt hle hlt) hdescends

end Sealed

end Molch
