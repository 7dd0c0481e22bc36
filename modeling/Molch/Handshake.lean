import Molch.Ratchet

namespace Molch

open Sodium

variable {B : Type} [Byte B] [Sodium B]

section Mirror

omit [Byte B] in
theorem diffieHellman_mirror (hcommutes : ScalarmultCommutes B) (a b : PrivateKey B)
    (role : Role) :
    diffieHellman b (cryptoScalarmultBase b) (cryptoScalarmultBase a) role.other =
      diffieHellman a (cryptoScalarmultBase a) (cryptoScalarmultBase b) role := by
  unfold diffieHellman
  rw [hcommutes b a]
  cases cryptoScalarmult a (cryptoScalarmultBase b) with
  | none => rfl
  | some secret =>
      cases role with
      | alice => rfl
      | bob => rfl

omit [Byte B] in
theorem tripleDiffieHellman_mirror (hcommutes : ScalarmultCommutes B)
    (identity ephemeral identity' ephemeral' : PrivateKey B) (role : Role) :
    tripleDiffieHellman identity' (cryptoScalarmultBase identity') ephemeral'
        (cryptoScalarmultBase ephemeral') (cryptoScalarmultBase identity)
        (cryptoScalarmultBase ephemeral) role.other =
      tripleDiffieHellman identity (cryptoScalarmultBase identity) ephemeral
        (cryptoScalarmultBase ephemeral) (cryptoScalarmultBase identity')
        (cryptoScalarmultBase ephemeral') role := by
  have hsecrets : identitySecrets identity' (cryptoScalarmultBase identity') ephemeral'
      (cryptoScalarmultBase ephemeral') (cryptoScalarmultBase identity)
      (cryptoScalarmultBase ephemeral) role.other =
    identitySecrets identity (cryptoScalarmultBase identity) ephemeral
      (cryptoScalarmultBase ephemeral) (cryptoScalarmultBase identity')
      (cryptoScalarmultBase ephemeral') role := by
    cases role with
    | alice =>
        have h1 := diffieHellman_mirror hcommutes identity ephemeral' .alice
        have h2 := diffieHellman_mirror hcommutes ephemeral identity' .alice
        simp only [Role.other] at h1 h2
        simp only [Role.other, identitySecrets, h1, h2]
    | bob =>
        have h1 := diffieHellman_mirror hcommutes ephemeral identity' .bob
        have h2 := diffieHellman_mirror hcommutes identity ephemeral' .bob
        simp only [Role.other] at h1 h2
        simp only [Role.other, identitySecrets, h1, h2]
  unfold tripleDiffieHellman
  rw [hsecrets, diffieHellman_mirror hcommutes]

omit [Sodium B] in
theorem Ratchet.chooseRole_other {ourPublicIdentity theirPublicIdentity : PublicKey B}
    {role : Role} (h : chooseRole ourPublicIdentity theirPublicIdentity = .ok role) :
    chooseRole theirPublicIdentity ourPublicIdentity = .ok role.other := by
  unfold chooseRole at h ⊢
  split at h
  · rename_i hone
    cases h
    rw [sodiumCompare_eq_one_iff.mp hone]
    rfl
  · split at h
    · rename_i hminus
      cases h
      rw [sodiumCompare_eq_one_iff.mpr hminus]
      rfl
    · cases h

end Mirror

namespace Ratchet

theorem exists_of_create {ourPrivateIdentity ourPrivateEphemeral : PrivateKey B}
    {ourPublicIdentity theirPublicIdentity ourPublicEphemeral theirPublicEphemeral : PublicKey B}
    {ratchet : Ratchet B}
    (h : create ourPrivateIdentity ourPublicIdentity theirPublicIdentity ourPrivateEphemeral
      ourPublicEphemeral theirPublicEphemeral = .ok ratchet) :
    ∃ role masterKey, chooseRole ourPublicIdentity theirPublicIdentity = .ok role ∧
      tripleDiffieHellman ourPrivateIdentity ourPublicIdentity ourPrivateEphemeral
        ourPublicEphemeral theirPublicIdentity theirPublicEphemeral role = .ok masterKey ∧
      ratchet = ofInitialKeys role (.ofMasterKey masterKey.key role) ourPublicIdentity
        theirPublicIdentity ourPrivateEphemeral ourPublicEphemeral theirPublicEphemeral := by
  obtain ⟨role, hrole, hrest⟩ := Result.bind_eq_ok.mp h
  obtain ⟨derived, hderived, hok⟩ := Result.bind_eq_ok.mp hrest
  obtain ⟨masterKey, hmaster, hkeys⟩ := Result.bind_eq_ok.mp hderived
  cases hkeys
  cases hok
  exact ⟨role, masterKey, hrole, hmaster, rfl⟩

omit [Byte B] in
theorem exists_tripleDiffieHellman (ourPrivateIdentity ourPrivateEphemeral : PrivateKey B)
    (ourPublicIdentity ourPublicEphemeral : PublicKey B)
    {theirPublicIdentity theirPublicEphemeral : PublicKey B}
    (hidentity : Usable theirPublicIdentity) (hephemeral : Usable theirPublicEphemeral)
    (role : Role) :
    ∃ masterKey, tripleDiffieHellman ourPrivateIdentity ourPublicIdentity ourPrivateEphemeral
      ourPublicEphemeral theirPublicIdentity theirPublicEphemeral role = .ok masterKey := by
  obtain ⟨identityEphemeral, h1⟩ : ∃ secret, diffieHellman ourPrivateIdentity
      ourPublicIdentity theirPublicEphemeral role = .ok secret :=
    exists_diffieHellman (hephemeral ourPrivateIdentity) role
  obtain ⟨ephemeralIdentity, h2⟩ : ∃ secret, diffieHellman ourPrivateEphemeral
      ourPublicEphemeral theirPublicIdentity role = .ok secret :=
    exists_diffieHellman (hidentity ourPrivateEphemeral) role
  obtain ⟨ephemeralEphemeral, h3⟩ : ∃ secret, diffieHellman ourPrivateEphemeral
      ourPublicEphemeral theirPublicEphemeral role = .ok secret :=
    exists_diffieHellman (hephemeral ourPrivateEphemeral) role
  unfold tripleDiffieHellman
  cases role with
  | alice =>
      rw [identitySecrets, h1, h2, h3]
      exact ⟨_, rfl⟩
  | bob =>
      rw [identitySecrets, h1, h2, h3]
      exact ⟨_, rfl⟩

theorem exists_create {ourPublicIdentity theirPublicIdentity theirPublicEphemeral : PublicKey B}
    {role : Role} (hrole : chooseRole ourPublicIdentity theirPublicIdentity = .ok role)
    (hidentity : Usable theirPublicIdentity) (hephemeral : Usable theirPublicEphemeral)
    (ourPrivateIdentity ourPrivateEphemeral : PrivateKey B)
    (ourPublicEphemeral : PublicKey B) :
    ∃ ratchet, Ratchet.create ourPrivateIdentity ourPublicIdentity theirPublicIdentity
      ourPrivateEphemeral ourPublicEphemeral theirPublicEphemeral = .ok ratchet := by
  obtain ⟨masterKey, hmaster⟩ := exists_tripleDiffieHellman ourPrivateIdentity
    ourPrivateEphemeral ourPublicIdentity ourPublicEphemeral hidentity hephemeral role
  unfold Ratchet.create deriveInitialRootChainAndHeaderKeys
  rw [hrole]
  simp only [Result.ok_bind, hmaster]
  exact ⟨_, rfl⟩

end Ratchet

end Molch
