import Molch.Establishment
import Molch.SealedKeys

namespace Molch

open Sodium Lineage Relation

variable {B : Type} [Byte B] [Sodium B]

section Stealing

variable [ProtobufC B] [Platform]

/-- What somebody may know who has got at any number of conversations, each of them at least two
turns before the given one: all that they have stored, all public keys and header keys, and
private keys of any origin. -/
inductive Stolen (readings : World B → Prop) (n : ℕ) : Secret B → Prop
  | publicKey (key : PublicKey B) : Stolen readings n (.publicKey key)
  | privateKey (key : PrivateKey B) : Stolen readings n (.privateKey key)
  | headerKey (key : EmptyableHeaderKey B) : Stolen readings n (.headerKey key)
  | stored {conversation : Conversation B} (h : conversation.Reachable readings) {before : ℕ}
      (hbefore : conversation.ratchet.Turned Initial before) (hle : before + 2 ≤ n) {secret : Secret B}
      (hholds : conversation.ratchet.toRatchetStorage.Holds secret) : Stolen readings n secret
  | skipped {conversation : Conversation B} (h : conversation.Reachable readings) {before : ℕ}
      (hbefore : conversation.ratchet.Turned Initial before) (hle : before + 2 ≤ n)
      {key : HeaderAndMessageKey B}
      (hkey : key ∈ conversation.ratchet.skippedHeaderAndMessageKeys.keys) :
      Stolen readings n (.messageKey key.messageKey)

theorem Stolen.cases (hhash : GenerichashInjective B) (hkdf : KdfInjective B)
    (hnonzero : KdfNonzero B) (hpoint : ScalarmultFailsByPoint B) {readings : World B → Prop}
    {n : ℕ} {secret : Secret B} (h : Stolen readings n secret) :
    (∃ bound < n, UpTo Initial bound secret) ∨ (∃ key, secret = .headerKey key) ∨
      (∃ key, secret = .privateKey key) ∨ ∃ key, secret = .publicKey key := by
  have hgeneration : ∀ {conversation : Conversation B} {before : ℕ},
      conversation.Reachable readings → conversation.ratchet.Turned Initial before →
        conversation.ratchet.AtGeneration Initial before := by
    intro conversation before hreachable hbefore
    obtain ⟨before', hat⟩ := hreachable.atGeneration hnonzero hpoint
    rw [hbefore.unique hhash hkdf hat.turned]
    exact hat
  cases h with
  | publicKey key => exact .inr (.inr (.inr ⟨key, rfl⟩))
  | privateKey key => exact .inr (.inr (.inl ⟨key, rfl⟩))
  | headerKey key => exact .inr (.inl ⟨key, rfl⟩)
  | stored hreachable hbefore hle hholds =>
      refine ((hgeneration hreachable hbefore).holds hholds).imp_left fun h => ?_
      exact ⟨_, hle, h⟩
  | skipped hreachable hbefore hle hkey =>
      exact .inl ⟨_, hle, (hgeneration hreachable hbefore).skipped _ hkey⟩

namespace Conversation

variable {conversation : Conversation B}

omit [ProtobufC B] [Platform] in
theorem exists_of_getSendData (hhash : GenerichashInjective B) (hkdf : KdfInjective B)
    (hnonzero : KdfNonzero B) {ratchet ratchet' : Ratchet B} {m n : ℕ}
    (h : ratchet.AtGeneration Initial m) (hwell : ratchet.WellFormed) {data : SendData B} {w w' : World B}
    (hdata : ratchet.getSendData w = (.ok data, ratchet', w')) (hn : ratchet'.Turned Initial n)
    (hpos : 0 < n) :
    ∃ derivation secret rootKey k, DerivationOf Initial n derivation ∧
      derivation = cryptoGenerichash secret.bytes rootKey ∧
      diffieHellman ratchet'.ourPrivateEphemeral ratchet'.ourPublicEphemeral
        ratchet'.theirPublicEphemeral ratchet'.role = .ok secret ∧
      data.messageKey = (((derivation : Key B 32).deriveSubkeyWithIndex 2).advance k).messageKey := by
  rcases Ratchet.getSendData_cases hdata with ⟨hflag, -, headerKey, -, rfl, rfl⟩ |
    ⟨-, derived, hderived, rfl, rfl⟩
  · have hsame := hn.unique hhash hkdf (h.advanceSendChain (hwell.sendChainKey hflag)).turned
    subst hsame
    obtain ⟨derivation, hderivation, secret, rootKey, k, hsecret, heq, hchain⟩ :=
      h.sending hflag hpos
    refine ⟨derivation, secret, rootKey, k, hderivation, heq, hsecret, ?_⟩
    change ratchet.sendChainKey.key.messageKey = _
    rw [hchain]
    rfl
  · have hsame := hn.unique hhash hkdf ((h.withSendChain hderived).advanceSendChain
      (derived_chainKey_isNone hnonzero hderived)).turned
    subst hsame
    obtain ⟨secret, derivation, hsecret, heq, rfl, hderivation⟩ :=
      h.turned.exists_of_derived hderived
    exact ⟨derivation, secret, _, 0, hderivation, heq, hsecret, rfl⟩

/-- The message keys of a conversation cannot be derived from what has been stolen two turns of
the ratchet before or earlier, here or anywhere else, as long as neither of the two ephemeral
keys from which the chain comes is known. -/
theorem message_key_heals (hhash : GenerichashInjective B) (hkdf : KdfInjective B)
    (hnonzero : KdfNonzero B) (hpoint : ScalarmultFailsByPoint B)
    (hcommutes : ScalarmultCommutes B) (hbound : ScalarmultKeyBound B)
    {readings : World B → Prop} (h : conversation.Reachable readings) {message packet : List B}
    {prekeyMetadata : Option (PrekeyMetadata B)} {sent : Conversation B} {w w' : World B}
    (hsend : conversation.send message prekeyMetadata w = (.ok packet, sent, w')) {n : ℕ}
    (hpos : 0 < n) (hn : sent.ratchet.Turned Initial n) {theirs : PrivateKey B}
    (htheirs : IsKeyPair theirs sent.ratchet.theirPublicEphemeral) {known : Set (Secret B)}
    (hknown : ∀ secret ∈ known, Stolen readings n secret)
    (hprivate : ∀ privateKey, .privateKey privateKey ∈ known →
      ¬ IsKeyPair privateKey sent.ratchet.ourPublicEphemeral ∧
        ¬ IsKeyPair privateKey sent.ratchet.theirPublicEphemeral) :
    ∃ key, conversation.usedKey (.send message prekeyMetadata w) = some key ∧
      ¬ Derivable Derives known (.messageKey key) := by
  obtain ⟨m, hat⟩ := h.atGeneration hnonzero hpoint
  have hwell := h.wellFormed hnonzero hpoint
  obtain ⟨data, ratchet, w'', hdata, hempty, hwell'⟩ := hwell.getSendData hnonzero w
  obtain ⟨packet', v, hsent, -⟩ := send_of_getSendData hdata hempty message prekeyMetadata
  obtain ⟨hpacket, hstate⟩ := Prod.mk.inj (hsend.symm.trans hsent)
  obtain ⟨rfl, -⟩ := Prod.mk.inj hstate
  refine ⟨data.messageKey, by rw [usedKey, hdata, hsent], ?_⟩
  obtain ⟨derivation, secret, rootKey, k, hderivation, heq, hsecret, hkey⟩ :=
    exists_of_getSendData hhash hkdf hnonzero hat hwell hdata hn hpos
  have hflag : ratchet.ratchetFlag = false := by
    have hsends := hwell.ratchetFlag_getSendData w
    rw [hdata] at hsends
    exact hsends
  have hours : IsKeyPair ratchet.ourPrivateEphemeral ratchet.ourPublicEphemeral :=
    hwell'.ourEphemeral hflag
  simp only at htheirs hprivate
  rw [← hours, ← htheirs] at hsecret hprivate
  have hlocked := locked_of_diffieHellman hhash hcommutes hbound hsecret rootKey
  rw [← heq] at hlocked
  have hguards := Sealed.guards hhash hkdf hlocked
  rw [hkey]
  refine fun hderivable => hguards.not_mem_of_derivable (fun secret hmem hsealed => ?_) hderivable
    (.stems .refl (.messageKey (by decide) k))
  rcases (hknown secret hmem).cases hhash hkdf hnonzero hpoint with ⟨bound, hlt, hupTo⟩ |
    ⟨key, rfl⟩ | ⟨key, rfl⟩ | ⟨key, rfl⟩
  · exact Sealed.not_of_upTo hhash hkdf hnonzero hderivation hlt hupTo hsealed
  · exact Sealed.not_headerKey key hsealed
  · obtain ⟨hnotOurs, hnotTheirs⟩ := hprivate key hmem
    exact hsealed.of_privateKey.elim hnotOurs hnotTheirs
  · exact Sealed.not_publicKey key hsealed

end Conversation

end Stealing

namespace Symbolic

open Conversation

theorem eq_of_base_eq {a b : PrivateKey ℕ} (h : cryptoScalarmultBase a = cryptoScalarmultBase b) :
    a = b :=
  publicCode_injective (carry_injective (by decide) h)

/-- A world that draws one key only. -/
def drawing (key : Key ℕ 32) : World ℕ :=
  { world with
    random := fun _ size =>
      if hsize : size = 32 then ⟨key.bytes, by rw [hsize, key.length_bytes]⟩ else Key.zero }

theorem exists_written {session : Session ℕ} (h : session.Started) (fresh : PrivateKey ℕ) :
    ∃ (packet : List ℕ) (w w' : World ℕ) (message : ReceivedMessage ℕ) (r : Conversation ℕ)
      (chain : ℕ), (session.party .bob).receive packet w = (.ok message, r, w') ∧
      r.ratchet.ratchetFlag = true ∧ 1 ≤ chain ∧ r.ratchet.Turned Initial chain ∧
      r.ratchet.theirPublicEphemeral = cryptoScalarmultBase fresh := by
  obtain ⟨hflag, hnumber, hprevious, -⟩ := h.numbers .alice
  obtain ⟨-, -, -, hreceived, hskipped, -⟩ := h.numbers .bob
  obtain ⟨data, packet, s, r, w', v', w'', hdata, hsend, hreceive, session', hsafe, rfl, rfl, -⟩ :=
    (h.safe idealised).send_deliver idealised .alice [1, 2, 3] none (drawing fresh) world
      (fun hfalse => by rw [hflag] at hfalse; cases hfalse)
      (fun data ratchet w' hdata => by
        obtain ⟨hzero, hbefore, -⟩ := Session.numbers_of_getSendData hdata hnumber fun _ => hprevious
        rw [hzero]
        exact ⟨Nat.zero_le _, hbefore⟩)
      hskipped (by rw [show Role.alice.other = .bob from rfl, hreceived]; exact Nat.zero_le _)
      (by rw [h.delivered]; exact List.not_mem_nil)
  have hprivate : (session'.party .alice).ratchet.ourPrivateEphemeral = fresh := by
    rcases Ratchet.getSendData_cases hdata with ⟨hfalse, -⟩ | ⟨-, derived, -, -, heq⟩
    · rw [hflag] at hfalse
      cases hfalse
    · rw [heq]
      rfl
  obtain ⟨x, hvalid, schedule, hfollows⟩ := hsafe
  have hfollow := hfollows schedule fun _ _ => rfl
  have hrFlag := (h.flag_of_receive idealised hreceive).1
  have hbobFlag : x.flag .bob = true := (hfollow.party .bob).flag.symm.trans hrFlag
  have hturn : x.turn .bob = x.turn .alice + 1 := hvalid.flag .bob hbobFlag
  have haliceFlag : x.flag .alice = false := hvalid.flag_other hbobFlag
  have hlistening := (hfollow.party .bob).listening hbobFlag _ hturn
  have hsending := (hfollow.party .alice).sending haliceFlag
  refine ⟨packet, _, v', _, _, x.turn .alice, hreceive, hrFlag, ?_,
    ⟨_, hfollow.linked.chained.derivationOf (hvalid.newest' .alice haliceFlag),
      hlistening.rootKey⟩, ?_⟩
  · by_contra hlt
    have hzero : x.turn .alice = 0 := by omega
    have hsender := hvalid.sender .alice
    rw [hzero] at hsender
    cases hsender
  · rw [← hprivate, hsending.ourPrivateEphemeral]
    exact hlistening.theirPublicEphemeral

/-- Somebody knows what Bob has stored when his conversation was created. Alice writes to him
and he answers, both with new keys: the key of his answer remains a secret. -/
theorem message_key_heals_answer :
    ∃ (bob bob' : Conversation ℕ) (packet : List ℕ) (w w' : World ℕ) (key : MessageKey ℕ),
      bob.Created ∧ (bob.receive packet w).2.1 = bob' ∧
      bob'.usedKey (.send [4, 5, 6] none w') = some key ∧
      ¬ Derivable Derives bob.ratchet.toRatchetStorage.Holds (.messageKey key) := by
  obtain ⟨session, h⟩ := exists_session
  have hbob := created_party h .bob
  obtain ⟨fresh, hfresh⟩ : ∃ fresh, fresh ≠ (session.party .bob).ratchet.ourPrivateEphemeral := by
    have hne : carry 32 0 ≠ carry 32 1 := fun heq =>
      Nat.zero_ne_one (carry_injective (by decide) heq)
    by_cases hzero : carry 32 0 = (session.party .bob).ratchet.ourPrivateEphemeral
    · exact ⟨carry 32 1, fun hone => hne (hzero.trans hone.symm)⟩
    · exact ⟨carry 32 0, hzero⟩
  obtain ⟨packet, w, w', message, r, chain, hreceive, hflag, hchain, hturned, htheirs⟩ :=
    exists_written h fresh
  have hreachable := hbob.reachable.receive packet (w := w) trivial
  rw [hreceive] at hreachable
  have hwell := hreachable.wellFormed kdfNonzero scalarmultFailsByPoint
  obtain ⟨data, ratchet, v, hdata, hempty, -⟩ := hwell.getSendData kdfNonzero (drawing fresh)
  obtain ⟨packet', v', hsend, -⟩ := send_of_getSendData hdata hempty [4, 5, 6] none
  obtain ⟨derived, hderived, rfl⟩ : ∃ derived, deriveRootNextHeaderAndChainKeys fresh
      (cryptoScalarmultBase fresh) r.ratchet.theirPublicEphemeral r.ratchet.rootKey
      r.ratchet.role = .ok derived ∧
        ratchet = (r.ratchet.withSendChain fresh derived).advanceSendChain := by
    rcases Ratchet.getSendData_cases hdata with ⟨hfalse, -⟩ | ⟨-, derived, hderived, -, heq⟩
    · rw [hflag] at hfalse
      cases hfalse
    · exact ⟨derived, hderived, heq⟩
  obtain ⟨secret, derivation, -, -, rfl, hderivation⟩ := hturned.exists_of_derived hderived
  have hstolen : ∀ secret, (session.party .bob).ratchet.toRatchetStorage.Holds secret →
      Stolen (fun _ => True) (chain + 1) secret := fun secret hholds =>
    .stored hbob.reachable hbob.atGeneration.turned (Nat.succ_le_succ hchain) hholds
  have hunknown : ∀ privateKey,
      (session.party .bob).ratchet.toRatchetStorage.Holds (.privateKey privateKey) →
        cryptoScalarmultBase privateKey ≠ cryptoScalarmultBase fresh := by
    rintro privateKey hholds heq
    apply hfresh
    rw [← eq_of_base_eq heq]
    cases hholds
    rfl
  obtain ⟨key, hused, hsecret⟩ := message_key_heals generichashInjective kdfInjective kdfNonzero
    scalarmultFailsByPoint scalarmultCommutes scalarmultKeyBound hreachable hsend
    (Nat.succ_pos chain) ⟨derivation, hderivation, rfl⟩ htheirs.symm hstolen
    fun privateKey hholds => ⟨hunknown privateKey hholds,
      fun heq => hunknown privateKey hholds (heq.trans htheirs)⟩
  exact ⟨session.party .bob, r, packet, w, drawing fresh, key, hbob, by rw [hreceive], hused,
    hsecret⟩

end Symbolic

end Molch
