import Molch.Exchange
import Molch.Handshake

namespace Molch

open Sodium

variable {B : Type} [Byte B] [Sodium B]

/-- What the keys of a chain are derived from. -/
structure ChainSecret (B : Type) where
  derivation : Key B 32
  ephemeral : PrivateKey B

/-- The secrets of the chains of a conversation, by the number of the chain. -/
abbrev Schedule (B : Type) := ℕ → ChainSecret B

namespace Schedule

variable (schedule : Schedule B)

def rootKey (chain : ℕ) : RootKey B := (schedule chain).derivation.deriveSubkeyWithIndex 0

/-- The header keys of the first three chains come with the first derivation key, every later
one with the derivation key of the chain before the last. -/
def headerKey : ℕ → HeaderKey B
  | 0 => (schedule 0).derivation.deriveSubkeyWithIndex 1
  | 1 => (schedule 0).derivation.deriveSubkeyWithIndex 2
  | 2 => (schedule 0).derivation.deriveSubkeyWithIndex 3
  | chain + 3 => (schedule (chain + 1)).derivation.deriveSubkeyWithIndex 1

def chainKey : ℕ → ChainKey B
  | 0 => (schedule 0).derivation.deriveSubkeyWithIndex 4
  | chain + 1 => (schedule (chain + 1)).derivation.deriveSubkeyWithIndex 2

def chainKeyIndex : ℕ → UInt32
  | 0 => 4
  | _ + 1 => 2

theorem chainKeyIndex_ne_one (chain : ℕ) : chainKeyIndex chain ≠ 1 := by
  cases chain with
  | zero => exact fun h => absurd h (by decide)
  | succ chain => exact fun h => absurd (show (2 : UInt32) = 1 from h) (by decide)

theorem chainKey_eq (chain : ℕ) : schedule.chainKey chain =
    (schedule chain).derivation.deriveSubkeyWithIndex (chainKeyIndex chain) := by
  cases chain with
  | zero => rfl
  | succ chain => rfl

def messageKey (place : Place) : MessageKey B :=
  ((schedule.chainKey place.chain).advance place.number).messageKey

def keys (place : Place) : EmptyableHeaderKey B × MessageKey B :=
  (.ofKey (schedule.headerKey place.chain), schedule.messageKey place)

/-- The key of a chain from a position beyond all of the places. -/
def Beyond (places : List Place) (chain : ℕ)
    (key : EmptyableChainKey B) : Prop :=
  ∃ n, key = .ofKey ((schedule.chainKey chain).advance n) ∧
    ∀ place ∈ places, place.chain = chain → place.number < n

/-- Up to the newest chain, every derivation key comes from the root key before it. -/
structure Chained (newest : ℕ) : Prop where
  first : ∃ input, (schedule 0).derivation = cryptoGenerichash input []
  next : ∀ chain < newest, ∃ input, (schedule (chain + 1)).derivation =
    cryptoGenerichash input (schedule.rootKey chain).bytes

/-- Up to the newest chain, every derivation key mixes the secret shared by two neighbouring
ephemeral keys into the root key before it. -/
structure Linked (newest : ℕ) : Prop where
  first : ∃ input, (schedule 0).derivation = cryptoGenerichash input []
  next : ∀ chain < newest, ∃ secret,
    diffieHellman (schedule chain).ephemeral (cryptoScalarmultBase (schedule chain).ephemeral)
      (cryptoScalarmultBase (schedule (chain + 1)).ephemeral) (chainSender chain) = .ok secret ∧
    (schedule (chain + 1)).derivation =
      cryptoGenerichash secret.bytes (schedule.rootKey chain).bytes

variable {schedule} {newest : ℕ}

theorem Linked.derive (h : schedule.Linked newest) {chain : ℕ} (hchain : chain < newest) :
    deriveRootNextHeaderAndChainKeys (schedule chain).ephemeral
        (cryptoScalarmultBase (schedule chain).ephemeral)
        (cryptoScalarmultBase (schedule (chain + 1)).ephemeral)
        (.ofKey (schedule.rootKey chain)) (chainSender chain) =
      .ok ⟨schedule.rootKey (chain + 1), schedule.headerKey (chain + 3),
        schedule.chainKey (chain + 1)⟩ := by
  obtain ⟨secret, hsecret, hderivation⟩ := h.next chain hchain
  unfold deriveRootNextHeaderAndChainKeys
  rw [hsecret]
  simp only [EmptyableKey.ofKey_empty, EmptyableKey.ofKey_key, Result.ok_bind, Result.pure_eq_ok,
    Bool.false_eq_true, if_false]
  rw [← hderivation]
  rfl

theorem Linked.succ (h : schedule.Linked newest) (hcommutes : ScalarmultCommutes B)
    (secret : Key B 32) (ephemeral : PrivateKey B)
    (hsecret : diffieHellman ephemeral (cryptoScalarmultBase ephemeral)
      (cryptoScalarmultBase (schedule newest).ephemeral) (chainSender (newest + 1)) = .ok secret)
    (hnew : schedule (newest + 1) =
      ⟨cryptoGenerichash secret.bytes (schedule.rootKey newest).bytes, ephemeral⟩) :
    schedule.Linked (newest + 1) where
  first := h.first
  next chain hchain := by
    rcases Nat.lt_succ_iff_lt_or_eq.mp hchain with hlt | rfl
    · exact h.next chain hlt
    · refine ⟨secret, ?_, by rw [hnew]⟩
      rw [hnew, ← diffieHellman_mirror hcommutes, ← chainSender_add_one]
      exact hsecret

theorem Beyond.mono {places places' : List Place} {chain : ℕ} {key : EmptyableChainKey B}
    (h : schedule.Beyond places chain key)
    (hplaces : ∀ place ∈ places', place.chain = chain → place ∈ places) :
    schedule.Beyond places' chain key := by
  obtain ⟨n, hkey, hn⟩ := h
  exact ⟨n, hkey, fun place hplace hchain => hn place (hplaces place hplace hchain) hchain⟩

theorem Beyond.snoc_of_ne {places : List Place} {chain : ℕ} {key : EmptyableChainKey B}
    (h : schedule.Beyond places chain key) {place : Place} (hne : place.chain ≠ chain) :
    schedule.Beyond (places ++ [place]) chain key := by
  refine h.mono fun other hother hchain => ?_
  rcases List.mem_append.mp hother with hother | hother
  · exact hother
  · rw [List.mem_singleton.mp hother] at hchain
    exact absurd hchain hne

theorem beyond_snoc {places : List Place} {chain n : ℕ}
    (hn : ∀ place ∈ places, place.chain = chain → place.number < n) :
    schedule.Beyond (places ++ [⟨chain, n⟩]) chain
      (.ofKey ((schedule.chainKey chain).advance n).nextChainKey) := by
  refine ⟨n + 1, by rw [Key.advance_succ'], ?_⟩
  intro place hplace hchain
  rcases List.mem_append.mp hplace with hplace | hplace
  · exact Nat.lt_succ_of_lt (hn place hplace hchain)
  · rw [List.mem_singleton.mp hplace]
    exact Nat.lt_succ_self n

theorem Chained.succ (h : schedule.Chained newest) {input : List B}
    (hnew : (schedule (newest + 1)).derivation =
      cryptoGenerichash input (schedule.rootKey newest).bytes) :
    schedule.Chained (newest + 1) := by
  refine ⟨h.first, fun chain hchain => ?_⟩
  rcases Nat.lt_succ_iff_lt_or_eq.mp hchain with hlt | rfl
  · exact h.next chain hlt
  · exact ⟨input, hnew⟩

section Agreement

variable {schedule' : Schedule B} {chain : ℕ}

theorem rootKey_congr (h : schedule' chain = schedule chain) :
    schedule'.rootKey chain = schedule.rootKey chain := by
  rw [rootKey, rootKey, h]

theorem chainKey_congr (h : schedule' chain = schedule chain) :
    schedule'.chainKey chain = schedule.chainKey chain := by
  rw [chainKey_eq, chainKey_eq, h]

theorem messageKey_congr {place : Place} (h : schedule' place.chain = schedule place.chain) :
    schedule'.messageKey place = schedule.messageKey place := by
  rw [messageKey, messageKey, chainKey_congr h]

theorem Beyond.congr {places : List Place} {key : EmptyableChainKey B}
    (hbeyond : schedule.Beyond places chain key) (h : schedule' chain = schedule chain) :
    schedule'.Beyond places chain key := by
  obtain ⟨n, hkey, hn⟩ := hbeyond
  exact ⟨n, by rw [hkey, chainKey_congr h], hn⟩

theorem Chained.congr (h : schedule.Chained newest)
    (hagree : ∀ chain ≤ newest, schedule' chain = schedule chain) :
    schedule'.Chained newest := by
  refine ⟨?_, fun chain hchain => ?_⟩
  · rw [hagree 0 (Nat.zero_le _)]
    exact h.first
  · rw [hagree (chain + 1) hchain, rootKey_congr (hagree chain hchain.le)]
    exact h.next chain hchain

omit [Sodium B] in
theorem exists_continuation (schedule : Schedule B) (newest : ℕ)
    (derivation : Key B 32) : ∃ schedule' : Schedule B,
      (schedule' (newest + 1)).derivation = derivation ∧
        ∀ chain ≤ newest, schedule' chain = schedule chain := by
  refine ⟨Function.update schedule (newest + 1) ⟨derivation, Key.zero⟩, ?_, fun chain hchain => ?_⟩
  · rw [Function.update_self]
  · exact Function.update_of_ne (by omega) _ _

end Agreement

theorem Linked.chained (h : schedule.Linked newest) : schedule.Chained newest where
  first := h.first
  next chain hchain := by
    obtain ⟨secret, -, hderivation⟩ := h.next chain hchain
    exact ⟨_, hderivation⟩

section Chained

variable (h : schedule.Chained newest) (hhash : GenerichashInjective B)

include h hhash

theorem Chained.first_ne (input : List B) (rootKey : RootKey B) :
    (schedule 0).derivation ≠ cryptoGenerichash input rootKey.bytes := by
  intro heq
  obtain ⟨input', hinput⟩ := h.first
  rw [hinput] at heq
  have hkey := congrArg List.length (hhash _ _ _ _ heq).2
  rw [Key.length_bytes] at hkey
  cases hkey

theorem Chained.rootKey_eq {chain : ℕ} (hchain : chain < newest) {input : List B}
    {rootKey : RootKey B}
    (heq : (schedule (chain + 1)).derivation = cryptoGenerichash input rootKey.bytes) :
    rootKey = schedule.rootKey chain := by
  obtain ⟨input', hderivation⟩ := h.next chain hchain
  rw [hderivation] at heq
  exact (Key.ext (hhash _ _ _ _ heq).2).symm

variable (hkdf : KdfInjective B)

include hkdf

theorem Chained.derivation_inj {chain chain' : ℕ} (hchain : chain ≤ newest)
    (hchain' : chain' ≤ newest)
    (heq : (schedule chain).derivation = (schedule chain').derivation) : chain = chain' := by
  induction chain generalizing chain' with
  | zero =>
      cases chain' with
      | zero => rfl
      | succ chain' =>
          obtain ⟨input, hderivation⟩ := h.next chain' hchain'
          exact absurd (heq.trans hderivation) (h.first_ne hhash _ _)
  | succ chain ih =>
      obtain ⟨input, hderivation⟩ := h.next chain hchain
      cases chain' with
      | zero => exact absurd (heq.symm.trans hderivation) (h.first_ne hhash _ _)
      | succ chain' =>
          have hroot := h.rootKey_eq hhash hchain' (heq.symm.trans hderivation)
          have hbefore := (Key.deriveSubkeyWithIndex_inj hkdf hroot).1
          rw [ih (Nat.le_of_succ_le hchain) (Nat.le_of_succ_le hchain') hbefore]

theorem Chained.advance_chainKey_inj {chain chain' n n' : ℕ} (hchain : chain ≤ newest)
    (hchain' : chain' ≤ newest)
    (heq : (schedule.chainKey chain).advance n = (schedule.chainKey chain').advance n') :
    chain = chain' ∧ n = n' := by
  induction n generalizing n' with
  | zero =>
      cases n' with
      | zero =>
          rw [Key.advance_zero, Key.advance_zero, chainKey_eq, chainKey_eq] at heq
          have hderivation := (Key.deriveSubkeyWithIndex_inj hkdf heq).1
          exact ⟨h.derivation_inj hhash hkdf hchain hchain' hderivation, rfl⟩
      | succ n' =>
          rw [Key.advance_zero, Key.advance_succ', chainKey_eq] at heq
          exact absurd (Key.deriveSubkeyWithIndex_inj hkdf heq).2 (chainKeyIndex_ne_one chain)
  | succ n ih =>
      cases n' with
      | zero =>
          rw [Key.advance_zero, Key.advance_succ', chainKey_eq schedule chain'] at heq
          exact absurd (Key.deriveSubkeyWithIndex_inj hkdf heq).2.symm
            (chainKeyIndex_ne_one chain')
      | succ n' =>
          rw [Key.advance_succ', Key.advance_succ'] at heq
          obtain ⟨rfl, rfl⟩ := ih (Key.deriveSubkeyWithIndex_inj hkdf heq).1
          exact ⟨rfl, rfl⟩

theorem Chained.messageKey_inj {place place' : Place} (hplace : place.chain ≤ newest)
    (hplace' : place'.chain ≤ newest)
    (heq : schedule.messageKey place = schedule.messageKey place') : place = place' := by
  obtain ⟨chain, number⟩ := place
  obtain ⟨chain', number'⟩ := place'
  obtain ⟨rfl, rfl⟩ := h.advance_chainKey_inj hhash hkdf hplace hplace'
    (Key.deriveSubkeyWithIndex_inj hkdf heq).1
  rfl

end Chained

/-- The chain whose derivation key gives a header key, and the number of the subkey. -/
def headerKeySource : ℕ → ℕ × UInt32
  | 0 => (0, 1)
  | 1 => (0, 2)
  | 2 => (0, 3)
  | chain + 3 => (chain + 1, 1)

theorem headerKey_eq (schedule : Schedule B) (chain : ℕ) :
    schedule.headerKey chain = (schedule (headerKeySource chain).1).derivation.deriveSubkeyWithIndex
      (headerKeySource chain).2 := by
  rcases chain with _ | _ | _ | chain
  · rfl
  · rfl
  · rfl
  · rfl

theorem headerKeySource_injective : Function.Injective headerKeySource := by
  intro i j h
  rcases i with _ | _ | _ | i <;> rcases j with _ | _ | _ | j <;>
    simp_all [headerKeySource]

theorem headerKeySource_le {chain : ℕ} (hchain : chain ≤ newest + 2) :
    (headerKeySource chain).1 ≤ newest := by
  rcases chain with _ | _ | _ | chain
  · exact Nat.zero_le _
  · exact Nat.zero_le _
  · exact Nat.zero_le _
  · simp only [headerKeySource]
    omega

theorem Linked.headerKey_inj (h : schedule.Linked newest) (hhash : GenerichashInjective B)
    (hkdf : KdfInjective B) {chain chain' : ℕ} (hchain : chain ≤ newest + 2)
    (hchain' : chain' ≤ newest + 2)
    (heq : schedule.headerKey chain = schedule.headerKey chain') : chain = chain' := by
  rw [headerKey_eq, headerKey_eq] at heq
  obtain ⟨hderivation, hindex⟩ := Key.deriveSubkeyWithIndex_inj hkdf heq
  have hsource := h.chained.derivation_inj hhash hkdf (headerKeySource_le hchain)
    (headerKeySource_le hchain') hderivation
  exact headerKeySource_injective (Prod.ext hsource hindex)

theorem Linked.keys_inj (h : schedule.Linked newest) (hhash : GenerichashInjective B)
    (hkdf : KdfInjective B) {place place' : Place} (hplace : place.chain ≤ newest)
    (hplace' : place'.chain ≤ newest) (heq : schedule.keys place = schedule.keys place') :
    place = place' := by
  exact h.chained.messageKey_inj hhash hkdf hplace hplace' (Prod.mk.inj heq).2

section Nonzero

theorem isNone_headerKey (hkdf : KdfNonzero B) (schedule : Schedule B) (chain : ℕ) :
    (EmptyableKey.ofKey (schedule.headerKey chain)).isNone = false := by
  rw [headerKey_eq]
  exact Key.isZero_deriveSubkeyWithIndex hkdf _ _

theorem isNone_advance_chainKey (hkdf : KdfNonzero B) (schedule : Schedule B) (chain n : ℕ) :
    (EmptyableKey.ofKey ((schedule.chainKey chain).advance n)).isNone = false := by
  cases n with
  | zero =>
      cases chain with
      | zero => exact Key.isZero_deriveSubkeyWithIndex hkdf _ _
      | succ chain => exact Key.isZero_deriveSubkeyWithIndex hkdf _ _
  | succ n =>
      rw [Key.advance_succ']
      exact Key.isZero_deriveSubkeyWithIndex hkdf _ _

end Nonzero

end Schedule

end Molch
