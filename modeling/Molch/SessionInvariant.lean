import Molch.KeySchedule
import Molch.Session
import Mathlib.Data.List.InsertIdx
import Mathlib.Data.List.Perm.Basic

namespace Molch

open Sodium

variable {B : Type} [Byte B] [Sodium B]

namespace Ratchet

/-- The ratchet receives on a chain. -/
structure Receiving (schedule : Schedule B) (chain received : ℕ) (ratchet : Ratchet B) : Prop where
  receiveHeaderKey : ratchet.receiveHeaderKey = .ofKey (schedule.headerKey chain)
  receiveChainKey : ratchet.receiveChainKey = .ofKey ((schedule.chainKey chain).advance received)
  receiveMessageNumber : ratchet.receiveMessageNumber.toNat = received

/-- The ratchet sends on the chain it has started last. -/
structure Sending (schedule : Schedule B) (x : Exchange) (chain : ℕ) (ratchet : Ratchet B) :
    Prop where
  rootKey : ratchet.rootKey = .ofKey (schedule.rootKey chain)
  sendHeaderKey : ratchet.sendHeaderKey = some (.ofKey (schedule.headerKey chain))
  sendChainKey : ratchet.sendChainKey = .ofKey ((schedule.chainKey chain).advance (x.count chain))
  nextSendHeaderKey : ratchet.nextSendHeaderKey = .ofKey (schedule.headerKey (chain + 2))
  ourPrivateEphemeral : ratchet.ourPrivateEphemeral = (schedule chain).ephemeral
  ourPublicEphemeral : ratchet.ourPublicEphemeral =
    cryptoScalarmultBase (schedule chain).ephemeral
  sendMessageNumber : ratchet.sendMessageNumber.toNat = x.count chain
  previousMessageNumber : ratchet.previousMessageNumber.toNat = x.previous chain

/-- The ratchet starts a new chain with its next message; `chain` is the one it has heard of
last. -/
structure Listening (schedule : Schedule B) (x : Exchange) (chain : ℕ) (ratchet : Ratchet B) :
    Prop where
  rootKey : ratchet.rootKey = .ofKey (schedule.rootKey chain)
  nextSendHeaderKey : ratchet.nextSendHeaderKey = .ofKey (schedule.headerKey (chain + 1))
  theirPublicEphemeral : ratchet.theirPublicEphemeral =
    cryptoScalarmultBase (schedule chain).ephemeral
  sendMessageNumber : ratchet.sendMessageNumber.toNat = x.previous (chain + 1)

/-- The ratchet holds what the party needs at its place in the exchange. -/
structure Represents (schedule : Schedule B) (x : Exchange) (role : Role) (ratchet : Ratchet B) :
    Prop where
  ratchetRole : ratchet.role = role
  receivedValid : ratchet.receivedValid = true
  headerDecryptable : ratchet.headerDecryptable = .notTried
  staged : ratchet.stagedHeaderAndMessageKeys = .clear
  flag : ratchet.ratchetFlag = x.flag role
  nextReceiveHeaderKey : ratchet.nextReceiveHeaderKey =
    .ofKey (schedule.headerKey (x.turn role + 1))
  silent : x.turn role = 0 →
    ratchet.receiveHeaderKey = .clear ∧ ratchet.receiveChainKey = .clear
  receiving : ∀ chain, x.turn role = chain + 1 →
    ratchet.Receiving schedule chain (x.received role)
  sending : x.flag role = false → ratchet.Sending schedule x (x.turn role)
  listening : x.flag role = true → ∀ chain, x.turn role = chain + 1 →
    ratchet.Listening schedule x chain
  skipped : ratchet.skippedHeaderAndMessageKeys.pairs.Perm
    ((x.outstanding role).map schedule.keys)

namespace Represents

variable {schedule : Schedule B} {x y : Exchange} {role : Role} {ratchet : Ratchet B}

theorem congr (h : ratchet.Represents schedule x role) (hturn : y.turn role = x.turn role)
    (hflag : y.flag role = x.flag role) (hreceived : y.received role = x.received role)
    (houtstanding : y.outstanding role = x.outstanding role)
    (hcount : y.count (x.turn role) = x.count (x.turn role))
    (hprevious : y.previous (x.turn role) = x.previous (x.turn role)) :
    ratchet.Represents schedule y role where
  ratchetRole := h.ratchetRole
  receivedValid := h.receivedValid
  headerDecryptable := h.headerDecryptable
  staged := h.staged
  flag := h.flag.trans hflag.symm
  nextReceiveHeaderKey := by
    rw [hturn]
    exact h.nextReceiveHeaderKey
  silent := by
    rw [hturn]
    exact h.silent
  receiving := by
    rw [hturn, hreceived]
    exact h.receiving
  sending := by
    rw [hflag, hturn]
    intro hfalse
    exact { h.sending hfalse with
      sendChainKey := by
        rw [hcount]
        exact (h.sending hfalse).sendChainKey
      sendMessageNumber := by
        rw [hcount]
        exact (h.sending hfalse).sendMessageNumber
      previousMessageNumber := by
        rw [hprevious]
        exact (h.sending hfalse).previousMessageNumber }
  listening := by
    rw [hflag, hturn]
    intro htrue chain hchain
    exact { h.listening htrue chain hchain with
      sendMessageNumber := by
        rw [← hchain, hprevious, hchain]
        exact (h.listening htrue chain hchain).sendMessageNumber }
  skipped := by
    rw [houtstanding]
    exact h.skipped

theorem deliver (h : ratchet.Represents schedule x role) (role' : Role) (k : ℕ) :
    ratchet.Represents schedule (x.deliver role' k) role :=
  h.congr rfl rfl rfl rfl rfl rfl

theorem receiveChainKey (h : ratchet.Represents schedule x role) (hkdf : KdfNonzero B)
    (hheader : ratchet.receiveHeaderKey.isNone = false) :
    ratchet.receiveChainKey.isNone = false := by
  cases hturn : x.turn role with
  | zero =>
      rw [(h.silent hturn).1] at hheader
      cases hheader
  | succ chain =>
      rw [(h.receiving chain hturn).receiveChainKey]
      exact schedule.isNone_advance_chainKey hkdf _ _

theorem settle (h : ratchet.Represents schedule x role) (purported : Purported B) :
    (ratchet.settle purported ratchet.skippedHeaderAndMessageKeys).Represents schedule x role :=
  { h with
    receivedValid := rfl
    headerDecryptable := rfl
    staged := rfl
    receiving := fun chain hchain => { h.receiving chain hchain with }
    sending := fun hflag => { h.sending hflag with }
    listening := fun hflag chain hchain => { h.listening hflag chain hchain with } }

end Represents

end Ratchet

end Molch
