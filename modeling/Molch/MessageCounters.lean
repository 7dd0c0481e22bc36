import Molch.StagedKeys

namespace Molch

theorem toNat_add_one_iff (number : UInt32) :
    (number + 1).toNat = number.toNat + 1 ↔ number.toNat ≠ 2 ^ 32 - 1 := by
  have hlt : number.toNat < 2 ^ 32 := number.toNat_lt
  rw [UInt32.toNat_add, UInt32.toNat_one]
  omega

section Limit

variable [Platform]

/-- The limit agrees with the natural numbers if the sum does not wrap around, or if it does
and the number is still below what is left of it. -/
theorem tooManySkipped_natural_iff (current future : UInt32) :
    (tooManySkipped current future = false ↔ future.toNat ≤ current.toNat + 500) ↔
      current.toNat + 500 < 2 ^ Platform.sizeBits ∨
        future.toNat + 2 ^ Platform.sizeBits ≤ current.toNat + 500 := by
  have hcurrent : current.toNat < 2 ^ 32 := current.toNat_lt
  have hfuture : future.toNat < 2 ^ 32 := future.toNat_lt
  have hbits : 2 ^ 32 ≤ 2 ^ Platform.sizeBits := by
    refine Nat.pow_le_pow_right Nat.two_pos ?_
    have := Platform.sizeBits_eq
    omega
  rw [tooManySkipped, decide_eq_false_iff_not, not_lt, maximumSkippedMessages]
  generalize 2 ^ Platform.sizeBits = modulus at *
  by_cases hwraps : current.toNat + 500 < modulus
  · rw [Nat.mod_eq_of_lt hwraps]
    simp [hwraps]
  · have hmod : (current.toNat + 500) % modulus = current.toNat + 500 - modulus := by
      rw [Nat.mod_eq_sub_mod (not_lt.mp hwraps), Nat.mod_eq_of_lt (by omega)]
    rw [hmod]
    omega

end Limit

namespace Ratchet

variable {B : Type} [Byte B] [Sodium B] {ratchet : Ratchet B}

section Receiving

variable [Platform]

/-- A ratchet that has found a header to be one of its current chain. -/
structure TriesCurrentChain (ratchet : Ratchet B) : Prop where
  valid : ratchet.receivedValid = true
  decryptable : ratchet.headerDecryptable = .currentDecryptable
  header : ratchet.receiveHeaderKey.isNone = false
  chain : ratchet.receiveChainKey.isNone = false

omit [Sodium B] [Platform] in
theorem TriesCurrentChain.trying_eq (h : ratchet.TriesCurrentChain) :
    ratchet.trying ratchet.skippedHeaderAndMessageKeys .currentDecryptable = ratchet := by
  rw [trying, ← h.decryptable]

theorem TriesCurrentChain.receive_eq (h : ratchet.TriesCurrentChain) (ephemeral : PublicKey B)
    (number previousNumber : UInt32) (w : World B) :
    (ratchet.receive ephemeral number previousNumber w).1 =
      if tooManySkipped ratchet.receiveMessageNumber number then .error tooManySkippedError
      else .ok (ratchet.receiveChainKey.key.advance
        (number.toNat - ratchet.receiveMessageNumber.toNat)).messageKey := by
  have hcurrent : ratchet.onCurrentChain = true := by
    rw [onCurrentChain, h.header, h.decryptable]
    rfl
  rw [receive, h.valid, h.decryptable, hcurrent]
  simp only [Bool.not_true, Bool.false_eq_true, if_false, if_true, reduceCtorEq,
    receiveCurrentChain]
  cases hskip : tooManySkipped ratchet.receiveMessageNumber number with
  | true =>
      rw [stageSkippedHeaderAndMessageKeys_tooManySkipped h.chain hskip]
      rfl
  | false =>
      rw [stageSkippedHeaderAndMessageKeys_eq h.chain hskip]
      rfl

theorem TriesCurrentChain.passes_iff (h : ratchet.TriesCurrentChain) (ephemeral : PublicKey B)
    (number previousNumber : UInt32) (w : World B) :
    (ratchet.receive ephemeral number previousNumber w).1 ≠ .error tooManySkippedError ↔
      tooManySkipped ratchet.receiveMessageNumber number = false := by
  rw [h.receive_eq]
  cases tooManySkipped ratchet.receiveMessageNumber number <;> simp

theorem TriesCurrentChain.commit_number (h : ratchet.TriesCurrentChain)
    {ephemeral : PublicKey B} {number previousNumber : UInt32} {w w' w'' : World B}
    {messageKey : MessageKey B} {ratchet' : Ratchet B}
    (hreceive : ratchet.receive ephemeral number previousNumber w =
      (.ok messageKey, ratchet', w')) :
    (ratchet'.setLastMessageAuthenticity true w'').2.1.receiveMessageNumber = number + 1 := by
  have hskip : tooManySkipped ratchet.receiveMessageNumber number = false := by
    rw [← h.passes_iff ephemeral number previousNumber w, hreceive]
    simp
  have hcurrent := receive_current ratchet.skippedHeaderAndMessageKeys h.valid h.header h.chain
    hskip ephemeral previousNumber w
  rw [h.trying_eq, hreceive] at hcurrent
  obtain ⟨-, hratchet⟩ := Prod.ext_iff.mp hcurrent
  obtain ⟨hratchet, -⟩ := Prod.ext_iff.mp hratchet
  change ratchet' = _ at hratchet
  have hcommit := setLastMessageAuthenticity_current ratchet.skippedHeaderAndMessageKeys h.header
  rw [h.trying_eq] at hcommit
  rw [hratchet, hcommit]
  rfl

end Receiving

theorem getSendData_number {data : SendData B} {ratchet' : Ratchet B} {w w' : World B}
    (h : ratchet.getSendData w = (.ok data, ratchet', w')) :
    ratchet'.sendMessageNumber =
      (if ratchet.ratchetFlag then 0 else ratchet.sendMessageNumber) + 1 := by
  rcases getSendData_cases h with ⟨hflag, -, _, -, -, rfl⟩ | ⟨hflag, _, -, -, rfl⟩
  · rw [hflag]
    rfl
  · rw [hflag]
    rfl

/-- The counters count like natural numbers as long as the limit is computed without wrapping
around, no message with the last 32 bit number is committed and none with it is sent. -/
theorem counters_natural_iff [Platform] :
    (∀ (ratchet : Ratchet B) (ephemeral : PublicKey B) (number previousNumber : UInt32)
        (w : World B), ratchet.TriesCurrentChain →
      (((ratchet.receive ephemeral number previousNumber w).1 ≠ .error tooManySkippedError ↔
          number.toNat ≤ ratchet.receiveMessageNumber.toNat + 500) ↔
        ratchet.receiveMessageNumber.toNat + 500 < 2 ^ Platform.sizeBits ∨
          number.toNat + 2 ^ Platform.sizeBits ≤ ratchet.receiveMessageNumber.toNat + 500)) ∧
    (∀ (ratchet ratchet' : Ratchet B) (ephemeral : PublicKey B) (messageKey : MessageKey B)
        (number previousNumber : UInt32) (w w' w'' : World B), ratchet.TriesCurrentChain →
      ratchet.receive ephemeral number previousNumber w = (.ok messageKey, ratchet', w') →
      ((ratchet'.setLastMessageAuthenticity true w'').2.1.receiveMessageNumber.toNat =
          number.toNat + 1 ↔ number.toNat ≠ 2 ^ 32 - 1)) ∧
    ∀ (ratchet ratchet' : Ratchet B) (data : SendData B) (w w' : World B),
      ratchet.getSendData w = (.ok data, ratchet', w') →
      (ratchet'.sendMessageNumber.toNat =
          (if ratchet.ratchetFlag then 0 else ratchet.sendMessageNumber.toNat) + 1 ↔
        ratchet.ratchetFlag = true ∨ ratchet.sendMessageNumber.toNat ≠ 2 ^ 32 - 1) := by
  refine ⟨fun ratchet ephemeral number previousNumber w h => ?_, ?_, ?_⟩
  · rw [h.passes_iff, tooManySkipped_natural_iff]
  · intro ratchet ratchet' ephemeral messageKey number previousNumber w w' w'' h hreceive
    rw [h.commit_number hreceive, toNat_add_one_iff]
  · intro ratchet ratchet' data w w' h
    rw [getSendData_number h]
    cases ratchet.ratchetFlag with
    | true => simp
    | false => simpa using toNat_add_one_iff ratchet.sendMessageNumber

end Ratchet

namespace Symbolic

/-- A ratchet that waits for, and is going to send, the last 32 bit number. -/
def lastNumbers : Ratchet ℕ :=
  { waiting with
    receiveMessageNumber := 4294967295
    sendHeaderKey := some (.ofKey (carry 32 1))
    sendChainKey := .ofKey (carry 32 1)
    sendMessageNumber := 4294967295 }

theorem triesCurrentChain_lastNumbers : lastNumbers.TriesCurrentChain :=
  ⟨rfl, rfl, by decide, by decide⟩

theorem receive_lastNumbers :
    ∃ messageKey ratchet w, lastNumbers.receive Key.zero 4294967295 0 world =
      (.ok messageKey, ratchet, w) := by
  have hresult := triesCurrentChain_lastNumbers.receive_eq Key.zero 4294967295 0 world
  rw [if_neg (by decide)] at hresult
  generalize lastNumbers.receive Key.zero 4294967295 0 world = received at hresult ⊢
  exact ⟨_, received.2.1, received.2.2, Prod.ext hresult rfl⟩

theorem getSendData_lastNumbers :
    lastNumbers.getSendData world =
      (.ok (lastNumbers.sendData (.ofKey (carry 32 1))), lastNumbers.advanceSendChain, world) :=
  Ratchet.getSendData_of_chain rfl rfl rfl world

theorem counters_natural_lastNumbers :
    ∃ messageKey ratchet w data ratchet' w',
      lastNumbers.receive Key.zero 4294967295 0 world = (.ok messageKey, ratchet, w) ∧
      lastNumbers.getSendData world = (.ok data, ratchet', w') ∧
      ((lastNumbers.receive Key.zero 0 0 world).1 ≠ .error tooManySkippedError ↔
          (0 : UInt32).toNat ≤ lastNumbers.receiveMessageNumber.toNat + 500) ∧
      ((ratchet.setLastMessageAuthenticity true w).2.1.receiveMessageNumber.toNat =
          (4294967295 : UInt32).toNat + 1 ↔ (4294967295 : UInt32).toNat ≠ 2 ^ 32 - 1) ∧
      (ratchet'.sendMessageNumber.toNat = (if lastNumbers.ratchetFlag then 0
          else lastNumbers.sendMessageNumber.toNat) + 1 ↔
        lastNumbers.ratchetFlag = true ∨ lastNumbers.sendMessageNumber.toNat ≠ 2 ^ 32 - 1) := by
  obtain ⟨messageKey, ratchet, w, hreceive⟩ := receive_lastNumbers
  refine ⟨_, _, _, _, _, _, hreceive, getSendData_lastNumbers, ?_, ?_, ?_⟩
  · exact (Ratchet.counters_natural_iff.1 _ _ _ _ _ triesCurrentChain_lastNumbers).mpr
      (.inl (by decide))
  · exact Ratchet.counters_natural_iff.2.1 _ _ _ _ _ _ _ _ _ triesCurrentChain_lastNumbers
      hreceive
  · exact Ratchet.counters_natural_iff.2.2 _ _ _ _ _ getSendData_lastNumbers

/-- With a `size_t` of 32 bits not even the message that is expected next passes, and after the
last number both counters start again. -/
theorem counters_wrap_around :
    ((@Ratchet.receive ℕ _ _ .i686 lastNumbers Key.zero 4294967295 0 world).1 =
        .error tooManySkippedError ∧
      (4294967295 : UInt32).toNat ≤ lastNumbers.receiveMessageNumber.toNat + 500) ∧
    (∃ messageKey ratchet w,
      lastNumbers.receive Key.zero 4294967295 0 world = (.ok messageKey, ratchet, w) ∧
      (ratchet.setLastMessageAuthenticity true w).2.1.receiveMessageNumber = 0) ∧
    ∃ data ratchet w, lastNumbers.getSendData world = (.ok data, ratchet, w) ∧
      ratchet.sendMessageNumber = 0 := by
  refine ⟨⟨?_, by decide⟩, ?_, ?_⟩
  · rw [@Ratchet.TriesCurrentChain.receive_eq ℕ _ _ _ .i686 triesCurrentChain_lastNumbers]
    exact if_pos (by decide)
  · obtain ⟨messageKey, ratchet, w, hreceive⟩ := receive_lastNumbers
    exact ⟨messageKey, ratchet, w, hreceive, triesCurrentChain_lastNumbers.commit_number hreceive⟩
  · exact ⟨_, _, _, getSendData_lastNumbers, rfl⟩

end Symbolic

end Molch
