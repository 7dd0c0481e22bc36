import Molch.Conversation

namespace Molch

theorem toNat_add_one {number : UInt32} (h : number.toNat + 1 < 2 ^ 32) :
    (number + 1).toNat = number.toNat + 1 := by
  rw [UInt32.toNat_add, UInt32.toNat_one, Nat.mod_eq_of_lt h]

variable {B : Type} [Byte B] [Sodium B]

/-- The staging area after `count` keys of a chain have been added to it. -/
def stagedKeys (headerKey : EmptyableHeaderKey B) :
    ℕ → ChainKey B → HeaderAndMessageKeyStore B → World B →
      HeaderAndMessageKeyStore B × World B
  | 0, _, stagingArea, w => (stagingArea, w)
  | count + 1, chainKey, stagingArea, w =>
      let added := stagingArea.add headerKey chainKey.messageKey w
      stagedKeys headerKey count chainKey.nextChainKey added.1 added.2

theorem stageKeys_ofKey (headerKey : EmptyableHeaderKey B) (count : ℕ) (chainKey : ChainKey B)
    (stagingArea : HeaderAndMessageKeyStore B) (w : World B) :
    stageKeys headerKey count (.ofKey chainKey) stagingArea w =
      (.ok (.ofKey (chainKey.advance count)),
        stagedKeys headerKey count chainKey stagingArea w) := by
  induction count generalizing chainKey stagingArea w with
  | zero => rfl
  | succ count ih =>
      rw [stageKeys, EmptyableKey.deriveMessageKey_ofKey]
      simp only [EmptyableKey.deriveChainKey_ofKey]
      rw [ih, Key.advance_succ]
      rfl

theorem mem_stagedKeys {headerKey : EmptyableHeaderKey B} {count : ℕ} {chainKey : ChainKey B}
    {stagingArea : HeaderAndMessageKeyStore B} {w : World B} {key : HeaderAndMessageKey B}
    (h : key ∈ (stagedKeys headerKey count chainKey stagingArea w).1.keys) :
    key ∈ stagingArea.keys ∨
      (key.headerKey = headerKey ∧
        (∃ i < count, key.messageKey = (chainKey.advance i).messageKey) ∧
        ∃ j, key.expirationDate = w.clock j + maximumAge) := by
  induction count generalizing chainKey stagingArea w with
  | zero => exact .inl h
  | succ count ih =>
      rcases ih h with hadded | ⟨hheader, ⟨i, hi, hmessage⟩, j, hdate⟩
      · have hmem := (HeaderAndMessageKeyStore.addKey_subperm stagingArea _ _).subset hadded
        rcases List.mem_cons.mp hmem with rfl | hmem
        · exact .inr ⟨rfl, ⟨0, Nat.succ_pos _, rfl⟩, 0, rfl⟩
        · exact .inl hmem
      · refine .inr ⟨hheader, ⟨i + 1, Nat.succ_lt_succ hi, ?_⟩, j + 2, ?_⟩
        · rw [hmessage, Key.advance_succ]
        · rw [hdate, HeaderAndMessageKeyStore.add, HeaderAndMessageKey.create]
          simp only [HeaderAndMessageKeyStore.addKey_world]
          rfl

section Staging

variable [Platform]

omit [Byte B] [Sodium B] in
theorem toNat_le_of_tooManySkipped {current future : UInt32}
    (h : tooManySkipped current future = false) :
    future.toNat ≤ current.toNat + maximumSkippedMessages := by
  rw [tooManySkipped, decide_eq_false_iff_not, not_lt] at h
  exact h.trans (Nat.mod_le _ _)

theorem stageSkippedHeaderAndMessageKeys_eq {chainKey : EmptyableChainKey B}
    (hnone : chainKey.isNone = false) {currentMessageNumber futureMessageNumber : UInt32}
    (hskip : tooManySkipped currentMessageNumber futureMessageNumber = false)
    (stagingArea : HeaderAndMessageKeyStore B) (output : Bool)
    (headerKey : EmptyableHeaderKey B) (w : World B) :
    let count := futureMessageNumber.toNat - currentMessageNumber.toNat
    stageSkippedHeaderAndMessageKeys stagingArea output headerKey currentMessageNumber
        futureMessageNumber chainKey w =
      (.ok (if output then some (.ofKey (chainKey.key.advance (count + 1)),
          (chainKey.key.advance count).messageKey) else none),
        stagedKeys headerKey count chainKey.key stagingArea w) := by
  intro count
  have hkey := EmptyableKey.eq_ofKey (EmptyableKey.empty_eq_false_of_isNone hnone)
  unfold stageSkippedHeaderAndMessageKeys
  rw [hnone, hskip, hkey, stageKeys_ofKey]
  cases output with
  | false => rfl
  | true =>
      simp only [EmptyableKey.deriveMessageKey_ofKey, EmptyableKey.deriveChainKey_ofKey,
        EmptyableKey.ofKey_key, Bool.false_eq_true, if_false, if_true, Key.advance_succ']
      rfl

theorem stageSkippedHeaderAndMessageKeys_tooManySkipped {chainKey : EmptyableChainKey B}
    (hnone : chainKey.isNone = false) {currentMessageNumber futureMessageNumber : UInt32}
    (hskip : tooManySkipped currentMessageNumber futureMessageNumber = true)
    (stagingArea : HeaderAndMessageKeyStore B) (output : Bool)
    (headerKey : EmptyableHeaderKey B) (w : World B) :
    stageSkippedHeaderAndMessageKeys stagingArea output headerKey currentMessageNumber
        futureMessageNumber chainKey w = (.error tooManySkippedError, stagingArea, w) := by
  unfold stageSkippedHeaderAndMessageKeys
  rw [hnone, hskip]
  rfl

end Staging

def committedKeys (skipped staged : HeaderAndMessageKeyStore B) (w : World B) :
    HeaderAndMessageKeyStore B :=
  ((skipped.addStore staged w).1.removeOutdatedAndTrimSize (skipped.addStore staged w).2).1

omit [Byte B] [Sodium B] in
theorem committedKeys_clear (w : World B) :
    committedKeys (.clear : HeaderAndMessageKeyStore B) .clear w = .clear := by
  simp [committedKeys, HeaderAndMessageKeyStore.addStore,
    HeaderAndMessageKeyStore.removeOutdatedAndTrimSize, HeaderAndMessageKeyStore.clear,
    HeaderAndMessageKeyStore.trim]

omit [Byte B] [Sodium B] in
theorem mem_committedKeys {skipped staged : HeaderAndMessageKeyStore B} {w : World B}
    {key : HeaderAndMessageKey B} (h : key ∈ (committedKeys skipped staged w).keys) :
    key ∈ skipped.keys ∨ key ∈ staged.keys := by
  have hmem := (HeaderAndMessageKeyStore.trim_sublist _ _).subset h
  exact List.mem_append.mp ((HeaderAndMessageKeyStore.addStore_subperm _ _ _).subset hmem)

/-- The fields in which a rejected message may leave a trace. -/
structure Purported (B : Type) where
  rootKey : EmptyableRootKey B
  receiveHeaderKey : EmptyableHeaderKey B
  nextReceiveHeaderKey : EmptyableHeaderKey B
  receiveChainKey : EmptyableChainKey B
  theirPublicEphemeral : Option (PublicKey B)
  messageNumber : UInt32
  previousMessageNumber : UInt32

namespace Ratchet

def purported (ratchet : Ratchet B) : Purported B where
  rootKey := ratchet.purportedRootKey
  receiveHeaderKey := ratchet.purportedReceiveHeaderKey
  nextReceiveHeaderKey := ratchet.purportedNextReceiveHeaderKey
  receiveChainKey := ratchet.purportedReceiveChainKey
  theirPublicEphemeral := ratchet.theirPurportedPublicEphemeral
  messageNumber := ratchet.purportedMessageNumber
  previousMessageNumber := ratchet.purportedPreviousMessageNumber

/-- The ratchet with the given purported values, ready for the next message. -/
def settle (ratchet : Ratchet B) (purported : Purported B)
    (skipped : HeaderAndMessageKeyStore B) : Ratchet B :=
  { ratchet with
    purportedRootKey := purported.rootKey
    purportedReceiveHeaderKey := purported.receiveHeaderKey
    purportedNextReceiveHeaderKey := purported.nextReceiveHeaderKey
    purportedReceiveChainKey := purported.receiveChainKey
    theirPurportedPublicEphemeral := purported.theirPublicEphemeral
    purportedMessageNumber := purported.messageNumber
    purportedPreviousMessageNumber := purported.previousMessageNumber
    receivedValid := true
    headerDecryptable := .notTried
    stagedHeaderAndMessageKeys := .clear
    skippedHeaderAndMessageKeys := skipped }

/-- The ratchet after a message of the current chain; `chainKey` is the key after it. -/
def acceptCurrent (ratchet : Ratchet B) (messageNumber : UInt32) (chainKey : ChainKey B)
    (skipped : HeaderAndMessageKeyStore B) : Ratchet B :=
  { ratchet.settle { ratchet.purported with
      messageNumber := messageNumber
      receiveChainKey := .ofKey chainKey } skipped with
    receiveMessageNumber := messageNumber + 1
    receiveChainKey := .ofKey chainKey }

def nextPurported (ratchet : Ratchet B) (theirEphemeral : PublicKey B)
    (messageNumber previousMessageNumber : UInt32)
    (derived : DerivedRootNextHeadAndChainKey B) (chainKey : ChainKey B) : Purported B where
  rootKey := .ofKey derived.rootKey
  receiveHeaderKey := ratchet.nextReceiveHeaderKey
  nextReceiveHeaderKey := .ofKey derived.nextHeaderKey
  receiveChainKey := .ofKey chainKey
  theirPublicEphemeral := some theirEphemeral
  messageNumber := messageNumber
  previousMessageNumber := previousMessageNumber

def acceptNext (ratchet : Ratchet B) (theirEphemeral : PublicKey B)
    (messageNumber previousMessageNumber : UInt32)
    (derived : DerivedRootNextHeadAndChainKey B) (chainKey : ChainKey B)
    (skipped : HeaderAndMessageKeyStore B) : Ratchet B :=
  { ratchet.settle (ratchet.nextPurported theirEphemeral messageNumber previousMessageNumber
      derived chainKey) skipped with
    rootKey := .ofKey derived.rootKey
    receiveHeaderKey := ratchet.nextReceiveHeaderKey
    nextReceiveHeaderKey := .ofKey derived.nextHeaderKey
    theirPublicEphemeral := theirEphemeral
    ourPrivateEphemeral := Key.zero
    ratchetFlag := true
    receiveMessageNumber := messageNumber + 1
    receiveChainKey := .ofKey chainKey }

/-- The purported values that a rejected message can leave behind. -/
inductive Purports (ratchet : Ratchet B) : Purported B → Prop
  | untouched : Purports ratchet ratchet.purported
  | tooManySkipped (messageNumber : UInt32) :
      Purports ratchet { ratchet.purported with messageNumber := messageNumber }
  | currentChain (messageNumber : UInt32) (count : ℕ)
      (hheader : ratchet.receiveHeaderKey.isNone = false) :
      Purports ratchet { ratchet.purported with
        messageNumber := messageNumber
        receiveChainKey := .ofKey (ratchet.receiveChainKey.key.advance (count + 1)) }
  | tooManySkippedBefore (theirEphemeral : PublicKey B) (messageNumber previousNumber : UInt32) :
      Purports ratchet { ratchet.purported with
        messageNumber := messageNumber
        previousMessageNumber := previousNumber
        theirPublicEphemeral := some theirEphemeral }
  | noSharedSecret (theirEphemeral : PublicKey B) (messageNumber previousNumber : UInt32) :
      Purports ratchet { ratchet.purported with
        messageNumber := messageNumber
        previousMessageNumber := previousNumber
        theirPublicEphemeral := some theirEphemeral
        receiveHeaderKey := ratchet.nextReceiveHeaderKey }
  | nextChain (theirEphemeral : PublicKey B) (messageNumber previousNumber : UInt32)
      (derived : DerivedRootNextHeadAndChainKey B) (count : ℕ)
      (hflag : ratchet.ratchetFlag = false)
      (hderived : deriveRootNextHeaderAndChainKeys ratchet.ourPrivateEphemeral
        ratchet.ourPublicEphemeral theirEphemeral ratchet.rootKey ratchet.role = .ok derived) :
      Purports ratchet (ratchet.nextPurported theirEphemeral messageNumber previousNumber derived
        (derived.chainKey.advance count))

/-- The ratchet while a packet is tried whose header has been decrypted. -/
def trying (ratchet : Ratchet B) (skipped : HeaderAndMessageKeyStore B)
    (headerDecryptable : HeaderDecryptability) : Ratchet B :=
  { ratchet with
    skippedHeaderAndMessageKeys := skipped
    headerDecryptable := headerDecryptable }

/-- The ratchet after `receive` has written purported values and staged keys. -/
def attempt (ratchet : Ratchet B) (purported : Purported B)
    (staged : HeaderAndMessageKeyStore B) (valid : Bool) : Ratchet B :=
  { ratchet with
    purportedRootKey := purported.rootKey
    purportedReceiveHeaderKey := purported.receiveHeaderKey
    purportedNextReceiveHeaderKey := purported.nextReceiveHeaderKey
    purportedReceiveChainKey := purported.receiveChainKey
    theirPurportedPublicEphemeral := purported.theirPublicEphemeral
    purportedMessageNumber := purported.messageNumber
    purportedPreviousMessageNumber := purported.previousMessageNumber
    stagedHeaderAndMessageKeys := staged
    receivedValid := valid }

variable [Platform]

section Receive

variable {ratchet : Ratchet B} (skipped : HeaderAndMessageKeyStore B)

/-- The number of messages skipped on the current chain before the given one. -/
def skippedCount (ratchet : Ratchet B) (messageNumber : UInt32) : ℕ :=
  messageNumber.toNat - ratchet.receiveMessageNumber.toNat

theorem receive_current_tooManySkipped (hvalid : ratchet.receivedValid = true)
    (hheader : ratchet.receiveHeaderKey.isNone = false)
    (hchain : ratchet.receiveChainKey.isNone = false) {messageNumber : UInt32}
    (hskip : tooManySkipped ratchet.receiveMessageNumber messageNumber = true)
    (theirEphemeral : PublicKey B) (previousNumber : UInt32) (w : World B) :
    ∃ e, (ratchet.trying skipped .currentDecryptable).receive theirEphemeral messageNumber
        previousNumber w =
      (.error e, (ratchet.trying skipped .currentDecryptable).attempt
        { ratchet.purported with messageNumber := messageNumber }
        ratchet.stagedHeaderAndMessageKeys true, w) := by
  simp only [receive, trying, hvalid, onCurrentChain, hheader, receiveCurrentChain,
    stageSkippedHeaderAndMessageKeys_tooManySkipped hchain hskip]
  exact ⟨_, rfl⟩

theorem receive_current (hvalid : ratchet.receivedValid = true)
    (hheader : ratchet.receiveHeaderKey.isNone = false)
    (hchain : ratchet.receiveChainKey.isNone = false) {messageNumber : UInt32}
    (hskip : tooManySkipped ratchet.receiveMessageNumber messageNumber = false)
    (theirEphemeral : PublicKey B) (previousNumber : UInt32) (w : World B) :
    let chainKey := ratchet.receiveChainKey.key
    let count := ratchet.skippedCount messageNumber
    let staged := stagedKeys ratchet.receiveHeaderKey count chainKey
      ratchet.stagedHeaderAndMessageKeys w
    (ratchet.trying skipped .currentDecryptable).receive theirEphemeral messageNumber
        previousNumber w =
      (.ok (chainKey.advance count).messageKey,
        (ratchet.trying skipped .currentDecryptable).attempt
          { ratchet.purported with
            messageNumber := messageNumber
            receiveChainKey := .ofKey (chainKey.advance (count + 1)) }
          staged.1 false, staged.2) := by
  intro chainKey count staged
  have hstage := stageSkippedHeaderAndMessageKeys_eq hchain hskip
    ratchet.stagedHeaderAndMessageKeys true ratchet.receiveHeaderKey w
  simp only [receive, trying, hvalid, onCurrentChain, hheader, receiveCurrentChain, hstage]
  rfl

/-- The staging area and the world after the rest of the current chain is staged. -/
def stagedRest (ratchet : Ratchet B) (previousNumber : UInt32) (w : World B) :
    HeaderAndMessageKeyStore B × World B :=
  if ratchet.receiveChainKey.isNone then (ratchet.stagedHeaderAndMessageKeys, w)
  else stagedKeys ratchet.receiveHeaderKey (ratchet.skippedCount previousNumber)
    ratchet.receiveChainKey.key ratchet.stagedHeaderAndMessageKeys w

/-- Whether the rest of the current chain is short enough to be skipped. -/
def restInReach (ratchet : Ratchet B) (previousNumber : UInt32) : Prop :=
  ratchet.receiveChainKey.isNone = false →
    tooManySkipped ratchet.receiveMessageNumber previousNumber = false

theorem stage_rest {previousNumber : UInt32} (hrest : ratchet.restInReach previousNumber)
    (w : World B) :
    stageSkippedHeaderAndMessageKeys ratchet.stagedHeaderAndMessageKeys false
        ratchet.receiveHeaderKey ratchet.receiveMessageNumber previousNumber
        ratchet.receiveChainKey w = (.ok none, ratchet.stagedRest previousNumber w) := by
  cases hnone : ratchet.receiveChainKey.isNone with
  | true => simp [stageSkippedHeaderAndMessageKeys, stagedRest, hnone]
  | false =>
      rw [stageSkippedHeaderAndMessageKeys_eq hnone (hrest hnone), stagedRest, hnone]
      rfl

theorem receive_next (hkdf : KdfNonzero B) (hvalid : ratchet.receivedValid = true)
    (hflag : ratchet.ratchetFlag = false) {theirEphemeral : PublicKey B}
    {messageNumber previousNumber : UInt32} {derived : DerivedRootNextHeadAndChainKey B}
    (hrest : ratchet.restInReach previousNumber)
    (hderived : deriveRootNextHeaderAndChainKeys ratchet.ourPrivateEphemeral
      ratchet.ourPublicEphemeral theirEphemeral ratchet.rootKey ratchet.role = .ok derived)
    (hskip : tooManySkipped 0 messageNumber = false) (w : World B) :
    let rest := ratchet.stagedRest previousNumber w
    let staged := stagedKeys ratchet.nextReceiveHeaderKey messageNumber.toNat derived.chainKey
      rest.1 rest.2
    (ratchet.trying skipped .nextDecryptable).receive theirEphemeral messageNumber
        previousNumber w =
      (.ok (derived.chainKey.advance messageNumber.toNat).messageKey,
        (ratchet.trying skipped .nextDecryptable).attempt
          (ratchet.nextPurported theirEphemeral messageNumber previousNumber derived
            (derived.chainKey.advance (messageNumber.toNat + 1)))
          staged.1 false, staged.2) := by
  intro rest staged
  have hchain := derived_chainKey_isNone hkdf hderived
  have hstage : stageSkippedHeaderAndMessageKeys (ratchet.stagedRest previousNumber w).1 true
      ratchet.nextReceiveHeaderKey 0 messageNumber (.ofKey derived.chainKey)
      (ratchet.stagedRest previousNumber w).2 =
      (.ok (some (.ofKey (derived.chainKey.advance (messageNumber.toNat + 1)),
        (derived.chainKey.advance messageNumber.toNat).messageKey)), staged) :=
    stageSkippedHeaderAndMessageKeys_eq hchain hskip _ _ _ _
  have hchoice : ¬ (ratchet.ratchetFlag = true ∨
      HeaderDecryptability.nextDecryptable ≠ .nextDecryptable) := by
    simp [hflag]
  simp only [receive, trying, hvalid, onCurrentChain, receiveNextChain, stage_rest hrest,
    hderived, hstage]
  rw [if_neg (by simp), if_neg (by simp), if_neg (by simp), if_neg hchoice]
  rfl

omit [Byte B] [Sodium B] [Platform] in
theorem attempt_purported (hvalid : ratchet.receivedValid = true)
    (headerDecryptable : HeaderDecryptability) :
    (ratchet.trying skipped headerDecryptable).attempt ratchet.purported
      ratchet.stagedHeaderAndMessageKeys true = ratchet.trying skipped headerDecryptable := by
  simp only [attempt, trying, purported, ← hvalid]

theorem receive_undecryptable (hvalid : ratchet.receivedValid = true)
    {headerDecryptable : HeaderDecryptability} (htried : headerDecryptable ≠ .notTried)
    (hcurrent : headerDecryptable = .currentDecryptable →
      ratchet.receiveHeaderKey.isNone = true)
    (hnext : headerDecryptable = .nextDecryptable → ratchet.ratchetFlag = true)
    (theirEphemeral : PublicKey B) (messageNumber previousNumber : UInt32) (w : World B) :
    ∃ e, (ratchet.trying skipped headerDecryptable).receive theirEphemeral messageNumber
        previousNumber w =
      (.error e, (ratchet.trying skipped headerDecryptable).attempt ratchet.purported
        ratchet.stagedHeaderAndMessageKeys true, w) := by
  have hchain : (ratchet.trying skipped headerDecryptable).onCurrentChain = false := by
    simp only [onCurrentChain, trying, Bool.and_eq_false_imp, Bool.not_eq_true']
    intro hnone
    apply decide_eq_false
    intro h
    rw [hcurrent h] at hnone
    cases hnone
  have hchoice : (ratchet.trying skipped headerDecryptable).ratchetFlag = true ∨
      (ratchet.trying skipped headerDecryptable).headerDecryptable ≠ .nextDecryptable := by
    by_cases h : headerDecryptable = .nextDecryptable
    · exact .inl (hnext h)
    · exact .inr h
  unfold receive
  rw [if_neg (by simp [trying, hvalid]), if_neg (by simpa [trying] using htried), hchain,
    if_neg (by simp), if_pos hchoice]
  exact ⟨_, by rw [attempt_purported skipped hvalid]⟩

theorem receive_next_error (hkdf : KdfNonzero B) (hvalid : ratchet.receivedValid = true)
    (hflag : ratchet.ratchetFlag = false) {theirEphemeral : PublicKey B}
    {messageNumber previousNumber : UInt32}
    (hfail : ¬ (ratchet.restInReach previousNumber ∧
      (∃ derived, deriveRootNextHeaderAndChainKeys ratchet.ourPrivateEphemeral
        ratchet.ourPublicEphemeral theirEphemeral ratchet.rootKey ratchet.role = .ok derived) ∧
      tooManySkipped 0 messageNumber = false)) (w : World B) :
    ∃ e purported staged w', ratchet.Purports purported ∧
      (ratchet.trying skipped .nextDecryptable).receive theirEphemeral messageNumber
        previousNumber w =
      (.error e, (ratchet.trying skipped .nextDecryptable).attempt purported staged true, w') := by
  have hchoice : ¬ (ratchet.ratchetFlag = true ∨
      HeaderDecryptability.nextDecryptable ≠ .nextDecryptable) := by
    simp [hflag]
  have hunfold : (ratchet.trying skipped .nextDecryptable).receive theirEphemeral messageNumber
      previousNumber w = (ratchet.trying skipped .nextDecryptable).receiveNextChain
        theirEphemeral messageNumber previousNumber w := by
    simp only [receive, trying, hvalid, onCurrentChain]
    rw [if_neg (by simp), if_neg (by simp), if_neg (by simp), if_neg hchoice]
  rw [hunfold]
  by_cases hrest : ratchet.restInReach previousNumber
  · cases hderived : deriveRootNextHeaderAndChainKeys ratchet.ourPrivateEphemeral
      ratchet.ourPublicEphemeral theirEphemeral ratchet.rootKey ratchet.role with
    | error e =>
        refine ⟨e, _, (ratchet.stagedRest previousNumber w).1,
          (ratchet.stagedRest previousNumber w).2,
          .noSharedSecret theirEphemeral messageNumber previousNumber, ?_⟩
        simp only [receiveNextChain, trying, stage_rest hrest, hderived, attempt, purported,
          hvalid]
    | ok derived =>
        have hskip : tooManySkipped 0 messageNumber = true := by
          by_contra h
          exact hfail ⟨hrest, ⟨derived, hderived⟩, by simpa using h⟩
        have hchain := derived_chainKey_isNone hkdf hderived
        refine ⟨tooManySkippedError, _, (ratchet.stagedRest previousNumber w).1,
          (ratchet.stagedRest previousNumber w).2, .nextChain theirEphemeral messageNumber
            previousNumber derived 0 hflag hderived, ?_⟩
        simp only [receiveNextChain, trying, stage_rest hrest, hderived,
          stageSkippedHeaderAndMessageKeys_tooManySkipped hchain hskip, attempt, nextPurported,
          hvalid]
        rfl
  · obtain ⟨hnone, hskip⟩ := Classical.not_imp.mp hrest
    rw [Bool.not_eq_false] at hskip
    refine ⟨tooManySkippedError, _, ratchet.stagedHeaderAndMessageKeys, w,
      .tooManySkippedBefore theirEphemeral messageNumber previousNumber, ?_⟩
    simp only [receiveNextChain, trying,
      stageSkippedHeaderAndMessageKeys_tooManySkipped hnone hskip, attempt, purported, hvalid]

omit [Sodium B] [Platform] in
theorem setLastMessageAuthenticity_current (hheader : ratchet.receiveHeaderKey.isNone = false)
    (staged : HeaderAndMessageKeyStore B) (messageNumber : UInt32) (chainKey : ChainKey B)
    (w : World B) :
    ((ratchet.trying skipped .currentDecryptable).attempt
        { ratchet.purported with
          messageNumber := messageNumber
          receiveChainKey := .ofKey chainKey } staged false).setLastMessageAuthenticity true w =
      (.ok (), ratchet.acceptCurrent messageNumber chainKey (committedKeys skipped staged w),
        w.now.2.now.2) := by
  simp only [setLastMessageAuthenticity, onCurrentChain, attempt, trying, hheader]
  rfl

omit [Sodium B] [Platform] in
theorem setLastMessageAuthenticity_next (hflag : ratchet.ratchetFlag = false)
    (staged : HeaderAndMessageKeyStore B) (theirEphemeral : PublicKey B)
    (messageNumber previousNumber : UInt32) (derived : DerivedRootNextHeadAndChainKey B)
    (chainKey : ChainKey B) (w : World B) :
    ((ratchet.trying skipped .nextDecryptable).attempt
        (ratchet.nextPurported theirEphemeral messageNumber previousNumber derived chainKey)
        staged false).setLastMessageAuthenticity true w =
      (.ok (), ratchet.acceptNext theirEphemeral messageNumber previousNumber derived chainKey
        (committedKeys skipped staged w), w.now.2.now.2) := by
  have hchain : ((ratchet.trying skipped .nextDecryptable).attempt
      (ratchet.nextPurported theirEphemeral messageNumber previousNumber derived chainKey)
      staged false).onCurrentChain = false := by
    simp [onCurrentChain, attempt, trying]
  unfold setLastMessageAuthenticity
  simp only [hchain]
  simp only [attempt, trying, hflag]
  rfl

end Receive

end Ratchet

section Sending

namespace Ratchet

def sendData (ratchet : Ratchet B) (headerKey : EmptyableHeaderKey B) : SendData B where
  messageNumber := ratchet.sendMessageNumber
  previousMessageNumber := ratchet.previousMessageNumber
  ephemeral := ratchet.ourPublicEphemeral
  messageKey := ratchet.sendChainKey.key.messageKey
  headerKey := headerKey

def advanceSendChain (ratchet : Ratchet B) : Ratchet B :=
  { ratchet with
    sendMessageNumber := ratchet.sendMessageNumber + 1
    sendChainKey := .ofKey ratchet.sendChainKey.key.nextChainKey }

/-- The ratchet with a sending chain that starts from the given ephemeral key. -/
def withSendChain (ratchet : Ratchet B) (privateEphemeral : PrivateKey B)
    (derived : DerivedRootNextHeadAndChainKey B) : Ratchet B :=
  { ratchet with
    ourPublicEphemeral := Sodium.cryptoScalarmultBase privateEphemeral
    ourPrivateEphemeral := privateEphemeral
    sendHeaderKey := some ratchet.nextSendHeaderKey
    rootKey := .ofKey derived.rootKey
    nextSendHeaderKey := .ofKey derived.nextHeaderKey
    sendChainKey := .ofKey derived.chainKey
    previousMessageNumber := ratchet.sendMessageNumber
    sendMessageNumber := 0
    ratchetFlag := false }

variable {ratchet : Ratchet B}

theorem nextSendData_eq (hchain : ratchet.sendChainKey.empty = false)
    {headerKey : EmptyableHeaderKey B} (hheader : ratchet.sendHeaderKey = some headerKey) :
    ratchet.nextSendData = (.ok (ratchet.sendData headerKey), ratchet.advanceSendChain) := by
  have hkey := EmptyableKey.eq_ofKey hchain
  have hmessage : ratchet.sendChainKey.deriveMessageKey =
      .ok ratchet.sendChainKey.key.messageKey := by
    rw [hkey]
    rfl
  have hnext : ratchet.sendChainKey.deriveChainKey =
      .ok (.ofKey ratchet.sendChainKey.key.nextChainKey) := by
    rw [hkey]
    rfl
  simp only [nextSendData, hmessage, hheader, hnext, sendData, advanceSendChain]

theorem getSendData_of_chain (hflag : ratchet.ratchetFlag = false)
    (hchain : ratchet.sendChainKey.empty = false) {headerKey : EmptyableHeaderKey B}
    (hheader : ratchet.sendHeaderKey = some headerKey) (w : World B) :
    ratchet.getSendData w = (.ok (ratchet.sendData headerKey), ratchet.advanceSendChain, w) := by
  unfold getSendData
  rw [hflag, nextSendData_eq hchain hheader]
  rfl

theorem getSendData_of_flag (hflag : ratchet.ratchetFlag = true)
    {derived : DerivedRootNextHeadAndChainKey B} {w : World B}
    (hderived : deriveRootNextHeaderAndChainKeys (w.random 0 32)
      (Sodium.cryptoScalarmultBase (w.random 0 32)) ratchet.theirPublicEphemeral
      ratchet.rootKey ratchet.role = .ok derived) :
    let started := ratchet.withSendChain (w.random 0 32) derived
    ratchet.getSendData w = (.ok (started.sendData ratchet.nextSendHeaderKey),
      started.advanceSendChain, (w.randombytesBuf 32).2) := by
  intro started
  have hstart : ratchet.startSendChain w = (.ok (), started, (w.randombytesBuf 32).2) := by
    simp only [startSendChain, cryptoBoxKeypair, World.randombytesBuf, hderived]
    rfl
  have hnext : started.nextSendData =
      (.ok (started.sendData ratchet.nextSendHeaderKey), started.advanceSendChain) :=
    nextSendData_eq rfl rfl
  unfold getSendData
  rw [hflag, hstart]
  simp only [hnext]
  rfl

theorem getSendData_cases {data : SendData B} {ratchet' : Ratchet B} {w w' : World B}
    (h : ratchet.getSendData w = (.ok data, ratchet', w')) :
    (ratchet.ratchetFlag = false ∧ ratchet.sendChainKey.empty = false ∧ ∃ headerKey,
      ratchet.sendHeaderKey = some headerKey ∧ data = ratchet.sendData headerKey ∧
      ratchet' = ratchet.advanceSendChain) ∨
    (ratchet.ratchetFlag = true ∧ ∃ derived, deriveRootNextHeaderAndChainKeys (w.random 0 32)
        (Sodium.cryptoScalarmultBase (w.random 0 32)) ratchet.theirPublicEphemeral
        ratchet.rootKey ratchet.role = .ok derived ∧
      data = (ratchet.withSendChain (w.random 0 32) derived).sendData ratchet.nextSendHeaderKey ∧
      ratchet' = (ratchet.withSendChain (w.random 0 32) derived).advanceSendChain) := by
  cases hflag : ratchet.ratchetFlag with
  | true =>
      refine .inr ⟨rfl, ?_⟩
      cases hderived : deriveRootNextHeaderAndChainKeys (w.random 0 32)
          (Sodium.cryptoScalarmultBase (w.random 0 32)) ratchet.theirPublicEphemeral
          ratchet.rootKey ratchet.role with
      | ok derived =>
          rw [getSendData_of_flag hflag hderived] at h
          cases h
          exact ⟨derived, rfl, rfl, rfl⟩
      | error e =>
          have hstart : ∃ ratchet' w', ratchet.startSendChain w = (.error e, ratchet', w') := by
            simp only [startSendChain, cryptoBoxKeypair, World.randombytesBuf, hderived]
            exact ⟨_, _, rfl⟩
          obtain ⟨_, _, hstart⟩ := hstart
          unfold getSendData at h
          rw [hflag, hstart] at h
          cases h
  | false =>
      refine .inl ⟨rfl, ?_⟩
      cases hempty : ratchet.sendChainKey.empty with
      | true =>
          have hmessage : ∃ e, ratchet.sendChainKey.deriveMessageKey = .error e := by
            unfold EmptyableKey.deriveMessageKey EmptyableKey.deriveSubkeyWithIndex
            rw [hempty]
            exact ⟨_, rfl⟩
          obtain ⟨e, hmessage⟩ := hmessage
          unfold getSendData nextSendData at h
          rw [hflag, hmessage] at h
          cases h
      | false =>
          cases hheader : ratchet.sendHeaderKey with
          | some headerKey =>
              rw [getSendData_of_chain hflag hempty hheader] at h
              cases h
              exact ⟨rfl, headerKey, rfl, rfl, rfl⟩
          | none =>
              have hmessage : ratchet.sendChainKey.deriveMessageKey =
                  .ok ratchet.sendChainKey.key.messageKey := by
                rw [EmptyableKey.eq_ofKey hempty]
                rfl
              unfold getSendData nextSendData at h
              rw [hflag, hmessage, hheader] at h
              cases h

end Ratchet

end Sending

variable [ProtobufC B]

theorem firstDecryption_eq_none {packet : List B} {keys : List (HeaderAndMessageKey B)} :
    firstDecryption packet keys = none ↔
      ∀ node ∈ keys, ∃ e, packetDecrypt packet node.headerKey node.messageKey = .error e := by
  induction keys with
  | nil => simp [firstDecryption]
  | cons node nodes ih =>
      rw [firstDecryption, List.forall_mem_cons, ← ih]
      cases packetDecrypt packet node.headerKey node.messageKey with
      | error e => simp
      | ok decrypted => simp

theorem firstDecryption_eq_some {packet : List B} {keys : List (HeaderAndMessageKey B)}
    {index : ℕ} {decrypted : DecryptedPacket B}
    (h : firstDecryption packet keys = some (index, decrypted)) :
    ∃ node, keys[index]? = some node ∧
      packetDecrypt packet node.headerKey node.messageKey = .ok decrypted := by
  induction keys generalizing index with
  | nil => cases h
  | cons node nodes ih =>
      rw [firstDecryption] at h
      cases hnode : packetDecrypt packet node.headerKey node.messageKey with
      | ok decrypted' =>
          rw [hnode] at h
          cases h
          exact ⟨node, rfl, hnode⟩
      | error e =>
          rw [hnode] at h
          obtain ⟨⟨index', decrypted'⟩, hfound, hpair⟩ := Option.map_eq_some_iff.mp h
          cases hpair
          obtain ⟨found, hindex, hdecrypt⟩ := ih hfound
          exact ⟨found, by simpa using hindex, hdecrypt⟩

namespace Conversation

def sentType (prekeyMetadata : Option (PrekeyMetadata B)) : MessageType :=
  if prekeyMetadata.isSome then .prekeyMessage else .normalMessage

omit [Byte B] [Sodium B] [ProtobufC B] in
theorem sentType_eq_prekeyMessage (prekeyMetadata : Option (PrekeyMetadata B)) :
    sentType prekeyMetadata = .prekeyMessage ↔ prekeyMetadata.isSome := by
  cases prekeyMetadata with
  | none => simp [sentType]
  | some metadata => simp [sentType]

theorem send_eq {conversation : Conversation B} {data : SendData B}
    {ratchet : Ratchet B} {w w' : World B}
    (hdata : conversation.ratchet.getSendData w = (.ok data, ratchet, w'))
    (hkey : data.headerKey.empty = false) (message : List B)
    (prekeyMetadata : Option (PrekeyMetadata B)) :
    conversation.send message prekeyMetadata w =
      (.ok (ProtobufC.packetPack (encryptedPacketStruct (sentType prekeyMetadata)
        (headerConstruct data.ephemeral data.messageNumber data.previousMessageNumber)
        data.headerKey.key (paddedMessage message) data.messageKey prekeyMetadata
        (w'.random 0 24) (w'.random 1 24))), ⟨conversation.id, ratchet⟩,
        { w' with random := fun i => w'.random (i + 2) }) := by
  have htype : sentType prekeyMetadata ≠ .invalid := by
    unfold sentType
    split <;> decide
  have hmetadata : (if sentType prekeyMetadata = .prekeyMessage then prekeyMetadata else none) =
      prekeyMetadata := by
    cases prekeyMetadata with
    | none => exact ite_self _
    | some metadata => rfl
  have hencrypt := packetEncrypt_eq htype hkey (sentType_eq_prekeyMessage prekeyMetadata).mp
    (headerConstruct data.ephemeral data.messageNumber data.previousMessageNumber) message
    data.messageKey w'
  rw [hmetadata] at hencrypt
  unfold send
  rw [hdata]
  simp only
  rw [show (if prekeyMetadata.isSome then MessageType.prekeyMessage else .normalMessage) =
    sentType prekeyMetadata from rfl, hencrypt]

theorem getSendData_of_send {conversation conversation' : Conversation B} {message : List B}
    {prekeyMetadata : Option (PrekeyMetadata B)} {w w' : World B} {packet : List B}
    (h : conversation.send message prekeyMetadata w = (.ok packet, conversation', w')) :
    ∃ data ratchet w'', conversation.ratchet.getSendData w = (.ok data, ratchet, w'') ∧
      data.headerKey.empty = false := by
  unfold send at h
  split at h
  · cases h
  · rename_i data ratchet w'' hdata
    refine ⟨data, ratchet, w'', hdata, ?_⟩
    obtain ⟨hresult, -⟩ := Prod.mk.inj h
    exact (packetEncrypt_eq_ok (Prod.ext hresult rfl)).1

theorem receiving_of_send {conversation conversation' : Conversation B} {message packet : List B}
    {prekeyMetadata : Option (PrekeyMetadata B)} {w w' : World B}
    (h : conversation.send message prekeyMetadata w = (.ok packet, conversation', w')) :
    conversation'.ratchet.receiveHeaderKey = conversation.ratchet.receiveHeaderKey ∧
      conversation'.ratchet.skippedHeaderAndMessageKeys =
        conversation.ratchet.skippedHeaderAndMessageKeys ∧
      conversation'.ratchet.receiveMessageNumber = conversation.ratchet.receiveMessageNumber := by
  obtain ⟨data, ratchet, w'', hdata, hkey⟩ := getSendData_of_send h
  rw [send_eq hdata hkey] at h
  cases h
  rcases Ratchet.getSendData_cases hdata with ⟨-, -, headerKey, -, -, rfl⟩ | ⟨-, derived, -, -, rfl⟩
  · exact ⟨rfl, rfl, rfl⟩
  · exact ⟨rfl, rfl, rfl⟩

theorem send_of_getSendData {conversation : Conversation B} {data : SendData B}
    {ratchet : Ratchet B} {w w' : World B}
    (hdata : conversation.ratchet.getSendData w = (.ok data, ratchet, w'))
    (hkey : data.headerKey.empty = false) (message : List B)
    (prekeyMetadata : Option (PrekeyMetadata B)) :
    ∃ packet w'', conversation.send message prekeyMetadata w =
        (.ok packet, ⟨conversation.id, ratchet⟩, w'') ∧
      (ProtobufRoundTrip B → Seals packet data.headerKey.key
        (headerConstruct data.ephemeral data.messageNumber data.previousMessageNumber)
        data.messageKey message) := by
  refine ⟨_, _, send_eq hdata hkey message prekeyMetadata, fun hproto => ?_⟩
  exact ⟨_, packetUnpack_encryptedPacketStruct hproto _ _ _ _ _ _ _ _
    (sentType_eq_prekeyMessage prekeyMetadata), rfl, rfl⟩

/-- The skipped keys that are left after none of them has delivered the message. A key that
decrypts the packet is lost if the header turns out to be malformed. -/
inductive SkippedLeft (conversation : Conversation B) (packet : List B) :
    HeaderAndMessageKeyStore B → Prop
  | all (hnone : firstDecryption packet
      conversation.ratchet.skippedHeaderAndMessageKeys.keys = none) :
      SkippedLeft conversation packet conversation.ratchet.skippedHeaderAndMessageKeys
  | removed {index : ℕ} {decrypted : DecryptedPacket B} {e : Error}
      (hfound : firstDecryption packet
        conversation.ratchet.skippedHeaderAndMessageKeys.keys = some (index, decrypted))
      (hheader : headerExtract decrypted.header = .error e) :
      SkippedLeft conversation packet
        (conversation.ratchet.skippedHeaderAndMessageKeys.remove index)

theorem SkippedLeft.of_clear {conversation : Conversation B}
    (h : conversation.ratchet.skippedHeaderAndMessageKeys = .clear)
    (packet : List B) :
    conversation.SkippedLeft packet conversation.ratchet.skippedHeaderAndMessageKeys := by
  apply SkippedLeft.all
  rw [h]
  rfl

variable [Platform]

/-- The ways in which a call of `receive` can end. -/
inductive Received (conversation : Conversation B) (packet : List B) (w : World B) :
    Except Error (ReceivedMessage B) → Conversation B → Prop
  | skipped {index : ℕ} {decrypted : DecryptedPacket B} {header : ExtractedHeader B}
      (hfound : firstDecryption packet
        conversation.ratchet.skippedHeaderAndMessageKeys.keys = some (index, decrypted))
      (hheader : headerExtract decrypted.header = .ok header) :
      Received conversation packet w
        (.ok ⟨header.messageNumber, header.previousMessageNumber, decrypted.message⟩)
        ⟨conversation.id, { conversation.ratchet with
          skippedHeaderAndMessageKeys :=
            conversation.ratchet.skippedHeaderAndMessageKeys.remove index }⟩
  | rejected {e : Error} {skipped : HeaderAndMessageKeyStore B} {purported : Purported B}
      (hleft : conversation.SkippedLeft packet skipped)
      (hpurported : conversation.ratchet.Purports purported) :
      Received conversation packet w (.error e)
        ⟨conversation.id, conversation.ratchet.settle purported skipped⟩
  | currentChain {skipped : HeaderAndMessageKeyStore B} {header message : List B}
      {extracted : ExtractedHeader B} {count : ℕ}
      {staged : HeaderAndMessageKeyStore B × World B}
      (hleft : conversation.SkippedLeft packet skipped)
      (hopen : packetDecryptHeader packet conversation.ratchet.receiveHeaderKey = .ok header)
      (hheader : headerExtract header = .ok extracted)
      (hnone : conversation.ratchet.receiveHeaderKey.isNone = false)
      (hskip : tooManySkipped conversation.ratchet.receiveMessageNumber
        extracted.messageNumber = false)
      (hcount : count = conversation.ratchet.skippedCount extracted.messageNumber)
      (hstaged : staged = stagedKeys conversation.ratchet.receiveHeaderKey count
        conversation.ratchet.receiveChainKey.key
        conversation.ratchet.stagedHeaderAndMessageKeys w)
      (hmessage : packetDecryptMessage packet
        (conversation.ratchet.receiveChainKey.key.advance count).messageKey = .ok message) :
      Received conversation packet w
        (.ok ⟨extracted.messageNumber, extracted.previousMessageNumber, message⟩)
        ⟨conversation.id, conversation.ratchet.acceptCurrent extracted.messageNumber
          (conversation.ratchet.receiveChainKey.key.advance (count + 1))
          (committedKeys skipped staged.1 staged.2)⟩
  | nextChain {skipped : HeaderAndMessageKeyStore B} {header message : List B}
      {extracted : ExtractedHeader B} {derived : DerivedRootNextHeadAndChainKey B}
      {rest staged : HeaderAndMessageKeyStore B × World B}
      (hleft : conversation.SkippedLeft packet skipped)
      (hcurrent : ∃ e, packetDecryptHeader packet conversation.ratchet.receiveHeaderKey =
        .error e)
      (hopen : packetDecryptHeader packet conversation.ratchet.nextReceiveHeaderKey = .ok header)
      (hheader : headerExtract header = .ok extracted)
      (hflag : conversation.ratchet.ratchetFlag = false)
      (hrest : conversation.ratchet.restInReach extracted.previousMessageNumber)
      (hderived : deriveRootNextHeaderAndChainKeys conversation.ratchet.ourPrivateEphemeral
        conversation.ratchet.ourPublicEphemeral extracted.theirPublicEphemeral
        conversation.ratchet.rootKey conversation.ratchet.role = .ok derived)
      (hskip : tooManySkipped 0 extracted.messageNumber = false)
      (hstagedRest : rest =
        conversation.ratchet.stagedRest extracted.previousMessageNumber w)
      (hstaged : staged = stagedKeys conversation.ratchet.nextReceiveHeaderKey
        extracted.messageNumber.toNat derived.chainKey rest.1 rest.2)
      (hmessage : packetDecryptMessage packet
        (derived.chainKey.advance extracted.messageNumber.toNat).messageKey = .ok message) :
      Received conversation packet w
        (.ok ⟨extracted.messageNumber, extracted.previousMessageNumber, message⟩)
        ⟨conversation.id, conversation.ratchet.acceptNext extracted.theirPublicEphemeral
          extracted.messageNumber extracted.previousMessageNumber derived
          (derived.chainKey.advance (extracted.messageNumber.toNat + 1))
          (committedKeys skipped staged.1 staged.2)⟩

section Receive

variable {conversation : Conversation B} {packet : List B}

def leaving (conversation : Conversation B) (skipped : HeaderAndMessageKeyStore B) :
    Conversation B :=
  ⟨conversation.id, { conversation.ratchet with skippedHeaderAndMessageKeys := skipped }⟩

omit [Platform] in
theorem trySkippedHeaderAndMessageKeys_cases (conversation : Conversation B) (packet : List B) :
    (∃ index decrypted header,
      firstDecryption packet conversation.ratchet.skippedHeaderAndMessageKeys.keys =
        some (index, decrypted) ∧ headerExtract decrypted.header = .ok header ∧
      conversation.trySkippedHeaderAndMessageKeys packet =
        (.ok ⟨header.messageNumber, header.previousMessageNumber, decrypted.message⟩,
          conversation.leaving
            (conversation.ratchet.skippedHeaderAndMessageKeys.remove index))) ∨
    (∃ e skipped, conversation.SkippedLeft packet skipped ∧
      conversation.trySkippedHeaderAndMessageKeys packet =
        (.error e, conversation.leaving skipped)) := by
  unfold trySkippedHeaderAndMessageKeys
  cases hfound : firstDecryption packet
      conversation.ratchet.skippedHeaderAndMessageKeys.keys with
  | none => exact .inr ⟨_, _, .all hfound, rfl⟩
  | some found =>
      obtain ⟨index, decrypted⟩ := found
      cases hheader : headerExtract decrypted.header with
      | error e =>
          refine .inr ⟨e, _, .removed hfound hheader, ?_⟩
          simp only [hheader]
          rfl
      | ok header =>
          refine .inl ⟨index, decrypted, header, rfl, hheader, ?_⟩
          simp only [hheader]
          rfl

theorem receive_of_internalReceive_error {e : Error} {purported : Purported B}
    {skipped staged : HeaderAndMessageKeyStore B} {headerDecryptable : HeaderDecryptability}
    {valid : Bool} {w w' : World B}
    (h : conversation.internalReceive packet w = (.error e, ⟨conversation.id,
      (conversation.ratchet.trying skipped headerDecryptable).attempt purported staged valid⟩,
      w')) :
    conversation.receive packet w =
      (.error e, ⟨conversation.id, conversation.ratchet.settle purported skipped⟩, w') := by
  rw [receive, h]
  rfl

omit [Byte B] [ProtobufC B] [Sodium B] [Platform] in
theorem setHeaderDecryptability_leaving
    (htried : conversation.ratchet.headerDecryptable = .notTried)
    (skipped : HeaderAndMessageKeyStore B) {headerDecryptable : HeaderDecryptability}
    (hnew : headerDecryptable ≠ .notTried) :
    (conversation.leaving skipped).ratchet.setHeaderDecryptability headerDecryptable =
      (.ok (), conversation.ratchet.trying skipped headerDecryptable) := by
  unfold Ratchet.setHeaderDecryptability
  rw [if_pos ⟨htried, hnew⟩]
  rfl

theorem receiveWithHeader_of_error {header : List B} {extracted : ExtractedHeader B} {e : Error}
    {skipped : HeaderAndMessageKeyStore B} {headerDecryptable : HeaderDecryptability}
    {ratchet : Ratchet B} {w w' : World B}
    (htried : conversation.ratchet.headerDecryptable = .notTried)
    (hnew : headerDecryptable ≠ .notTried) (hheader : headerExtract header = .ok extracted)
    (hreceive : (conversation.ratchet.trying skipped headerDecryptable).receive
      extracted.theirPublicEphemeral extracted.messageNumber extracted.previousMessageNumber w =
        (.error e, ratchet, w')) :
    (conversation.leaving skipped).receiveWithHeader packet header headerDecryptable w =
      (.error e, ⟨conversation.id, ratchet⟩, w') := by
  unfold receiveWithHeader
  rw [setHeaderDecryptability_leaving htried skipped hnew]
  simp only [hheader, hreceive]
  rfl

theorem receiveWithHeader_of_ok (packet : List B) {header : List B} {extracted : ExtractedHeader B}
    {messageKey : MessageKey B} {skipped : HeaderAndMessageKeyStore B}
    {headerDecryptable : HeaderDecryptability} {ratchet accepted : Ratchet B}
    {w w' w'' : World B}
    (htried : conversation.ratchet.headerDecryptable = .notTried)
    (hnew : headerDecryptable ≠ .notTried) (hheader : headerExtract header = .ok extracted)
    (hreceive : (conversation.ratchet.trying skipped headerDecryptable).receive
      extracted.theirPublicEphemeral extracted.messageNumber extracted.previousMessageNumber w =
        (.ok messageKey, ratchet, w'))
    (haccept : ratchet.setLastMessageAuthenticity true w' = (.ok (), accepted, w'')) :
    (conversation.leaving skipped).receiveWithHeader packet header headerDecryptable w =
      match packetDecryptMessage packet messageKey with
      | .error e => (.error e, ⟨conversation.id, ratchet⟩, w')
      | .ok message =>
          (.ok ⟨extracted.messageNumber, extracted.previousMessageNumber, message⟩,
            ⟨conversation.id, accepted⟩, w'') := by
  unfold receiveWithHeader
  rw [setHeaderDecryptability_leaving htried skipped hnew]
  simp only [hheader, hreceive]
  cases packetDecryptMessage packet messageKey with
  | error e => rfl
  | ok message =>
      simp only [haccept]
      rfl

/-- How the attempt with a decrypted header ends: an error that leaves purported values and
staged keys behind, or a message of one of the two chains. -/
theorem receiveWithHeader_cases (hkdf : KdfNonzero B)
    (hvalid : conversation.ratchet.receivedValid = true)
    (htried : conversation.ratchet.headerDecryptable = .notTried)
    (hchain : conversation.ratchet.receiveHeaderKey.isNone = false →
      conversation.ratchet.receiveChainKey.isNone = false)
    {skipped : HeaderAndMessageKeyStore B} (hleft : conversation.SkippedLeft packet skipped)
    {header : List B} {headerDecryptable : HeaderDecryptability}
    (hopen : headerDecryptable = .currentDecryptable ∧
        packetDecryptHeader packet conversation.ratchet.receiveHeaderKey = .ok header ∨
      headerDecryptable = .nextDecryptable ∧
        (∃ e, packetDecryptHeader packet conversation.ratchet.receiveHeaderKey = .error e) ∧
        packetDecryptHeader packet conversation.ratchet.nextReceiveHeaderKey = .ok header)
    (w : World B) :
    (∃ e purported staged valid w', conversation.ratchet.Purports purported ∧
      (conversation.leaving skipped).receiveWithHeader packet header headerDecryptable w =
        (.error e, ⟨conversation.id, (conversation.ratchet.trying skipped
          headerDecryptable).attempt purported staged valid⟩, w')) ∨
    (∃ message conversation' w', Received conversation packet w (.ok message) conversation' ∧
      (conversation.leaving skipped).receiveWithHeader packet header headerDecryptable w =
        (.ok message, conversation', w')) := by
  have hnew : headerDecryptable ≠ .notTried := by
    rcases hopen with ⟨rfl, -⟩ | ⟨rfl, -, -⟩ <;> decide
  cases hheader : headerExtract header with
  | error e =>
      refine .inl ⟨e, _, conversation.ratchet.stagedHeaderAndMessageKeys, true, w,
        .untouched, ?_⟩
      unfold receiveWithHeader
      rw [setHeaderDecryptability_leaving htried skipped hnew,
        Ratchet.attempt_purported skipped hvalid]
      simp only [hheader]
      rfl
  | ok extracted =>
      rcases hopen with ⟨rfl, hopen⟩ | ⟨rfl, hcurrent, hopen⟩
      · cases hnone : conversation.ratchet.receiveHeaderKey.isNone with
        | true =>
            obtain ⟨e, hreceive⟩ := Ratchet.receive_undecryptable skipped hvalid hnew (fun _ => hnone)
              (fun h => by cases h) extracted.theirPublicEphemeral extracted.messageNumber
              extracted.previousMessageNumber w
            exact .inl ⟨e, _, _, _, _, .untouched,
              receiveWithHeader_of_error htried hnew hheader hreceive⟩
        | false =>
            cases hskip : tooManySkipped conversation.ratchet.receiveMessageNumber
                extracted.messageNumber with
            | true =>
                obtain ⟨e, hreceive⟩ := Ratchet.receive_current_tooManySkipped skipped hvalid hnone
                  (hchain hnone) hskip extracted.theirPublicEphemeral
                  extracted.previousMessageNumber w
                exact .inl ⟨e, _, _, _, _, .tooManySkipped extracted.messageNumber,
                  receiveWithHeader_of_error htried hnew hheader hreceive⟩
            | false =>
                have hreceive := Ratchet.receive_current skipped hvalid hnone
                  (hchain hnone) hskip extracted.theirPublicEphemeral
                  extracted.previousMessageNumber w
                have heq := receiveWithHeader_of_ok packet htried hnew hheader
                  hreceive (Ratchet.setLastMessageAuthenticity_current skipped hnone _ _ _ _)
                cases hmessage : packetDecryptMessage packet
                    (conversation.ratchet.receiveChainKey.key.advance
                      (conversation.ratchet.skippedCount extracted.messageNumber)).messageKey with
                | error e =>
                    rw [hmessage] at heq
                    exact .inl ⟨e, _, _, _, _, .currentChain _ _ hnone, heq⟩
                | ok message =>
                    rw [hmessage] at heq
                    exact .inr ⟨_, _, _, .currentChain hleft hopen hheader hnone hskip rfl rfl
                      hmessage, heq⟩
      · cases hflag : conversation.ratchet.ratchetFlag with
        | true =>
            obtain ⟨e, hreceive⟩ := Ratchet.receive_undecryptable skipped hvalid hnew
              (fun h => by cases h) (fun _ => hflag) extracted.theirPublicEphemeral
              extracted.messageNumber extracted.previousMessageNumber w
            exact .inl ⟨e, _, _, _, _, .untouched,
              receiveWithHeader_of_error htried hnew hheader hreceive⟩
        | false =>
            by_cases hreach : conversation.ratchet.restInReach extracted.previousMessageNumber ∧
                (∃ derived, deriveRootNextHeaderAndChainKeys
                  conversation.ratchet.ourPrivateEphemeral
                  conversation.ratchet.ourPublicEphemeral extracted.theirPublicEphemeral
                  conversation.ratchet.rootKey conversation.ratchet.role = .ok derived) ∧
                tooManySkipped 0 extracted.messageNumber = false
            · obtain ⟨hrest, ⟨derived, hderived⟩, hskip⟩ := hreach
              have hreceive := Ratchet.receive_next skipped hkdf hvalid hflag
                hrest hderived hskip w
              have heq := receiveWithHeader_of_ok packet htried hnew hheader
                hreceive (Ratchet.setLastMessageAuthenticity_next skipped hflag _ _ _ _ _ _ _)
              cases hmessage : packetDecryptMessage packet
                  (derived.chainKey.advance extracted.messageNumber.toNat).messageKey with
              | error e =>
                  rw [hmessage] at heq
                  exact .inl ⟨e, _, _, _, _, .nextChain _ _ _ _ _ hflag hderived, heq⟩
              | ok message =>
                  rw [hmessage] at heq
                  exact .inr ⟨_, _, _, .nextChain hleft hcurrent hopen hheader hflag hrest hderived
                    hskip rfl rfl hmessage, heq⟩
            · obtain ⟨e, purported, staged, w', hpurports, hreceive⟩ :=
                Ratchet.receive_next_error skipped hkdf hvalid hflag hreach w
              exact .inl ⟨e, purported, staged, true, w', hpurports,
                receiveWithHeader_of_error htried hnew hheader hreceive⟩

theorem receive_cases (hkdf : KdfNonzero B)
    (hvalid : conversation.ratchet.receivedValid = true)
    (htried : conversation.ratchet.headerDecryptable = .notTried)
    (hchain : conversation.ratchet.receiveHeaderKey.isNone = false →
      conversation.ratchet.receiveChainKey.isNone = false) (packet : List B) (w : World B) :
    Received conversation packet w (conversation.receive packet w).1
      (conversation.receive packet w).2.1 := by
  rcases trySkippedHeaderAndMessageKeys_cases conversation packet with
    ⟨index, decrypted, header, hfound, hheader, htry⟩ | ⟨e, skipped, hleft, htry⟩
  · rw [receive, internalReceive, htry]
    exact .skipped hfound hheader
  · have hinternal : conversation.internalReceive packet w =
        (conversation.leaving skipped).receiveWithHeaderKeys packet w := by
      rw [internalReceive, htry]
    have hwith : ∀ header headerDecryptable, (headerDecryptable = .currentDecryptable ∧
        packetDecryptHeader packet conversation.ratchet.receiveHeaderKey = .ok header ∨
        headerDecryptable = .nextDecryptable ∧
        (∃ e, packetDecryptHeader packet conversation.ratchet.receiveHeaderKey = .error e) ∧
        packetDecryptHeader packet conversation.ratchet.nextReceiveHeaderKey = .ok header) →
        conversation.internalReceive packet w = (conversation.leaving skipped).receiveWithHeader
          packet header headerDecryptable w →
        Received conversation packet w (conversation.receive packet w).1
          (conversation.receive packet w).2.1 := by
      intro header headerDecryptable hopen heq
      rcases receiveWithHeader_cases hkdf hvalid htried hchain hleft hopen w with
        ⟨e, purported, staged, valid, w', hpurports, hresult⟩ |
        ⟨message, conversation', w', hreceived, hresult⟩
      · rw [receive_of_internalReceive_error (heq.trans hresult)]
        exact .rejected hleft hpurports
      · rw [receive, heq, hresult]
        exact hreceived
    unfold receiveWithHeaderKeys at hinternal
    cases hcurrent : packetDecryptHeader packet conversation.ratchet.receiveHeaderKey with
    | ok header =>
        refine hwith header .currentDecryptable (.inl ⟨rfl, hcurrent⟩) ?_
        rw [hinternal, show (conversation.leaving skipped).ratchet.receiveHeaderKey =
          conversation.ratchet.receiveHeaderKey from rfl, hcurrent]
    | error e =>
        rw [show (conversation.leaving skipped).ratchet.receiveHeaderKey =
          conversation.ratchet.receiveHeaderKey from rfl, hcurrent] at hinternal
        cases hnext : packetDecryptHeader packet
            conversation.ratchet.nextReceiveHeaderKey with
        | ok header =>
            refine hwith header .nextDecryptable (.inr ⟨rfl, ⟨e, hcurrent⟩, hnext⟩) ?_
            rw [hinternal]
            simp only [show (conversation.leaving skipped).ratchet.nextReceiveHeaderKey =
              conversation.ratchet.nextReceiveHeaderKey from rfl, hnext]
        | error e' =>
            have hresult : conversation.internalReceive packet w =
                (.error ⟨.decryptError, "Failed to decrypt the message."⟩, ⟨conversation.id,
                  (conversation.ratchet.trying skipped .undecryptable).attempt
                    conversation.ratchet.purported
                    conversation.ratchet.stagedHeaderAndMessageKeys true⟩, w) := by
              rw [hinternal, Ratchet.attempt_purported skipped hvalid]
              simp only [show (conversation.leaving skipped).ratchet.nextReceiveHeaderKey =
                conversation.ratchet.nextReceiveHeaderKey from rfl, hnext,
                setHeaderDecryptability_leaving htried skipped
                  (show HeaderDecryptability.undecryptable ≠ .notTried by decide)]
              rfl
            rw [receive_of_internalReceive_error hresult]
            exact .rejected hleft .untouched

omit [Platform] in
theorem SkippedLeft.trySkippedHeaderAndMessageKeys {skipped : HeaderAndMessageKeyStore B}
    (h : conversation.SkippedLeft packet skipped) :
    ∃ e, conversation.trySkippedHeaderAndMessageKeys packet =
      (.error e, conversation.leaving skipped) := by
  unfold Conversation.trySkippedHeaderAndMessageKeys
  cases h with
  | all hnone =>
      rw [hnone]
      exact ⟨_, rfl⟩
  | removed hfound hheader =>
      rw [hfound]
      simp only [hheader]
      exact ⟨_, rfl⟩

/-- `receive` returns the message whenever one of the three ways to it is open. -/
theorem Received.receive_eq (hkdf : KdfNonzero B)
    (hvalid : conversation.ratchet.receivedValid = true)
    (htried : conversation.ratchet.headerDecryptable = .notTried)
    (hchain : conversation.ratchet.receiveHeaderKey.isNone = false →
      conversation.ratchet.receiveChainKey.isNone = false)
    {message : ReceivedMessage B} {conversation' : Conversation B} {w : World B}
    (h : Received conversation packet w (.ok message) conversation') :
    ∃ w', conversation.receive packet w = (.ok message, conversation', w') := by
  unfold Conversation.receive internalReceive
  cases h with
  | skipped hfound hheader =>
      unfold Conversation.trySkippedHeaderAndMessageKeys
      rw [hfound]
      simp only [hheader]
      exact ⟨w, rfl⟩
  | currentChain hleft hopen hheader hnone hskip hcount hstaged hmessage =>
      rename_i skipped header message extracted count staged
      subst hcount hstaged
      obtain ⟨e, htry⟩ := hleft.trySkippedHeaderAndMessageKeys
      have hreceive := Ratchet.receive_current skipped hvalid hnone (hchain hnone) hskip
        extracted.theirPublicEphemeral extracted.previousMessageNumber w
      have heq := receiveWithHeader_of_ok packet htried (by decide) hheader hreceive
        (Ratchet.setLastMessageAuthenticity_current skipped hnone _ _ _ _)
      rw [hmessage] at heq
      rw [htry]
      simp only [receiveWithHeaderKeys]
      rw [show (conversation.leaving skipped).ratchet.receiveHeaderKey =
        conversation.ratchet.receiveHeaderKey from rfl, hopen]
      simp only [heq]
      exact ⟨_, rfl⟩
  | nextChain hleft hcurrent hopen hheader hflag hrest hderived hskip hstagedRest hstaged
      hmessage =>
      rename_i skipped header message extracted derived rest staged
      subst hstaged hstagedRest
      obtain ⟨e, htry⟩ := hleft.trySkippedHeaderAndMessageKeys
      obtain ⟨e', hcurrent⟩ := hcurrent
      have hreceive := Ratchet.receive_next skipped hkdf hvalid hflag hrest hderived hskip w
      have heq := receiveWithHeader_of_ok packet htried (by decide) hheader hreceive
        (Ratchet.setLastMessageAuthenticity_next skipped hflag _ _ _ _ _ _ _)
      rw [hmessage] at heq
      rw [htry]
      simp only [receiveWithHeaderKeys]
      rw [show (conversation.leaving skipped).ratchet.receiveHeaderKey =
        conversation.ratchet.receiveHeaderKey from rfl, hcurrent]
      simp only [show (conversation.leaving skipped).ratchet.nextReceiveHeaderKey =
        conversation.ratchet.nextReceiveHeaderKey from rfl, hopen, heq]
      exact ⟨_, rfl⟩

end Receive

end Conversation

end Molch
