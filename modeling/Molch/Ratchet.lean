import Molch.KeyDerivation
import Molch.KeyStore

/-!
The axolotl ratchet. A function that fails keeps what it has written so far, so
every operation returns its result together with the ratchet and the world it
leaves behind.
-/

namespace Molch

/-- The width of `size_t` on the platforms the library supports. -/
class Platform where
  sizeBits : ℕ
  sizeBits_eq : sizeBits = 32 ∨ sizeBits = 64

@[reducible] def Platform.i686 : Platform := ⟨32, .inl rfl⟩

@[reducible] def Platform.x8664 : Platform := ⟨64, .inr rfl⟩

inductive HeaderDecryptability where
  | currentDecryptable
  | nextDecryptable
  | undecryptable
  | notTried
deriving DecidableEq, Repr

structure RatchetStorage (B : Type) where
  rootKey : EmptyableRootKey B
  purportedRootKey : EmptyableRootKey B
  sendHeaderKey : Option (EmptyableHeaderKey B)
  receiveHeaderKey : EmptyableHeaderKey B
  nextSendHeaderKey : EmptyableHeaderKey B
  nextReceiveHeaderKey : EmptyableHeaderKey B
  purportedReceiveHeaderKey : EmptyableHeaderKey B
  purportedNextReceiveHeaderKey : EmptyableHeaderKey B
  sendChainKey : EmptyableChainKey B
  receiveChainKey : EmptyableChainKey B
  purportedReceiveChainKey : EmptyableChainKey B
  ourPublicIdentity : PublicKey B
  theirPublicIdentity : PublicKey B
  ourPrivateEphemeral : PrivateKey B
  ourPublicEphemeral : PublicKey B
  theirPublicEphemeral : PublicKey B
  theirPurportedPublicEphemeral : Option (PublicKey B)

/-- The ratchet with the fields of its storage. -/
structure Ratchet (B : Type) extends RatchetStorage B where
  sendMessageNumber : UInt32
  receiveMessageNumber : UInt32
  purportedMessageNumber : UInt32
  previousMessageNumber : UInt32
  purportedPreviousMessageNumber : UInt32
  ratchetFlag : Bool
  role : Role
  receivedValid : Bool
  headerDecryptable : HeaderDecryptability
  skippedHeaderAndMessageKeys : HeaderAndMessageKeyStore B
  stagedHeaderAndMessageKeys : HeaderAndMessageKeyStore B

structure SendData (B : Type) where
  messageNumber : UInt32
  previousMessageNumber : UInt32
  ephemeral : PublicKey B
  messageKey : MessageKey B
  headerKey : EmptyableHeaderKey B

def maximumSkippedMessages : ℕ := 500

/-- `future_message_number > (current_message_number + maximum_skipped_messages)`; the sum
is taken in `size_t`. -/
def tooManySkipped [Platform] (currentMessageNumber futureMessageNumber : UInt32) : Bool :=
  decide (futureMessageNumber.toNat >
    (currentMessageNumber.toNat + maximumSkippedMessages) % 2 ^ Platform.sizeBits)

def tooManySkippedError : Error :=
  ⟨.receiveError, "Too many messagges in this message chain have been skipped."⟩

variable {B : Type} [Byte B] [Sodium B]

/-- An optional key as `create` stores it. -/
def EmptyableKey.ofOption {n : ℕ} : Option (Key B n) → EmptyableKey B n
  | some key => .ofKey key
  | none => .clear

/-- The loop of `stageSkippedHeaderAndMessageKeys` with `count` iterations left. -/
def stageKeys (headerKey : EmptyableHeaderKey B) :
    ℕ → EmptyableChainKey B → HeaderAndMessageKeyStore B → World B →
      Except Error (EmptyableChainKey B) × HeaderAndMessageKeyStore B × World B
  | 0, chainKey, stagingArea, w => (.ok chainKey, stagingArea, w)
  | count + 1, chainKey, stagingArea, w =>
      match chainKey.deriveMessageKey with
      | .error e => (.error e, stagingArea, w)
      | .ok messageKey =>
          match stagingArea.add headerKey messageKey w with
          | (stagingArea, w) =>
              match chainKey.deriveChainKey with
              | .error e => (.error e, stagingArea, w)
              | .ok nextChainKey => stageKeys headerKey count nextChainKey stagingArea w

section Staging

variable [Platform]

/-- `stageSkippedHeaderAndMessageKeys`. With `output` the pointers for the following chain
key and the message key are given. The result is `none` if nothing is written to them. -/
def stageSkippedHeaderAndMessageKeys (stagingArea : HeaderAndMessageKeyStore B) (output : Bool)
    (currentHeaderKey : EmptyableHeaderKey B)
    (currentMessageNumber futureMessageNumber : UInt32) (chainKey : EmptyableChainKey B)
    (w : World B) :
    Except Error (Option (EmptyableChainKey B × MessageKey B)) ×
      HeaderAndMessageKeyStore B × World B :=
  if chainKey.isNone then (.ok none, stagingArea, w)
  else if tooManySkipped currentMessageNumber futureMessageNumber then
    (.error tooManySkippedError, stagingArea, w)
  else
    match stageKeys currentHeaderKey
        (futureMessageNumber.toNat - currentMessageNumber.toNat) chainKey stagingArea w with
    | (.error e, stagingArea, w) => (.error e, stagingArea, w)
    | (.ok currentChainKey, stagingArea, w) =>
        if output then
          match currentChainKey.deriveMessageKey with
          | .error e => (.error e, stagingArea, w)
          | .ok messageKey =>
              match currentChainKey.deriveChainKey with
              | .error e => (.error e, stagingArea, w)
              | .ok nextChainKey => (.ok (some (nextChainKey, messageKey)), stagingArea, w)
        else (.ok none, stagingArea, w)

end Staging

namespace Ratchet

def init : Ratchet B where
  rootKey := .clear
  purportedRootKey := .clear
  sendHeaderKey := none
  receiveHeaderKey := .clear
  nextSendHeaderKey := .clear
  nextReceiveHeaderKey := .clear
  purportedReceiveHeaderKey := .clear
  purportedNextReceiveHeaderKey := .clear
  sendChainKey := .clear
  receiveChainKey := .clear
  purportedReceiveChainKey := .clear
  ourPublicIdentity := Key.zero
  theirPublicIdentity := Key.zero
  ourPrivateEphemeral := Key.zero
  ourPublicEphemeral := Key.zero
  theirPublicEphemeral := Key.zero
  theirPurportedPublicEphemeral := none
  sendMessageNumber := 0
  receiveMessageNumber := 0
  purportedMessageNumber := 0
  previousMessageNumber := 0
  purportedPreviousMessageNumber := 0
  ratchetFlag := false
  role := .bob
  receivedValid := false
  headerDecryptable := .notTried
  skippedHeaderAndMessageKeys := .clear
  stagedHeaderAndMessageKeys := .clear

/-- The party with the bigger public identity key is Alice. -/
def chooseRole (ourPublicIdentity theirPublicIdentity : PublicKey B) : Except Error Role :=
  if sodiumCompare ourPublicIdentity.bytes theirPublicIdentity.bytes = 1 then .ok .alice
  else if sodiumCompare ourPublicIdentity.bytes theirPublicIdentity.bytes = -1 then .ok .bob
  else .error ⟨.shouldntHappen,
    "This mustn't happen, both conversation partners have the same public key!"⟩

/-- The ratchet that `create` fills from the derived keys. -/
def ofInitialKeys (role : Role) (derived : DerivedInitialRootChainAndHeaderKeys B)
    (ourPublicIdentity theirPublicIdentity : PublicKey B) (ourPrivateEphemeral : PrivateKey B)
    (ourPublicEphemeral theirPublicEphemeral : PublicKey B) : Ratchet B :=
  { init with
    role := role
    rootKey := .ofKey derived.rootKey
    sendChainKey := .ofOption derived.sendChainKey
    receiveChainKey := .ofOption derived.receiveChainKey
    sendHeaderKey := derived.sendHeaderKey.map .ofKey
    receiveHeaderKey := .ofOption derived.receiveHeaderKey
    nextSendHeaderKey := .ofKey derived.nextSendHeaderKey
    nextReceiveHeaderKey := .ofKey derived.nextReceiveHeaderKey
    ourPublicIdentity := ourPublicIdentity
    theirPublicIdentity := theirPublicIdentity
    ourPrivateEphemeral := ourPrivateEphemeral
    ourPublicEphemeral := ourPublicEphemeral
    theirPublicEphemeral := theirPublicEphemeral
    ratchetFlag := role.toBool
    receivedValid := true
    headerDecryptable := .notTried
    sendMessageNumber := 0
    receiveMessageNumber := 0
    previousMessageNumber := 0 }

def create (ourPrivateIdentity : PrivateKey B)
    (ourPublicIdentity theirPublicIdentity : PublicKey B) (ourPrivateEphemeral : PrivateKey B)
    (ourPublicEphemeral theirPublicEphemeral : PublicKey B) : Except Error (Ratchet B) := do
  let role ← chooseRole ourPublicIdentity theirPublicIdentity
  let derived ← deriveInitialRootChainAndHeaderKeys ourPrivateIdentity ourPublicIdentity
    theirPublicIdentity ourPrivateEphemeral ourPublicEphemeral theirPublicEphemeral role
  pure (ofInitialKeys role derived ourPublicIdentity theirPublicIdentity ourPrivateEphemeral
    ourPublicEphemeral theirPublicEphemeral)

/-- What `getSendData` does first if the ratchet flag is set: start a new sending chain. -/
def startSendChain (ratchet : Ratchet B) (w : World B) :
    Except Error Unit × Ratchet B × World B :=
  match cryptoBoxKeypair w with
  | ((publicEphemeral, privateEphemeral), w) =>
      let ratchet := { ratchet with
        ourPublicEphemeral := publicEphemeral
        ourPrivateEphemeral := privateEphemeral
        sendHeaderKey := some ratchet.nextSendHeaderKey }
      match deriveRootNextHeaderAndChainKeys ratchet.ourPrivateEphemeral
          ratchet.ourPublicEphemeral ratchet.theirPublicEphemeral ratchet.rootKey
          ratchet.role with
      | .error e => (.error e, ratchet, w)
      | .ok derived =>
          (.ok (), { ratchet with
            rootKey := .ofKey derived.rootKey
            nextSendHeaderKey := .ofKey derived.nextHeaderKey
            sendChainKey := .ofKey derived.chainKey
            previousMessageNumber := ratchet.sendMessageNumber
            sendMessageNumber := 0
            ratchetFlag := false }, w)

/-- The rest of `getSendData`: the data of the next position of the sending chain. -/
def nextSendData (ratchet : Ratchet B) : Except Error (SendData B) × Ratchet B :=
  match ratchet.sendChainKey.deriveMessageKey with
  | .error e => (.error e, ratchet)
  | .ok messageKey =>
      match ratchet.sendHeaderKey with
      | none => (.error ⟨.invalidState, "Send header key is missing."⟩, ratchet)
      | some headerKey =>
          let data : SendData B :=
            { messageNumber := ratchet.sendMessageNumber
              previousMessageNumber := ratchet.previousMessageNumber
              ephemeral := ratchet.ourPublicEphemeral
              messageKey := messageKey
              headerKey := headerKey }
          let ratchet := { ratchet with sendMessageNumber := ratchet.sendMessageNumber + 1 }
          match ratchet.sendChainKey.deriveChainKey with
          | .error e => (.error e, ratchet)
          | .ok sendChainKey => (.ok data, { ratchet with sendChainKey := sendChainKey })

def getSendData (ratchet : Ratchet B) (w : World B) :
    Except Error (SendData B) × Ratchet B × World B :=
  if ratchet.ratchetFlag then
    match ratchet.startSendChain w with
    | (.error e, ratchet, w) => (.error e, ratchet, w)
    | (.ok (), ratchet, w) =>
        match ratchet.nextSendData with
        | (result, ratchet) => (result, ratchet, w)
  else
    match ratchet.nextSendData with
    | (result, ratchet) => (result, ratchet, w)

def setHeaderDecryptability (ratchet : Ratchet B) (headerDecryptable : HeaderDecryptability) :
    Except Error Unit × Ratchet B :=
  if ratchet.headerDecryptable = .notTried ∧ headerDecryptable ≠ .notTried then
    (.ok (), { ratchet with headerDecryptable := headerDecryptable })
  else (.error (expectationFailed "lib/ratchet.cpp"), ratchet)

def commitSkippedHeaderAndMessageKeys (ratchet : Ratchet B) (w : World B) :
    Ratchet B × World B :=
  match ratchet.skippedHeaderAndMessageKeys.addStore ratchet.stagedHeaderAndMessageKeys w with
  | (skipped, w) =>
      match skipped.removeOutdatedAndTrimSize w with
      | (skipped, w) =>
          ({ ratchet with
            skippedHeaderAndMessageKeys := skipped
            stagedHeaderAndMessageKeys := .clear }, w)

variable [Platform]

/-- `receive` for a message of the current chain. -/
def receiveCurrentChain (ratchet : Ratchet B) (purportedMessageNumber : UInt32) (w : World B) :
    Except Error (MessageKey B) × Ratchet B × World B :=
  let ratchet := { ratchet with purportedMessageNumber := purportedMessageNumber }
  match stageSkippedHeaderAndMessageKeys ratchet.stagedHeaderAndMessageKeys true
      ratchet.receiveHeaderKey ratchet.receiveMessageNumber purportedMessageNumber
      ratchet.receiveChainKey w with
  | (.error e, staged, w) =>
      (.error e, { ratchet with stagedHeaderAndMessageKeys := staged }, w)
  | (.ok none, staged, w) =>
      -- the message key keeps the value of its default constructor
      (.ok Key.zero, { ratchet with
        stagedHeaderAndMessageKeys := staged
        receivedValid := false }, w)
  | (.ok (some (chainKey, messageKey)), staged, w) =>
      (.ok messageKey, { ratchet with
        stagedHeaderAndMessageKeys := staged
        purportedReceiveChainKey := chainKey
        receivedValid := false }, w)

/-- `receive` for a message that starts a new chain. -/
def receiveNextChain (ratchet : Ratchet B) (theirPurportedPublicEphemeral : PublicKey B)
    (purportedMessageNumber purportedPreviousMessageNumber : UInt32) (w : World B) :
    Except Error (MessageKey B) × Ratchet B × World B :=
  let ratchet := { ratchet with
    purportedMessageNumber := purportedMessageNumber
    purportedPreviousMessageNumber := purportedPreviousMessageNumber
    theirPurportedPublicEphemeral := some theirPurportedPublicEphemeral }
  match stageSkippedHeaderAndMessageKeys ratchet.stagedHeaderAndMessageKeys false
      ratchet.receiveHeaderKey ratchet.receiveMessageNumber purportedPreviousMessageNumber
      ratchet.receiveChainKey w with
  | (.error e, staged, w) =>
      (.error e, { ratchet with stagedHeaderAndMessageKeys := staged }, w)
  | (.ok _, staged, w) =>
      let ratchet := { ratchet with
        stagedHeaderAndMessageKeys := staged
        purportedReceiveHeaderKey := ratchet.nextReceiveHeaderKey }
      match deriveRootNextHeaderAndChainKeys ratchet.ourPrivateEphemeral
          ratchet.ourPublicEphemeral theirPurportedPublicEphemeral ratchet.rootKey
          ratchet.role with
      | .error e => (.error e, ratchet, w)
      | .ok derived =>
          let ratchet := { ratchet with
            purportedRootKey := .ofKey derived.rootKey
            purportedNextReceiveHeaderKey := .ofKey derived.nextHeaderKey
            purportedReceiveChainKey := .ofKey derived.chainKey }
          match stageSkippedHeaderAndMessageKeys ratchet.stagedHeaderAndMessageKeys true
              ratchet.purportedReceiveHeaderKey 0 purportedMessageNumber
              ratchet.purportedReceiveChainKey w with
          | (.error e, staged, w) =>
              (.error e, { ratchet with stagedHeaderAndMessageKeys := staged }, w)
          | (.ok none, staged, w) =>
              (.ok Key.zero, { ratchet with
                stagedHeaderAndMessageKeys := staged
                receivedValid := false }, w)
          | (.ok (some (chainKey, messageKey)), staged, w) =>
              (.ok messageKey, { ratchet with
                stagedHeaderAndMessageKeys := staged
                purportedReceiveChainKey := chainKey
                receivedValid := false }, w)

/-- Whether `receive` and `setLastMessageAuthenticity` take the message for one of the
current chain. -/
def onCurrentChain (ratchet : Ratchet B) : Bool :=
  !ratchet.receiveHeaderKey.isNone && decide (ratchet.headerDecryptable = .currentDecryptable)

def receive (ratchet : Ratchet B) (theirPurportedPublicEphemeral : PublicKey B)
    (purportedMessageNumber purportedPreviousMessageNumber : UInt32) (w : World B) :
    Except Error (MessageKey B) × Ratchet B × World B :=
  if !ratchet.receivedValid then
    (.error ⟨.invalidState, "Previously received message hasn't been verified yet."⟩,
      ratchet, w)
  else if ratchet.headerDecryptable = .notTried then
    (.error ⟨.invalidState, "Header decryption hasn't been tried yet."⟩, ratchet, w)
  else if ratchet.onCurrentChain then
    ratchet.receiveCurrentChain purportedMessageNumber w
  else if ratchet.ratchetFlag ∨ ratchet.headerDecryptable ≠ .nextDecryptable then
    (.error ⟨.decryptError, "Undecryptable."⟩, ratchet, w)
  else
    ratchet.receiveNextChain theirPurportedPublicEphemeral purportedMessageNumber
      purportedPreviousMessageNumber w

/-- The last steps of `setLastMessageAuthenticity`. -/
def acceptMessage (ratchet : Ratchet B) (w : World B) : Ratchet B × World B :=
  match ratchet.commitSkippedHeaderAndMessageKeys w with
  | (ratchet, w) =>
      ({ ratchet with
        receiveMessageNumber := ratchet.purportedMessageNumber + 1
        receiveChainKey := ratchet.purportedReceiveChainKey }, w)

def setLastMessageAuthenticity (ratchet : Ratchet B) (valid : Bool) (w : World B) :
    Except Error Unit × Ratchet B × World B :=
  let onCurrentChain := ratchet.onCurrentChain
  let headerDecryptable := ratchet.headerDecryptable
  let ratchet := { ratchet with receivedValid := true, headerDecryptable := .notTried }
  if !valid then (.ok (), { ratchet with stagedHeaderAndMessageKeys := .clear }, w)
  else if onCurrentChain then
    match ratchet.acceptMessage w with
    | (ratchet, w) => (.ok (), ratchet, w)
  else if ratchet.ratchetFlag ∨ headerDecryptable ≠ .nextDecryptable then
    (.ok (), { ratchet with stagedHeaderAndMessageKeys := .clear }, w)
  else
    let ratchet := { ratchet with
      rootKey := ratchet.purportedRootKey
      receiveHeaderKey := ratchet.purportedReceiveHeaderKey
      nextReceiveHeaderKey := ratchet.purportedNextReceiveHeaderKey }
    match ratchet.theirPurportedPublicEphemeral with
    | none =>
        (.error ⟨.invalidValue, "Their purported public ephemeral key is missing."⟩, ratchet, w)
    | some theirPublicEphemeral =>
        match { ratchet with
            theirPublicEphemeral := theirPublicEphemeral
            ourPrivateEphemeral := Key.zero
            ratchetFlag := true }.acceptMessage w with
        | (ratchet, w) => (.ok (), ratchet, w)

end Ratchet

end Molch
