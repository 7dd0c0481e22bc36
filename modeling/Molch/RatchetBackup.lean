import Molch.Conversation

namespace Molch

namespace HeaderDecryptability

def toProtobuf : HeaderDecryptability → UInt32
  | currentDecryptable => 0
  | nextDecryptable => 1
  | undecryptable => 2
  | notTried => 3

def ofProtobuf (number : UInt32) : Except Error HeaderDecryptability :=
  if number = 0 then .ok currentDecryptable
  else if number = 1 then .ok nextDecryptable
  else if number = 2 then .ok undecryptable
  else if number = 3 then .ok notTried
  else .error ⟨.invalidValue, "header_decryptable has an invalid value."⟩

@[simp] theorem ofProtobuf_toProtobuf (headerDecryptable : HeaderDecryptability) :
    ofProtobuf headerDecryptable.toProtobuf = .ok headerDecryptable := by
  cases headerDecryptable <;> rfl

end HeaderDecryptability

/-- Fail with the given error unless the condition holds. -/
def require {ε : Type} (condition : Bool) (e : ε) : Except ε Unit :=
  if condition then .ok () else .error e

@[simp] theorem require_true {ε : Type} (e : ε) : require true e = .ok () := rfl

theorem require_eq_ok {ε : Type} {condition : Bool} {e : ε} {u : Unit} :
    require condition e = .ok u ↔ condition = true := by
  cases condition with
  | true => simp
  | false => simp [require]

def requireField {α : Type} (field : Option α) (message : String) : Except Error α :=
  match field with
  | some value => .ok value
  | none => .error ⟨.protobufMissingError, message⟩

@[simp] theorem requireField_some {α : Type} (value : α) (message : String) :
    requireField (some value) message = .ok value := rfl

variable {B : Type}

def hasKey (field : Option (List B)) : Bool :=
  match field with
  | some bytes => decide (bytes.length = 32)
  | none => false

def requireKey (field : Option (List B)) (message : String) : Except Error (Key B 32) := do
  require (hasKey field) ⟨.protobufMissingError, message⟩
  Key.fromSpan (field.getD [])

@[simp] theorem hasKey_some (key : Key B 32) : hasKey (some key.bytes) = true := by
  simp [hasKey, key.length_bytes]

@[simp] theorem requireKey_some (key : Key B 32) (message : String) :
    requireKey (some key.bytes) message = .ok key := by
  simp [requireKey]

namespace EmptyableKey

/-- A key that is only exported if it is not empty. -/
def exportOptional (key : EmptyableKey B 32) : Option (List B) :=
  if key.empty then none else some key.key.bytes

variable [Byte B]

/-- A key that stays empty unless it has been exported. -/
def importOptional (field : Option (List B)) : Except Error (EmptyableKey B 32) :=
  if hasKey field then fromSpan (field.getD []) else .ok clear

end EmptyableKey

variable [Byte B]

namespace Ratchet

/-- The struct that `exportProtobuf` fills. The id of the conversation is left empty. -/
def exported (ratchet : Ratchet B) (skipped staged : List (ProtobufCKeyBundle B)) :
    ProtobufCConversation B where
  id := []
  rootKey := some ratchet.rootKey.key.bytes
  purportedRootKey := ratchet.purportedRootKey.exportOptional
  sendHeaderKey := ratchet.sendHeaderKey.map (·.key.bytes)
  receiveHeaderKey := some ratchet.receiveHeaderKey.key.bytes
  nextSendHeaderKey := some ratchet.nextSendHeaderKey.key.bytes
  nextReceiveHeaderKey := some ratchet.nextReceiveHeaderKey.key.bytes
  purportedReceiveHeaderKey := ratchet.purportedReceiveHeaderKey.exportOptional
  purportedNextReceiveHeaderKey := ratchet.purportedNextReceiveHeaderKey.exportOptional
  sendChainKey := some ratchet.sendChainKey.key.bytes
  receiveChainKey := some ratchet.receiveChainKey.key.bytes
  purportedReceiveChainKey := ratchet.purportedReceiveChainKey.exportOptional
  ourPublicIdentityKey := some ratchet.ourPublicIdentity.bytes
  theirPublicIdentityKey := some ratchet.theirPublicIdentity.bytes
  ourPrivateEphemeralKey := some ratchet.ourPrivateEphemeral.bytes
  ourPublicEphemeralKey := some ratchet.ourPublicEphemeral.bytes
  theirPublicEphemeralKey := some ratchet.theirPublicEphemeral.bytes
  theirPurportedPublicEphemeral := ratchet.theirPurportedPublicEphemeral.map (·.bytes)
  sendMessageNumber := some ratchet.sendMessageNumber
  receiveMessageNumber := some ratchet.receiveMessageNumber
  purportedMessageNumber := some ratchet.purportedMessageNumber
  previousMessageNumber := some ratchet.previousMessageNumber
  purportedPreviousMessageNumber := some ratchet.purportedPreviousMessageNumber
  ratchetFlag := some ratchet.ratchetFlag
  amIAlice := some ratchet.role.toBool
  receivedValid := some ratchet.receivedValid
  headerDecryptable := some ratchet.headerDecryptable.toProtobuf
  skippedHeaderAndMessageKeys := skipped
  stagedHeaderAndMessageKeys := staged

def exportProtobuf (ratchet : Ratchet B) : Except Failure (ProtobufCConversation B) := do
  require (!ratchet.rootKey.empty) (Failure.error ⟨.exportError, "Missing "⟩)
  require (ratchet.sendHeaderKey.isSome || decide (ratchet.role ≠ .bob))
    (Failure.error ⟨.exportError, "send_header_key missing or has an incorrect size."⟩)
  require (!(decide (ratchet.role = .alice) && ratchet.receiveHeaderKey.empty))
    (Failure.error ⟨.exportError, "receive_header_key missing or has an incorrect size."⟩)
  require (!ratchet.nextSendHeaderKey.empty) (Failure.error ⟨.exportError, "Missing "⟩)
  require (!ratchet.nextReceiveHeaderKey.empty) (Failure.error ⟨.exportError, "Missing "⟩)
  require (!(decide (ratchet.role = .bob) && ratchet.sendChainKey.empty))
    (Failure.error ⟨.exportError, "send_chain_key missing or has an invalid size."⟩)
  require (!(decide (ratchet.role = .alice) && ratchet.receiveChainKey.empty))
    (Failure.error ⟨.exportError, "receive_chain_key missing or has an incorrect size."⟩)
  let skipped ← ratchet.skippedHeaderAndMessageKeys.exportProtobuf
  let staged ← ratchet.stagedHeaderAndMessageKeys.exportProtobuf
  pure (ratchet.exported skipped staged)

/-- The optional send header key: Bob always has one. -/
def importSendHeaderKey (role : Role) (field : Option (List B)) :
    Except Error (Option (EmptyableHeaderKey B)) :=
  if hasKey field then (EmptyableKey.fromSpan (field.getD [])).map some
  else if role = .bob then
    .error ⟨.protobufMissingError, "send_header_key is missing from the protobuf."⟩
  else .ok none

def importPurportedEphemeral (field : Option (List B)) : Except Error (Option (PublicKey B)) :=
  if hasKey field then (Key.fromSpan (field.getD [])).map some else .ok none

/-- `Ratchet::import`. A receive key of Bob and a send chain key of Alice are not checked
for their presence, but they have to have the size of a key. -/
def import_ (conversation : ProtobufCConversation B) : Except Error (Ratchet B) := do
  let sendMessageNumber ← requireField conversation.sendMessageNumber
    "No send message number in Protobuf-C struct."
  let receiveMessageNumber ← requireField conversation.receiveMessageNumber
    "No receive message number in Protobuf-C struct."
  let purportedMessageNumber ← requireField conversation.purportedMessageNumber
    "No purported message number in Protobuf-C struct."
  let previousMessageNumber ← requireField conversation.previousMessageNumber
    "No previous message number in Protobuf-C struct."
  let purportedPreviousMessageNumber ← requireField conversation.purportedPreviousMessageNumber
    "No purported previous message number in Protobuf-C struct."
  let ratchetFlag ← requireField conversation.ratchetFlag
    "No ratchet flag in Protobuf-C struct."
  let amIAlice ← requireField conversation.amIAlice "No am I Alice flag in Protobuf-C struct."
  let role := Role.ofBool amIAlice
  let receivedValid ← requireField conversation.receivedValid
    "No received valid flag in Protobuf-C struct."
  let headerDecryptable ← requireField conversation.headerDecryptable
    "No header decryptable enum in Protobuf-C struct."
  let headerDecryptable ← HeaderDecryptability.ofProtobuf headerDecryptable
  let rootKey ← requireKey conversation.rootKey "root_key is missing from protobuf."
  let purportedRootKey ← EmptyableKey.importOptional conversation.purportedRootKey
  let sendHeaderKey ← importSendHeaderKey role conversation.sendHeaderKey
  require (!(decide (role = .alice) && !hasKey conversation.receiveHeaderKey))
    ⟨.protobufMissingError, "receive_header_key is missing from protobuf."⟩
  let receiveHeaderKey ← EmptyableKey.fromSpan (conversation.receiveHeaderKey.getD [])
  let nextSendHeaderKey ← requireKey conversation.nextSendHeaderKey
    "next_send_header_key is missing from protobuf."
  let nextReceiveHeaderKey ← requireKey conversation.nextReceiveHeaderKey
    "next_receive_header_key is missing from protobuf."
  let purportedReceiveHeaderKey ←
    EmptyableKey.importOptional conversation.purportedReceiveHeaderKey
  let purportedNextReceiveHeaderKey ←
    EmptyableKey.importOptional conversation.purportedNextReceiveHeaderKey
  require (!(decide (role = .bob) && !hasKey conversation.sendChainKey))
    ⟨.protobufMissingError, "send_chain_key is missing from the potobuf."⟩
  let sendChainKey ← EmptyableKey.fromSpan (conversation.sendChainKey.getD [])
  require (!(decide (role = .alice) && !hasKey conversation.receiveChainKey))
    ⟨.protobufMissingError, "receive_chain_key is missing from the protobuf."⟩
  let receiveChainKey ← EmptyableKey.fromSpan (conversation.receiveChainKey.getD [])
  let purportedReceiveChainKey ←
    EmptyableKey.importOptional conversation.purportedReceiveChainKey
  let ourPublicIdentity ← requireKey conversation.ourPublicIdentityKey
    "our_public_identity_key is missing from the protobuf."
  let theirPublicIdentity ← requireKey conversation.theirPublicIdentityKey
    "their_public_identity is missing from the protobuf."
  let ourPrivateEphemeral ← requireKey conversation.ourPrivateEphemeralKey
    "our_private_ephemral is missing from the protobuf."
  let ourPublicEphemeral ← requireKey conversation.ourPublicEphemeralKey
    "our_public_ephemeral is missing from the protobuf."
  let theirPublicEphemeral ← requireKey conversation.theirPublicEphemeralKey
    "their_public_ephemeral is missing from the protobuf."
  let theirPurportedPublicEphemeral ←
    importPurportedEphemeral conversation.theirPurportedPublicEphemeral
  let skipped ← HeaderAndMessageKeyStore.import_ conversation.skippedHeaderAndMessageKeys
  let staged ← HeaderAndMessageKeyStore.import_ conversation.stagedHeaderAndMessageKeys
  pure
    { rootKey := .ofKey rootKey
      purportedRootKey := purportedRootKey
      sendHeaderKey := sendHeaderKey
      receiveHeaderKey := receiveHeaderKey
      nextSendHeaderKey := .ofKey nextSendHeaderKey
      nextReceiveHeaderKey := .ofKey nextReceiveHeaderKey
      purportedReceiveHeaderKey := purportedReceiveHeaderKey
      purportedNextReceiveHeaderKey := purportedNextReceiveHeaderKey
      sendChainKey := sendChainKey
      receiveChainKey := receiveChainKey
      purportedReceiveChainKey := purportedReceiveChainKey
      ourPublicIdentity := ourPublicIdentity
      theirPublicIdentity := theirPublicIdentity
      ourPrivateEphemeral := ourPrivateEphemeral
      ourPublicEphemeral := ourPublicEphemeral
      theirPublicEphemeral := theirPublicEphemeral
      theirPurportedPublicEphemeral := theirPurportedPublicEphemeral
      sendMessageNumber := sendMessageNumber
      receiveMessageNumber := receiveMessageNumber
      purportedMessageNumber := purportedMessageNumber
      previousMessageNumber := previousMessageNumber
      purportedPreviousMessageNumber := purportedPreviousMessageNumber
      ratchetFlag := ratchetFlag
      role := role
      receivedValid := receivedValid
      headerDecryptable := headerDecryptable
      skippedHeaderAndMessageKeys := skipped
      stagedHeaderAndMessageKeys := staged }

end Ratchet

namespace Conversation

def exportProtobuf (conversation : Conversation B) :
    Except Failure (ProtobufCConversation B) := do
  let exported ← conversation.ratchet.exportProtobuf
  pure { exported with id := conversation.id.bytes }

def import_ (conversation : ProtobufCConversation B) : Except Error (Conversation B) := do
  let id ← Key.fromSpan conversation.id
  let ratchet ← Ratchet.import_ conversation
  pure ⟨id, ratchet⟩

end Conversation

section RoundTrip

/-- The date of a key after an export and an import. -/
def restoredDate (date : ℤ) : ℤ := secondsOfUInt64 (UInt64.ofNat date.toNat)

theorem restoredDate_eq {date : ℤ} (hpositive : 0 ≤ date) (hrange : date < 2 ^ 63) :
    restoredDate date = date := by
  have hnat : (UInt64.ofNat date.toNat).toNat = date.toNat := by
    rw [UInt64.toNat_ofNat']
    exact Nat.mod_eq_of_lt (by omega)
  unfold restoredDate secondsOfUInt64
  rw [hnat, if_pos (by omega), Int.toNat_of_nonneg hpositive]

/-- What becomes of an emptyable key: its bytes come back, the mark that it is empty does
not. -/
def EmptyableKey.restored {n : ℕ} (key : EmptyableKey B n) : EmptyableKey B n := .ofKey key.key

omit [Byte B] in
theorem EmptyableKey.restored_eq {n : ℕ} {key : EmptyableKey B n} (h : key.empty = false) :
    key.restored = key :=
  (EmptyableKey.eq_ofKey h).symm

/-- An empty key has been zeroed. -/
def EmptyableKey.Canonical {n : ℕ} (key : EmptyableKey B n) : Prop :=
  key.empty = true → key = .clear

theorem EmptyableKey.importOptional_exportOptional {key : EmptyableKey B 32}
    (h : key.Canonical) : importOptional key.exportOptional = .ok key := by
  cases hempty : key.empty with
  | true =>
      rw [h hempty]
      rfl
  | false =>
      rw [EmptyableKey.eq_ofKey hempty]
      simp [exportOptional, importOptional]

def HeaderAndMessageKey.restored (key : HeaderAndMessageKey B) : HeaderAndMessageKey B :=
  ⟨key.headerKey.restored, key.messageKey, restoredDate key.expirationDate⟩

omit [Byte B] in
theorem HeaderAndMessageKey.import_exportProtobuf {key : HeaderAndMessageKey B}
    {bundle : ProtobufCKeyBundle B} (h : key.exportProtobuf = .ok bundle) :
    HeaderAndMessageKey.import_ bundle = .ok key.restored := by
  obtain ⟨time, htime, hbundle⟩ := Result.bind_eq_ok.mp h
  cases hbundle
  unfold narrowUInt64 at htime
  split at htime
  · cases htime
    simp [HeaderAndMessageKey.import_, key.headerKey.key.length_bytes,
      key.messageKey.length_bytes, HeaderAndMessageKey.restored, EmptyableKey.restored,
      restoredDate]
  · cases htime

def HeaderAndMessageKeyStore.restored (store : HeaderAndMessageKeyStore B) :
    HeaderAndMessageKeyStore B :=
  ⟨store.keys.map HeaderAndMessageKey.restored⟩

omit [Byte B] in
theorem HeaderAndMessageKeyStore.import_exportProtobuf {store : HeaderAndMessageKeyStore B}
    {bundles : List (ProtobufCKeyBundle B)} (h : store.exportProtobuf = .ok bundles) :
    HeaderAndMessageKeyStore.import_ bundles = .ok store.restored := by
  have hmap := Result.mapM_of_mapM (fun _ _ _ => HeaderAndMessageKey.import_exportProtobuf) h
  unfold HeaderAndMessageKeyStore.import_
  rw [hmap]
  rfl

/-- The dates fit into a signed 64 bit number and are not negative. -/
def HeaderAndMessageKeyStore.DatesSane (store : HeaderAndMessageKeyStore B) : Prop :=
  ∀ key ∈ store.keys, 0 ≤ key.expirationDate ∧ key.expirationDate < 2 ^ 63

omit [Byte B] in
/-- The only obstacle to an export are the dates, and it is not reported as an error. -/
theorem HeaderAndMessageKeyStore.exportProtobuf_ne_error (store : HeaderAndMessageKeyStore B)
    (e : Error) : store.exportProtobuf ≠ .error (.error e) := by
  intro h
  obtain ⟨key, -, hkey⟩ := Result.mem_of_mapM_eq_error h
  unfold HeaderAndMessageKey.exportProtobuf narrowUInt64 at hkey
  split at hkey
  · cases hkey
  · cases hkey

omit [Byte B] in
theorem HeaderAndMessageKeyStore.DatesSane.exportProtobuf {store : HeaderAndMessageKeyStore B}
    (h : store.DatesSane) : ∃ bundles, store.exportProtobuf = .ok bundles := by
  apply Result.exists_mapM_eq_ok
  intro key hkey
  unfold HeaderAndMessageKey.exportProtobuf narrowUInt64
  rw [if_pos (h key hkey).1]
  exact ⟨_, rfl⟩

namespace Ratchet

def restored (ratchet : Ratchet B) : Ratchet B :=
  { ratchet with
    sendHeaderKey := ratchet.sendHeaderKey.map EmptyableKey.restored
    receiveHeaderKey := ratchet.receiveHeaderKey.restored
    sendChainKey := ratchet.sendChainKey.restored
    receiveChainKey := ratchet.receiveChainKey.restored
    skippedHeaderAndMessageKeys := ratchet.skippedHeaderAndMessageKeys.restored
    stagedHeaderAndMessageKeys := ratchet.stagedHeaderAndMessageKeys.restored }

def purportedKeys (ratchet : Ratchet B) : List (EmptyableKey B 32) :=
  [ratchet.purportedRootKey, ratchet.purportedReceiveHeaderKey,
    ratchet.purportedNextReceiveHeaderKey, ratchet.purportedReceiveChainKey]

omit [Byte B] in
theorem importSendHeaderKey_map {role : Role} {key : Option (EmptyableHeaderKey B)}
    (h : (key.isSome || decide (role ≠ .bob)) = true) :
    importSendHeaderKey role (key.map (·.key.bytes)) =
      .ok (key.map EmptyableKey.restored) := by
  cases key with
  | none =>
      have hrole : role ≠ .bob := by simpa using h
      simp [importSendHeaderKey, hasKey, hrole]
  | some key => simp [importSendHeaderKey, EmptyableKey.restored]

omit [Byte B] in
theorem importPurportedEphemeral_map (key : Option (PublicKey B)) :
    importPurportedEphemeral (key.map (·.bytes)) = .ok key := by
  cases key with
  | none => rfl
  | some key => simp [importPurportedEphemeral]

theorem import_exportProtobuf {ratchet : Ratchet B} {exported : ProtobufCConversation B}
    (h : ratchet.exportProtobuf = .ok exported)
    (hcanonical : ∀ key ∈ ratchet.purportedKeys, key.Canonical) (id : List B) :
    import_ { exported with id := id } = .ok ratchet.restored := by
  simp only [exportProtobuf, Result.bind_eq_ok, require_eq_ok] at h
  obtain ⟨-, hroot, -, hsend, -, -, -, hnextSend, -, hnextReceive, -, -, -, -, skipped, hskipped,
    staged, hstaged, hexported⟩ := h
  cases hexported
  simp only [purportedKeys, List.forall_mem_cons, List.not_mem_nil, false_implies,
    implies_true, and_true] at hcanonical
  obtain ⟨hpurportedRoot, hpurportedHeader, hpurportedNext, hpurportedChain⟩ := hcanonical
  have hpresent : ∀ (role role' : Role) (key : Key B 32),
      (!(decide (role = role') && !hasKey (some key.bytes))) = true := by
    simp
  have hroot := EmptyableKey.restored_eq (show ratchet.rootKey.empty = false by
    simpa using hroot)
  have hnextSend := EmptyableKey.restored_eq (show ratchet.nextSendHeaderKey.empty = false by
    simpa using hnextSend)
  have hnextReceive := EmptyableKey.restored_eq
    (show ratchet.nextReceiveHeaderKey.empty = false by simpa using hnextReceive)
  unfold EmptyableKey.restored at hroot hnextSend hnextReceive
  unfold import_ Ratchet.exported
  simp only [requireField_some, Result.ok_bind, Role.ofBool_toBool,
    HeaderDecryptability.ofProtobuf_toProtobuf, requireKey_some, hpresent, require_true,
    EmptyableKey.importOptional_exportOptional hpurportedRoot, importSendHeaderKey_map hsend,
    EmptyableKey.importOptional_exportOptional hpurportedHeader,
    EmptyableKey.importOptional_exportOptional hpurportedNext,
    EmptyableKey.importOptional_exportOptional hpurportedChain, Option.getD_some,
    EmptyableKey.fromSpan_bytes, importPurportedEphemeral_map,
    HeaderAndMessageKeyStore.import_exportProtobuf hskipped,
    HeaderAndMessageKeyStore.import_exportProtobuf hstaged, Result.pure_eq_ok, hroot, hnextSend,
    hnextReceive]
  rfl

structure Exportable (ratchet : Ratchet B) : Prop where
  rootKey : ratchet.rootKey.empty = false
  nextSendHeaderKey : ratchet.nextSendHeaderKey.empty = false
  nextReceiveHeaderKey : ratchet.nextReceiveHeaderKey.empty = false
  bob : ratchet.role = .bob →
    ratchet.sendHeaderKey.isSome = true ∧ ratchet.sendChainKey.empty = false
  alice : ratchet.role = .alice →
    ratchet.receiveHeaderKey.empty = false ∧ ratchet.receiveChainKey.empty = false

omit [Byte B] in
theorem Exportable.exportProtobuf_eq {ratchet : Ratchet B} (h : ratchet.Exportable) :
    ratchet.exportProtobuf = (do
      let skipped ← ratchet.skippedHeaderAndMessageKeys.exportProtobuf
      let staged ← ratchet.stagedHeaderAndMessageKeys.exportProtobuf
      pure (ratchet.exported skipped staged)) := by
  unfold exportProtobuf
  rw [h.rootKey, h.nextSendHeaderKey, h.nextReceiveHeaderKey]
  cases hrole : ratchet.role with
  | alice =>
      obtain ⟨hheader, hchain⟩ := h.alice hrole
      simp [hheader, hchain]
  | bob =>
      obtain ⟨hheader, hchain⟩ := h.bob hrole
      simp [hheader, hchain]

end Ratchet

namespace Conversation

def restored (conversation : Conversation B) : Conversation B :=
  ⟨conversation.id, conversation.ratchet.restored⟩

theorem import_exportProtobuf {conversation : Conversation B}
    {exported : ProtobufCConversation B} (h : conversation.exportProtobuf = .ok exported)
    (hcanonical : ∀ key ∈ conversation.ratchet.purportedKeys, key.Canonical) :
    import_ exported = .ok conversation.restored := by
  obtain ⟨exported', hexported, hid⟩ := Result.bind_eq_ok.mp h
  cases hid
  unfold import_
  rw [Key.fromSpan_bytes, Ratchet.import_exportProtobuf hexported hcanonical]
  rfl

end Conversation

end RoundTrip

end Molch
