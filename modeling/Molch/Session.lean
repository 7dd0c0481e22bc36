import Molch.SkippedKeys

namespace Molch

variable {B : Type}

/-- A packet together with what its sender put into it. -/
structure Sent (B : Type) where
  packet : List B
  message : List B
  messageNumber : UInt32
  previousMessageNumber : UInt32

/-- Both conversations, named by the role their ratchet has, the packets each of them has
sent and the packets of the peer that have arrived, by their index. -/
structure Session (B : Type) where
  party : Role → Conversation B
  sent : Role → List (Sent B)
  delivered : Role → List ℕ

inductive Action (B : Type) where
  | send (role : Role) (message : List B) (prekeyMetadata : Option (PrekeyMetadata B))
      (w : World B)
  /-- The packet with the given index in the log of its peer arrives at `role`. -/
  | deliver (role : Role) (k : ℕ) (w : World B)
  | inject (role : Role) (packet : List B) (w : World B)

variable [Byte B] [Sodium B]

/-- How many keys of its receiving chain a ratchet has to skip before a new chain. -/
def Ratchet.restCount (ratchet : Ratchet B) (previousNumber : UInt32) : ℕ :=
  if ratchet.receiveChainKey.isNone then 0 else ratchet.skippedCount previousNumber

/-- No stored key grows so old that it is trimmed, and neither does one that is made during
the call. -/
structure Ratchet.KeepsKeys (ratchet : Ratchet B) (w : World B) : Prop where
  stored : ∀ key ∈ ratchet.skippedHeaderAndMessageKeys.keys, ∀ i,
    key.outdated (w.clock i) = false
  steady : w.Steady

variable [ProtobufC B]

/-- What two parties rely on to understand each other: secret boxes open under the key they
were sealed with and under no other one, hashes have no collisions and are not zero,
Diffie-Hellman works for generated keys and structs survive packing. -/
structure Idealised (B : Type) [Byte B] [Sodium B] [ProtobufC B] : Prop where
  secretbox : SecretboxRoundTrip B
  keyBound : SecretboxKeyBound B
  generichash : GenerichashInjective B
  kdf : KdfInjective B
  kdfNonzero : KdfNonzero B
  commutes : ScalarmultCommutes B
  total : ScalarmultTotal B
  protobuf : ProtobufRoundTrip B

/-- The packet opens under no pair of keys that the receiver has stored or would derive for
it. -/
structure Conversation.Foreign (conversation : Conversation B) (packet : List B) : Prop where
  skipped : ∀ key ∈ conversation.ratchet.skippedHeaderAndMessageKeys.keys,
    ∃ e, packetDecrypt packet key.headerKey key.messageKey = .error e
  currentChain : ∀ header,
    packetDecryptHeader packet conversation.ratchet.receiveHeaderKey = .ok header → ∀ n,
      ∃ e, packetDecryptMessage packet
        (conversation.ratchet.receiveChainKey.key.advance n).messageKey = .error e
  nextChain : ∀ header extracted derived,
    packetDecryptHeader packet conversation.ratchet.nextReceiveHeaderKey = .ok header →
    headerExtract header = .ok extracted →
    deriveRootNextHeaderAndChainKeys conversation.ratchet.ourPrivateEphemeral
      conversation.ratchet.ourPublicEphemeral extracted.theirPublicEphemeral
      conversation.ratchet.rootKey conversation.ratchet.role = .ok derived → ∀ n,
        ∃ e, packetDecryptMessage packet (derived.chainKey.advance n).messageKey = .error e

variable [Platform]

/-- The numbers of a packet satisfy the bound on skipped messages of the chain under whose
header key it opens, and there is room for the keys of the messages it skips. -/
structure Ratchet.InReach (ratchet : Ratchet B) (sent : Sent B) : Prop where
  currentChain : ∀ header,
    packetDecryptHeader sent.packet ratchet.receiveHeaderKey = .ok header →
      tooManySkipped ratchet.receiveMessageNumber sent.messageNumber = false ∧
      ratchet.skippedHeaderAndMessageKeys.keys.length +
        ratchet.skippedCount sent.messageNumber ≤ maximumKeys
  nextChain : ∀ header,
    packetDecryptHeader sent.packet ratchet.nextReceiveHeaderKey = .ok header →
      ratchet.restInReach sent.previousMessageNumber ∧
      tooManySkipped 0 sent.messageNumber = false ∧
      ratchet.skippedHeaderAndMessageKeys.keys.length +
        ratchet.restCount sent.previousMessageNumber + sent.messageNumber.toNat ≤ maximumKeys

namespace Session

/-- The parties have just created their ratchets, each from its own private keys and the public
keys of the other one. -/
structure Started (session : Session B) : Prop where
  created : ∃ identity ephemeral : Role → PrivateKey B, ∀ role,
    Ratchet.create (identity role) (Sodium.cryptoScalarmultBase (identity role))
      (Sodium.cryptoScalarmultBase (identity role.other)) (ephemeral role)
      (Sodium.cryptoScalarmultBase (ephemeral role))
      (Sodium.cryptoScalarmultBase (ephemeral role.other)) =
        .ok (session.party role).ratchet
  role : ∀ role, (session.party role).ratchet.role = role
  sent : ∀ role, session.sent role = []
  delivered : ∀ role, session.delivered role = []

def step (session : Session B) : Action B → Session B
  | .send role message prekeyMetadata w =>
      match (session.party role).ratchet.getSendData w,
          (session.party role).send message prekeyMetadata w with
      | (.ok data, _), (.ok packet, conversation, _) =>
          { session with
            party := Function.update session.party role conversation
            sent := Function.update session.sent role (session.sent role ++
              [⟨packet, message, data.messageNumber, data.previousMessageNumber⟩]) }
      | _, (_, conversation, _) =>
          { session with party := Function.update session.party role conversation }
  | .deliver role k w =>
      match (session.sent role.other)[k]? with
      | none => session
      | some sent =>
          { session with
            party := Function.update session.party role
              ((session.party role).receive sent.packet w).2.1
            delivered := Function.update session.delivered role
              (k :: session.delivered role) }
  | .inject role packet w =>
      { session with
        party := Function.update session.party role
          ((session.party role).receive packet w).2.1 }

/-- No chain gets so long that its message numbers wrap around, packets of the peer stay in
reach, and injected packets are foreign. -/
def Admissible (session : Session B) : Action B → Prop
  | .send role _ _ _ => (session.party role).ratchet.ratchetFlag = false →
      (session.party role).ratchet.sendMessageNumber.toNat + 1 < 2 ^ 32
  | .deliver role k w => ∀ sent, (session.sent role.other)[k]? = some sent →
      (session.party role).ratchet.InReach sent ∧ (session.party role).ratchet.KeepsKeys w
  | .inject role packet _ => (session.party role).Foreign packet

/-- The sessions that an interleaving of admissible actions can lead to. -/
inductive Reached : Session B → Prop
  | start {session : Session B} (h : session.Started) : Reached session
  | step {session : Session B} {action : Action B} (h : Reached session)
      (hadmissible : session.Admissible action) : Reached (session.step action)

end Session

end Molch
