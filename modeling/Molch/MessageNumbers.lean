import Molch.Foundation.Runs
import Molch.UsedKeys
import Mathlib.Data.List.ReduceOption

namespace Molch

open Sodium Conversation

section Numbers

variable {B : Type} [Byte B] [Sodium B] [ProtobufC B] [Platform]

/-- A message that was accepted through the current or the next chain: the chain and its first
key, the number in the header and the key that opened the message. -/
structure Accepted (B : Type) where
  chain : ℕ
  firstKey : ChainKey B
  messageNumber : UInt32
  messageKey : MessageKey B

/-- A conversation with the number and the first key of its receiving chain. -/
structure Receiver (B : Type) where
  conversation : Conversation B
  chain : ℕ
  firstKey : ChainKey B

namespace Conversation

def startedChain (conversation : Conversation B) (packet : List B) : Option (ChainKey B) :=
  match packetDecryptHeader packet conversation.ratchet.receiveHeaderKey,
      packetDecryptHeader packet conversation.ratchet.nextReceiveHeaderKey with
  | .error _, .ok header =>
      match headerExtract header with
      | .error _ => none
      | .ok extracted =>
          (deriveRootNextHeaderAndChainKeys conversation.ratchet.ourPrivateEphemeral
            conversation.ratchet.ourPublicEphemeral extracted.theirPublicEphemeral
            conversation.ratchet.rootKey conversation.ratchet.role).toOption.map (·.chainKey)
  | _, _ => none

/-- The packet passes all checks for a message of the current chain. -/
structure OpensCurrent (conversation : Conversation B) (packet : List B)
    (extracted : ExtractedHeader B) : Prop where
  notSkipped : ∃ e, (conversation.trySkippedHeaderAndMessageKeys packet).1 = .error e
  header : ∃ header, packetDecryptHeader packet conversation.ratchet.receiveHeaderKey =
    .ok header ∧ headerExtract header = .ok extracted
  headerKey : conversation.ratchet.receiveHeaderKey.isNone = false
  inReach : tooManySkipped conversation.ratchet.receiveMessageNumber
    extracted.messageNumber = false
  message : ∃ message, packetDecryptMessage packet
    (conversation.ratchet.receiveChainKey.key.advance
      (conversation.ratchet.skippedCount extracted.messageNumber)).messageKey = .ok message

theorem OpensCurrent.receive_eq (hkdf : KdfNonzero B) {conversation : Conversation B}
    (hwell : conversation.ratchet.WellFormed) {packet message : List B}
    {extracted : ExtractedHeader B} (h : conversation.OpensCurrent packet extracted)
    (hmessage : packetDecryptMessage packet (conversation.ratchet.receiveChainKey.key.advance
      (conversation.ratchet.skippedCount extracted.messageNumber)).messageKey = .ok message)
    (w : World B) :
    let ratchet := conversation.ratchet
    let count := ratchet.skippedCount extracted.messageNumber
    let staged := stagedKeys ratchet.receiveHeaderKey count ratchet.receiveChainKey.key
      ratchet.stagedHeaderAndMessageKeys w
    ∃ left w', conversation.SkippedLeft packet left ∧ conversation.receive packet w =
      (.ok ⟨extracted.messageNumber, extracted.previousMessageNumber, message⟩,
        ⟨conversation.id, ratchet.acceptCurrent extracted.messageNumber
          (ratchet.receiveChainKey.key.advance (count + 1))
          (committedKeys left staged.1 staged.2)⟩, w') := by
  obtain ⟨e, hskipped⟩ := h.notSkipped
  obtain ⟨header, hopen, hheader⟩ := h.header
  rcases trySkippedHeaderAndMessageKeys_cases conversation packet with
    ⟨_, _, _, -, -, htry⟩ | ⟨_, left, hleft, -⟩
  · rw [htry] at hskipped
    cases hskipped
  · obtain ⟨w', hreceive⟩ := Received.receive_eq hkdf hwell.receivedValid hwell.headerDecryptable
      hwell.receiveChainKey
      (.currentChain hleft hopen hheader h.headerKey h.inReach rfl rfl hmessage (w := w))
    exact ⟨left, w', hleft, hreceive⟩

end Conversation

namespace Receiver

def step (receiver : Receiver B) : Call B → Option (Accepted B) × Receiver B
  | .send message prekeyMetadata w =>
      (none, { receiver with
        conversation := (receiver.conversation.call (.send message prekeyMetadata w)).2 })
  | .receive packet w =>
      let conversation' := (receiver.conversation.call (.receive packet w)).2
      match (receiver.conversation.receive packet w).1,
          (receiver.conversation.trySkippedHeaderAndMessageKeys packet).1,
          receiver.conversation.keyForPacket packet w with
      | .ok message, .error _, some messageKey =>
          match receiver.conversation.startedChain packet with
          | none => (some ⟨receiver.chain, receiver.firstKey, message.messageNumber, messageKey⟩,
              { receiver with conversation := conversation' })
          | some firstKey =>
              (some ⟨receiver.chain + 1, firstKey, message.messageNumber, messageKey⟩,
                ⟨conversation', receiver.chain + 1, firstKey⟩)
      | _, _, _ => (none, { receiver with conversation := conversation' })

variable {receiver : Receiver B} {packet : List B} {w : World B}

theorem step_eq_none {result : Except Error (ReceivedMessage B)}
    (hresult : (receiver.conversation.receive packet w).1 = result)
    (hnone : (∃ e, result = .error e) ∨
      ∃ message, (receiver.conversation.trySkippedHeaderAndMessageKeys packet).1 = .ok message) :
    receiver.step (.receive packet w) =
      (none, { receiver with conversation := (receiver.conversation.receive packet w).2.1 }) := by
  unfold step
  rcases hnone with ⟨e, rfl⟩ | ⟨message, hskipped⟩
  · simp only [hresult]
    rfl
  · simp only [hskipped]
    split
    · rename_i heq _
      cases heq
    · rfl

theorem step_eq_some {message : ReceivedMessage B} {messageKey : MessageKey B} {e : Error}
    (hresult : (receiver.conversation.receive packet w).1 = .ok message)
    (hskipped : (receiver.conversation.trySkippedHeaderAndMessageKeys packet).1 = .error e)
    (hkey : receiver.conversation.keyForPacket packet w = some messageKey) :
    receiver.step (.receive packet w) =
      match receiver.conversation.startedChain packet with
      | none => (some ⟨receiver.chain, receiver.firstKey, message.messageNumber, messageKey⟩,
          { receiver with conversation := (receiver.conversation.receive packet w).2.1 })
      | some firstKey =>
          (some ⟨receiver.chain + 1, firstKey, message.messageNumber, messageKey⟩,
            ⟨(receiver.conversation.receive packet w).2.1, receiver.chain + 1, firstKey⟩) := by
  unfold step
  simp only [hresult, hskipped, hkey]
  rfl

theorem step_of_opensCurrent (hkdf : KdfNonzero B)
    (hwell : receiver.conversation.ratchet.WellFormed) {extracted : ExtractedHeader B}
    (h : receiver.conversation.OpensCurrent packet extracted) (w : World B) :
    let ratchet := receiver.conversation.ratchet
    let count := ratchet.skippedCount extracted.messageNumber
    let staged := stagedKeys ratchet.receiveHeaderKey count ratchet.receiveChainKey.key
      ratchet.stagedHeaderAndMessageKeys w
    ∃ left, receiver.conversation.SkippedLeft packet left ∧
      receiver.step (.receive packet w) =
        (some ⟨receiver.chain, receiver.firstKey, extracted.messageNumber,
          (ratchet.receiveChainKey.key.advance count).messageKey⟩,
          { receiver with
            conversation := ⟨receiver.conversation.id, ratchet.acceptCurrent
              extracted.messageNumber (ratchet.receiveChainKey.key.advance (count + 1))
              (committedKeys left staged.1 staged.2)⟩ }) := by
  obtain ⟨e, hskipped⟩ := h.notSkipped
  obtain ⟨header, hopen, hheader⟩ := h.header
  obtain ⟨message, hmessage⟩ := h.message
  obtain ⟨left, w', hleft, hreceive⟩ := h.receive_eq hkdf hwell hmessage w
  have hkey := keyForPacket_currentChain hwell hleft hopen hheader h.headerKey h.inReach w
  have hstarted : receiver.conversation.startedChain packet = none := by
    unfold startedChain
    rw [hopen]
  have hstep := step_eq_some (congrArg Prod.fst hreceive) hskipped hkey
  rw [hstarted, hreceive] at hstep
  exact ⟨left, hleft, hstep⟩

/-- What a call can do to the receiving side: nothing, accept a message of the current chain, or
accept one that starts the next chain. -/
theorem step_cases (hkdf : KdfNonzero B) (hwell : receiver.conversation.ratchet.WellFormed)
    (c : Call B) :
    (∃ conversation', receiver.step c = (none, { receiver with conversation := conversation' }) ∧
      conversation'.ratchet.receiveMessageNumber =
        receiver.conversation.ratchet.receiveMessageNumber ∧
      conversation'.ratchet.receiveChainKey = receiver.conversation.ratchet.receiveChainKey) ∨
    (∃ packet w extracted, c = .receive packet w ∧
      receiver.conversation.OpensCurrent packet extracted) ∨
    (∃ firstKey number conversation', receiver.step c =
        (some ⟨receiver.chain + 1, firstKey, number, (firstKey.advance number.toNat).messageKey⟩,
          ⟨conversation', receiver.chain + 1, firstKey⟩) ∧
      number.toNat + 1 < 2 ^ 32 ∧
      conversation'.ratchet.receiveMessageNumber = number + 1 ∧
      conversation'.ratchet.receiveChainKey = .ofKey (firstKey.advance (number.toNat + 1))) := by
  cases c with
  | send message prekeyMetadata w =>
      obtain ⟨data, ratchet, w', hdata, hkey, -⟩ := hwell.getSendData hkdf w
      refine .inl ⟨_, rfl, ?_⟩
      change (receiver.conversation.send message prekeyMetadata w).2.1.ratchet.receiveMessageNumber
        = _ ∧ (receiver.conversation.send message prekeyMetadata w).2.1.ratchet.receiveChainKey = _
      rw [send_eq hdata hkey]
      rcases Ratchet.getSendData_cases hdata with
        ⟨-, -, headerKey, -, -, rfl⟩ | ⟨-, derived, -, -, rfl⟩
      · exact ⟨rfl, rfl⟩
      · exact ⟨rfl, rfl⟩
  | receive packet w =>
      have hcases := WellFormed.receive_cases hkdf hwell packet w
      generalize hresult : (receiver.conversation.receive packet w).1 = result at hcases
      generalize hnext : (receiver.conversation.receive packet w).2.1 = conversation' at hcases
      cases hcases with
      | skipped hfound hheader =>
          have htry : ∃ message,
              (receiver.conversation.trySkippedHeaderAndMessageKeys packet).1 = .ok message := by
            unfold trySkippedHeaderAndMessageKeys
            rw [hfound]
            simp only [hheader]
            exact ⟨_, rfl⟩
          have hstep := step_eq_none hresult (.inr htry)
          rw [hnext] at hstep
          exact .inl ⟨_, hstep, rfl, rfl⟩
      | rejected hleft hpurports =>
          have hstep := step_eq_none hresult (.inl ⟨_, rfl⟩)
          rw [hnext] at hstep
          exact .inl ⟨_, hstep, rfl, rfl⟩
      | currentChain hleft hopen hheader hnoneKey hskip hcount hstaged hmessage =>
          obtain ⟨e, htry⟩ := hleft.trySkippedHeaderAndMessageKeys
          subst hcount
          exact .inr (.inl ⟨packet, w, _, rfl, ⟨e, by rw [htry]⟩, ⟨_, hopen, hheader⟩, hnoneKey,
            hskip, ⟨_, hmessage⟩⟩)
      | nextChain hleft hcurrent hopen hheader hflag hrest hderived hskip hstagedRest hstaged
          hmessage =>
          rename_i left header message extracted derived rest staged
          obtain ⟨e, htry⟩ := hleft.trySkippedHeaderAndMessageKeys
          have hkey := keyForPacket_nextChain hkdf hwell hleft hcurrent hopen hheader hflag hrest
            hderived hskip w
          obtain ⟨e', hcurrent⟩ := hcurrent
          have hstarted : receiver.conversation.startedChain packet = some derived.chainKey := by
            unfold startedChain
            rw [hcurrent, hopen]
            simp only [hheader, hderived]
            rfl
          have hstep := step_eq_some hresult (congrArg Prod.fst htry) hkey
          rw [hstarted, hnext] at hstep
          refine .inr (.inr ⟨_, _, _, hstep, ?_, rfl, rfl⟩)
          have hlow := toNat_le_of_tooManySkipped hskip
          rw [UInt32.toNat_zero, Nat.zero_add] at hlow
          change extracted.messageNumber.toNat + 1 < 2 ^ 32
          exact (Nat.succ_le_succ hlow).trans_lt (by decide)

/-- A message that opens on the current chain has a number that is not below the counter, and
not the last one of the counter. -/
def KeepsOrder (receiver : Receiver B) : Call B → Prop
  | .send _ _ _ => True
  | .receive packet _ => ∀ extracted, receiver.conversation.OpensCurrent packet extracted →
      receiver.conversation.ratchet.receiveMessageNumber ≤ extracted.messageNumber ∧
        extracted.messageNumber.toNat + 1 < 2 ^ 32

/-- The chain key stands at the position of the counter, and so did it for every message. -/
structure Tracks (receiver : Receiver B) (accepted : List (Accepted B)) : Prop where
  position : receiver.conversation.ratchet.receiveChainKey.key =
    receiver.firstKey.advance receiver.conversation.ratchet.receiveMessageNumber.toNat
  keys : ∀ a ∈ accepted, a.messageKey = (a.firstKey.advance a.messageNumber.toNat).messageKey
  chains : ∀ a ∈ accepted, a.chain ≤ receiver.chain
  below : ∀ a ∈ accepted, a.chain = receiver.chain →
    a.messageNumber.toNat < receiver.conversation.ratchet.receiveMessageNumber.toNat
  distinct : accepted.Pairwise fun a b => a.chain = b.chain → a.messageNumber ≠ b.messageNumber

omit [Platform] in
theorem lt_add_one_iff {number number' : UInt32} :
    number < number' + 1 ↔ number ≤ number' ∧ number'.toNat + 1 < 2 ^ 32 := by
  rw [UInt32.lt_iff_toNat_lt, UInt32.le_iff_toNat_le, UInt32.toNat_add, UInt32.toNat_one]
  have h := number.toNat_lt
  have h' := number'.toNat_lt
  omega

variable {accepted : List (Accepted B)}

omit [ProtobufC B] [Platform] in
theorem Tracks.accept (h : receiver.Tracks accepted) {receiver' : Receiver B} {number : UInt32}
    (hroom : number.toNat + 1 < 2 ^ 32)
    (hcounter : receiver'.conversation.ratchet.receiveMessageNumber = number + 1)
    (hposition : receiver'.conversation.ratchet.receiveChainKey.key =
      receiver'.firstKey.advance (number.toNat + 1))
    (hchain : receiver'.chain = receiver.chain ∧
        receiver.conversation.ratchet.receiveMessageNumber.toNat ≤ number.toNat ∨
      receiver'.chain = receiver.chain + 1) :
    receiver'.Tracks (accepted ++ [⟨receiver'.chain, receiver'.firstKey, number,
      (receiver'.firstKey.advance number.toNat).messageKey⟩]) := by
  have hnew : receiver'.conversation.ratchet.receiveMessageNumber.toNat = number.toNat + 1 := by
    rw [hcounter, toNat_add_one hroom]
  have hold : ∀ a ∈ accepted, a.chain = receiver'.chain → a.messageNumber.toNat < number.toNat := by
    intro a ha hsame
    have hle := h.chains a ha
    rcases hchain with ⟨heq, hcount⟩ | heq
    · exact (h.below a ha (hsame.trans heq)).trans_le hcount
    · omega
  refine ⟨by rw [hposition, hnew], ?_, ?_, ?_, ?_⟩
  · intro a ha
    rcases List.mem_append.mp ha with ha | ha
    · exact h.keys a ha
    · rw [List.mem_singleton.mp ha]
  · intro a ha
    rcases List.mem_append.mp ha with ha | ha
    · have hle := h.chains a ha
      rcases hchain with ⟨heq, -⟩ | heq <;> omega
    · rw [List.mem_singleton.mp ha]
  · intro a ha hsame
    rw [hnew]
    rcases List.mem_append.mp ha with ha | ha
    · exact Nat.lt_succ_of_lt (hold a ha hsame)
    · rw [List.mem_singleton.mp ha]
      exact Nat.lt_succ_self _
  · refine List.pairwise_append.mpr ⟨h.distinct, List.pairwise_singleton _ _, ?_⟩
    intro a ha b hb hsame heq
    rw [List.mem_singleton.mp hb] at hsame heq
    have hlt := hold a ha hsame
    rw [heq] at hlt
    exact lt_irrefl _ hlt

theorem Tracks.step (hkdf : KdfNonzero B) (hwell : receiver.conversation.ratchet.WellFormed)
    (h : receiver.Tracks accepted) {c : Call B} (horder : receiver.KeepsOrder c) :
    (receiver.step c).2.Tracks (accepted ++ (receiver.step c).1.toList) := by
  rcases step_cases hkdf hwell c with ⟨conversation', hstep, hcounter, hkey⟩ |
    ⟨packet, w, extracted, rfl, hopens⟩ |
    ⟨firstKey, number, conversation', hstep, hroom, hcounter, hkey⟩
  · rw [hstep, Option.toList_none, List.append_nil]
    refine ⟨?_, h.keys, h.chains, ?_, h.distinct⟩
    · rw [hkey, hcounter]
      exact h.position
    · rw [hcounter]
      exact h.below
  · obtain ⟨hle, hroom⟩ := horder extracted hopens
    obtain ⟨left, -, hstep⟩ := step_of_opensCurrent hkdf hwell hopens w
    have hle' := UInt32.le_iff_toNat_le.mp hle
    have hkey : ∀ n, receiver.conversation.ratchet.receiveChainKey.key.advance
        (receiver.conversation.ratchet.skippedCount extracted.messageNumber + n) =
          receiver.firstKey.advance (extracted.messageNumber.toNat + n) := by
      intro n
      rw [h.position, Key.advance_advance, Ratchet.skippedCount, ← Nat.add_assoc,
        Nat.add_sub_cancel' hle']
    have hused : receiver.conversation.ratchet.receiveChainKey.key.advance
        (receiver.conversation.ratchet.skippedCount extracted.messageNumber) =
          receiver.firstKey.advance extracted.messageNumber.toNat := hkey 0
    rw [hstep, hkey 1, hused]
    exact h.accept hroom rfl rfl (.inl ⟨rfl, hle'⟩)
  · rw [hstep]
    exact h.accept hroom hcounter (by rw [hkey]; rfl) (.inr rfl)

theorem step_conversation (receiver : Receiver B) (c : Call B) :
    (receiver.step c).2.conversation = (receiver.conversation.call c).2 := by
  cases c with
  | send message prekeyMetadata w => rfl
  | receive packet w =>
      unfold step
      dsimp only
      split
      · split <;> rfl
      · rfl

theorem Tracks.run (hkdf : KdfNonzero B) (hpoint : ScalarmultFailsByPoint B)
    (hreachable : receiver.conversation.Reachable fun _ => True) (h : receiver.Tracks accepted)
    {calls : List (Call B)} (horder : Runs.Admitted Receiver.step KeepsOrder receiver calls) :
    (Runs.final Receiver.step receiver calls).Tracks
      (accepted ++ (Runs.outputs Receiver.step receiver calls).reduceOption) := by
  induction calls generalizing receiver accepted with
  | nil => simpa [Runs.final, Runs.outputs] using h
  | cons c calls ih =>
      have hnext := h.step hkdf (hreachable.wellFormed hkdf hpoint) horder.head
      have hstep : (receiver.step c).2.conversation.Reachable fun _ => True := by
        rw [step_conversation]
        exact hreachable.call c
      have hrun := ih hstep hnext horder.tail
      rw [List.append_assoc] at hrun
      rw [Runs.final, Runs.outputs]
      cases haccepted : (receiver.step c).1 with
      | none => simpa [haccepted] using hrun
      | some a => simpa [haccepted] using hrun

theorem reachable_final (hreachable : receiver.conversation.Reachable fun _ => True)
    (calls : List (Call B)) :
    (Runs.final step receiver calls).conversation.Reachable fun _ => True := by
  induction calls generalizing receiver with
  | nil => exact hreachable
  | cons c calls ih =>
      apply ih
      rw [step_conversation]
      exact hreachable.call c

end Receiver

namespace Conversation

def receiver (conversation : Conversation B) : Receiver B :=
  ⟨conversation, 0, conversation.ratchet.receiveChainKey.key⟩

omit [ProtobufC B] [Platform] in
theorem Created.tracks {conversation : Conversation B} (h : conversation.Created) :
    conversation.receiver.Tracks [] := by
  obtain ⟨_, _, _, _, _, _, w, w', -, hcreate⟩ := h
  obtain ⟨role, masterKey, -, -, heq⟩ := Ratchet.exists_of_create (ratchet_of_create hcreate)
  have hcounter : conversation.ratchet.receiveMessageNumber = 0 := by
    rw [heq]
    rfl
  refine ⟨?_, fun a ha => absurd ha List.not_mem_nil, fun a ha => absurd ha List.not_mem_nil,
    fun a ha => absurd ha List.not_mem_nil, List.Pairwise.nil⟩
  change _ = Key.advance _ conversation.ratchet.receiveMessageNumber.toNat
  rw [hcounter]
  rfl

open Receiver in
/-- Exactly the runs in which no message opens on the current chain with a number below the
counter, or with the last number there is, keep the numbers and the positions together. -/
theorem number_determines_key_iff (hkdf : KdfNonzero B) (hpoint : ScalarmultFailsByPoint B)
    {conversation : Conversation B} (h : conversation.Created) (calls : List (Call B)) :
    let accepted := (Runs.outputs step conversation.receiver calls).reduceOption
    ((∀ a ∈ accepted, a.messageKey = (a.firstKey.advance a.messageNumber.toNat).messageKey) ∧
      (∀ before c after a, calls = before ++ c :: after →
        ((Runs.final step conversation.receiver before).step c).1 = some a →
        a.chain = (Runs.final step conversation.receiver before).chain →
        (Runs.final step conversation.receiver before).conversation.ratchet.receiveMessageNumber <
          ((Runs.final step conversation.receiver before).step
            c).2.conversation.ratchet.receiveMessageNumber) ∧
      accepted.Pairwise fun a b => a.chain = b.chain → a.messageNumber ≠ b.messageNumber) ↔
    Runs.Admitted step KeepsOrder conversation.receiver calls := by
  intro accepted
  have hwell : ∀ before, (Runs.final step conversation.receiver
      before).conversation.ratchet.WellFormed := fun before =>
    (reachable_final h.reachable before).wellFormed hkdf hpoint
  constructor
  · rintro ⟨-, hincreases, -⟩ before c after hcalls
    cases c with
    | send message prekeyMetadata w => trivial
    | receive packet w =>
        intro extracted hopens
        obtain ⟨left, -, hstep⟩ := step_of_opensCurrent hkdf (hwell before) hopens w
        have hlt := hincreases before _ after _ hcalls (congrArg Prod.fst hstep) rfl
        rw [hstep] at hlt
        exact lt_add_one_iff.mp hlt
  · intro horder
    have hrun := h.tracks.run hkdf hpoint h.reachable horder
    rw [List.nil_append] at hrun
    refine ⟨hrun.keys, fun before c after a hcalls ha hchain => ?_, hrun.distinct⟩
    have hstepOrder := horder before c after hcalls
    rcases step_cases hkdf (hwell before) c with ⟨conversation', hstep, -⟩ |
      ⟨packet, w, extracted, rfl, hopens⟩ | ⟨firstKey, number, conversation', hstep, -⟩
    · rw [hstep] at ha
      cases ha
    · obtain ⟨left, -, hstep⟩ := step_of_opensCurrent hkdf (hwell before) hopens w
      rw [hstep]
      exact lt_add_one_iff.mpr (hstepOrder extracted hopens)
    · rw [hstep] at ha
      cases ha
      exact absurd hchain (Nat.succ_ne_self _)

end Conversation

end Numbers

namespace Symbolic

def numberedZero (headerKey : HeaderKey ℕ) (messageKey : MessageKey ℕ) (message : List ℕ) :
    List ℕ :=
  ProtobufC.packetPack (encryptedPacketStruct .normalMessage (headerConstruct Key.zero 0 0)
    headerKey (paddedMessage message) messageKey none Key.zero Key.zero)

theorem seals_numberedZero (headerKey : HeaderKey ℕ) (messageKey : MessageKey ℕ)
    (message : List ℕ) : Seals (numberedZero headerKey messageKey message) headerKey
      (headerConstruct Key.zero 0 0) messageKey message :=
  ⟨_, packetUnpack_encryptedPacketStruct protobufRoundTrip _ _ _ _ _ _ _ _ (by simp), rfl, rfl⟩

/-- A conversation that waits for the next message of a chain and has skipped none. -/
structure Awaits (conversation : Conversation ℕ) (headerKey : HeaderKey ℕ)
    (chainKey : ChainKey ℕ) : Prop where
  wellFormed : conversation.ratchet.WellFormed
  receiveHeaderKey : conversation.ratchet.receiveHeaderKey = .ofKey headerKey
  notZero : headerKey.isZero = false
  receiveChainKey : conversation.ratchet.receiveChainKey = .ofKey chainKey
  skipped : conversation.ratchet.skippedHeaderAndMessageKeys = .clear
  staged : conversation.ratchet.stagedHeaderAndMessageKeys = .clear

variable {conversation : Conversation ℕ} {headerKey : HeaderKey ℕ} {chainKey : ChainKey ℕ}

theorem Awaits.advance_skippedCount_zero (h : Awaits conversation headerKey chainKey) :
    conversation.ratchet.receiveChainKey.key.advance (conversation.ratchet.skippedCount 0) =
      chainKey := by
  rw [h.receiveChainKey, Ratchet.skippedCount, UInt32.toNat_zero, Nat.zero_sub]
  rfl

/-- Whoever has the header key and the next message key can send the number 0 at any time. -/
theorem Awaits.opensCurrent (h : Awaits conversation headerKey chainKey) (message : List ℕ) :
    conversation.OpensCurrent (numberedZero headerKey chainKey.messageKey message)
      ⟨Key.zero, 0, 0⟩ where
  notSkipped := by
    unfold trySkippedHeaderAndMessageKeys
    rw [h.skipped]
    exact ⟨_, rfl⟩
  header := by
    rw [h.receiveHeaderKey]
    exact ⟨_, (seals_numberedZero _ _ _).packetDecryptHeader secretboxRoundTrip,
      headerExtract_headerConstruct protobufRoundTrip _ _ _⟩
  headerKey := by
    rw [h.receiveHeaderKey]
    exact h.notZero
  inReach := decide_eq_false (Nat.not_lt_zero _)
  message := by
    rw [h.advance_skippedCount_zero]
    exact ⟨message, (seals_numberedZero _ _ _).packetDecryptMessage secretboxRoundTrip⟩

theorem Awaits.receive (h : Awaits conversation headerKey chainKey) (message : List ℕ)
    (chain : ℕ) (firstKey : ChainKey ℕ) :
    ∃ conversation' w', conversation.receive
        (numberedZero headerKey chainKey.messageKey message) world =
          (.ok ⟨0, 0, message⟩, conversation', w') ∧
      Receiver.step ⟨conversation, chain, firstKey⟩
        (.receive (numberedZero headerKey chainKey.messageKey message) world) =
          (some ⟨chain, firstKey, 0, chainKey.messageKey⟩, ⟨conversation', chain, firstKey⟩) ∧
      Awaits conversation' headerKey chainKey.nextChainKey := by
  have hopens := h.opensCurrent message
  have hmessage : packetDecryptMessage (numberedZero headerKey chainKey.messageKey message)
      (conversation.ratchet.receiveChainKey.key.advance
        (conversation.ratchet.skippedCount 0)).messageKey = .ok message := by
    rw [h.advance_skippedCount_zero]
    exact (seals_numberedZero _ _ _).packetDecryptMessage secretboxRoundTrip
  have hclear : ∀ left, conversation.SkippedLeft
      (numberedZero headerKey chainKey.messageKey message) left → left = .clear := by
    intro left hleft
    cases hleft with
    | all => exact h.skipped
    | removed hfound =>
        rw [h.skipped] at hfound
        cases hfound
  have hwell : (Receiver.mk conversation chain firstKey).conversation.ratchet.WellFormed :=
    h.wellFormed
  obtain ⟨left, w', hleft, hreceive⟩ := hopens.receive_eq kdfNonzero hwell hmessage world
  obtain ⟨left', hleft', hstep⟩ := Receiver.step_of_opensCurrent kdfNonzero hwell hopens world
  have hcounts : conversation.ratchet.skippedCount 0 = 0 := Nat.zero_sub _
  have hnext := wellFormed_received kdfNonzero scalarmultFailsByPoint h.wellFormed
    (WellFormed.receive_cases kdfNonzero h.wellFormed
      (numberedZero headerKey chainKey.messageKey message) world)
  rw [hreceive] at hnext
  simp only [hclear _ hleft, hcounts, stagedKeys, h.staged, committedKeys_clear,
    h.receiveChainKey] at hreceive hnext
  simp only [hclear _ hleft', hcounts, stagedKeys, h.staged, committedKeys_clear,
    h.receiveChainKey] at hstep
  exact ⟨_, w', hreceive, hstep, hnext, h.receiveHeaderKey, h.notZero, rfl, rfl, rfl⟩

theorem exists_created_alice : ∃ (conversation : Conversation ℕ) (masterKey : Key ℕ 32),
    conversation.Created ∧ Awaits conversation (masterKey.deriveSubkeyWithIndex 1)
      (masterKey.deriveSubkeyWithIndex 4) := by
  obtain ⟨ratchet, hratchet⟩ := Ratchet.exists_create (chooseRole_carry Nat.one_lt_two)
    (usable (by decide)) (usable (base_isZero Key.zero)) Key.zero Key.zero
    (cryptoScalarmultBase Key.zero)
  obtain ⟨role, masterKey, hrole, -, heq⟩ := Ratchet.exists_of_create hratchet
  rw [chooseRole_carry Nat.one_lt_two] at hrole
  cases hrole
  have hcreated : Conversation.Created _ :=
    ⟨_, _, _, _, _, _, world, _, rfl, create_of_ratchet hratchet world⟩
  refine ⟨_, masterKey.key, hcreated,
    hcreated.reachable.wellFormed kdfNonzero scalarmultFailsByPoint, ?_,
    Key.isZero_deriveSubkeyWithIndex kdfNonzero _ _, ?_, ?_, ?_⟩
  all_goals
    rw [heq]
    rfl

/-- The peer sends the number 0 twice, first under the key of position 0 and then under the key
of position 1. Both messages are accepted on one chain and reported with the number 0. -/
theorem number_zero_accepted_twice :
    ∃ (conversation : Conversation ℕ) (packet packet' : List ℕ) (firstKey : ChainKey ℕ),
      conversation.Created ∧
      (conversation.receive packet world).1 = .ok ⟨0, 0, [1]⟩ ∧
      ((conversation.receive packet world).2.1.receive packet' world).1 = .ok ⟨0, 0, [2]⟩ ∧
      Runs.outputs Receiver.step conversation.receiver
          [.receive packet world, .receive packet' world] =
        [some ⟨0, firstKey, 0, (firstKey.advance 0).messageKey⟩,
          some ⟨0, firstKey, 0, (firstKey.advance 1).messageKey⟩] ∧
      (firstKey.advance 1).messageKey ≠ (firstKey.advance 0).messageKey := by
  obtain ⟨conversation, masterKey, hcreated, hawaits⟩ := exists_created_alice
  obtain ⟨conversation', w', hreceive, hstep, hawaits'⟩ := hawaits.receive [1] 0
    conversation.ratchet.receiveChainKey.key
  obtain ⟨conversation'', w'', hreceive', hstep', -⟩ := hawaits'.receive [2] 0
    conversation.ratchet.receiveChainKey.key
  rw [hawaits.receiveChainKey] at hstep hstep'
  refine ⟨conversation, _, numberedZero (masterKey.deriveSubkeyWithIndex 1)
    (masterKey.deriveSubkeyWithIndex 4).nextChainKey.messageKey [2],
    masterKey.deriveSubkeyWithIndex 4, hcreated, congrArg Prod.fst hreceive, ?_, ?_, ?_⟩
  · rw [hreceive]
    exact congrArg Prod.fst hreceive'
  · rw [Conversation.receiver, hawaits.receiveChainKey]
    simp only [Runs.outputs, EmptyableKey.ofKey_key] at hstep hstep' ⊢
    rw [hstep, hstep']
    rfl
  · intro heq
    have hnext := (Key.deriveSubkeyWithIndex_inj kdfInjective heq).1
    exact absurd (Key.deriveSubkeyWithIndex_inj kdfInjective hnext).2 (by decide)

/-- One message with the number 0 is accepted at position 0. -/
theorem number_zero_at_its_position :
    ∃ (conversation : Conversation ℕ) (packet : List ℕ), conversation.Created ∧
      (conversation.receive packet world).1 = .ok ⟨0, 0, [1]⟩ ∧
      ∀ a ∈ (Runs.outputs Receiver.step conversation.receiver
          [.receive packet world]).reduceOption,
        a.messageKey = (a.firstKey.advance a.messageNumber.toNat).messageKey := by
  obtain ⟨conversation, masterKey, hcreated, hawaits⟩ := exists_created_alice
  obtain ⟨conversation', w', hreceive, -⟩ := hawaits.receive [1] 0
    conversation.ratchet.receiveChainKey.key
  refine ⟨conversation, _, hcreated, congrArg Prod.fst hreceive, ?_⟩
  have hdetermines := number_determines_key_iff kdfNonzero scalarmultFailsByPoint hcreated
    [.receive (numberedZero (masterKey.deriveSubkeyWithIndex 1)
      (masterKey.deriveSubkeyWithIndex 4).messageKey [1]) world]
  refine (hdetermines.mpr ?_).1
  intro before c after hcalls
  cases before with
  | cons c' before => simp at hcalls
  | nil =>
      cases hcalls
      intro extracted hopens
      obtain ⟨header, hopen, hheader⟩ := hopens.header
      obtain ⟨header', hopen', hheader'⟩ := (hawaits.opensCurrent [1]).header
      have hzero : conversation.receiver.conversation.ratchet.receiveMessageNumber = 0 := by
        obtain ⟨_, _, _, _, _, _, _, _, -, hcreate⟩ := hcreated
        obtain ⟨role, master, -, -, heq⟩ := Ratchet.exists_of_create (ratchet_of_create hcreate)
        change conversation.ratchet.receiveMessageNumber = 0
        rw [heq]
        rfl
      change packetDecryptHeader _ conversation.ratchet.receiveHeaderKey = _ at hopen
      rw [hopen'] at hopen
      cases hopen
      rw [hheader'] at hheader
      cases hheader
      change conversation.receiver.conversation.ratchet.receiveMessageNumber ≤ 0 ∧ _
      rw [hzero]
      decide

end Symbolic

end Molch
