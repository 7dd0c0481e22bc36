import Molch.Attacker
import Molch.Establishment
import Molch.SpentKeys

/-!
Any number of conversations and somebody who controls the network between them. Whatever
packets he makes, replays, splices or holds back, a conversation accepts only messages that its
peer has sent, each of them at most as often as it was sent.
-/

namespace Molch

open Sodium Lineage Relation

/-- A message that a conversation has sent or accepted, with the packet and the message key. -/
structure Parcel (ι B : Type) where
  party : ι
  packet : List B
  message : List B
  messageKey : MessageKey B

/-- The conversations, all that they have sent and all that they have accepted. -/
structure Traffic (ι B : Type) where
  conversation : ι → Conversation B
  sent : List (Parcel ι B)
  received : List (Parcel ι B)

section

variable {ι B : Type} [Byte B] [Sodium B] [ProtobufC B] [Platform]

namespace Conversation

/-- What a call sends or accepts, if it succeeds. -/
def parcel (i : ι) (conversation : Conversation B) (c : Call B) : Option (Parcel ι B) :=
  match c with
  | .send message prekeyMetadata w =>
      match (conversation.send message prekeyMetadata w).1, conversation.usedKey c with
      | .ok packet, some messageKey => some ⟨i, packet, message, messageKey⟩
      | _, _ => none
  | .receive packet w =>
      match (conversation.receive packet w).1, conversation.usedKey c with
      | .ok received, some messageKey => some ⟨i, packet, received.message, messageKey⟩
      | _, _ => none

/-- The box of a message that somebody puts into a packet: he has sealed it under a key that he
can derive, or it is a copy. -/
def Producible (known : Set (Secret B)) (packets : List (List B)) (packet : List B) : Prop :=
  ∀ unpacked, packetUnpack packet = .ok unpacked →
    (∀ key opened, cryptoSecretboxOpenEasy unpacked.encryptedMessage unpacked.messageNonce key =
      some opened → Derivable DerivesAll known (.messageKey key)) ∨
    ∃ copied ∈ packets, ∃ unpacked', packetUnpack copied = .ok unpacked' ∧
      unpacked'.encryptedMessage = unpacked.encryptedMessage ∧
      unpacked'.messageNonce = unpacked.messageNonce

end Conversation

namespace Traffic

open Conversation

def start (conversation : ι → Conversation B) : Traffic ι B := ⟨conversation, [], []⟩

section Steps

variable [DecidableEq ι]

def step (traffic : Traffic ι B) (i : ι) (c : Call B) : Traffic ι B :=
  let conversation := Function.update traffic.conversation i ((traffic.conversation i).call c).2
  match c with
  | .send _ _ _ =>
      { traffic with
        conversation := conversation
        sent := traffic.sent ++ ((traffic.conversation i).parcel i c).toList }
  | .receive _ _ =>
      { traffic with
        conversation := conversation
        received := traffic.received ++ ((traffic.conversation i).parcel i c).toList }

/-- All packets come from the network. -/
def Admissible (known : Set (Secret B)) (traffic : Traffic ι B) : Call B → Prop
  | .send _ _ _ => True
  | .receive packet _ => Producible known (traffic.sent.map Parcel.packet) packet

/-- What the traffic between the given conversations can come to. -/
inductive Reached (known : Set (Secret B)) (conversation : ι → Conversation B) :
    Traffic ι B → Prop
  | start : Reached known conversation (start conversation)
  | step {traffic : Traffic ι B} (h : Reached known conversation traffic) (i : ι) (c : Call B)
      (hadmissible : traffic.Admissible known c) : Reached known conversation (traffic.step i c)

def accepted (traffic : Traffic ι B) (i : ι) : List (List B) :=
  (traffic.received.filter (·.party = i)).map Parcel.message

end Steps

end Traffic

section Calls

namespace Conversation

variable {conversation : Conversation B} {i : ι} {n : ℕ} {origin : Key B 32 → Prop}

omit [Platform] in
theorem exists_of_packetDecryptMessage {packet message : List B} {messageKey : MessageKey B}
    (h : packetDecryptMessage packet messageKey = .ok message) :
    ∃ unpacked opened, packetUnpack packet = .ok unpacked ∧
      cryptoSecretboxOpenEasy unpacked.encryptedMessage unpacked.messageNonce messageKey =
        some opened := by
  obtain ⟨unpacked, hunpack, hrest⟩ := Result.bind_eq_ok.mp h
  split at hrest
  · cases hrest
  · split at hrest
    · cases hrest
    · split at hrest
      · cases hrest
      · rename_i opened hopen
        exact ⟨unpacked, opened, hunpack, hopen⟩

omit [Platform] in
theorem packetDecryptMessage_copy {packet copied : List B} {unpacked unpacked' : UnpackedPacket B}
    (hunpack : packetUnpack packet = .ok unpacked)
    (hunpack' : packetUnpack copied = .ok unpacked')
    (hmessage : unpacked'.encryptedMessage = unpacked.encryptedMessage)
    (hnonce : unpacked'.messageNonce = unpacked.messageNonce) (messageKey : MessageKey B) :
    packetDecryptMessage copied messageKey = packetDecryptMessage packet messageKey := by
  rw [packetDecryptMessage, packetDecryptMessage, hunpack, hunpack']
  simp only [Result.ok_bind, hmessage, hnonce]

theorem exists_of_receive (hnonzero : KdfNonzero B) (hwell : conversation.ratchet.WellFormed)
    (h : conversation.ratchet.AtGeneration origin n) {packet : List B} {w : World B}
    {received : ReceivedMessage B}
    (hreceive : (conversation.receive packet w).1 = .ok received) :
    ∃ key bound, conversation.usedKey (.receive packet w) = some key ∧
      packetDecryptMessage packet key = .ok received.message ∧
      UpTo origin bound (.messageKey key) := by
  have hcases := WellFormed.receive_cases hnonzero hwell packet w
  rw [usedKey, hreceive]
  rw [hreceive] at hcases
  generalize (conversation.receive packet w).2.1 = conversation' at hcases
  cases hcases with
  | skipped hfound hheader =>
      obtain ⟨node, hnode, hdecrypt⟩ := firstDecryption_eq_some hfound
      simp only [keyForPacket_skipped hfound hheader, hnode, Option.map_some]
      exact ⟨_, _, rfl, packetDecryptMessage_of_packetDecrypt hdecrypt,
        h.skipped _ (List.mem_of_getElem? hnode)⟩
  | currentChain hleft hopen hheader hnone hskip hcount hstaged hmessage =>
      simp only [keyForPacket_currentChain hwell hleft hopen hheader hnone hskip w, ← hcount]
      exact ⟨_, _, rfl, hmessage,
        (h.receiveChainKey.advance (hwell.receiveChainKey hnone) _).2⟩
  | nextChain hleft hcurrent hopen hheader hflag hrest hderived hskip hstagedRest hstaged
      hmessage =>
      simp only [keyForPacket_nextChain hnonzero hwell hleft hcurrent hopen hheader hflag hrest
        hderived hskip w]
      obtain ⟨-, derivation, -, -, rfl, hderivation⟩ := h.turned.exists_of_derived hderived
      exact ⟨_, _, rfl, hmessage, .stems le_rfl hderivation (.messageKey (by decide) _)⟩

theorem exists_of_send (hproto : ProtobufRoundTrip B) (hnonzero : KdfNonzero B)
    (hwell : conversation.ratchet.WellFormed) (h : conversation.ratchet.AtGeneration origin n)
    (message : List B) (prekeyMetadata : Option (PrekeyMetadata B)) (w : World B) :
    ∃ packet headerKey header key bound,
      (conversation.send message prekeyMetadata w).1 = .ok packet ∧
      conversation.usedKey (.send message prekeyMetadata w) = some key ∧
      Seals packet headerKey header key message ∧ UpTo origin bound (.messageKey key) := by
  obtain ⟨data, ratchet, w', hdata, hempty, -⟩ := hwell.getSendData hnonzero w
  obtain ⟨packet, w'', hsend, hseals⟩ := send_of_getSendData hdata hempty message prekeyMetadata
  have hkey : ∃ bound, UpTo origin bound (.messageKey data.messageKey) := by
    rcases Ratchet.getSendData_cases hdata with ⟨hflag, -, headerKey, -, rfl, -⟩ |
      ⟨-, derived, hderived, rfl, -⟩
    · exact ⟨_, (h.sendChainKey.advance (hwell.sendChainKey hflag) 0).2⟩
    · obtain ⟨-, derivation, -, -, rfl, hderivation⟩ := h.turned.exists_of_derived hderived
      exact ⟨_, .stems le_rfl hderivation (.messageKey (by decide) 0)⟩
  obtain ⟨bound, hbound⟩ := hkey
  exact ⟨packet, _, _, data.messageKey, bound, by rw [hsend], by rw [usedKey, hdata, hsend],
    hseals hproto, hbound⟩

end Conversation

end Calls

namespace Traffic

open Conversation

variable [DecidableEq ι] {conversation : ι → Conversation B} {traffic : Traffic ι B} {i : ι}

def keys (traffic : Traffic ι B) (i : ι) : List (MessageKey B) :=
  ((traffic.sent ++ traffic.received).filter (·.party = i)).map Parcel.messageKey

/-- What is known of the traffic between the given conversations: which keys they have used, and
that these come from their master keys. -/
structure Tracks (conversation : ι → Conversation B) (traffic : Traffic ι B) : Prop where
  reachable : ∀ i, (traffic.conversation i).Reachable fun _ => True
  atGeneration : ∀ i, ∃ n,
    (traffic.conversation i).ratchet.AtGeneration (conversation i).StartsFrom n
  spent : ∀ i, (traffic.conversation i).Spent (traffic.keys i)
  upTo : ∀ parcel ∈ traffic.sent ++ traffic.received, ∃ bound,
    UpTo (conversation parcel.party).StartsFrom bound (.messageKey parcel.messageKey)
  sealed : ∀ parcel ∈ traffic.sent, ∃ headerKey header,
    Seals parcel.packet headerKey header parcel.messageKey parcel.message

theorem tracks_start (hcreated : ∀ i, (conversation i).Created) :
    (start conversation).Tracks conversation where
  reachable i := (hcreated i).reachable
  atGeneration i := ⟨0, (hcreated i).atGeneration_startsFrom⟩
  spent i := (hcreated i).spent
  upTo _ hparcel := absurd hparcel List.not_mem_nil
  sealed _ hparcel := absurd hparcel List.not_mem_nil

theorem Tracks.add (hhash : GenerichashInjective B) (hkdf : KdfInjective B)
    (hnonzero : KdfNonzero B) (hpoint : ScalarmultFailsByPoint B)
    (h : traffic.Tracks conversation) (traffic' : Traffic ι B) (i : ι) (c : Call B)
    (new : List (Parcel ι B))
    (hconversation : traffic'.conversation =
      Function.update traffic.conversation i ((traffic.conversation i).call c).2)
    (hparcels : (traffic'.sent ++ traffic'.received).Perm (traffic.sent ++ traffic.received ++ new))
    (hkeys : new.map Parcel.messageKey = ((traffic.conversation i).usedKey c).toList)
    (hnew : ∀ parcel ∈ new, parcel.party = i ∧ ∃ bound,
      UpTo (conversation i).StartsFrom bound (.messageKey parcel.messageKey))
    (hsealed : ∀ parcel ∈ traffic'.sent, ∃ headerKey header,
      Seals parcel.packet headerKey header parcel.messageKey parcel.message) :
    traffic'.Tracks conversation := by
  have hwell := (h.reachable i).wellFormed hnonzero hpoint
  have hkeysPerm : ∀ j, (traffic'.keys j).Perm
      (traffic.keys j ++ (new.filter (·.party = j)).map Parcel.messageKey) := by
    intro j
    rw [keys, keys, ← List.map_append, ← List.filter_append]
    exact (hparcels.filter _).map _
  refine ⟨fun j => ?_, fun j => ?_, fun j => ?_, fun parcel hparcel => ?_, hsealed⟩
  · rw [hconversation]
    rcases eq_or_ne j i with rfl | hne
    · rw [Function.update_self]
      exact (h.reachable j).call c
    · rw [Function.update_of_ne hne]
      exact h.reachable j
  · rw [hconversation]
    rcases eq_or_ne j i with rfl | hne
    · rw [Function.update_self]
      obtain ⟨n, hat⟩ := h.atGeneration j
      exact atGeneration_call hnonzero hat hwell c
    · rw [Function.update_of_ne hne]
      exact h.atGeneration j
  · rw [hconversation]
    refine Spent.perm ?_ (hkeysPerm j)
    rcases eq_or_ne j i with rfl | hne
    · have hall : new.filter (·.party = j) = new :=
        List.filter_eq_self.mpr fun parcel hparcel => decide_eq_true (hnew parcel hparcel).1
      rw [Function.update_self, hall, hkeys]
      exact (h.spent j).call hhash hkdf hnonzero hwell c
    · have hnone : new.filter (·.party = j) = [] := by
        refine List.filter_eq_nil_iff.mpr fun parcel hparcel htrue => ?_
        rw [(hnew parcel hparcel).1] at htrue
        exact hne (of_decide_eq_true htrue).symm
      rw [Function.update_of_ne hne, hnone, List.map_nil, List.append_nil]
      exact h.spent j
  · rcases List.mem_append.mp (hparcels.subset hparcel) with hold | hmem
    · exact h.upTo parcel hold
    · obtain ⟨hparty, hupTo⟩ := hnew parcel hmem
      rw [hparty]
      exact hupTo

theorem Tracks.exists_of_send (hproto : ProtobufRoundTrip B) (hnonzero : KdfNonzero B)
    (hpoint : ScalarmultFailsByPoint B) (h : traffic.Tracks conversation) (i : ι)
    (message : List B) (prekeyMetadata : Option (PrekeyMetadata B)) (w : World B) :
    ∃ parcel : Parcel ι B, parcel.party = i ∧
      ((traffic.conversation i).send message prekeyMetadata w).1 = .ok parcel.packet ∧
      (traffic.conversation i).usedKey (.send message prekeyMetadata w) = some parcel.messageKey ∧
      (∃ headerKey header,
        Seals parcel.packet headerKey header parcel.messageKey parcel.message) ∧
      (∃ bound, UpTo (conversation i).StartsFrom bound (.messageKey parcel.messageKey)) ∧
      (traffic.step i (.send message prekeyMetadata w)).sent = traffic.sent ++ [parcel] := by
  obtain ⟨n, hat⟩ := h.atGeneration i
  obtain ⟨packet, headerKey, header, key, bound, hsend, hused, hseals, hupTo⟩ :=
    Conversation.exists_of_send hproto hnonzero ((h.reachable i).wellFormed hnonzero hpoint) hat
      message prekeyMetadata w
  refine ⟨⟨i, packet, message, key⟩, rfl, hsend, hused, ⟨headerKey, header, hseals⟩,
    ⟨bound, hupTo⟩, ?_⟩
  rw [step, parcel]
  simp only [hsend, hused]
  rfl

theorem Tracks.received_cases (hnonzero : KdfNonzero B) (hpoint : ScalarmultFailsByPoint B)
    (h : traffic.Tracks conversation) (i : ι) (packet : List B) (w : World B) :
    ((∃ e, ((traffic.conversation i).receive packet w).1 = .error e) ∧
      (traffic.conversation i).usedKey (.receive packet w) = none ∧
      (traffic.step i (.receive packet w)).received = traffic.received) ∨
    ∃ parcel : Parcel ι B, parcel.party = i ∧
      (∃ received, ((traffic.conversation i).receive packet w).1 = .ok received ∧
        parcel.message = received.message) ∧
      (traffic.conversation i).usedKey (.receive packet w) = some parcel.messageKey ∧
      packetDecryptMessage packet parcel.messageKey = .ok parcel.message ∧
      (∃ bound, UpTo (conversation i).StartsFrom bound (.messageKey parcel.messageKey)) ∧
      (traffic.step i (.receive packet w)).received = traffic.received ++ [parcel] := by
  obtain ⟨n, hat⟩ := h.atGeneration i
  cases hreceive : ((traffic.conversation i).receive packet w).1 with
  | error e =>
      refine .inl ⟨⟨e, rfl⟩, by rw [usedKey, hreceive], ?_⟩
      rw [step, parcel]
      simp only [hreceive, Option.toList_none, List.append_nil]
  | ok received =>
      obtain ⟨key, bound, hused, hmessage, hupTo⟩ :=
        exists_of_receive hnonzero ((h.reachable i).wellFormed hnonzero hpoint) hat hreceive
      refine .inr ⟨⟨i, packet, received.message, key⟩, rfl, ⟨received, rfl, rfl⟩, hused, hmessage,
        ⟨bound, hupTo⟩, ?_⟩
      rw [step, parcel]
      simp only [hreceive, hused]
      rfl

theorem Tracks.step (hideal : Idealised B) (hpoint : ScalarmultFailsByPoint B)
    (h : traffic.Tracks conversation) (i : ι) (c : Call B) :
    (traffic.step i c).Tracks conversation := by
  have hadd := h.add hideal.generichash hideal.kdf hideal.kdfNonzero hpoint (traffic.step i c) i c
  cases c with
  | send message prekeyMetadata w =>
      obtain ⟨parcel, hparty, -, hused, hseals, hupTo, hsent⟩ :=
        h.exists_of_send hideal.protobuf hideal.kdfNonzero hpoint i message prekeyMetadata w
      refine hadd [parcel] rfl ?_ (by rw [hused]; rfl) ?_ ?_
      · rw [hsent, List.append_assoc, List.append_assoc]
        exact List.perm_append_comm.append_left traffic.sent
      · intro other hother
        rw [List.mem_singleton.mp hother]
        exact ⟨hparty, hupTo⟩
      · intro other hother
        rw [hsent] at hother
        rcases List.mem_append.mp hother with hold | hnew
        · exact h.sealed other hold
        · rw [List.mem_singleton.mp hnew]
          exact hseals
  | receive packet w =>
      rcases h.received_cases hideal.kdfNonzero hpoint i packet w with
        ⟨-, hused, hreceived⟩ | ⟨parcel, hparty, -, hused, -, hupTo, hreceived⟩
      · refine hadd [] rfl ?_ (by rw [hused]; rfl) ?_ h.sealed
        · rw [hreceived, List.append_nil]
          exact .refl _
        · intro other hother
          cases hother
      · refine hadd [parcel] rfl ?_ (by rw [hused]; rfl) ?_ h.sealed
        · rw [hreceived, ← List.append_assoc]
          exact .refl _
        · intro other hother
          rw [List.mem_singleton.mp hother]
          exact ⟨hparty, hupTo⟩

variable {known : Set (Secret B)}

theorem Reached.tracks (hideal : Idealised B) (hpoint : ScalarmultFailsByPoint B)
    (hcreated : ∀ i, (conversation i).Created) (h : Reached known conversation traffic) :
    traffic.Tracks conversation := by
  induction h with
  | start => exact tracks_start hcreated
  | step h i c hadmissible ih => exact ih.step hideal hpoint i c

section Secrecy

variable {ours theirs : PrivateKey B}

/-- The keys of a conversation come from its master key, so that nobody else can derive them. -/
theorem not_derivable_of_upTo (hideal : Idealised B) (hpoint : ScalarmultFailsByPoint B)
    (hbound : ScalarmultKeyBound B) {conversation : Conversation B}
    (hshares : conversation.Shares ours theirs)
    (hknown : ∀ secret ∈ known, conversation.Outside ours theirs secret) {bound : ℕ}
    {messageKey : MessageKey B}
    (h : UpTo conversation.StartsFrom bound (.messageKey messageKey)) :
    ¬ Derivable DerivesAll known (.messageKey messageKey) := by
  obtain ⟨masterKey, hstarts, hguards⟩ :=
    hshares.exists_guards hideal.generichash hideal.kdf hideal.commutes hbound
  have hsealed : Sealed masterKey ours theirs (.messageKey messageKey) := by
    cases h with
    | stems hle hderivation hstems =>
        obtain ⟨masterKey', hstarts', hdescends⟩ := hderivation.exists_root
        rw [hstarts'.eq hideal.kdf hstarts rfl] at hdescends
        exact .stems hdescends hstems
  intro hderivable
  refine hguards.not_mem_of_derivable (fun secret hsecret => ?_) hderivable hsealed
  exact (hknown secret hsecret).not_sealed hideal.generichash hideal.kdf hideal.kdfNonzero hpoint
    hstarts

/-- Nobody else can derive the key of a message that the conversation has sent or accepted. -/
theorem message_keys_secret (hideal : Idealised B) (hpoint : ScalarmultFailsByPoint B)
    (hbound : ScalarmultKeyBound B) (hcreated : ∀ i, (conversation i).Created)
    (hshares : (conversation i).Shares ours theirs)
    (hknown : ∀ secret ∈ known, (conversation i).Outside ours theirs secret)
    (h : Reached known conversation traffic) {parcel : Parcel ι B}
    (hparcel : parcel ∈ traffic.sent ++ traffic.received) (hparty : parcel.party = i) :
    ¬ Derivable DerivesAll known (.messageKey parcel.messageKey) := by
  obtain ⟨bound, hupTo⟩ := (h.tracks hideal hpoint hcreated).upTo parcel hparcel
  rw [hparty] at hupTo
  exact not_derivable_of_upTo hideal hpoint hbound hshares hknown hupTo

omit [ProtobufC B] [Platform] in
theorem rootKey_eq_of_upTo (hhash : GenerichashInjective B) (hkdf : KdfInjective B)
    {conversation other : Conversation B} {messageKey : MessageKey B} {bound bound' : ℕ}
    (h : UpTo conversation.StartsFrom bound (.messageKey messageKey))
    (h' : UpTo other.StartsFrom bound' (.messageKey messageKey)) :
    other.ratchet.rootKey = conversation.ratchet.rootKey := by
  cases h with
  | stems hle hderivation hstems =>
      cases h' with
      | stems hle' hderivation' hstems' =>
          rw [hstems'.derivation_eq hkdf hstems] at hderivation'
          obtain ⟨masterKey, hstarts, hdescends⟩ := hderivation.exists_root
          exact rootKey_eq_of_descends hhash hkdf hstarts hdescends hderivation'

theorem Tracks.exists_sent (hideal : Idealised B) (hpoint : ScalarmultFailsByPoint B)
    (hbound : ScalarmultKeyBound B) (h : traffic.Tracks conversation)
    (hshares : (conversation i).Shares ours theirs)
    (hknown : ∀ secret ∈ known, (conversation i).Outside ours theirs secret) {packet : List B}
    (hproducible : Producible known (traffic.sent.map Parcel.packet) packet)
    {messageKey : MessageKey B} {message : List B}
    (hmessage : packetDecryptMessage packet messageKey = .ok message) {bound : ℕ}
    (hupTo : UpTo (conversation i).StartsFrom bound (.messageKey messageKey))
    (hnew : messageKey ∉ traffic.keys i) :
    ∃ parcel ∈ traffic.sent, parcel.messageKey = messageKey ∧ parcel.message = message ∧
      parcel.party ≠ i ∧
      (conversation parcel.party).ratchet.rootKey = (conversation i).ratchet.rootKey := by
  obtain ⟨unpacked, opened, hunpack, hopen⟩ := exists_of_packetDecryptMessage hmessage
  rcases hproducible unpacked hunpack with hmade | ⟨copied, hcopied, unpacked', hunpack', hbox⟩
  · exact absurd (hmade messageKey opened hopen)
      (not_derivable_of_upTo hideal hpoint hbound hshares hknown hupTo)
  · obtain ⟨parcel, hparcel, rfl⟩ := List.mem_map.mp hcopied
    obtain ⟨headerKey, header, hseals⟩ := h.sealed parcel hparcel
    have hcopy : packetDecryptMessage parcel.packet messageKey = .ok message := by
      rw [packetDecryptMessage_copy hunpack hunpack' hbox.1 hbox.2, hmessage]
    have hkey : parcel.messageKey = messageKey := by
      by_contra hne
      obtain ⟨e, he⟩ := hseals.packetDecryptMessage_ne hideal.keyBound (Ne.symm hne)
      rw [hcopy] at he
      cases he
    have hsame : parcel.message = message := by
      rw [← hkey, hseals.packetDecryptMessage hideal.secretbox] at hcopy
      exact Except.ok.inj hcopy
    refine ⟨parcel, hparcel, hkey, hsame, ?_, ?_⟩
    · intro hparty
      refine hnew (List.mem_map.mpr ⟨parcel, ?_, hkey⟩)
      exact List.mem_filter.mpr ⟨List.mem_append_left _ hparcel, decide_eq_true hparty⟩
    · obtain ⟨bound', hupTo'⟩ := h.upTo parcel (List.mem_append_left _ hparcel)
      rw [hkey] at hupTo'
      exact rootKey_eq_of_upTo hideal.generichash hideal.kdf hupTo hupTo'

/-- Every message that the conversation has accepted has an origin: a packet of a peer with the
same message, sealed with the same key. -/
def Matched (conversation : ι → Conversation B) (i : ι) (traffic : Traffic ι B) : Prop :=
  ∃ origins : List (Parcel ι B),
    (∀ parcel ∈ origins, parcel ∈ traffic.sent ∧ parcel.party ≠ i ∧
      (conversation parcel.party).ratchet.rootKey = (conversation i).ratchet.rootKey) ∧
    (traffic.received.filter (·.party = i)).map (fun parcel => (parcel.messageKey, parcel.message)) =
      origins.map fun parcel => (parcel.messageKey, parcel.message)

theorem Matched.step (hideal : Idealised B) (hpoint : ScalarmultFailsByPoint B)
    (hbound : ScalarmultKeyBound B) (htracks : traffic.Tracks conversation)
    (hshares : (conversation i).Shares ours theirs)
    (hknown : ∀ secret ∈ known, (conversation i).Outside ours theirs secret)
    (h : Matched conversation i traffic) (j : ι) (c : Call B)
    (hadmissible : traffic.Admissible known c) : Matched conversation i (traffic.step j c) := by
  obtain ⟨origins, horigins, hmatched⟩ := h
  cases c with
  | send message prekeyMetadata w =>
      refine ⟨origins, fun parcel hparcel => ?_, hmatched⟩
      obtain ⟨hsent, hrest⟩ := horigins parcel hparcel
      exact ⟨List.mem_append_left _ hsent, hrest⟩
  | receive packet w =>
      rcases htracks.received_cases hideal.kdfNonzero hpoint j packet w with
        ⟨-, -, hreceived⟩ |
          ⟨parcel, hparty, -, hused, hmessage, ⟨bound, hupTo⟩, hreceived⟩
      · refine ⟨origins, horigins, ?_⟩
        rw [hreceived]
        exact hmatched
      · rcases eq_or_ne j i with rfl | hne
        · have hspent := (htracks.spent j).call hideal.generichash hideal.kdf hideal.kdfNonzero
            ((htracks.reachable j).wellFormed hideal.kdfNonzero hpoint) (.receive packet w)
          rw [hused] at hspent
          have hnew : parcel.messageKey ∉ traffic.keys j := fun hmem =>
            (List.nodup_append.mp (hspent.nodup hideal.generichash hideal.kdf)).2.2 _ hmem _
              List.mem_cons_self rfl
          obtain ⟨origin, hsent, hkey, hsame, hpeer⟩ := htracks.exists_sent hideal hpoint hbound
            hshares hknown hadmissible hmessage hupTo hnew
          refine ⟨origins ++ [origin], fun other hother => ?_, ?_⟩
          · rcases List.mem_append.mp hother with hold | hlast
            · exact horigins other hold
            · rw [List.mem_singleton.mp hlast]
              exact ⟨hsent, hpeer⟩
          · rw [hreceived, List.filter_append, List.map_append, List.map_append, hmatched]
            simp [hparty, hkey, hsame]
        · refine ⟨origins, horigins, ?_⟩
          rw [hreceived, List.filter_append, List.map_append, hmatched]
          simp [hparty, hne]

/-- The messages that a conversation accepts have been sent by a peer that was created with the
same master key, each of them at most as often as it was sent. -/
theorem accepted_messages_authentic (hideal : Idealised B) (hpoint : ScalarmultFailsByPoint B)
    (hbound : ScalarmultKeyBound B) (hcreated : ∀ i, (conversation i).Created)
    (hshares : (conversation i).Shares ours theirs)
    (hknown : ∀ secret ∈ known, (conversation i).Outside ours theirs secret)
    (h : Reached known conversation traffic) :
    ∃ origins : List (Parcel ι B), origins.Subperm traffic.sent ∧
      (∀ parcel ∈ origins, parcel.party ≠ i ∧
        (conversation parcel.party).ratchet.rootKey = (conversation i).ratchet.rootKey) ∧
      traffic.accepted i = origins.map Parcel.message := by
  have hmatched : Matched conversation i traffic := by
    induction h with
    | start => exact ⟨[], fun parcel hparcel => absurd hparcel List.not_mem_nil, rfl⟩
    | step h j c hadmissible ih =>
        exact ih.step hideal hpoint hbound (h.tracks hideal hpoint hcreated) hshares hknown j c
          hadmissible
  obtain ⟨origins, horigins, hsame⟩ := hmatched
  have hkeys := congrArg (List.map Prod.fst) hsame
  have hmessages := congrArg (List.map Prod.snd) hsame
  rw [List.map_map, List.map_map] at hkeys hmessages
  refine ⟨origins, List.subperm_of_subset ?_ fun parcel hparcel => (horigins parcel hparcel).1,
    fun parcel hparcel => (horigins parcel hparcel).2, hmessages⟩
  have hnodup := ((h.tracks hideal hpoint hcreated).spent i).nodup hideal.generichash hideal.kdf
  rw [keys, List.filter_append, List.map_append] at hnodup
  have hreceived := (List.nodup_append.mp hnodup).2.1
  refine List.Nodup.of_map Parcel.messageKey ?_
  exact hkeys ▸ hreceived

end Secrecy

end Traffic

end

namespace Symbolic

open Conversation Traffic

/-- The ephemeral keys of both parties are those of one of the three Diffie-Hellmans. -/
theorem exists_shares {session : Session ℕ} (h : session.Started) :
    ∃ ours theirs, (session.party .bob).Shares ours theirs := by
  obtain ⟨identity, ephemeral, hcreated⟩ := h.created
  let w : World ℕ := { world with
    random := fun _ size =>
      if hsize : size = 32 then ⟨(session.party .bob).id.bytes, by simp [hsize, Key.length_bytes]⟩
      else Key.zero }
  have hid : w.random 0 32 = (session.party .bob).id := rfl
  have hcreate := create_of_ratchet (hcreated .bob) w
  rw [hid] at hcreate
  exact ⟨_, ephemeral .alice, _, _, _, _, w, _, .both, hcreate⟩

theorem exists_passed_on : ∃ (session : Session ℕ) (ours theirs : PrivateKey ℕ)
    (known : Set (Secret ℕ)) (traffic : Traffic Role ℕ) (parcel : Parcel Role ℕ),
    session.Started ∧ (session.party .bob).Shares ours theirs ∧
      (∀ secret ∈ known, (session.party .bob).Outside ours theirs secret) ∧
      Reached known session.party traffic ∧ traffic.received = [parcel] ∧
      parcel.party = .bob ∧ parcel.message = [1, 2, 3] := by
  obtain ⟨session, h⟩ := exists_session
  obtain ⟨ours, theirs, hshares⟩ := exists_shares h
  obtain ⟨packet, s, r, w', v', hsend, hreceive, -⟩ :=
    h.first_messages idealised .alice [1, 2, 3] none world world
  let known : Set (Secret ℕ) := { secret | ∃ key, secret = .publicKey key }
  have hstart : Reached known session.party (start session.party) := .start
  have htracks := hstart.tracks idealised scalarmultFailsByPoint (created_party h)
  obtain ⟨parcel, -, hpacket, -, ⟨headerKey, header, unpacked, hunpack, -⟩, -, hsent⟩ :=
    htracks.exists_of_send protobufRoundTrip kdfNonzero scalarmultFailsByPoint .alice [1, 2, 3]
      none world
  have hsame : parcel.packet = packet := by
    have hok := congrArg Prod.fst hsend
    exact Except.ok.inj (hpacket.symm.trans hok)
  have hwritten := hstart.step .alice (.send [1, 2, 3] none world) trivial
  have htracks' := hwritten.tracks idealised scalarmultFailsByPoint (created_party h)
  have hadmissible : ((start session.party).step .alice (.send [1, 2, 3] none world)).Admissible
      known (.receive packet world) := by
    intro unpacked' hunpack'
    refine .inr ⟨packet, ?_, unpacked', hunpack', rfl, rfl⟩
    rw [hsent, ← hsame]
    exact List.mem_map_of_mem (List.mem_append_right _ List.mem_cons_self)
  have hbob : ((start session.party).step .alice (.send [1, 2, 3] none world)).conversation .bob =
      session.party .bob := by
    simp [Traffic.step, start]
  rcases htracks'.received_cases kdfNonzero scalarmultFailsByPoint .bob packet world with
    ⟨⟨e, he⟩, -⟩ | ⟨accepted, hparty, ⟨received, hok, hmessage⟩, -, -, -, hreceived⟩
  · rw [hbob, show (session.party .bob).receive packet world = _ from hreceive] at he
    cases he
  · rw [hbob, show (session.party .bob).receive packet world = _ from hreceive] at hok
    cases hok
    exact ⟨session, ours, theirs, known, _, accepted, h, hshares,
      fun secret ⟨key, hkey⟩ => hkey ▸ .publicKey key,
      hwritten.step .bob (.receive packet world) hadmissible, hreceived, hparty, hmessage⟩

/-- Bob has got the message of Alice. -/
theorem accepted_messages_authentic_passed_on :
    ∃ (session : Session ℕ) (traffic : Traffic Role ℕ) (origins : List (Parcel Role ℕ)),
      traffic.accepted .bob = [[1, 2, 3]] ∧ origins.Subperm traffic.sent ∧
      (∀ parcel ∈ origins, parcel.party ≠ .bob ∧
        (session.party parcel.party).ratchet.rootKey = (session.party .bob).ratchet.rootKey) ∧
      traffic.accepted .bob = origins.map Parcel.message := by
  obtain ⟨session, ours, theirs, known, traffic, parcel, h, hshares, hknown, hreached, hreceived,
    hparty, hmessage⟩ := exists_passed_on
  obtain ⟨origins, hsubperm, hpeers, hmessages⟩ := accepted_messages_authentic idealised
    scalarmultFailsByPoint scalarmultKeyBound (created_party h) hshares hknown hreached
  refine ⟨session, traffic, origins, ?_, hsubperm, hpeers, hmessages⟩
  rw [accepted, hreceived]
  simp [hparty, hmessage]

/-- The key of the message that Bob has got remains a secret. -/
theorem message_keys_secret_passed_on :
    ∃ (known : Set (Secret ℕ)) (traffic : Traffic Role ℕ) (parcel : Parcel Role ℕ),
      parcel ∈ traffic.received ∧ parcel.message = [1, 2, 3] ∧
      ¬ Derivable DerivesAll known (.messageKey parcel.messageKey) := by
  obtain ⟨session, ours, theirs, known, traffic, parcel, h, hshares, hknown, hreached, hreceived,
    hparty, hmessage⟩ := exists_passed_on
  have hmem : parcel ∈ traffic.received := by
    rw [hreceived]
    exact List.mem_cons_self
  exact ⟨known, traffic, parcel, hmem, hmessage, message_keys_secret idealised
    scalarmultFailsByPoint scalarmultKeyBound (created_party h) hshares hknown hreached
    (List.mem_append_right _ hmem) hparty⟩

end Symbolic

end Molch
