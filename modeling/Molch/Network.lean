import Molch.Isolation

/-!
Two libraries and the network between them. Each library has one of two conversations that
belong together, and is used for other things as well; the conversations still go through a
session of two parties that know of nothing else.
-/

namespace Molch

variable {B : Type}

/-- What a party of a session does for a call of its conversation. A packet that it receives so
is not one of its peer. -/
def Conversation.Call.action (role : Role) : Conversation.Call B → Action B
  | .send message prekeyMetadata w => .send role message prekeyMetadata w
  | .receive packet w => .inject role packet w

namespace Session

variable [Byte B] [Sodium B] [ProtobufC B] [Platform]

theorem party_step_action (session : Session B) (role : Role) (c : Conversation.Call B) :
    (session.step (c.action role)).party =
      Function.update session.party role ((session.party role).call c).2 := by
  cases c with
  | send message prekeyMetadata w =>
      rw [Conversation.Call.action, step, Conversation.call]
      split
      · rename_i hsend
        rw [hsend]
      · rename_i hsend _
        rw [hsend]
  | receive packet w => rfl

theorem party_foldl_action (session : Session B) (role : Role)
    (calls : List (Conversation.Call B)) :
    ((calls.map (Conversation.Call.action role)).foldl step session).party =
      Function.update session.party role
        (Runs.final Conversation.call (session.party role) calls) := by
  induction calls generalizing session with
  | nil => exact (Function.update_eq_self role session.party).symm
  | cons c calls ih =>
      rw [List.map_cons, List.foldl_cons, ih, party_step_action, Function.update_self,
        Function.update_idem]
      rfl

theorem party_step_deliver {session : Session B} {role : Role} {k : ℕ} {sent : Sent B}
    (hsent : (session.sent role.other)[k]? = some sent) (w : World B) :
    (session.step (.deliver role k w)).party =
      Function.update session.party role ((session.party role).call (.receive sent.packet w)).2 := by
  rw [step, hsent]
  rfl

end Session

/-- The libraries, and what has gone on between the two conversations. -/
structure Network (B : Type) where
  library : Role → Library B × World B
  session : Session B

namespace Network

/-- A call of the interface, or the call that decrypts a packet of the peer, which is named by
its index. -/
inductive Event (B : Type) where
  | call (role : Role) (c : Library.Call B)
  | deliver (role : Role) (k : ℕ) (createBackup : Bool)

variable [Byte B] [Sodium B] [ProtobufC B] [Platform]

section Steps

variable (id : Role → ConversationId B) (network : Network B)

def actions : Event B → List (Action B)
  | .call role c =>
      (Library.conversationCalls (id role) (network.library role) c).map
        (Conversation.Call.action role)
  | .deliver role k _ => [.deliver role k (network.library role).2]

/-- The call of a library that an event is, if there is such a packet. -/
def Event.libraryCall : Event B → Option (Role × Library.Call B)
  | .call role c => some (role, c)
  | .deliver role k createBackup =>
      (network.session.sent role.other)[k]?.map fun sent =>
        (role, .decryptMessage (id role) sent.packet createBackup)

def step (event : Event B) : Network B where
  library :=
    match event.libraryCall id network with
    | none => network.library
    | some (role, c) =>
        Function.update network.library role (Library.call (network.library role) c).2
  session := (network.actions id event).foldl Session.step network.session

/-- The two conversations stay where they are, and the session admits what happens to them. -/
structure Admissible (event : Event B) : Prop where
  spares : ∀ role c, event.libraryCall id network = some (role, c) →
    Library.Spares (id role) (network.library role) c
  admissible : ∀ action ∈ network.actions id event, network.session.Admissible action

end Steps

/-- The networks that an interleaving of calls of both libraries can lead to. -/
inductive Reached (id : Role → ConversationId B) : Network B → Prop
  | start {network : Network B} (hsession : network.session.Reached)
      (hparty : ∀ role, UserStore.conversationOf (id role) (network.library role).1.users =
        some (network.session.party role)) : Reached id network
  | step {network : Network B} {event : Event B} (h : Reached id network)
      (hadmissible : network.Admissible id event) : Reached id (network.step id event)

section Coherence

variable {id : Role → ConversationId B} {network : Network B} {event : Event B} {role : Role}
  {c : Library.Call B}

omit [Sodium B] [ProtobufC B] [Platform] in
theorem actions_cases (id : Role → ConversationId B) (network : Network B) (event : Event B) :
    network.actions id event = [] ∨ ∃ action, network.actions id event = [action] := by
  cases event with
  | call role c =>
      rcases Library.conversationCalls_cases (id role) (network.library role) c with
        hnone | ⟨createBackup, ⟨message, rfl⟩ | ⟨packet, rfl⟩⟩
      · exact .inl (by rw [actions, hnone]; rfl)
      · exact .inr ⟨_, by rw [actions, Library.conversationCalls, if_pos rfl]; rfl⟩
      · exact .inr ⟨_, by rw [actions, Library.conversationCalls, if_pos rfl]; rfl⟩
  | deliver role k createBackup => exact .inr ⟨_, rfl⟩

theorem session_step (h : network.session.Reached) (hadmissible : network.Admissible id event) :
    (network.step id event).session.Reached := by
  have hactions := hadmissible.admissible
  rw [step]
  rcases actions_cases id network event with hnone | ⟨action, haction⟩
  · rw [hnone]
    exact h
  · rw [haction] at hactions ⊢
    exact h.step (hactions action List.mem_cons_self)

theorem party_step (hcall : event.libraryCall id network = some (role, c)) :
    (network.step id event).session.party = Function.update network.session.party role
      (Runs.final Conversation.call (network.session.party role)
        (Library.conversationCalls (id role) (network.library role) c)) := by
  cases event with
  | call role' c' =>
      cases hcall
      exact network.session.party_foldl_action role _
  | deliver role' k createBackup =>
      obtain ⟨sent, hsent, heq⟩ := Option.map_eq_some_iff.mp hcall
      cases heq
      rw [Library.conversationCalls, if_pos rfl]
      exact Session.party_step_deliver hsent (network.library role).2

theorem library_step (hcall : event.libraryCall id network = some (role, c)) :
    (network.step id event).library =
      Function.update network.library role (Library.call (network.library role) c).2 := by
  rw [step, hcall]

def Coherent (id : Role → ConversationId B) (network : Network B) : Prop :=
  ∀ role, UserStore.conversationOf (id role) (network.library role).1.users =
    some (network.session.party role)

theorem Coherent.step (h : network.Coherent id) (hadmissible : network.Admissible id event) :
    (network.step id event).Coherent id := by
  cases hcall : event.libraryCall id network with
  | none =>
      have hparty : (network.step id event).session.party = network.session.party := by
        cases event with
        | call role c => cases hcall
        | deliver role k createBackup =>
            have hnone := Option.map_eq_none_iff.mp hcall
            change (network.session.step (.deliver role k _)).party = _
            rw [Session.step, hnone]
      intro role
      rw [hparty, Network.step, hcall]
      exact h role
  | some called =>
      obtain ⟨role, c⟩ := called
      intro role'
      rw [party_step hcall, library_step hcall]
      rcases eq_or_ne role' role with rfl | hne
      · rw [Function.update_self, Function.update_self]
        exact (Library.call_own (hadmissible.spares role' c hcall) (h role')).1
      · rw [Function.update_of_ne hne, Function.update_of_ne hne]
        exact h role'

/-- Whatever both libraries are used for, the conversations go through a session of two parties
that are on their own. -/
theorem Reached.session (h : network.Reached id) :
    network.session.Reached ∧ network.Coherent id := by
  induction h with
  | start hsession hparty => exact ⟨hsession, hparty⟩
  | step h hadmissible ih =>
      exact ⟨session_step ih.1 hadmissible, ih.2.step hadmissible⟩

end Coherence

section Delivery

variable {id : Role → ConversationId B} {network : Network B} {role : Role}

/-- A packet of the peer is decrypted the first time the library gets it, and rejected every
time after that, whatever else both libraries have done in between. -/
theorem decrypted_exactly_once (hideal : Idealised B) (h : network.Reached id) {k : ℕ}
    {sent : Sent B} (hsent : (network.session.sent role.other)[k]? = some sent)
    (createBackup : Bool) (hadmissible : network.Admissible id (.deliver role k createBackup)) :
    (k ∉ network.session.delivered role →
      ∃ backup : Except Failure (Option (List B)), (createBackup = false → backup = .ok none) ∧
        (Library.call (network.library role)
          (.decryptMessage (id role) sent.packet createBackup)).1 =
            backup.map (.decryptedMessage sent.message sent.messageNumber
              sent.previousMessageNumber)) ∧
    (k ∈ network.session.delivered role →
      ∃ e, (Library.call (network.library role)
        (.decryptMessage (id role) sent.packet createBackup)).1 = .error (.error e)) := by
  obtain ⟨hsession, hcoherent⟩ := h.session
  obtain ⟨hfirst, hagain, -⟩ := (hsession.safe hideal).deliver hideal hsent
    (hadmissible.admissible _ List.mem_cons_self)
  obtain ⟨-, hanswers⟩ := Library.decryptMessage_own (hcoherent role) sent.packet createBackup
    (w := (network.library role).2)
  constructor
  · intro hnew
    rw [hfirst hnew] at hanswers
    exact hanswers.of_received
  · intro hold
    obtain ⟨e, he⟩ := hagain hold
    rw [he] at hanswers
    exact hanswers.of_notReceived

/-- A message can always be encrypted, and its packet is the next one in the log. Only the
backup can fail. -/
theorem encrypted_and_logged (hideal : Idealised B) (h : network.Reached id) (role : Role)
    (message : List B) (createBackup : Bool) :
    ∃ packet messageNumber previousMessageNumber, ∃ backup : Except Failure (Option (List B)),
      (createBackup = false → backup = .ok none) ∧
      (Library.call (network.library role) (.encryptMessage (id role) message createBackup)).1 =
        backup.map (.encryptedMessage packet) ∧
      (network.step id (.call role (.encryptMessage (id role) message createBackup))).session.sent
          role = network.session.sent role ++
            [⟨packet, message, messageNumber, previousMessageNumber⟩] := by
  obtain ⟨hsession, hcoherent⟩ := h.session
  obtain ⟨data, ratchet, w', hdata, hempty⟩ :=
    (hsession.safe hideal).getSendData hideal role (network.library role).2
  obtain ⟨packet, w'', hsend, -⟩ := Conversation.send_of_getSendData hdata hempty message none
  obtain ⟨-, hanswers⟩ := Library.encryptMessage_own (hcoherent role) message createBackup
    (w := (network.library role).2)
  rw [hsend] at hanswers
  obtain ⟨backup, hbackup, hreply⟩ := hanswers.of_sent
  refine ⟨packet, data.messageNumber, data.previousMessageNumber, backup, hbackup, hreply, ?_⟩
  rw [step, actions, Library.conversationCalls, if_pos rfl]
  simp only [List.map_cons, List.map_nil, List.foldl_cons, List.foldl_nil,
    Conversation.Call.action, Session.step, hdata, hsend, Function.update_self]

end Delivery

end Network

namespace Symbolic

open Network

theorem steady_world : world.Steady := by
  intro i j
  change (0 : ℤ) - maximumAge < 0 + maximumAge
  decide

theorem exists_network : ∃ (id : Role → ConversationId ℕ) (network : Network ℕ) (sent : Sent ℕ),
    network.Reached id ∧ (network.session.sent .bob)[0]? = some sent ∧ sent.message = [1, 2, 3] ∧
      network.session.delivered .alice = [] ∧
      network.Admissible id (.deliver .alice 0 false) := by
  obtain ⟨start, hstart⟩ := exists_session
  have hfirst := hstart.send_first [1, 2, 3] steady_world
  simp only at hfirst
  obtain ⟨hsend, ⟨sent, hsent, hmessage⟩, hdelivered, hdeliver⟩ := hfirst
  have hsession : (start.step (.send .bob [1, 2, 3] none world)).Reached :=
    (Session.Reached.start hstart).step hsend
  generalize start.step (.send .bob [1, 2, 3] none world) = session at *
  choose owner howner using fun role => exists_owner (session.party role)
  let network : Network ℕ := ⟨fun role => (⟨[owner role], none⟩, world), session⟩
  refine ⟨fun role => (session.party role).id, network, sent, ?_, hsent, hmessage, ?_, ?_, ?_⟩
  · exact .start hsession howner
  · rw [hdelivered, hstart.delivered]
  · intro role c hcall
    obtain ⟨_, -, hcalled⟩ := Option.map_eq_some_iff.mp hcall
    cases hcalled
    trivial
  · intro action haction
    rw [List.mem_singleton.mp haction]
    exact hdeliver

/-- The message is decrypted. -/
theorem decrypted_exactly_once_first_message :
    ∃ (id : Role → ConversationId ℕ) (network : Network ℕ) (sent : Sent ℕ),
      (network.session.sent .bob)[0]? = some sent ∧
      (Library.call (network.library .alice)
        (.decryptMessage (id .alice) sent.packet false)).1 = .ok (.decryptedMessage [1, 2, 3]
          sent.messageNumber sent.previousMessageNumber none) := by
  obtain ⟨id, network, sent, hreached, hsent, hmessage, hdelivered, hadmissible⟩ := exists_network
  obtain ⟨hfirst, -⟩ := decrypted_exactly_once idealised hreached hsent false hadmissible
  obtain ⟨backup, hbackup, hreply⟩ := hfirst (by rw [hdelivered]; exact List.not_mem_nil)
  refine ⟨id, network, sent, hsent, ?_⟩
  rw [hreply, hbackup rfl, hmessage]
  rfl

/-- Alice answers. -/
theorem encrypted_and_logged_reply :
    ∃ (id : Role → ConversationId ℕ) (network : Network ℕ) (packet : List ℕ),
      (Library.call (network.library .alice) (.encryptMessage (id .alice) [4] false)).1 =
        .ok (.encryptedMessage packet none) := by
  obtain ⟨id, network, sent, hreached, -⟩ := exists_network
  obtain ⟨packet, _, _, backup, hbackup, hreply, -⟩ :=
    encrypted_and_logged idealised hreached .alice [4] false
  refine ⟨id, network, packet, ?_⟩
  rw [hreply, hbackup rfl]
  rfl

end Symbolic

end Molch
