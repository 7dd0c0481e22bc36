import Molch.Establishment
import Molch.Foundation.Runs
import Molch.Retention
import Molch.UsedKeys
import Mathlib.Data.List.ReduceOption

namespace Molch

open Sodium

variable {B : Type} [Byte B] [Sodium B]

variable [ProtobufC B]

namespace Conversation

theorem SkippedLeft.messageKeys_subperm {conversation : Conversation B}
    {packet : List B} {left : HeaderAndMessageKeyStore B}
    (h : conversation.SkippedLeft packet left) :
    left.messageKeys.Subperm conversation.ratchet.skippedHeaderAndMessageKeys.messageKeys := by
  cases h with
  | all => exact List.Subperm.refl _
  | removed => exact map_messageKey_subperm (List.eraseIdx_sublist _ _).subperm

variable [Platform]

/-- A new sending chain is started only while no purported root key is stored. -/
def StartsClean (conversation : Conversation B) : Call B → Prop
  | .send _ _ _ => conversation.ratchet.ratchetFlag = true →
      conversation.ratchet.purportedRootKey.empty = true
  | .receive _ _ => True

variable {conversation conversation' : Conversation B} {packet : List B} {w : World B}

/-- The keys belong to places that the ratchet counts as used. -/
def Protects (conversation : Conversation B) (keys : List (MessageKey B)) : Prop :=
  ∃ (schedule : Schedule B) (newest : ℕ) (used skipped : List Place),
    keys = used.map schedule.messageKey ∧
      conversation.ratchet.Retains schedule newest used skipped

variable {keys : List (MessageKey B)}

theorem Protects.receive (hkdf : KdfNonzero B) (hwell : conversation.ratchet.WellFormed)
    (h : conversation.Protects keys) (packet : List B) (w : World B) :
    (conversation.receive packet w).2.1.Protects
      (keys ++ (conversation.usedKey (.receive packet w)).toList) := by
  obtain ⟨schedule, newest, used, skipped, rfl, hretains⟩ := h
  have hchain : conversation.ratchet.receiveHeaderKey.isNone = false →
      conversation.ratchet.receiveChainKey.empty = false :=
    fun hnone => EmptyableKey.empty_eq_false_of_isNone (hwell.receiveChainKey hnone)
  have hcases := WellFormed.receive_cases hkdf hwell packet w
  rw [usedKey]
  generalize (conversation.receive packet w).1 = result at hcases ⊢
  generalize (conversation.receive packet w).2.1 = conversation' at hcases ⊢
  cases hcases with
  | skipped hfound hheader =>
      obtain ⟨node, hnode, -⟩ := firstDecryption_eq_some hfound
      obtain ⟨place, hkey, hremoved⟩ := hretains.remove hnode
      simp only [keyForPacket_skipped hfound hheader, hnode, Option.map_some, hkey]
      exact ⟨schedule, newest, _, _, by rw [List.map_append]; rfl, hremoved⟩
  | rejected hleft hpurports =>
      simp only [Option.toList_none, List.append_nil]
      exact ⟨schedule, newest, used, skipped, rfl, hretains.settle hchain hpurports
        (hleft.messageKeys_subperm.trans hretains.skippedKeys)⟩
  | currentChain hleft hopen hheader hnone hskip hcount hstaged hmessage =>
      rename_i left header message extracted count staged
      obtain ⟨place, skipped', hkey, haccepted⟩ := hretains.acceptCurrent (hchain hnone)
        (hleft.messageKeys_subperm.trans hretains.skippedKeys) count extracted.messageNumber
        conversation.ratchet.receiveHeaderKey w staged.2
      simp only [keyForPacket_currentChain hwell hleft hopen hheader hnone hskip w, ← hcount, hkey]
      subst hstaged
      exact ⟨schedule, newest, _, skipped', by rw [List.map_append]; rfl, haccepted⟩
  | nextChain hleft hcurrent hopen hheader hflag hrest hderived hskip hstagedRest hstaged
      hmessage =>
      rename_i left header message extracted derived rest staged
      have hused := keyForPacket_nextChain hkdf hwell hleft hcurrent hopen hheader hflag hrest
        hderived hskip w
      obtain ⟨-, secret, -, rfl⟩ := exists_of_derived hderived
      obtain ⟨schedule', hnew, hkeys, hretains'⟩ := hretains.extend
        (cryptoGenerichash secret.bytes conversation.ratchet.rootKey.key.bytes)
      obtain ⟨place, skipped', hkey, haccepted⟩ := hretains'.acceptNext hflag
        (hleft.messageKeys_subperm.trans hretains'.skippedKeys) hnew
        extracted.theirPublicEphemeral extracted.messageNumber extracted.previousMessageNumber
        extracted.messageNumber.toNat conversation.ratchet.nextReceiveHeaderKey w rest.2 staged.2
      rw [hnew] at hkey haccepted
      simp only [hused, hkey, ← hkeys]
      subst hstaged hstagedRest
      exact ⟨schedule', newest + 1, _, skipped', by rw [List.map_append]; rfl, haccepted⟩

theorem Protects.send (hwell : conversation.ratchet.WellFormed)
    (h : conversation.Protects keys) {message : List B}
    {prekeyMetadata : Option (PrekeyMetadata B)} {w : World B}
    (hclean : conversation.StartsClean (.send message prekeyMetadata w)) :
    (conversation.send message prekeyMetadata w).2.1.Protects
      (keys ++ (conversation.usedKey (.send message prekeyMetadata w)).toList) := by
  obtain ⟨schedule, newest, used, skipped, rfl, hretains⟩ := h
  rw [usedKey]
  cases hflag : conversation.ratchet.ratchetFlag with
  | false =>
      obtain ⟨headerKey, hheader⟩ := hwell.sendHeaderKey hflag
      have hempty := EmptyableKey.empty_eq_false_of_isNone (hwell.sendChainKey hflag)
      have hdata := Ratchet.getSendData_of_chain hflag hempty hheader w
      obtain ⟨packet, w', hsend, -⟩ := send_of_getSendData hdata rfl message prekeyMetadata
      obtain ⟨place, hkey, hadvanced⟩ := hretains.advanceSendChain hflag hempty
      simp only [hdata, hsend, Ratchet.sendData, hkey]
      exact ⟨schedule, newest, _, skipped, by rw [List.map_append]; rfl, hadvanced⟩
  | true =>
      obtain ⟨derived, hderived⟩ := exists_derived hwell.rootKey
        (hwell.theirEphemeral (w.random 0 32)) conversation.ratchet.role
      have hdata := Ratchet.getSendData_of_flag hflag hderived
      obtain ⟨packet, w', hsend, -⟩ := send_of_getSendData hdata hwell.nextSendHeaderKey message
        prekeyMetadata
      obtain ⟨-, secret, -, rfl⟩ := exists_of_derived hderived
      obtain ⟨schedule', hnew, hkeys, hretains'⟩ := hretains.extend
        (cryptoGenerichash secret.bytes conversation.ratchet.rootKey.key.bytes)
      have hstarted := hretains'.withSendChain hflag (hclean hflag) hnew (w.random 0 32)
      rw [hnew] at hstarted
      obtain ⟨place, hkey, hadvanced⟩ := hstarted.advanceSendChain rfl rfl
      simp only [hdata, hsend, Ratchet.sendData, hkey, ← hkeys]
      exact ⟨schedule', newest + 1, _, skipped, by rw [List.map_append]; rfl, hadvanced⟩

omit [ProtobufC B] [Platform] in
theorem Created.protects (h : conversation.Created) : conversation.Protects [] := by
  obtain ⟨_, _, _, _, _, _, w, w', -, hcreate⟩ := h
  obtain ⟨role, masterKey, -, hmaster, heq⟩ :=
    Ratchet.exists_of_create (ratchet_of_create hcreate)
  obtain ⟨-, input, rfl⟩ := exists_of_tripleDiffieHellman hmaster
  refine ⟨fun _ => ⟨cryptoGenerichash input [], Key.zero⟩, 0, [], [], rfl, ?_⟩
  rw [heq]
  exact .ofInitialKeys rfl role _ _ _ _ _

theorem Protects.run (hkdf : KdfNonzero B) (hpoint : ScalarmultFailsByPoint B)
    (hreachable : Reachable (fun _ => True) conversation) (h : conversation.Protects keys)
    {calls : List (Call B)} (hclean : Runs.Admitted callWithKey StartsClean conversation calls) :
    (Runs.final callWithKey conversation calls).Protects
      (keys ++ (Runs.outputs callWithKey conversation calls).reduceOption) := by
  induction calls generalizing conversation keys with
  | nil => simpa [Runs.final, Runs.outputs] using h
  | cons c calls ih =>
      have hwell := hreachable.wellFormed hkdf hpoint
      have hnext : (conversation.call c).2.Protects
          (keys ++ (conversation.usedKey c).toList) := by
        cases c with
        | send message prekeyMetadata w => exact h.send hwell hclean.head
        | receive packet w => exact h.receive hkdf hwell packet w
      have hrun := ih (hreachable.call c) hnext hclean.tail
      rw [List.append_assoc] at hrun
      rw [Runs.final, Runs.outputs, callWithKey]
      cases hused : conversation.usedKey c with
      | none => simpa [hused] using hrun
      | some key => simpa [hused] using hrun

end Conversation

namespace Ratchet

/-- While the ratchet waits for a new sending chain, the purported root key is empty or the
root key itself. -/
def LeavesRootKey (ratchet : Ratchet B) : Prop :=
  ratchet.ratchetFlag = true →
    ratchet.purportedRootKey.empty = true ∨ ratchet.purportedRootKey = ratchet.rootKey

omit [ProtobufC B] in
theorem WellFormed.ratchetFlag_getSendData {ratchet : Ratchet B} (h : ratchet.WellFormed)
    (w : World B) : (ratchet.getSendData w).2.1.ratchetFlag = false := by
  cases hflag : ratchet.ratchetFlag with
  | false =>
      obtain ⟨headerKey, hheader⟩ := h.sendHeaderKey hflag
      rw [getSendData_of_chain hflag
        (EmptyableKey.empty_eq_false_of_isNone (h.sendChainKey hflag)) hheader]
      exact hflag
  | true =>
      obtain ⟨derived, hderived⟩ := exists_derived h.rootKey (h.theirEphemeral (w.random 0 32))
        ratchet.role
      rw [getSendData_of_flag hflag hderived]
      rfl

end Ratchet

namespace Conversation

variable {conversation : Conversation B}

omit [ProtobufC B] in
theorem Created.leavesRootKey (h : conversation.Created) :
    conversation.ratchet.LeavesRootKey := by
  obtain ⟨_, _, _, _, _, _, w, w', -, hcreate⟩ := h
  obtain ⟨role, masterKey, -, -, heq⟩ := Ratchet.exists_of_create (ratchet_of_create hcreate)
  rw [heq]
  exact fun _ => .inl rfl

variable [Platform]

/-- A sending chain that is started over a purported root key can be derived once more. -/
theorem send_recoverable (hwell : conversation.ratchet.WellFormed)
    (hflag : conversation.ratchet.ratchetFlag = true)
    (hleft : conversation.ratchet.purportedRootKey = conversation.ratchet.rootKey)
    (message : List B) (prekeyMetadata : Option (PrekeyMetadata B)) (w : World B) :
    ∃ key, conversation.usedKey (.send message prekeyMetadata w) = some key ∧
      (conversation.call (.send message prekeyMetadata w)).2.ratchet.Recoverable key := by
  obtain ⟨derived, hderived⟩ := exists_derived hwell.rootKey
    (hwell.theirEphemeral (w.random 0 32)) conversation.ratchet.role
  have hdata := Ratchet.getSendData_of_flag hflag hderived
  obtain ⟨packet, w', hsend, -⟩ := send_of_getSendData hdata hwell.nextSendHeaderKey message
    prekeyMetadata
  refine ⟨derived.chainKey.messageKey, ?_, ?_⟩
  · rw [usedKey, hdata, hsend]
    rfl
  · rw [call, hsend]
    have hchain : Derivable Derives
        ((conversation.ratchet.withSendChain (w.random 0 32)
          derived).advanceSendChain.toRatchetStorage.Holds)
        (.chainKey (.ofKey derived.chainKey)) := by
      rw [← hleft] at hderived
      refine .rule ?_ (.chainKey hderived)
      simp only [List.forall_mem_cons, List.not_mem_nil, false_implies, implies_true, and_true]
      exact ⟨.held .ourPrivateEphemeral, .held .ourPublicEphemeral, .held .theirPublicEphemeral,
        .held .purportedRootKey⟩
    refine .inr (.inr (.rule ?_ (.messageKey
      (EmptyableKey.deriveMessageKey_ofKey derived.chainKey))))
    rintro secret hsecret
    rw [List.mem_singleton.mp hsecret]
    exact hchain

theorem leavesRootKey_call (hkdf : KdfNonzero B) (hwell : conversation.ratchet.WellFormed)
    (h : conversation.ratchet.LeavesRootKey) (c : Call B) :
    (conversation.call c).2.ratchet.LeavesRootKey := by
  cases c with
  | send message prekeyMetadata w =>
      obtain ⟨data, ratchet, w', hdata, hkey, -⟩ := hwell.getSendData hkdf w
      obtain ⟨packet, w'', hsend, -⟩ := send_of_getSendData hdata hkey message prekeyMetadata
      rw [call, hsend]
      intro htrue
      have hflag := hwell.ratchetFlag_getSendData w
      rw [hdata] at hflag
      exact absurd (htrue.symm.trans hflag) (by decide)
  | receive packet w =>
      have hcases := WellFormed.receive_cases hkdf hwell packet w
      change (conversation.receive packet w).2.1.ratchet.LeavesRootKey
      generalize (conversation.receive packet w).1 = result at hcases
      generalize (conversation.receive packet w).2.1 = conversation' at hcases ⊢
      cases hcases with
      | skipped hfound hheader => exact h
      | rejected hleft hpurports =>
          intro htrue
          cases hpurports with
          | nextChain theirEphemeral messageNumber previousNumber derived count hflag hderived =>
              exact absurd (htrue.symm.trans hflag) (by decide)
          | _ => exact h htrue
      | currentChain => exact h
      | nextChain => exact fun _ => .inr rfl

/-- The keys of the messages sent and received in a run cannot be recovered in any state of the
run if and only if every sending chain is started while no purported root key is stored. -/
theorem used_keys_not_recoverable_iff (hhash : GenerichashInjective B) (hkdf : KdfInjective B)
    (hnonzero : KdfNonzero B) (hpoint : ScalarmultFailsByPoint B) (h : conversation.Created)
    (calls : List (Call B)) :
    (∀ before after, calls = before ++ after →
      ∀ key, some key ∈ Runs.outputs callWithKey conversation before →
        ¬ (Runs.final callWithKey conversation before).ratchet.Recoverable key) ↔
      Runs.Admitted callWithKey StartsClean conversation calls := by
  constructor
  · intro hsecret before c after heq
    have hinvariant : Reachable (fun _ => True) (Runs.final callWithKey conversation before) ∧
        (Runs.final callWithKey conversation before).ratchet.LeavesRootKey := by
      have hall : Runs.Admitted callWithKey (fun _ _ => True) conversation before :=
        fun _ _ _ _ => trivial
      refine hall.invariant (fun state => Reachable (fun _ => True) state ∧
        state.ratchet.LeavesRootKey) ?_ ⟨h.reachable, h.leavesRootKey⟩
      rintro state c ⟨hreachable, hleaves⟩ -
      exact ⟨hreachable.call c, leavesRootKey_call hnonzero
        (hreachable.wellFormed hnonzero hpoint) hleaves c⟩
    obtain ⟨hreachable, hleaves⟩ := hinvariant
    cases c with
    | receive packet w => trivial
    | send message prekeyMetadata w =>
        intro hflag
        rcases hleaves hflag with hempty | hleft
        · exact hempty
        · exfalso
          obtain ⟨key, hused, hrecoverable⟩ := send_recoverable
            (hreachable.wellFormed hnonzero hpoint) hflag hleft message prekeyMetadata w
          refine hsecret (before ++ [.send message prekeyMetadata w]) after (by simpa using heq)
            key ?_ ?_
          · rw [Runs.outputs_append, Runs.outputs, callWithKey, hused]
            exact List.mem_append_right _ List.mem_cons_self
          · rw [Runs.final_append]
            exact hrecoverable
  · rintro hclean before after rfl key hkey
    obtain ⟨schedule, newest, used, skipped, hkeys, hretains⟩ :=
      h.protects.run hnonzero hpoint h.reachable hclean.prefix_of_append
    rw [List.nil_append] at hkeys
    have hmem := List.reduceOption_mem_iff.mpr hkey
    rw [hkeys] at hmem
    obtain ⟨place, hplace, rfl⟩ := List.mem_map.mp hmem
    exact hretains.not_recoverable hhash hkdf hplace

end Conversation

namespace Symbolic

open Conversation

theorem created_party {session : Session ℕ} (h : session.Started) (role : Role) :
    (session.party role).Created := by
  obtain ⟨identity, ephemeral, hcreated⟩ := h.created
  let w : World ℕ := { world with
    random := fun _ size =>
      if hsize : size = 32 then ⟨(session.party role).id.bytes, by simp [hsize, Key.length_bytes]⟩
      else Key.zero }
  have hid : w.random 0 32 = (session.party role).id := rfl
  have hcreate := create_of_ratchet (hcreated role) w
  rw [hid] at hcreate
  exact ⟨_, _, _, _, _, _, w, _, rfl, hcreate⟩

/-- Bob gets the first message of Alice and answers: the key of his answer can be derived from
what his ratchet stores. -/
theorem used_key_recoverable_after_answer :
    ∃ (alice alice' bob : Conversation ℕ) (packet : List ℕ) (w : World ℕ) (key : MessageKey ℕ),
      alice.Created ∧ bob.Created ∧
      alice.send [1, 2, 3] none world = (.ok packet, alice', w) ∧
      (bob.receive packet world).1 = .ok ⟨0, 0, [1, 2, 3]⟩ ∧
      some key ∈ Runs.outputs callWithKey bob
        [.receive packet world, .send [4, 5, 6] none world] ∧
      (Runs.final callWithKey bob
        [.receive packet world, .send [4, 5, 6] none world]).ratchet.Recoverable key := by
  obtain ⟨session, h⟩ := exists_session
  obtain ⟨packet, alice', bob', w, v, hsend, hreceive, -, -⟩ :=
    h.first_messages idealised .alice [1, 2, 3] none world world
  obtain ⟨hflag, -, hleft⟩ := h.flag_of_receive idealised hreceive
  have hbob := created_party h .bob
  have hreachable := hbob.reachable.receive packet (w := world) trivial
  rw [show (session.party .bob).receive packet world = _ from hreceive] at hreachable
  obtain ⟨key, hused, hrecoverable⟩ := send_recoverable
    (hreachable.wellFormed kdfNonzero scalarmultFailsByPoint) hflag (hleft rfl) [4, 5, 6] none
    world
  have hstate : ((session.party .bob).call (.receive packet world)).2 = bob' := by
    rw [call, show (session.party .bob).receive packet world = _ from hreceive]
  refine ⟨session.party .alice, alice', session.party .bob, packet, w, key,
    created_party h .alice, hbob, hsend, ?_, ?_, ?_⟩
  · rw [show (session.party .bob).receive packet world = _ from hreceive]
  · simp only [Runs.outputs, callWithKey, hstate, hused]
    exact List.mem_cons_of_mem _ List.mem_cons_self
  · simp only [Runs.final, callWithKey, hstate]
    exact hrecoverable

/-- Bob is ready for more after he has got the first message of Alice and answered. -/
theorem answered_state_is_consistent :
    ∃ (bob bob' : Conversation ℕ) (packet answer : List ℕ) (w : World ℕ), bob.Created ∧
      (bob.receive packet world).1 = .ok ⟨0, 0, [1, 2, 3]⟩ ∧
      (bob.receive packet world).2.1.send [4, 5, 6] none world = (.ok answer, bob', w) ∧
      bob'.Reachable (fun _ => True) ∧ bob'.ratchet.rootKey.empty = false ∧
      (bob'.ratchet.ratchetFlag = false → bob'.ratchet.sendHeaderKey.isSome ∧
        bob'.ratchet.sendChainKey.isNone = false ∧
        IsKeyPair bob'.ratchet.ourPrivateEphemeral bob'.ratchet.ourPublicEphemeral) ∧
      ∀ w, ∃ data, (bob'.ratchet.getSendData w).1 = .ok data := by
  obtain ⟨session, h⟩ := exists_session
  obtain ⟨packet, alice', bob', w, v, -, hreceive, -, hanswer⟩ :=
    h.first_messages idealised .alice [1, 2, 3] none world world
  obtain ⟨answer, bob'', w', hsend, -⟩ := hanswer [4, 5, 6] world world
  have hbob := created_party h .bob
  have hreceived := hbob.reachable.receive packet (w := world) trivial
  rw [show (session.party .bob).receive packet world = _ from hreceive] at hreceived
  have hanswered := hreceived.send [4, 5, 6] none (w := world) trivial
  rw [hsend] at hanswered
  obtain ⟨-, -, -, hroot, -, -, hchain, -, hdata, -⟩ :=
    reachable_state_is_consistent kdfNonzero scalarmultFailsByPoint hanswered
  refine ⟨session.party .bob, bob'', packet, answer, w', hbob, ?_, ?_, hanswered, hroot, hchain,
    hdata⟩
  · rw [show (session.party .bob).receive packet world = _ from hreceive]
  · rw [show (session.party .bob).receive packet world = _ from hreceive]
    exact hsend

/-- A conversation that has just been created satisfies the condition for every list of
packets it may get. -/
theorem used_keys_not_recoverable_before_answer :
    ∃ conversation : Conversation ℕ, conversation.Created ∧ ∀ packets : List (List ℕ),
      ∀ before after, packets.map (fun packet => Call.receive packet world) = before ++ after →
        ∀ key, some key ∈ Runs.outputs callWithKey conversation before →
          ¬ (Runs.final callWithKey conversation before).ratchet.Recoverable key := by
  obtain ⟨session, h⟩ := exists_session
  refine ⟨session.party .bob, created_party h .bob, fun packets => ?_⟩
  rw [used_keys_not_recoverable_iff generichashInjective kdfInjective kdfNonzero
    scalarmultFailsByPoint (created_party h .bob)]
  intro before c after heq
  have hmem : c ∈ packets.map fun packet => Call.receive packet world := by
    rw [heq]
    exact List.mem_append_right _ List.mem_cons_self
  obtain ⟨packet, -, rfl⟩ := List.mem_map.mp hmem
  trivial

end Symbolic

end Molch
