import Molch.FirstContact

namespace Molch

open Sodium

variable {B : Type}

/-- What a key agreement is made of on the side that starts the conversation. -/
structure KeyAgreement (B : Type) where
  senderPrivateIdentity : PrivateKey B
  senderPublicIdentity : PublicKey B
  receiverPublicIdentity : PublicKey B
  senderPrivateEphemeral : PrivateKey B
  senderPublicEphemeral : PublicKey B
  receiverPublicPrekey : PublicKey B

/-- A list with the signature of a receiver over an identity, the prekeys and a date. -/
structure SignedList [Sodium B] (receiverId : PublicSigningKey B) where
  signature : Key B 64
  identity : PublicKey B
  prekeys : Fin prekeyAmount → PublicKey B
  date : Key B 8
  valid : cryptoSignVerifyDetached signature (identity.bytes ++
    (List.ofFn fun index => (prekeys index).bytes).flatten ++ date.bytes) receiverId = true

def SignedList.bytes [Sodium B] {receiverId : PublicSigningKey B} (list : SignedList receiverId) :
    List B :=
  list.signature.bytes ++ (list.identity.bytes ++
    (List.ofFn fun index => (list.prekeys index).bytes).flatten ++ list.date.bytes)

section Chunks

theorem flatten_slices (size amount : ℕ) {bytes : List B} (h : bytes.length = size * amount) :
    (List.ofFn fun index : Fin amount => (bytes.drop (size * index)).take size).flatten =
      bytes := by
  induction amount generalizing bytes with
  | zero =>
      rw [Nat.mul_zero, List.length_eq_zero_iff] at h
      rw [h, List.ofFn_zero, List.flatten_nil]
  | succ amount ih =>
      have hrest : (bytes.drop size).length = size * amount := by
        rw [List.length_drop, h, Nat.mul_succ, Nat.add_sub_cancel]
      have hchunks : ∀ index : Fin amount, (bytes.drop (size * (index.succ : ℕ))).take size =
          ((bytes.drop size).drop (size * index)).take size := by
        intro index
        rw [List.drop_drop, Fin.val_succ, Nat.mul_succ, Nat.add_comm]
      rw [List.ofFn_succ, List.flatten_cons]
      simp only [hchunks, ih hrest]
      exact List.take_append_drop size bytes

end Chunks

variable [Byte B] [Sodium B]

theorem verifyPrekeyList_eq_ok {prekeyList : List B} {receiverId : PublicSigningKey B}
    {identity : PublicKey B} {w w' : World B}
    (h : verifyPrekeyList prekeyList receiverId w = (.ok identity, w')) :
    ∃ (signature : Key B 64) (rest : List B),
      prekeyList = signature.bytes ++ (identity.bytes ++ rest) ∧
      cryptoSignVerifyDetached signature (identity.bytes ++ rest) receiverId = true ∧
      w.clock 0 ≤ int64OfBigEndian ((rest.drop (32 * prekeyAmount)).take 8) ∧ w' = w.now.2 := by
  rw [verifyPrekeyList] at h
  split at h
  · cases h
  · rename_i verified hopen
    split at h
    · cases h
    · simp only at h
      split at h
      · cases h
      · rename_i hlength hdate
        split at h
        · cases h
        · rename_i found hidentity
          cases h
          have hverified : verified = identity.bytes ++ verified.drop 32 := by
            rw [Key.bytes_of_fromSpan hidentity, List.take_append_drop]
          rw [cryptoSignOpen] at hopen
          split at hopen
          · rename_i hsize
            split at hopen
            · rename_i hvalid
              cases hopen
              refine ⟨⟨prekeyList.take 64, by simp [hsize]⟩, (prekeyList.drop 64).drop 32, ?_, ?_,
                ?_, rfl⟩
              · rw [← hverified, List.take_append_drop]
              · rwa [← hverified]
              · rw [List.drop_drop, ← not_lt]
                exact hdate
            · cases hopen
          · cases hopen

namespace Conversation

/-- `createSendConversation` up to the key agreement. -/
def keyAgreement (senderPublicIdentity : PublicKey B) (senderPrivateIdentity : PrivateKey B)
    (receiverPublicIdentity : PublicKey B) (receiverPrekeyList : List B) (w : World B) :
    Except Error (KeyAgreement B) × World B :=
  if receiverPrekeyList.length ≠ 32 * prekeyAmount then
    (.error (expectationFailed "lib/conversation.cpp"), w)
  else
    match cryptoBoxKeypair w with
    | ((senderPublicEphemeral, senderPrivateEphemeral), w) =>
        match w.randombytesUniform prekeyAmount with
        | (prekeyNumber, w) =>
            match Key.fromSpan ((receiverPrekeyList.drop (32 * prekeyNumber)).take 32) with
            | .error e => (.error e, w)
            | .ok receiverPublicPrekey =>
                (.ok ⟨senderPrivateIdentity, senderPublicIdentity, receiverPublicIdentity,
                  senderPrivateEphemeral, senderPublicEphemeral, receiverPublicPrekey⟩, w)

/-- `createSendConversation` from the key agreement on. -/
def startWith [ProtobufC B] (agreement : KeyAgreement B) (message : List B) (w : World B) :
    Except Error (List B × Conversation B) × World B :=
  match create agreement.senderPrivateIdentity agreement.senderPublicIdentity
      agreement.receiverPublicIdentity agreement.senderPrivateEphemeral
      agreement.senderPublicEphemeral agreement.receiverPublicPrekey w with
  | (.error e, w) => (.error e, w)
  | (.ok conversation, w) =>
      match conversation.send message (some ⟨agreement.senderPublicIdentity,
          agreement.senderPublicEphemeral, agreement.receiverPublicPrekey⟩) w with
      | (.error e, _, w) => (.error e, w)
      | (.ok packet, conversation, w) => (.ok (packet, conversation), w)

theorem createSendConversation_eq [ProtobufC B] (message : List B)
    (senderPublicIdentity : PublicKey B) (senderPrivateIdentity : PrivateKey B)
    (receiverPublicIdentity : PublicKey B) (receiverPrekeyList : List B) (w : World B) :
    createSendConversation message senderPublicIdentity senderPrivateIdentity
        receiverPublicIdentity receiverPrekeyList w =
      match keyAgreement senderPublicIdentity senderPrivateIdentity receiverPublicIdentity
          receiverPrekeyList w with
      | (.error e, w) => (.error e, w)
      | (.ok agreement, w) => startWith agreement message w := by
  rw [createSendConversation, keyAgreement]
  split
  · rfl
  · simp only
    cases Key.fromSpan ((receiverPrekeyList.drop (32 *
        ((cryptoBoxKeypair w).2.randombytesUniform prekeyAmount).1)).take 32) with
    | error e => rfl
    | ok prekey => rfl

omit [Byte B] in
theorem keyAgreement_of_slice {receiverPrekeyList : List B} {w : World B} {prekey : PublicKey B}
    (hlength : receiverPrekeyList.length = 32 * prekeyAmount)
    (hprekey : (receiverPrekeyList.drop (32 * w.drawnPlace)).take 32 = prekey.bytes)
    (senderPublicIdentity : PublicKey B) (senderPrivateIdentity : PrivateKey B)
    (receiverPublicIdentity : PublicKey B) :
    (keyAgreement senderPublicIdentity senderPrivateIdentity receiverPublicIdentity
      receiverPrekeyList w).1 = .ok ⟨senderPrivateIdentity, senderPublicIdentity,
        receiverPublicIdentity, w.random 0 32, cryptoScalarmultBase (w.random 0 32), prekey⟩ := by
  have hfound : Key.fromSpan ((receiverPrekeyList.drop (32 * (w.uniform 0 % prekeyAmount))).take
      32) = .ok prekey := by
    rw [World.drawnPlace] at hprekey
    rw [hprekey, Key.fromSpan_bytes]
  rw [keyAgreement, if_neg (not_not.mpr hlength)]
  simp only [cryptoBoxKeypair, World.randombytesBuf, World.randombytesUniform, hfound]

omit [Byte B] in
theorem length_of_keyAgreement {senderPublicIdentity receiverPublicIdentity : PublicKey B}
    {senderPrivateIdentity : PrivateKey B} {receiverPrekeyList : List B} {w w' : World B}
    {agreement : KeyAgreement B}
    (h : keyAgreement senderPublicIdentity senderPrivateIdentity receiverPublicIdentity
      receiverPrekeyList w = (.ok agreement, w')) :
    receiverPrekeyList.length = 32 * prekeyAmount := by
  by_contra hlength
  rw [keyAgreement, if_pos hlength] at h
  cases h

end Conversation

namespace Library

/-- `start_send_conversation` up to the key agreement. -/
def keyAgreement (library : Library B) (senderId receiverId : PublicSigningKey B)
    (prekeyList : List B) (w : World B) : Except Failure (KeyAgreement B) × World B :=
  if prekeyList.length < 32 + 64 + 8 then
    (.error (.error ⟨.invalidValue, "Invalid input to molch_start_send_conversation"⟩), w)
  else
    match UserStore.find senderId library.users with
    | none => (.error (.error ⟨.notFound, "User not found."⟩), w)
    | some user =>
        match verifyPrekeyList prekeyList receiverId w with
        | (.error failure, w) => (.error failure, w)
        | (.ok receiverPublicIdentity, w) =>
            match Conversation.keyAgreement user.masterKeys.publicIdentityKey
                user.masterKeys.privateIdentityKey receiverPublicIdentity
                (signedPrekeys prekeyList) w with
            | (.error e, w) => (.error (.error e), w)
            | (.ok agreement, w) => (.ok agreement, w)

/-- `start_send_conversation` from the key agreement on. -/
def startWith [ProtobufC B] (library : Library B) (agreement : KeyAgreement B) (senderId : PublicSigningKey B)
    (message : List B) (createBackup : Bool) (w : World B) :
    Except Failure (Reply B) × Library B × World B :=
  match Conversation.startWith agreement message w with
  | (.error e, w) => (.error (.error e), library, w)
  | (.ok (packet, conversation), w) =>
      let library := { library with
        users := UserStore.modify senderId (fun user => { user with
          conversations := ConversationStore.add conversation user.conversations })
            library.users }
      match library.exportIf createBackup w with
      | (backup, w) => (backup.map (.startedSendConversation conversation.id packet), library, w)

theorem startSendConversation_eq [ProtobufC B] (library : Library B)
    (senderId receiverId : PublicSigningKey B) (prekeyList message : List B) (createBackup : Bool) (w : World B) :
    library.startSendConversation senderId receiverId prekeyList message createBackup w =
      match library.keyAgreement senderId receiverId prekeyList w with
      | (.error failure, w) => (.error failure, library, w)
      | (.ok agreement, w) => library.startWith agreement senderId message createBackup w := by
  rw [startSendConversation, keyAgreement]
  split
  · rfl
  · cases UserStore.find senderId library.users with
    | none => rfl
    | some user =>
        simp only
        cases verifyPrekeyList prekeyList receiverId w with
        | mk verified w =>
            cases verified with
            | error failure => rfl
            | ok identity =>
                simp only [Conversation.createSendConversation_eq]
                cases Conversation.keyAgreement user.masterKeys.publicIdentityKey
                    user.masterKeys.privateIdentityKey identity (signedPrekeys prekeyList) w with
                | mk agreed w =>
                    cases agreed with
                    | error e => rfl
                    | ok agreement => rfl

theorem of_keyAgreement {library : Library B} {senderId receiverId : PublicSigningKey B}
    {prekeyList : List B} {agreement : KeyAgreement B} {w : World B}
    (h : (library.keyAgreement senderId receiverId prekeyList w).1 = .ok agreement) :
    32 + 64 + 8 ≤ prekeyList.length ∧ ∃ (user : User B) (identity : PublicKey B) (w' : World B),
      verifyPrekeyList prekeyList receiverId w = (.ok identity, w') ∧
      (Conversation.keyAgreement user.masterKeys.publicIdentityKey
        user.masterKeys.privateIdentityKey identity (signedPrekeys prekeyList) w').1 =
          .ok agreement := by
  rw [keyAgreement] at h
  split at h
  · cases h
  · rename_i hlength
    refine ⟨not_lt.mp hlength, ?_⟩
    split at h
    · cases h
    · rename_i user _
      split at h
      · cases h
      · rename_i identity w' hverify
        split at h
        · cases h
        · rename_i agreed w'' hagree
          cases h
          exact ⟨user, identity, w', hverify, congrArg Prod.fst hagree⟩

end Library

/-- A list that leads to a key agreement is signed by the receiver, has all prekeys and has not
expired; the agreement uses its identity and the prekey at the place that is drawn. -/
theorem exists_signedList {library : Library B}
    {senderId receiverId : PublicSigningKey B} {prekeyList : List B}
    {agreement : KeyAgreement B} {w : World B}
    (h : (library.keyAgreement senderId receiverId prekeyList w).1 = .ok agreement) :
    ∃ list : SignedList receiverId, prekeyList = list.bytes ∧
      w.clock 0 ≤ int64OfBigEndian list.date.bytes ∧
      agreement.receiverPublicIdentity = list.identity ∧
      agreement.receiverPublicPrekey = list.prekeys w.drawnPlace := by
  obtain ⟨hlength, user, identity, w', hverify, hagree⟩ := Library.of_keyAgreement h
  obtain ⟨signature, rest, hlist, hvalid, hdate, rfl⟩ := verifyPrekeyList_eq_ok hverify
  have hprekeys := Conversation.length_of_keyAgreement (Prod.ext hagree rfl)
  have hhead : (signature.bytes ++ identity.bytes).length = 32 + 64 := by
    rw [List.length_append, signature.length_bytes, identity.length_bytes]
  have hslice : Library.signedPrekeys prekeyList = rest.take (rest.length - 8) := by
    have htotal : prekeyList.length = 32 + 64 + rest.length := by
      rw [hlist, ← List.append_assoc, List.length_append, hhead]
    rw [Library.signedPrekeys, htotal, hlist, ← List.append_assoc, List.drop_left' hhead]
    congr 1
    omega
  have htotal : rest.length = 32 * prekeyAmount + 8 := by
    rw [hslice, List.length_take] at hprekeys
    rw [hlist, ← List.append_assoc, List.length_append, hhead] at hlength
    omega
  have hkeys : (rest.take (32 * prekeyAmount)).length = 32 * prekeyAmount := by
    rw [List.length_take, htotal]
    omega
  have hdatesize : (rest.drop (32 * prekeyAmount)).length = 8 := by
    rw [List.length_drop, htotal]
    omega
  rw [htotal, Nat.add_sub_cancel] at hslice
  have hkey (index : Fin prekeyAmount) :
      (((rest.take (32 * prekeyAmount)).drop (32 * index)).take 32).length = 32 := by
    rw [List.length_take, List.length_drop, hkeys]
    have hindex := index.isLt
    omega
  have hrest : (List.ofFn fun index : Fin prekeyAmount =>
      ((rest.take (32 * prekeyAmount)).drop (32 * index)).take 32).flatten ++
        rest.drop (32 * prekeyAmount) = rest := by
    rw [flatten_slices 32 prekeyAmount hkeys, List.take_append_drop]
  have hagreed := Conversation.keyAgreement_of_slice hprekeys
    (congrArg (fun bytes => (bytes.drop (32 * w.now.2.drawnPlace)).take 32) hslice :
      _ = Key.bytes ⟨_, hkey w.drawnPlace⟩) user.masterKeys.publicIdentityKey
    user.masterKeys.privateIdentityKey identity
  cases hagree.symm.trans hagreed
  refine ⟨⟨signature, identity, fun index => ⟨_, hkey index⟩, ⟨_, hdatesize⟩, ?_⟩, ?_, ?_, rfl, rfl⟩
  · simp only [List.append_assoc, hrest]
    exact hvalid
  · simp only [SignedList.bytes, List.append_assoc, hrest]
    exact hlist
  · rwa [List.take_of_length_le hdatesize.le] at hdate

/-- What the readers find in a list that the user has made. -/
structure User.ListRead (user : User B) (w v : World B) : Prop where
  accepted_iff : (∃ identity, (verifyPrekeyList (user.createPrekeyList w).1
    user.publicSigningKey v).1 = .ok identity) ↔
      v.clock 0 ≤ (user.prekeys.rotate w).2.clock 0 + 3 * month
  identity : ∀ identity, (verifyPrekeyList (user.createPrekeyList w).1
    user.publicSigningKey v).1 = .ok identity → identity = user.masterKeys.publicIdentityKey
  prekeys : Library.signedPrekeys (user.createPrekeyList w).1 =
    (List.ofFn fun index => ((user.prekeys.rotate w).1.prekeys index).publicKey.bytes).flatten
  prekey : ∀ (senderPublicIdentity : PublicKey B) (senderPrivateIdentity : PrivateKey B)
    (identity : PublicKey B) (u : World B), ∃ agreement,
      (Conversation.keyAgreement senderPublicIdentity senderPrivateIdentity identity
        (Library.signedPrekeys (user.createPrekeyList w).1) u).1 = .ok agreement ∧
      agreement.receiverPublicPrekey =
        ((user.prekeys.rotate w).1.prekeys u.drawnPlace).publicKey
  drawn : ∀ index, ∃ u : World B, u.drawnPlace = index

omit [Byte B] [Sodium B] in
theorem World.exists_drawnPlace (w : World B) (index : Fin prekeyAmount) :
    ∃ u : World B, u.drawnPlace = index :=
  ⟨{ w with uniform := fun _ => index }, Fin.ext (Nat.mod_eq_of_lt index.isLt)⟩

theorem User.listRead (hsign : SignRoundTrip B) {user : User B}
    (hid : user.publicSigningKey = user.masterKeys.publicSigningKey)
    (hpaired : user.masterKeys.Paired) {w : World B}
    (hlow : -2 ^ 63 ≤ (user.prekeys.rotate w).2.clock 0 + 3 * month)
    (hhigh : (user.prekeys.rotate w).2.clock 0 + 3 * month < 2 ^ 63) (v : World B) :
    user.ListRead w v := by
  have hverify := verifyPrekeyList_createPrekeyList hsign hpaired w v
  rw [← hid, user.listExpiration_of_fits hlow hhigh] at hverify
  refine ⟨?_, ?_, ?_, ?_, w.exists_drawnPlace⟩
  · constructor
    · rintro ⟨identity, hok⟩
      rw [hverify] at hok
      split at hok
      · cases hok
      · rename_i hdate
        exact not_lt.mp hdate
    · intro hdate
      rw [hverify, if_neg hdate.not_gt]
      exact ⟨_, rfl⟩
  · intro identity hok
    rw [hverify] at hok
    split at hok
    · cases hok
    · cases hok
      rfl
  · rw [signedPrekeys_createPrekeyList, PrekeyStore.list, PrekeyStore.active, List.map_ofFn]
    rfl
  · intro senderPublicIdentity senderPrivateIdentity identity u
    rw [signedPrekeys_createPrekeyList]
    exact ⟨_, Conversation.keyAgreement_of_slice (PrekeyStore.length_list _)
      (PrekeyStore.take_drop_list _ u.drawnPlace) _ _ _, rfl⟩

/-- The writer and the readers of prekey lists agree, and nothing else than a signed list leads
to a key agreement. -/
theorem prekey_lists_agree [ProtobufC B] (hsign : SignRoundTrip B) :
    (∀ (user : User B) (w v : World B),
      user.publicSigningKey = user.masterKeys.publicSigningKey → user.masterKeys.Paired →
      -2 ^ 63 ≤ (user.prekeys.rotate w).2.clock 0 + 3 * month →
      (user.prekeys.rotate w).2.clock 0 + 3 * month < 2 ^ 63 → user.ListRead w v) ∧
    ∀ (library : Library B) (senderId receiverId : PublicSigningKey B)
      (prekeyList message : List B) (createBackup : Bool) (w : World B),
      library.startSendConversation senderId receiverId prekeyList message createBackup w =
        (match library.keyAgreement senderId receiverId prekeyList w with
        | (.error failure, w) => (.error failure, library, w)
        | (.ok agreement, w) => library.startWith agreement senderId message createBackup w) ∧
      ∀ agreement, (library.keyAgreement senderId receiverId prekeyList w).1 = .ok agreement →
        ∃ list : SignedList receiverId, prekeyList = list.bytes ∧
          w.clock 0 ≤ int64OfBigEndian list.date.bytes ∧
          agreement.receiverPublicIdentity = list.identity ∧
          agreement.receiverPublicPrekey = list.prekeys w.drawnPlace := by
  constructor
  · intro user w v hid hpaired hlow hhigh
    exact user.listRead hsign hid hpaired hlow hhigh v
  · intro library senderId receiverId prekeyList message createBackup w
    refine ⟨library.startSendConversation_eq _ _ _ _ _ _, ?_⟩
    intro agreement h
    exact exists_signedList h

namespace Symbolic

theorem prekey_lists_agree_calm :
    ∃ user : User ℕ, user.Reachable SaneTime ∧ user.ListRead calmWorld calmWorld := by
  obtain ⟨user, hreachable, -⟩ := exists_user shows_calmWorld
  have hclock := clock_of_calmWorld (PrekeyStore.after_rotate user.prekeys calmWorld) 0
  refine ⟨user, hreachable, (prekey_lists_agree signRoundTrip).1 user calmWorld calmWorld
    hreachable.genuine.id hreachable.genuine.masterKeys ?_ ?_⟩
  · rw [hclock]
    decide
  · rw [hclock]
    decide

end Symbolic

end Molch
