import Molch.PrekeyLifecycle
import Molch.UserBackup

namespace Molch

variable {B : Type}

namespace World

def Shows (times : ℤ → Prop) (w : World B) : Prop := ∀ i, times (w.clock i)

theorem after_now (w : World B) : w.After w.now.2 := ⟨1, fun _ => rfl⟩

theorem Shows.after {times : ℤ → Prop} {w w' : World B} (h : w.Shows times) (hafter : w.After w') :
    w'.Shows times := by
  obtain ⟨readings, hclock⟩ := hafter
  intro i
  rw [hclock]
  exact h _

end World

/-- The times of a sane clock. -/
def SaneTime (time : ℤ) : Prop := -1 ≤ time ∧ time + 3 * month < 2 ^ 63

instance : DecidablePred SaneTime := fun _ => inferInstanceAs (Decidable (_ ∧ _))

section Prekeys

variable [Sodium B] {times : ℤ → Prop} {p : Prekey B → Prop}

/-- A property of prekeys that new ones have and that survives each date they are given. -/
structure Prekey.Lasting (times : ℤ → Prop) (p : Prekey B → Prop) : Prop where
  generated : ∀ privateKey time, times time →
    p ⟨Sodium.cryptoScalarmultBase privateKey, privateKey, time + prekeyExpirationTime⟩
  active : ∀ prekey time, p prekey → times time →
    p { prekey with expirationDate := time + prekeyExpirationTime }
  deprecated : ∀ prekey time, p prekey → times time →
    p { prekey with expirationDate := time + deprecatedPrekeyExpirationTime }

def Prekey.IsPair (prekey : Prekey B) : Prop :=
  IsKeyPair prekey.privateKey prekey.publicKey

theorem Prekey.lasting_isPair (times : ℤ → Prop) : Prekey.Lasting (B := B) times IsPair where
  generated _ _ _ := rfl
  active _ _ h _ := h
  deprecated _ _ h _ := h

theorem Prekey.lasting_dateSane (htimes : ∀ time, times time → SaneTime time) :
    Prekey.Lasting (B := B) times DateSane := by
  have hmonth : ∀ time, times time →
      0 ≤ time + prekeyExpirationTime ∧ time + prekeyExpirationTime < 2 ^ 63 := by
    intro time htime
    obtain ⟨hlow, hhigh⟩ := htimes time htime
    rw [month] at hhigh
    rw [prekeyExpirationTime, month]
    omega
  have hhour : ∀ time, times time → 0 ≤ time + deprecatedPrekeyExpirationTime ∧
      time + deprecatedPrekeyExpirationTime < 2 ^ 63 := by
    intro time htime
    obtain ⟨hlow, hhigh⟩ := htimes time htime
    rw [month] at hhigh
    rw [deprecatedPrekeyExpirationTime]
    omega
  exact ⟨fun _ => hmonth, fun _ time _ => hmonth time, fun _ time _ => hhour time⟩

namespace PrekeyStore

variable {store : PrekeyStore B} {w : World B}

theorem after_create (w : World B) : w.After (create w).2 := by
  rw [create_eq]
  exact ⟨prekeyAmount, fun _ => rfl⟩

theorem all_create (hlasting : Prekey.Lasting times p) (hw : w.Shows times) :
    (create w).1.All p := by
  rw [create_eq]
  refine ⟨fun index => hlasting.generated _ _ (hw _), ?_⟩
  intro prekey hprekey
  cases hprekey

theorem All.deprecate_ (hlasting : Prekey.Lasting times p) (h : store.All p) (hw : w.Shows times)
    (index : Fin prekeyAmount) : (store.deprecate_ index w).1.All p := by
  rw [deprecate_eq]
  constructor
  · intro other
    change p (Function.update store.prekeys index _ other)
    by_cases hother : other = index
    · rw [hother, Function.update_self]
      exact hlasting.generated _ _ (hw 1)
    · rw [Function.update_of_ne hother]
      exact h.active other
  · intro prekey hprekey
    rcases List.mem_append.mp hprekey with hprekey | hprekey
    · exact h.deprecated prekey hprekey
    · rw [List.mem_singleton.mp hprekey]
      exact hlasting.deprecated _ _ (h.active index) (hw 0)

theorem after_deprecateLoop (currentTime : ℤ) (indices : List (Fin prekeyAmount))
    (store : PrekeyStore B) (w : World B) :
    w.After (deprecateLoop currentTime indices store w).2 := by
  induction indices generalizing store w with
  | nil => exact .refl w
  | cons index indices ih =>
      rw [deprecateLoop]
      split
      · exact (after_deprecate_ store index w).trans (ih _ _)
      · exact ih store w

theorem after_rotate (store : PrekeyStore B) (w : World B) : w.After (store.rotate w).2 := by
  rw [rotate_eq, deprecateOutdated]
  split
  · exact w.after_now.trans (after_deprecateLoop _ _ _ _)
  · exact w.after_now

theorem All.deprecateLoop (hlasting : Prekey.Lasting times p) (currentTime : ℤ)
    (indices : List (Fin prekeyAmount)) (h : store.All p) (hw : w.Shows times) :
    (PrekeyStore.deprecateLoop currentTime indices store w).1.All p := by
  induction indices generalizing store w with
  | nil => exact h
  | cons index indices ih =>
      rw [PrekeyStore.deprecateLoop]
      split
      · exact ih (h.deprecate_ hlasting hw index) (hw.after (after_deprecate_ store index w))
      · exact ih h hw

theorem All.correctPrekeys (hlasting : Prekey.Lasting times p) (h : store.All p) {currentTime : ℤ}
    (htime : times currentTime) :
    ((store.correctPrekeys currentTime).correctDeprecatedPrekeys currentTime).All p := by
  have hfirst : (store.correctPrekeys currentTime).All p := by
    rw [PrekeyStore.correctPrekeys]
    split
    · exact ⟨fun index => hlasting.active _ _ (h.active index) htime, h.deprecated⟩
    · exact h
  rw [correctDeprecatedPrekeys]
  split
  · refine ⟨hfirst.active, ?_⟩
    intro prekey hprekey
    obtain ⟨old, hold, rfl⟩ := List.mem_map.mp hprekey
    exact hlasting.deprecated _ _ (hfirst.deprecated old hold) htime
  · exact hfirst

omit [Sodium B] in
theorem All.removeOutdated (h : store.All p) (currentTime : ℤ) :
    (store.removeOutdated currentTime).All p := by
  rw [removeOutdated_eq]
  split
  · exact ⟨h.active, fun prekey hprekey => h.deprecated prekey (List.mem_of_mem_filter hprekey)⟩
  · exact h

theorem All.rotate (hlasting : Prekey.Lasting times p) (h : store.All p) (hw : w.Shows times) :
    (store.rotate w).1.All p := by
  have hcorrected := h.correctPrekeys hlasting (hw 0)
  rw [rotate_eq, deprecateOutdated]
  split
  · exact (hcorrected.deprecateLoop hlasting _ _ (hw.after w.after_now)).removeOutdated _
  · exact hcorrected.removeOutdated _

theorem All.getPrekey [DecidableEq B] (hlasting : Prekey.Lasting times p) (h : store.All p)
    (hw : w.Shows times) (publicKey : PublicKey B) :
    (store.getPrekey publicKey w).2.1.All p := by
  rcases store.getPrekey_cases publicKey w with
    ⟨index, -, heq⟩ | ⟨-, prekey, -, -, heq⟩ | ⟨-, -, heq⟩
  · rw [heq]
    exact h.deprecate_ hlasting hw index
  · rw [heq]
    exact h
  · rw [heq]
    exact h

theorem after_getPrekey [DecidableEq B] (store : PrekeyStore B) (publicKey : PublicKey B)
    (w : World B) : w.After (store.getPrekey publicKey w).2.2 := by
  rcases store.getPrekey_cases publicKey w with
    ⟨index, -, heq⟩ | ⟨-, prekey, -, -, heq⟩ | ⟨-, -, heq⟩
  · rw [heq]
    exact after_deprecate_ store index w
  · rw [heq]
    exact .refl w
  · rw [heq]
    exact .refl w

theorem All.pair_of_getPrekey [DecidableEq B] (h : store.All Prekey.IsPair)
    {publicKey : PublicKey B} {privateKey : PrivateKey B}
    (hget : (store.getPrekey publicKey w).1 = .ok privateKey) :
    IsKeyPair privateKey publicKey := by
  rcases store.getPrekey_cases publicKey w with
    ⟨index, rfl, heq⟩ | ⟨-, prekey, hprekey, rfl, heq⟩ | ⟨-, -, heq⟩
  · rw [heq] at hget
    cases hget
    exact h.active index
  · rw [heq] at hget
    cases hget
    exact h.deprecated prekey hprekey
  · rw [heq] at hget
    cases hget

end PrekeyStore

end Prekeys

section Creation

variable [Byte B] [Sodium B]

theorem after_spicedRandom (spice : List B) (size : ℕ) (w : World B) :
    w.After (spicedRandom spice size w).2 := by
  rw [spicedRandom]
  split
  · exact .refl w
  · simp only
    split
    · exact ⟨0, fun _ => rfl⟩
    · exact ⟨0, fun _ => rfl⟩

theorem MasterKeys.after_create (seed : Option (List B)) (w : World B) :
    w.After (MasterKeys.create seed w).2 := by
  cases seed with
  | none => exact ⟨0, fun _ => rfl⟩
  | some seed =>
      have hspiced := after_spicedRandom seed 64 w
      rw [MasterKeys.create, generateSpiced]
      split
      · exact .refl w
      · split
        · rename_i heq
          rw [heq] at hspiced
          exact hspiced
        · rename_i heq
          rw [heq] at hspiced
          exact hspiced

theorem User.after_create (seed : Option (List B)) (w : World B) :
    w.After (User.create seed w).2 := by
  have hmasterKeys := MasterKeys.after_create seed w
  rw [User.create]
  split
  · rename_i heq
    rw [heq] at hmasterKeys
    exact hmasterKeys
  · rename_i heq
    rw [heq] at hmasterKeys
    exact hmasterKeys.trans (PrekeyStore.after_create _)

end Creation

namespace User

variable [Byte B] [Sodium B] [ProtobufC B] [Platform] {times : ℤ → Prop} {user : User B}

/-- The users that the functions of the interface make, and what these make of them. The
conversations are any that calls lead to. -/
inductive Reachable (times : ℤ → Prop) : User B → Prop
  | create {seed : Option (List B)} {w : World B} {user : User B} (hw : w.Shows times)
      (h : (User.create seed w).1 = .ok user) : Reachable times user
  | createPrekeyList {user : User B} (h : Reachable times user) {w : World B}
      (hw : w.Shows times) : Reachable times (user.createPrekeyList w).2.1
  | getPrekey {user : User B} (h : Reachable times user) (publicKey : PublicKey B) {w : World B}
      (hw : w.Shows times) :
      Reachable times { user with prekeys := (user.prekeys.getPrekey publicKey w).2.1 }
  | converse {user : User B} (h : Reachable times user) {conversations : List (Conversation B)}
      (hconversations : ∀ conversation ∈ conversations,
        conversation.Reachable (World.Shows times)) :
      Reachable times { user with conversations := conversations }
  | restore {user user' : User B} (h : Reachable times user) {exported : ProtobufCUser B}
      (hexport : user.exportProtobuf = .ok exported) (himport : import_ exported = .ok user') :
      Reachable times user'

omit [ProtobufC B] [Platform] in
theorem createPrekeyList_eq (user : User B) (w : World B) :
    user.createPrekeyList w =
      (user.masterKeys.sign (({ user with prekeys := (user.prekeys.rotate w).1 } :
          User B).unsignedPrekeyList ((user.prekeys.rotate w).2.clock 0 + 3 * month)),
        { user with prekeys := (user.prekeys.rotate w).1 }, (user.prekeys.rotate w).2.now.2) :=
  rfl

omit [ProtobufC B] [Platform] in
theorem length_createPrekeyList (user : User B) (w : World B) :
    ¬ (user.createPrekeyList w).1.length < 32 + 64 + 8 := by
  simp [createPrekeyList_eq, MasterKeys.sign, cryptoSign, unsignedPrekeyList, Key.length_bytes,
    length_toBigEndian]
  omega

omit [ProtobufC B] [Platform] in
theorem exists_of_create {seed : Option (List B)} {w : World B}
    (h : (User.create seed w).1 = .ok user) :
    ∃ masterKeys w', MasterKeys.create seed w = (.ok masterKeys, w') ∧ w.After w' ∧
      user = ⟨masterKeys.publicSigningKey, masterKeys, (PrekeyStore.create w').1, []⟩ := by
  cases hmasterKeys : MasterKeys.create seed w with
  | mk result w' =>
      rw [User.create, hmasterKeys] at h
      cases result with
      | error e => cases h
      | ok masterKeys =>
          have huser := Except.ok.inj h
          have hafter := MasterKeys.after_create seed w
          rw [hmasterKeys] at hafter
          exact ⟨masterKeys, w', rfl, hafter, huser.symm⟩

structure Genuine (user : User B) : Prop where
  id : user.publicSigningKey = user.masterKeys.publicSigningKey
  masterKeys : user.masterKeys.Paired
  prekeys : user.prekeys.All Prekey.IsPair

omit [ProtobufC B] [Platform] in
theorem exists_of_restore {user' : User B} {exported : ProtobufCUser B}
    (hexport : user.exportProtobuf = .ok exported) (himport : import_ exported = .ok user') :
    ∃ conversations, user' = user.restored conversations ∧
      ∀ conversation' ∈ conversations, ∃ conversation ∈ user.conversations, ∃ exported,
        conversation.exportProtobuf = .ok exported ∧
          Conversation.import_ exported = .ok conversation' := by
  obtain ⟨hexported, himported⟩ := import_exportProtobuf hexport
  rw [himported] at himport
  obtain ⟨conversations, hconversations, rfl⟩ := Result.map_eq_ok.mp himport
  refine ⟨conversations, rfl, ?_⟩
  intro conversation' hconversation'
  obtain ⟨exported', hmem, himport'⟩ := Result.mem_of_mapM_eq_ok hconversations hconversation'
  obtain ⟨conversation, hconversation, hexport'⟩ := Result.mem_of_mapM_eq_ok hexported hmem
  exact ⟨conversation, hconversation, exported', hexport', himport'⟩

theorem Reachable.genuine (h : user.Reachable times) : user.Genuine := by
  induction h with
  | create hw h =>
      obtain ⟨masterKeys, w', hmasterKeys, hafter, rfl⟩ := exists_of_create h
      exact ⟨rfl, MasterKeys.paired_of_create (congrArg Prod.fst hmasterKeys),
        PrekeyStore.all_create (Prekey.lasting_isPair times) (hw.after hafter)⟩
  | createPrekeyList h hw ih =>
      rw [createPrekeyList_eq]
      exact ⟨ih.id, ih.masterKeys, ih.prekeys.rotate (Prekey.lasting_isPair times) hw⟩
  | getPrekey h publicKey hw ih =>
      exact ⟨ih.id, ih.masterKeys, ih.prekeys.getPrekey (Prekey.lasting_isPair times) hw _⟩
  | converse h hconversations ih => exact ⟨ih.id, ih.masterKeys, ih.prekeys⟩
  | restore h hexport himport ih =>
      obtain ⟨conversations, rfl, -⟩ := exists_of_restore hexport himport
      refine ⟨rfl, ih.masterKeys, ih.prekeys.active, ?_⟩
      intro prekey hprekey
      obtain ⟨old, hold, rfl⟩ := List.mem_map.mp hprekey
      exact ih.prekeys.deprecated old hold

theorem Reachable.conversations (h : user.Reachable times) :
    ∀ conversation ∈ user.conversations, conversation.Reachable (World.Shows times) := by
  induction h with
  | create hw h =>
      obtain ⟨masterKeys, w', -, -, rfl⟩ := exists_of_create h
      intro conversation hconversation
      cases hconversation
  | createPrekeyList h hw ih =>
      rw [createPrekeyList_eq]
      exact ih
  | getPrekey h publicKey hw ih => exact ih
  | converse h hconversations ih => exact hconversations
  | restore h hexport himport ih =>
      obtain ⟨conversations, rfl, hall⟩ := exists_of_restore hexport himport
      intro conversation' hconversation'
      obtain ⟨conversation, hconversation, exported, hexport', himport'⟩ :=
        hall conversation' hconversation'
      exact (ih conversation hconversation).restore hexport' himport'

theorem Reachable.datesSane (htimes : ∀ time, times time → SaneTime time)
    (h : user.Reachable times) : user.prekeys.All Prekey.DateSane := by
  have hlasting := Prekey.lasting_dateSane (B := B) htimes
  induction h with
  | create hw h =>
      obtain ⟨masterKeys, w', -, hafter, rfl⟩ := exists_of_create h
      exact PrekeyStore.all_create hlasting (hw.after hafter)
  | createPrekeyList h hw ih =>
      rw [createPrekeyList_eq]
      exact ih.rotate hlasting hw
  | getPrekey h publicKey hw ih => exact ih.getPrekey hlasting hw publicKey
  | converse h hconversations ih => exact ih
  | restore h hexport himport ih =>
      obtain ⟨conversations, rfl, -⟩ := exists_of_restore hexport himport
      constructor
      · intro index
        rw [User.restored, ih.prekeys_restored]
        exact ih.active index
      · rw [User.restored, ih.deprecatedPrekeys_restored]
        exact ih.deprecated

end User

end Molch
