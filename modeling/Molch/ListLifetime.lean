import Molch.FirstContact
import Molch.PrekeyRotation

namespace Molch

open Sodium PrekeyStore

variable {B : Type} [Byte B] [Sodium B]

namespace PrekeyStore

/-- A rotation at which the list is still valid finds none of the listed prekeys deprecated
and expired. -/
def KeepsListed (listed : PrekeyStore B) (validUntil : ℤ) (state : PrekeyStore B × World B) :
    Call B → Prop
  | .getPrekey _ => True
  | .rotate => state.2.clock 0 ≤ validUntil → ∀ prekey ∈ state.1.deprecatedPrekeys,
      prekey.publicKey ∈ listed.activeKeys → state.2.clock 0 ≤ prekey.expirationDate

theorem after_call (state : PrekeyStore B × World B) (c : Call B) :
    state.2.After (call state c).2.2 := by
  cases c with
  | getPrekey publicKey => exact after_getPrekey _ _ _
  | rotate => exact after_rotate _ _

theorem mem_keys_call {listed : PrekeyStore B} {validUntil : ℤ} {state : PrekeyStore B × World B}
    {c : Call B} (hmono : Monotone state.2.clock) (hkeeps : KeepsListed listed validUntil state c)
    (hvalid : state.2.clock 0 ≤ validUntil) {publicKey : PublicKey B}
    (hlisted : publicKey ∈ listed.activeKeys)
    (h : publicKey ∈ state.1.activeKeys ∨ publicKey ∈ state.1.deprecatedKeys) :
    publicKey ∈ (call state c).2.1.activeKeys ∨ publicKey ∈ (call state c).2.1.deprecatedKeys := by
  cases c with
  | getPrekey requested => exact mem_keys_getPrekey requested h
  | rotate =>
      refine mem_keys_rotate (fun i => hmono (Nat.zero_le i)) ?_ h
      rintro prekey hprekey rfl
      exact hkeeps hvalid prekey hprekey hlisted

/-- The listed prekeys stay in the store while the list is valid. -/
theorem mem_keys_final {listed : PrekeyStore B} {validUntil time : ℤ}
    {state : PrekeyStore B × World B} {calls : List (Call B)} (hmono : Monotone state.2.clock)
    (hkeeps : Runs.Admitted call (KeepsListed listed validUntil) state calls)
    (hby : Runs.Admitted call (fun state _ => state.2.clock 0 ≤ time) state calls)
    (hvalid : time ≤ validUntil) {publicKey : PublicKey B}
    (hlisted : publicKey ∈ listed.activeKeys)
    (h : publicKey ∈ state.1.activeKeys ∨ publicKey ∈ state.1.deprecatedKeys) :
    publicKey ∈ (Runs.final call state calls).1.activeKeys ∨
      publicKey ∈ (Runs.final call state calls).1.deprecatedKeys := by
  induction calls generalizing state with
  | nil => exact h
  | cons c calls ih =>
      apply ih ((after_call state c).monotone hmono) hkeeps.tail hby.tail
      exact mem_keys_call hmono hkeeps.head (hby.head.trans hvalid) hlisted h

theorem all_isPair_final {state : PrekeyStore B × World B} (h : state.1.All Prekey.IsPair)
    (calls : List (Call B)) : (Runs.final call state calls).1.All Prekey.IsPair := by
  induction calls generalizing state with
  | nil => exact h
  | cons c calls ih =>
      have hshows : state.2.Shows fun _ => True := fun _ => trivial
      apply ih
      cases c with
      | getPrekey publicKey => exact h.getPrekey (Prekey.lasting_isPair _) hshows publicKey
      | rotate => exact h.rotate (Prekey.lasting_isPair _) hshows

section Rotations

omit [Byte B]

theorem exists_deprecateAll_random (indices : List (Fin prekeyAmount)) (store : PrekeyStore B)
    (w : World B) : ∃ draws, ∀ i, (deprecateAll indices store w).2.random i =
      w.random (i + draws) := by
  induction indices generalizing store w with
  | nil => exact ⟨0, fun i => rfl⟩
  | cons index indices ih =>
      obtain ⟨draws, hdraws⟩ := ih (store.deprecate_ index w).1 (store.deprecate_ index w).2
      refine ⟨draws + 1, fun i => ?_⟩
      rw [deprecateAll, hdraws, deprecate_eq]
      simp only [Nat.add_assoc]

theorem rotate_world (store : PrekeyStore B) (w : World B) : (store.rotate w).2 =
    (deprecateAll (store.renewals (w.clock 0)) (store.corrected (w.clock 0)) w.now.2).2 := by
  rw [← deprecateOutdated_corrected, rotate_eq]
  rfl

theorem rotate_clock (store : PrekeyStore B) (w : World B) (i : ℕ) :
    (store.rotate w).2.clock i =
      w.clock (i + 2 * (store.renewals (w.clock 0)).length + 1) := by
  rw [rotate_world, deprecateAll_clock]
  rfl

theorem exists_rotate_random (store : PrekeyStore B) (w : World B) :
    ∃ draws, ∀ i, (store.rotate w).2.random i = w.random (i + draws) := by
  rw [rotate_world]
  exact exists_deprecateAll_random _ _ w.now.2

theorem final_rotate_rotate (store : PrekeyStore B) (w : World B) [DecidableEq B] :
    Runs.final call (store, w) [.rotate, .rotate] =
      (store.rotate w).1.rotate (store.rotate w).2 :=
  rfl

theorem notMem_activeKeys_rotate {store : PrekeyStore B} {w : World B} {publicKey : PublicKey B}
    (hfresh : ∀ i, cryptoScalarmultBase (w.random i 32) ≠ publicKey)
    (h : ∀ index, (store.prekeys index).publicKey = publicKey →
      index ∈ store.renewals (w.clock 0)) :
    publicKey ∉ (store.rotate w).1.activeKeys := by
  intro hmem
  obtain ⟨index, hindex⟩ := mem_activeKeys.mp hmem
  rw [rotate_eq_removeOutdated, (removeOutdated_prekeys _ _).1] at hindex
  by_cases hrenewed : index ∈ store.renewals (w.clock 0)
  · obtain ⟨i, hi⟩ := exists_deprecateAll_publicKey hrenewed (store.corrected (w.clock 0)) w.now.2
    exact hfresh i (hi.symm.trans hindex)
  · rw [deprecateAll_prekeys_of_notMem hrenewed] at hindex
    have hkey := congrArg Prod.fst (store.corrected_keyPair (w.clock 0) index)
    exact hrenewed (h index (hkey.symm.trans hindex))

theorem notMem_deprecatedKeys_rotate {store : PrekeyStore B} {w : World B}
    {publicKey : PublicKey B} (hexact : store.ExactDeprecated)
    (hactive : publicKey ∉ store.activeKeys)
    (hexpired : ∀ prekey ∈ store.deprecatedPrekeys, prekey.publicKey = publicKey →
      prekey.expirationDate < w.clock 0) :
    publicKey ∉ (store.rotate w).1.deprecatedKeys := by
  intro hmem
  obtain ⟨prekey, hprekey, rfl⟩ := mem_deprecatedKeys.mp hmem
  have hcache : ∀ old ∈ store.deprecatedPrekeys, old.publicKey = prekey.publicKey →
      store.oldestDeprecatedExpirationDate < w.clock 0 := by
    intro old hold hkey
    rw [exactDeprecated_iff.mp hexact]
    exact (oldestOf_le hold).trans_lt (hexpired old hold hkey)
  have hdate : prekey ∈ store.deprecatedPrekeys → w.clock 0 ≤ prekey.expirationDate := by
    intro hold
    exact (store.deprecated_cleared_iff w).mpr (fun _ => .inl (hcache prekey hold rfl)) prekey
      hprekey
  obtain ⟨added, hadded, hpairs, -⟩ := deprecateAll_deprecatedPrekeys
    (store.nodup_renewals (w.clock 0)) (store.corrected (w.clock 0)) w.now.2
  rw [rotate_eq_removeOutdated] at hprekey
  have hkept := (removeOutdated_sublist _ _).subset hprekey
  rw [hadded] at hkept
  rcases List.mem_append.mp hkept with hold | hnew
  · rw [corrected_deprecatedPrekeys] at hold
    split at hold
    · rename_i hlate
      obtain ⟨old, hbefore, rfl⟩ := List.mem_map.mp hold
      have hpos : (0 : ℤ) ≤ deprecatedPrekeyExpirationTime := by decide
      have hlt := hcache old hbefore rfl
      omega
    · exact absurd (hdate hold) (hexpired prekey hold rfl).not_ge
  · have hpair : prekey.keyPair ∈ added.map Prekey.keyPair := List.mem_map_of_mem hnew
    rw [hpairs] at hpair
    obtain ⟨index, -, hindex⟩ := List.mem_map.mp hpair
    rw [corrected_keyPair] at hindex
    exact hactive (mem_activeKeys.mpr ⟨index, congrArg Prod.fst hindex⟩)

end Rotations

end PrekeyStore

/-- The prekeys of a list that still verifies are with the receiver, if no rotation before has
found one of them deprecated for more than its hour. -/
theorem listed_prekeys_available (hsign : SignRoundTrip B) [ProtobufC B] [Platform]
    {times : ℤ → Prop} {receiver : User B} (hreceiver : receiver.Reachable times) {w v : World B}
    (hmono : Monotone w.clock) {calls : List (Call B)} {identity : PublicKey B} :
    let created := receiver.createPrekeyList w
    let start := (created.2.1.prekeys, created.2.2)
    Runs.Admitted call (KeepsListed created.2.1.prekeys (receiver.listExpiration w)) start calls →
    Runs.Admitted call (fun state _ => state.2.clock 0 ≤ v.clock 0) start calls →
    (verifyPrekeyList created.1 receiver.publicSigningKey v).1 = .ok identity →
    ∀ (index : Fin prekeyAmount) (u : World B), ∃ publicKey privateKey,
      Key.fromSpan (((Library.signedPrekeys created.1).drop (32 * index)).take 32) =
        .ok publicKey ∧
      ((Runs.final call start calls).1.getPrekey publicKey u).1 = .ok privateKey ∧
      IsKeyPair privateKey publicKey := by
  intro created start hkeeps hby hverify index u
  have hafter : w.After start.2 :=
    (after_rotate receiver.prekeys w).trans (World.after_now _)
  have hpairs : start.1.All Prekey.IsPair :=
    hreceiver.genuine.prekeys.rotate (Prekey.lasting_isPair fun _ => True) fun _ => trivial
  have hvalid : v.clock 0 ≤ receiver.listExpiration w := by
    rw [hreceiver.genuine.id,
      verifyPrekeyList_createPrekeyList hsign hreceiver.genuine.masterKeys] at hverify
    split at hverify
    · cases hverify
    · rename_i hdate
      exact not_lt.mp hdate
  have hlisted : (start.1.prekeys index).publicKey ∈ start.1.activeKeys :=
    mem_activeKeys.mpr ⟨index, rfl⟩
  have hstays := mem_keys_final (hafter.monotone hmono) hkeeps hby hvalid hlisted (.inl hlisted)
  obtain ⟨privateKey, _, _, hget, hpair⟩ :=
    (all_isPair_final hpairs calls).exists_getPrekey hstays u
  refine ⟨_, privateKey, ?_, congrArg Prod.fst hget, hpair⟩
  rw [signedPrekeys_createPrekeyList]
  have hslice := (receiver.prekeys.rotate w).1.take_drop_list index
  rw [hslice]
  exact Key.fromSpan_bytes _

namespace Symbolic

@[irreducible] def newReceiver : User ℕ :=
  ⟨(MasterKeys.generate calmWorld).1.publicSigningKey, (MasterKeys.generate calmWorld).1,
    (PrekeyStore.create (MasterKeys.generate calmWorld).2).1, []⟩

theorem newReceiver_reachable : newReceiver.Reachable SaneTime := by
  rw [newReceiver]
  exact .create shows_calmWorld (create_without_seed calmWorld)

/-- When the list is made the clock still stands, the next rotation is a second too late for the
prekeys of the list, and the one after it a second too late for the deprecated ones. -/
def rotatingWorld : World ℕ where
  clock i := if i < 2 then 0 else if i < 203 then prekeyExpirationTime + 1
    else prekeyExpirationTime + deprecatedPrekeyExpirationTime + 2
  random i size := carry size (i + 3)
  uniform _ := 0

theorem rotatingWorld_monotone : Monotone rotatingWorld.clock := by
  intro i j hij
  have hpos : (0 : ℤ) ≤ prekeyExpirationTime := by decide
  have hpos' : (0 : ℤ) ≤ deprecatedPrekeyExpirationTime := by decide
  simp only [rotatingWorld]
  split_ifs <;> omega

@[irreducible] def listedStore : PrekeyStore ℕ :=
  (newReceiver.createPrekeyList rotatingWorld).2.1.prekeys

@[irreducible] def listedWorld : World ℕ := (newReceiver.createPrekeyList rotatingWorld).2.2

def listedKey : PublicKey ℕ := cryptoScalarmultBase (calmWorld.random 2 32)

theorem newReceiver_store :
    newReceiver.prekeys = (create (MasterKeys.generate calmWorld).2).1 := by
  rw [newReceiver]

theorem newReceiver_prekeys (index : Fin prekeyAmount) :
    (newReceiver.prekeys.prekeys index).expirationDate = prekeyExpirationTime ∧
      (newReceiver.prekeys.prekeys index).publicKey =
        cryptoScalarmultBase (calmWorld.random (index + 2) 32) := by
  rw [newReceiver_store, create_eq]
  exact ⟨zero_add _, rfl⟩

theorem newReceiver_cache : newReceiver.prekeys.oldestExpirationDate = prekeyExpirationTime := by
  have hexact := exact_create (MasterKeys.generate calmWorld).2
  rw [← newReceiver_store] at hexact
  obtain ⟨⟨⟨index, hindex⟩, -⟩, -⟩ := hexact
  exact hindex.symm.trans (newReceiver_prekeys index).1

theorem newReceiver_renewals : newReceiver.prekeys.renewals (rotatingWorld.clock 0) = [] := by
  rw [renewals, newReceiver_cache]
  exact if_neg (by decide)

theorem listedStore_eq : listedStore =
    (newReceiver.prekeys.corrected (rotatingWorld.clock 0)).removeOutdated
      (rotatingWorld.clock 0) := by
  rw [listedStore, User.createPrekeyList_eq, rotate_of_renewals_nil newReceiver_renewals]

theorem listedStore_prekeys (index : Fin prekeyAmount) :
    listedStore.prekeys index = newReceiver.prekeys.prekeys index := by
  rw [listedStore_eq, (removeOutdated_prekeys _ _).1, corrected_prekeys, newReceiver_cache]
  exact if_neg (by decide)

theorem listedStore_deprecatedPrekeys : listedStore.deprecatedPrekeys = [] := by
  have hnone : newReceiver.prekeys.deprecatedPrekeys = [] := by
    rw [newReceiver_store, create_eq]
    rfl
  rw [listedStore_eq]
  apply List.sublist_nil.mp
  have hsublist := removeOutdated_sublist (newReceiver.prekeys.corrected (rotatingWorld.clock 0))
    (rotatingWorld.clock 0)
  rwa [corrected_deprecatedPrekeys, hnone, List.map_nil, ite_self] at hsublist

theorem listedStore_renewals : listedStore.renewals (prekeyExpirationTime + 1) =
    List.finRange prekeyAmount := by
  rw [renewals, if_pos, expired, List.filter_eq_self]
  · intro index _
    rw [listedStore_prekeys, (newReceiver_prekeys index).1]
    decide
  · rw [listedStore_eq, (removeOutdated_prekeys _ _).2, corrected_oldestExpirationDate,
      newReceiver_cache]
    decide

theorem draw_ne_listedKey (i : ℕ) :
    cryptoScalarmultBase (rotatingWorld.random i 32) ≠ listedKey := by
  intro h
  have hcode := carry_injective (by decide)
    (publicCode_injective (carry_injective (by decide) h))
  omega

theorem listedWorld_eq : listedWorld = rotatingWorld.now.2.now.2 := by
  rw [listedWorld, User.createPrekeyList_eq, rotate_of_renewals_nil newReceiver_renewals]

theorem listedWorld_clock (i : ℕ) : listedWorld.clock i = rotatingWorld.clock (i + 2) := by
  rw [listedWorld_eq]
  simp only [World.now, Nat.add_assoc]

theorem listedWorld_random (i : ℕ) : listedWorld.random i = rotatingWorld.random i := by
  rw [listedWorld_eq]
  simp only [World.now]

theorem listedWorld_renewals : listedStore.renewals (listedWorld.clock 0) =
    List.finRange prekeyAmount := by
  rw [listedWorld_clock]
  exact listedStore_renewals

theorem first_rotation :
    listedKey ∉ (listedStore.rotate listedWorld).1.activeKeys ∧
      (listedStore.rotate listedWorld).1.ExactDeprecated ∧
      ∀ prekey ∈ (listedStore.rotate listedWorld).1.deprecatedPrekeys,
        prekey.expirationDate = prekeyExpirationTime + 1 + deprecatedPrekeyExpirationTime := by
  refine ⟨?_, ?_, ?_⟩
  · apply notMem_activeKeys_rotate
    · intro i
      rw [listedWorld_random]
      exact draw_ne_listedKey i
    · intro index _
      rw [listedWorld_renewals]
      exact List.mem_finRange index
  · rw [rotate_eq_removeOutdated]
    apply ExactDeprecated.removeOutdated
    apply exactDeprecated_deprecateAll
    rw [listedWorld_renewals]
    decide
  · intro prekey hprekey
    rw [rotate_eq_removeOutdated] at hprekey
    obtain ⟨added, hadded, -, hdates⟩ := deprecateAll_deprecatedPrekeys
      (listedStore.nodup_renewals (listedWorld.clock 0))
      (listedStore.corrected (listedWorld.clock 0)) listedWorld.now.2
    have hkept := (removeOutdated_sublist _ _).subset hprekey
    rw [hadded, corrected_deprecatedPrekeys, listedStore_deprecatedPrekeys, List.map_nil, ite_self,
      List.nil_append] at hkept
    obtain ⟨i, hi, hdate⟩ := hdates prekey hkept
    rw [listedWorld_renewals, List.length_finRange] at hi
    have hreading : listedWorld.now.2.clock i = rotatingWorld.clock (i + 1 + 2) :=
      listedWorld_clock (i + 1)
    have hfirst : ¬ i + 1 + 2 < 2 := by omega
    have hlast : i + 1 + 2 < 203 := by
      rw [prekeyAmount] at hi
      omega
    rw [hdate, hreading]
    simp only [rotatingWorld, if_neg hfirst, if_pos hlast]

theorem shows_rotatingWorld : rotatingWorld.Shows SaneTime := by
  intro i
  simp only [rotatingWorld]
  split_ifs <;> decide

theorem newReceiver_listExpiration :
    newReceiver.listExpiration rotatingWorld = 3 * month := by
  rw [User.listExpiration_eq newReceiver shows_rotatingWorld,
    rotate_of_renewals_nil newReceiver_renewals]
  rfl

/-- A second after the prekeys of the list have expired they are deprecated, and the first of
them is still there. -/
theorem listed_prekeys_available_after_rotation :
    ∃ publicKey privateKey, Key.fromSpan (((Library.signedPrekeys
        (newReceiver.createPrekeyList rotatingWorld).1).drop (32 * 0)).take 32) =
          .ok publicKey ∧
      ((Runs.final call ((newReceiver.createPrekeyList rotatingWorld).2.1.prekeys,
        (newReceiver.createPrekeyList rotatingWorld).2.2) [.rotate]).1.getPrekey publicKey
          world).1 = .ok privateKey ∧
      IsKeyPair privateKey publicKey := by
  let v : World ℕ := { rotatingWorld with clock := fun _ => prekeyExpirationTime + 1 }
  have hnone := listedStore_deprecatedPrekeys
  rw [listedStore] at hnone
  have hreading := listedWorld_clock 0
  rw [listedWorld] at hreading
  have hverify : (verifyPrekeyList (newReceiver.createPrekeyList rotatingWorld).1
      newReceiver.publicSigningKey v).1 = .ok newReceiver.masterKeys.publicIdentityKey := by
    rw [newReceiver_reachable.genuine.id, verifyPrekeyList_createPrekeyList signRoundTrip
      newReceiver_reachable.genuine.masterKeys, newReceiver_listExpiration, if_neg (by decide)]
  refine listed_prekeys_available signRoundTrip newReceiver_reachable (w := rotatingWorld)
    (v := v) rotatingWorld_monotone ?_ ?_ hverify ⟨0, by decide⟩ world
  · refine Runs.Admitted.cons ?_ (Runs.Admitted.nil _)
    intro _ prekey hprekey
    rw [hnone] at hprekey
    cases hprekey
  · refine Runs.Admitted.cons ?_ (Runs.Admitted.nil _)
    exact hreading.le

/-- A list that still verifies, and the receiver does not have its first prekey any more. -/
theorem listed_prekey_lost :
    let state := Runs.final call (listedStore, listedWorld) [.rotate, .rotate]
    newReceiver.Reachable SaneTime ∧ Monotone rotatingWorld.clock ∧
      (verifyPrekeyList (newReceiver.createPrekeyList rotatingWorld).1
        newReceiver.publicSigningKey state.2).1 =
          .ok newReceiver.masterKeys.publicIdentityKey ∧
      (listedStore.prekeys ⟨0, by decide⟩).publicKey = listedKey ∧
      (state.1.getPrekey listedKey state.2).1 =
        .error ⟨.notFound, "No matching prekey found."⟩ := by
  intro state
  have hstate : state =
      (listedStore.rotate listedWorld).1.rotate (listedStore.rotate listedWorld).2 :=
    final_rotate_rotate listedStore listedWorld
  obtain ⟨hactive, hexact, hdates⟩ := first_rotation
  have hclock (i : ℕ) : (listedStore.rotate listedWorld).2.clock i =
      prekeyExpirationTime + deprecatedPrekeyExpirationTime + 2 := by
    have hfirst : ¬ i + 2 * prekeyAmount + 1 + 2 < 2 := by omega
    have hlast : ¬ i + 2 * prekeyAmount + 1 + 2 < 203 := by
      rw [prekeyAmount]
      omega
    rw [rotate_clock, listedWorld_renewals, List.length_finRange, listedWorld_clock]
    simp only [rotatingWorld, if_neg hfirst, if_neg hlast]
  refine ⟨newReceiver_reachable, rotatingWorld_monotone, ?_, ?_, ?_⟩
  · obtain ⟨readings, hafter⟩ := after_rotate (listedStore.rotate listedWorld).1
      (listedStore.rotate listedWorld).2
    have htime : state.2.clock 0 =
        prekeyExpirationTime + deprecatedPrekeyExpirationTime + 2 := by
      rw [hstate, hafter, hclock]
    rw [newReceiver_reachable.genuine.id, verifyPrekeyList_createPrekeyList signRoundTrip
      newReceiver_reachable.genuine.masterKeys, newReceiver_listExpiration, htime,
      if_neg (by decide)]
  · rw [listedStore_prekeys, (newReceiver_prekeys _).2]
    rfl
  · have hfresh (i : ℕ) : cryptoScalarmultBase
        ((listedStore.rotate listedWorld).2.random i 32) ≠ listedKey := by
      obtain ⟨draws, hdraws⟩ := exists_rotate_random listedStore listedWorld
      rw [hdraws, listedWorld_random]
      exact draw_ne_listedKey _
    rw [hstate]
    apply getPrekey_eq_notFound
    · apply notMem_activeKeys_rotate hfresh
      intro index hindex
      exact absurd (mem_activeKeys.mpr ⟨index, hindex⟩) hactive
    · apply notMem_deprecatedKeys_rotate hexact hactive
      intro prekey hprekey _
      rw [hdates prekey hprekey, hclock]
      omega

end Symbolic

end Molch
