import Molch.BackupBehaviour
import Molch.User

namespace Molch

variable {B : Type}

namespace Prekey

def restored (prekey : Prekey B) : Prekey B :=
  { prekey with expirationDate := restoredDate prekey.expirationDate }

def DateSane (prekey : Prekey B) : Prop :=
  0 ≤ prekey.expirationDate ∧ prekey.expirationDate < 2 ^ 63

theorem DateSane.restored_eq {prekey : Prekey B} (h : prekey.DateSane) :
    prekey.restored = prekey := by
  rw [restored, restoredDate_eq h.1 h.2]

theorem DateSane.exportProtobuf {prekey : Prekey B} (h : prekey.DateSane) :
    ∃ exported, prekey.exportProtobuf = .ok exported := by
  rw [Prekey.exportProtobuf, narrowUInt64, if_pos h.1]
  exact ⟨_, rfl⟩

theorem import_exportProtobuf [Sodium B] {prekey : Prekey B} {exported : ProtobufCPrekey B}
    (h : prekey.exportProtobuf = .ok exported) : import_ exported = .ok prekey.restored := by
  obtain ⟨time, htime, hexported⟩ := Result.bind_eq_ok.mp h
  cases hexported
  rw [narrowUInt64] at htime
  split at htime
  · cases htime
    simp [import_, importPublicKey, prekey.privateKey.length_bytes, prekey.publicKey.length_bytes,
      restored, restoredDate]
  · cases htime

end Prekey

namespace PrekeyStore

structure All (p : Prekey B → Prop) (store : PrekeyStore B) : Prop where
  active : ∀ index, p (store.prekeys index)
  deprecated : ∀ prekey ∈ store.deprecatedPrekeys, p prekey

def restored (store : PrekeyStore B) : PrekeyStore B :=
  updateDeprecatedExpirationDate (updateExpirationDate
    ⟨0, 0, fun index => (store.prekeys index).restored,
      store.deprecatedPrekeys.map Prekey.restored⟩)

theorem All.prekeys_restored {store : PrekeyStore B} (h : store.All Prekey.DateSane) :
    store.restored.prekeys = store.prekeys :=
  funext fun index => (h.active index).restored_eq

theorem All.deprecatedPrekeys_restored {store : PrekeyStore B} (h : store.All Prekey.DateSane) :
    store.restored.deprecatedPrekeys = store.deprecatedPrekeys := by
  change store.deprecatedPrekeys.map Prekey.restored = store.deprecatedPrekeys
  calc store.deprecatedPrekeys.map Prekey.restored
      = store.deprecatedPrekeys.map id :=
        List.map_congr_left fun prekey hprekey => (h.deprecated prekey hprekey).restored_eq
    _ = store.deprecatedPrekeys := List.map_id _

theorem All.exportProtobuf {store : PrekeyStore B} (h : store.All Prekey.DateSane) :
    ∃ exported, store.exportProtobuf = .ok exported := by
  have hactive : ∀ prekey ∈ store.active, ∃ exported, prekey.exportProtobuf = .ok exported := by
    intro prekey hprekey
    obtain ⟨index, rfl⟩ := List.mem_ofFn.mp hprekey
    exact (h.active index).exportProtobuf
  obtain ⟨keypairs, hkeypairs⟩ := Result.exists_mapM_eq_ok hactive
  obtain ⟨deprecated, hdeprecated⟩ := Result.exists_mapM_eq_ok fun prekey hprekey =>
    (h.deprecated prekey hprekey).exportProtobuf
  refine ⟨(keypairs, deprecated), ?_⟩
  rw [PrekeyStore.exportProtobuf, hkeypairs, hdeprecated]
  rfl

theorem exportProtobuf_congr {store store' : PrekeyStore B} (hprekeys : store.prekeys = store'.prekeys)
    (hdeprecated : store.deprecatedPrekeys = store'.deprecatedPrekeys) :
    store.exportProtobuf = store'.exportProtobuf := by
  rw [exportProtobuf, exportProtobuf, active, active, hprekeys, hdeprecated]

theorem import_exportProtobuf [Sodium B] {store : PrekeyStore B}
    {keypairs deprecatedKeypairs : List (ProtobufCPrekey B)}
    (h : store.exportProtobuf = .ok (keypairs, deprecatedKeypairs)) :
    import_ keypairs deprecatedKeypairs = .ok store.restored := by
  obtain ⟨keypairs', hactive, h⟩ := Result.bind_eq_ok.mp h
  obtain ⟨deprecatedKeypairs', hdeprecated, hexported⟩ := Result.bind_eq_ok.mp h
  cases hexported
  have hall := Result.mapM_eq_ok_iff.mp hactive
  have hlength : keypairs.length = prekeyAmount := by
    rw [← hall.length_eq, active, List.length_ofFn]
  have hsequence : Result.sequence (fun index : Fin prekeyAmount =>
      Prekey.import_ (keypairs.get (index.cast hlength.symm))) =
        .ok fun index => (store.prekeys index).restored := by
    rw [Result.sequence_eq_ok_iff]
    intro index
    have hactiveIndex : (index : ℕ) < store.active.length := by
      rw [active, List.length_ofFn]
      exact index.isLt
    have hindex := hall.get hactiveIndex (hlength.symm ▸ index.isLt)
    have hprekey : store.active.get ⟨index, hactiveIndex⟩ = store.prekeys index := by
      simp [active]
    rw [hprekey] at hindex
    exact Prekey.import_exportProtobuf hindex
  rw [import_, dif_pos hlength, hsequence,
    Result.mapM_of_mapM (fun _ _ _ => Prekey.import_exportProtobuf) hdeprecated]
  rfl

end PrekeyStore

namespace User

def restored (user : User B) (conversations : List (Conversation B)) : User B :=
  ⟨user.masterKeys.publicSigningKey, user.masterKeys, user.prekeys.restored, conversations⟩

variable [Byte B]

theorem import_exportProtobuf [Sodium B] {user : User B} {exported : ProtobufCUser B}
    (h : user.exportProtobuf = .ok exported) :
    ConversationStore.exportProtobuf user.conversations = .ok exported.conversations ∧
      import_ exported =
        (ConversationStore.import_ exported.conversations).map user.restored := by
  obtain ⟨conversations, hconversations, h⟩ := Result.bind_eq_ok.mp h
  obtain ⟨⟨keypairs, deprecatedKeypairs⟩, hprekeys, h⟩ := Result.bind_eq_ok.mp h
  cases h
  refine ⟨hconversations, ?_⟩
  simp only [import_, MasterKeys.import_, Key.fromSpan_bytes, Result.ok_bind, Result.pure_eq_ok,
    PrekeyStore.import_exportProtobuf hprekeys]
  cases ConversationStore.import_ conversations with
  | error e => rfl
  | ok conversations => rfl

end User

end Molch
