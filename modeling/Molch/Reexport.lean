import Molch.PrekeyStore
import Molch.Symbolic

namespace Molch

variable {B : Type}

theorem narrowUInt64_secondsOfUInt64 (time : UInt64) :
    narrowUInt64 (secondsOfUInt64 time) =
      if time.toNat < 2 ^ 63 then .ok time else .error (.exception "std::exception") := by
  have hlt : time.toNat < 2 ^ 64 := time.toNat_lt
  rw [narrowUInt64, secondsOfUInt64]
  split
  · rw [if_pos (by omega), Int.toNat_natCast, UInt64.ofNat_toNat]
  · rw [if_neg (by omega)]

/-- An expiration time that is missing or fits a signed number. -/
def FitsSeconds (time : Option UInt64) : Prop := ∀ t ∈ time, t.toNat < 2 ^ 63

theorem narrowed_iff {γ : Type} (time : UInt64) (value : UInt64 → γ) :
    (narrowUInt64 (secondsOfUInt64 time) >>= fun t => (pure (value t) : Except Failure γ)) =
      .ok (value time) ↔ FitsSeconds (some time) := by
  rw [narrowUInt64_secondsOfUInt64, FitsSeconds]
  split
  · rename_i hlt
    simpa using hlt
  · rename_i hle
    simpa using hle

namespace HeaderAndMessageKey

variable {bundle : ProtobufCKeyBundle B} {key : HeaderAndMessageKey B}

theorem eq_of_import (h : import_ bundle = .ok key) :
    ∃ time, bundle = ⟨key.headerKey.key.bytes, key.messageKey.bytes, some time⟩ ∧
      key.expirationDate = secondsOfUInt64 time := by
  unfold import_ at h
  split at h
  · cases h
  · obtain ⟨headerKey, hheader, h⟩ := Result.bind_eq_ok.mp h
    split at h
    · cases h
    · obtain ⟨messageKey, hmessage, h⟩ := Result.bind_eq_ok.mp h
      obtain ⟨headerBytes, hbytes, rfl⟩ := Result.map_eq_ok.mp hheader
      split at h
      · cases h
      · rename_i time htime
        cases h
        refine ⟨time, ?_, rfl⟩
        rw [EmptyableKey.ofKey_key, Key.bytes_of_fromSpan hbytes,
          Key.bytes_of_fromSpan hmessage, ← htime]

theorem reexport_iff (h : import_ bundle = .ok key) :
    key.exportProtobuf = .ok bundle ↔ FitsSeconds bundle.expirationTime := by
  obtain ⟨time, rfl, hdate⟩ := eq_of_import h
  rw [exportProtobuf, hdate]
  exact narrowed_iff time fun t =>
    ProtobufCKeyBundle.mk key.headerKey.key.bytes key.messageKey.bytes (some t)

end HeaderAndMessageKey

theorem HeaderAndMessageKeyStore.reexport_iff {bundles : List (ProtobufCKeyBundle B)}
    {store : HeaderAndMessageKeyStore B} (h : import_ bundles = .ok store) :
    store.exportProtobuf = .ok bundles ↔
      ∀ bundle ∈ bundles, FitsSeconds bundle.expirationTime := by
  obtain ⟨keys, hkeys, hstore⟩ := Result.bind_eq_ok.mp h
  cases hstore
  exact Result.mapM_undoes_iff (fun _ _ _ => HeaderAndMessageKey.reexport_iff) hkeys

section Prekeys

variable [Sodium B]

namespace Prekey

variable {keypair : ProtobufCPrekey B} {prekey : Prekey B}

theorem eq_of_import (h : import_ keypair = .ok prekey) (hpublic : keypair.publicKey.isSome) :
    ∃ time, keypair = ⟨prekey.privateKey.bytes, some prekey.publicKey.bytes, some time⟩ ∧
      prekey.expirationDate = secondsOfUInt64 time := by
  obtain ⟨publicBytes, hpublic⟩ := Option.isSome_iff_exists.mp hpublic
  unfold import_ at h
  split at h
  · cases h
  · obtain ⟨privateKey, hprivate, h⟩ := Result.bind_eq_ok.mp h
    obtain ⟨publicKey, himport, h⟩ := Result.bind_eq_ok.mp h
    rw [hpublic, importPublicKey] at himport
    split at himport
    · cases himport
    · split at h
      · cases h
      · rename_i time htime
        cases h
        refine ⟨time, ?_, rfl⟩
        rw [Key.bytes_of_fromSpan hprivate, Key.bytes_of_fromSpan himport, ← htime, ← hpublic]

theorem reexport_iff (h : import_ keypair = .ok prekey) (hpublic : keypair.publicKey.isSome) :
    prekey.exportProtobuf = .ok keypair ↔ FitsSeconds keypair.expirationTime := by
  obtain ⟨time, rfl, hdate⟩ := eq_of_import h hpublic
  rw [exportProtobuf, hdate]
  exact narrowed_iff time fun t =>
    ProtobufCPrekey.mk prekey.privateKey.bytes (some prekey.publicKey.bytes) (some t)

end Prekey

namespace PrekeyStore

variable {keypairs deprecatedKeypairs : List (ProtobufCPrekey B)} {store : PrekeyStore B}

theorem mapM_of_import (h : import_ keypairs deprecatedKeypairs = .ok store) :
    keypairs.mapM Prekey.import_ = .ok store.active ∧
      deprecatedKeypairs.mapM Prekey.import_ = .ok store.deprecatedPrekeys := by
  rw [import_] at h
  split at h
  · rename_i hlength
    obtain ⟨prekeys, hprekeys, h⟩ := Result.bind_eq_ok.mp h
    obtain ⟨deprecatedPrekeys, hdeprecated, h⟩ := Result.bind_eq_ok.mp h
    cases h
    refine ⟨Result.mapM_eq_ok_iff.mpr (List.forall₂_iff_get.mpr ⟨?_, ?_⟩), hdeprecated⟩
    · rw [hlength]
      exact List.length_ofFn.symm
    · intro i hi hi'
      have hprekey := Result.sequence_eq_ok_iff.mp hprekeys ⟨i, hlength ▸ hi⟩
      change _ = Except.ok ((List.ofFn prekeys).get ⟨i, _⟩)
      rw [List.get_ofFn]
      exact hprekey
  · cases h

theorem reexport_iff (h : import_ keypairs deprecatedKeypairs = .ok store)
    (hpublic : ∀ keypair ∈ keypairs ++ deprecatedKeypairs, keypair.publicKey.isSome) :
    store.exportProtobuf = .ok (keypairs, deprecatedKeypairs) ↔
      ∀ keypair ∈ keypairs ++ deprecatedKeypairs, FitsSeconds keypair.expirationTime := by
  obtain ⟨hactive, hdeprecated⟩ := mapM_of_import h
  obtain ⟨hpublic, hpublic'⟩ := List.forall_mem_append.mp hpublic
  have hfirst := Result.mapM_undoes_iff (g := Prekey.exportProtobuf)
    (fun keypair hkeypair _ himport => Prekey.reexport_iff himport (hpublic keypair hkeypair))
    hactive
  have hsecond := Result.mapM_undoes_iff (g := Prekey.exportProtobuf)
    (fun keypair hkeypair _ himport => Prekey.reexport_iff himport (hpublic' keypair hkeypair))
    hdeprecated
  rw [List.forall_mem_append, ← hfirst, ← hsecond, exportProtobuf]
  constructor
  · intro hexport
    obtain ⟨exported, hexported, hexport⟩ := Result.bind_eq_ok.mp hexport
    obtain ⟨exported', hexported', hpair⟩ := Result.bind_eq_ok.mp hexport
    cases hpair
    exact ⟨hexported, hexported'⟩
  · rintro ⟨hexported, hexported'⟩
    rw [hexported, hexported']
    rfl

end PrekeyStore

/-- What has been imported is exported unchanged exactly if no expiration time lies in the
upper half of the unsigned numbers. -/
theorem reexported_iff :
    (∀ (bundles : List (ProtobufCKeyBundle B)) (store : HeaderAndMessageKeyStore B),
      HeaderAndMessageKeyStore.import_ bundles = .ok store →
        (store.exportProtobuf = .ok bundles ↔
          ∀ bundle ∈ bundles, FitsSeconds bundle.expirationTime)) ∧
    ∀ (keypairs deprecatedKeypairs : List (ProtobufCPrekey B)) (store : PrekeyStore B),
      (∀ keypair ∈ keypairs ++ deprecatedKeypairs, keypair.publicKey.isSome) →
      PrekeyStore.import_ keypairs deprecatedKeypairs = .ok store →
        (store.exportProtobuf = .ok (keypairs, deprecatedKeypairs) ↔
          ∀ keypair ∈ keypairs ++ deprecatedKeypairs, FitsSeconds keypair.expirationTime) :=
  ⟨fun _ _ h => HeaderAndMessageKeyStore.reexport_iff h,
    fun _ _ _ hpublic h => PrekeyStore.reexport_iff h hpublic⟩

end Prekeys

namespace Symbolic

def datedBundle (time : UInt64) : ProtobufCKeyBundle ℕ :=
  ⟨List.replicate 32 0, List.replicate 32 0, some time⟩

def datedKeypair (time : UInt64) : ProtobufCPrekey ℕ :=
  ⟨List.replicate 32 0, some (List.replicate 32 0), some time⟩

def datedPrekeys (date : ℤ) : PrekeyStore ℕ :=
  PrekeyStore.updateDeprecatedExpirationDate (PrekeyStore.updateExpirationDate
    ⟨0, 0, fun _ => ⟨Key.zero, Key.zero, date⟩, []⟩)

theorem import_datedKeypairs :
    PrekeyStore.import_ (List.replicate prekeyAmount (datedKeypair 1)) [] =
      .ok (datedPrekeys 1) := by
  have hsequence : Result.sequence (fun i : Fin prekeyAmount => Prekey.import_
      ((List.replicate prekeyAmount (datedKeypair 1)).get (i.cast List.length_replicate.symm))) =
      .ok fun _ => ⟨Key.zero, Key.zero, 1⟩ := by
    refine Result.sequence_eq_ok_iff.mpr fun i => ?_
    rw [List.get_eq_getElem, List.getElem_replicate]
    rfl
  rw [PrekeyStore.import_, dif_pos List.length_replicate, hsequence]
  rfl

theorem reexported_dated :
    ((⟨[⟨.ofKey Key.zero, Key.zero, 1⟩]⟩ : HeaderAndMessageKeyStore ℕ).exportProtobuf =
        .ok [datedBundle 1] ↔ ∀ bundle ∈ [datedBundle 1], FitsSeconds bundle.expirationTime) ∧
    ((datedPrekeys 1).exportProtobuf = .ok (List.replicate prekeyAmount (datedKeypair 1), []) ↔
      ∀ keypair ∈ List.replicate prekeyAmount (datedKeypair 1) ++ [],
        FitsSeconds keypair.expirationTime) := by
  refine ⟨reexported_iff.1 _ _ rfl, reexported_iff.2 _ _ _ ?_ import_datedKeypairs⟩
  intro keypair hkeypair
  rw [List.append_nil] at hkeypair
  rw [List.eq_of_mem_replicate hkeypair]
  rfl

/-- The first time that does not fit is accepted and makes the export throw. -/
theorem imported_not_exported :
    ∃ store, HeaderAndMessageKeyStore.import_ [datedBundle 9223372036854775808] = .ok store ∧
      store.exportProtobuf = .error (.exception "std::exception") :=
  ⟨_, rfl, rfl⟩

end Symbolic

end Molch
