import Molch.Ratchet
import Mathlib.Logic.Equiv.List
import Mathlib.Tactic.DeriveEncodable

/-!
The assumptions about libsodium and protobuf-c hold together. Over the alphabet of
the natural numbers every value fits into one letter, so that idealised primitives
can be written down: hashes and boxes that contain an encoding of their inputs, and
a Diffie-Hellman that contains both private keys.
-/

namespace Molch

instance : Byte ℕ where
  ofUInt8 x := x.toNat
  toUInt8 := UInt8.ofNat
  toUInt8_ofUInt8 _ := UInt8.ofNat_toNat

instance instEncodableUInt32 : Encodable UInt32 := Encodable.ofLeftInverse UInt32.toNat UInt32.ofNat
  fun _ => UInt32.ofNat_toNat

instance instEncodableUInt64 : Encodable UInt64 := Encodable.ofLeftInverse UInt64.toNat UInt64.ofNat
  fun _ => UInt64.ofNat_toNat

deriving instance Encodable for ProtobufCHeader
deriving instance Encodable for ProtobufCPacketHeader
deriving instance Encodable for ProtobufCPacket
deriving instance Encodable for ProtobufCKeyBundle
deriving instance Encodable for ProtobufCPrekey
deriving instance Encodable for ProtobufCConversation
deriving instance Encodable for ProtobufCUser
deriving instance Encodable for ProtobufCBackup
deriving instance Encodable for ProtobufCEncryptedBackup

namespace Symbolic

open Encodable

scoped instance : Platform := .x8664

/-- A world in which no time passes and all randomness is zero. -/
def world : World ℕ := ⟨fun _ => 0, fun _ _ => Key.zero, fun _ => 0⟩

/-- A byte string that carries one number. -/
def carry (size code : ℕ) : Key ℕ size :=
  ⟨(code :: List.replicate size 0).take size, by simp⟩

theorem carry_injective {size : ℕ} (hsize : 0 < size) :
    Function.Injective (carry size) := by
  intro a b h
  obtain ⟨size, rfl⟩ := Nat.exists_eq_succ_of_ne_zero hsize.ne'
  have hbytes := congrArg Key.bytes h
  simp only [carry, List.take_succ_cons] at hbytes
  exact (List.cons.inj hbytes).1

theorem carry_ne_zero {size : ℕ} (hsize : 0 < size) {code : ℕ} (hcode : code ≠ 0) :
    carry size code ≠ Key.zero := by
  intro h
  obtain ⟨size, rfl⟩ := Nat.exists_eq_succ_of_ne_zero hsize.ne'
  have hbytes := congrArg Key.bytes h
  simp only [carry, List.take_succ_cons, Key.zero, List.replicate_succ] at hbytes
  exact hcode (List.cons.inj hbytes).1

def carried {size : ℕ} (key : Key ℕ size) : ℕ := key.bytes.headD 0

@[simp] theorem carried_carry {size : ℕ} (hsize : 0 < size) (code : ℕ) :
    carried (carry size code) = code := by
  obtain ⟨size, rfl⟩ := Nat.exists_eq_succ_of_ne_zero hsize.ne'
  rfl

theorem sodiumCompare_carry {a b : ℕ} (h : b < a) :
    sodiumCompare (carry 32 a).bytes (carry 32 b).bytes = 1 := by
  have hlt : ¬ [a] < [b] := by
    rw [List.cons_lt_cons_iff]
    rintro (hlt | ⟨-, hnil⟩)
    · omega
    · exact lt_irrefl _ hnil
  simp [sodiumCompare, carry, hlt, h.ne']

theorem chooseRole_carry {a b : ℕ} (h : b < a) :
    Ratchet.chooseRole (carry 32 a) (carry 32 b) = .ok .alice := by
  rw [Ratchet.chooseRole, if_pos (sodiumCompare_carry h)]

/-- The code of a private key inside its public key. -/
def publicCode (privateKey : PrivateKey ℕ) : ℕ := encode privateKey.bytes + 1

theorem publicCode_injective : Function.Injective publicCode := by
  intro a b h
  exact Key.ext (encode_injective (Nat.succ_injective h))

/-- The tag that ends a ciphertext. -/
def tag (message : List ℕ) (nonce : Nonce ℕ) (key : Key ℕ 32) : List ℕ :=
  (carry 16 (encode (message, nonce.bytes, key.bytes))).bytes

theorem tag_injective {message message' : List ℕ} {nonce nonce' : Nonce ℕ} {key key' : Key ℕ 32}
    (h : tag message nonce key = tag message' nonce' key') : message = message' ∧ key = key' := by
  have hcode := carry_injective (by decide) (Key.ext h)
  have htriple := encode_injective hcode
  simp only [Prod.mk.injEq] at htriple
  exact ⟨htriple.1, Key.ext htriple.2.2⟩

theorem length_tag (message : List ℕ) (nonce : Nonce ℕ) (key : Key ℕ 32) :
    (tag message nonce key).length = 16 :=
  (carry 16 _).length_bytes

instance : Sodium ℕ where
  cryptoScalarmultBase privateKey := carry 32 (publicCode privateKey)
  cryptoScalarmult privateKey publicKey :=
    if publicKey.isZero then none
    else some (carry 32 (encode (min (publicCode privateKey) (carried publicKey),
      max (publicCode privateKey) (carried publicKey))))
  cryptoGenerichash input key := carry 32 (2 * encode (input, key) + 2)
  cryptoGenerichashBlake2bSaltPersonal input key salt personal :=
    carry 32 (2 * encode (input, key, salt, personal) + 1)
  cryptoSecretboxEasy message nonce key := message ++ tag message nonce key
  length_cryptoSecretboxEasy message nonce key := by
    rw [List.length_append, length_tag]
  cryptoSecretboxOpenEasy ciphertext nonce key :=
    let message := ciphertext.take (ciphertext.length - 16)
    if ciphertext = message ++ tag message nonce key then some message else none
  length_cryptoSecretboxOpenEasy ciphertext nonce key message h := by
    simp only [Option.ite_none_right_eq_some, Option.some.injEq] at h
    rw [h.1, h.2, List.length_append, length_tag]
  cryptoSignSeedKeypair seed := (carry 32 (encode seed.bytes), carry 64 (encode seed.bytes))
  cryptoSignDetached message privateKey := carry 64 (encode (message, carried privateKey))
  cryptoSignVerifyDetached signature message publicKey :=
    decide (signature = carry 64 (encode (message, carried publicKey)))
  cryptoBoxSeedPrivateKey seed := carry 32 (encode seed.bytes)
  cryptoPwhash size password salt := some (carry size (encode (password, salt.bytes)))

section Packing

variable {α : Type} [Encodable α]

def pack (s : α) : List ℕ := [encode s]

def unpack (bytes : List ℕ) : Option α := bytes.head? >>= decode

theorem unpack_pack (s : α) : unpack (pack s) = some s := encodek s

end Packing

instance : ProtobufC ℕ where
  headerPack := pack
  headerUnpack := unpack
  packetPack := pack
  packetUnpack := unpack
  conversationPack := pack
  conversationUnpack := unpack
  backupPack := pack
  backupUnpack := unpack
  encryptedBackupPack := pack
  encryptedBackupUnpack := unpack

theorem protobufRoundTrip : ProtobufRoundTrip ℕ where
  header := unpack_pack
  packet := unpack_pack
  conversation := unpack_pack
  backup := unpack_pack
  encryptedBackup := unpack_pack

open Sodium

theorem secretboxRoundTrip : SecretboxRoundTrip ℕ := by
  intro message nonce key
  have hlength : (message ++ tag message nonce key).length - 16 = message.length := by
    rw [List.length_append, length_tag, Nat.add_sub_cancel]
  change (if _ then _ else _) = _
  simp only [cryptoSecretboxEasy, hlength, List.take_left', if_true]

theorem opened_eq {ciphertext : List ℕ} {nonce : Nonce ℕ} {key : Key ℕ 32} {opened : List ℕ}
    (h : cryptoSecretboxOpenEasy ciphertext nonce key = some opened) :
    ciphertext = opened ++ tag opened nonce key := by
  simp only [cryptoSecretboxOpenEasy, Option.ite_none_right_eq_some, Option.some.injEq] at h
  obtain ⟨h, rfl⟩ := h
  exact h

theorem secretboxOneKey : SecretboxOneKey ℕ := by
  intro ciphertext nonce key key' opened opened' h h'
  have heq := (opened_eq h).symm.trans (opened_eq h')
  have htag := List.append_inj_right' heq (by rw [length_tag, length_tag])
  exact (tag_injective htag).2

theorem secretboxKeyBound : SecretboxKeyBound ℕ := by
  intro message nonce key key' opened h
  exact secretboxOneKey _ _ _ _ _ _ h (secretboxRoundTrip message nonce key)

theorem generichashInjective : GenerichashInjective ℕ := by
  intro input key input' key' h
  have hcode := carry_injective (by decide) h
  have hpair := encode_injective (show encode (input, key) = encode (input', key') by omega)
  exact Prod.mk.inj hpair

theorem kdfInjective : KdfInjective ℕ := by
  intro key salt personal key' salt' personal' h
  have hcode := carry_injective (by decide) h
  have htuple := encode_injective (show encode (([] : List ℕ), key, salt, personal) =
    encode (([] : List ℕ), key', salt', personal') by omega)
  simp only [Prod.mk.injEq, true_and] at htuple
  exact ⟨htuple.1, htuple.2.1⟩

theorem kdfNonzero : KdfNonzero ℕ := by
  intro key salt personal
  exact carry_ne_zero (by decide) (by omega)

theorem base_isZero (privateKey : PrivateKey ℕ) :
    (cryptoScalarmultBase privateKey).isZero = false := by
  rw [Bool.eq_false_iff]
  intro h
  exact carry_ne_zero (by decide) (Nat.succ_ne_zero _) (Key.isZero_iff.mp h)

theorem scalarmult_base (a b : PrivateKey ℕ) :
    cryptoScalarmult a (cryptoScalarmultBase b) =
      some (carry 32 (encode (min (publicCode a) (publicCode b),
        max (publicCode a) (publicCode b)))) := by
  have h := base_isZero b
  simp only [cryptoScalarmult, h, Bool.false_eq_true, if_false]
  simp only [cryptoScalarmultBase, carried_carry (show 0 < 32 by decide)]

theorem scalarmultCommutes : ScalarmultCommutes ℕ := by
  intro a b
  rw [scalarmult_base, scalarmult_base, min_comm, max_comm]

theorem scalarmultTotal : ScalarmultTotal ℕ := by
  intro a b
  rw [scalarmult_base]
  rfl

theorem scalarmultKeyBound : ScalarmultKeyBound ℕ := by
  intro a a' b h
  rw [scalarmult_base, scalarmult_base] at h
  have hpair := encode_injective (carry_injective (by decide) (Option.some.inj h))
  obtain ⟨hmin, hmax⟩ := Prod.mk.inj hpair
  have hcode : publicCode a = publicCode a' := by omega
  rw [publicCode_injective hcode]

theorem usable {point : PublicKey ℕ} (h : point.isZero = false) : Usable point := by
  intro privateKey
  simp [cryptoScalarmult, h]

theorem scalarmultFailsByPoint : ScalarmultFailsByPoint ℕ := by
  intro a b point
  cases h : point.isZero with
  | true => simp [cryptoScalarmult, h]
  | false => simp [cryptoScalarmult, h]

theorem signRoundTrip : SignRoundTrip ℕ := by
  intro seed message
  simp [cryptoSignVerifyDetached, cryptoSignDetached, cryptoSignSeedKeypair]

end Symbolic

end Molch
