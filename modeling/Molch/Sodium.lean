import Molch.Bytes

/-!
libsodium, the clock and the random source. The functions of libsodium are the
fields of a class; the lengths they fix are fields too, because the C interface
fixes them by its buffers. What the proofs assume beyond that is stated by
propositions of its own, each of them used only where it is named.
-/

namespace Molch

/-- The functions of libsodium that the library calls. -/
class Sodium (B : Type) where
  cryptoScalarmultBase : PrivateKey B → PublicKey B
  /-- Fails on a public key of small order. -/
  cryptoScalarmult : PrivateKey B → PublicKey B → Option (Key B 32)
  cryptoGenerichash : (input key : List B) → Key B 32
  cryptoGenerichashBlake2bSaltPersonal : (input key salt personal : List B) → Key B 32
  cryptoSecretboxEasy : (message : List B) → Nonce B → Key B 32 → List B
  length_cryptoSecretboxEasy : ∀ message nonce key,
    (cryptoSecretboxEasy message nonce key).length = message.length + 16
  cryptoSecretboxOpenEasy : (ciphertext : List B) → Nonce B → Key B 32 → Option (List B)
  length_cryptoSecretboxOpenEasy : ∀ ciphertext nonce key message,
    cryptoSecretboxOpenEasy ciphertext nonce key = some message →
      ciphertext.length = message.length + 16
  cryptoSignSeedKeypair : (seed : Key B 32) → PublicSigningKey B × PrivateSigningKey B
  cryptoSignDetached : (message : List B) → PrivateSigningKey B → Key B 64
  cryptoSignVerifyDetached : (signature : Key B 64) → (message : List B) →
    PublicSigningKey B → Bool
  cryptoBoxSeedPrivateKey : (seed : Key B 32) → PrivateKey B
  cryptoPwhash : (size : ℕ) → (password : List B) → (salt : Key B 16) → Option (Key B size)

/-- 31 days, the only month of `time.hpp`. -/
def month : ℤ := 3600 * 24 * 31

/-- What a call reads from outside the process: the clock (`now()`), the buffers
filled by `randombytes_buf` and the draws of `randombytes_uniform`, in the order in
which they are asked for. -/
structure World (B : Type) where
  clock : ℕ → ℤ
  random : ℕ → (size : ℕ) → Key B size
  uniform : ℕ → ℕ

namespace World

variable {B : Type}

def now (w : World B) : ℤ × World B :=
  (w.clock 0, { w with clock := fun i => w.clock (i + 1) })

/-- `randombytes_buf` into a buffer of the given size. -/
def randombytesBuf (size : ℕ) (w : World B) : Key B size × World B :=
  (w.random 0 size, { w with random := fun i => w.random (i + 1) })

def randombytesUniform (bound : ℕ) (w : World B) : ℕ × World B :=
  (w.uniform 0 % bound, { w with uniform := fun i => w.uniform (i + 1) })

/-- `time(nullptr)` counts the seconds since the epoch and is -1 if it fails; it is
far from the end of the 64 bit range. -/
def ClockSane (w : World B) : Prop :=
  ∀ i, -1 ≤ w.clock i ∧ w.clock i + 3 * month < 2 ^ 63

theorem ClockSane.now {w : World B} (h : w.ClockSane) : w.now.2.ClockSane :=
  fun i => h (i + 1)

theorem ClockSane.randombytesBuf {w : World B} (h : w.ClockSane) (size : ℕ) :
    (w.randombytesBuf size).2.ClockSane :=
  h

end World

variable {B : Type}

open Sodium

def cryptoBoxKeypair [Sodium B] (w : World B) : (PublicKey B × PrivateKey B) × World B :=
  match w.randombytesBuf 32 with
  | (privateKey, w) => ((cryptoScalarmultBase privateKey, privateKey), w)

/-- `crypto_sign` in combined mode: the signature comes before the message. -/
def cryptoSign [Sodium B] (message : List B) (key : PrivateSigningKey B) : List B :=
  (cryptoSignDetached message key).bytes ++ message

/-- `crypto_sign_open` with the size check of its wrapper. -/
def cryptoSignOpen [Sodium B] (signed : List B) (key : PublicSigningKey B) :
    Except Error (List B) :=
  if h : 64 ≤ signed.length then
    if cryptoSignVerifyDetached ⟨signed.take 64, by simp [h]⟩ (signed.drop 64) key then
      .ok (signed.drop 64)
    else .error ⟨.verificationFailed, "Failed to verify signed message."⟩
  else .error (expectationFailed "lib/sodium-wrappers.cpp")

/-- `crypto_secretbox_open_easy` with the size check of its wrapper. -/
def cryptoSecretboxOpen [Sodium B] (ciphertext : List B) (nonce : List B) (key : Key B 32) :
    Except Error (List B) :=
  if h : nonce.length = 24 then
    if 16 ≤ ciphertext.length then
      match cryptoSecretboxOpenEasy ciphertext ⟨nonce, h⟩ key with
      | some message => .ok message
      | none => .error ⟨.genericError, "Failed to decrypt message."⟩
    else .error (expectationFailed "lib/sodium-wrappers.cpp")
  else .error (expectationFailed "lib/sodium-wrappers.cpp")

section Assumptions

variable (B) [Byte B] [Sodium B]

/-- A sealed message opens under its own key. -/
def SecretboxRoundTrip : Prop :=
  ∀ (message : List B) nonce key,
    cryptoSecretboxOpenEasy (cryptoSecretboxEasy message nonce key) nonce key = some message

/-- A sealed message opens under no other key. -/
def SecretboxKeyBound : Prop :=
  ∀ (message : List B) nonce key key' opened,
    cryptoSecretboxOpenEasy (cryptoSecretboxEasy message nonce key) nonce key' = some opened →
      key' = key

/-- No ciphertext opens under two keys. -/
def SecretboxOneKey : Prop :=
  ∀ (ciphertext : List B) nonce key key' opened opened',
    cryptoSecretboxOpenEasy ciphertext nonce key = some opened →
    cryptoSecretboxOpenEasy ciphertext nonce key' = some opened' → key = key'

/-- The keyed hash has no collisions. -/
def GenerichashInjective : Prop :=
  ∀ input key input' key' : List B,
    cryptoGenerichash input key = cryptoGenerichash input' key' → input = input' ∧ key = key'

/-- The salted hash used as key derivation has no collisions. -/
def KdfInjective : Prop :=
  ∀ key salt personal key' salt' personal' : List B,
    cryptoGenerichashBlake2bSaltPersonal [] key salt personal =
      cryptoGenerichashBlake2bSaltPersonal [] key' salt' personal' →
    key = key' ∧ salt = salt'

/-- The salted hash never returns 32 zero bytes. -/
def KdfNonzero : Prop :=
  ∀ key salt personal : List B,
    cryptoGenerichashBlake2bSaltPersonal [] key salt personal ≠ Key.zero

/-- Diffie-Hellman: both sides compute one secret from generated keys. -/
def ScalarmultCommutes : Prop :=
  ∀ a b : PrivateKey B, cryptoScalarmult a (cryptoScalarmultBase b) =
    cryptoScalarmult b (cryptoScalarmultBase a)

/-- A generated public key never makes the multiplication fail. -/
def ScalarmultTotal : Prop :=
  ∀ a b : PrivateKey B, (cryptoScalarmult a (cryptoScalarmultBase b)).isSome

/-- The secret shared with a generated public key determines the other public key. -/
def ScalarmultKeyBound : Prop :=
  ∀ a a' b : PrivateKey B,
    cryptoScalarmult a (cryptoScalarmultBase b) = cryptoScalarmult a' (cryptoScalarmultBase b) →
      cryptoScalarmultBase a = cryptoScalarmultBase a'

/-- Whether the multiplication fails is decided by the public key: it does exactly
for points of small order. -/
def ScalarmultFailsByPoint : Prop :=
  ∀ (a b : PrivateKey B) (point : PublicKey B),
    (cryptoScalarmult a point).isSome = (cryptoScalarmult b point).isSome

/-- Verification accepts what the matching private key signed. -/
def SignRoundTrip : Prop :=
  ∀ (seed : Key B 32) (message : List B),
    cryptoSignVerifyDetached (cryptoSignDetached message (cryptoSignSeedKeypair seed).2) message
      (cryptoSignSeedKeypair seed).1 = true

end Assumptions

end Molch
