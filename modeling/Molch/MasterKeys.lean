import Molch.Protobuf
import Molch.Sodium

namespace Molch

structure MasterKeys (B : Type) where
  publicSigningKey : PublicSigningKey B
  privateSigningKey : PrivateSigningKey B
  publicIdentityKey : PublicKey B
  privateIdentityKey : PrivateKey B

variable {B : Type}

section Generation

variable [Sodium B]

def cryptoSignKeypair (w : World B) : (PublicSigningKey B × PrivateSigningKey B) × World B :=
  match w.randombytesBuf 32 with
  | (seed, w) => (Sodium.cryptoSignSeedKeypair seed, w)

def cryptoBoxSeedKeypair (seed : Key B 32) : PublicKey B × PrivateKey B :=
  (Sodium.cryptoScalarmultBase (Sodium.cryptoBoxSeedPrivateKey seed),
    Sodium.cryptoBoxSeedPrivateKey seed)

variable [Byte B]

def xorKey {size : ℕ} (a b : Key B size) : Key B size :=
  ⟨List.zipWith (fun x y => Byte.ofUInt8 (Byte.toUInt8 x ^^^ Byte.toUInt8 y)) a.bytes b.bytes, by
    rw [List.length_zipWith, a.length_bytes, b.length_bytes, Nat.min_self]⟩

/-- `spiced_random`: random bytes combined with what the password hash makes of the spice. -/
def spicedRandom (lowEntropySpice : List B) (size : ℕ) (w : World B) :
    Except Error (Key B size) × World B :=
  if lowEntropySpice.isEmpty || size == 0 then
    (.error (expectationFailed "lib/spiced-random.cpp"), w)
  else
    match w.randombytesBuf size with
    | (osRandom, w) =>
        match w.randombytesBuf 16 with
        | (salt, w) =>
            match Sodium.cryptoPwhash size lowEntropySpice salt with
            | none => (.error ⟨.genericError, "Failed to derive key from password."⟩, w)
            | some spice => (.ok (xorKey osRandom spice), w)

end Generation

namespace MasterKeys

section Generation

variable [Sodium B]

/-- `generate()` from the random source alone. -/
def generate (w : World B) : MasterKeys B × World B :=
  match cryptoSignKeypair w with
  | ((publicSigningKey, privateSigningKey), w) =>
      match cryptoBoxKeypair w with
      | ((publicIdentityKey, privateIdentityKey), w) =>
          (⟨publicSigningKey, privateSigningKey, publicIdentityKey, privateIdentityKey⟩, w)

variable [Byte B]

/-- `generate` with a seed of low entropy. -/
def generateSpiced (lowEntropySeed : List B) (w : World B) :
    Except Error (MasterKeys B) × World B :=
  if lowEntropySeed.isEmpty then (.error (expectationFailed "lib/master-keys.cpp"), w)
  else
    match spicedRandom lowEntropySeed 64 w with
    | (.error e, w) => (.error e, w)
    | (.ok highEntropySeed, w) =>
        let signing := Sodium.cryptoSignSeedKeypair (B := B)
          ⟨highEntropySeed.bytes.take 32, by simp [highEntropySeed.length_bytes]⟩
        let identity := cryptoBoxSeedKeypair (B := B)
          ⟨highEntropySeed.bytes.drop 32, by simp [highEntropySeed.length_bytes]⟩
        (.ok ⟨signing.1, signing.2, identity.1, identity.2⟩, w)

def create (lowEntropySeed : Option (List B)) (w : World B) :
    Except Error (MasterKeys B) × World B :=
  match lowEntropySeed with
  | some seed => generateSpiced seed w
  | none =>
      match generate w with
      | (masterKeys, w) => (.ok masterKeys, w)

end Generation

/-- `MasterKeys::sign`: the signature and the data in one buffer. -/
def sign [Sodium B] (masterKeys : MasterKeys B) (data : List B) : List B :=
  cryptoSign data masterKeys.privateSigningKey

def import_ (publicSigningKey privateSigningKey publicIdentityKey privateIdentityKey : List B) :
    Except Error (MasterKeys B) := do
  let publicSigningKey ← Key.fromSpan publicSigningKey
  let privateSigningKey ← Key.fromSpan privateSigningKey
  let publicIdentityKey ← Key.fromSpan publicIdentityKey
  let privateIdentityKey ← Key.fromSpan privateIdentityKey
  pure ⟨publicSigningKey, privateSigningKey, publicIdentityKey, privateIdentityKey⟩

/-- The key pairs belong together: the identity is a generated key pair, and what the private
signing key signs the public one verifies. -/
structure Paired [Sodium B] (masterKeys : MasterKeys B) : Prop where
  identity : masterKeys.publicIdentityKey =
    Sodium.cryptoScalarmultBase masterKeys.privateIdentityKey
  signing : ∃ seed, Sodium.cryptoSignSeedKeypair seed =
    (masterKeys.publicSigningKey, masterKeys.privateSigningKey)

theorem paired_of_create [Sodium B] [Byte B] {seed : Option (List B)} {w : World B}
    {masterKeys : MasterKeys B} (h : (create seed w).1 = .ok masterKeys) : masterKeys.Paired := by
  cases seed with
  | none =>
      cases h
      exact ⟨rfl, _, rfl⟩
  | some seed =>
      simp only [create, generateSpiced] at h
      split at h
      · cases h
      · split at h
        · cases h
        · cases h
          exact ⟨rfl, _, rfl⟩

end MasterKeys

end Molch
