import DataProcessor.Model.GenericEcdsa
import DataProcessor.Model.Prelude

/-!
# Encrypting to a peer (`generateSharedKey`, `v8/prelude/Signers.kt`)

Both signer classes derive an AES key from an ECDH secret, the caller's
salt and an `info` that names the curve and the two public keys: the
device's own, compressed, and then the peer's, in the bytes it was given.
`rawStreamEncrypt` and `rawStreamDecrypt` derive it alike; the cipher picks
a nonce for every message.
-/

namespace DataProcessor

structure HkdfInput where
  macAlgorithm : String
  ikm : Bytes
  salt : Bytes
  info : Bytes
  size : Nat
  deriving DecidableEq

/-- The nonce the cipher picks for a message. -/
abbrev Nonce := { bytes : Bytes // bytes.length = 12 }

/-- The key derivation and the cipher, `AesGcmSiv` over its key. -/
structure Tink where
  computeHkdf : HkdfInput → Bytes
  /-- Key, nonce, plaintext, associated data. -/
  encrypt : Bytes → Nonce → Bytes → Bytes → Result Bytes
  /-- Key, ciphertext, associated data. -/
  decrypt : Bytes → Bytes → Bytes → Result Bytes

/-- The two public keys behind a label. -/
def keyInfo (label : String) (publicKey ephemeralPublicKeyBytes : Bytes) : Bytes :=
  label.toUTF8.toList ++ publicKey ++ ephemeralPublicKeyBytes

namespace GenericEcdsa

variable {AesKey : Type} (platform : Platform AesKey) (sweetBSigner : SweetBSigner)
  (tink : Tink)

def label : String := s!"ECDH {sweetBSigner.curveName} AES-256-GCM-SIV"

/-- The arguments `generateSharedKey` gives the key derivation. -/
def sharedKeyInput (ephemeralPublicKeyBytes sharedSecretSalt : Bytes) :
    OnDevice AesKey HkdfInput := do
  let privateKey ← getOrCreatePrivateKey platform sweetBSigner true
  let sharedSecret ←
    lift (sweetBSigner.generateSharedSecret privateKey ephemeralPublicKeyBytes)
  let publicKey ← getPublicKey platform sweetBSigner true
  return {
    macAlgorithm := "HMACSHA256"
    ikm := sharedSecret
    salt := sharedSecretSalt
    info := keyInfo (label sweetBSigner) publicKey ephemeralPublicKeyBytes
    size := 32 }

def rawStreamEncrypt (nonce : Nonce)
    (recipientPublicKeyBytes sharedSecretSalt payload : Bytes) :
    OnDevice AesKey Bytes := do
  let input ←
    sharedKeyInput platform sweetBSigner recipientPublicKeyBytes sharedSecretSalt
  lift (tink.encrypt (tink.computeHkdf input) nonce payload [])

def rawStreamDecrypt (senderPublicKeyBytes sharedSecretSalt encryptedPayload : Bytes) :
    OnDevice AesKey Bytes := do
  let input ←
    sharedKeyInput platform sweetBSigner senderPublicKeyBytes sharedSecretSalt
  lift (tink.decrypt (tink.computeHkdf input) encryptedPayload [])

/-- The class on a device, with the nonce its next message gets. -/
def crypto (sign : Bytes → Bytes → Result Bytes) (nonce : Nonce)
    (d : Device AesKey) : ICrypto where
  rawStreamDecrypt sender salt payload :=
    d.run (rawStreamDecrypt platform sweetBSigner tink sender salt payload)
  rawStreamEncrypt recipient salt payload :=
    d.run (rawStreamEncrypt platform sweetBSigner tink nonce recipient salt payload)
  rawSign payload := d.run (rawSign platform sweetBSigner sign payload)
  getPublicKey compressed := d.run (getPublicKey platform sweetBSigner compressed)

theorem crypto_rawStreamEncrypt (sign : Bytes → Bytes → Result Bytes) (nonce : Nonce)
    (d : Device AesKey) (recipient salt payload : Bytes) :
    (crypto platform sweetBSigner tink sign nonce d).rawStreamEncrypt recipient salt
        payload =
      d.run (rawStreamEncrypt platform sweetBSigner tink nonce recipient salt payload) :=
  rfl

end GenericEcdsa

/-- Key agreement on secp256r1: the peer's bytes as a key, and the secret. -/
structure KeyAgreement (PrivateKey PublicKey : Type) where
  getPublicKeyFromBytes : Bytes → Result PublicKey
  generateSecret : PrivateKey → PublicKey → Result Bytes

namespace P256

section

variable {PrivateKey PublicKey Point : Type} (keyStore : KeyStore PrivateKey)
  (curve : BcCurve Point) (agreement : KeyAgreement PrivateKey PublicKey)
  (tink : Tink)

/-- The arguments `generateSharedKey` gives the key derivation. -/
def sharedKeyInput (ephemeralPublicKeyBytes sharedSecretSalt : Bytes) :
    Result HkdfInput := do
  let keyPair ← getOrCreateKeyPair keyStore
  let ephemeralPublicKey ← agreement.getPublicKeyFromBytes ephemeralPublicKeyBytes
  let sharedSecret ← agreement.generateSecret keyPair.priv ephemeralPublicKey
  let publicKey ← getPublicKey keyStore curve true
  return {
    macAlgorithm := "HMACSHA256"
    ikm := sharedSecret
    salt := sharedSecretSalt
    info := keyInfo "ECDH secp256r1 AES-256-GCM-SIV" publicKey ephemeralPublicKeyBytes
    size := 32 }

def rawStreamEncrypt (nonce : Nonce)
    (recipientPublicKeyBytes sharedSecretSalt payload : Bytes) : Result Bytes := do
  let input ←
    sharedKeyInput keyStore curve agreement recipientPublicKeyBytes sharedSecretSalt
  tink.encrypt (tink.computeHkdf input) nonce payload []

def rawStreamDecrypt (senderPublicKeyBytes sharedSecretSalt encryptedPayload : Bytes) :
    Result Bytes := do
  let input ←
    sharedKeyInput keyStore curve agreement senderPublicKeyBytes sharedSecretSalt
  tink.decrypt (tink.computeHkdf input) encryptedPayload []

/-- The class on a key store, with the nonce its next message gets. -/
def crypto (jca : Jca PrivateKey) (nonce : Nonce) : ICrypto where
  rawStreamDecrypt := rawStreamDecrypt keyStore curve agreement tink
  rawStreamEncrypt := rawStreamEncrypt keyStore curve agreement tink nonce
  rawSign := rawSign jca keyStore
  getPublicKey := getPublicKey keyStore curve

end

end P256

/-! ## What a script calls -/

namespace Signers

variable (hexToBa : String → Result Bytes) (crypto : ICrypto)

/-- `when (value) { is String -> value.hexToBa() }`. -/
def hexArgument : V8Value → Result Bytes
  | .string text => hexToBa text
  | _ => .error .illegalArgument

def encrypt (parameters : List V8Value) : Result String := do
  let publicKey ← hexArgument hexToBa (argument parameters 0)
  let sharedSecretSalt ← hexArgument hexToBa (argument parameters 1)
  let payload ← hexArgument hexToBa (argument parameters 2)
  let encrypted ← crypto.rawStreamEncrypt publicKey sharedSecretSalt payload
  return toHex encrypted

/-- As in the source, over `rawStreamEncrypt`. -/
def decrypt (parameters : List V8Value) : Result String := do
  let publicKey ← hexArgument hexToBa (argument parameters 0)
  let sharedSecretSalt ← hexArgument hexToBa (argument parameters 1)
  let encrypted ← hexArgument hexToBa (argument parameters 2)
  let decrypted ← crypto.rawStreamEncrypt publicKey sharedSecretSalt encrypted
  return toHex decrypted

end Signers

end DataProcessor
