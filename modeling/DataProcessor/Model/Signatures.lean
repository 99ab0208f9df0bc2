import DataProcessor.Model.Recoverable

/-!
# Signing with the key store (`CryptoLegacy.kt`, `P256.kt`)

Three functions take the DER signature the key store returns, read its two
INTEGERs and concatenate their trimmed byte arrays: `CryptoLegacy.ecSign`,
`CryptoLegacy.acurastSign`, which adds the recovery byte, and
`P256.rawSign`. The signature algorithm, the ASN.1 reader, the digests and
the key store are the platform's and come in as `Jca` and `KeyStore`.
-/

namespace DataProcessor

/-- The cryptographic services of the platform the signers call. -/
structure Jca (PrivateKey : Type) where
  /-- `Signature.getInstance("NONEwithECDSA")`, initialised with the key,
  updated with the payload: the DER bytes of `sign()`. -/
  sign : PrivateKey → Bytes → Result Bytes
  /-- `ASN1InputStream(…).readObject() as ASN1Sequence`, its first two
  objects as `ASN1Integer`. -/
  readIntegers : Bytes → Result (Int × Int)
  /-- BLAKE2b with a digest of so many bits. -/
  blake2b : Nat → Bytes → Bytes
  sha256 : Bytes → Bytes

/-- The public half is the affine point `w`. -/
structure KeyPair (PrivateKey : Type) where
  priv : PrivateKey
  affineX : Int
  affineY : Int

/-- The two ways generating a key pair fails that the code tells apart. -/
inductive GenerateFailure
  | strongBoxUnavailable
  | other (e : Exn)

/-- The Android key store as one call finds it. -/
structure KeyStore (PrivateKey : Type) where
  containsAlias : String → Bool
  getEntry : String → Result (KeyPair PrivateKey)
  /-- The affine point `w` of the certificate's public key. -/
  getCertificate : String → Result (Int × Int)
  generateKeyPair : Bool → Except GenerateFailure (KeyPair PrivateKey)

namespace Constants

def PROCESSOR_KEY_ALIAS : String := "signer"
def SIGNER_KEY_ALIAS : String := "signer"

end Constants

section

variable {PrivateKey Point : Type}
variable (jca : Jca PrivateKey) (keyStore : KeyStore PrivateKey)

namespace CryptoLegacy

def ecSign (payload : Bytes) (privateKey : PrivateKey) : Result Bytes := do
  let signaturePayload ← jca.sign privateKey payload
  let (r, s) ← jca.readIntegers signaturePayload
  return trim (BigInteger.toByteArray r) ++ trim (BigInteger.toByteArray s)

/-- `rawSign`: the BLAKE2b digest of the payload, signed. -/
def rawSign (payload : Bytes) : Result Bytes := do
  let entry ← keyStore.getEntry Constants.PROCESSOR_KEY_ALIAS
  ecSign jca (jca.blake2b 256 payload) entry.priv

/-- `getPublicKey`: the certificate's point, compressed. -/
def getPublicKey (curve : BcCurve Point) : Result Bytes := do
  let (affineX, affineY) ← keyStore.getCertificate Constants.PROCESSOR_KEY_ALIAS
  let ecPoint ← curve.createPoint affineX affineY
  return curve.getEncoded ecPoint true

/-- What `acurastSign` signs: long payloads are hashed twice. -/
def acurastDigest (payload : Bytes) : Bytes :=
  if payload.length > 256 then jca.sha256 (jca.blake2b 256 payload)
  else jca.sha256 payload

def acurastSign (curve : BcCurve Point) (payload : Bytes) : Result Bytes := do
  let entry ← keyStore.getEntry Constants.PROCESSOR_KEY_ALIAS
  let publicKey ← getPublicKey keyStore curve
  let messageHash := acurastDigest jca payload
  let signaturePayload ← jca.sign entry.priv messageHash
  let (rValue, sValue) ← jca.readIntegers signaturePayload
  let r := BigInteger.toByteArray rValue
  let s := BigInteger.toByteArray sValue
  let v ← RecoverableEcdsa.findRecoverId curve r s publicKey messageHash
  return trim r ++ trim s ++ [v]

end CryptoLegacy

namespace P256

/-- The stored key pair, or a new one: in the strong box first, outside it
when the device has none. -/
def getOrCreateKeyPair : Result (KeyPair PrivateKey) :=
  if !keyStore.containsAlias Constants.SIGNER_KEY_ALIAS then
    match keyStore.generateKeyPair true with
    | .ok keyPair => .ok keyPair
    | .error .strongBoxUnavailable =>
        (keyStore.generateKeyPair false).mapError fun
          | .strongBoxUnavailable => .external "StrongBoxUnavailableException"
          | .other e => e
    | .error (.other e) => .error e
  else keyStore.getEntry Constants.SIGNER_KEY_ALIAS

def getPublicKey (curve : BcCurve Point) (compressed : Bool) : Result Bytes := do
  let keyPair ← getOrCreateKeyPair keyStore
  let ecPoint ← curve.createPoint keyPair.affineX keyPair.affineY
  return curve.getEncoded ecPoint compressed

def rawSign (payload : Bytes) : Result Bytes := do
  let keyPair ← getOrCreateKeyPair keyStore
  let signaturePayload ← jca.sign keyPair.priv (jca.blake2b 256 payload)
  let (r, s) ← jca.readIntegers signaturePayload
  return trim (BigInteger.toByteArray r) ++ trim (BigInteger.toByteArray s)

end P256

end

end DataProcessor
