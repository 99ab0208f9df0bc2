import DataProcessor.Lib.CopyLoops
import DataProcessor.Model.SharedKey

/-!
# The native signer (`native/SweetBSigner.kt`, `cpp/sweet_b_signer.c`)

Every native function copies its byte arrays into local arrays of 32 or 64
bytes, with a loop over the length of the argument, and hands those to the
Sweet B library. The local arrays are not initialised, so that what they
hold before is a parameter, and a write outside of one can do anything: what
comes of the call is a parameter too.

What Kotlin passes to the native functions in a call of the signer's is
listed call by call, in the order of the source.
-/

namespace DataProcessor

open Lib

/-- `sb_single_t`. -/
abbrev SbSingle := Vector UInt8 32

/-- `sb_double_t`. -/
abbrev SbDouble := Vector UInt8 64

def SB_SUCCESS : Nat := 0

/-- The library: what it answers, and its error code. Private keys, digests
and secrets are single, public keys and signatures double. -/
structure SweetBLib where
  sbSwComputePublicKey : SbSingle → Int → Nat × SbDouble
  sbSwCompressPublicKey : SbDouble → Int → Nat × SbSingle × Bool
  sbSwSharedSecret : SbSingle → SbDouble → Int → Nat × SbSingle
  sbSwSignMessageDigest : SbSingle → SbSingle → Int → Nat × SbDouble
  sbSwValidPublicKey : SbDouble → Int → Nat

/-- What the local arrays hold when a native function begins. -/
structure Locals where
  privateKey : SbSingle
  publicKey : SbDouble
  messageDigest : SbSingle

/-! ## `sweet_b_signer.c`

`none` outside is a write that left its array, and `none` inside the null
reference. -/

section

variable (lib : SweetBLib) (locals : Locals)

def jniCompressPublicKey (publicKey : Bytes) (curve : Int) : Option (Option Bytes) := do
  let publicKey ← copyInto locals.publicKey 0 publicKey
  let (result, compressed, sign) := lib.sbSwCompressPublicKey publicKey curve
  let yParityByte : UInt8 := if sign then 0x03 else 0x02
  if result ≠ SB_SUCCESS then return none
  return some (yParityByte :: compressed.toList)

def jniGenerateSharedSecret (privateKey publicKey : Bytes) (curve : Int) :
    Option (Option Bytes) := do
  let privateKey ← copyInto locals.privateKey 0 privateKey
  let publicKey ← copyInto locals.publicKey 0 publicKey
  let (result, secret) := lib.sbSwSharedSecret privateKey publicKey curve
  if result ≠ SB_SUCCESS then return none
  return some secret.toList

def jniSignMessageDigest (privateKey digest : Bytes) (curve : Int) :
    Option (Option Bytes) := do
  let privateKey ← copyInto locals.privateKey 0 privateKey
  let messageDigest ← copyInto locals.messageDigest 0 digest
  let (result, signature) := lib.sbSwSignMessageDigest privateKey messageDigest curve
  if result ≠ SB_SUCCESS then return none
  return some signature.toList

def jniComputePublicKey (data : Bytes) (curve : Int) : Option (Option Bytes) := do
  let privateKey ← copyInto locals.privateKey 0 data
  let (result, publicKey) := lib.sbSwComputePublicKey privateKey curve
  if result ≠ SB_SUCCESS then return none
  return some publicKey.toList

/-- The key goes through a buffer of its own length first. -/
def jniVerifyPublicKey (data : Bytes) (curve : Int) : Option Nat := do
  let publicKey ← copyInto locals.publicKey 0 data
  return lib.sbSwValidPublicKey publicKey curve

end

/-! ## `SweetBSigner.kt` -/

inductive SbCurve
  | SB_SW_CURVE_P256
  | SB_SW_CURVE_SECP256K1
  deriving DecidableEq, Repr

namespace SbCurve

def code : SbCurve → Int
  | .SB_SW_CURVE_P256 => 0
  | .SB_SW_CURVE_SECP256K1 => 1

def name : SbCurve → String
  | .SB_SW_CURVE_P256 => "SB_SW_CURVE_P256"
  | .SB_SW_CURVE_SECP256K1 => "SB_SW_CURVE_SECP256K1"

end SbCurve

/-- A call of a native function, with its byte arrays. -/
inductive NativeCall
  | jniComputePublicKey (key : Bytes)
  | jniCompressPublicKey (key : Bytes)
  | jniVerifyPublicKey (key : Bytes)
  | jniSignMessageDigest (key message : Bytes)
  | jniGenerateSharedSecret (privateKey publicKey : Bytes)
  deriving DecidableEq, Repr

namespace NativeCall

/-- Its copy loops: the size of the local array, and what is copied. -/
def copies : NativeCall → List ((_ : Nat) × Bytes)
  | .jniComputePublicKey key => [⟨32, key⟩]
  | .jniCompressPublicKey key => [⟨64, key⟩]
  | .jniVerifyPublicKey key => [⟨64, key⟩]
  | .jniSignMessageDigest key message => [⟨32, key⟩, ⟨32, message⟩]
  | .jniGenerateSharedSecret privateKey publicKey => [⟨32, privateKey⟩, ⟨64, publicKey⟩]

/-- What it answers: an array or the null reference, or an error code. -/
def answer (lib : SweetBLib) (locals : Locals) (curve : Int) :
    NativeCall → Option (Option Bytes ⊕ Nat)
  | .jniComputePublicKey key => .inl <$> DataProcessor.jniComputePublicKey lib locals key curve
  | .jniCompressPublicKey key =>
      .inl <$> DataProcessor.jniCompressPublicKey lib locals key curve
  | .jniVerifyPublicKey key => .inr <$> DataProcessor.jniVerifyPublicKey lib locals key curve
  | .jniSignMessageDigest key message =>
      .inl <$> DataProcessor.jniSignMessageDigest lib locals key message curve
  | .jniGenerateSharedSecret privateKey publicKey =>
      .inl <$> DataProcessor.jniGenerateSharedSecret lib locals privateKey publicKey curve

end NativeCall

namespace SweetBSigner

/-- A native function's answer: `null` raises, and after a write outside an
array it is anything. -/
def answered (beyond : Result Bytes) (message : String) : Option (Option Bytes) → Result Bytes
  | none => beyond
  | some none => .error (.exception message)
  | some (some bytes) => .ok bytes

/-- The class over its library. -/
def native (lib : SweetBLib) (curve : SbCurve) (locals : Locals)
    (beyond : NativeCall → Result Bytes) : SweetBSigner where
  curveName := curve.name
  computePublicKey key :=
    answered (beyond (.jniComputePublicKey key)) "Could not compute public key."
      (jniComputePublicKey lib locals key curve.code)
  compressPublicKey publicKey :=
    answered (beyond (.jniCompressPublicKey publicKey)) "Could not compress public key."
      (jniCompressPublicKey lib locals publicKey curve.code)
  generateSharedSecret privateKey publicKey :=
    answered (beyond (.jniGenerateSharedSecret privateKey publicKey))
      "Could not generate shared secret."
      (jniGenerateSharedSecret lib locals privateKey publicKey curve.code)

end SweetBSigner

/-! ## What reaches the native functions -/

namespace GenericEcdsa

variable {AesKey : Type} (platform : Platform AesKey) (sweetBSigner : SweetBSigner)

/-- The key that is generated, in the strong box or else outside it. -/
def generatedKey : Result AesKey :=
  match platform.generateKey true with
  | .ok key => .ok key
  | .error .strongBoxUnavailable =>
      (platform.generateKey false).mapError fun
        | .strongBoxUnavailable => .external "StrongBoxUnavailableException"
        | .other e => e
  | .error (.other e) => .error e

/-- In the branch for a file that does not exist, after what comes before it. -/
def createPrivateKeyCalls : List NativeCall :=
  match (do
    platform.outputStream
    let encryptionKey ← generatedKey platform
    let _ ← platform.initEncrypt encryptionKey
    platform.secureRandomBytes : Result Bytes) with
  | .ok privateKey => [.jniComputePublicKey privateKey]
  | .error _ => []

def getOrCreatePrivateKeyCalls (d : Device AesKey) : List NativeCall :=
  match platform.load, d.keyFile with
  | .ok (), none => createPrivateKeyCalls platform
  | _, _ => []

/-- The key that is compressed is the one `getPublicKey(false)` returns. -/
def getPublicKeyCalls (compressed : Bool) (d : Device AesKey) : List NativeCall :=
  getOrCreatePrivateKeyCalls platform d ++
    match d.run (getPublicKey platform sweetBSigner false) with
    | .ok publicKey => if compressed then [.jniCompressPublicKey publicKey] else []
    | .error _ => []

def generateSharedKeyCalls (ephemeralPublicKeyBytes : Bytes) (d : Device AesKey) :
    List NativeCall :=
  getOrCreatePrivateKeyCalls platform d ++
    match (getOrCreatePrivateKey platform sweetBSigner true).run d with
    | .ok privateKey d' =>
        .jniGenerateSharedSecret privateKey ephemeralPublicKeyBytes ::
          match sweetBSigner.generateSharedSecret privateKey ephemeralPublicKeyBytes with
          | .ok _ => getPublicKeyCalls platform sweetBSigner true d'
          | .error _ => []
    | .error _ _ => []

end GenericEcdsa

/-- A call of the secp256k1 signer: by the app, or by a script through
`signers.secp256k1`. -/
inductive SignerCall
  | getPublicKey (compressed : Bool)
  | rawSign (payload : Bytes)
  | rawStreamEncrypt (recipientPublicKeyBytes sharedSecretSalt payload : Bytes)
  | rawStreamDecrypt (senderPublicKeyBytes sharedSecretSalt encryptedPayload : Bytes)
  | encrypt (parameters : List V8Value)
  | decrypt (parameters : List V8Value)

namespace SignerCall

variable {AesKey : Type} (hexToBa : String → Result Bytes)

/-- The peer's key in a script's arguments, if they all decode. -/
def decodedPeer (parameters : List V8Value) : Option Bytes :=
  match Signers.hexArgument hexToBa (argument parameters 0),
    Signers.hexArgument hexToBa (argument parameters 1),
    Signers.hexArgument hexToBa (argument parameters 2) with
  | .ok publicKey, .ok _, .ok _ => some publicKey
  | _, _, _ => none

/-- The peer's key that `generateSharedKey` gets, if the call comes to it. -/
def peer : SignerCall → Option Bytes
  | .getPublicKey _ => none
  | .rawSign _ => none
  | .rawStreamEncrypt recipientPublicKeyBytes _ _ => some recipientPublicKeyBytes
  | .rawStreamDecrypt senderPublicKeyBytes _ _ => some senderPublicKeyBytes
  | .encrypt parameters => decodedPeer hexToBa parameters
  | .decrypt parameters => decodedPeer hexToBa parameters

/-- What the call returns: bytes, or a script's text. -/
def run (crypto : ICrypto) : SignerCall → Result (Bytes ⊕ String)
  | .getPublicKey compressed => .inl <$> crypto.getPublicKey compressed
  | .rawSign payload => .inl <$> crypto.rawSign payload
  | .rawStreamEncrypt recipient salt payload =>
      .inl <$> crypto.rawStreamEncrypt recipient salt payload
  | .rawStreamDecrypt sender salt encrypted =>
      .inl <$> crypto.rawStreamDecrypt sender salt encrypted
  | .encrypt parameters => .inr <$> Signers.encrypt hexToBa crypto parameters
  | .decrypt parameters => .inr <$> Signers.decrypt hexToBa crypto parameters

/-- The native calls it makes, in order. -/
def nativeCalls (platform : Platform AesKey) (sweetBSigner : SweetBSigner)
    (d : Device AesKey) (call : SignerCall) : List NativeCall :=
  match call with
  | .getPublicKey compressed =>
      GenericEcdsa.getPublicKeyCalls platform sweetBSigner compressed d
  | .rawSign _ => GenericEcdsa.getOrCreatePrivateKeyCalls platform d
  | _ =>
      match call.peer hexToBa with
      | some publicKey =>
          GenericEcdsa.generateSharedKeyCalls platform sweetBSigner publicKey d
      | none => []

end SignerCall

end DataProcessor
