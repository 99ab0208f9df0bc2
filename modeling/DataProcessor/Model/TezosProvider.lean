import DataProcessor.Model.Signatures

/-!
# The Tezos SDK's crypto provider (`CryptoLegacy.Tezos`)

What the SDK signs and verifies with, over two named curves. Signing goes
through `CryptoLegacy.ecSign` and answers two trimmed numbers one behind the
other; verifying hands the bytes it is given to the platform as they are.
Key factory, curve parameters and signature algorithm are the platform's.
-/

namespace DataProcessor

open Lib

/-- The key factory and the verifying half of `NONEwithECDSA`. -/
structure EcProvider (PrivateKey PublicKey ParameterSpec : Type) where
  /-- `AlgorithmParameters.getInstance("EC")`, initialised with the name. -/
  getParameterSpec : String → Result ParameterSpec
  order : ParameterSpec → Int
  generatePrivate : Int → ParameterSpec → Result PrivateKey
  generatePublic : Int → Int → ParameterSpec → Result PublicKey
  /-- `initVerify` with the key, `update` with the message, `verify`. -/
  verify : PublicKey → Bytes → Bytes → Result Bool

namespace CryptoLegacy.Tezos

inductive ECCurve
  | Secp256K1
  | Secp256R1
  deriving DecidableEq

def ECCurve.stdName : ECCurve → String
  | .Secp256K1 => "secp256k1"
  | .Secp256R1 => "secp256r1"

variable {PrivateKey PublicKey ParameterSpec : Type} (jca : Jca PrivateKey)
  (provider : EcProvider PrivateKey PublicKey ParameterSpec)

def ecParams (curve : ECCurve) : Result ParameterSpec :=
  provider.getParameterSpec curve.stdName

def toECPrivateKey (bytes : Bytes) (curve : ECCurve) : Result PrivateKey := do
  provider.generatePrivate (ofBE bytes) (← ecParams provider curve)

def toECPoint (bytes : Bytes) (params : ParameterSpec) : Result (Int × Int) := do
  let orderLength := BigInteger.bitLength (provider.order params) / 8
  let x := ofBE (← sliceUntil bytes 0 orderLength)
  let y := ofBE (← sliceUntil bytes orderLength bytes.length)
  return (x, y)

def toECPublicKey (bytes : Bytes) (curve : ECCurve) : Result PublicKey := do
  let params ← ecParams provider curve
  let (x, y) ← toECPoint provider bytes params
  provider.generatePublic x y params

def signEC (message secretKey : Bytes) (curve : ECCurve) : Result Bytes := do
  ecSign jca message (← toECPrivateKey provider secretKey curve)

def verifyEC (message signature publicKey : Bytes) (curve : ECCurve) : Result Bool := do
  provider.verify (← toECPublicKey provider publicKey curve) message signature

def signP256 (message secretKey : Bytes) : Result Bytes :=
  signEC jca provider message secretKey .Secp256R1

def signSecp256K1 (message secretKey : Bytes) : Result Bytes :=
  signEC jca provider message secretKey .Secp256K1

def verifyP256 (message signature publicKey : Bytes) : Result Bool :=
  verifyEC provider message signature publicKey .Secp256R1

def verifySecp256K1 (message signature publicKey : Bytes) : Result Bool :=
  verifyEC provider message signature publicKey .Secp256K1

end CryptoLegacy.Tezos

end DataProcessor
