import DataProcessor.Model.Evm
import DataProcessor.Model.Prelude
import DataProcessor.Model.Recoverable

/-!
# Fulfilling on Ethereum

`chains.ethereum.fulfill` from the script's arguments to the transaction
that is signed and sent: the prelude's function and `Ethereum.fulfill` of
the protocol. `prepare` is the latter's first half, up to the transaction
before its signature.
-/

namespace DataProcessor

namespace Prelude.Ethereum

/-- The function the script calls, over the `App.Protocol.ethereum.fulfill`
it ends in. -/
def fulfill {α : Type} (protocolFulfill : Bundle → V8Value → Result α)
    (ipfsHash : Bytes) (parameters : List V8Value) : Result α := do
  let payload := argument parameters 2
  let .function _ := argument parameters 4 | throw .illegalArgument
  let .function _ := argument parameters 5 | throw .illegalArgument
  let context := Bundle.empty.put "jobIdentifier" (.byteArray ipfsHash)
  let .string url := argument parameters 0 | throw .illegalArgument
  let context := context.put "rpc" (.string url)
  let .string destination := argument parameters 1 | throw .illegalArgument
  let context := context.put "destination" (.string destination)
  let context ← putExtras (argument parameters 3) context
  protocolFulfill context payload

end Prelude.Ethereum

structure SignatureData where
  v : UInt8
  r : Bytes
  s : Bytes

/-- What the web3j library and its digest supply. -/
structure Web3Sdk where
  /-- `Web3j.build(HttpService(rpc))`. -/
  build : Option String → Result Web3j
  keccak256 : Bytes → Digest
  hexToBa : String → Result Bytes
  GAS_LIMIT : Int
  /-- `SignatureDataOperations.LOWER_REAL_V`. -/
  LOWER_REAL_V : Int
  encode : RawTransaction → Bytes
  /-- `RlpEncoder.encode(RlpList(asRlpValues(transaction, signature)))`. -/
  encodeSigned : RawTransaction → SignatureData → Bytes
  rlpType : RawTransaction → UInt8

namespace Ethereum

section

variable {Point : Type} (sdk : Web3Sdk) (curve : BcCurve Point)
  (cryptoModule : ICrypto)

/-- The last 20 bytes of the public key's digest. -/
def getAddress : Result String := do
  let publicKey ← cryptoModule.getPublicKey false
  return toHex (← sliceArray (sdk.keccak256 publicKey).val 12 31)

/-- `fulfill` up to `rawTransaction`. -/
def prepare (context : Bundle) (unserializedPayload : V8Value) :
    Result (Web3j × RawTransaction) := do
  unserializedPayload.checkNotNull
  let rpc := context.getString? "rpc"
  let methodSignature := context.getString "methodSignature" "fulfill(bytes)"
  let destination := (context.getString? "destination").getD ""
  let gasLimit ← BigInteger.ofString
    (context.getString "gasLimit" (toString sdk.GAS_LIMIT)) 10
  let maxPriorityFeePerGas ← BigInteger.ofString
    (context.getString "maxPriorityFeePerGas" "0") 10
  let maxFeePerGas ← BigInteger.ofString (context.getString "maxFeePerGas" "0") 10
  let web3j ← sdk.build rpc
  let address ← getAddress sdk cryptoModule
  let rawTransaction ← EthereumUtils.buildContractCall sdk.keccak256 sdk.hexToBa
    web3j methodSignature unserializedPayload ("0x" ++ address) destination
    gasLimit maxPriorityFeePerGas maxFeePerGas
  return (web3j, rawTransaction)

/-- The hash `onSuccess` gets, or the error `onError` gets. -/
def fulfill (context : Bundle) (unserializedPayload : V8Value) :
    Result String := do
  let (web3j, rawTransaction) ← prepare sdk cryptoModule context unserializedPayload
  let transactionDigest := (sdk.keccak256 (sdk.encode rawTransaction)).val
  let signature ← cryptoModule.rawSign transactionDigest
  let r ← sliceArray signature 0 31
  let s ← sliceArray signature 32 63
  let publicKey ← cryptoModule.getPublicKey true
  let v ← RecoverableEcdsa.findRecoverId curve r s publicKey transactionDigest
  let signatureData := {
    v := UInt8.ofNat ((v.toNat + sdk.LOWER_REAL_V) % 256).toNat, r := r, s := s }
  let encodedSignedTransaction :=
    sdk.rlpType rawTransaction :: sdk.encodeSigned rawTransaction signatureData
  match ← web3j.ethSendRawTransaction ("0x" ++ toHex encodedSignedTransaction) with
  | .ok transactionHash => return transactionHash
  | .error message => throw (.exception message)

end

end Ethereum

end DataProcessor
