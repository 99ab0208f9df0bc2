import DataProcessor.Model.Micheline
import DataProcessor.Model.Prelude

/-!
# Fulfilling on Tezos

`chains.tezos.fulfill` from the script's arguments to the operation handed
to `injectOperation`: the prelude's function, `Tezos.fulfill` of the
protocol and `Operation.buildTransaction`. The branch and the counter are
what `TezosRPC` hands to its callbacks; how a counter comes about is
another module's subject.
-/

namespace DataProcessor

namespace Constants

def FULFILL_CONTRACT_ADDRESS (NETWORK : String) : String :=
  if NETWORK = "MAINNET" then "KT1MFfBe4EtzDofUcfeBmNShJPesY4HhfjMC"
  else "KT1WkMY3Vj6h1FZTAYcD1EmwcV89zVnr9ckX"

end Constants

namespace Prelude.Tezos

/-- `when (value) { is String -> context.putString(key, value) }`. -/
def putText (context : Bundle) (key : String) : V8Value → Bundle
  | .string value => context.put key (.string value)
  | _ => context

theorem putText_of_ne {key name : String} (h : name ≠ key) (context : Bundle)
    (value : V8Value) : putText context key value name = context name := by
  cases value <;> simp [putText, h]

/-- The function the script calls, over the `App.Protocol.tezos.fulfill` it
ends in. -/
def fulfill {α : Type} (protocolFulfill : Bundle → V8Value → Result α)
    (ipfsHash : Bytes) (parameters : List V8Value) : Result α := do
  let context := Bundle.empty.put "jobIdentifier" (.byteArray ipfsHash)
  let context := putText context "rpc" (argument parameters 0)
  let context := putText context "destination" (argument parameters 1)
  let payload := argument parameters 2
  let context ← putExtras (argument parameters 3) context
  protocolFulfill context payload

end Prelude.Tezos

/-- What the Tezos libraries do with keys and with the texts an operation is
made of. A text of the wrong form is refused by the type that holds it. -/
structure TezosSdk extends MichelineSdk where
  /-- `P256PublicKey.decodeFromBytes(bytes).createHash()`. -/
  createHash : Bytes → Result String
  packToBytes : Micheline → Result Bytes
  isMutez : String → Bool
  isTezosNatural : String → Bool
  isAddress : String → Bool
  isEntrypoint : String → Bool
  isBlockHash : String → Bool

structure Transaction where
  source : String
  fee : String
  counter : String
  gasLimit : String
  storageLimit : String
  amount : String
  destination : String
  entrypoint : String
  value : Micheline

structure Operation where
  branch : String
  content : Transaction

section

variable (sdk : TezosSdk)

/-- A value class over a text: its constructor checks the text. -/
def construct (valid : String → Bool) (text : String) : Result String :=
  if valid text then .ok text else .error .illegalArgument

theorem construct_ok {valid : String → Bool} {text text' : String}
    (h : construct valid text = .ok text') : text' = text := by
  unfold construct at h
  split at h
  · injection h with h
    exact h.symm
  · cases h

namespace TezosUtils

def getPublicKeyHash (cryptoModule : ICrypto) : Result String := do
  sdk.createHash (← cryptoModule.getPublicKey true)

end TezosUtils

namespace Operation

def buildOperation (branch : String) (content : Transaction) :
    Result Operation := do
  return { branch := ← construct sdk.isBlockHash branch, content := content }

def buildTransaction (cryptoModule : ICrypto)
    (fee counter gasLimit storageLimit amount : Int)
    (contractAddress entrypoint : String) (script : Micheline) :
    Result Transaction := do
  let source ← TezosUtils.getPublicKeyHash sdk cryptoModule
  let fee ← construct sdk.isMutez (toString fee)
  let counter ← construct sdk.isTezosNatural (toString counter)
  let gasLimit ← construct sdk.isTezosNatural (toString gasLimit)
  let storageLimit ← construct sdk.isTezosNatural (toString storageLimit)
  let amount ← construct sdk.isMutez (toString amount)
  let destination ← construct sdk.isAddress contractAddress
  let entrypoint ← construct sdk.isEntrypoint entrypoint
  return {
    source := source
    fee := fee
    counter := counter
    gasLimit := gasLimit
    storageLimit := storageLimit
    amount := amount
    destination := destination
    entrypoint := entrypoint
    value := script }

end Operation

namespace Tezos

/-- The operation `fulfill` injects when `fetchBranch` hands over its branch
and `fetchCounter` the counter of an address; an error is what `onError`
gets, or what is raised inside a callback. -/
def fulfill (NETWORK : String) (cryptoModule : ICrypto)
    (fetchBranch : Result String) (fetchCounter : String → Result Int)
    (context : Bundle) (unserializedPayload : V8Value) : Result Operation := do
  unserializedPayload.checkNotNull
  let fee := context.getLong "fee"
  let gasLimit := context.getLong "gasLimit"
  let storageLimit := context.getLong "storageLimit"
  let entrypoint := context.getString "entrypoint" "fulfill"
  let destination :=
    context.getString "destination" (Constants.FULFILL_CONTRACT_ADDRESS NETWORK)
  let jobIdentifier ← (match context "jobIdentifier" with
    | some (.byteArray jobID) => .ok jobID
    | _ => .error .illegalArgument)
  let payload ← Micheline.fromValue sdk.toMichelineSdk unserializedPayload
  let branch ← fetchBranch
  let address ← TezosUtils.getPublicKeyHash sdk cryptoModule
  let counter ← fetchCounter address
  let packed ← sdk.packToBytes payload
  let content ← Operation.buildTransaction sdk cryptoModule fee.toInt
    (counter + 1) gasLimit.toInt storageLimit.toInt 0 destination entrypoint
    (Micheline.fromPair (.bytes jobIdentifier) (.bytes packed))
  Operation.buildOperation sdk branch content

end Tezos

end

end DataProcessor
