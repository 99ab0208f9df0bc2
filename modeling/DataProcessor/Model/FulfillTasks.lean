import DataProcessor.Model.Callbacks
import DataProcessor.Model.Counter
import DataProcessor.Model.EthereumFulfill
import DataProcessor.Model.TezosFulfill

/-!
# A fulfillment's way through its callbacks

`Ethereum.fulfill` does all its work inside one `try` on the caller's thread.
`Tezos.fulfill` only starts it: `fetchBranch`, `fetchCounter` and
`injectOperation` each hand a task to an executor, look up a synchronized
node there and launch a coroutine that asks it, and each goes on in the
success callback of the one before. Every step is written here with the
`try` the source gives it.

`getSyncedNodes` answers a list of one node, so a step launches one
coroutine, and the `Once` around its success callback has nothing to hold
back.

What a call meets on its way, the nodes that are synchronized, what they
answer and what the key module does at each stage, is a `TezosCall`.
-/

namespace DataProcessor

namespace Constants

def INJECTION_RETRY_COUNT : Nat := 3

end Constants

/-- What one node answers to a call. -/
structure TezosNode where
  getBlockHeader : Result String
  /-- The counter's text, if the answer has one. -/
  getCounter : String → Result (Option String)
  injectOperation : String → Result String

/-- One look-up of the configured nodes: those found synchronized, and the
place of the one drawn. -/
structure NodeLookup where
  synced : List TezosNode
  random : Nat

/-- `listOf(resultSet.toList().random())`. -/
def NodeLookup.getSyncedNodes (lookup : NodeLookup) : Result (List TezosNode) :=
  match lookup.synced[lookup.random % lookup.synced.length]? with
  | some node => .ok [node]
  | none => .error .noSuchElement

structure TezosCall where
  branchLookup : NodeLookup
  /-- The key module when the address is asked for, and when the operation
  is built. -/
  addressCrypto : ICrypto
  buildCrypto : ICrypto
  /-- The preference file and the clock in the first task of `fetchCounter`. -/
  prefs : SharedPreferences
  now : Int64
  counterLookup : NodeLookup
  /-- `CryptoLegacy.signOperation`, at the attempt with so many retries left. -/
  signOperation : Nat → Operation → Result Bytes
  forgeToBytes : Operation → Result Bytes
  injectLookup : Nat → NodeLookup

abbrev FulfillTask := Task Unit Unit

namespace TezosRPC

variable (call : TezosCall)

/-- `getSyncedNodes().map { launch { try { .. } catch (e: Throwable) { .. } } }`. -/
def launchAtSynced (lookup : NodeLookup) (coroutine : TezosNode → FulfillTask)
    (handler : Thrown → FulfillTask) : FulfillTask := do
  let nodes ← Task.lift lookup.getSyncedNodes
  nodes.forM fun node => Task.submit (Task.catchThrowable (coroutine node) handler)

def fetchBranch (onSuccess : String → FulfillTask) (onError : Thrown → FulfillTask) :
    FulfillTask :=
  Task.submit (launchAtSynced call.branchLookup (fun node => do
    let hash ← Task.lift node.getBlockHeader
    onSuccess hash) onError)

/-- The second task. Writing the cache back raises nothing. -/
def onceSuccessCallback (onSuccess : Int → FulfillTask) (counter : Int) : FulfillTask :=
  Task.submit (onSuccess counter)

def fetchCounter (address : String) (onSuccess : Int → FulfillTask)
    (onError : Thrown → FulfillTask) : FulfillTask :=
  Task.submit do
    match ← Task.lift (cachedCounter call.prefs call.now) with
    | some counter => onceSuccessCallback onSuccess counter
    | none =>
        launchAtSynced call.counterLookup (fun node => do
          let counter ← Task.lift (node.getCounter address)
          let counter ← Task.lift (BigInteger.ofString (counter.getD "0") 10)
          onceSuccessCallback onSuccess counter) onError

/-- One attempt, with what its coroutine does about a failure. -/
def attemptInjection (retry : Nat) (operation : Operation)
    (onSuccess : Nat → String → FulfillTask) (handler : Thrown → FulfillTask) :
    FulfillTask := do
  let signature ← Task.lift (call.signOperation retry operation)
  let forged ← Task.lift (call.forgeToBytes operation)
  Task.submit (launchAtSynced (call.injectLookup retry) (fun node => do
    let operationHash ← Task.lift (node.injectOperation (toHex (forged ++ signature)))
    onSuccess retry operationHash) handler)

/-- `onSuccess` is told the attempt it is called in, as it need not end the
same way twice. -/
def injectOperation (operation : Operation) (onSuccess : Nat → String → FulfillTask)
    (onError : Thrown → FulfillTask) : Nat → FulfillTask
  | 0 => attemptInjection call 0 operation onSuccess onError
  | retry + 1 => attemptInjection call (retry + 1) operation onSuccess fun _ =>
      injectOperation operation onSuccess onError retry

end TezosRPC

namespace Tezos

section

variable (sdk : TezosSdk) (NETWORK : String)

/-- What `fulfill` reads before its first request. -/
structure Request where
  fee : Int64
  gasLimit : Int64
  storageLimit : Int64
  entrypoint : String
  destination : String
  jobIdentifier : Bytes
  payload : Micheline

def readRequest (context : Bundle) (unserializedPayload : V8Value) : Result Request := do
  let fee := context.getLong "fee"
  let gasLimit := context.getLong "gasLimit"
  let storageLimit := context.getLong "storageLimit"
  let entrypoint := context.getString "entrypoint" "fulfill"
  let destination :=
    context.getString "destination" (Constants.FULFILL_CONTRACT_ADDRESS NETWORK)
  let some (.byteArray jobIdentifier) := context "jobIdentifier" | throw .illegalArgument
  let payload ← Micheline.fromValue sdk.toMichelineSdk unserializedPayload
  return {
    fee := fee
    gasLimit := gasLimit
    storageLimit := storageLimit
    entrypoint := entrypoint
    destination := destination
    jobIdentifier := jobIdentifier
    payload := payload }

/-- The operation `fulfill` injects. -/
def buildFulfillment (cryptoModule : ICrypto) (request : Request) (branch : String)
    (counter : Int) : Result Operation := do
  let packed ← sdk.packToBytes request.payload
  let content ← Operation.buildTransaction sdk cryptoModule request.fee.toInt
    (counter + 1) request.gasLimit.toInt request.storageLimit.toInt 0
    request.destination request.entrypoint
    (Micheline.fromPair (.bytes request.jobIdentifier) (.bytes packed))
  Operation.buildOperation sdk branch content

/-- The operation of `fulfill`, in these parts. -/
theorem fulfill_eq (cryptoModule : ICrypto) (fetchBranch : Result String)
    (fetchCounter : String → Result Int) (context : Bundle) (unserializedPayload : V8Value) :
    fulfill sdk NETWORK cryptoModule fetchBranch fetchCounter context unserializedPayload
      = (do
        unserializedPayload.checkNotNull
        let request ← readRequest sdk NETWORK context unserializedPayload
        let branch ← fetchBranch
        let address ← TezosUtils.getPublicKeyHash sdk cryptoModule
        let counter ← fetchCounter address
        buildFulfillment sdk cryptoModule request branch counter) := by
  unfold fulfill readRequest buildFulfillment
  cases context "jobIdentifier" with
  | none => rfl
  | some value =>
      cases value with
      | byteArray jobIdentifier =>
          simp only [bind_assoc, pure_bind]
          rfl
      | _ => rfl

/-- `fulfill` with everything it sets going. -/
def fulfillTask (call : TezosCall) (context : Bundle) (unserializedPayload : V8Value)
    (onSuccess : Nat → String → FulfillTask) (onError : Thrown → FulfillTask) :
    FulfillTask := do
  Task.lift unserializedPayload.checkNotNull
  Task.catchThrowable (do
      let request ← Task.lift (readRequest sdk NETWORK context unserializedPayload)
      TezosRPC.fetchBranch call (fun branch => do
          let address ← Task.lift (TezosUtils.getPublicKeyHash sdk call.addressCrypto)
          TezosRPC.fetchCounter call address (fun counter => do
              let operation ← Task.lift
                (buildFulfillment sdk call.buildCrypto request branch counter)
              TezosRPC.injectOperation call operation onSuccess onError
                Constants.INJECTION_RETRY_COUNT)
            onError)
        onError)
    onError

end

end Tezos

namespace Ethereum

section

variable {Point : Type} (sdk : Web3Sdk) (curve : BcCurve Point) (cryptoModule : ICrypto)

/-- The transaction with its signature, as it goes over the wire. -/
def signTransaction (rawTransaction : RawTransaction) : Result Bytes := do
  let transactionDigest := (sdk.keccak256 (sdk.encode rawTransaction)).val
  let signature ← cryptoModule.rawSign transactionDigest
  let r ← sliceArray signature 0 31
  let s ← sliceArray signature 32 63
  let publicKey ← cryptoModule.getPublicKey true
  let v ← RecoverableEcdsa.findRecoverId curve r s publicKey transactionDigest
  let signatureData := {
    v := UInt8.ofNat ((v.toNat + sdk.LOWER_REAL_V) % 256).toNat, r := r, s := s }
  return sdk.rlpType rawTransaction :: sdk.encodeSigned rawTransaction signatureData

/-- `fulfill` up to `result`: the node's answer to the transaction. -/
def sendTransaction (context : Bundle) (unserializedPayload : V8Value) :
    Result (Except String String) := do
  let (web3j, rawTransaction) ← prepare sdk cryptoModule context unserializedPayload
  let encodedSignedTransaction ← signTransaction sdk curve cryptoModule rawTransaction
  web3j.ethSendRawTransaction ("0x" ++ toHex encodedSignedTransaction)

theorem fulfill_eq (context : Bundle) (unserializedPayload : V8Value) :
    fulfill sdk curve cryptoModule context unserializedPayload
      = (do
        let result ← sendTransaction sdk curve cryptoModule context unserializedPayload
        result.mapError .exception) := by
  unfold fulfill sendTransaction signTransaction
  simp only [bind_assoc, pure_bind]
  refine bind_congr fun prepared => bind_congr fun signature => bind_congr fun r =>
    bind_congr fun s => bind_congr fun publicKey => bind_congr fun v =>
    bind_congr fun result => ?_
  cases result with
  | ok transactionHash => rfl
  | error message => rfl

/-- `fulfill` with its callbacks. The payload's check is the function's own
parameter check, before the `try`. -/
def fulfillTask (context : Bundle) (unserializedPayload : V8Value)
    (onSuccess : String → FulfillTask) (onError : Thrown → FulfillTask) :
    FulfillTask := do
  Task.lift unserializedPayload.checkNotNull
  Task.catchThrowable (do
      match ← Task.lift
        (sendTransaction sdk curve cryptoModule context unserializedPayload) with
      | .ok transactionHash => onSuccess transactionHash
      | .error message => onError (.exception (.exception message)))
    onError

end

end Ethereum

end DataProcessor
