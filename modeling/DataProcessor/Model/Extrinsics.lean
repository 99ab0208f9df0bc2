import DataProcessor.Lib.Accounts
import DataProcessor.Model.FetchJobs

/-!
# Extrinsics of the device (`protocol/acurast`)

Every extrinsic runs in a coroutine of its own. `prepareOperation` asks the
chain for the account's nonce and a few more things, `prepareExtrinsic`
signs the call with them, and `submitExtrinsic` sends it. Nothing is shared
between two coroutines, so together they are an `Account` whose calls number
themselves with what `prepareOperation` makes of the chain's answers.
-/

namespace DataProcessor

open Lib

/-- The calls the device signs. -/
inductive ExtrinsicCall
  | heartbeat
  | pairWithManager
  | report (jobId : JobIdentifier) (last : Bool)
  | fulfill (script payload : Bytes)
  | submitAttestation
  | advertise (rewardAssetId : Int)
  | acknowledgeJob (jobId : JobIdentifier)
  deriving DecidableEq

structure OperationData where
  /-- The block the mortal era starts from. -/
  era : Nat
  nonce : Nat
  tip : Int
  specVersion : Int
  transactionVersion : Int
  genesisHash : Bytes
  blockHash : Bytes

/-- The answers of an Acurast node. -/
structure AcurastNode where
  /-- The nonce in an account's info. -/
  getAccountInfo : Bytes → Result Nat
  /-- The number of the newest header. -/
  getHeader : Result Nat
  getBlockHash : Nat → Result String
  /-- The spec version and the transaction version. -/
  getRuntimeVersion : Result (Int × Int)
  hexToBa : String → Result Bytes

namespace AcurastUtils

def prepareOperation (rpc : AcurastNode) (accountId : Bytes) : Result OperationData := do
  let nonce ← rpc.getAccountInfo accountId
  let number ← rpc.getHeader
  let genesisBlockHash ← rpc.getBlockHash 0
  let latestBlockHash ← rpc.getBlockHash number
  let (specVersion, transactionVersion) ← rpc.getRuntimeVersion
  return {
    era := number
    nonce := nonce
    tip := 0
    specVersion := specVersion
    transactionVersion := transactionVersion
    genesisHash := ← rpc.hexToBa genesisBlockHash
    blockHash := ← rpc.hexToBa latestBlockHash }

theorem prepareOperation_nonce {rpc : AcurastNode} {accountId : Bytes}
    {data : OperationData} (h : prepareOperation rpc accountId = .ok data) :
    rpc.getAccountInfo accountId = .ok data.nonce := by
  obtain ⟨nonce, hnonce, h⟩ := bind_ok.1 h
  obtain ⟨number, -, h⟩ := bind_ok.1 h
  obtain ⟨genesisBlockHash, -, h⟩ := bind_ok.1 h
  obtain ⟨latestBlockHash, -, h⟩ := bind_ok.1 h
  obtain ⟨versions, -, h⟩ := bind_ok.1 h
  obtain ⟨genesisHash, -, h⟩ := bind_ok.1 h
  obtain ⟨blockHash, -, h⟩ := bind_ok.1 h
  cases h
  exact hnonce

end AcurastUtils

/-- The node while so many of the account's extrinsics are in blocks: that is
the nonce in the account's info, wherever it answers the info. -/
def AcurastNode.atCount (rpc : AcurastNode) (included : Nat) : AcurastNode :=
  { rpc with
    getAccountInfo := fun accountId => (rpc.getAccountInfo accountId).map fun _ => included }

abbrev ExtrinsicAccount := Account ExtrinsicCall

/-- A query comes with the node as the call meets it. -/
abbrev ExtrinsicAction := AccountAction ExtrinsicCall AcurastNode

namespace ExtrinsicAccount

/-- The nonce of the extrinsic, where `prepareOperation` gets through. -/
def preparedNonce (accountId : Bytes) (_ : ExtrinsicCall) (rpc : AcurastNode)
    (included : Nat) : Option Nat :=
  (AcurastUtils.prepareOperation (rpc.atCount included) accountId).toOption.map
    OperationData.nonce

def step (accountId : Bytes) : ExtrinsicAccount → ExtrinsicAction → Option ExtrinsicAccount :=
  Account.step (preparedNonce accountId)

/-- The condition on a step: the nonce is queried only while no other
extrinsic has one it has not submitted, and every one submitted is in a
block. -/
def QueriesAlone : ExtrinsicAccount → ExtrinsicAction → Prop :=
  Account.AsksAlone fun _ _ => True

instance (s : ExtrinsicAccount) (a : ExtrinsicAction) : Decidable (QueriesAlone s a) :=
  inferInstanceAs (Decidable (Account.AsksAlone (fun _ _ => True) s a))

theorem preparedNonce_eq (accountId : Bytes) :
    Account.BuildsCount (preparedNonce accountId) fun _ _ => True := by
  intro call rpc included nonce _ h
  obtain ⟨data, hdata, hnonce⟩ := Option.map_eq_some_iff.1 h
  have hinfo := AcurastUtils.prepareOperation_nonce (toOption_eq_some.1 hdata)
  obtain ⟨info, -, hinfo⟩ := map_ok.1 hinfo
  rw [← hnonce, ← hinfo]

end ExtrinsicAccount

/-- The acknowledgements among what `fetchJobs` does. -/
def acknowledgements (done : List (FetchEffect JobIdentifier)) : List ExtrinsicCall :=
  done.filterMap fun
    | .acknowledge jobId => some (.acknowledgeJob jobId)
    | _ => none

end DataProcessor
