import DataProcessor.Lib.Accounts
import DataProcessor.Model.EthereumFulfill

/-!
# Fulfillments of one Ethereum account

Each `Ethereum.fulfill` asks its node for the sender's transaction count,
of mined transactions only, builds the transaction with it as the nonce,
signs it and sends it. A response that has an error counts as the nonce 1.
-/

namespace DataProcessor

open Lib

/-- A response to `ethGetTransactionCount`. -/
inductive CountResponse
  | count
  | hasError
  deriving DecidableEq

namespace CountResponse

def transactionCount (response : CountResponse) (mined : Nat) : Option Int :=
  match response with
  | count => some mined
  | hasError => none

/-- `if (transactionCount.hasError()) ONE else transactionCount`. -/
def nonce (response : CountResponse) (mined : Nat) : Nat :=
  match response with
  | count => mined
  | hasError => 1

end CountResponse

/-- The nonce `buildContractCall` puts into the transaction. -/
theorem buildContractCall_nonce {keccak256 : Bytes → Digest}
    {hexToBa : String → Result Bytes} {web3j : Web3j} {methodSignature : String}
    {unserializedPayload : V8Value} {sender recipient : String}
    {gasLimit maxPriorityFeePerGas maxFeePerGas : Int} {tx : RawTransaction}
    {response : CountResponse} {mined : Nat}
    (hcount : web3j.ethGetTransactionCount sender = .ok (response.transactionCount mined))
    (h : EthereumUtils.buildContractCall keccak256 hexToBa web3j methodSignature
      unserializedPayload sender recipient gasLimit maxPriorityFeePerGas maxFeePerGas
        = .ok tx) :
    tx.nonce = response.nonce mined := by
  obtain ⟨chainId, -, h⟩ := bind_ok.1 h
  obtain ⟨transactionCount, hcount', h⟩ := bind_ok.1 h
  obtain ⟨encodedMethodSig, -, h⟩ := bind_ok.1 h
  obtain ⟨payload, -, h⟩ := bind_ok.1 h
  rw [hcount] at hcount'
  cases hcount'
  cases h
  cases response <;> rfl

/-- The node with its response to the query, at a count of mined
transactions. -/
def Web3j.answering (web3j : Web3j) (response : CountResponse) (mined : Nat) : Web3j :=
  { web3j with ethGetTransactionCount := fun _ => .ok (response.transactionCount mined) }

theorem prepare_nonce {sdk : Web3Sdk} {cryptoModule : ICrypto} {context : Bundle}
    {payload : V8Value} {web3j : Web3j} {response : CountResponse} {mined : Nat}
    {prepared : Web3j × RawTransaction}
    (h : Ethereum.prepare { sdk with build := fun _ => .ok (web3j.answering response mined) }
      cryptoModule context payload = .ok prepared) :
    prepared.2.nonce = response.nonce mined := by
  obtain ⟨_, -, h⟩ := bind_ok.1 h
  obtain ⟨gasLimit, -, h⟩ := bind_ok.1 h
  obtain ⟨maxPriorityFeePerGas, -, h⟩ := bind_ok.1 h
  obtain ⟨maxFeePerGas, -, h⟩ := bind_ok.1 h
  obtain ⟨node, hnode, h⟩ := bind_ok.1 h
  obtain ⟨address, -, h⟩ := bind_ok.1 h
  obtain ⟨rawTransaction, hbuild, h⟩ := bind_ok.1 h
  cases hnode
  cases h
  exact buildContractCall_nonce rfl hbuild

/-- The arguments of one call. -/
abbrev FulfillArguments := Bundle × V8Value

abbrev EthereumAccount := Account FulfillArguments

/-- A query comes with the node as the call meets it, and its response. -/
abbrev EthereumAction := AccountAction FulfillArguments (Web3j × CountResponse)

namespace EthereumAccount

/-- The nonce of the transaction, where `prepare` gets through. -/
def preparedNonce (sdk : Web3Sdk) (cryptoModule : ICrypto) (call : FulfillArguments)
    (answer : Web3j × CountResponse) (mined : Nat) : Option Nat :=
  (Ethereum.prepare { sdk with build := fun _ => .ok (answer.1.answering answer.2 mined) }
    cryptoModule call.1 call.2).toOption.map fun prepared => prepared.2.nonce.toNat

def step (sdk : Web3Sdk) (cryptoModule : ICrypto) :
    EthereumAccount → EthereumAction → Option EthereumAccount :=
  Account.step (preparedNonce sdk cryptoModule)

/-- A response with an error comes only while the next nonce is 1. -/
def ErrsAtOne (answer : Web3j × CountResponse) (mined : Nat) : Prop :=
  answer.2 = .hasError → mined = 1

instance (answer : Web3j × CountResponse) (mined : Nat) : Decidable (ErrsAtOne answer mined) :=
  inferInstanceAs (Decidable (answer.2 = .hasError → mined = 1))

/-- The condition on a step: the count is queried only while no other call
has a transaction it has not sent, and every one sent is mined; and a
response with an error comes only while the next nonce is 1. -/
def QueriesAlone : EthereumAccount → EthereumAction → Prop := Account.AsksAlone ErrsAtOne

instance (s : EthereumAccount) (a : EthereumAction) : Decidable (QueriesAlone s a) :=
  inferInstanceAs (Decidable (Account.AsksAlone ErrsAtOne s a))

theorem preparedNonce_eq (sdk : Web3Sdk) (cryptoModule : ICrypto) :
    Account.BuildsCount (preparedNonce sdk cryptoModule) ErrsAtOne := by
  intro call answer mined nonce herrs h
  obtain ⟨prepared, hprepared, hnonce⟩ := Option.map_eq_some_iff.1 h
  rw [prepare_nonce (toOption_eq_some.1 hprepared), Int.toNat_natCast] at hnonce
  rw [← hnonce]
  cases hresponse : answer.2 with
  | count => rfl
  | hasError => exact (herrs hresponse).symm

end EthereumAccount

end DataProcessor
