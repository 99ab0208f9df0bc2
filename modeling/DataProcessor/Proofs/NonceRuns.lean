import DataProcessor.Model.Curve
import DataProcessor.Model.EthereumAccount
import DataProcessor.Model.Extrinsics
import DataProcessor.Proofs.Extras
import DataProcessor.Proofs.FetchBatches

/-!
# When no nonce is used twice

On both chains a call asks for its nonce and submits later, and nothing
holds other calls back in between. Two acknowledgements of one fetch get the
same nonce, and so do two fulfillments with no block between them; and on
Ethereum a response with an error makes the nonce 1 whatever was mined. Where
calls query alone the runs are those of `Account.exact_of_reaches`.
-/

namespace DataProcessor

open Lib

theorem extrinsic_nonces_nodup {accountId : Bytes} {included : Nat} {s : ExtrinsicAccount}
    (h : Reaches (ExtrinsicAccount.step accountId) ExtrinsicAccount.QueriesAlone
      (Account.initial included) s) :
    (s.sent.map Sent.nonce).Nodup :=
  (Account.exact_of_reaches (ExtrinsicAccount.preparedNonce_eq accountId) h).distinct

/-- Every transaction sent while none is pending has the next nonce, and no
two have the same. -/
def EthereumAccount.NoncesInOrder (s : EthereumAccount) : Prop :=
  (∀ tx ∈ s.sent, tx.pending = false → tx.nonce = tx.next) ∧ (s.sent.map Sent.nonce).Nodup

theorem ethereum_nonces_in_order {sdk : Web3Sdk} {cryptoModule : ICrypto} {mined : Nat}
    {s : EthereumAccount}
    (h : Reaches (EthereumAccount.step sdk cryptoModule) EthereumAccount.QueriesAlone
      (Account.initial mined) s) :
    s.NoncesInOrder :=
  have hexact := Account.exact_of_reaches (EthereumAccount.preparedNonce_eq sdk cryptoModule) h
  ⟨fun tx htx _ => hexact.next tx htx, hexact.distinct⟩

/-! ## Two acknowledgements of one fetch -/

def newJob (requester : UInt8) : JobAssignment × Result JobRegistration × Moment :=
  (jobOf requester,
    .ok { script := [0x51, 0x6d], startTime := 0, endTime := 0, interval := 0 }, midsummer)

def acknowledging : List ExtrinsicCall :=
  acknowledgements (AcurastRPC.fetchJobs isoTexts true [newJob 1, newJob 2])

theorem acknowledging_eq : ∃ first second, acknowledging = [first, second] := ⟨_, _, rfl⟩

/-- A node that answers everything, at its fourth block. -/
def openNode : AcurastNode where
  getAccountInfo _ := .ok 0
  getHeader := .ok 4
  getBlockHash number := .ok (toHex (toBE 32 number))
  getRuntimeVersion := .ok (1, 1)
  hexToBa := hexStringToByteArray

theorem preparedNonce_open (accountId : Bytes) (call : ExtrinsicCall) (included : Nat) :
    ExtrinsicAccount.preparedNonce accountId call openNode included = some included := by
  have hprepared : ∃ data,
      AcurastUtils.prepareOperation (openNode.atCount included) accountId = .ok data := by
    simp only [AcurastUtils.prepareOperation, AcurastNode.atCount, openNode, Except.map, bind,
      Except.bind, pure, Except.pure, hexStringToByteArray_toHex]
    exact ⟨_, rfl⟩
  obtain ⟨data, hdata⟩ := hprepared
  have hnonce : ExtrinsicAccount.preparedNonce accountId call openNode included
      = some data.nonce := Option.map_eq_some_iff.2 ⟨data, toOption_eq_some.2 hdata, rfl⟩
  rwa [ExtrinsicAccount.preparedNonce_eq accountId call openNode included _ trivial hnonce]
    at hnonce

/-- The second query comes after a block with the first acknowledgement. -/
def acknowledgeInTurn : List ExtrinsicAction :=
  [.start acknowledging, .ask 0 openNode, .send 0, .takeNext, .start [.heartbeat], .ask 0 openNode,
    .send 0]

def acknowledgeAtOnce : List ExtrinsicAction :=
  [.start acknowledging, .ask 0 openNode, .ask 0 openNode, .send 0, .send 0]

theorem extrinsic_nonces_in_turn :
    ∃ s, runAll (ExtrinsicAccount.step []) ExtrinsicAccount.QueriesAlone acknowledgeInTurn
        (Account.initial 7) = some s ∧ s.sent.map Sent.nonce = [8, 7] ∧
      (s.sent.map Sent.nonce).Nodup := by
  obtain ⟨first, second, hcalls⟩ := acknowledging_eq
  obtain ⟨s, hs, hnonces⟩ : ∃ s,
      runAll (ExtrinsicAccount.step []) ExtrinsicAccount.QueriesAlone acknowledgeInTurn
        (Account.initial 7) = some s ∧ s.sent.map Sent.nonce = [8, 7] := by
    simp [acknowledgeInTurn, hcalls, runAll, ExtrinsicAccount.step,
      ExtrinsicAccount.QueriesAlone, Account.step, Account.AsksAlone, Account.initial,
      Account.hasPending, preparedNonce_open]
  exact ⟨s, hs, hnonces, extrinsic_nonces_nodup (reaches_of_runAll hs)⟩

theorem extrinsic_nonce_twice :
    ∃ s, Reaches (ExtrinsicAccount.step []) anyStep (Account.initial 7) s ∧
      s.sent.map Sent.nonce = [7, 7] ∧ ¬ (s.sent.map Sent.nonce).Nodup := by
  obtain ⟨first, second, hcalls⟩ := acknowledging_eq
  obtain ⟨s, hs, hnonces⟩ : ∃ s,
      runAll (ExtrinsicAccount.step []) anyStep acknowledgeAtOnce (Account.initial 7) = some s ∧
        s.sent.map Sent.nonce = [7, 7] := by
    simp [acknowledgeAtOnce, hcalls, runAll, anyStep, ExtrinsicAccount.step,
      Account.step, Account.initial, preparedNonce_open]
  refine ⟨s, reaches_of_runAll hs, hnonces, ?_⟩
  rw [hnonces]
  decide

/-! ## Two fulfillments, and a count that is not answered

The device's key is the private key 1. -/

def keyOne : Bytes := toBE 32 (Curve.Gx .SECP_256_K1) ++ toBE 32 (Curve.Gy .SECP_256_K1)

/-- Keccak-256 of that public key, and of `fulfill(bytes)`. -/
def keccakOne (bytes : Bytes) : Digest :=
  if bytes = keyOne then
    ⟨toBE 32 0xc0a6c424ac7157ae408398df7e5f4552091a69125d5dfcb7b8c2659029395bdf, length_toBE ..⟩
  else
    ⟨toBE 32 0x144f725ed461c88e6eaf00ab9822d1ad443f2d5ff1ba6b5a8e048269c9df7865, length_toBE ..⟩

def oneSdk : Web3Sdk := { idleWeb3Sdk with keccak256 := keccakOne }

def oneCrypto : ICrypto := { idleCrypto with getPublicKey := fun _ => .ok keyOne }

def chainOne : Web3j where
  ethChainId := .ok 1
  ethGetTransactionCount _ := .ok (some 0)
  ethSendRawTransaction _ := .error (.external "IOException")

def fulfillHalf : FulfillArguments := (Bundle.empty, .string "ff")

def fulfillInTurn : List EthereumAction :=
  [.start [fulfillHalf, fulfillHalf], .ask 0 (chainOne, .count), .send 0, .takeNext,
    .ask 0 (chainOne, .count), .send 0]

def fulfillAtOnce : List EthereumAction :=
  [.start [fulfillHalf, fulfillHalf], .ask 0 (chainOne, .count), .send 0,
    .ask 0 (chainOne, .count), .send 0]

def fulfillUnanswered : List EthereumAction :=
  [.start [fulfillHalf], .ask 0 (chainOne, .hasError), .send 0]

theorem getAddress_one :
    Ethereum.getAddress oneSdk oneCrypto = .ok "7e5f4552091a69125d5dfcb7b8c2659029395bdf" := by
  decide

theorem buildContractCall_half (response : CountResponse) (mined : Nat) :
    ∃ tx, EthereumUtils.buildContractCall keccakOne hexStringToByteArray
      (chainOne.answering response mined) "fulfill(bytes)" (.string "ff")
      ("0x" ++ "7e5f4552091a69125d5dfcb7b8c2659029395bdf") "" 9000000 0 0 = .ok tx := by
  have hpayload : hexStringToByteArray "ff" = .ok [0xff] := rfl
  simp only [EthereumUtils.buildContractCall, Web3j.answering, chainOne,
    EthereumUtils.encodeMethodSignature_eq, hpayload, bind, Except.bind, pure, Except.pure]
  exact ⟨_, rfl⟩

theorem prepare_half (response : CountResponse) (mined : Nat) :
    ∃ prepared, Ethereum.prepare
      { oneSdk with build := fun _ => .ok (chainOne.answering response mined) } oneCrypto
      fulfillHalf.1 fulfillHalf.2 = .ok prepared := by
  have hgas : BigInteger.ofString (toString (9000000 : Int)) 10 = .ok 9000000 :=
    BigInteger.ofString_toString _
  have hzero : BigInteger.ofString "0" 10 = .ok 0 := rfl
  have hcheck : (V8Value.string "ff").checkNotNull = .ok () := rfl
  have haddress : Ethereum.getAddress
      { oneSdk with build := fun _ => .ok (chainOne.answering response mined) } oneCrypto
        = .ok "7e5f4552091a69125d5dfcb7b8c2659029395bdf" := getAddress_one
  obtain ⟨tx, htx⟩ := buildContractCall_half response mined
  have hempty (name default : String) : Bundle.empty.getString name default = default := rfl
  have hdestination : (Bundle.empty.getString? "destination").getD "" = "" := rfl
  have hsdk : oneSdk.GAS_LIMIT = 9000000 ∧ oneSdk.keccak256 = keccakOne ∧
      oneSdk.hexToBa = hexStringToByteArray := ⟨rfl, rfl, rfl⟩
  simp only [Ethereum.prepare, fulfillHalf, hempty, hdestination, haddress, bind, Except.bind]
  simp only [hsdk, hgas, hzero, hcheck, htx]
  exact ⟨_, rfl⟩

theorem preparedNonce_half (response : CountResponse) (mined : Nat) :
    EthereumAccount.preparedNonce oneSdk oneCrypto fulfillHalf (chainOne, response) mined
      = some (response.nonce mined) := by
  obtain ⟨prepared, hprepared⟩ := prepare_half response mined
  have hnonce : EthereumAccount.preparedNonce oneSdk oneCrypto fulfillHalf (chainOne, response)
      mined = some prepared.2.nonce.toNat :=
    Option.map_eq_some_iff.2 ⟨prepared, toOption_eq_some.2 hprepared, rfl⟩
  rw [hnonce, prepare_nonce hprepared, Int.toNat_natCast]

theorem ethereum_nonces_in_turn :
    ∃ s, runAll (EthereumAccount.step oneSdk oneCrypto) EthereumAccount.QueriesAlone
        fulfillInTurn (Account.initial 5) = some s ∧ s.sent.map Sent.nonce = [6, 5] ∧
      s.NoncesInOrder := by
  obtain ⟨s, hs, hnonces⟩ : ∃ s,
      runAll (EthereumAccount.step oneSdk oneCrypto) EthereumAccount.QueriesAlone
        fulfillInTurn (Account.initial 5) = some s ∧ s.sent.map Sent.nonce = [6, 5] := by
    simp [fulfillInTurn, runAll, EthereumAccount.step, EthereumAccount.QueriesAlone,
      EthereumAccount.ErrsAtOne, Account.step, Account.AsksAlone, Account.initial,
      Account.hasPending, preparedNonce_half, CountResponse.nonce]
  exact ⟨s, hs, hnonces, ethereum_nonces_in_order (reaches_of_runAll hs)⟩

/-- Two calls before a block have one nonce; an error makes it 1 after five
mined transactions, with nothing pending. -/
theorem ethereum_nonces_out_of_order :
    (∃ s, Reaches (EthereumAccount.step oneSdk oneCrypto) anyStep (Account.initial 5) s ∧
      s.sent.map Sent.nonce = [5, 5] ∧ ¬ s.NoncesInOrder) ∧
    (∃ s, Reaches (EthereumAccount.step oneSdk oneCrypto) anyStep (Account.initial 5) s ∧
      s.sent.map (fun tx => (tx.nonce, tx.next, tx.pending)) = [(1, 5, false)] ∧
      ¬ s.NoncesInOrder) := by
  constructor
  · obtain ⟨s, hs, hnonces⟩ : ∃ s,
        runAll (EthereumAccount.step oneSdk oneCrypto) anyStep fulfillAtOnce
          (Account.initial 5) = some s ∧ s.sent.map Sent.nonce = [5, 5] := by
      simp [fulfillAtOnce, runAll, anyStep, EthereumAccount.step, Account.step,
        Account.initial, preparedNonce_half, CountResponse.nonce]
    refine ⟨s, reaches_of_runAll hs, hnonces, fun h => ?_⟩
    have hnodup := h.2
    rw [hnonces] at hnodup
    exact absurd hnodup (by decide)
  · obtain ⟨s, hs, hsent⟩ : ∃ s,
        runAll (EthereumAccount.step oneSdk oneCrypto) anyStep fulfillUnanswered
            (Account.initial 5) = some s ∧
          s.sent = [{ call := fulfillHalf, nonce := 1, next := 5, pending := false }] := by
      simp [fulfillUnanswered, runAll, anyStep, EthereumAccount.step, Account.step,
        Account.initial, Account.hasPending, preparedNonce_half, CountResponse.nonce]
    refine ⟨s, reaches_of_runAll hs, by rw [hsent]; rfl, fun h => ?_⟩
    have hnext := h.1 _ (by rw [hsent]; exact List.mem_singleton.2 rfl) rfl
    exact absurd hnext (by decide)

end DataProcessor
