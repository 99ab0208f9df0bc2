import DataProcessor.Model.EthereumFulfill
import DataProcessor.Model.TezosFulfill

/-!
# What becomes of the script's `extra` object

The preludes store an entry with the type the script gave it; the protocol
classes read it back with a getter of their own choice. `Tezos.fulfill`
reads its three parameters as `Long`, which no entry ever is, so it always
sees the default. `Ethereum.fulfill` reads text, so a text arrives and an
integer does not. `extra_carried_iff` puts the two together.
-/

namespace DataProcessor

/-! ## The bundle the protocol reads -/

/-- The names the preludes write themselves. -/
def preludeNames : List String := ["jobIdentifier", "rpc", "destination"]

theorem not_mem_preludeNames {name : String} : name ∉ preludeNames ↔
    name ≠ "jobIdentifier" ∧ name ≠ "rpc" ∧ name ≠ "destination" := by
  simp [preludeNames]

/-- A bundle whose other names hold the script's entries and nothing else. -/
def HoldsExtra (extra : V8Value) (context : Bundle) : Prop :=
  ∀ name, name ∉ preludeNames →
    context name = (extra.entry name).bind Prelude.bundleValue

theorem holdsExtra_of_putExtras {extra : V8Value} {context context' : Bundle}
    (hctx : ∀ name, name ∉ preludeNames → context name = none)
    (h : Prelude.putExtras extra context = .ok context') :
    HoldsExtra extra context' := by
  intro name hname
  rw [Prelude.putExtras_apply h, hctx name hname]
  cases extra.entry name <;> rfl

theorem prelude_tezos_fulfill_ok {α : Type} {next : Bundle → V8Value → Result α}
    {ipfsHash : Bytes} {parameters : List V8Value} {a : α}
    (h : Prelude.Tezos.fulfill next ipfsHash parameters = .ok a) :
    ∃ context, HoldsExtra (argument parameters 3) context ∧
      next context (argument parameters 2) = .ok a := by
  obtain ⟨context, hput, h⟩ := bind_ok.1 h
  refine ⟨context, holdsExtra_of_putExtras ?_ hput, h⟩
  intro name hname
  obtain ⟨hjob, hrpc, hdest⟩ := not_mem_preludeNames.1 hname
  rw [Prelude.Tezos.putText_of_ne hdest, Prelude.Tezos.putText_of_ne hrpc,
    Bundle.put_of_ne hjob]
  rfl

theorem prelude_ethereum_fulfill_ok {α : Type}
    {next : Bundle → V8Value → Result α} {ipfsHash : Bytes}
    {parameters : List V8Value} {a : α}
    (h : Prelude.Ethereum.fulfill next ipfsHash parameters = .ok a) :
    ∃ context, HoldsExtra (argument parameters 3) context ∧
      next context (argument parameters 2) = .ok a := by
  unfold Prelude.Ethereum.fulfill at h
  split at h
  case h_2 => cases h
  split at h
  case h_2 => cases h
  split at h
  case h_2 => cases h
  split at h
  case h_2 => cases h
  obtain ⟨context, hput, h⟩ := bind_ok.1 h
  refine ⟨context, holdsExtra_of_putExtras ?_ hput, h⟩
  intro name hname
  obtain ⟨hjob, hrpc, hdest⟩ := not_mem_preludeNames.1 hname
  simp [hjob, hrpc, hdest, Bundle.empty]

/-! ## Tezos: a `Long` is read, and never written -/

theorem getLong_of_holdsExtra {extra : V8Value} {context : Bundle}
    (hctx : HoldsExtra extra context) {name : String}
    (hname : name ∉ preludeNames) : context.getLong name = 0 := by
  rw [Bundle.getLong, hctx name hname]
  cases extra.entry name with
  | none => rfl
  | some v => cases v <;> rfl

theorem buildTransaction_ok {sdk : TezosSdk} {cryptoModule : ICrypto}
    {fee counter gasLimit storageLimit amount : Int}
    {contractAddress entrypoint : String} {script : Micheline} {tx : Transaction}
    (h : Operation.buildTransaction sdk cryptoModule fee counter gasLimit
      storageLimit amount contractAddress entrypoint script = .ok tx) :
    tx.fee = toString fee ∧ tx.counter = toString counter ∧
      tx.gasLimit = toString gasLimit ∧ tx.storageLimit = toString storageLimit ∧
      tx.amount = toString amount ∧ tx.destination = contractAddress ∧
      tx.entrypoint = entrypoint ∧ tx.value = script := by
  obtain ⟨source, -, h⟩ := bind_ok.1 h
  obtain ⟨fee', hfee, h⟩ := bind_ok.1 h
  obtain ⟨counter', hcounter, h⟩ := bind_ok.1 h
  obtain ⟨gasLimit', hgas, h⟩ := bind_ok.1 h
  obtain ⟨storageLimit', hstorage, h⟩ := bind_ok.1 h
  obtain ⟨amount', hamount, h⟩ := bind_ok.1 h
  obtain ⟨destination', hdest, h⟩ := bind_ok.1 h
  obtain ⟨entrypoint', hentry, h⟩ := bind_ok.1 h
  cases h
  exact ⟨construct_ok hfee, construct_ok hcounter, construct_ok hgas,
    construct_ok hstorage, construct_ok hamount, construct_ok hdest,
    construct_ok hentry, rfl⟩

/-- What `Tezos.fulfill` puts into its operation is what it read. -/
theorem tezos_fulfill_ok {sdk : TezosSdk} {NETWORK : String} {cryptoModule : ICrypto}
    {fetchBranch : Result String} {fetchCounter : String → Result Int}
    {context : Bundle} {unserializedPayload : V8Value} {op : Operation}
    (h : Tezos.fulfill sdk NETWORK cryptoModule fetchBranch fetchCounter context
      unserializedPayload = .ok op) :
    ∃ jobIdentifier payload packed,
      context "jobIdentifier" = some (.byteArray jobIdentifier) ∧
      Micheline.fromValue sdk.toMichelineSdk unserializedPayload = .ok payload ∧
      sdk.packToBytes payload = .ok packed ∧
      op.content.fee = toString (context.getLong "fee").toInt ∧
      op.content.gasLimit = toString (context.getLong "gasLimit").toInt ∧
      op.content.storageLimit = toString (context.getLong "storageLimit").toInt ∧
      op.content.value = Micheline.fromPair (.bytes jobIdentifier) (.bytes packed) := by
  obtain ⟨-, -, h⟩ := bind_ok.1 h
  obtain ⟨jobIdentifier, hjob, h⟩ := bind_ok.1 h
  obtain ⟨payload, hpayload, h⟩ := bind_ok.1 h
  obtain ⟨branch, -, h⟩ := bind_ok.1 h
  obtain ⟨address, -, h⟩ := bind_ok.1 h
  obtain ⟨counter, -, h⟩ := bind_ok.1 h
  obtain ⟨packed, hpacked, h⟩ := bind_ok.1 h
  obtain ⟨content, hcontent, h⟩ := bind_ok.1 h
  obtain ⟨branch', -, h⟩ := bind_ok.1 h
  cases h
  obtain ⟨hfee, -, hgas, hstorage, -, -, -, hvalue⟩ := buildTransaction_ok hcontent
  refine ⟨jobIdentifier, payload, packed, ?_, hpayload, hpacked, hfee, hgas, hstorage,
    hvalue⟩
  split at hjob
  · next jobID hbytes =>
      cases hjob
      exact hbytes
  · cases hjob

/-- A field of a Tezos transaction carries an entry: an integer as its
decimal text, and `getLong`'s default for a name that is absent. An entry of
another type is given and not carried. -/
def CarriesInteger (entry : Option V8Value) (field : String) : Prop :=
  match entry with
  | none => field = toString (0 : Int)
  | some (.int n) => field = toString n.toInt
  | some _ => False

def TezosCarries (extra : V8Value) (tx : Transaction) : Prop :=
  CarriesInteger (extra.entry "fee") tx.fee ∧
    CarriesInteger (extra.entry "gasLimit") tx.gasLimit ∧
    CarriesInteger (extra.entry "storageLimit") tx.storageLimit

/-- The entries that say what the transaction will carry anyway. -/
def SaysZero (entry : Option V8Value) : Prop :=
  entry = none ∨ entry = some (.int 0)

theorem carriesInteger_zero_iff {entry : Option V8Value} :
    CarriesInteger entry (toString (0 : Int)) ↔ SaysZero entry := by
  cases entry with
  | none => simp [CarriesInteger, SaysZero]
  | some v =>
      cases v with
      | int n =>
          have hn : (0 : Int) = n.toInt ↔ n = 0 := by
            rw [← Int32.toInt_inj]
            exact eq_comm
          rw [CarriesInteger, toString_int_inj, hn]
          simp [SaysZero]
      | _ => simp [CarriesInteger, SaysZero]

/-! ## Ethereum: text is read, and text or a number is written -/

/-- A field of an Ethereum transaction carries an entry: an integer as it
is, a text as the number it spells, and the default for a name that is
absent. -/
def CarriesNumber (default : Int) (entry : Option V8Value) (field : Int) : Prop :=
  match entry with
  | none => field = default
  | some (.int n) => field = n.toInt
  | some (.string text) => BigInteger.ofString text 10 = .ok field
  | some _ => False

def EthereumCarries (gasLimit : Int) (extra : V8Value) (tx : RawTransaction) :
    Prop :=
  CarriesNumber gasLimit (extra.entry "gasLimit") tx.gasLimit ∧
    CarriesNumber 0 (extra.entry "maxFeePerGas") tx.maxFeePerGas ∧
    CarriesNumber 0 (extra.entry "maxPriorityFeePerGas") tx.maxPriorityFeePerGas

/-- The entries that arrive: none, a text, or the default as an integer. -/
def Arrives (default : Int) (entry : Option V8Value) : Prop :=
  entry = none ∨ (∃ text, entry = some (.string text)) ∨
    ∃ n : Int32, entry = some (.int n) ∧ n.toInt = default

theorem carriesNumber_iff {extra : V8Value} {context : Bundle}
    (hctx : HoldsExtra extra context) {name : String}
    (hname : name ∉ preludeNames) {default field : Int}
    (h : BigInteger.ofString (context.getString name (toString default)) 10
      = .ok field) :
    CarriesNumber default (extra.entry name) field ↔
      Arrives default (extra.entry name) := by
  rw [Bundle.getString, Bundle.getString?, hctx name hname] at h
  -- Whatever is not a text is read as the default.
  have hdefault : BigInteger.ofString (toString default) 10 = .ok field →
      field = default := by
    intro hd
    rw [BigInteger.ofString_toString] at hd
    injection hd with hd
    exact hd.symm
  cases hentry : extra.entry name with
  | none =>
      rw [hentry] at h
      simp [CarriesNumber, Arrives, hdefault h]
  | some v =>
      rw [hentry] at h
      cases v with
      | string text =>
          have hfield : BigInteger.ofString text 10 = .ok field := h
          simp [CarriesNumber, Arrives, hfield]
      | int n => simp [CarriesNumber, Arrives, hdefault h, eq_comm]
      | _ => simp [CarriesNumber, Arrives]

/-- What `Ethereum.fulfill` puts into its transaction is what it read. -/
theorem prepare_ok {sdk : Web3Sdk} {cryptoModule : ICrypto} {context : Bundle}
    {unserializedPayload : V8Value} {web3j : Web3j} {tx : RawTransaction}
    (h : Ethereum.prepare sdk cryptoModule context unserializedPayload
      = .ok (web3j, tx)) :
    BigInteger.ofString (context.getString "gasLimit" (toString sdk.GAS_LIMIT)) 10
        = .ok tx.gasLimit ∧
      BigInteger.ofString (context.getString "maxFeePerGas" "0") 10
        = .ok tx.maxFeePerGas ∧
      BigInteger.ofString (context.getString "maxPriorityFeePerGas" "0") 10
        = .ok tx.maxPriorityFeePerGas := by
  obtain ⟨-, -, h⟩ := bind_ok.1 h
  obtain ⟨gasLimit, hgas, h⟩ := bind_ok.1 h
  obtain ⟨maxPriority, hpriority, h⟩ := bind_ok.1 h
  obtain ⟨maxFee, hfee, h⟩ := bind_ok.1 h
  obtain ⟨client, -, h⟩ := bind_ok.1 h
  obtain ⟨address, -, h⟩ := bind_ok.1 h
  obtain ⟨raw, hraw, h⟩ := bind_ok.1 h
  cases h
  obtain ⟨chainId, -, hraw⟩ := bind_ok.1 hraw
  obtain ⟨count, -, hraw⟩ := bind_ok.1 hraw
  obtain ⟨method, -, hraw⟩ := bind_ok.1 hraw
  obtain ⟨payload, -, hraw⟩ := bind_ok.1 hraw
  cases hraw
  exact ⟨hgas, hfee, hpriority⟩

/-! ## Both chains -/

/-- A transaction carries the script's parameters exactly when the script
asks a Tezos call for nothing but zeros, and gives an Ethereum call its
numbers as text. -/
theorem extra_carried_iff {sdk : TezosSdk} {web3 : Web3Sdk} {NETWORK : String}
    {tezosCrypto ethereumCrypto : ICrypto} {fetchBranch : Result String}
    {fetchCounter : String → Result Int} {ipfsHash : Bytes}
    {parameters : List V8Value} :
    (∀ op, Prelude.Tezos.fulfill
        (Tezos.fulfill sdk NETWORK tezosCrypto fetchBranch fetchCounter)
        ipfsHash parameters = .ok op →
      (TezosCarries (argument parameters 3) op.content ↔
        SaysZero ((argument parameters 3).entry "fee") ∧
        SaysZero ((argument parameters 3).entry "gasLimit") ∧
        SaysZero ((argument parameters 3).entry "storageLimit"))) ∧
    (∀ web3j tx, Prelude.Ethereum.fulfill (Ethereum.prepare web3 ethereumCrypto)
        ipfsHash parameters = .ok (web3j, tx) →
      (EthereumCarries web3.GAS_LIMIT (argument parameters 3) tx ↔
        Arrives web3.GAS_LIMIT ((argument parameters 3).entry "gasLimit") ∧
        Arrives 0 ((argument parameters 3).entry "maxFeePerGas") ∧
        Arrives 0 ((argument parameters 3).entry "maxPriorityFeePerGas"))) := by
  constructor
  · intro op h
    obtain ⟨context, hctx, h⟩ := prelude_tezos_fulfill_ok h
    obtain ⟨-, -, -, -, -, -, hfee, hgas, hstorage, -⟩ := tezos_fulfill_ok h
    rw [getLong_of_holdsExtra hctx (by decide)] at hfee hgas hstorage
    rw [TezosCarries, hfee, hgas, hstorage]
    exact and_congr carriesInteger_zero_iff
      (and_congr carriesInteger_zero_iff carriesInteger_zero_iff)
  · intro web3j tx h
    obtain ⟨context, hctx, h⟩ := prelude_ethereum_fulfill_ok h
    obtain ⟨hgas, hfee, hpriority⟩ := prepare_ok h
    exact and_congr (carriesNumber_iff hctx (by decide) hgas)
      (and_congr (carriesNumber_iff hctx (by decide) hfee)
        (carriesNumber_iff hctx (by decide) hpriority))

/-! ## Two calls of a device -/

/-- A device that signs with zeros; its key hashes to one address. -/
def idleCrypto : ICrypto where
  rawStreamDecrypt _ _ _ := .error (.external "AEADBadTagException")
  rawStreamEncrypt _ _ payload := .ok payload
  rawSign _ := .ok (List.replicate 64 0)
  getPublicKey compressed := .ok (List.replicate (if compressed then 33 else 65) 2)

def idleTezosSdk : TezosSdk where
  signatureToBytes _ := .error .illegalArgument
  string text := .ok (.string text)
  createHash _ := .ok "tz3WXYtyDUNL91qfiCJtVUX746QpNv5i5ve5"
  -- The packed form of the integer 0.
  packToBytes _ := .ok [0x05, 0x00, 0x00]
  isMutez text := text.toList.all Char.isDigit
  isTezosNatural text := text.toList.all Char.isDigit
  isAddress text := "KT1".toList.isPrefixOf text.toList
  isEntrypoint _ := true
  isBlockHash text := "B".toList.isPrefixOf text.toList

def idleWeb3Sdk : Web3Sdk where
  build _ := .ok {
    ethChainId := .ok 5
    ethGetTransactionCount := fun _ => .ok (some 7)
    ethSendRawTransaction := fun _ => .error (.external "IOException") }
  keccak256 _ := ⟨List.replicate 32 0, by decide⟩
  hexToBa := hexStringToByteArray
  GAS_LIMIT := 9000000
  LOWER_REAL_V := 27
  encode tx := tx.data.toUTF8.toList
  encodeSigned tx _ := tx.data.toUTF8.toList
  rlpType _ := 2

def tezosCall (extra : V8Value) : Result Operation :=
  Prelude.Tezos.fulfill
    (Tezos.fulfill idleTezosSdk "MAINNET" idleCrypto (.ok "BL") fun _ => .ok 41)
    [1] [.undefined, .undefined, .int 0, extra]

def ethereumCall (extra : V8Value) : Result (Web3j × RawTransaction) :=
  Prelude.Ethereum.fulfill (Ethereum.prepare idleWeb3Sdk idleCrypto)
    [1] [.string "https://rpc", .string "0x00", .string "ff", extra,
      .function [], .function []]

theorem tezosCall_ethereumCall_carry :
    (∃ op, tezosCall (.object []) = .ok op ∧
      TezosCarries (.object []) op.content) ∧
    (∃ web3j tx,
      ethereumCall (.object [("gasLimit", .string "21000")]) = .ok (web3j, tx) ∧
        EthereumCarries 9000000 (.object [("gasLimit", .string "21000")]) tx) := by
  constructor
  · obtain ⟨op, hop⟩ : ∃ op, tezosCall (.object []) = .ok op := ⟨_, rfl⟩
    have h := (@extra_carried_iff idleTezosSdk idleWeb3Sdk "MAINNET" idleCrypto
      idleCrypto (.ok "BL") (fun _ => .ok 41) _ _).1 op hop
    exact ⟨op, hop, h.2 ⟨.inl rfl, .inl rfl, .inl rfl⟩⟩
  · obtain ⟨web3j, tx, htx⟩ : ∃ web3j tx,
        ethereumCall (.object [("gasLimit", .string "21000")]) = .ok (web3j, tx) :=
      ⟨_, _, rfl⟩
    have h := (@extra_carried_iff idleTezosSdk idleWeb3Sdk "MAINNET" idleCrypto
      idleCrypto (.ok "BL") (fun _ => .ok 41) _ _).2 web3j tx htx
    exact ⟨web3j, tx, htx, h.2 ⟨.inr (.inl ⟨_, rfl⟩), .inl rfl, .inl rfl⟩⟩

/-- A fee of 1000 asked of Tezos, and a gas limit asked of Ethereum as a
number, are both dropped for the default. -/
theorem tezosCall_ethereumCall_drop :
    (∃ op, tezosCall (.object [("fee", .int 1000)]) = .ok op ∧
      ¬ TezosCarries (.object [("fee", .int 1000)]) op.content) ∧
    (∃ web3j tx,
      ethereumCall (.object [("gasLimit", .int 21000)]) = .ok (web3j, tx) ∧
        ¬ EthereumCarries 9000000 (.object [("gasLimit", .int 21000)]) tx) := by
  constructor
  · obtain ⟨op, hop, hfee⟩ : ∃ op,
        tezosCall (.object [("fee", .int 1000)]) = .ok op ∧ op.content.fee = "0" :=
      ⟨_, rfl, rfl⟩
    refine ⟨op, hop, fun h => ?_⟩
    have hcarried : op.content.fee = "1000" := h.1
    rw [hfee] at hcarried
    exact absurd hcarried (by decide)
  · obtain ⟨web3j, tx, htx, hgas⟩ : ∃ web3j tx,
        ethereumCall (.object [("gasLimit", .int 21000)]) = .ok (web3j, tx) ∧
          tx.gasLimit = 9000000 :=
      ⟨_, _, rfl, rfl⟩
    refine ⟨web3j, tx, htx, fun h => ?_⟩
    have hcarried : tx.gasLimit = 21000 := h.1
    rw [hgas] at hcarried
    exact absurd hcarried (by decide)

end DataProcessor
