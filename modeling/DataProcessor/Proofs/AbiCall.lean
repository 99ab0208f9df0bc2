import DataProcessor.Model.Evm

/-!
# When the call data is a contract call

`encodeBytesArgument` writes the payload into one slot: it pads a short
payload to 32 bytes and leaves a longer one as it is. The contract ABI pads
to the next multiple of 32, and pads nothing when there is nothing. The two
agree on payloads of one to 32 bytes and on longer ones that fill their
last word, and nowhere else; `buildContractCall_abi_iff` says so for the
transaction as built.

The agreement of the two slots before the payload is the text of a number
against its 32 bytes: `padStart` over `toHexString` on one side, the hex of
`word` on the other, `slot_eq_hexChars`.
-/

namespace DataProcessor

open Lib EthereumUtils

/-! ## A number in a slot -/

/-- Hexadecimal text behind zeros, to `w` digits. -/
def paddedHex (w n : Nat) : List Char :=
  List.replicate (w - (Nat.toDigits 16 n).length) '0' ++ Nat.toDigits 16 n

theorem paddedHex_succ {w : Nat} (hw : 1 ≤ w) (n : Nat) :
    paddedHex (w + 1) n = paddedHex w (n / 16) ++ [(n % 16).digitChar] := by
  rcases Nat.lt_or_ge n 16 with hlt | hge
  · obtain ⟨v, rfl⟩ : ∃ v, w = v + 1 := ⟨w - 1, by omega⟩
    have hq : n / 16 = 0 := by omega
    have hr : n % 16 = n := by omega
    have hz : (Nat.toDigits 16 0) = ['0'] := rfl
    rw [paddedHex, paddedHex, hq, hr, hz, Nat.toDigits_of_lt_base hlt]
    simp only [List.length_cons, List.length_nil, Nat.zero_add,
      Nat.add_sub_cancel, List.replicate_succ', List.append_assoc]
  · rw [paddedHex, paddedHex, Nat.toDigits_of_base_le (by decide) hge,
      List.length_append, ← List.append_assoc]
    simp only [List.length_cons, List.length_nil, Nat.zero_add,
      Nat.add_sub_add_right]

/-- A fixed-width byte string in hexadecimal is the padded text of its
number. The induction is on the width, two digits a byte. -/
theorem hexChars_toBE {w n : Nat} (h : n < 256 ^ (w + 1)) :
    hexChars (toBE (w + 1) n) = paddedHex (2 * (w + 1)) n := by
  have hbyte : ∀ m, hexChars [UInt8.ofNat m]
      = [(m / 16 % 16).digitChar, (m % 16).digitChar] := by
    intro m
    have h1 : m % 256 / 16 = m / 16 % 16 := by omega
    have h2 : m % 256 % 16 = m % 16 := by omega
    simp [hexChars, h1, h2]
  induction w generalizing n with
  | zero =>
      have hlt : n / 16 < 16 := by omega
      rw [show 2 * (0 + 1) = 1 + 1 from rfl, paddedHex_succ (Nat.le_refl 1),
        toBE_succ, toBE_zero, List.nil_append, hbyte, paddedHex,
        Nat.toDigits_of_lt_base hlt, Nat.mod_eq_of_lt hlt]
      rfl
  | succ w ih =>
      have hdiv : n / 256 < 256 ^ (w + 1) := by
        rw [Nat.pow_succ] at h
        omega
      have hq : n / 16 / 16 = n / 256 := by omega
      rw [toBE_succ, hexChars_append, ih hdiv, hbyte,
        show 2 * (w + 1 + 1) = 2 * (w + 1) + 1 + 1 by omega,
        paddedHex_succ (by omega), paddedHex_succ (by omega), hq,
        List.append_assoc]
      rfl

theorem encodeIntAsEvmSlot_eq {n : Nat} (h : n < 2 ^ 31) :
    encodeIntAsEvmSlot n = toHex (word n) := by
  have hnat : ((n : Int) % 2 ^ 32).toNat = n := by omega
  apply String.toList_inj.1
  rw [toList_toHex, word, hexChars_toBE (Nat.lt_trans h (by decide)),
    encodeIntAsEvmSlot, toHexString, hnat]
  simp [adjustToSlotLength, padStart, SLOT_LENGTH, paddedHex]

/-! ## The payload's slot -/

theorem length_toHex (bytes : Bytes) : (toHex bytes).length = 2 * bytes.length := by
  rw [← String.length_toList, toList_toHex, length_hexChars]

/-- One slot holds up to 32 bytes, and more when they fill whole words. -/
theorem payload_slot_eq {payload : Bytes} (hpos : 0 < payload.length)
    (h : payload.length ≤ 32 ∨ payload.length % 32 = 0) :
    adjustToSlotLength (toHex payload) false = toHex (padWords payload) := by
  have hlen : 64 - 2 * payload.length
      = 2 * (32 * words payload.length - payload.length) := by
    unfold words
    omega
  apply String.toList_inj.1
  rw [toList_toHex, padWords, hexChars_append, hexChars_replicate_zero, ← hlen]
  simp [adjustToSlotLength, padEnd, length_toHex, toList_toHex, SLOT_LENGTH]

theorem length_payload_slot (payload : Bytes) :
    (adjustToSlotLength (toHex payload) false).length
      = max 64 (2 * payload.length) := by
  have : (adjustToSlotLength (toHex payload) false).length
      = 2 * payload.length + (64 - 2 * payload.length) := by
    simp [adjustToSlotLength, padEnd, length_toHex, SLOT_LENGTH]
  omega

theorem toHex_append (as bs : Bytes) : toHex (as ++ bs) = toHex as ++ toHex bs := by
  apply String.toList_inj.1
  simp [toList_toHex]

/-! ## The whole call -/

theorem encodeBytesArgument_eq {payload : Bytes} (hlen : payload.length < 2 ^ 31) :
    encodeBytesArgument 0 payload =
      toHex (word 32 ++ word payload.length) ++
        adjustToSlotLength (toHex payload) false := by
  have hoff : wrapInt (0 + SLOT_LENGTH) = ((32 : Nat) : Int) := by decide
  rw [encodeBytesArgument, hoff, encodeIntAsEvmSlot_eq (by decide),
    encodeIntAsEvmSlot_eq hlen, toHex_append]

/-- The data of a transaction is the contract call of `payload`: its bytes
are the ABI encoding, of the size the ABI gives it, and decode to the
payload. -/
def IsAbiCall (selector payload : Bytes) (data : String) : Prop :=
  ∃ call : Bytes, data = "0x" ++ toHex call ∧
    call = selector ++ word 32 ++ word payload.length ++ padWords payload ∧
    call.length = 4 + 64 + 32 * words payload.length ∧
    abiDecodeBytes call = some payload

theorem isAbiCall_iff {selector payload : Bytes} (hsel : selector.length = 4)
    (hlen : payload.length < 2 ^ 31) :
    IsAbiCall selector payload
        ("0x" ++ (toHex selector ++ encodeBytesArgument 0 payload)) ↔
      0 < payload.length ∧ (payload.length ≤ 32 ∨ payload.length % 32 = 0) := by
  rw [encodeBytesArgument_eq hlen]
  constructor
  · intro hgiven
    obtain ⟨call, hdata, rfl, hsize, -⟩ := hgiven
    -- Two texts of one call have one length.
    have h := congrArg String.length hdata
    simp only [String.length_append, length_toHex, List.length_append,
      length_word, length_payload_slot, length_padWords, hsel] at h
    unfold words at h
    omega
  · intro hgiven
    obtain ⟨hpos, hfull⟩ := hgiven
    refine ⟨abiBytesCall selector payload, ?_, rfl, ?_, ?_⟩
    · rw [payload_slot_eq hpos hfull, abiBytesCall]
      simp only [toHex_append, String.append_assoc]
    · rw [length_abiBytesCall, hsel]
    · exact abiDecodeBytes_abiBytesCall hsel (Nat.lt_trans hlen (by decide))

section

variable {keccak256 : Bytes → Digest} {hexToBa : String → Result Bytes}

theorem buildContractCall_data {web3j : Web3j} {methodSignature text sender recipient : String}
    {gasLimit maxPriorityFeePerGas maxFeePerGas : Int} {payload : Bytes}
    {tx : RawTransaction} (hpay : hexToBa text = .ok payload)
    (h : buildContractCall keccak256 hexToBa web3j methodSignature (.string text)
      sender recipient gasLimit maxPriorityFeePerGas maxFeePerGas = .ok tx) :
    tx.data = "0x" ++ (toHex (selector keccak256 methodSignature) ++
      encodeBytesArgument 0 payload) := by
  obtain ⟨chainId, -, h⟩ := bind_ok.1 h
  obtain ⟨count, -, h⟩ := bind_ok.1 h
  obtain ⟨encodedMethodSig, hsig, h⟩ := bind_ok.1 h
  obtain ⟨payload', hpayload, h⟩ := bind_ok.1 h
  rw [encodeMethodSignature_eq] at hsig
  have hpayload' : hexToBa text = .ok payload' := hpayload
  rw [hpay] at hpayload'
  cases hsig
  cases hpayload'
  cases h
  rfl

/-- The transaction carries the contract call of its payload exactly for
payloads of one to 32 bytes and for longer ones of whole words. -/
theorem buildContractCall_abi_iff {web3j : Web3j}
    {methodSignature text sender recipient : String}
    {gasLimit maxPriorityFeePerGas maxFeePerGas : Int} {payload : Bytes}
    {tx : RawTransaction} (hpay : hexToBa text = .ok payload)
    (hlen : payload.length < 2 ^ 31)
    (h : buildContractCall keccak256 hexToBa web3j methodSignature (.string text)
      sender recipient gasLimit maxPriorityFeePerGas maxFeePerGas = .ok tx) :
    IsAbiCall (selector keccak256 methodSignature) payload tx.data ↔
      0 < payload.length ∧ (payload.length ≤ 32 ∨ payload.length % 32 = 0) := by
  rw [buildContractCall_data hpay h]
  exact isAbiCall_iff (length_selector keccak256 methodSignature) hlen

end

/-! ## Two payloads for `fulfill(bytes)` -/

/-- A digest that starts with the selector of `fulfill(bytes)`. -/
def fulfillDigest : Digest :=
  ⟨[0x14, 0x4f, 0x72, 0x5e] ++ List.replicate 28 0, by decide⟩

def quietNode : Web3j where
  ethChainId := .ok 5
  ethGetTransactionCount _ := .ok (some 7)
  ethSendRawTransaction _ := .error (.external "IOException")

/-- The transaction that carries `text`, every argument but the payload
fixed. -/
def fulfillCall (text : String) : Result RawTransaction :=
  buildContractCall (fun _ => fulfillDigest) hexStringToByteArray quietNode
    "fulfill(bytes)" (.string text) "" "" 9000000 0 0

theorem fulfillCall_one_byte :
    ∃ tx, fulfillCall "ff" = .ok tx ∧
      IsAbiCall (selector (fun _ => fulfillDigest) "fulfill(bytes)") [0xff] tx.data := by
  obtain ⟨tx, htx⟩ : ∃ tx, fulfillCall "ff" = .ok tx := ⟨_, rfl⟩
  have hpay : hexStringToByteArray "ff" = .ok [0xff] := rfl
  exact ⟨tx, htx, (buildContractCall_abi_iff hpay (by decide) htx).2 (by decide)⟩

/-- 33 bytes are left unpadded, and an empty payload is padded to a word it
should not have. -/
theorem fulfillCall_unpadded :
    (∃ tx, fulfillCall (toHex (List.replicate 33 0xff)) = .ok tx ∧
      ¬ IsAbiCall (selector (fun _ => fulfillDigest) "fulfill(bytes)")
        (List.replicate 33 0xff) tx.data) ∧
    (∃ tx, fulfillCall "" = .ok tx ∧
      ¬ IsAbiCall (selector (fun _ => fulfillDigest) "fulfill(bytes)") [] tx.data) := by
  constructor
  · refine ⟨_, rfl, fun h => ?_⟩
    have := (isAbiCall_iff (length_selector _ _) (by decide)).1 h
    exact absurd this (by decide)
  · refine ⟨_, rfl, fun h => ?_⟩
    have := (isAbiCall_iff (length_selector _ _) (by decide)).1 h
    exact absurd this (by decide)

end DataProcessor
