import DataProcessor.Lib.Abi
import DataProcessor.Model.ByteArrays
import DataProcessor.Model.V8

/-!
# Building a contract call (`protocol/ethereum/Utils.kt`)

The call data of an EVM transaction is put together as hexadecimal text:
four bytes of the method's digest, an offset slot, a length slot and the
payload. `adjustToSlotLength` pads a text to the 64 digits of one slot; a
text that is longer already stays as it is.
-/

namespace DataProcessor

open Lib

def padStart (b : String) (length : Nat) (c : Char) : String :=
  String.ofList (List.replicate (length - b.length) c) ++ b

def padEnd (b : String) (length : Nat) (c : Char) : String :=
  b ++ String.ofList (List.replicate (length - b.length) c)

/-- `Int.toHexString()`: the 32 bits as an unsigned number, no leading
zeros. -/
def toHexString (n : Int) : String :=
  String.ofList (Nat.toDigits 16 (n % 2 ^ 32).toNat)

abbrev Digest := { bytes : Bytes // bytes.length = 32 }

/-- What the node behind a `Web3j` client answers. -/
structure Web3j where
  ethChainId : Result Int
  /-- `ethGetTransactionCount(from, LATEST).send()`; `none` is a response
  that has an error. -/
  ethGetTransactionCount : String → Result (Option Int)
  /-- `ethSendRawTransaction(data).send()`: the transaction's hash, or the
  message of the response's error. -/
  ethSendRawTransaction : String → Result (Except String String)

structure RawTransaction where
  chainId : Int
  nonce : Int
  gasLimit : Int
  recipient : String
  value : Int
  data : String
  maxPriorityFeePerGas : Int
  maxFeePerGas : Int
  deriving DecidableEq

namespace EthereumUtils

def SLOT_LENGTH : Nat := 32

def adjustToSlotLength (b : String) (littleEndian : Bool) : String :=
  if littleEndian then padStart b (SLOT_LENGTH * 2) '0'
  else padEnd b (SLOT_LENGTH * 2) '0'

def encodeIntAsEvmSlot (n : Int) : String :=
  adjustToSlotLength (toHexString n) true

def encodeBytesArgument (offset : Int) (buffer : Bytes) : String :=
  let startingPosition := encodeIntAsEvmSlot (wrapInt (offset + SLOT_LENGTH))
  let bytesLength := encodeIntAsEvmSlot buffer.length
  let bytesAdjusted := adjustToSlotLength (toHex buffer) false
  startingPosition ++ bytesLength ++ bytesAdjusted

section

variable (keccak256 : Bytes → Digest) (hexToBa : String → Result Bytes)

/-- The selector: the first four bytes of the method's Keccak digest. -/
def selector (methodSignature : String) : Bytes :=
  (keccak256 methodSignature.toUTF8.toList).val.take 4

def encodeMethodSignature (methodSignature : String) : Result String :=
  (sliceArray (keccak256 methodSignature.toUTF8.toList).val 0 3).map toHex

theorem encodeMethodSignature_eq (methodSignature : String) :
    encodeMethodSignature keccak256 methodSignature =
      .ok (toHex (selector keccak256 methodSignature)) := by
  have hlen := (keccak256 methodSignature.toUTF8.toList).property
  rw [encodeMethodSignature, sliceArray_ok (by decide) (by omega)]
  rfl

theorem length_selector (methodSignature : String) :
    (selector keccak256 methodSignature).length = 4 := by
  have hlen := (keccak256 methodSignature.toUTF8.toList).property
  rw [selector, List.length_take, hlen]
  rfl

def buildContractCall (web3j : Web3j) (methodSignature : String)
    (unserializedPayload : V8Value) (sender recipient : String)
    (gasLimit maxPriorityFeePerGas maxFeePerGas : Int) :
    Result RawTransaction := do
  let chainId ← web3j.ethChainId
  let transactionCount ← web3j.ethGetTransactionCount sender
  let nonce := transactionCount.getD 1
  let encodedMethodSig ← encodeMethodSignature keccak256 methodSignature
  let payload ← (match unserializedPayload with
    | .string text => hexToBa text
    | _ => .error .illegalArgument)
  let data := encodedMethodSig ++ encodeBytesArgument 0 payload
  return {
    chainId := wrapLong chainId
    nonce := nonce
    gasLimit := gasLimit
    recipient := recipient
    value := 0
    data := "0x" ++ data
    maxPriorityFeePerGas := maxPriorityFeePerGas
    maxFeePerGas := maxFeePerGas }

end

end EthereumUtils

end DataProcessor
