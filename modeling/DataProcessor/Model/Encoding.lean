import DataProcessor.Model.Kotlin

/-!
# Base58Check (`utils/Encoding.kt`)

`base58CheckEncode` appends the first four bytes of a double SHA-256 to the
payload and writes the result in Base58; `base58CheckDecode` takes the four
bytes off again and answers the empty array when they are not the ones of
the rest. Both the hash and Base58 are bitcoinj's. Base58 writes byte
strings one to one as the strings over its alphabet.
-/

namespace DataProcessor

/-- `sliceArray(first..last)` for a range that may begin below zero. -/
def sliceRange (bs : Bytes) (first last : Int) : Result Bytes :=
  if last < first then .ok []
  else if first < 0 then .error .indexOutOfBounds
  else sliceArray bs first.toNat last.toNat

/-- What bitcoinj computes. -/
structure Bitcoinj where
  /-- `Base58.encode`. -/
  encode : Bytes → String
  /-- `Base58.decode`. -/
  decode : String → Result Bytes
  /-- `Sha256Hash.hashTwice(bytes, 0, bytes.size)`. -/
  hashTwice : Bytes → Bytes

def base58Alphabet : List Char :=
  "123456789ABCDEFGHJKLMNPQRSTUVWXYZabcdefghijkmnopqrstuvwxyz".toList

def IsBase58 (text : String) : Prop := ∀ c ∈ text.toList, c ∈ base58Alphabet

/-- Base58 as it is documented, and the width of a SHA-256 digest. -/
structure Bitcoinj.Documented (bitcoinj : Bitcoinj) : Prop where
  isBase58 : ∀ bytes, IsBase58 (bitcoinj.encode bytes)
  decode_encode : ∀ bytes, bitcoinj.decode (bitcoinj.encode bytes) = .ok bytes
  encode_decode : ∀ text, IsBase58 text →
    ∃ bytes, bitcoinj.decode text = .ok bytes ∧ bitcoinj.encode bytes = text
  digest : ∀ bytes, (bitcoinj.hashTwice bytes).length = 32

namespace Encoding

variable (bitcoinj : Bitcoinj)

def base58CheckEncode (payload : Bytes) : Result String := do
  let checksum := bitcoinj.hashTwice payload
  return bitcoinj.encode (payload ++ (← sliceArray checksum 0 3))

def base58CheckDecode (payload : String) : Result Bytes := do
  let checkedPayload ← bitcoinj.decode payload
  let size : Int := checkedPayload.length
  let checksum ← sliceRange checkedPayload (size - 4) (size - 1)
  let rawPayload ← sliceRange checkedPayload 0 (size - 5)
  let calculatedChecksum := bitcoinj.hashTwice rawPayload
  if checksum = (← sliceArray calculatedChecksum 0 3) then return rawPayload
  else return []

end Encoding

end DataProcessor
