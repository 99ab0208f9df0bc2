import DataProcessor.Model.ByteArrays

/-!
# Public-key recovery (`crypto/curves/RecoverableEcdsa.kt`)

`findRecoverId` tries the four recovery ids in order and answers the first
whose recovered key is the caller's. The curve arithmetic is Bouncy
Castle's and comes in as `BcCurve`; everything the class does around it,
the bound on the candidate x coordinate, the order check and the scalar
arithmetic modulo the order, is here as written.
-/

namespace DataProcessor

open Lib

/-- What Bouncy Castle supplies for one named curve. -/
structure BcCurve (Point : Type) where
  q : Int
  n : Int
  g : Point
  /-- `X9IntegerConverter.getByteLength`. -/
  byteLength : Nat
  createPoint : Int → Int → Result Point
  decodePoint : Bytes → Result Point
  multiply : Point → Int → Point
  isInfinity : Point → Bool
  sumOfTwoMultiplies : Point → Int → Point → Int → Point
  getEncoded : Point → Bool → Bytes

namespace BigInteger

/-- `modInverse(m)`, which raises when there is no inverse. -/
def modInverse (a m : Int) : Result Int :=
  if m ≤ 0 ∨ Int.gcd a m ≠ 1 then .error .arithmetic
  else .ok (Int.gcdA a m % m)

/-- `BigInteger(bytes)`: two's complement, at least one byte. -/
def ofBytes (bytes : Bytes) : Result Int :=
  match bytes with
  | [] => .error .numberFormat
  | b :: _ =>
      .ok (if b.toNat < 128 then (ofBE bytes : Int)
        else ofBE bytes - 256 ^ bytes.length)

end BigInteger

/-- `X9IntegerConverter.integerToBytes(s, qLength)`: the low `qLength` bytes
of `toByteArray`, or that array behind zeros. -/
def integerToBytes (s : Int) (qLength : Nat) : Bytes :=
  let bytes := BigInteger.toByteArray s
  if qLength < bytes.length then bytes.drop (bytes.length - qLength)
  else List.replicate (qLength - bytes.length) 0 ++ bytes

namespace RecoverableEcdsa

variable {Point : Type} (curve : BcCurve Point)

def decompressKey (xBN : Int) (yBit : Bool) : Result Point :=
  let compEnc := integerToBytes xBN (1 + curve.byteLength)
  curve.decodePoint (compEnc.set 0 (if yBit then 0x03 else 0x02))

/-- The key recovery id `recId` recovers, as the signed number its
compressed encoding spells, or `none` where the source answers `null`. -/
def recoverFromSignature (r s : Int) (recId : Nat) (message : Bytes) :
    Result (Option Int) := do
  let n := curve.n
  let i : Int := recId / 2
  let x := r + i * n
  if x ≥ curve.q then return none
  let R ← decompressKey curve x (recId % 2 == 1)
  if !curve.isInfinity (curve.multiply R n) then return none
  let e : Int := ofBE message
  let eInv := (0 - e) % n
  let rInv ← BigInteger.modInverse r n
  let srInv := rInv * s % n
  let eInvrInv := rInv * eInv % n
  let q := curve.sumOfTwoMultiplies curve.g eInvrInv R srInv
  let key ← BigInteger.ofBytes (curve.getEncoded q true)
  return some key

/-- The loop over the recovery ids, left at the first that recovers `PK`. -/
def searchRecoverId (R S PK : Int) (messageHash : Bytes) :
    List Nat → Result (Option Nat)
  | [] => .ok none
  | i :: rest => do
      let k ← recoverFromSignature curve R S i messageHash
      if k = some PK then return some i
      searchRecoverId R S PK messageHash rest

def findRecoverId (r s publicKey messageHash : Bytes) : Result UInt8 := do
  let R ← BigInteger.ofString (toHex r) 16
  let S ← BigInteger.ofString (toHex s) 16
  let PK ← BigInteger.ofString (toHex publicKey) 16
  match ← searchRecoverId curve R S PK messageHash [0, 1, 2, 3] with
  | some recId => return UInt8.ofNat recId
  | none =>
      throw (.runtime
        "Could not construct a recoverable key. Are your credentials valid?")

end RecoverableEcdsa

end DataProcessor
