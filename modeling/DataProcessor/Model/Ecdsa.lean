import DataProcessor.Lib.Jacobian
import DataProcessor.Lib.Primality
import DataProcessor.Model.Curve
import DataProcessor.Model.Recoverable

/-!
# ECDSA in Kotlin (`crypto/curves/Ecdsa.kt`)

Signing, verification and public keys over any curve of `Curve`, in the
class's own arithmetic: points are Jacobian triples of `BigInteger`s, a scalar multiple
is taken by doubling and adding, and inverses by the extended Euclidean
algorithm. The neutral element is the triple `(0, 0, 1)`, which no curve
point is; `fastAdd` answers it and does not recognise it.

Every function takes the curve the class was built with. `mod` is by one of
the curve's two moduli, both positive. web3j's `Numeric.toBytesPadded` is
outside the repository and comes in as a parameter.
-/

namespace DataProcessor

open Lib

/-- `substring(start, stop)`, by UTF-16 code units. A surrogate that is cut
off its other half becomes the null character: neither is a digit. -/
def substring (text : String) (start stop : Nat) : String :=
  String.ofList ((((codeUnits text).drop start).take (stop - start)).map Char.ofNat)

/-- `System.arraycopy(src, 0, dest, destPos, src.size)`. -/
def arraycopy (src dest : Bytes) (destPos : Nat) : Result Bytes :=
  if destPos + src.length ≤ dest.length then
    .ok (dest.take destPos ++ src ++ dest.drop (destPos + src.length))
  else .error .indexOutOfBounds

/-- `modPow(exponent, modulus)` for an exponent that is not negative. -/
def BigInteger.modPow (n : Int) (exponent modulus : Nat) : Int :=
  powMod modulus (n % modulus).toNat exponent.size exponent

namespace Ecdsa

def bytesToBigInt (bs : Bytes) : Int :=
  bs.foldl (fun num b => num * 2 ^ 8 + b.toNat) 0

/-- `Byte.MIN_VALUE` is the byte 80. -/
def bigIntToBytes (n : Int) : Bytes :=
  let bs := BigInteger.toByteArray n
  if bs.head? = some 0x80 then bs.drop 1 else bs

variable (curve : Curve)

def fastDouble (a0 a1 a2 : Int) : Triple Int :=
  let P : Int := curve.P
  let ysq := a1 ^ 2 % P
  let s := ysq * a0 * 4 % P
  let m := (a0 ^ 2 * 3 + a2 ^ 4 * curve.A) % P
  let nx := (m ^ 2 - s * 2) % P
  let ny := (m * (s - nx) - ysq ^ 2 * 8) % P
  let nz := a1 * a2 * 2 % P
  ⟨nx, ny, nz⟩

def fastAdd (p0 p1 p2 q0 q1 q2 : Int) : Triple Int :=
  let P : Int := curve.P
  let u1 := q2 ^ 2 * p0 % P
  let u2 := p2 ^ 2 * q0 % P
  let s1 := q2 ^ 3 * p1 % P
  let s2 := p2 ^ 3 * q1 % P
  if u1 = u2 then
    if s1 = s2 then fastDouble curve p0 p1 p2 else ⟨0, 0, 1⟩
  else
    let h := u2 - u1
    let r := s2 - s1
    let h2 := h ^ 2 % P
    let h3 := h2 * h % P
    let u1h2 := u1 * h2 % P
    let nx := (r ^ 2 - h3 - u1h2 * 2) % P
    let ny := (r * (u1h2 - nx) - s1 * h3) % P
    let nz := h * p2 * q2 % P
    ⟨nx, ny, nz⟩

/-- A number modulo 2 is 0 or 1, so the source's third branch, which raises,
is not reached and the second test is left out. -/
def fastMultiply (a0 a1 a2 n : Int) : Triple Int :=
  if a1 = 0 ∨ n = 0 then ⟨0, 0, 1⟩
  else if n = 1 then ⟨a0, a1, a2⟩
  else if n < 0 ∨ n ≥ curve.N then fastMultiply a0 a1 a2 (n % curve.N)
  else
    let a := fastMultiply a0 a1 a2 (n >>> (1 : Nat))
    let p := fastDouble curve a.X a.Y a.Z
    if n % 2 = 0 then p
    else fastAdd curve p.X p.Y p.Z a0 a1 a2
termination_by (if n < 0 ∨ n ≥ curve.N then 1 else 0, n.toNat)
decreasing_by
  · next hout =>
      have hpos : (curve.N : Int) > 0 := by exact_mod_cast curve.N_pos
      have hlo := Int.emod_nonneg n (by omega : (curve.N : Int) ≠ 0)
      have hhi := Int.emod_lt_of_pos n hpos
      rw [if_pos hout, if_neg (by omega)]
      exact .left _ _ Nat.zero_lt_one
  · next hzero hone hout =>
      have hhalf : n >>> (1 : Nat) = n / 2 := Int.shiftRight_eq_div_pow n 1
      rw [hhalf, if_neg hout, if_neg (by omega)]
      exact .right _ (by omega)

/-- The loop of `inv`: it stops at a remainder of 1 or 0. -/
def invLoop (lm hm low high : Int) : Int :=
  if low > 1 then
    let r := high.tdiv low
    let nm := hm - lm * r
    let ne := high - low * r
    invLoop nm lm ne low
  else lm
termination_by low.toNat
decreasing_by
  have hlt := Int.tmod_lt_of_pos high (by omega : 0 < low)
  rw [Int.tmod_def] at hlt
  omega

def inv (a : Int) (b : Nat) : Int :=
  if a = 0 then 0
  else invLoop 1 0 (a % b) b % b

/-- `toBytesPadded(value, length)` is web3j's: the number's big-endian bytes
behind zeros. -/
def sign (toBytesPadded : Int → Nat → Result Bytes)
    (privateKeyBytes hashBytes randomBytes : Bytes) : Result Bytes := do
  let priv := bytesToBigInt privateKeyBytes
  let hash := bytesToBigInt hashBytes
  let k ← BigInteger.ofBytes randomBytes
  let p := fastMultiply curve curve.Gx curve.Gy 1 k
  let z := inv p.Z curve.P
  let r := z ^ 2 * p.X % curve.P
  let sRaw := inv k curve.N * (hash + r * priv) % curve.N
  let s := if sRaw * 2 < curve.N then sRaw else curve.N - sRaw
  return (← toBytesPadded r 32) ++ (← toBytesPadded s 32)

def verify (pubKeyBytes hashBytes : Bytes) (sig : String) : Result Bool := do
  if (codeUnits sig).length ≠ 130 then throw (.runtime s!"Invalid signature, {sig}")
  if pubKeyBytes.length ≠ 64 then throw (.runtime "Invalid publickKey.")
  let r ← BigInteger.ofString (substring sig 0 64) 16
  let s ← BigInteger.ofString (substring sig 64 128) 16
  if r % curve.N = 0 ∨ s % curve.N = 0 then return false
  let xBytes := pubKeyBytes.take 32
  let yBytes := pubKeyBytes.drop 32
  let x := bytesToBigInt xBytes
  let y := bytesToBigInt yBytes
  let w := inv s curve.N
  let z := bytesToBigInt hashBytes
  let u1 := z * w % curve.N
  let u2 := r * w % curve.N
  let p := fastMultiply curve curve.Gx curve.Gy 1 u1
  let pz := inv p.Z curve.P
  let px := pz ^ 2 * p.X % curve.P
  let py := pz ^ 3 * p.Y % curve.P
  let q := fastMultiply curve x y 1 u2
  let qz := inv q.Z curve.P
  let qx := qz ^ 2 * q.X % curve.P
  let qy := qz ^ 3 * q.Y % curve.P
  let g := fastAdd curve px py 1 qx qy 1
  let gz := inv g.Z curve.P
  let gx := gz ^ 2 * g.X % curve.P
  return r = gx

def privateKeyToPublicKey (privKeyBytes : Bytes) : Result Bytes := do
  let priv := bytesToBigInt privKeyBytes
  if priv > curve.N then throw (.runtime "Invalid private key.")
  let p := fastMultiply curve curve.Gx curve.Gy 1 priv
  let z := inv p.Z curve.P
  let x := z ^ 2 * p.X % curve.P
  let y := z ^ 3 * p.Y % curve.P
  let xBs := bigIntToBytes x
  let yBs := bigIntToBytes y
  let pubKeyBytes ← arraycopy xBs (List.replicate 64 0) 0
  arraycopy yBs pubKeyBytes 32

def recoverToPublicKey (hashBytes : Bytes) (sig : String) : Result Bytes := do
  if (codeUnits sig).length ≠ 130 then throw (.runtime s!"Invalid signature, {sig}")
  let r ← BigInteger.ofString (substring sig 0 64) 16
  let s ← BigInteger.ofString (substring sig 64 128) 16
  if r % curve.N = 0 ∨ s % curve.N = 0 then throw (.runtime s!"Invalid signature, {sig}")
  let v := (← BigInteger.ofString (substring sig 128 130) 16) + 27
  if v < 27 ∨ v > 34 then throw (.runtime s!"Invalid signature, {sig}")
  let x := r
  let num := (x ^ 3 + (x * curve.A + curve.B)) % curve.P
  let root := BigInteger.modPow num ((curve.P + 1) / 4) curve.P
  -- The exclusive or of two bits is 0 where they are equal.
  let y := if root % 2 = v % 2 then curve.P - root else root
  if (y ^ 2 - num) % curve.P ≠ 0 then throw (.runtime s!"Invalid signature, {sig}")
  let z := bytesToBigInt hashBytes
  let GZ := fastMultiply curve curve.Gx curve.Gy 1 ((curve.N - z) % curve.N)
  let XY := fastMultiply curve x y 1 s
  let QR := fastAdd curve GZ.X GZ.Y GZ.Z XY.X XY.Y XY.Z
  let Q := fastMultiply curve QR.X QR.Y QR.Z (inv r curve.N)
  let pubZ := inv Q.Z curve.P
  let left := pubZ ^ 2 * Q.X % curve.P
  let right := pubZ ^ 3 * Q.Y % curve.P
  let leftBs := bigIntToBytes left
  let rightBs := bigIntToBytes right
  let pubBytes := List.replicate (leftBs.length + rightBs.length) 0
  let pubBytes ← arraycopy leftBs pubBytes 0
  arraycopy rightBs pubBytes leftBs.length

end Ecdsa

end DataProcessor
