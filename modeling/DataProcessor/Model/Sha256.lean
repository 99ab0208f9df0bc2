import DataProcessor.Lib.CopyLoops
import DataProcessor.Lib.Sha256
import DataProcessor.Model.Kotlin

/-!
# SHA-256 of the native library (`cpp/sb_sha256.c`)

A state takes its input in pieces of any length. The message schedule is a
window of sixteen words, and the working variables are a window of eight
that turns under its indices, so that no round moves a word it does not
change. The number of bytes is counted in 32 bits.
-/

namespace DataProcessor

open Lib

/-- `sb_sha256_word_t`. -/
abbrev SbSha256Word := BitVec 32

def SB_SHA256_SIZE : Nat := 32
def SB_SHA256_BLOCK_SIZE : Nat := 64
def SB_SHA256_ROUNDS : Nat := 64
def SB_SHA256_WORD_BITS : Nat := 32
def SB_SHA256_WORD_SHIFT : Nat := 2
def SB_SHA256_LENGTH_BYTES : Nat := 8

/-- `sb_sha256_state_t`. -/
structure SbSha256State where
  ihash : Vector SbSha256Word 8
  a_h : Vector SbSha256Word 8
  W : Vector SbSha256Word 16
  buffer : Vector UInt8 64
  total_bytes : BitVec 32

/-- `SB_NULLIFY`, and the fields an initialiser does not name. -/
def SbSha256State.null : SbSha256State where
  ihash := Vector.replicate 8 0
  a_h := Vector.replicate 8 0
  W := Vector.replicate 16 0
  buffer := Vector.replicate 64 0
  total_bytes := 0

def sb_sha256_init_state : Vector SbSha256Word 8 :=
  #v[0x6A09E667, 0xBB67AE85, 0x3C6EF372, 0xA54FF53A,
    0x510E527F, 0x9B05688C, 0x1F83D9AB, 0x5BE0CD19]

namespace SbSha256State

def K : List SbSha256Word := [
  0x428A2F98, 0x71374491, 0xB5C0FBCF, 0xE9B5DBA5,
  0x3956C25B, 0x59F111F1, 0x923F82A4, 0xAB1C5ED5,
  0xD807AA98, 0x12835B01, 0x243185BE, 0x550C7DC3,
  0x72BE5D74, 0x80DEB1FE, 0x9BDC06A7, 0xC19BF174,
  0xE49B69C1, 0xEFBE4786, 0x0FC19DC6, 0x240CA1CC,
  0x2DE92C6F, 0x4A7484AA, 0x5CB0A9DC, 0x76F988DA,
  0x983E5152, 0xA831C66D, 0xB00327C8, 0xBF597FC7,
  0xC6E00BF3, 0xD5A79147, 0x06CA6351, 0x14292967,
  0x27B70A85, 0x2E1B2138, 0x4D2C6DFC, 0x53380D13,
  0x650A7354, 0x766A0ABB, 0x81C2C92E, 0x92722C85,
  0xA2BFE8A1, 0xA81A664B, 0xC24B8B70, 0xC76C51A3,
  0xD192E819, 0xD6990624, 0xF40E3585, 0x106AA070,
  0x19A4C116, 0x1E376C08, 0x2748774C, 0x34B0BCB5,
  0x391C0CB3, 0x4ED8AA4A, 0x5B9CCA4F, 0x682E6FF3,
  0x748F82EE, 0x78A5636F, 0x84C87814, 0x8CC70208,
  0x90BEFFFA, 0xA4506CEB, 0xBEF9A3F7, 0xC67178F2]

/-! ## Functions on words -/

def SHR (n : Nat) (x : SbSha256Word) : SbSha256Word := x >>> n

def ROTR (n : Nat) (x : SbSha256Word) : SbSha256Word :=
  SHR n x ||| x <<< (SB_SHA256_WORD_BITS - n)

def BSIG0 (x : SbSha256Word) : SbSha256Word := ROTR 2 x ^^^ ROTR 13 x ^^^ ROTR 22 x

def BSIG1 (x : SbSha256Word) : SbSha256Word := ROTR 6 x ^^^ ROTR 11 x ^^^ ROTR 25 x

def SSIG0 (x : SbSha256Word) : SbSha256Word := ROTR 7 x ^^^ ROTR 18 x ^^^ SHR 3 x

def SSIG1 (x : SbSha256Word) : SbSha256Word := ROTR 17 x ^^^ ROTR 19 x ^^^ SHR 10 x

def CH (x y z : SbSha256Word) : SbSha256Word := z ^^^ (x &&& (y ^^^ z))

def MAJ (x y z : SbSha256Word) : SbSha256Word := (x &&& y) ||| (z &&& (x ||| y))

/-- `sb_sha256_word`, of the bytes at the start of `p`. -/
def word (p : Bytes) : SbSha256Word :=
  (p.getD 0 0).toBitVec.setWidth 32 <<< 24 ||| (p.getD 1 0).toBitVec.setWidth 32 <<< 16 |||
    (p.getD 2 0).toBitVec.setWidth 32 <<< 8 ||| (p.getD 3 0).toBitVec.setWidth 32

/-- `sb_sha256_word_set`, the bytes it writes. -/
def wordSet (w : SbSha256Word) : Bytes :=
  [⟨(w >>> 24).setWidth 8⟩, ⟨(w >>> 16).setWidth 8⟩, ⟨(w >>> 8).setWidth 8⟩, ⟨w.setWidth 8⟩]

/-- `sb_sha2_uint64_set`, the bytes it writes. -/
def uint64Set (w : BitVec 64) : Bytes :=
  [⟨(w >>> 56).setWidth 8⟩, ⟨(w >>> 48).setWidth 8⟩, ⟨(w >>> 40).setWidth 8⟩,
    ⟨(w >>> 32).setWidth 8⟩, ⟨(w >>> 24).setWidth 8⟩, ⟨(w >>> 16).setWidth 8⟩,
    ⟨(w >>> 8).setWidth 8⟩, ⟨w.setWidth 8⟩]

/-! ## A block -/

/-- `W_i(i)` in round `t`. -/
def W_i (sha : SbSha256State) (t i : Nat) : SbSha256Word := sha.W[((16 - i) + t) % 16]

/-- `A_H(i)` in round `t`. -/
def A_H (sha : SbSha256State) (t i : Nat) : SbSha256Word := sha.a_h[(i + (64 - t)) % 8]

def setW_i (sha : SbSha256State) (t i : Nat) (w : SbSha256Word) : SbSha256State :=
  { sha with W := sha.W.set (((16 - i) + t) % 16) w }

def setA_H (sha : SbSha256State) (t i : Nat) (w : SbSha256Word) : SbSha256State :=
  { sha with a_h := sha.a_h.set ((i + (64 - t)) % 8) w }

/-- The word of the message schedule, which goes into the window. -/
def nextWord (M_i : Bytes) (t : Nat) (sha : SbSha256State) : SbSha256State × SbSha256Word :=
  if h : t < 16 then
    let Wt := word (M_i.drop (t <<< SB_SHA256_WORD_SHIFT))
    ({ sha with W := sha.W.set t Wt }, Wt)
  else
    let Wt := SSIG1 (sha.W_i t 2) + sha.W_i t 7 + SSIG0 (sha.W_i t 15) + sha.W_i t 16
    (sha.setW_i t 0 Wt, Wt)

/-- One turn of the loop. -/
def round (M_i : Bytes) (t : Nat) (sha : SbSha256State) : SbSha256State :=
  let (sha, Wt) := nextWord M_i t sha
  let T1 := sha.A_H t 7 + BSIG1 (sha.A_H t 4) + CH (sha.A_H t 4) (sha.A_H t 5) (sha.A_H t 6) +
    K.getD t 0 + Wt
  let T2 := BSIG0 (sha.A_H t 0) + MAJ (sha.A_H t 0) (sha.A_H t 1) (sha.A_H t 2)
  let sha := sha.setA_H t 3 (sha.A_H t 3 + T1)
  sha.setA_H t 7 (T1 + T2)

/-- The turns before turn `t`. -/
def rounds (M_i : Bytes) : Nat → SbSha256State → SbSha256State
  | 0, sha => sha
  | t + 1, sha => round M_i t (rounds M_i t sha)

end SbSha256State

open SbSha256State

-- the proofs about messages are not to look inside of its 64 rounds
@[irreducible] def sbSha256ProcessBlock (sha : SbSha256State) (M_i : Bytes) : SbSha256State :=
  let sha := { sha with a_h := sha.ihash }
  let sha := rounds M_i SB_SHA256_ROUNDS sha
  { sha with ihash := sha.ihash.zipWith (· + ·) sha.a_h }

/-! ## Messages -/

def sbSha256Init : SbSha256State := { SbSha256State.null with ihash := sb_sha256_init_state }

/-- One turn of the loop, which takes `take` bytes. -/
def SbSha256State.feed (sha : SbSha256State) (input : Bytes) (take : Nat) : SbSha256State :=
  let fill := sha.total_bytes.toNat % SB_SHA256_BLOCK_SIZE
  let sha := { sha with total_bytes := sha.total_bytes + BitVec.ofNat 32 take }
  if fill = 0 ∧ take = SB_SHA256_BLOCK_SIZE then
    sbSha256ProcessBlock sha (input.take take)
  else
    let sha := { sha with buffer := memcpy sha.buffer fill (input.take take) }
    if sha.total_bytes.toNat % SB_SHA256_BLOCK_SIZE = 0 then
      sbSha256ProcessBlock sha sha.buffer.toList
    else sha

/-- A turn takes what is there, or what the buffer has room for. -/
def sbSha256Update (sha : SbSha256State) (input : Bytes) : SbSha256State :=
  if input.length > 0 then
    let fill := sha.total_bytes.toNat % SB_SHA256_BLOCK_SIZE
    let remaining := SB_SHA256_BLOCK_SIZE - fill
    let take := if input.length > remaining then remaining else input.length
    sbSha256Update (sha.feed input take) (input.drop take)
  else sha
termination_by input.length
decreasing_by
  have h := Nat.mod_lt sha.total_bytes.toNat (y := SB_SHA256_BLOCK_SIZE) (by decide)
  rw [List.length_drop]
  split <;> omega

def sb_sha256_final_bit : UInt8 := 0x80

def sbSha256FinishInternal (sha : SbSha256State) : SbSha256State :=
  let total_bits := sha.total_bytes.setWidth 64 <<< 3
  let sha := sbSha256Update sha [sb_sha256_final_bit]
  let fill := sha.total_bytes.toNat % SB_SHA256_BLOCK_SIZE
  let remaining := SB_SHA256_BLOCK_SIZE - fill
  let sha := { sha with buffer := memcpy sha.buffer fill (List.replicate remaining 0) }
  let sha := if remaining < SB_SHA256_LENGTH_BYTES then
      let sha := sbSha256ProcessBlock sha sha.buffer.toList
      { sha with buffer := Vector.replicate 64 0 }
    else sha
  let sha := { sha with
    buffer := memcpy sha.buffer (SB_SHA256_BLOCK_SIZE - 8) (uint64Set total_bits) }
  sbSha256ProcessBlock sha sha.buffer.toList

/-- The loop over the words of the hash value. -/
def SbSha256State.ihashBytes (sha : SbSha256State) : Bytes := sha.ihash.toList.flatMap wordSet

def sbSha256FinishToBuffer (sha : SbSha256State) : SbSha256State :=
  let sha := sbSha256FinishInternal sha
  { sha with buffer := memcpy sha.buffer 0 sha.ihashBytes }

/-- The state, and the output. -/
def sbSha256Finish (sha : SbSha256State) : SbSha256State × Vector UInt8 32 :=
  let sha := sbSha256FinishInternal sha
  (SbSha256State.null, memcpy (Vector.replicate 32 0) 0 sha.ihashBytes)

def sbSha256Message (input : Bytes) : SbSha256State × Vector UInt8 32 :=
  let sha := sbSha256Init
  let sha := sbSha256Update sha input
  sbSha256Finish sha

end DataProcessor
