import Mathlib

/-!
# What is built on a hash function

The keyed hash HMAC, and on it the key derivation HKDF and the generator
HMAC-DRBG, for any hash function with blocks of a fixed size. They read
bytes and nothing else, so that two hash functions that agree on short
messages give the same on short inputs (`hmac_congr`).
-/

namespace DataProcessor.Lib

structure HashFunction where
  hash : List UInt8 → List UInt8
  block : Nat
  length : Nat
  length_hash : ∀ msg, (hash msg).length = length
  length_le : length ≤ block
  length_pos : 0 < length

namespace HashFunction

variable (H : HashFunction)

/-! ## HMAC -/

/-- The key as it is padded: hashed when it is longer than a block, then
filled up with zeros. -/
def blockKey (key : List UInt8) : List UInt8 :=
  let short := if key.length > H.block then H.hash key else key
  short ++ List.replicate (H.block - short.length) 0

def hmac (key msg : List UInt8) : List UInt8 :=
  H.hash ((H.blockKey key).map (· ^^^ 0x5c) ++
    H.hash ((H.blockKey key).map (· ^^^ 0x36) ++ msg))

@[simp] theorem length_hmac (key msg : List UInt8) : (H.hmac key msg).length = H.length :=
  H.length_hash _

@[simp] theorem length_blockKey (key : List UInt8) : (H.blockKey key).length = H.block := by
  have hle := H.length_le
  simp only [blockKey, List.length_append, List.length_replicate]
  split
  · rw [H.length_hash]
    omega
  · omega

/-- A key that fits is only filled up. -/
theorem blockKey_of_le {key : List UInt8} (h : key.length ≤ H.block) :
    H.blockKey key = key ++ List.replicate (H.block - key.length) 0 := by
  rw [blockKey, if_neg (by omega)]

variable {H} in
theorem hmac_congr {H' : HashFunction} {key msg : List UInt8} (hblock : H.block = H'.block)
    {bound : Nat} (hhash : ∀ m : List UInt8, m.length < bound → H.hash m = H'.hash m)
    (hkey : key.length < bound) (hmsg : H.block + msg.length < bound)
    (hdigest : H.block + H.length < bound) : H.hmac key msg = H'.hmac key msg := by
  have hblockKey : H.blockKey key = H'.blockKey key := by
    simp only [blockKey, hblock, hhash key hkey]
  rw [hmac, hmac, ← hblockKey, ← hhash, ← hhash]
  · rw [List.length_append, List.length_map, length_blockKey]
    exact hmsg
  · rw [← hhash _ (by rwa [List.length_append, List.length_map, length_blockKey]),
      List.length_append, List.length_map, length_blockKey, length_hash]
    exact hdigest

/-! ## HKDF -/

/-- Without a salt it is zeros. -/
def hkdfExtract (salt ikm : List UInt8) : List UInt8 :=
  H.hmac (if salt = [] then List.replicate H.length 0 else salt) ikm

/-- `T(n)`, and `T(0)` is empty. -/
def hkdfBlock (prk info : List UInt8) : Nat → List UInt8
  | 0 => []
  | n + 1 => H.hmac prk (hkdfBlock prk info n ++ info ++ [UInt8.ofNat (n + 1)])

/-- `T(n + 1)` up to `T(n + m)`. -/
def hkdfBlocks (prk info : List UInt8) (n m : Nat) : List UInt8 :=
  (List.range' n m).flatMap fun i => H.hkdfBlock prk info (i + 1)

/-- How many digests cover `len` bytes. -/
def digests (len : Nat) : Nat := (len + H.length - 1) / H.length

/-- For up to 255 digests, since the number of one is a byte. -/
def hkdfExpand (prk info : List UInt8) (len : Nat) : List UInt8 :=
  (H.hkdfBlocks prk info 0 (H.digests len)).take len

theorem hkdfBlocks_succ (prk info : List UInt8) (n m : Nat) : H.hkdfBlocks prk info n (m + 1) =
    H.hkdfBlock prk info (n + 1) ++ H.hkdfBlocks prk info (n + 1) m := by
  simp [hkdfBlocks, List.range'_succ]

@[simp] theorem length_hkdfBlock_succ (prk info : List UInt8) (n : Nat) :
    (H.hkdfBlock prk info (n + 1)).length = H.length :=
  H.length_hmac _ _

theorem digests_add_length (len : Nat) : H.digests (H.length + len) = H.digests len + 1 := by
  have hpos := H.length_pos
  rw [digests, digests, show H.length + len + H.length - 1 = len + H.length - 1 + H.length by omega,
    Nat.add_div_right _ hpos]

theorem digests_of_le {len : Nat} (hpos : 0 < len) (hle : len ≤ H.length) : H.digests len = 1 := by
  have h : len + H.length - 1 = len - 1 + H.length := by omega
  rw [digests, h, Nat.add_div_right _ H.length_pos, Nat.div_eq_of_lt (by omega)]

/-! What expands behind the first `n` digests. -/

theorem take_hkdfBlocks_of_le (prk info : List UInt8) (n : Nat) {len : Nat} (hpos : 0 < len)
    (hle : len ≤ H.length) : (H.hkdfBlocks prk info n (H.digests len)).take len =
      (H.hkdfBlock prk info (n + 1)).take len := by
  rw [H.digests_of_le hpos hle, hkdfBlocks_succ]
  exact List.take_append_of_le_length (by rwa [length_hkdfBlock_succ])

theorem take_hkdfBlocks_add (prk info : List UInt8) (n len : Nat) :
    (H.hkdfBlocks prk info n (H.digests (H.length + len))).take (H.length + len) =
      H.hkdfBlock prk info (n + 1) ++
        (H.hkdfBlocks prk info (n + 1) (H.digests len)).take len := by
  rw [digests_add_length, hkdfBlocks_succ, ← H.length_hkdfBlock_succ prk info n,
    List.take_length_add_append]

theorem length_hkdfBlock_le (prk info : List UInt8) (n : Nat) :
    (H.hkdfBlock prk info n).length ≤ H.length := by
  cases n with
  | zero => exact Nat.zero_le _
  | succ n => exact Nat.le_of_eq (H.length_hkdfBlock_succ prk info n)

variable {H} in
theorem hkdfExpand_congr {H' : HashFunction} {prk info : List UInt8} (hblock : H.block = H'.block)
    (hlength : H.length = H'.length) {bound : Nat}
    (hhash : ∀ m : List UInt8, m.length < bound → H.hash m = H'.hash m)
    (hprk : prk.length < bound) (hinfo : H.block + (H.length + info.length + 1) < bound)
    (len : Nat) : H.hkdfExpand prk info len = H'.hkdfExpand prk info len := by
  have hblocks : ∀ n, H.hkdfBlock prk info n = H'.hkdfBlock prk info n := by
    intro n
    induction n with
    | zero => rfl
    | succ n ih =>
        have hle := H.length_hkdfBlock_le prk info n
        rw [hkdfBlock, hkdfBlock, ← ih]
        refine hmac_congr hblock hhash hprk ?_ (by omega)
        simp only [List.length_append, List.length_singleton]
        omega
  simp only [hkdfExpand, hkdfBlocks, digests, hlength, hblocks]

/-! ## HMAC-DRBG -/

structure Drbg where
  key : List UInt8
  v : List UInt8

namespace Drbg

/-- One of the two rounds of an update. -/
def updateRound (r : UInt8) (data : List UInt8) (d : Drbg) : Drbg :=
  let key := H.hmac d.key (d.v ++ r :: data)
  ⟨key, H.hmac key d.v⟩

/-- Without data the second round is left out. -/
def update (data : List UInt8) (d : Drbg) : Drbg :=
  let d := updateRound H 0 data d
  if data = [] then d else updateRound H 1 data d

def instantiate (seed : List UInt8) : Drbg :=
  update H seed ⟨List.replicate H.length 0, List.replicate H.length 1⟩

/-- `n` digests of output. -/
def output : Nat → Drbg → Drbg × List UInt8
  | 0, d => (d, [])
  | n + 1, d =>
      let v := H.hmac d.key d.v
      let (d, rest) := output n ⟨d.key, v⟩
      (d, v ++ rest)

def generate (additional : List UInt8) (len : Nat) (d : Drbg) : Drbg × List UInt8 :=
  let d := if additional = [] then d else update H additional d
  let (d, out) := output H (H.digests len) d
  (update H additional d, out.take len)

/-- The outputs for requests one after the other, each of a length and with
additional input. -/
def run : List (Nat × List UInt8) → Drbg → List (List UInt8)
  | [], _ => []
  | (len, additional) :: requests, d =>
      (generate H additional len d).2 :: run requests (generate H additional len d).1

end Drbg

theorem digests_zero : H.digests 0 = 0 := by
  have hpos := H.length_pos
  rw [digests, Nat.zero_add]
  exact Nat.div_eq_of_lt (by omega)

end HashFunction

end DataProcessor.Lib
