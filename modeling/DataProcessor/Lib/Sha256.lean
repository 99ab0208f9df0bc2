import DataProcessor.Lib.BigEndian
import DataProcessor.Lib.BlockStream

/-!
# SHA-256 as the standard defines it

The message is padded to whole blocks of 64 bytes, and the blocks are
compressed into the hash value one after the other. Every constant is the
first 32 bits behind the point of a root of a prime.

The padding ends with the length of the message. `hash` takes it as an
argument of its own, so that it can be said what an implementation with a
narrow counter hashes; `sha256` is the standard's.
-/

namespace DataProcessor.Lib

namespace Sha256

abbrev Word := BitVec 32

/-! ## Functions on words -/

def ch (x y z : Word) : Word := (x &&& y) ^^^ (~~~x &&& z)

def maj (x y z : Word) : Word := (x &&& y) ^^^ (x &&& z) ^^^ (y &&& z)

def bsig0 (x : Word) : Word := x.rotateRight 2 ^^^ x.rotateRight 13 ^^^ x.rotateRight 22

def bsig1 (x : Word) : Word := x.rotateRight 6 ^^^ x.rotateRight 11 ^^^ x.rotateRight 25

def ssig0 (x : Word) : Word := x.rotateRight 7 ^^^ x.rotateRight 18 ^^^ x >>> 3

def ssig1 (x : Word) : Word := x.rotateRight 17 ^^^ x.rotateRight 19 ^^^ x >>> 10

/-! ## Constants -/

/-- By division up to the root, so that the kernel computes the constants in
little time. -/
local instance decidablePrime : DecidablePred Nat.Prime := fun n =>
  decidable_of_iff (2 ≤ n ∧ (List.range' 2 (n.sqrt - 1)).all (n % · != 0) = true) (by
    rw [Nat.prime_def_le_sqrt]
    refine and_congr_right fun hn => ?_
    simp only [List.all_eq_true, List.mem_range'_1, bne_iff_ne, ne_eq,
      Nat.dvd_iff_mod_eq_zero]
    exact ⟨fun h m h2 hm => h m (by omega), fun h m hm => h m hm.1 (by omega)⟩)

/-- The first 64 of them. -/
def primes : List Nat := (List.range 312).filter Nat.Prime

/-- What stands behind the point of the root, to 32 bits. -/
def rootFraction (k p : Nat) : Word := BitVec.ofNat 32 (Nat.nthRoot k (p * 2 ^ (32 * k)))

def constants : List Word := primes.map (rootFraction 3)

def initialHash : List Word := (primes.take 8).map (rootFraction 2)

/-! ## Compression -/

/-- The message schedule, continued by `n` words. -/
def schedule (M : List Word) : Nat → List Word
  | 0 => M
  | n + 1 =>
      let W := schedule M n
      W ++ [ssig1 (W.getD (n + 14) 0) + W.getD (n + 9) 0 + ssig0 (W.getD (n + 1) 0) +
        W.getD n 0]

/-- The word of the schedule for round `t`. -/
def scheduled (M : List Word) (t : Nat) : Word := (schedule M 48).getD t 0

/-- The working variables, from `a` to `h`. -/
structure Registers where
  a : Word
  b : Word
  c : Word
  d : Word
  e : Word
  f : Word
  g : Word
  h : Word

namespace Registers

def ofList (H : List Word) : Registers :=
  ⟨H.getD 0 0, H.getD 1 0, H.getD 2 0, H.getD 3 0, H.getD 4 0, H.getD 5 0, H.getD 6 0,
    H.getD 7 0⟩

def toList (r : Registers) : List Word := [r.a, r.b, r.c, r.d, r.e, r.f, r.g, r.h]

def round (K W : Word) (r : Registers) : Registers :=
  let T1 := r.h + bsig1 r.e + ch r.e r.f r.g + K + W
  let T2 := bsig0 r.a + maj r.a r.b r.c
  ⟨T1 + T2, r.a, r.b, r.c, r.d + T1, r.e, r.f, r.g⟩

/-- The first `n` rounds. -/
def rounds (M : List Word) (r : Registers) : Nat → Registers
  | 0 => r
  | n + 1 => round (constants.getD n 0) (scheduled M n) (rounds M r n)

end Registers

/-- The words of a block. -/
def words (block : List UInt8) : List Word :=
  (List.range 16).map fun t => BitVec.ofNat 32 (ofBE ((block.drop (4 * t)).take 4))

def compress (H : List Word) (block : List UInt8) : List Word :=
  H.zipWith (· + ·) ((Registers.ofList H).rounds (words block) 64).toList

/-! ## The hash -/

/-- Behind a message of `len` bytes, for the length `total`. -/
def padding (len total : Nat) : List UInt8 :=
  0x80 :: List.replicate ((119 - len % 64) % 64) 0 ++ toBE 8 (8 * total)

def output (H : List Word) : List UInt8 := H.flatMap fun w => toBE 4 w.toNat

/-- The hash value after the whole blocks of `msg`. -/
def absorb (msg : List UInt8) : List Word := (blocks 64 msg).foldl compress initialHash

/-- The hash with the length `total` in the padding. -/
def hash (total : Nat) (msg : List UInt8) : List UInt8 :=
  output (absorb (msg ++ padding msg.length total))

end Sha256

def sha256 (msg : List UInt8) : List UInt8 := Sha256.hash msg.length msg

/-- For `"abc"`. -/
example : sha256 [0x61, 0x62, 0x63] = toBE 32
    0xba7816bf8f01cfea414140de5dae2223b00361a396177a9cb410ff61f20015ad := by
  decide +kernel

namespace Sha256

variable {M : List Word} {msg piece : List UInt8}

theorem length_schedule (n : Nat) : (schedule M n).length = M.length + n := by
  induction n with
  | zero => rfl
  | succ n ih => simp only [schedule, List.length_append, List.length_singleton, ih]; rfl

theorem getD_schedule {i n k : Nat} (hi : i < M.length + n) :
    (schedule M (n + k)).getD i 0 = (schedule M n).getD i 0 := by
  induction k with
  | zero => rfl
  | succ k ih =>
      rw [← ih, Nat.add_succ, schedule,
        List.getD_append _ _ _ _ (by rw [length_schedule]; omega)]

/-- The first words are the block's. -/
theorem scheduled_of_lt {t : Nat} (ht : t < M.length) : scheduled M t = M.getD t 0 := by
  rw [scheduled, ← Nat.zero_add 48]
  exact getD_schedule (n := 0) ht

theorem scheduled_add_sixteen (hM : M.length = 16) {t : Nat} (ht : t < 48) :
    scheduled M (t + 16) = ssig1 (scheduled M (t + 14)) + scheduled M (t + 9) +
      ssig0 (scheduled M (t + 1)) + scheduled M t := by
  have hat : ∀ i < 16 + (t + 1), scheduled M i = (schedule M (t + 1)).getD i 0 := by
    intro i hi
    obtain ⟨k, hk⟩ := Nat.exists_eq_add_of_lt ht
    rw [scheduled, hk, Nat.add_right_comm]
    exact getD_schedule (by omega)
  have hbefore : ∀ i < 16 + t, scheduled M i = (schedule M t).getD i 0 := by
    intro i hi
    rw [hat i (by omega)]
    exact getD_schedule (by omega)
  rw [hat (t + 16) (by omega), schedule,
    List.getD_append_right _ _ _ _ (by rw [length_schedule]; omega), length_schedule,
    hbefore (t + 14) (by omega), hbefore (t + 9) (by omega), hbefore (t + 1) (by omega),
    hbefore t (by omega)]
  simp [hM, Nat.add_comm 16]

theorem length_words (block : List UInt8) : (words block).length = 16 := by
  simp [words]

theorem length_compress {H : List Word} (hH : H.length = 8) (block : List UInt8) :
    (compress H block).length = 8 := by
  simp [compress, hH, Registers.toList]

theorem length_absorb (msg : List UInt8) : (absorb msg).length = 8 := by
  have hstart : initialHash.length = 8 := by decide +kernel
  have hfold : ∀ (bs : List (List UInt8)) (H : List Word), H.length = 8 →
      (bs.foldl compress H).length = 8 := by
    intro bs
    induction bs with
    | nil => exact fun H hH => hH
    | cons b bs ih => exact fun H hH => ih _ (length_compress hH b)
  exact hfold _ _ hstart

theorem absorb_append_of_lt (h : msg.length % 64 + piece.length < 64) :
    absorb (msg ++ piece) = absorb msg := by
  rw [absorb, (blocks_append_of_lt h).1, absorb]

theorem absorb_append_of_eq (h : msg.length % 64 + piece.length = 64) :
    absorb (msg ++ piece) = compress (absorb msg) (leftover 64 msg ++ piece) := by
  rw [absorb, (blocks_append_of_eq (by decide) h).1, List.foldl_append]
  rfl

theorem length_hash (total : Nat) (msg : List UInt8) : (hash total msg).length = 32 := by
  have h := length_absorb (msg ++ padding msg.length total)
  rw [hash, output, List.length_flatMap]
  simp [h]

end Sha256

end DataProcessor.Lib
