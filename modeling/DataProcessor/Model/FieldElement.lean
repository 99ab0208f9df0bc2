import DataProcessor.Lib.Limbs

/-!
# Field elements (`cpp/sb_fe.c`, `cpp/sb_fe.h`)

Numbers of 256 bits in words of one, two, four or eight bytes, the least
significant word first, and the arithmetic modulo a prime on them. A modular
operation takes and gives numbers from `1` to the prime: zero stands as the
prime itself, and no operation writes the number zero out.

The loops over the words are `carryPass`. Words are promoted before bitwise
operations in the source and cast back; the casts change no bit and are left
out, but where an operation is done in `sb_dword_t` or `sb_uword_t` because
its result needs it, it is here too. Parameters that are scratch storage are
not returned.
-/

namespace DataProcessor

open Lib

/-- `SB_WORD_SIZE`. -/
inductive SbWordSize
  | one
  | two
  | four
  | eight
  deriving DecidableEq, Repr

namespace SbWordSize

def bytes : SbWordSize → Nat
  | one => 1
  | two => 2
  | four => 4
  | eight => 8

/-- `SB_WORD_BITS`. -/
def bits (W : SbWordSize) : Nat := 8 * W.bytes

/-- `SB_WORD_BITS_SHIFT`. -/
def bitsShift : SbWordSize → Nat
  | one => 3
  | two => 4
  | four => 5
  | eight => 6

/-- `SB_WORD_BITS_MASK`. -/
def bitsMask : SbWordSize → BitVec 32
  | one => 0x07
  | two => 0x0F
  | four => 0x1F
  | eight => 0x3F

/-- `SB_FE_WORDS`. -/
def feWords : SbWordSize → Nat
  | one => 32
  | two => 16
  | four => 8
  | eight => 4

/-- The bits of `sb_uword_t`. -/
def ubits (W : SbWordSize) : Nat := max W.bits 32

theorem bits_mul_feWords (W : SbWordSize) : W.bits * W.feWords = 256 := by
  cases W <;> rfl

theorem one_lt_bits (W : SbWordSize) : 1 < W.bits := by
  cases W <;> decide

theorem feWords_pos (W : SbWordSize) : 0 < W.feWords := by
  cases W <;> decide

end SbWordSize

def SB_FE_BITS : Nat := 256

def SB_FE_BITS_BITS : Nat := 8

abbrev SbWord (W : SbWordSize) := BitVec W.bits

abbrev SbDword (W : SbWordSize) := BitVec (2 * W.bits)

abbrev SbUword (W : SbWordSize) := BitVec W.ubits

abbrev SbBitcount := BitVec 32

/-- `sb_data_endian_t`; every number but `SB_DATA_ENDIAN_LITTLE` is taken for
the big-endian order. -/
inductive SbDataEndian
  | SB_DATA_ENDIAN_LITTLE
  | SB_DATA_ENDIAN_BIG
  deriving DecidableEq, Repr

/-- `sb_fe_t`. -/
@[ext] structure SbFe (W : SbWordSize) where
  words : List (SbWord W)
  length_words : words.length = W.feWords
  deriving DecidableEq

namespace SbFe

variable {W : SbWordSize}

/-- The number the words make up. -/
def value (a : SbFe W) : Nat := limbsValue a.words

/-- A loop that writes the words of a number from those of two. -/
def pass (step : SbWord W → SbWord W → SbWord W → SbWord W × SbWord W) (c : SbWord W)
    (a b : SbFe W) : SbFe W × SbWord W :=
  (⟨(carryPass step c a.words b.words).1, by
      rw [length_carryPass c (a.length_words.trans b.length_words.symm), a.length_words]⟩,
    (carryPass step c a.words b.words).2)

end SbFe

section

variable {W : SbWordSize}

/-! ## Constants -/

/-- `SB_WORD_EXPAND`. -/
def sbWordExpand (W : SbWordSize) (d : BitVec 64) : List (SbWord W) :=
  (List.range (8 / W.bytes)).map fun i => (d >>> (W.bits * i)).setWidth W.bits

/-- `SB_FE_CONST`, and its variants that note a prime for the tests. -/
def sbFeConst (W : SbWordSize) (w3 w2 w1 w0 : BitVec 64) : SbFe W :=
  ⟨sbWordExpand W w0 ++ sbWordExpand W w1 ++ sbWordExpand W w2 ++ sbWordExpand W w3, by
    cases W <;> rfl⟩

def SB_FE_ONE (W : SbWordSize) : SbFe W := sbFeConst W 0 0 0 1

def SB_FE_ZERO (W : SbWordSize) : SbFe W := sbFeConst W 0 0 0 0

/-- `sb_prime_field_t`. -/
structure SbPrimeField (W : SbWordSize) where
  p : SbFe W
  p_mp : SbWord W
  p_minus_two_f1 : SbFe W
  p_minus_two_f2 : SbFe W
  r2_mod_p : SbFe W
  r_mod_p : SbFe W
  bits : SbBitcount

/-! ## Bytes -/

/-- The inner loop of `sb_fe_from_bytes`: a word from its bytes, the most
significant first. With words of one byte there is nothing to shift. -/
def wordOfBytes (bytes : List UInt8) : SbWord W :=
  bytes.foldl (fun t src => (t <<< 8) ||| src.toBitVec.setWidth W.bits) 0

/-- Its outer loop: `n` words, the most significant first. -/
def wordsOfBytes : Nat → List UInt8 → List (SbWord W)
  | 0, _ => []
  | n + 1, bytes => wordOfBytes (bytes.take W.bytes) :: wordsOfBytes n (bytes.drop W.bytes)

theorem length_wordsOfBytes (n : Nat) (bytes : List UInt8) :
    (wordsOfBytes (W := W) n bytes).length = n := by
  induction n generalizing bytes with
  | zero => rfl
  | succ n ih => simp [wordsOfBytes, ih]

/-- `src_i` goes through the bytes from the last one down, or from the first
one up. -/
def sbFeFromBytes (src : Vector UInt8 32) : SbDataEndian → SbFe W
  | .SB_DATA_ENDIAN_LITTLE =>
      ⟨(wordsOfBytes W.feWords src.toList.reverse).reverse, by simp [length_wordsOfBytes]⟩
  | .SB_DATA_ENDIAN_BIG =>
      ⟨(wordsOfBytes W.feWords src.toList).reverse, by simp [length_wordsOfBytes]⟩

/-- The inner loop of `sb_fe_to_bytes`: `n` bytes of a word from its top. -/
def bytesOfWord : Nat → SbWord W → List UInt8
  | 0, _ => []
  | n + 1, t => ⟨(t >>> (W.bits - 8)).setWidth 8⟩ :: bytesOfWord n (t <<< 8)

theorem length_bytesOfWord (n : Nat) (t : SbWord W) : (bytesOfWord n t).length = n := by
  induction n generalizing t with
  | zero => rfl
  | succ n ih => simp [bytesOfWord, ih]

def bytesOfWords (words : List (SbWord W)) : List UInt8 :=
  words.flatMap (bytesOfWord W.bytes)

theorem length_bytesOfWords (a : SbFe W) : (bytesOfWords a.words.reverse).length = 32 := by
  have hlen : ∀ words : List (SbWord W), (bytesOfWords words).length = W.bytes * words.length := by
    intro words
    induction words with
    | nil => rfl
    | cons t words ih =>
        rw [bytesOfWords, List.flatMap_cons, List.length_append, length_bytesOfWord]
        rw [bytesOfWords] at ih
        rw [ih, List.length_cons, Nat.mul_succ, Nat.add_comm]
  rw [hlen, List.length_reverse, a.length_words]
  cases W <;> rfl

def sbFeToBytes (src : SbFe W) : SbDataEndian → Vector UInt8 32
  | .SB_DATA_ENDIAN_LITTLE =>
      ⟨(bytesOfWords src.words.reverse).reverse.toArray, by simp [length_bytesOfWords]⟩
  | .SB_DATA_ENDIAN_BIG =>
      ⟨(bytesOfWords src.words.reverse).toArray, by simp [length_bytesOfWords]⟩

/-! ## Choices -/

def sbWordMask (a : SbWord W) : SbWord W := -a

/-- Constant time choice: `b` where `a` is zero, `c` where it is one. -/
def sbCtcWord (a b c : SbWord W) : SbWord W := (sbWordMask a &&& (b ^^^ c)) ^^^ b

def sbFeNonnegWordMask (a b : SbBitcount) : SbUword W :=
  let d := a - b
  let d_neg := d >>> SB_FE_BITS_BITS
  let d_nonneg := d_neg ^^^ 1
  d_nonneg.setWidth W.ubits

/-- One where the two are the same, and zero elsewhere. -/
def sbFeEqual (left right : SbFe W) : SbWord W :=
  let r := (List.zipWith (· ^^^ ·) left.words right.words).foldl (· ||| ·) 0
  ((r ||| -r) >>> (W.bits - 1)) ^^^ 1

/-- The turn of `sb_fe_test_bit` for word `i`. -/
def testBitTurn (bit : SbBitcount) (r : SbUword W) (word : SbWord W × Nat) : SbUword W :=
  let word_bit := bit &&& W.bitsMask
  let l : SbBitcount := BitVec.ofNat 32 word.2 <<< W.bitsShift
  let h := l + BitVec.ofNat 32 W.bits - 1
  let we : SbUword W := (word.1 >>> word_bit.toNat).setWidth W.ubits
  let l_mask := sbFeNonnegWordMask (W := W) bit l
  let h_mask := sbFeNonnegWordMask (W := W) h bit
  r ||| ((we &&& l_mask) &&& h_mask)

def sbFeTestBit (a : SbFe W) (bit : SbBitcount) : SbWord W :=
  ((a.words.zipIdx.foldl (testBitTurn bit) 0) &&& 1).setWidth W.bits

def sbFeCtswap (c : SbWord W) (a b : SbFe W) : SbFe W × SbFe W :=
  ((SbFe.pass (fun a b _ => (sbCtcWord c a b, 0)) 0 a b).1,
    (SbFe.pass (fun b a _ => (sbCtcWord c b a, 0)) 0 b a).1)

/-! ## Sums and differences -/

def addStep (left right carry : SbWord W) : SbWord W × SbWord W :=
  let d : SbDword W := left.setWidth _ + right.setWidth _ + carry.setWidth _
  (d.setWidth _, (d >>> W.bits).setWidth _)

def sbFeAdd (left right : SbFe W) : SbFe W × SbWord W :=
  SbFe.pass addStep 0 left right

def subStep (left right borrow : SbWord W) : SbWord W × SbWord W :=
  let d : SbDword W := left.setWidth _ - (right.setWidth _ + borrow.setWidth _)
  (d.setWidth _, -(d >>> W.bits).setWidth _)

def sbFeSubBorrow (left right : SbFe W) (borrow : SbWord W) : SbFe W × SbWord W :=
  SbFe.pass subStep borrow left right

/-- The borrow alone. -/
def sbFeLt (left right : SbFe W) : SbWord W :=
  (carryPass subStep 0 left.words right.words).2

def sbFeCondSubP (dest : SbFe W) (c : SbWord W) (p : SbFe W) : SbFe W :=
  (SbFe.pass (fun dest p borrow =>
    let d : SbDword W := dest.setWidth _ - (p.setWidth _ + borrow.setWidth _)
    (sbCtcWord c dest (d.setWidth _), -(d >>> W.bits).setWidth _)) 0 dest p).1

def sbFeCondAddP1 (dest : SbFe W) (c : SbWord W) (p : SbFe W) : SbFe W :=
  (SbFe.pass (fun dest p carry =>
    let d : SbDword W := dest.setWidth _ + (sbCtcWord c 0 p).setWidth _ + carry.setWidth _
    (d.setWidth _, (d >>> W.bits).setWidth _)) 1 dest p).1

def sbFeSub (left right : SbFe W) : SbFe W × SbWord W := sbFeSubBorrow left right 0

/-! ## Modular sums -/

/-- What it takes is `carry` in front of `dest`, a number from one to twice
the prime. -/
def sbFeQr (dest : SbFe W) (carry : SbWord W) (p : SbPrimeField W) : SbFe W :=
  let b := sbFeLt p.p dest
  sbFeCondSubP dest (carry ||| b) p.p

def sbFeModSub (left right : SbFe W) (p : SbPrimeField W) : SbFe W :=
  let (dest, b) := sbFeSubBorrow left right 1
  sbFeCondAddP1 dest b p.p

def sbFeModReduce (dest : SbFe W) (p : SbPrimeField W) : SbFe W :=
  let (dest, c) := sbFeAdd dest (SB_FE_ONE W)
  let dest := sbFeQr dest c p
  sbFeModSub dest (SB_FE_ONE W) p

def sbFeModReduceFull (dest : SbFe W) (p : SbPrimeField W) : SbFe W :=
  let c := sbFeLt dest p.p ^^^ 1
  sbFeCondSubP dest c p.p

def sbFeModNegate (left : SbFe W) (p : SbPrimeField W) : SbFe W :=
  sbFeModSub p.p left p

def sbFeModAdd (left right : SbFe W) (p : SbPrimeField W) : SbFe W :=
  let (dest, carry) := sbFeAdd left right
  sbFeQr dest carry p

def sbFeModDouble (left : SbFe W) (p : SbPrimeField W) : SbFe W :=
  sbFeModAdd left left p

/-! ## Halves -/

/-- The loop of `sb_fe_rshift_w`, from the most significant word down. -/
def rshiftWords (bits : Nat) : SbWord W → List (SbWord W) → List (SbWord W)
  | _, [] => []
  | carry, word :: words =>
      ((word >>> bits) ||| carry) :: rshiftWords bits (word <<< (W.bits - bits)) words

theorem length_rshiftWords (bits : Nat) (carry : SbWord W) (words : List (SbWord W)) :
    (rshiftWords bits carry words).length = words.length := by
  induction words generalizing carry with
  | nil => rfl
  | cons word words ih => simp [rshiftWords, ih]

def sbFeRshiftW (a : SbFe W) (bits : Nat) : SbFe W :=
  ⟨(rshiftWords bits 0 a.words.reverse).reverse, by
    rw [List.length_reverse, length_rshiftWords, List.length_reverse, a.length_words]⟩

def sbFeModHalve (left : SbFe W) (p : SbPrimeField W) : SbFe W :=
  let low := sbFeTestBit left 0
  let dest := sbFeRshiftW left 1
  let temp := (sbFeSub p.p left).1
  let temp := sbFeRshiftW temp 1
  let temp := (sbFeSub p.p temp).1
  (sbFeCtswap low dest temp).1

/-! ## Montgomery multiplication -/

/-- `(h, l) = a * b + c + d`. -/
def sbMultAddAdd (a b c d : SbWord W) : SbWord W × SbWord W :=
  let t : SbDword W := a.setWidth _ * b.setWidth _ + c.setWidth _ + d.setWidth _
  ((t >>> W.bits).setWidth _, t.setWidth _)

/-- `(h, l) = a + b + c`. -/
def sbAddCarry2 (a b c : SbWord W) : SbWord W × SbWord W :=
  let r : SbDword W := a.setWidth _ + b.setWidth _ + c.setWidth _
  ((r >>> W.bits).setWidth _, r.setWidth _)

/-- The inner loops of `sb_fe_mont_mult`: `A + k * y`, and the word over. -/
def multAddPass (A : SbFe W) (k : SbWord W) (y : SbFe W) : SbFe W × SbWord W :=
  SbFe.pass (fun A_j y_j c =>
    let (h, l) := sbMultAddAdd k y_j A_j c
    (l, h)) 0 A y

/-- `A / b`, and a new top word. -/
def SbFe.shiftWord (A : SbFe W) (top : SbWord W) : SbFe W :=
  ⟨A.words.tail ++ [top], by
    have := A.length_words
    have := W.feWords_pos
    simp
    omega⟩

/-- The turn of the outer loop for word `x_i`, on `A` and `hw`. -/
def montTurn (y : SbFe W) (p : SbPrimeField W) (state : SbFe W × SbWord W) (x_i : SbWord W) :
    SbFe W × SbWord W :=
  let (A, hw) := state
  let (A, c) := multAddPass A x_i y
  let u_i := A.words.headD 0 * p.p_mp
  let (A, c2) := multAddPass A u_i p.p
  let (hw, top) := sbAddCarry2 hw c c2
  (A.shiftWord top, hw)

def sbFeMontMult (x y : SbFe W) (p : SbPrimeField W) : SbFe W :=
  let (A, hw) := x.words.foldl (montTurn y p) (SB_FE_ZERO W, 0)
  sbFeQr A hw p

def sbFeMontSquare (left : SbFe W) (p : SbPrimeField W) : SbFe W :=
  sbFeMontMult left left p

def sbFeMontReduce (left : SbFe W) (p : SbPrimeField W) : SbFe W :=
  sbFeMontMult left (SB_FE_ONE W) p

def sbFeMontConvert (left : SbFe W) (p : SbPrimeField W) : SbFe W :=
  sbFeMontMult left p.r2_mod_p p

/-! ## Powers, inverses and square roots -/

/-- The loop of `sb_fe_mod_expt_r` from bit `n - 1` down, with `by` and `t2`.
Below bit zero `i` is the greatest 32-bit number, and the loop ends. -/
def exptLoop (x e : SbFe W) (e_shift : Nat) (p : SbPrimeField W) :
    Nat → Bool → SbFe W → SbFe W
  | 0, _, t2 => t2
  | i + 1, by_, t2 =>
      if e_shift ≤ i ∧ i ≤ SB_FE_BITS then
        let b := sbFeTestBit e (BitVec.ofNat 32 i)
        if by_ = false ∧ b = 0 then exptLoop x e e_shift p i false t2
        else
          let t3 := sbFeMontSquare t2 p
          let t2 := if b ≠ 0 then sbFeMontMult t3 x p else t3
          exptLoop x e e_shift p i true t2
      else t2

def sbFeModExptR (x e : SbFe W) (e_shift : SbWord W) (p : SbPrimeField W) : SbFe W :=
  exptLoop x e e_shift.toNat p p.bits.toNat false p.r_mod_p

def sbFeModInvR (dest : SbFe W) (p : SbPrimeField W) : SbFe W :=
  let dest := sbFeModExptR dest p.p_minus_two_f1 0 p
  sbFeModExptR dest p.p_minus_two_f2 0 p

/-- The root, and whether it is one. -/
def sbFeModSqrtR (x : SbFe W) (p : SbPrimeField W) : SbFe W × Bool :=
  if p.p.words.headD 0 &&& 3 ≠ 3 then (x, false)
  else
    let t1 := (sbFeAdd p.p (SB_FE_ONE W)).1
    let t4 := x
    let x := sbFeModExptR x t1 2 p
    let t3 := sbFeMontSquare x p
    (x, sbFeEqual t3 t4 ≠ 0)

def sbFeModSqrt (x : SbFe W) (p : SbPrimeField W) : SbFe W × Bool :=
  let (x, rv) := sbFeModSqrtR (sbFeMontConvert x p) p
  (sbFeMontReduce x p, rv)

end

end DataProcessor
