import DataProcessor.Model.SwCurves

/-!
# The arithmetic of field elements without a modulus

What the loops over words do to the numbers the words make up. The steps for
one word are exact in a double word, and a difference leaves its borrow in
the high half; the rules for passes carry that to the whole number. A flag
is a word that is one or zero, and the functions that answer one or take one
are stated with `flag`.
-/

namespace DataProcessor

open Lib

variable {W : SbWordSize}

/-! ## Flags -/

/-- The word for a truth value. -/
def flag (W : SbWordSize) (P : Prop) [Decidable P] : SbWord W := if P then 1 else 0

theorem flag_of {P : Prop} [Decidable P] (h : P) : flag W P = 1 := if_pos h

theorem flag_of_not {P : Prop} [Decidable P] (h : ¬ P) : flag W P = 0 := if_neg h

@[simp] theorem toNat_zero_word (W : SbWordSize) : (0 : SbWord W).toNat = 0 :=
  BitVec.toNat_zero

@[simp] theorem toNat_one_word (W : SbWordSize) : (1 : SbWord W).toNat = 1 := by
  cases W <;> rfl

theorem toNat_flag {P : Prop} [Decidable P] : (flag W P).toNat = if P then 1 else 0 := by
  by_cases h : P
  · rw [flag_of h, if_pos h, toNat_one_word]
  · rw [flag_of_not h, if_neg h]
    rfl

theorem one_ne_zero_word (W : SbWordSize) : (1 : SbWord W) ≠ 0 := by
  cases W <;> decide

theorem flag_ne_zero_iff {P : Prop} [Decidable P] : flag W P ≠ 0 ↔ P := by
  refine ⟨fun h => ?_, fun h => ?_⟩
  · by_contra hne
    exact h (flag_of_not hne)
  · rw [flag_of h]
    exact one_ne_zero_word W

theorem eq_flag_of_toNat {P : Prop} [Decidable P] {a : SbWord W}
    (h : a.toNat = if P then 1 else 0) : a = flag W P :=
  BitVec.eq_of_toNat_eq (h.trans toNat_flag.symm)

/-! ## Steps -/

theorem addStep_toNat (a b c : SbWord W) :
    (addStep a b c).1.toNat + 2 ^ W.bits * (addStep a b c).2.toNat =
      a.toNat + 1 * b.toNat + c.toNat := by
  rw [Nat.one_mul, ← toNat_double_add W.one_lt_bits]
  exact double_halves _

theorem subStep_toNat (a b c : SbWord W) (hc : c.toNat ≤ 1) :
    (subStep a b c).2.toNat ≤ 1 ∧
      (subStep a b c).1.toNat + b.toNat + c.toNat =
        a.toNat + 2 ^ W.bits * (subStep a b c).2.toNat :=
  double_sub W.one_lt_bits a b c hc

theorem sbMultAddAdd_toNat (a b c d : SbWord W) :
    (sbMultAddAdd a b c d).2.toNat + 2 ^ W.bits * (sbMultAddAdd a b c d).1.toNat =
      c.toNat + a.toNat * b.toNat + d.toNat := by
  rw [Nat.add_comm c.toNat, ← toNat_double_mul_add]
  exact double_halves _

theorem sbAddCarry2_toNat (a b c : SbWord W) :
    (sbAddCarry2 a b c).2.toNat + 2 ^ W.bits * (sbAddCarry2 a b c).1.toNat =
      a.toNat + b.toNat + c.toNat := by
  rw [← toNat_double_add W.one_lt_bits]
  exact double_halves _

@[simp] theorem sbCtcWord_zero (b c : SbWord W) : sbCtcWord 0 b c = b := by
  simp [sbCtcWord, sbWordMask]

@[simp] theorem sbCtcWord_one (b c : SbWord W) : sbCtcWord 1 b c = c := by
  have hmask : sbWordMask (1 : SbWord W) = BitVec.allOnes W.bits := BitVec.neg_one_eq_allOnes
  rw [sbCtcWord, hmask, BitVec.allOnes_and, BitVec.xor_comm b c, BitVec.xor_assoc,
    BitVec.xor_self, BitVec.xor_zero]

/-! ## Numbers -/

namespace SbFe

theorem value_lt (a : SbFe W) : a.value < 2 ^ 256 := by
  have h := limbsValue_lt a.words
  rwa [a.length_words, W.bits_mul_feWords] at h

theorem value_injective {a b : SbFe W} (h : a.value = b.value) : a = b :=
  SbFe.ext (limbsValue_injective (a.length_words.trans b.length_words.symm) h)

@[simp] theorem value_inj {a b : SbFe W} : a.value = b.value ↔ a = b :=
  ⟨value_injective, congrArg value⟩

variable {step : SbWord W → SbWord W → SbWord W → SbWord W × SbWord W}

theorem pass_add (step : SbWord W → SbWord W → SbWord W → SbWord W × SbWord W) (k : Nat)
    (hstep : ∀ a b c, (step a b c).1.toNat + 2 ^ W.bits * (step a b c).2.toNat =
      a.toNat + k * b.toNat + c.toNat) (c : SbWord W) (a b : SbFe W) :
    (pass step c a b).1.value + 2 ^ 256 * (pass step c a b).2.toNat =
      a.value + k * b.value + c.toNat := by
  have h := carryPass_add hstep c (a.length_words.trans b.length_words.symm)
  rwa [a.length_words, W.bits_mul_feWords] at h

theorem pass_sub
    (hstep : ∀ a b c, c.toNat ≤ 1 → (step a b c).2.toNat ≤ 1 ∧
      (step a b c).1.toNat + b.toNat + c.toNat = a.toNat + 2 ^ W.bits * (step a b c).2.toNat)
    {c : SbWord W} (hc : c.toNat ≤ 1) (a b : SbFe W) :
    (pass step c a b).2 = flag W (a.value < b.value + c.toNat) ∧
      (pass step c a b).1.value + (b.value + c.toNat) =
        a.value + if a.value < b.value + c.toNat then 2 ^ 256 else 0 := by
  obtain ⟨hle, h⟩ := carryPass_sub hstep c hc (a.length_words.trans b.length_words.symm)
  rw [a.length_words, W.bits_mul_feWords] at h
  change (pass step c a b).2.toNat ≤ 1 at hle
  change (pass step c a b).1.value + b.value + c.toNat =
    a.value + 2 ^ 256 * (pass step c a b).2.toNat at h
  have hlt := (pass step c a b).1.value_lt
  have hborrow : (pass step c a b).2.toNat = if a.value < b.value + c.toNat then 1 else 0 := by
    split <;> omega
  refine ⟨eq_flag_of_toNat hborrow, ?_⟩
  rw [hborrow] at h
  split at h <;> split <;> omega

end SbFe

/-! ## Sums, differences and comparisons -/

theorem sbFeAdd_value (a b : SbFe W) :
    (sbFeAdd a b).1.value + 2 ^ 256 * (sbFeAdd a b).2.toNat = a.value + b.value := by
  have h := SbFe.pass_add addStep 1 (fun a b c => by rw [addStep_toNat, Nat.one_mul]) 0 a b
  rwa [toNat_zero_word, Nat.one_mul] at h

theorem sbFeAdd_carry (a b : SbFe W) :
    (sbFeAdd a b).2 = flag W (2 ^ 256 ≤ a.value + b.value) := by
  apply eq_flag_of_toNat
  have h := sbFeAdd_value a b
  have := a.value_lt
  have := b.value_lt
  have := (sbFeAdd a b).1.value_lt
  split <;> omega

theorem sbFeSubBorrow_spec {c : SbWord W} (hc : c.toNat ≤ 1) (a b : SbFe W) :
    (sbFeSubBorrow a b c).2 = flag W (a.value < b.value + c.toNat) ∧
      (sbFeSubBorrow a b c).1.value + (b.value + c.toNat) =
        a.value + if a.value < b.value + c.toNat then 2 ^ 256 else 0 :=
  SbFe.pass_sub subStep_toNat hc a b

theorem sbFeSub_value (a b : SbFe W) :
    (sbFeSub a b).1.value + b.value = a.value + if a.value < b.value then 2 ^ 256 else 0 := by
  have h := (sbFeSubBorrow_spec (c := 0) (by simp) a b).2
  rwa [toNat_zero_word] at h

theorem sbFeLt_eq (a b : SbFe W) : sbFeLt a b = flag W (a.value < b.value) := by
  have h := (sbFeSubBorrow_spec (c := 0) (by simp) a b).1
  rwa [toNat_zero_word] at h

/-- Every difference of words goes into `r`, and `r | -r` has its top bit set
unless there is none. -/
theorem sbFeEqual_eq (a b : SbFe W) : sbFeEqual a b = flag W (a = b) := by
  have hlen := a.length_words.trans b.length_words.symm
  have hzero : (List.zipWith (· ^^^ ·) a.words b.words).foldl (· ||| ·) 0 = 0 ↔ a = b := by
    rw [foldl_or_eq_zero_iff, zipWith_xor_eq_zero_iff hlen, SbFe.ext_iff]
    simp
  have hbits : 0 < W.bits := by
    have := W.one_lt_bits
    omega
  rw [sbFeEqual, or_neg_ushiftRight hbits]
  split
  · next h =>
      rw [flag_of (hzero.1 h)]
      exact BitVec.zero_xor
  · next h =>
      rw [flag_of_not fun heq => h (hzero.2 heq)]
      exact BitVec.xor_self

/-! ## Choices -/

theorem SbFe.pass_fst {step : SbWord W → SbWord W → SbWord W → SbWord W × SbWord W}
    (hstep : ∀ a b c, (step a b c).1 = a) (c : SbWord W) (a b : SbFe W) :
    (pass step c a b).1 = a := by
  apply SbFe.ext
  have hlen := a.length_words.trans b.length_words.symm
  exact (carryPass_map (f := Prod.fst) hstep c).trans (List.map_fst_zip hlen.le)

theorem SbFe.pass_snd {step : SbWord W → SbWord W → SbWord W → SbWord W × SbWord W}
    (hstep : ∀ a b c, (step a b c).1 = b) (c : SbWord W) (a b : SbFe W) :
    (pass step c a b).1 = b := by
  apply SbFe.ext
  have hlen := b.length_words.trans a.length_words.symm
  exact (carryPass_map (f := Prod.snd) hstep c).trans (List.map_snd_zip hlen.le)

theorem sbFeCtswap_flag (P : Prop) [Decidable P] (a b : SbFe W) :
    sbFeCtswap (flag W P) a b = if P then (b, a) else (a, b) := by
  split
  · next h =>
      simp only [sbFeCtswap, flag_of h, sbCtcWord_one]
      rw [SbFe.pass_snd fun _ _ _ => rfl, SbFe.pass_snd fun _ _ _ => rfl]
  · next h =>
      simp only [sbFeCtswap, flag_of_not h, sbCtcWord_zero]
      rw [SbFe.pass_fst fun _ _ _ => rfl, SbFe.pass_fst fun _ _ _ => rfl]

theorem sbFeCtswap_one (a b : SbFe W) : sbFeCtswap 1 a b = (b, a) := by
  have h := sbFeCtswap_flag True a b
  rwa [flag_of trivial, if_pos trivial] at h

theorem sbFeCtswap_zero (a b : SbFe W) : sbFeCtswap 0 a b = (a, b) := by
  have h := sbFeCtswap_flag False a b
  rwa [flag_of_not not_false, if_neg not_false] at h

theorem sbFeCondSubP_flag (P : Prop) [Decidable P] (a p : SbFe W) :
    sbFeCondSubP a (flag W P) p = if P then (sbFeSub a p).1 else a := by
  split
  · next h =>
      simp only [sbFeCondSubP, flag_of h, sbCtcWord_one]
      rfl
  · next h =>
      simp only [sbFeCondSubP, flag_of_not h, sbCtcWord_zero]
      rw [SbFe.pass_fst fun _ _ _ => rfl]

theorem sbFeCondAddP1_value (P : Prop) [Decidable P] (a p : SbFe W) :
    (sbFeCondAddP1 a (flag W P) p).value =
      (a.value + (if P then p.value else 0) + 1) % 2 ^ 256 := by
  have hctc : ∀ b : SbWord W,
      (sbCtcWord (flag W P) 0 b).toNat = (if P then 1 else 0) * b.toNat := by
    intro b
    split
    · next h => rw [flag_of h, sbCtcWord_one, Nat.one_mul]
    · next h => rw [flag_of_not h, sbCtcWord_zero, Nat.zero_mul, toNat_zero_word]
  have h := SbFe.pass_add (fun a b c => addStep a (sbCtcWord (flag W P) 0 b) c) (if P then 1 else 0)
    (fun a b c => by rw [addStep_toNat, hctc, Nat.one_mul]) 1 a p
  have hlt := (sbFeCondAddP1 a (flag W P) p).value_lt
  change (sbFeCondAddP1 a (flag W P) p).value + _ = _ at h
  rw [toNat_one_word, ite_mul, Nat.one_mul, Nat.zero_mul] at h
  rw [← h, Nat.add_mul_mod_self_left, Nat.mod_eq_of_lt hlt]

/-! ## Bits -/

theorem sbFeNonnegWordMask_bit {a b : SbBitcount} (ha : a.toNat < 256) (hb : b.toNat < 256) :
    (sbFeNonnegWordMask (W := W) a b).getLsbD 0 = decide (b.toNat ≤ a.toNat) := by
  have hpos : 0 < W.ubits := by
    rw [SbWordSize.ubits]
    omega
  have hsub : (a - b).toNat = (2 ^ 32 - b.toNat + a.toNat) % 2 ^ 32 := BitVec.toNat_sub a b
  have hbit : (a - b).getLsbD 8 = decide (a.toNat < b.toNat) := by
    rw [BitVec.getLsbD, hsub, Nat.testBit_eq_decide_div_mod_eq, decide_eq_decide]
    omega
  simp only [sbFeNonnegWordMask, SB_FE_BITS_BITS, BitVec.getLsbD_setWidth, hpos,
    BitVec.getLsbD_xor, BitVec.getLsbD_ushiftRight, hbit]
  by_cases h : a.toNat < b.toNat
  · simp [h]
  · simp [h, Nat.le_of_not_lt h]

theorem SbWordSize.bits_eq_two_pow (W : SbWordSize) : W.bits = 2 ^ W.bitsShift := by
  cases W <;> rfl

theorem toNat_and_bitsMask (bit : SbBitcount) :
    (bit &&& W.bitsMask).toNat = bit.toNat % W.bits := by
  have hmask : W.bitsMask.toNat = 2 ^ W.bitsShift - 1 := by
    cases W <;> rfl
  rw [BitVec.toNat_and, hmask, Nat.and_two_pow_sub_one_eq_mod, W.bits_eq_two_pow]

/-- Word `i` has its bits from `i * SB_WORD_BITS` on, and no other turn sees
the bit. -/
theorem testBitTurn_bit {bit : SbBitcount} (hbit : bit.toNat < 256) (r : SbUword W)
    (word : SbWord W) {i : Nat} (hi : i < W.feWords) :
    (testBitTurn bit r (word, i)).getLsbD 0 =
      (r.getLsbD 0 || (decide (i = bit.toNat / W.bits) &&
        word.getLsbD (bit.toNat % W.bits))) := by
  have hwords := W.bits_mul_feWords
  have hle : W.bits * (i + 1) ≤ 256 := by
    rw [← hwords]
    exact Nat.mul_le_mul_left _ hi
  rw [Nat.mul_succ] at hle
  have hbits := W.one_lt_bits
  have hl : (BitVec.ofNat 32 i <<< W.bitsShift).toNat = W.bits * i := by
    have h32 : i < 2 ^ 32 := by
      have := Nat.le_mul_of_pos_left i (show 0 < W.bits by omega)
      omega
    rw [BitVec.toNat_shiftLeft, BitVec.toNat_ofNat, Nat.mod_eq_of_lt h32, Nat.shiftLeft_eq,
      ← W.bits_eq_two_pow, Nat.mul_comm, Nat.mod_eq_of_lt (by omega)]
  have hh : (BitVec.ofNat 32 i <<< W.bitsShift + BitVec.ofNat 32 W.bits - 1).toNat =
      W.bits * i + W.bits - 1 := by
    rw [BitVec.toNat_sub, BitVec.toNat_add, hl, BitVec.toNat_ofNat,
      Nat.mod_eq_of_lt (show W.bits < 2 ^ 32 by omega)]
    change (2 ^ 32 - 1 + _) % 2 ^ 32 = _
    omega
  have hpos : 0 < W.ubits := by
    rw [SbWordSize.ubits]
    omega
  have hplace : (decide (W.bits * i ≤ bit.toNat) &&
      decide (bit.toNat ≤ W.bits * i + W.bits - 1)) = decide (i = bit.toNat / W.bits) := by
    rw [← Bool.decide_and, decide_eq_decide]
    constructor
    · intro h
      symm
      rw [Nat.div_eq_iff (by omega)]
      rw [Nat.mul_comm i]
      omega
    · intro h
      have := Nat.div_add_mod bit.toNat W.bits
      have := Nat.mod_lt bit.toNat (show 0 < W.bits by omega)
      rw [h]
      omega
  simp only [testBitTurn, BitVec.getLsbD_or, BitVec.getLsbD_and, BitVec.getLsbD_setWidth, hpos,
    BitVec.getLsbD_ushiftRight, toNat_and_bitsMask]
  rw [sbFeNonnegWordMask_bit hbit (by rw [hl]; omega),
    sbFeNonnegWordMask_bit (by rw [hh]; omega) hbit, hl, hh, ← hplace]
  cases word.getLsbD (bit.toNat % W.bits) <;> simp

theorem foldl_testBitTurn_bit {bit : SbBitcount} (hbit : bit.toNat < 256)
    (words : List (SbWord W)) (r : SbUword W) {k : Nat} (hk : k + words.length ≤ W.feWords) :
    ((words.zipIdx k).foldl (testBitTurn bit) r).getLsbD 0 =
      (r.getLsbD 0 || (decide (k ≤ bit.toNat / W.bits) &&
        (words[bit.toNat / W.bits - k]?.getD 0).getLsbD (bit.toNat % W.bits))) := by
  induction words generalizing r k with
  | nil => simp
  | cons word words ih =>
      rw [List.length_cons] at hk
      rw [List.zipIdx_cons, List.foldl_cons, ih _ (by omega),
        testBitTurn_bit hbit r word (by omega), Bool.or_assoc]
      congr 1
      rcases Nat.lt_trichotomy k (bit.toNat / W.bits) with h | h | h
      · have hsub : bit.toNat / W.bits - k = (bit.toNat / W.bits - (k + 1)) + 1 := by omega
        rw [hsub, List.getElem?_cons_succ]
        simp [h.ne, h.le, Nat.succ_le_of_lt h]
      · simp [← h]
      · simp [h.ne', Nat.not_le_of_lt h, show ¬ k + 1 ≤ bit.toNat / W.bits by omega]

theorem setWidth_and_one (r : SbUword W) :
    (r &&& 1).setWidth W.bits = flag W (r.getLsbD 0 = true) := by
  have hand : r &&& 1 = (BitVec.ofBool (r.getLsbD 0)).setWidth W.ubits :=
    BitVec.and_one_eq_setWidth_ofBool_getLsbD
  rw [hand]
  cases r.getLsbD 0
  · rw [flag_of_not (by decide)]
    cases W <;> rfl
  · rw [flag_of rfl]
    cases W <;> rfl

theorem sbFeTestBit_eq (a : SbFe W) {bit : SbBitcount} (hbit : bit.toNat < 256) :
    sbFeTestBit a bit = flag W (a.value.testBit bit.toNat = true) := by
  have hbits := W.one_lt_bits
  have hindex : bit.toNat / W.bits < a.words.length := by
    rw [a.length_words, Nat.div_lt_iff_lt_mul (by omega), Nat.mul_comm, W.bits_mul_feWords]
    exact hbit
  have hfold := foldl_testBitTurn_bit hbit a.words 0 (k := 0)
    (by rw [Nat.zero_add, a.length_words])
  have hvalue := testBit_limbsValue a.words hindex
    (Nat.mod_lt bit.toNat (show 0 < W.bits by omega))
  rw [Nat.div_add_mod] at hvalue
  change a.value.testBit _ = _ at hvalue
  rw [sbFeTestBit, setWidth_and_one, hfold, hvalue, Nat.sub_zero,
    List.getElem?_eq_getElem hindex]
  simp

end DataProcessor
