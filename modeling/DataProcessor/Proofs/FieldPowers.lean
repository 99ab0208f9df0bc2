import DataProcessor.Proofs.MontgomeryElements

/-!
# Powers, inverses and square roots of field elements

The loop of `sb_fe_mod_expt_r` goes through the bits of the exponent from the
top. With `i` bits to go, what it has is the power to the exponent without
these bits, also while it skips leading zeros, when that is one. The bits
below `e_shift` stay out, so that the last one is the power to the shifted
exponent.

The inverse raises to two factors of `p - 2` in turn, and the square root to
a quarter of `p + 1`.
-/

namespace DataProcessor

open Lib SbFe

variable {W : SbWordSize} {p : SbPrimeField W} {m : Nat}

theorem low_bits_three (hm : p.p.value = m) :
    p.p.words.headD 0 &&& 3 = 3 ↔ m % 4 = 3 := by
  subst hm
  have hmod : p.p.value % 4 = (p.p.words.headD 0).toNat % 4 := by
    rw [← p.p.value_mod_bits]
    exact (Nat.mod_mod_of_dvd _ (pow_dvd_pow 2 W.one_lt_bits)).symm
  have hthree : (3 : SbWord W).toNat = 2 ^ 2 - 1 := by
    cases W <;> rfl
  have hand : (p.p.words.headD 0 &&& 3).toNat = (p.p.words.headD 0).toNat % 4 := by
    rw [BitVec.toNat_and, hthree, Nat.and_two_pow_sub_one_eq_mod]
  rw [hmod, ← hand]
  constructor
  · intro h
    rw [h, hthree]
    rfl
  · intro h
    apply BitVec.eq_of_toNat_eq
    rw [h, hthree]
    rfl

section

variable (hp : p.Consistent m)

include hp

theorem exptLoop_holds {x e : SbFe W} {u : ZMod m} (hx : x.Holds u) {e_shift n : Nat}
    (hn : n ≤ 256) (hshift : e_shift ≤ n) {started : Bool} {t2 : SbFe W}
    (ht2 : t2.Holds (u ^ (e.value / 2 ^ n))) (hstarted : started = false → e.value / 2 ^ n = 0) :
    (exptLoop x e e_shift p n started t2).Holds (u ^ (e.value / 2 ^ e_shift)) := by
  induction n generalizing started t2 with
  | zero =>
      have hzero : e_shift = 0 := by omega
      subst hzero
      exact ht2
  | succ i ih =>
      by_cases hle : e_shift ≤ i
      · have hi : (BitVec.ofNat 32 i).toNat = i := by
          rw [BitVec.toNat_ofNat, Nat.mod_eq_of_lt (by omega)]
        have hhalf : e.value / 2 ^ (i + 1) = e.value / 2 ^ i / 2 := by
          rw [pow_succ, Nat.div_div_eq_div_mul]
        have hbit : sbFeTestBit e (BitVec.ofNat 32 i) = flag W (e.value / 2 ^ i % 2 = 1) := by
          rw [sbFeTestBit_eq e (by omega), hi, Nat.testBit_eq_decide_div_mod_eq]
          simp only [decide_eq_true_eq]
        rw [hhalf] at ht2 hstarted
        have hsquare := ht2.montSquare hp
        rw [← pow_mul] at hsquare
        rw [exptLoop, if_pos ⟨hle, by rw [SB_FE_BITS]; omega⟩]
        simp only [hbit, flag_ne_zero_iff]
        by_cases hskip : started = false ∧ flag W (e.value / 2 ^ i % 2 = 1) = 0
        · rw [if_pos hskip]
          have heven : ¬ e.value / 2 ^ i % 2 = 1 := fun h => flag_ne_zero_iff.2 h hskip.2
          have hzero : e.value / 2 ^ i = 0 := by
            have := hstarted hskip.1
            omega
          refine ih (by omega) hle ?_ fun _ => hzero
          rw [hzero] at ht2 ⊢
          exact ht2
        · rw [if_neg hskip]
          refine ih (by omega) hle ?_ (fun h => Bool.noConfusion h)
          split
          · next hodd =>
              have hpow := hsquare.montMult hp hx
              rw [← pow_succ] at hpow
              rwa [show e.value / 2 ^ i / 2 * 2 + 1 = e.value / 2 ^ i by omega] at hpow
          · next heven =>
              rwa [show e.value / 2 ^ i / 2 * 2 = e.value / 2 ^ i by omega] at hsquare
      · have heq : e_shift = i + 1 := by omega
        subst heq
        rw [exptLoop, if_neg fun h => hle h.1]
        exact ht2

namespace SbFe.Holds

variable {x : SbFe W} {u : ZMod m}

theorem modExptR (hx : x.Holds u) (e : SbFe W) (e_shift : SbWord W)
    (hshift : e_shift.toNat ≤ 256) :
    (sbFeModExptR x e e_shift p).Holds (u ^ (e.value / 2 ^ e_shift.toNat)) := by
  have hbits : p.bits.toNat = 256 := by
    rw [hp.bits]
    rfl
  have hnone : e.value / 2 ^ 256 = 0 := Nat.div_eq_of_lt e.value_lt
  rw [sbFeModExptR, hbits]
  refine exptLoop_holds hp hx le_rfl hshift ?_ fun _ => hnone
  rw [hnone, pow_zero]
  exact Holds.r_mod_p hp

/-- Zero is taken to zero. -/
theorem modInvR (hx : x.Holds u) : (sbFeModInvR x p).Holds u⁻¹ := by
  have hfact := Fact.mk hp.prime
  have h1 := hx.modExptR hp p.p_minus_two_f1 0 (by rw [toNat_zero_word]; omega)
  have h2 := h1.modExptR hp p.p_minus_two_f2 0 (by rw [toNat_zero_word]; omega)
  rw [toNat_zero_word, Nat.pow_zero, Nat.div_one, Nat.div_one, ← pow_mul, hp.minus_two] at h2
  have htwo := hp.two_lt
  have hinv : u ^ (m - 2) = u⁻¹ := by
    by_cases hu : u = 0
    · rw [hu, zero_pow (by omega), inv_zero]
    · apply eq_inv_of_mul_eq_one_left
      rw [← pow_succ, show m - 2 + 1 = m - 1 by omega,
        ZMod.pow_card_sub_one_eq_one hu]
  rwa [← hinv]

end SbFe.Holds

/-! ## Square roots -/

/-- The square of the power to a quarter of `p + 1`. -/
theorem sq_pow_quarter (h4 : m % 4 = 3) (u : ZMod m) :
    (u ^ ((m + 1) / 4)) ^ 2 = u ↔ IsSquare u := by
  have hfact := Fact.mk hp.prime
  have hpow : (u ^ ((m + 1) / 4)) ^ 2 = u * u ^ (m / 2) := by
    rw [← pow_mul, ← pow_succ']
    congr 1
    omega
  constructor
  · intro h
    rw [← h]
    exact IsSquare.sq _
  · intro h
    rw [hpow]
    by_cases hu : u = 0
    · rw [hu, zero_mul]
    · rw [(ZMod.euler_criterion _ hu).1 h, mul_one]

/-- The carry of `p + 1` is lost, but no prime is all ones. -/
theorem prime_add_one (h4 : m % 4 = 3) :
    (sbFeAdd p.p (SB_FE_ONE W)).1.value = m + 1 := by
  have hadd := sbFeAdd_value p.p (SB_FE_ONE W)
  have hcarry := sbFeAdd_carry p.p (SB_FE_ONE W)
  have hlt := p.p.value_lt
  rw [SB_FE_ONE_value, hp.value] at hadd hcarry
  rw [hp.value] at hlt
  have hne : ¬ 2 ^ 256 ≤ m + 1 := by
    intro hge
    have hall : m = 2 ^ 256 - 1 := by omega
    have hdvd : 3 ∣ m := by
      rw [hall]
      decide
    have hthree := (Nat.prime_dvd_prime_iff_eq Nat.prime_three hp.prime).1 hdvd
    omega
  rw [hcarry, flag_of_not hne, toNat_zero_word] at hadd
  omega

theorem sbFeModSqrtR_spec (h4 : m % 4 = 3) {x : SbFe W} {u : ZMod m}
    (hx : x.Holds u) :
    (sbFeModSqrtR x p).1.Holds (u ^ ((m + 1) / 4)) ∧
      ((sbFeModSqrtR x p).2 = true ↔ IsSquare u) := by
  have htwo : (2 : SbWord W).toNat = 2 := by
    cases W <;> rfl
  have hroot := hx.modExptR hp (sbFeAdd p.p (SB_FE_ONE W)).1 2 (by rw [htwo]; omega)
  rw [prime_add_one hp h4, htwo, show 2 ^ 2 = 4 from rfl] at hroot
  have hsquare := hroot.montSquare hp
  rw [sbFeModSqrtR, if_neg (not_not.2 ((low_bits_three hp.value).2 h4))]
  refine ⟨hroot, ?_⟩
  simp only [hsquare.sbFeEqual_eq hp hx, decide_eq_true_eq]
  rw [flag_ne_zero_iff, sq_pow_quarter hp h4]

/-- For any number but zero: whether it is a square modulo the prime, and
then a root. -/
theorem sbFeModSqrt_spec (h4 : m % 4 = 3) {x : SbFe W} (hx : 0 < x.value) :
    ∃ s : ZMod m, (sbFeModSqrt x p).1.Stands s ∧
      ((sbFeModSqrt x p).2 = true ↔ IsSquare (x.value : ZMod m)) ∧
      ((sbFeModSqrt x p).2 = true → s ^ 2 = x.value) := by
  obtain ⟨hroot, hrv⟩ := sbFeModSqrtR_spec hp h4 (Holds.montConvert hp hx)
  refine ⟨_, hroot.montReduce hp, hrv, fun h => ?_⟩
  exact (sq_pow_quarter hp h4 _).2 (hrv.1 h)

end

/-- Modulo any other prime there is never a root. -/
theorem sbFeModSqrt_other (hm : p.p.value = m) (h4 : m % 4 ≠ 3) (x : SbFe W) :
    (sbFeModSqrt x p).2 = false := by
  rw [sbFeModSqrt, sbFeModSqrtR, if_pos fun h => h4 ((low_bits_three hm).1 h)]

end DataProcessor
