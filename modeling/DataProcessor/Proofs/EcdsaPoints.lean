import DataProcessor.Model.Ecdsa
import DataProcessor.Proofs.CurveGroups

/-!
# The point arithmetic of `Ecdsa.kt`

`fastDouble` and `fastAdd` are the library's formulas modulo `P`, with the
two exceptional cases of addition taken out, and `inv` is the inverse modulo
a prime. What a triple stands for decides which case of `fastAdd` runs: equal
points are doubled, opposite ones give `(0, 0, 1)`, and everything else is
the formula.

`fastMultiply` of a point whose order is `N` never meets an exceptional case
on the way. It doubles and adds along the bits of a scalar below `N`, so
that every multiple it passes is below `N`, and the point it adds to an even
multiple is neither that multiple nor its negative.
-/

namespace DataProcessor

open Lib

namespace Ecdsa

variable {curve : Curve}

theorem castTriple_fastDouble (T : Triple Int) :
    curve.castTriple (fastDouble curve T.X T.Y T.Z)
      = (curve.castTriple T).double (curve.A : curve.Coordinate) := by
  simp only [Curve.castTriple, Triple.map, fastDouble, Triple.double, Int.coe_castRingHom]
  push_cast [ZMod.intCast_mod]
  congr 1 <;> ring

/-! ## Addition -/

section

variable {T U : Triple Int} {S Q : curve.Point}

theorem castTriple_fastAdd
    (hX : U.Z ^ 2 * T.X % curve.P ≠ T.Z ^ 2 * U.X % curve.P) :
    curve.castTriple (fastAdd curve T.X T.Y T.Z U.X U.Y U.Z)
      = (curve.castTriple T).add (curve.castTriple U) := by
  rw [fastAdd, if_neg hX]
  simp only [Curve.castTriple, Triple.map, Triple.add, Int.coe_castRingHom]
  push_cast [ZMod.intCast_mod]
  congr 1 <;> ring

/-- The two comparisons of `fastAdd`, on triples that stand for points. -/
theorem compare_X (hT : (curve.castTriple T).Represents S)
    (hU : (curve.castTriple U).Represents Q) :
    U.Z ^ 2 * T.X % curve.P = T.Z ^ 2 * U.X % curve.P ↔ S = Q ∨ S = -Q := by
  rw [← hT.X_eq_iff hU, ← ZMod.intCast_eq_intCast_iff']
  push_cast
  rfl

theorem compare_Y (hT : (curve.castTriple T).Represents S)
    (hU : (curve.castTriple U).Represents Q)
    (hX : U.Z ^ 2 * T.X % curve.P = T.Z ^ 2 * U.X % curve.P) :
    U.Z ^ 3 * T.Y % curve.P = T.Z ^ 3 * U.Y % curve.P ↔ S = Q := by
  rw [← ZMod.intCast_eq_intCast_iff'] at hX ⊢
  push_cast at hX ⊢
  rw [hT.eq_iff hU]
  exact ⟨fun hY => ⟨hX, hY⟩, fun h => h.2⟩

theorem represents_fastDouble (hT : (curve.castTriple T).Represents S) (hS : S + S ≠ 0) :
    (curve.castTriple (fastDouble curve T.X T.Y T.Z)).Represents (S + S) := by
  rw [castTriple_fastDouble]
  exact hT.double (hT.double_Z_ne_zero curve.two_ne_zero hS)

theorem represents_fastAdd (hT : (curve.castTriple T).Represents S)
    (hU : (curve.castTriple U).Represents Q) (hsum : S + Q ≠ 0) :
    (curve.castTriple (fastAdd curve T.X T.Y T.Z U.X U.Y U.Z)).Represents (S + Q) := by
  have hneg : S ≠ -Q := fun h => hsum (add_eq_zero_iff_eq_neg.2 h)
  by_cases hX : U.Z ^ 2 * T.X % curve.P = T.Z ^ 2 * U.X % curve.P
  · have heq : S = Q := ((compare_X hT hU).1 hX).resolve_right hneg
    rw [fastAdd, if_pos hX, if_pos ((compare_Y hT hU hX).2 heq), ← heq]
    rw [← heq] at hsum
    exact represents_fastDouble hT hsum
  · have hne : S ≠ Q := fun h => hX ((compare_X hT hU).2 (.inl h))
    rw [castTriple_fastAdd hX]
    exact hT.add hU (hT.add_Z_ne_zero hU hne hneg)

theorem fastAdd_opposite (hT : (curve.castTriple T).Represents S)
    (hU : (curve.castTriple U).Represents Q) (hsum : S + Q = 0) (hne : S ≠ Q) :
    fastAdd curve T.X T.Y T.Z U.X U.Y U.Z = ⟨0, 0, 1⟩ := by
  have hX := (compare_X hT hU).2 (.inr (add_eq_zero_iff_eq_neg.1 hsum))
  rw [fastAdd, if_pos hX, if_neg (mt (compare_Y hT hU hX).1 hne)]

end

/-! ## Scalar multiples -/

section

variable {T : Triple Int} {Q : curve.Point}

theorem nsmul_eq_zero_iff (hQ : addOrderOf Q = curve.N) {n : Nat} :
    n • Q = 0 ↔ curve.N ∣ n := by
  rw [← hQ]
  exact addOrderOf_dvd_iff_nsmul_eq_zero.symm

/-- A multiple below the order is not zero. -/
theorem nsmul_ne_zero (hQ : addOrderOf Q = curve.N) {n : Nat} (hpos : 1 ≤ n)
    (hlt : n < curve.N) : n • Q ≠ 0 := by
  rw [ne_eq, nsmul_eq_zero_iff hQ]
  exact Nat.not_dvd_of_pos_of_lt hpos hlt

/-- No point of order `N` has second coordinate zero. -/
theorem Y_ne_zero (hT : (curve.castTriple T).Represents Q) (hQ : addOrderOf Q = curve.N) :
    T.Y ≠ 0 := by
  intro hY
  have hdouble := Curve.add_self_ne_zero (Curve.N_nsmul_of_addOrderOf hQ) hT.ne_zero
  refine hT.double_Z_ne_zero curve.two_ne_zero hdouble ?_
  simp [Curve.castTriple, Triple.map, Triple.double, hY]

/-- The induction is on the scalar, which the recursion halves. -/
theorem represents_fastMultiply_of_lt (hT : (curve.castTriple T).Represents Q)
    (hQ : addOrderOf Q = curve.N) {n : Nat} (hpos : 1 ≤ n) (hlt : n < curve.N) :
    (curve.castTriple (fastMultiply curve T.X T.Y T.Z n)).Represents (n • Q) := by
  induction n using Nat.strongRecOn with
  | _ n ih =>
      have hY := Y_ne_zero hT hQ
      rw [fastMultiply, if_neg (by omega)]
      by_cases hone : n = 1
      · rw [if_pos (by omega), hone, one_nsmul]
        exact hT
      · rw [if_neg (by omega), if_neg (by omega)]
        have hhalf : (n : Int) >>> (1 : Nat) = ((n / 2 : Nat) : Int) := by
          rw [Int.shiftRight_eq_div_pow]
          omega
        have hdouble := represents_fastDouble (ih (n / 2) (by omega) (by omega) (by omega))
          (by
            rw [← two_nsmul, smul_smul]
            exact nsmul_ne_zero hQ (by omega) (by omega))
        rw [← two_nsmul, smul_smul] at hdouble
        simp only [hhalf]
        by_cases heven : n % 2 = 0
        · rw [if_pos (by omega)]
          rw [show 2 * (n / 2) = n by omega] at hdouble
          exact hdouble
        · rw [if_neg (by omega)]
          have hsucc : (2 * (n / 2)) • Q + Q = n • Q := by
            rw [← succ_nsmul, show 2 * (n / 2) + 1 = n by omega]
          rw [← hsucc]
          refine represents_fastAdd hdouble hT ?_
          rw [hsucc]
          exact nsmul_ne_zero hQ hpos hlt

/-- Outside `[0, N)` the scalar is reduced, once. -/
theorem fastMultiply_emod (hY : T.Y ≠ 0) (n : Int) :
    fastMultiply curve T.X T.Y T.Z n = fastMultiply curve T.X T.Y T.Z (n % curve.N) := by
  have hN := curve.two_lt_N
  by_cases hin : n < 0 ∨ n ≥ curve.N
  · rw [fastMultiply, if_neg (by omega), if_neg (by omega), if_pos hin]
  · rw [Int.emod_eq_of_lt (by omega) (by omega)]

theorem fastMultiply_of_dvd (hY : T.Y ≠ 0) {n : Int} (hn : (curve.N : Int) ∣ n) :
    fastMultiply curve T.X T.Y T.Z n = ⟨0, 0, 1⟩ := by
  rw [fastMultiply_emod hY, Int.emod_eq_zero_of_dvd hn, fastMultiply, if_pos (.inr rfl)]

theorem represents_fastMultiply (hT : (curve.castTriple T).Represents Q)
    (hQ : addOrderOf Q = curve.N) {n : Int} (hn : ¬ (curve.N : Int) ∣ n) :
    (curve.castTriple (fastMultiply curve T.X T.Y T.Z n)).Represents (n • Q) := by
  have hN : (0 : Int) < curve.N := by exact_mod_cast curve.N_pos
  have hlo := Int.emod_nonneg n hN.ne'
  have hhi := Int.emod_lt_of_pos n hN
  have hne : n % curve.N ≠ 0 := mt Int.dvd_of_emod_eq_zero hn
  obtain ⟨m, hm⟩ := Int.eq_ofNat_of_zero_le hlo
  have hmod : n • Q = m • Q := by
    rw [← mod_addOrderOf_zsmul Q n, hQ, hm, natCast_zsmul]
  rw [fastMultiply_emod (Y_ne_zero hT hQ), hm, hmod]
  exact represents_fastMultiply_of_lt hT hQ (by omega) (by omega)

end

/-! ## Inverses -/

/-- What the loop of `inv` keeps: both remainders are multiples of `a`, by
the factor beside them, and they have no common divisor. -/
structure InvState (a b lm hm low high : Int) : Prop where
  low_eq : lm * a ≡ low [ZMOD b]
  high_eq : hm * a ≡ high [ZMOD b]
  low_nonneg : 0 ≤ low
  low_lt : low < high
  one_lt_high : 1 < high
  coprime : Int.gcd low high = 1

theorem InvState.step {a b lm hm low high : Int} (h : InvState a b lm hm low high)
    (hlow : 1 < low) :
    InvState a b (hm - lm * high.tdiv low) lm (high - low * high.tdiv low) low := by
  have hnonneg : 0 ≤ high := by
    have := h.one_lt_high
    omega
  rw [Int.tdiv_eq_ediv_of_nonneg hnonneg]
  have hmod : high - low * (high / low) = high % low := (Int.emod_def high low).symm
  refine ⟨?_, h.low_eq, ?_, ?_, hlow, ?_⟩
  · calc (hm - lm * (high / low)) * a = hm * a - lm * a * (high / low) := by ring
      _ ≡ high - low * (high / low) [ZMOD b] := h.high_eq.sub (h.low_eq.mul_right _)
  · rw [hmod]
    exact Int.emod_nonneg high (by omega)
  · rw [hmod]
    exact Int.emod_lt_of_pos high (by omega)
  · rw [hmod, Int.gcd_emod, Int.gcd_comm]
    exact h.coprime

theorem invLoop_mul {a b lm hm low high : Int} (h : InvState a b lm hm low high) :
    invLoop lm hm low high * a ≡ 1 [ZMOD b] := by
  fun_induction invLoop lm hm low high with
  | case1 lm hm low high hlow r nm ne ih => exact ih (h.step hlow)
  | case2 lm hm low high hlow =>
      -- A last remainder of 0 would leave the one before it a common divisor.
      have hone : low = 1 := by
        have hnonneg := h.low_nonneg
        have hhigh := h.one_lt_high
        have hgcd := h.coprime
        rcases (by omega : low = 0 ∨ low = 1) with h0 | h1
        · rw [h0, Int.gcd_zero_left] at hgcd
          omega
        · exact h1
      rw [← hone]
      exact h.low_eq

theorem ne_zero_of_gcd_eq_one {a : Int} {b : Nat} (hb : 1 < b) (h : Int.gcd a b = 1) :
    a ≠ 0 := by
  intro hzero
  rw [hzero, Int.gcd_zero_left] at h
  omega

theorem inv_mul {a : Int} {b : Nat} (hb : 1 < b) (h : Int.gcd a b = 1) :
    inv a b * a ≡ 1 [ZMOD b] := by
  have hb' : (1 : Int) < b := by exact_mod_cast hb
  have hstart : InvState a b 1 0 (a % b) b :=
    { low_eq := by
        rw [one_mul]
        exact (Int.mod_modEq a b).symm
      high_eq := by
        rw [zero_mul]
        exact (Int.modEq_zero_iff_dvd.2 dvd_rfl).symm
      low_nonneg := Int.emod_nonneg a (by omega)
      low_lt := Int.emod_lt_of_pos a (by omega)
      one_lt_high := hb'
      coprime := by
        rw [Int.gcd_emod]
        exact h }
  rw [inv, if_neg (ne_zero_of_gcd_eq_one hb h)]
  exact ((Int.mod_modEq _ _).mul_right a).trans (invLoop_mul hstart)

theorem inv_cast {p : Nat} [Fact p.Prime] {a : Int} (ha : (a : ZMod p) ≠ 0) :
    (inv a p : ZMod p) = (a : ZMod p)⁻¹ := by
  have hp : p.Prime := Fact.out
  have hgcd : Int.gcd a p = 1 := by
    rw [Int.gcd_comm, ← Int.isCoprime_iff_gcd_eq_one,
      Prime.coprime_iff_not_dvd (Nat.prime_iff_prime_int.1 hp),
      ← ZMod.intCast_zmod_eq_zero_iff_dvd]
    exact ha
  have hmul := (ZMod.intCast_eq_intCast_iff _ _ _).2 (inv_mul hp.one_lt hgcd)
  push_cast at hmul
  exact eq_inv_of_mul_eq_one_left hmul

/-! ## Affine coordinates -/

/-- How `sign` and `verify` divide by a power of the last coordinate. -/
theorem affine_eq {z v : Int} (hz : (z : curve.Coordinate) ≠ 0) (i : Nat) :
    inv z curve.P ^ i * v % curve.P
      = ((v : curve.Coordinate) / (z : curve.Coordinate) ^ i).val := by
  rw [← ZMod.val_intCast]
  push_cast
  rw [inv_cast hz, inv_pow, mul_comm, ← div_eq_mul_inv]

theorem affine_of_represents {T : Triple Int} {Q : curve.Point}
    (hT : (curve.castTriple T).Represents Q) :
    ∃ x y h, Q = .some x y h ∧ inv T.Z curve.P ^ 2 * T.X % curve.P = x.val ∧
      inv T.Z curve.P ^ 3 * T.Y % curve.P = y.val := by
  obtain ⟨hZ, h, rfl⟩ := hT
  exact ⟨_, _, h, rfl, affine_eq hZ 2, affine_eq hZ 3⟩

end Ecdsa

end DataProcessor
