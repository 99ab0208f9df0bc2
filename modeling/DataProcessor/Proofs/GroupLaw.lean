import DataProcessor.Proofs.EcdsaPoints

/-!
# How far the point arithmetic is the group's

A triple stands for an affine point or is `(0, 0, 1)`, which stands for the
neutral element. `fastMultiply` of a point of order `N` gives the triple of
the multiple for every integer, `fastMultiply_affine`.

`fastAdd` and `fastDouble` are looser. Neither of them recognises
`(0, 0, 1)`: it has the coordinates of an affine point, the origin, and they
add it as one. The sum is then the third point of a chord through the
origin, which is never the other summand. A point of order two is doubled to
a triple with last coordinate zero. `fastAdd_iff` and `fastDouble_iff` say
that nothing else goes wrong.
-/

namespace DataProcessor

open Lib

namespace Curve

/-- The facts about the constants that the arithmetic rests on. -/
structure Sound (curve : Curve) : Prop where
  three_lt : 3 < curve.P
  prime_P : curve.P.Prime
  not_singular :
    (shortCurve (curve.A : curve.Coordinate) (curve.B : curve.Coordinate)).Δ ≠ 0
  prime_N : curve.N.Prime
  order : addOrderOf curve.G = curve.N

theorem sound (curve : Curve) : curve.Sound :=
  ⟨curve.three_lt_P, curve.prime_P, curve.not_singular, curve.prime_N, curve.addOrderOf_G⟩

/-- The origin is on none of the curves. -/
theorem B_ne_zero (curve : Curve) : (curve.B : curve.Coordinate) ≠ 0 := by
  rw [ne_eq, ZMod.natCast_eq_zero_iff]
  cases curve <;> decide

/-- The coordinates of an affine point, as the source passes them. -/
theorem represents_affine {curve : Curve} {x y : curve.Coordinate}
    (h : (shortCurve (curve.A : curve.Coordinate) (curve.B : curve.Coordinate)).Nonsingular x y) :
    (curve.castTriple ⟨x.val, y.val, 1⟩).Represents (.some x y h : curve.Point) := by
  simpa [castTriple, Triple.map] using Triple.represents_some h

/-- `T` is a triple of `S`, or `(0, 0, 1)` for the neutral element. -/
def Stands (curve : Curve) (T : Triple Int) (S : curve.Point) : Prop :=
  (curve.castTriple T).Represents S ∨ S = 0 ∧ T = ⟨0, 0, 1⟩

end Curve

namespace Ecdsa

variable {curve : Curve}

/-- `fastMultiply` on the coordinates of a point of order `N`. -/
theorem fastMultiply_affine (curve : Curve) {x y : curve.Coordinate}
    {h : (shortCurve (curve.A : curve.Coordinate) (curve.B : curve.Coordinate)).Nonsingular x y}
    (hA : addOrderOf (.some x y h : curve.Point) = curve.N) (n : Int) :
    curve.Sound ∧
    let T := fastMultiply curve x.val y.val 1 n
    if (curve.N : Int) ∣ n then
      n • (.some x y h : curve.Point) = 0 ∧ T = ⟨0, 0, 1⟩
    else
      (T.Z : curve.Coordinate) ≠ 0 ∧
        ∃ h', n • (.some x y h : curve.Point)
          = .some (T.X / (T.Z : curve.Coordinate) ^ 2) (T.Y / (T.Z : curve.Coordinate) ^ 3) h' := by
  refine ⟨curve.sound, ?_⟩
  have hT := Curve.represents_affine h
  split
  · next hdvd =>
      refine ⟨?_, fastMultiply_of_dvd (Y_ne_zero hT hA) hdvd⟩
      rw [← addOrderOf_dvd_iff_zsmul_eq_zero, hA]
      exact hdvd
  · next hdvd => exact represents_fastMultiply hT hA hdvd

theorem fastMultiply_affine_G :
    addOrderOf (Curve.G .SECP_256_R1) = Curve.N .SECP_256_R1 ∧
    let T := fastMultiply .SECP_256_R1
      (Curve.Gx .SECP_256_R1 : Curve.Coordinate .SECP_256_R1).val
      (Curve.Gy .SECP_256_R1 : Curve.Coordinate .SECP_256_R1).val 1 (-3)
    ∃ h, (-3 : Int) • Curve.G .SECP_256_R1
      = .some (T.X / (T.Z : Curve.Coordinate .SECP_256_R1) ^ 2)
          (T.Y / (T.Z : Curve.Coordinate .SECP_256_R1) ^ 3) h := by
  have horder := Curve.addOrderOf_G .SECP_256_R1
  have hmul := (fastMultiply_affine .SECP_256_R1 horder (-3)).2
  rw [if_neg (by decide)] at hmul
  exact ⟨horder, hmul.2⟩

/-! ## Sums -/

section

variable {T U : Triple Int} {S Q : curve.Point}

theorem not_stands_of_Z (hZ : T.Z = 0) : ¬ curve.Stands T S := by
  intro h
  rcases h with h | ⟨-, rfl⟩
  · refine h.1 ?_
    simp [Curve.castTriple, Triple.map, hZ]
  · simp at hZ

/-- `(0, 0, 1)` stands for the neutral element only. -/
theorem stands_origin_iff : curve.Stands ⟨0, 0, 1⟩ S ↔ S = 0 := by
  constructor
  · intro h
    rcases h with h | ⟨h, -⟩
    · obtain ⟨-, hon, rfl⟩ := h
      have heq := (shortCurve.equation_iff _ _).1 hon.1
      simp [Curve.castTriple, Triple.map] at heq
      exact absurd heq.symm curve.B_ne_zero
    · exact h
  · intro h
    exact .inr ⟨h, rfl⟩

theorem represents_of_stands (h : curve.Stands T S) (hS : S ≠ 0) :
    (curve.castTriple T).Represents S :=
  h.resolve_right fun hzero => hS hzero.1

theorem eq_origin_of_stands (h : curve.Stands T 0) : T = ⟨0, 0, 1⟩ := by
  rcases h with h | ⟨-, h⟩
  · exact absurd rfl h.ne_zero
  · exact h

theorem fastDouble_Z_origin : (fastDouble curve 0 0 1).Z = 0 := by
  simp [fastDouble]

theorem castTriple_origin : curve.castTriple ⟨0, 0, 1⟩ = ⟨0, 0, 1⟩ := by
  simp [Curve.castTriple, Triple.map]

/-- Two triples with one first coordinate are doubled or give `(0, 0, 1)`. -/
theorem fastAdd_of_eq (hX : U.Z ^ 2 * T.X % curve.P = T.Z ^ 2 * U.X % curve.P) :
    fastAdd curve T.X T.Y T.Z U.X U.Y U.Z = fastDouble curve T.X T.Y T.Z ∨
      fastAdd curve T.X T.Y T.Z U.X U.Y U.Z = ⟨0, 0, 1⟩ := by
  rw [fastAdd, if_pos hX]
  split
  · exact .inl rfl
  · exact .inr rfl

/-- Added to a point on its left, the neutral element is the origin. -/
theorem not_stands_origin_fastAdd (hU : (curve.castTriple U).Represents Q) :
    ¬ curve.Stands (fastAdd curve 0 0 1 U.X U.Y U.Z) Q := by
  intro hsum
  by_cases hX : U.Z ^ 2 * (0 : Int) % curve.P = (1 : Int) ^ 2 * U.X % curve.P
  · rcases @fastAdd_of_eq curve ⟨0, 0, 1⟩ U hX with h | h
    · rw [h] at hsum
      exact not_stands_of_Z fastDouble_Z_origin hsum
    · rw [h, stands_origin_iff] at hsum
      exact hU.ne_zero hsum
  · have hadd := @castTriple_fastAdd curve ⟨0, 0, 1⟩ U hX
    have hrep := represents_of_stands hsum hU.ne_zero
    rw [hadd, castTriple_origin] at hrep
    exact hU.not_origin_add curve.two_ne_zero hrep

theorem represents_unique (hS : (curve.castTriple T).Represents S)
    (hQ : (curve.castTriple T).Represents Q) : S = Q :=
  (hS.eq_iff hQ).2 ⟨rfl, rfl⟩

/-- The tangent in a point of order two has no slope. -/
theorem fastDouble_Z_of_order_two (hT : (curve.castTriple T).Represents S)
    (hsum : S + S = 0) : (fastDouble curve T.X T.Y T.Z).Z = 0 := by
  have hY : (T.Y : curve.Coordinate) = 0 := by
    have hneg := ((hT.eq_iff hT.neg).1 (add_eq_zero_iff_eq_neg.1 hsum)).2
    have h0 : (2 : curve.Coordinate) * ((curve.castTriple T).Z ^ 3 * T.Y) = 0 := by
      simp only [Curve.castTriple, Triple.map, Int.coe_castRingHom] at hneg ⊢
      linear_combination hneg
    simpa [curve.two_ne_zero, hT.1] using h0
  have hdvd : (curve.P : Int) ∣ T.Y := (ZMod.intCast_zmod_eq_zero_iff_dvd _ _).1 hY
  show T.Y * T.Z * 2 % curve.P = 0
  exact Int.emod_eq_zero_of_dvd (Dvd.dvd.mul_right (Dvd.dvd.mul_right hdvd _) _)

/-- And to a point on its right. -/
theorem not_stands_fastAdd_origin (hT : (curve.castTriple T).Represents S) :
    ¬ curve.Stands (fastAdd curve T.X T.Y T.Z 0 0 1) S := by
  intro hsum
  by_cases hX : (1 : Int) ^ 2 * T.X % curve.P = T.Z ^ 2 * 0 % curve.P
  · rcases @fastAdd_of_eq curve T ⟨0, 0, 1⟩ hX with h | h
    · rw [h] at hsum
      by_cases htwo : S + S = 0
      · exact not_stands_of_Z (fastDouble_Z_of_order_two hT htwo) hsum
      · -- A point that is its own double is the neutral element.
        have heq := represents_unique (represents_fastDouble hT htwo)
          (represents_of_stands hsum hT.ne_zero)
        exact hT.ne_zero (by simpa using heq)
    · rw [h, stands_origin_iff] at hsum
      exact hT.ne_zero hsum
  · have hadd := @castTriple_fastAdd curve T ⟨0, 0, 1⟩ hX
    have hrep := represents_of_stands hsum hT.ne_zero
    rw [hadd, castTriple_origin] at hrep
    exact hT.not_origin_add curve.two_ne_zero hrep.add_swap

theorem fastDouble_iff (hT : curve.Stands T S) :
    curve.Stands (fastDouble curve T.X T.Y T.Z) (S + S) ↔ S ≠ 0 ∧ S + S ≠ 0 := by
  constructor
  · intro hsum
    have hS : S ≠ 0 := by
      rintro rfl
      obtain rfl := eq_origin_of_stands hT
      exact not_stands_of_Z fastDouble_Z_origin hsum
    exact ⟨hS, fun htwo =>
      not_stands_of_Z (fastDouble_Z_of_order_two (represents_of_stands hT hS) htwo) hsum⟩
  · intro hgiven
    obtain ⟨hS, htwo⟩ := hgiven
    exact .inl (represents_fastDouble (represents_of_stands hT hS) htwo)

theorem fastAdd_iff (hT : curve.Stands T S) (hU : curve.Stands U Q) :
    curve.Stands (fastAdd curve T.X T.Y T.Z U.X U.Y U.Z) (S + Q) ↔
      S ≠ 0 ∧ Q ≠ 0 ∧ ¬ (S = Q ∧ S + S = 0) := by
  by_cases hS : S = 0
  · subst hS
    obtain rfl := eq_origin_of_stands hT
    rw [zero_add]
    refine iff_of_false (fun hsum => ?_) fun h => h.1 rfl
    by_cases hQ : Q = 0
    · subst hQ
      obtain rfl := eq_origin_of_stands hU
      rw [fastAdd, if_pos rfl, if_pos rfl] at hsum
      exact not_stands_of_Z fastDouble_Z_origin hsum
    · exact not_stands_origin_fastAdd (represents_of_stands hU hQ) hsum
  · have hT' := represents_of_stands hT hS
    by_cases hQ : Q = 0
    · subst hQ
      obtain rfl := eq_origin_of_stands hU
      rw [add_zero]
      exact iff_of_false (not_stands_fastAdd_origin hT') fun h => h.2.1 rfl
    · have hU' := represents_of_stands hU hQ
      simp only [ne_eq, hS, hQ, not_false_eq_true, true_and]
      by_cases hsum : S + Q = 0
      · by_cases heq : S = Q
        · subst heq
          have hX := (compare_X hT' hU').2 (.inl rfl)
          rw [fastAdd, if_pos hX, if_pos ((compare_Y hT' hU' hX).2 rfl)]
          exact iff_of_false
            (not_stands_of_Z (fastDouble_Z_of_order_two hT' hsum)) fun h => h ⟨rfl, hsum⟩
        · rw [fastAdd_opposite hT' hU' hsum heq, hsum]
          exact iff_of_true (stands_origin_iff.2 rfl) fun h => heq h.1
      · refine iff_of_true (.inl (represents_fastAdd hT' hU' hsum)) fun h => hsum ?_
        rw [← h.1]
        exact h.2

/-- `fastAdd` gives the sum exactly where neither summand is the neutral
element and they are not one point of order two, and `fastDouble` the double
exactly where the point is neither. -/
theorem group_law_iff (hT : curve.Stands T S) (hU : curve.Stands U Q) :
    (curve.Stands (fastAdd curve T.X T.Y T.Z U.X U.Y U.Z) (S + Q) ↔
      S ≠ 0 ∧ Q ≠ 0 ∧ ¬ (S = Q ∧ S + S = 0)) ∧
    (curve.Stands (fastDouble curve T.X T.Y T.Z) (S + S) ↔ S ≠ 0 ∧ S + S ≠ 0) :=
  ⟨fastAdd_iff hT hU, fastDouble_iff hT⟩

end

theorem stands_G (curve : Curve) : curve.Stands ⟨curve.Gx, curve.Gy, 1⟩ curve.G :=
  .inl curve.represents_G

theorem group_law_G :
    Curve.Stands .SECP_256_K1
        (fastAdd .SECP_256_K1 (Curve.Gx .SECP_256_K1) (Curve.Gy .SECP_256_K1) 1
          (Curve.Gx .SECP_256_K1) (Curve.Gy .SECP_256_K1) 1)
        (Curve.G .SECP_256_K1 + Curve.G .SECP_256_K1) ∧
      Curve.Stands .SECP_256_K1
        (fastDouble .SECP_256_K1 (Curve.Gx .SECP_256_K1) (Curve.Gy .SECP_256_K1) 1)
        (Curve.G .SECP_256_K1 + Curve.G .SECP_256_K1) := by
  have hG := (Curve.represents_G .SECP_256_K1).ne_zero
  have htwo := Curve.add_self_ne_zero (Curve.N_nsmul_G .SECP_256_K1) hG
  have hlaw := group_law_iff (stands_G .SECP_256_K1) (stands_G .SECP_256_K1)
  exact ⟨hlaw.1.2 ⟨hG, hG, fun h => htwo h.2⟩, hlaw.2.2 ⟨hG, htwo⟩⟩

/-- The neutral element and the base point do not add up to the base point,
in either order, and the neutral element is not its own double. -/
theorem group_law_origin :
    Curve.Stands .SECP_256_K1 ⟨0, 0, 1⟩ 0 ∧
    Curve.Stands .SECP_256_K1 ⟨Curve.Gx .SECP_256_K1, Curve.Gy .SECP_256_K1, 1⟩
      (Curve.G .SECP_256_K1) ∧
    ¬ Curve.Stands .SECP_256_K1
        (fastAdd .SECP_256_K1 0 0 1 (Curve.Gx .SECP_256_K1) (Curve.Gy .SECP_256_K1) 1)
        (0 + Curve.G .SECP_256_K1) ∧
    ¬ Curve.Stands .SECP_256_K1
        (fastAdd .SECP_256_K1 (Curve.Gx .SECP_256_K1) (Curve.Gy .SECP_256_K1) 1 0 0 1)
        (Curve.G .SECP_256_K1 + 0) ∧
    fastDouble .SECP_256_K1 0 0 1 = ⟨0, 0, 0⟩ ∧
    ¬ Curve.Stands .SECP_256_K1 (fastDouble .SECP_256_K1 0 0 1) (0 + 0) := by
  have hzero : Curve.Stands .SECP_256_K1 ⟨0, 0, 1⟩ 0 := stands_origin_iff.2 rfl
  have hG := stands_G .SECP_256_K1
  exact ⟨hzero, hG, fun h => ((fastAdd_iff hzero hG).1 h).1 rfl,
    fun h => ((fastAdd_iff hG hzero).1 h).2.1 rfl, by decide,
    fun h => ((fastDouble_iff hzero).1 h).1 rfl⟩

end Ecdsa

end DataProcessor
