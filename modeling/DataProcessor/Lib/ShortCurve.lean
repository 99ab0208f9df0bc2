import Mathlib

/-!
# Short Weierstrass curves

The curve `y ^ 2 = x ^ 3 + A * x + B` over a field, as Mathlib's affine
curve with three coefficients zero. The group law is Mathlib's; here are the
chord and the tangent with the slope given by an equation, so that no
division shows, and what the first coordinate says: it tells points apart up
to sign, which also bounds their number. `generates` is the use of that
bound: a point of large prime order generates the group unless the curve has
points of order two.
-/

namespace DataProcessor.Lib

/-- The curve `y ^ 2 = x ^ 3 + A * x + B`. -/
def shortCurve {R : Type} [CommRing R] (A B : R) : WeierstrassCurve.Affine R where
  a₁ := 0
  a₂ := 0
  a₃ := 0
  a₄ := A
  a₆ := B

namespace shortCurve

variable {F : Type} [Field F] {A B : F}

theorem negY_eq (x y : F) : (shortCurve A B).negY x y = -y := by
  simp [WeierstrassCurve.Affine.negY, shortCurve]

theorem addX_eq (x x' l : F) : (shortCurve A B).addX x x' l = l ^ 2 - x - x' := by
  rw [WeierstrassCurve.Affine.addX]
  simp only [shortCurve]
  ring

theorem addY_eq (x x' y l : F) :
    (shortCurve A B).addY x x' y l = l * (x - (l ^ 2 - x - x')) - y := by
  rw [WeierstrassCurve.Affine.addY, negY_eq, WeierstrassCurve.Affine.negAddY, addX_eq]
  ring

theorem equation_iff (x y : F) :
    (shortCurve A B).Equation x y ↔ y ^ 2 = x ^ 3 + A * x + B := by
  rw [WeierstrassCurve.Affine.equation_iff]
  simp [shortCurve]

/-- A point named by its coordinates is the same point under other names for
them. -/
theorem some_eq {P : (shortCurve A B).Point} {x y x' y' : F}
    {h : (shortCurve A B).Nonsingular x y} (hP : P = .some x y h) (hx : x = x')
    (hy : y = y') : ∃ h', P = .some x' y' h' := by
  subst hx hy
  exact ⟨h, hP⟩

theorem neg_some {x y : F} (h : (shortCurve A B).Nonsingular x y) :
    ∃ h', -(.some x y h : (shortCurve A B).Point) = .some x (-y) h' :=
  some_eq (WeierstrassCurve.Affine.Point.neg_some h) rfl (negY_eq x y)

/-! ## The first coordinate -/

def xCoordinate : (shortCurve A B).Point → Option F
  | .zero => none
  | .some x _ _ => some x

/-- It tells points apart up to sign. -/
theorem xCoordinate_eq_iff {P Q : (shortCurve A B).Point} :
    xCoordinate P = xCoordinate Q ↔ P = Q ∨ P = -Q := by
  cases P with
  | zero =>
      cases Q with
      | zero => simp [xCoordinate]
      | some x y h =>
          obtain ⟨h', hneg⟩ := neg_some h
          rw [hneg]
          simp [xCoordinate]
  | some x y h =>
      cases Q with
      | zero => simp [xCoordinate, ← WeierstrassCurve.Affine.Point.zero_def]
      | some x' y' h' =>
          rw [← WeierstrassCurve.Affine.Point.X_eq_iff]
          simp [xCoordinate]

instance [Finite F] : Finite (shortCurve A B).Point := by
  refine .of_injective (fun P : (shortCurve A B).Point => match P with
    | .zero => none
    | .some x y _ => some (x, y)) fun P Q h => ?_
  cases P <;> cases Q <;> simp_all

/-- Two points to a first coordinate at most. -/
theorem card_le [Fintype F] :
    Nat.card (shortCurve A B).Point ≤ 2 * (Fintype.card F + 1) := by
  classical
  have hfintype := Fintype.ofFinite (shortCurve A B).Point
  rw [Nat.card_eq_fintype_card, ← Fintype.card_option, ← Finset.card_univ, ← Finset.card_univ]
  refine Finset.card_le_mul_card_image_of_maps_to (f := xCoordinate)
    (fun _ _ => Finset.mem_univ _) 2 fun x _ => ?_
  rcases Finset.eq_empty_or_nonempty
    {P : (shortCurve A B).Point | xCoordinate P = x} with hempty | ⟨Q, hQ⟩
  · rw [hempty]
    simp
  · refine le_trans (Finset.card_le_card (t := {Q, -Q}) fun P hP => ?_) Finset.card_le_two
    rw [Finset.mem_filter] at hP hQ
    rw [Finset.mem_insert, Finset.mem_singleton, ← xCoordinate_eq_iff, hP.2, hQ.2]

variable [DecidableEq F]

/-! ## Chord and tangent -/

theorem tangent {x y l : F} (h : (shortCurve A B).Nonsingular x y) (hy : 2 * y ≠ 0)
    (hl : l * (2 * y) = 3 * x ^ 2 + A) :
    ∃ h', (.some x y h : (shortCurve A B).Point) + .some x y h =
      .some (l ^ 2 - 2 * x) (l * (x - (l ^ 2 - 2 * x)) - y) h' := by
  have hne : y ≠ (shortCurve A B).negY x y := by
    rw [negY_eq]
    intro heq
    exact hy (by linear_combination heq)
  have hslope : (shortCurve A B).slope x x y y = l := by
    rw [WeierstrassCurve.Affine.slope_of_Y_ne rfl hne, negY_eq]
    have hy' : y - -y ≠ 0 := by
      intro h0
      exact hy (by linear_combination h0)
    rw [div_eq_iff hy']
    simp only [shortCurve]
    linear_combination -hl
  refine some_eq (WeierstrassCurve.Affine.Point.add_self_of_Y_ne hne) ?_ ?_
  · rw [hslope, addX_eq]
    ring
  · rw [hslope, addY_eq]
    ring

theorem chord {x y x' y' l : F} (h : (shortCurve A B).Nonsingular x y)
    (h' : (shortCurve A B).Nonsingular x' y') (hx : x ≠ x')
    (hl : l * (x' - x) = y' - y) :
    ∃ h'', (.some x y h : (shortCurve A B).Point) + .some x' y' h' =
      .some (l ^ 2 - x - x') (l * (x - (l ^ 2 - x - x')) - y) h'' := by
  have hslope : (shortCurve A B).slope x x' y y' = l := by
    rw [WeierstrassCurve.Affine.slope_of_X_ne hx, div_eq_iff (sub_ne_zero.2 hx)]
    linear_combination hl
  refine some_eq (WeierstrassCurve.Affine.Point.add_of_X_ne hx) ?_ ?_
  · rw [hslope, addX_eq]
  · rw [hslope, addY_eq]

/-! ## Generators -/

/-- A point of order two has second coordinate zero. -/
theorem root_of_addOrderOf_two (htwo : (2 : F) ≠ 0) {P : (shortCurve A B).Point}
    (hP : addOrderOf P = 2) : ∃ x : F, x ^ 3 + A * x + B = 0 := by
  have hne : P ≠ 0 := by
    rintro rfl
    simp at hP
  have hsum : P + P = 0 := by
    rw [← two_nsmul, ← hP]
    exact addOrderOf_nsmul_eq_zero P
  cases P with
  | zero => exact absurd rfl hne
  | some x y h =>
      obtain ⟨h', hneg⟩ := neg_some h
      rw [add_eq_zero_iff_eq_neg, hneg, WeierstrassCurve.Affine.Point.some.injEq] at hsum
      have hy : y = 0 := by
        have h2 : 2 * y = 0 := by linear_combination hsum.2
        exact (mul_eq_zero.1 h2).resolve_left htwo
      have heq := (equation_iff x y).1 h.1
      rw [hy] at heq
      exact ⟨x, by linear_combination -heq⟩

/-- A point of prime order `n` generates the group when there are fewer than
`3 * n` points and none of order two. -/
theorem generates [Fintype F] (htwo : (2 : F) ≠ 0) {n : Nat} {P : (shortCurve A B).Point}
    (hP : addOrderOf P = n) (hcard : 2 * (Fintype.card F + 1) < 3 * n)
    (hroot : ∀ x : F, x ^ 3 + A * x + B ≠ 0) (Q : (shortCurve A B).Point) :
    Q ∈ AddSubgroup.zmultiples P := by
  have hdvd : n ∣ Nat.card (shortCurve A B).Point := hP ▸ addOrderOf_dvd_natCard P
  have hle := card_le (A := A) (B := B)
  have hpos : 0 < Nat.card (shortCurve A B).Point := Nat.card_pos
  obtain ⟨m, hm⟩ := hdvd
  have hm1 : m = 1 := by
    have hm0 : m ≠ 0 := by
      rintro rfl
      omega
    have hm2 : m ≠ 2 := by
      rintro rfl
      obtain ⟨R, hR⟩ := exists_prime_addOrderOf_dvd_card' (G := (shortCurve A B).Point) 2
        ⟨n, by omega⟩
      obtain ⟨x, hx⟩ := root_of_addOrderOf_two htwo hR
      exact hroot x hx
    have hm3 : m < 3 := by
      by_contra hge
      have := Nat.mul_le_mul_left n (Nat.le_of_not_lt hge)
      omega
    omega
  have htop : AddSubgroup.zmultiples P = ⊤ := by
    rw [← AddSubgroup.card_eq_iff_eq_top, Nat.card_zmultiples, hP, hm, hm1, mul_one]
  rw [htop]
  exact AddSubgroup.mem_top Q

end shortCurve

end DataProcessor.Lib
