import DataProcessor.Lib.ShortCurve

/-!
# Jacobian coordinates on a short Weierstrass curve

A triple `(X, Y, Z)` with `Z ≠ 0` stands for the affine point
`(X / Z ^ 2, Y / Z ^ 3)`. Doubling and adding triples takes no division;
`Triple.double` and `Triple.add` are the usual formulas, and they say
nothing about the exceptional cases. They need not: the last coordinate of a
result is zero exactly when the formula did not apply, and a zero there
stays. `Triple.ladder` doubles and adds along the bits of a number, and
`represents_ladder` is what follows: where its last coordinate is not zero,
the triple is that multiple of the point.
-/

namespace DataProcessor.Lib

structure Triple (R : Type) where
  X : R
  Y : R
  Z : R
  deriving DecidableEq

namespace Triple

section

variable {R S : Type} [CommRing R] [CommRing S]

def map (f : R → S) (T : Triple R) : Triple S := ⟨f T.X, f T.Y, f T.Z⟩

def double (A : R) (T : Triple R) : Triple R :=
  let s := 4 * T.X * T.Y ^ 2
  let m := 3 * T.X ^ 2 + A * T.Z ^ 4
  let nx := m ^ 2 - 2 * s
  { X := nx
    Y := m * (s - nx) - 8 * T.Y ^ 4
    Z := 2 * T.Y * T.Z }

def add (T U : Triple R) : Triple R :=
  let u1 := U.Z ^ 2 * T.X
  let u2 := T.Z ^ 2 * U.X
  let s1 := U.Z ^ 3 * T.Y
  let s2 := T.Z ^ 3 * U.Y
  let h := u2 - u1
  let r := s2 - s1
  let nx := r ^ 2 - h ^ 3 - 2 * (u1 * h ^ 2)
  { X := nx
    Y := r * (u1 * h ^ 2 - nx) - s1 * h ^ 3
    Z := h * T.Z * U.Z }

theorem map_double (f : R →+* S) (A : R) (T : Triple R) :
    (T.double A).map f = (T.map f).double (f A) := by
  simp [map, double, map_ofNat]

theorem map_add (f : R →+* S) (T U : Triple R) :
    (T.add U).map f = (T.map f).add (U.map f) := by
  simp [map, add, map_ofNat]

/-- `n` times `T` by doubling and adding, `bits` bits of `n`, with `reduce`
after every step. -/
def ladder (reduce : Triple R → Triple R) (A : R) (T : Triple R) : Nat → Nat → Triple R
  | 0, _ => T
  | bits + 1, n =>
      if n ≤ 1 then T
      else
        let half := reduce ((ladder reduce A T bits (n / 2)).double A)
        if n % 2 = 0 then half else reduce (half.add T)

end

/-! ## What a triple stands for -/

variable {F : Type} [Field F] {A B : F}
  {T U : Triple F} {P Q : (shortCurve A B).Point}

def Represents (T : Triple F) (P : (shortCurve A B).Point) : Prop :=
  T.Z ≠ 0 ∧ ∃ h, P = .some (T.X / T.Z ^ 2) (T.Y / T.Z ^ 3) h

theorem represents_some {x y : F} (h : (shortCurve A B).Nonsingular x y) :
    (⟨x, y, 1⟩ : Triple F).Represents (.some x y h) :=
  ⟨one_ne_zero, shortCurve.some_eq rfl (by simp) (by simp)⟩

theorem Represents.ne_zero (hT : T.Represents P) : P ≠ 0 := by
  obtain ⟨hz, h, rfl⟩ := hT
  exact WeierstrassCurve.Affine.Point.some_ne_zero h

/-- Two triples, compared with the divisions cleared. -/
theorem Represents.eq_iff (hT : T.Represents P) (hU : U.Represents Q) :
    P = Q ↔ U.Z ^ 2 * T.X = T.Z ^ 2 * U.X ∧ U.Z ^ 3 * T.Y = T.Z ^ 3 * U.Y := by
  obtain ⟨hTz, h, rfl⟩ := hT
  obtain ⟨hUz, h', rfl⟩ := hU
  rw [WeierstrassCurve.Affine.Point.some.injEq,
    div_eq_div_iff (pow_ne_zero 2 hTz) (pow_ne_zero 2 hUz),
    div_eq_div_iff (pow_ne_zero 3 hTz) (pow_ne_zero 3 hUz),
    mul_comm (U.Z ^ 2), mul_comm (T.Z ^ 2), mul_comm (U.Z ^ 3), mul_comm (T.Z ^ 3)]

theorem Represents.neg (hT : T.Represents P) :
    (⟨T.X, -T.Y, T.Z⟩ : Triple F).Represents (-P) := by
  obtain ⟨hz, h, rfl⟩ := hT
  obtain ⟨h', hneg⟩ := shortCurve.neg_some h
  exact ⟨hz, shortCurve.some_eq hneg rfl (neg_div _ _).symm⟩

/-- The first coordinates agree for a point and its negative, and for no
other pair. -/
theorem Represents.X_eq_iff (hT : T.Represents P) (hU : U.Represents Q) :
    U.Z ^ 2 * T.X = T.Z ^ 2 * U.X ↔ P = Q ∨ P = -Q := by
  obtain ⟨hTz, h, rfl⟩ := hT
  obtain ⟨hUz, h', rfl⟩ := hU
  rw [← WeierstrassCurve.Affine.Point.X_eq_iff,
    div_eq_div_iff (pow_ne_zero 2 hTz) (pow_ne_zero 2 hUz),
    mul_comm (U.Z ^ 2), mul_comm (T.Z ^ 2)]

theorem Represents.add_Z_ne_zero (hT : T.Represents P) (hU : U.Represents Q)
    (heq : P ≠ Q) (hneg : P ≠ -Q) : (T.add U).Z ≠ 0 := by
  have hX : T.Z ^ 2 * U.X - U.Z ^ 2 * T.X ≠ 0 := by
    intro h0
    rcases (hT.X_eq_iff hU).1 (by linear_combination -h0) with h | h
    · exact heq h
    · exact hneg h
  exact mul_ne_zero (mul_ne_zero hX hT.1) hU.1

/-- The origin taken for a point: the chord from there to a point does not
lead back to the point. -/
theorem Represents.not_origin_add (htwo : (2 : F) ≠ 0) (hT : T.Represents P) :
    ¬ ((⟨0, 0, 1⟩ : Triple F).add T).Represents P := by
  intro hsum
  have hX : T.X ≠ 0 := by
    intro h0
    exact hsum.1 (by simp [Triple.add, h0])
  obtain ⟨hx, hy⟩ := (hsum.eq_iff hT).1 rfl
  simp only [Triple.add] at hx hy
  have hsquare : T.Y ^ 2 = 2 * T.X ^ 3 :=
    mul_left_cancel₀ (pow_ne_zero 2 hT.1) (by linear_combination hx)
  have hY : T.Y = 0 := by
    have h0 : 2 * T.X ^ 3 * T.Z ^ 3 * T.Y = 0 := by
      linear_combination -hy - T.Z ^ 3 * T.Y * hsquare
    simpa [htwo, hX, hT.1] using h0
  rw [hY] at hsquare
  simp [htwo, hX] at hsquare

/-- The two orders of adding give the same point. -/
theorem Represents.add_swap (h : (T.add U).Represents P) : (U.add T).Represents P := by
  have hswap : U.add T = ⟨(T.add U).X, -(T.add U).Y, -(T.add U).Z⟩ := by
    simp only [Triple.add, Triple.mk.injEq]
    refine ⟨by ring, by ring, by ring⟩
  obtain ⟨hz, h', rfl⟩ := h
  rw [hswap]
  refine ⟨neg_ne_zero.2 hz, shortCurve.some_eq rfl ?_ ?_⟩
  · rw [neg_sq]
  · rw [Odd.neg_pow (by decide), neg_div_neg_eq]

variable [DecidableEq F]

/-- Outside characteristic two the doubling formula fails only for the
points of order two. -/
theorem Represents.double_Z_ne_zero (htwo : (2 : F) ≠ 0) (hT : T.Represents P)
    (hP : P + P ≠ 0) : (T.double A).Z ≠ 0 := by
  intro hz
  have hY : T.Y = 0 := by
    simpa [Triple.double, hT.1, htwo] using hz
  refine hP (add_eq_zero_iff_eq_neg.2 ((hT.eq_iff hT.neg).2 ⟨rfl, ?_⟩))
  simp [hY]

theorem Represents.double (hT : T.Represents P) (hz : (T.double A).Z ≠ 0) :
    (T.double A).Represents (P + P) := by
  obtain ⟨hTz, h, rfl⟩ := hT
  have hY : 2 * T.Y ≠ 0 := left_ne_zero_of_mul hz
  have hTY : T.Y ≠ 0 := right_ne_zero_of_mul hY
  have htwo : (2 : F) ≠ 0 := left_ne_zero_of_mul hY
  have hy : 2 * (T.Y / T.Z ^ 3) ≠ 0 :=
    mul_ne_zero htwo (div_ne_zero hTY (pow_ne_zero 3 hTz))
  -- The tangent's slope, with the divisions cleared.
  have hl : (3 * T.X ^ 2 + A * T.Z ^ 4) / (2 * T.Y * T.Z) * (2 * (T.Y / T.Z ^ 3))
      = 3 * (T.X / T.Z ^ 2) ^ 2 + A := by
    field_simp
  obtain ⟨h', hsum⟩ := shortCurve.tangent h hy hl
  refine ⟨hz, shortCurve.some_eq hsum ?_ ?_⟩
  · simp only [Triple.double]
    field_simp
    ring
  · simp only [Triple.double]
    field_simp
    ring

theorem Represents.add (hT : T.Represents P) (hU : U.Represents Q)
    (hz : (T.add U).Z ≠ 0) : (T.add U).Represents (P + Q) := by
  obtain ⟨hTz, h, rfl⟩ := hT
  obtain ⟨hUz, h', rfl⟩ := hU
  have hH : T.Z ^ 2 * U.X - U.Z ^ 2 * T.X ≠ 0 :=
    left_ne_zero_of_mul (left_ne_zero_of_mul hz)
  have hx : T.X / T.Z ^ 2 ≠ U.X / U.Z ^ 2 := by
    intro heq
    rw [div_eq_div_iff (pow_ne_zero 2 hTz) (pow_ne_zero 2 hUz)] at heq
    exact hH (by linear_combination -heq)
  have hl : (T.Z ^ 3 * U.Y - U.Z ^ 3 * T.Y) / ((T.Z ^ 2 * U.X - U.Z ^ 2 * T.X) * T.Z * U.Z)
      * (U.X / U.Z ^ 2 - T.X / T.Z ^ 2) = U.Y / U.Z ^ 3 - T.Y / T.Z ^ 3 := by
    field_simp
  obtain ⟨h'', hsum⟩ := shortCurve.chord h h' hx hl
  refine ⟨hz, shortCurve.some_eq hsum ?_ ?_⟩
  · simp only [Triple.add]
    field_simp
    ring
  · simp only [Triple.add]
    field_simp
    ring

/-! ## The ladder -/

section

variable {R : Type} [CommRing R] {f : R →+* F} {reduce : Triple R → Triple R}

/-- Only the last coordinate of the result is looked at: had a step gone
wrong on the way, it would be zero. The induction is on the bits. -/
theorem represents_ladder (hreduce : ∀ T, (reduce T).map f = T.map f) {a : R}
    (ha : f a = A) {T : Triple R} (hT : (T.map f).Represents P)
    {bits n : Nat} (hpos : 1 ≤ n) (hlt : n < 2 ^ bits)
    (hz : ((ladder reduce a T bits n).map f).Z ≠ 0) :
    ((ladder reduce a T bits n).map f).Represents (n • P) := by
  induction bits generalizing n with
  | zero => omega
  | succ bits ih =>
      rw [ladder] at hz ⊢
      split at hz
      · next hone =>
          rw [if_pos hone, show n = 1 by omega, one_nsmul]
          exact hT
      · next hone =>
          rw [if_neg hone]
          have hhalf : n / 2 < 2 ^ bits := by
            rw [Nat.pow_succ] at hlt
            omega
          -- What the doubled half is, once its last coordinate is not zero.
          have hdouble : ((reduce ((ladder reduce a T bits (n / 2)).double a)).map f).Z ≠ 0 →
              ((reduce ((ladder reduce a T bits (n / 2)).double a)).map f).Represents
                ((n / 2) • P + (n / 2) • P) := by
            rw [hreduce, map_double, ha]
            intro hz
            exact (ih (by omega) hhalf (right_ne_zero_of_mul hz)).double hz
          rw [← two_nsmul, smul_smul] at hdouble
          simp only [] at hz ⊢
          split at hz
          · next heven =>
              rw [if_pos heven]
              rw [show 2 * (n / 2) = n by omega] at hdouble
              exact hdouble hz
          · next hodd =>
              rw [if_neg hodd]
              rw [hreduce, map_add] at hz ⊢
              have hz' := right_ne_zero_of_mul (left_ne_zero_of_mul hz)
              have hsum := (hdouble hz').add hT hz
              rw [← succ_nsmul, show 2 * (n / 2) + 1 = n by omega] at hsum
              exact hsum

end

/-- Every coordinate modulo `p`. -/
def reduceMod (p : Nat) (T : Triple Int) : Triple Int := T.map (· % p)

theorem map_reduceMod (p : Nat) (T : Triple Int) :
    (reduceMod p T).map (Int.castRingHom (ZMod p)) = T.map (Int.castRingHom (ZMod p)) := by
  simp [reduceMod, map]

end Triple

end DataProcessor.Lib
