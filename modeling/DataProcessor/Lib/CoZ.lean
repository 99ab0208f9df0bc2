import DataProcessor.Lib.Jacobian

/-!
# Addition with a shared last coordinate

Two points in Jacobian coordinates that share their last coordinate `z` are
added without it ever being computed: with `d` the difference of the first
coordinates, the sum and the first point again come out with the last
coordinate `z * d`, and so does the difference of the two. What is kept of a
pair is its four other coordinates.

A ladder step makes the sum and the difference and adds these two, which
gives twice the first point and the sum. It fails for a pair of equal or
opposite points, and for points of order two. A pair of opposite points is
followed through the next steps too: all of it collapses to zero
(`step_opposite`, `conjAdd_collapsed`).

`Rung` is the invariant of a ladder that keeps a multiple of a point and the
next one, in an order it remembers.
-/

namespace DataProcessor.Lib

/-- The coordinates of two points but for the last one, which they share. -/
structure CoZPair (R : Type) where
  x1 : R
  y1 : R
  x2 : R
  y2 : R

namespace CoZPair

section

variable {R : Type} [CommRing R]

/-- The sum, and the first point. -/
def addUpdate (c : CoZPair R) : CoZPair R :=
  let b := c.x1 * (c.x2 - c.x1) ^ 2
  let e := c.y1 * (c.x2 - c.x1) ^ 3
  let x3 := (c.y2 - c.y1) ^ 2 - (c.x1 + c.x2) * (c.x2 - c.x1) ^ 2
  { x1 := x3
    y1 := (c.y2 - c.y1) * (b - x3) - e
    x2 := b
    y2 := e }

/-- The sum and the difference. -/
def conjAdd (c : CoZPair R) : CoZPair R :=
  let b := c.x1 * (c.x2 - c.x1) ^ 2
  let e := c.y1 * (c.x2 - c.x1) ^ 3
  let x3 := (c.y1 + c.y2) ^ 2 - (c.x1 + c.x2) * (c.x2 - c.x1) ^ 2
  { x1 := c.addUpdate.x1
    y1 := c.addUpdate.y1
    x2 := x3
    y2 := (c.y1 + c.y2) * (x3 - b) - e }

/-- Twice the first point, and the sum. -/
def step (c : CoZPair R) : CoZPair R := c.conjAdd.addUpdate

end

section

variable {R : Type}

def swap (c : CoZPair R) : CoZPair R := ⟨c.x2, c.y2, c.x1, c.y1⟩

def swapIf (b : Bool) (c : CoZPair R) : CoZPair R := if b then c.swap else c

theorem swapIf_swapIf (s b : Bool) (c : CoZPair R) :
    (c.swapIf s).swapIf b = c.swapIf (s ^^ b) := by
  cases s <;> cases b <;> rfl

end

variable {F : Type} [Field F] {A B : F} {c : CoZPair F} {z : F}
  {P Q : (shortCurve A B).Point}

/-- With the last coordinate `z` the pair is `P` and `Q`. -/
structure Represents (c : CoZPair F) (z : F) (P Q : (shortCurve A B).Point) : Prop where
  fst : (⟨c.x1, c.y1, z⟩ : Triple F).Represents P
  snd : (⟨c.x2, c.y2, z⟩ : Triple F).Represents Q

namespace Represents

theorem z_ne_zero (h : c.Represents z P Q) : z ≠ 0 := h.fst.1

theorem swap (h : c.Represents z P Q) : c.swap.Represents z Q P := ⟨h.snd, h.fst⟩

theorem x_eq_iff (h : c.Represents z P Q) : c.x1 = c.x2 ↔ P = Q ∨ P = -Q := by
  rw [← h.fst.X_eq_iff h.snd]
  exact (mul_right_injective₀ (pow_ne_zero 2 h.z_ne_zero)).eq_iff.symm

theorem sub_ne_zero (h : c.Represents z P Q) (heq : P ≠ Q) (hneg : P ≠ -Q) :
    c.x2 - c.x1 ≠ 0 := by
  intro h0
  rcases h.x_eq_iff.1 (by linear_combination -h0) with h' | h'
  · exact heq h'
  · exact hneg h'

/-- Another last coordinate. -/
theorem scale (h : c.Represents z P Q) {t : F} (ht : t ≠ 0) :
    (⟨c.x1 * t ^ 2, c.y1 * t ^ 3, c.x2 * t ^ 2, c.y2 * t ^ 3⟩ : CoZPair F).Represents
      (z * t) P Q := by
  have hscale : ∀ {x y : F} {S : (shortCurve A B).Point},
      (⟨x, y, z⟩ : Triple F).Represents S →
        (⟨x * t ^ 2, y * t ^ 3, z * t⟩ : Triple F).Represents S := by
    intro x y S hS
    obtain ⟨hz, h', rfl⟩ := hS
    refine ⟨mul_ne_zero hz ht, shortCurve.some_eq rfl ?_ ?_⟩
    · rw [mul_pow, mul_div_mul_right _ _ (pow_ne_zero 2 ht)]
    · rw [mul_pow, mul_div_mul_right _ _ (pow_ne_zero 3 ht)]
  exact ⟨hscale h.fst, hscale h.snd⟩

variable [DecidableEq F]

theorem addUpdate (h : c.Represents z P Q) (heq : P ≠ Q) (hneg : P ≠ -Q) :
    c.addUpdate.Represents (z * (c.x2 - c.x1)) (P + Q) P := by
  have hd := h.sub_ne_zero heq hneg
  refine ⟨?_, (h.scale hd).fst⟩
  obtain ⟨⟨hz, h1, rfl⟩, ⟨-, h2, rfl⟩⟩ := h
  have hx : c.x1 / z ^ 2 ≠ c.x2 / z ^ 2 := by
    intro hx
    rw [div_left_inj' (pow_ne_zero 2 hz)] at hx
    exact hd (by rw [hx, sub_self])
  -- the slope of the chord
  have hl : (c.y2 - c.y1) / ((c.x2 - c.x1) * z) * (c.x2 / z ^ 2 - c.x1 / z ^ 2) =
      c.y2 / z ^ 3 - c.y1 / z ^ 3 := by
    field_simp
  obtain ⟨h', hsum⟩ := shortCurve.chord h1 h2 hx hl
  refine ⟨mul_ne_zero hz hd, shortCurve.some_eq hsum ?_ ?_⟩
  · simp only [CoZPair.addUpdate]
    field_simp
    ring
  · simp only [CoZPair.addUpdate]
    field_simp
    ring

theorem conjAdd (h : c.Represents z P Q) (heq : P ≠ Q) (hneg : P ≠ -Q) :
    c.conjAdd.Represents (z * (c.x2 - c.x1)) (P + Q) (P - Q) := by
  refine ⟨(h.addUpdate heq hneg).fst, ?_⟩
  -- the difference is the sum with the other point's negative
  have hopposite : (⟨c.x1, c.y1, c.x2, -c.y2⟩ : CoZPair F).Represents z P (-Q) :=
    ⟨h.fst, h.snd.neg⟩
  have hdiff := (hopposite.addUpdate hneg (by rwa [neg_neg])).fst
  rw [← sub_eq_add_neg] at hdiff
  have hx : (⟨c.x1, c.y1, c.x2, -c.y2⟩ : CoZPair F).addUpdate.x1 = c.conjAdd.x2 := by
    simp only [CoZPair.addUpdate, CoZPair.conjAdd]
    ring
  have hy : (⟨c.x1, c.y1, c.x2, -c.y2⟩ : CoZPair F).addUpdate.y1 = c.conjAdd.y2 := by
    simp only [CoZPair.addUpdate, CoZPair.conjAdd]
    ring
  rwa [hx, hy] at hdiff

theorem step (h : c.Represents z P Q) (heq : P ≠ Q) (hneg : P ≠ -Q) (hP : P + P ≠ 0)
    (hQ : Q + Q ≠ 0) : ∃ z', c.step.Represents z' (P + P) (P + Q) := by
  have hsum := (h.conjAdd heq hneg).addUpdate
    (fun h0 => hQ (by
      have : Q + Q = (P + Q) - (P - Q) := by abel
      rw [this, h0, sub_self]))
    (fun h0 => hP (by
      have : P + P = (P + Q) + (P - Q) := by abel
      rw [this, h0, neg_add_cancel]))
  have hdouble : P + Q + (P - Q) = P + P := by abel
  rw [hdouble] at hsum
  exact ⟨_, hsum⟩

end Represents

/-- A point in affine coordinates and its double: the point takes the last
coordinate `2 * y`. -/
def initialDouble (A x y : F) : CoZPair F :=
  let b := 3 • x ^ 2 + A
  let a := 4 • x * y ^ 2
  let x2 := b ^ 2 - 2 • a
  { x1 := a
    y1 := 8 • y ^ 4
    x2 := x2
    y2 := b * (a - x2) - 8 • y ^ 4 }

theorem represents_initialDouble [DecidableEq F] {x y : F}
    (h : (shortCurve A B).Nonsingular x y) (hy : 2 * y ≠ 0) :
    (initialDouble A x y).Represents (2 * y) (.some x y h : (shortCurve A B).Point)
      (.some x y h + .some x y h) := by
  have hy0 : y ≠ 0 := right_ne_zero_of_mul hy
  have htwo : (2 : F) ≠ 0 := left_ne_zero_of_mul hy
  constructor
  · refine ⟨hy, shortCurve.some_eq rfl ?_ ?_⟩
    · simp only [initialDouble, nsmul_eq_mul, Nat.cast_ofNat]
      field_simp
      norm_num
    · simp only [initialDouble, nsmul_eq_mul, Nat.cast_ofNat]
      field_simp
      norm_num
  · have hl : (3 * x ^ 2 + A) / (2 * y) * (2 * y) = 3 * x ^ 2 + A := by
      field_simp
    obtain ⟨h', hsum⟩ := shortCurve.tangent h hy hl
    refine ⟨hy, shortCurve.some_eq hsum ?_ ?_⟩
    · simp only [initialDouble, nsmul_eq_mul, Nat.cast_ofNat]
      field_simp
      ring
    · simp only [initialDouble, nsmul_eq_mul, Nat.cast_ofNat]
      field_simp
      ring

/-- The last coordinate is found again from a point that is known in affine
coordinates: its quotients with the coordinates kept give `z`, and the next
addition multiplies that by the difference. -/
theorem Represents.recover {x y : F} {h : (shortCurve A B).Nonsingular x y} {b : Bool}
    (hc : c.Represents z P (if b then (.some x y h : (shortCurve A B).Point) else -.some x y h))
    (hx : x ≠ 0) (hy : y ≠ 0) (hd : c.x2 - c.x1 ≠ 0) :
    c.x2 * (y * (x * (c.y2 * if b then c.x2 - c.x1 else c.x1 - c.x2))⁻¹) =
      (z * (c.x2 - c.x1))⁻¹ := by
  obtain ⟨hz, h', hsome⟩ := hc.snd
  have hd' : c.x1 - c.x2 ≠ 0 := fun h0 => hd (by linear_combination -h0)
  cases b with
  | true =>
      rw [if_pos rfl, WeierstrassCurve.Affine.Point.some.injEq] at hsome
      have hX : c.x2 = x * z ^ 2 := by rw [hsome.1]; field_simp
      have hY : c.y2 = y * z ^ 3 := by rw [hsome.2]; field_simp
      rw [if_pos rfl, hY]
      nth_rewrite 1 [hX]
      field_simp
  | false =>
      obtain ⟨h'', hneg⟩ := shortCurve.neg_some h
      rw [if_neg (by decide), hneg, WeierstrassCurve.Affine.Point.some.injEq] at hsome
      have hX : c.x2 = x * z ^ 2 := by rw [hsome.1]; field_simp
      have hY : c.y2 = -y * z ^ 3 := by rw [hsome.2]; field_simp
      rw [if_neg (by decide), hY]
      nth_rewrite 1 [hX]
      field_simp
      ring

/-! ## Opposite points -/

/-- After a step on opposite points the first is zero, and the other has the
form `(u ^ 2, u ^ 3)`. -/
theorem step_opposite (h : c.Represents z P (-P)) :
    ∃ u, c.step = ⟨0, 0, u ^ 2, u ^ 3⟩ := by
  have hx : c.x1 = c.x2 := h.x_eq_iff.2 (.inr (neg_neg P).symm)
  have hy : c.y2 = -c.y1 := by
    have heq := (h.fst.neg.eq_iff h.snd).1 rfl
    exact (mul_left_cancel₀ (pow_ne_zero 3 h.z_ne_zero) heq.2).symm
  refine ⟨(c.y2 - c.y1) ^ 3, ?_⟩
  simp only [step, conjAdd, addUpdate, hx, hy, mk.injEq]
  refine ⟨?_, ?_, ?_, ?_⟩ <;> ring

/-- The sum and the difference then are zero, in either order. -/
theorem conjAdd_collapsed (u : F) (b : Bool) :
    (swapIf b ⟨0, 0, u ^ 2, u ^ 3⟩).conjAdd = ⟨0, 0, 0, 0⟩ := by
  cases b <;>
  · simp only [swapIf, swap, conjAdd, addUpdate, mk.injEq, if_true, Bool.false_eq_true, if_false]
    refine ⟨?_, ?_, ?_, ?_⟩ <;> ring

theorem addUpdate_zero : (⟨0, 0, 0, 0⟩ : CoZPair F).addUpdate = ⟨0, 0, 0, 0⟩ := by
  simp [addUpdate]

/-! ## The rungs of a ladder -/

variable [DecidableEq F]

/-- `m` times the point and `m + 1` times it, the latter first when
`swapped`. -/
def Rung (P : (shortCurve A B).Point) (m : Nat) (swapped : Bool) (c : CoZPair F) : Prop :=
  ∃ z, (c.swapIf swapped).Represents z (m • P) ((m + 1) • P)

namespace Rung

variable {m : Nat} {swapped b : Bool}

/-- Put in order for the next bit. -/
theorem ordered (h : Rung P m swapped c) (b : Bool) :
    ∃ z, (c.swapIf (swapped ^^ b)).Represents z (if b then (m + 1) • P else m • P)
      (if b then m • P else (m + 1) • P) := by
  obtain ⟨z, h⟩ := h
  refine ⟨z, ?_⟩
  rw [← swapIf_swapIf]
  cases b with
  | true => exact h.swap
  | false => exact h

theorem rung_ne (hP : P ≠ 0) (m : Nat) : (m + 1) • P ≠ m • P := by
  rw [succ_nsmul]
  simpa using hP

theorem succ_eq_neg_iff (m : Nat) : (m + 1) • P = -(m • P) ↔ (2 * m + 1) • P = 0 := by
  rw [eq_neg_iff_add_eq_zero, ← add_nsmul]
  congr! 2
  omega

theorem eq_neg_succ_iff (m : Nat) : m • P = -((m + 1) • P) ↔ (2 * m + 1) • P = 0 := by
  rw [eq_neg_iff_add_eq_zero, ← add_nsmul]
  congr! 2
  omega

/-- One bit more. -/
theorem step (h : Rung P m swapped c) (b : Bool) (hP : P ≠ 0) (h0 : (2 * m) • P ≠ 0)
    (h1 : (2 * (m + 1)) • P ≠ 0) (hsum : (2 * m + 1) • P ≠ 0) :
    Rung P (2 * m + b.toNat) b (c.swapIf (swapped ^^ b)).step := by
  obtain ⟨z, hc⟩ := h.ordered b
  rw [two_mul, add_nsmul] at h0 h1
  have hodd : m • P + (m + 1) • P = (2 * m + 1) • P := by
    rw [← add_nsmul]
    congr 1
    omega
  cases b with
  | true =>
      obtain ⟨z', h'⟩ := hc.step (rung_ne hP m) ((succ_eq_neg_iff m).not.2 hsum) h1 h0
      refine ⟨z', ?_⟩
      have htwice : (m + 1) • P + (m + 1) • P = (2 * m + 1 + 1) • P := by
        rw [← add_nsmul]
        congr 1
        omega
      simp only [if_true] at h'
      rw [htwice, add_comm ((m + 1) • P), hodd] at h'
      exact h'.swap
  | false =>
      obtain ⟨z', h'⟩ := hc.step (rung_ne hP m).symm ((eq_neg_succ_iff m).not.2 hsum) h0 h1
      refine ⟨z', ?_⟩
      have htwice : m • P + m • P = (2 * m) • P := by
        rw [two_mul, add_nsmul]
      simp only [Bool.false_eq_true, if_false] at h'
      rw [htwice, hodd] at h'
      exact h'

/-- The last bit. The sum and the difference of the two points, which is the
point up to its sign, are what `recover` starts from, and their own sum or
the sum itself is the multiple. -/
theorem last (h : Rung P m swapped c) (b : Bool) (hP : P ≠ 0) (h0 : (2 * m) • P ≠ 0)
    (h1 : (2 * (m + 1)) • P ≠ 0) (hsum : (2 * m + 1) • P ≠ 0) :
    let d := (c.swapIf (swapped ^^ b)).conjAdd
    ∃ z, d.Represents z ((2 * m + 1) • P) (if b then P else -P) ∧ d.x2 - d.x1 ≠ 0 ∧
      (⟨(d.addUpdate.swapIf (!b)).x2, (d.addUpdate.swapIf (!b)).y2, z * (d.x2 - d.x1)⟩ :
        Triple F).Represents ((2 * m + b.toNat) • P) := by
  obtain ⟨z, hc⟩ := h.ordered b
  have hodd : m • P + (m + 1) • P = (2 * m + 1) • P := by
    rw [← add_nsmul]
    congr 1
    omega
  have heven : (2 * m + 1) • P + P = (2 * (m + 1)) • P := by
    rw [← succ_nsmul]
    congr 1
  have hdiff : (m + 1) • P - m • P = P := by
    rw [succ_nsmul, add_sub_cancel_left]
  have heq : (2 * m + 1) • P ≠ P := by
    rw [succ_nsmul]
    simpa using h0
  have hneg : (2 * m + 1) • P ≠ -P := by
    rw [ne_eq, eq_neg_iff_add_eq_zero, heven]
    exact h1
  cases b with
  | true =>
      have hd := hc.conjAdd (rung_ne hP m) ((succ_eq_neg_iff m).not.2 hsum)
      simp only [if_true] at hd ⊢
      rw [add_comm ((m + 1) • P), hodd, hdiff] at hd
      exact ⟨_, hd, hd.sub_ne_zero heq hneg, (hd.addUpdate heq hneg).snd⟩
  | false =>
      have hd := hc.conjAdd (rung_ne hP m).symm ((eq_neg_succ_iff m).not.2 hsum)
      simp only [Bool.false_eq_true, if_false] at hd ⊢
      rw [hodd, ← neg_sub ((m + 1) • P) (m • P), hdiff] at hd
      have hd' := hd.addUpdate hneg (by rwa [neg_neg])
      rw [show (2 * m + 1) • P + -P = (2 * m) • P by rw [succ_nsmul, add_neg_cancel_right]] at hd'
      exact ⟨_, hd, hd.sub_ne_zero hneg (by rwa [neg_neg]), hd'.fst⟩

end Rung

end CoZPair

end DataProcessor.Lib
