import DataProcessor.Lib.CoZ
import DataProcessor.Model.PointArithmetic
import DataProcessor.Proofs.CurveGroups
import DataProcessor.Proofs.FieldPowers

/-!
# The registers of a context

The formulas of `Lib.CoZ` on the registers of a context. `Pair` reads the
four coordinate registers in the Montgomery domain, and there is one lemma
for each of the source's functions: what it makes of the pair, and of the
temporaries a later function still reads. What a function leaves alone is
read off its definition.

`Consistent` is what the constants of a native curve have to do with a curve
of `Curve`.
-/

namespace DataProcessor

open Lib SbFe

variable {W : SbWordSize}

theorem flag_xor (b d : Bool) :
    flag W (b = true) ^^^ flag W (d = true) = flag W ((b ^^ d) = true) := by
  cases b <;> cases d <;> simp [flag]

theorem flag_xor_one (b : Bool) : flag W (b = true) ^^^ 1 = flag W ((!b) = true) := by
  cases b <;> simp [flag]

theorem SbFe.Holds.of_eq {m : Nat} {a : SbFe W} {u v : ZMod m} (h : a.Holds u) (huv : u = v) :
    a.Holds v := by
  rwa [← huv]

/-- The affine coordinates of the point, in the Montgomery domain. -/
def SbFePair.Holds {curve : Curve} (q : SbFePair W) (Q : curve.Point) : Prop :=
  ∃ x y h, Q = .some x y h ∧ q.x.Holds x ∧ q.y.Holds y

/-- The constants of the native curve are those of `curve`. The point `h_r`
is such that the ladder of verification makes the base point of it, and
`dz_r` is twice the point with the coordinates zero and an even number. -/
structure SbSwCurve.Consistent (s : SbSwCurve W) (curve : Curve) : Prop where
  p : s.p.Consistent curve.P
  n : s.n.Consistent curve.N
  order : ∀ {Q : curve.Point}, Q ≠ 0 → addOrderOf Q = curve.N
  wide : 3 * 2 ^ 254 < curve.N
  narrow : curve.N + 1 < 2 ^ 256
  four : curve.P % 4 = 3
  minus_a : s.minus_a.Stands (-curve.A : curve.Coordinate)
  minus_a_r_over_three :
    ∃ v : curve.Coordinate, s.minus_a_r_over_three.Holds v ∧ 3 * v = -curve.A
  b : s.b.Stands (curve.B : curve.Coordinate)
  g_r : s.g_r.Holds curve.G
  h_r : ∃ H : curve.Point, (2 * 2 ^ 256 - 1) • H = curve.G ∧ s.h_r.Holds H ∧
    s.g_h_r.Holds (curve.G + H)
  dz_r : ∀ {y : curve.Coordinate} {h}, y.val % 2 = 0 →
    s.dz_r.Holds ((.some 0 y h : curve.Point) + .some 0 y h)

namespace SbSwContext

/-- The coordinates of the two points, in the Montgomery domain. -/
structure Pair {m : Nat} (c : SbSwContext W) (q : CoZPair (ZMod m)) : Prop where
  x1 : c.x1.Holds q.x1
  y1 : c.y1.Holds q.y1
  x2 : c.x2.Holds q.x2
  y2 : c.y2.Holds q.y2

theorem swapPoints_one (c : SbSwContext W) :
    c.swapPoints 1 = { c with x1 := c.x2, y1 := c.y2, x2 := c.x1, y2 := c.y1 } := by
  simp only [swapPoints, sbFeCtswap_one]

theorem swapPoints_zero (c : SbSwContext W) : c.swapPoints 0 = c := by
  simp only [swapPoints, sbFeCtswap_zero]

theorem Pair.swapPoints {m : Nat} {c : SbSwContext W} {q : CoZPair (ZMod m)} (h : c.Pair q)
    (b : Bool) : (c.swapPoints (flag W (b = true))).Pair (q.swapIf b) := by
  cases b with
  | true =>
      rw [flag_of rfl, swapPoints_one]
      exact ⟨h.x2, h.y2, h.x1, h.y1⟩
  | false =>
      rw [flag_of_not (by decide), swapPoints_zero]
      exact h

variable {s : SbSwCurve W} {m : Nat} {c : SbSwContext W} {q : CoZPair (ZMod m)}

section

variable (hp : s.p.Consistent m)

include hp

theorem Pair.addUpdateZup (h : c.Pair q) (ht6 : c.t6.Holds (q.x2 - q.x1)) :
    (sbSwPointCoZAddUpdateZup c s).Pair q.addUpdate ∧
      (sbSwPointCoZAddUpdateZup c s).t5.Holds ((q.x1 + q.x2) * (q.x2 - q.x1) ^ 2) := by
  have ha := ht6.montSquare hp
  have hc := h.x2.montMult hp ha
  have hb := h.x1.montMult hp ha
  have ht7 := h.y2.modSub hp h.y1
  have hsum := hb.modAdd hp hc
  have he := h.y1.montMult hp (hc.modSub hp hb)
  have hx3 := (ht7.montSquare hp).modSub hp hsum
  have hy3 := (ht7.montMult hp (hb.modSub hp hx3)).modSub hp he
  refine ⟨⟨hx3.of_eq ?_, hy3.of_eq ?_, hb, he.of_eq ?_⟩, hsum.of_eq ?_⟩
  · simp only [CoZPair.addUpdate]
    ring
  · simp only [CoZPair.addUpdate]
    ring
  · simp only [CoZPair.addUpdate]
    ring
  · ring

theorem Pair.addUpdate (h : c.Pair q) :
    (sbSwPointCoZAddUpdate c s).Pair q.addUpdate ∧
      (sbSwPointCoZAddUpdate c s).t5.Holds ((q.x1 + q.x2) * (q.x2 - q.x1) ^ 2) :=
  addUpdateZup hp (c := { c with t6 := sbFeModSub c.x2 c.x1 s.p })
    ⟨h.x1, h.y1, h.x2, h.y2⟩ (h.x2.modSub hp h.x1)

theorem Pair.conjAdd (h : c.Pair q) : (sbSwPointCoZConjAdd c s).Pair q.conjAdd := by
  have ht8 := h.y1.modAdd hp h.y2
  obtain ⟨hpair, ht5⟩ := addUpdate hp (c := { c with t8 := sbFeModAdd c.y1 c.y2 s.p })
    ⟨h.x1, h.y1, h.x2, h.y2⟩
  have hx3 := (ht8.montSquare hp).modSub hp ht5
  have hy3 := (ht8.montMult hp (hx3.modSub hp hpair.x2)).modSub hp hpair.y2
  exact ⟨hpair.x1, hpair.y1, hx3, hy3⟩

end

/-- From the point in the second pair of registers. -/
theorem Pair.initialDouble {curve : Curve} (hs : s.Consistent curve)
    {x y : curve.Coordinate} (hx : c.x2.Holds x) (hy : c.y2.Holds y) :
    (sbSwPointInitialDouble c s).Pair (CoZPair.initialDouble (curve.A : curve.Coordinate) x y) ∧
      (sbSwPointInitialDouble c s).t5.Holds (2 * y) := by
  have hp := hs.p
  obtain ⟨v, hv, hthree⟩ := hs.minus_a_r_over_three
  have hd := (hx.montSquare hp).modSub hp hv
  have hb := hd.modAdd hp (hd.modDouble hp)
  have hyy := (hy.montSquare hp).modDouble hp
  have ha := hx.montMult hp (hyy.modDouble hp)
  have hx2 := ((hb.montSquare hp).modSub hp ha).modSub hp ha
  have hy1 := (hyy.montSquare hp).modDouble hp
  have hy2 := (hb.montMult hp (ha.modSub hp hx2)).modSub hp hy1
  have hslope : x ^ 2 - v + 2 * (x ^ 2 - v) = 3 * x ^ 2 + curve.A := by
    linear_combination -hthree
  rw [hslope] at hx2 hy2
  refine ⟨⟨ha.of_eq ?_, hy1.of_eq ?_, hx2.of_eq ?_, hy2.of_eq ?_⟩, hy.modDouble hp⟩
  · simp only [CoZPair.initialDouble, nsmul_eq_mul, Nat.cast_ofNat]
    ring
  · simp only [CoZPair.initialDouble, nsmul_eq_mul, Nat.cast_ofNat]
    ring
  · simp only [CoZPair.initialDouble, nsmul_eq_mul, Nat.cast_ofNat]
    ring
  · simp only [CoZPair.initialDouble, nsmul_eq_mul, Nat.cast_ofNat]
    ring

end SbSwContext

end DataProcessor
