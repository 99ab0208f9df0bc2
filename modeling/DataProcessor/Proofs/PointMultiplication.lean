import DataProcessor.Proofs.PointLadder

/-!
# Point multiplication

The start of a multiplication brings the scalar and the point into the form
the ladder takes: the first coordinate of the point is not zero, and the
scalar is below `2 ^ 255`. Its last stage finds the inverse of the last
coordinate from the point, which is known in affine coordinates, and undoes
what the start has done to the scalar.

For the scalar one everything that stage computes is zero, the inverse too,
so that adding the point gives the point.
-/

namespace DataProcessor

open Lib SbFe

variable {W : SbWordSize} {s : SbSwCurve W} {curve : Curve}

/-- The point has a first coordinate that is not zero. -/
def SbFePair.HoldsNonzero {curve : Curve} (q : SbFePair W) (Q : curve.Point) : Prop :=
  ∃ x y h, Q = .some x y h ∧ x ≠ 0 ∧ q.x.Holds x ∧ q.y.Holds y

theorem SbFePair.Holds.neg (hs : s.Consistent curve) {q : SbFePair W} {Q : curve.Point}
    (h : q.Holds Q) : SbFePair.Holds ⟨q.x, sbFeModNegate q.y s.p⟩ (-Q) := by
  obtain ⟨x, y, h, rfl, hx, hy⟩ := h
  obtain ⟨h', hneg⟩ := shortCurve.neg_some h
  exact ⟨x, -y, h', hneg, hx, hy.modNegate hs.p⟩

/-- An element that stands for a residue other than zero is that residue. -/
theorem SbFe.Stands.value_eq {m : Nat} [NeZero m] {a : SbFe W} {u : ZMod m} (h : a.Stands u)
    (hu : u ≠ 0) : a.value = u.val := by
  have hne : a.value ≠ m := by
    intro heq
    apply hu
    rw [← h.residue, heq, ZMod.natCast_self]
  have hlt : a.value < m := lt_of_le_of_ne h.le hne
  rw [← h.residue, ZMod.val_natCast_of_lt hlt]

namespace SbSwContext

theorem nsmul_eq_of_cast (hs : s.Consistent curve) {Q : curve.Point} (hQ : Q ≠ 0) {a b : Nat}
    (h : (a : ZMod curve.N) = b) : a • Q = b • Q := by
  rw [nsmul_eq_nsmul_iff_modEq, hs.order hQ]
  exact (ZMod.natCast_eq_natCast_iff _ _ _).1 h

/-! ## The start -/

/-- The double of a point with the first coordinate zero, from `dz_r`, by the
sign of its other coordinate. -/
theorem dz_holds (hs : s.Consistent curve) {y : curve.Coordinate} {h} {a : SbFe W}
    (ha : a.Holds y) (hy : y ≠ 0) :
    SbFePair.Holds ⟨s.dz_r.x, (sbFeCtswap (sbFeTestBit (sbFeMontReduce a s.p) 0) s.dz_r.y
      (sbFeModNegate s.dz_r.y s.p)).1⟩ ((.some 0 y h : curve.Point) + .some 0 y h) := by
  have hbit : sbFeTestBit (sbFeMontReduce a s.p) 0 = flag W (y.val % 2 = 1) := by
    have htest : y.val.testBit (BitVec.toNat (0 : SbBitcount)) = decide (y.val % 2 = 1) := by
      rw [show BitVec.toNat (0 : SbBitcount) = 0 from rfl, Nat.testBit_zero]
    rw [sbFeTestBit_eq _ (by decide), (ha.montReduce hs.p).value_eq hy, htest]
    simp only [decide_eq_true_eq]
  rw [hbit, sbFeCtswap_flag]
  split
  · next hodd =>
      -- its negative has an even coordinate
      obtain ⟨h', hneg⟩ := shortCurve.neg_some h
      have heven : (-y).val % 2 = 0 := by
        have hP := hs.p.odd
        have hlt := y.val_lt
        rw [ZMod.neg_val, if_neg hy]
        omega
      have hdouble := (hs.dz_r (h := h') heven).neg hs
      rw [← hneg, neg_add, neg_neg] at hdouble
      exact hdouble
  · next hodd => exact hs.dz_r (by omega)

/-- The first coordinates of a point and its double differ: its order is not
three. -/
theorem double_fst_ne_zero (hs : s.Consistent curve) {x y x' y' : curve.Coordinate} {h h'}
    (hdouble : (.some x y h : curve.Point) + .some x y h = .some x' y' h') : x' ≠ x := by
  have hQ : (.some x y h : curve.Point) ≠ 0 := WeierstrassCurve.Affine.Point.some_ne_zero h
  have hwide := hs.wide
  intro hx
  have hsame : (.some x' y' h' : curve.Point) = .some x y h ∨
      (.some x' y' h' : curve.Point) = -.some x y h :=
    WeierstrassCurve.Affine.Point.X_eq_iff.1 hx
  rcases hsame with heq | heq
  · rw [← hdouble, add_eq_right] at heq
    exact hQ heq
  · have hthree : 3 • (.some x y h : curve.Point) ≠ 0 :=
      (nsmul_ne_zero_iff hs hQ).2 (Nat.not_dvd_of_pos_of_lt (by decide) (by omega))
    rw [← hdouble, eq_neg_iff_add_eq_zero] at heq
    refine hthree ?_
    rw [← heq]
    abel

theorem substituteDouble_spec (hs : s.Consistent curve) {m : SbSwContext W} {Q : curve.Point}
    (hpoint : m.point.Holds Q) (hpos : 0 < m.k.value) (hlt : m.k.value < curve.N) :
    ∃ Q' : curve.Point, (substituteDouble m s).point.HoldsNonzero Q' ∧
      0 < (substituteDouble m s).k.value ∧ (substituteDouble m s).k.value < curve.N ∧
      (substituteDouble m s).k.value • Q' = m.k.value • Q ∧
      (m.point.HoldsNonzero Q → (substituteDouble m s).k = m.k) := by
  obtain ⟨x, y, h, rfl, hx, hy⟩ := hpoint
  have hQ : (.some x y h : curve.Point) ≠ 0 := WeierstrassCurve.Affine.Point.some_ne_zero h
  have hzero : sbFeEqual m.point.x s.p.p = flag W (x = 0) :=
    hx.sbFeEqual_eq hs.p (Holds.prime hs.p)
  by_cases hx0 : x = 0
  · subst hx0
    rw [flag_of rfl] at hzero
    have hk : (substituteDouble m s).k = sbFeModHalve m.k s.n := by
      simp only [substituteDouble, hzero, sbFeCtswap_one]
    have hdouble := Curve.add_self_ne_zero (Curve.N_nsmul_of_addOrderOf (hs.order hQ)) hQ
    have hdz := dz_holds hs (h := h) hy (Curve.snd_ne_zero hdouble)
    have hstands : m.k.Stands (m.k.value : ZMod curve.N) := ⟨hpos, hlt.le, rfl⟩
    obtain ⟨v, hv, htwo⟩ := sbFeModHalve_stands hs.n.value hs.n.odd hstands
    have hv0 : v ≠ 0 := by
      rintro rfl
      rw [mul_zero, eq_comm, ZMod.natCast_eq_zero_iff] at htwo
      exact Nat.not_dvd_of_pos_of_lt hpos hlt htwo
    have hval := hv.value_eq hv0
    have hvpos := hv.pos
    rw [hk]
    refine ⟨(.some 0 y h : curve.Point) + .some 0 y h, ?_, hvpos, ?_, ?_, ?_⟩
    · have hpoint : (substituteDouble m s).point = ⟨s.dz_r.x,
          (sbFeCtswap (sbFeTestBit (sbFeMontReduce m.point.y s.p) 0) s.dz_r.y
            (sbFeModNegate s.dz_r.y s.p)).1⟩ := by
        simp only [substituteDouble, hzero, sbFeCtswap_one]
      rw [hpoint]
      obtain ⟨x', y', h', hdouble', hx', hy'⟩ := hdz
      exact ⟨x', y', h', hdouble', double_fst_ne_zero hs hdouble', hx', hy'⟩
    · rw [hval]
      exact v.val_lt
    · rw [← two_nsmul, ← mul_nsmul', mul_comm]
      apply nsmul_eq_of_cast hs hQ
      rw [Nat.cast_mul, Nat.cast_ofNat, hv.residue, htwo]
    · rintro ⟨x', y', h', heq, hne, -⟩
      rw [WeierstrassCurve.Affine.Point.some.injEq] at heq
      exact absurd heq.1.symm hne
  · rw [flag_of_not hx0] at hzero
    have hk : (substituteDouble m s).k = m.k := by
      simp only [substituteDouble, hzero, sbFeCtswap_zero]
    have hp : (substituteDouble m s).point = m.point := by
      simp only [substituteDouble, hzero, sbFeCtswap_zero]
    rw [hk, hp]
    exact ⟨_, ⟨x, y, h, rfl, hx0, hx, hy⟩, hpos, hlt, rfl, fun _ => rfl⟩

/-- A number, or its negative when `inv`. -/
def signed {A : Type} [Neg A] (inv : Bool) (a : A) : A := if inv then -a else a

theorem invertScalar_spec (hs : s.Consistent curve) {m : SbSwContext W}
    (hpos : 0 < m.k.value) (hlt : m.k.value < curve.N) :
    ∃ inv : Bool, (invertScalar m s).state.inv_k = flag W (inv = true) ∧
      1 ≤ (invertScalar m s).k.value ∧ (invertScalar m s).k.value < 2 ^ 255 ∧
      (invertScalar m s).state.k_one = flag W ((invertScalar m s).k.value = 1) ∧
      signed inv ((invertScalar m s).k.value : ZMod curve.N) = m.k.value := by
  have hwide := hs.wide
  have hN := hs.n.value
  have hstands : m.k.Stands (m.k.value : ZMod curve.N) := ⟨hpos, hlt.le, rfl⟩
  have hneg := sbFeModNegate_stands hN hstands
  have hne : (m.k.value : ZMod curve.N) ≠ 0 :=
    Curve.natCast_ne_zero (Nat.not_dvd_of_pos_of_lt hpos hlt)
  have hbit : sbFeTestBit m.k (BitVec.ofNat 32 (SB_FE_BITS - 1)) =
      flag W (m.k.value.testBit 255 = true) := sbFeTestBit_eq m.k (by decide)
  have htop : m.k.value.testBit 255 = decide (2 ^ 255 ≤ m.k.value) := by
    rw [Nat.testBit_eq_decide_div_mod_eq]
    have := m.k.value_lt
    congr 1
    rw [eq_iff_iff]
    omega
  have hk : (invertScalar m s).k =
      if m.k.value.testBit 255 then sbFeModNegate m.k s.n else m.k := by
    simp only [invertScalar, hbit, sbFeCtswap_flag]
    split <;> rfl
  have hk_one : (invertScalar m s).state.k_one = sbFeEqual (invertScalar m s).k (SB_FE_ONE W) :=
    rfl
  have hone : ∀ a : SbFe W, sbFeEqual a (SB_FE_ONE W) = flag W (a.value = 1) := by
    intro a
    have hiff : a = SB_FE_ONE W ↔ a.value = 1 := by
      rw [← SB_FE_ONE_value (W := W)]
      exact ⟨fun h => by rw [h], value_injective⟩
    rw [sbFeEqual_eq]
    simp only [hiff]
  refine ⟨m.k.value.testBit 255, hbit, ?_, ?_, by rw [hk_one, hone], ?_⟩
  · rw [hk]
    split
    · exact hneg.pos
    · exact hpos
  · rw [hk]
    split
    · next h =>
        rw [htop, decide_eq_true_eq] at h
        rw [hneg.value_eq (neg_ne_zero.2 hne), ZMod.neg_val, if_neg hne,
          ZMod.val_natCast_of_lt hlt]
        have := hs.narrow
        omega
    · next h =>
        rw [htop, decide_eq_true_eq] at h
        omega
  · rw [hk, signed]
    split
    · rw [hneg.residue, neg_neg]
    · rfl

theorem Pair.blindPoints (hs : s.Consistent curve) {m : SbSwContext W}
    {q : CoZPair curve.Coordinate} {z : curve.Coordinate} (h : m.Pair q) (hz : m.z.Holds z) :
    (blindPoints m s).Pair ⟨q.x1 * z ^ 2, q.y1 * z ^ 3, q.x2 * z ^ 2, q.y2 * z ^ 3⟩ := by
  have hz2 := hz.montSquare hs.p
  have hz3 := hz.montMult hs.p hz2
  rw [← pow_succ'] at hz3
  exact ⟨h.x1.montMult hs.p hz2, h.y1.montMult hs.p hz3, h.x2.montMult hs.p hz2,
    h.y2.montMult hs.p hz3⟩

/-- What holds while the scalar `m.k` is multiplied with `Q`: the ladder's own
scalar and point, and how they give the result. -/
structure Underway (m : SbSwContext W) (Q Q' : curve.Point) (k : Nat) (inv : Bool)
    (h : Held W) : Prop where
  point : h.point.HoldsNonzero Q'
  inv_k : h.inv_k = flag W (inv = true)
  k_one : h.k_one = flag W (k = 1)
  pos : 1 ≤ k
  lt : k < 2 ^ 255
  product : signed inv (k • Q') = m.k.value • Q
  scalar : m.point.HoldsNonzero Q → signed inv (k : ZMod curve.N) = m.k.value
  operation : h.operation = m.state.operation
  curve_id : h.curve_id = m.state.curve_id
  message : h.message = m.message
  priv : h.priv = m.priv

theorem signed_nsmul (hs : s.Consistent curve) {Q : curve.Point} (hQ : Q ≠ 0) {inv : Bool}
    {a b : Nat} (h : signed inv (a : ZMod curve.N) = b) : signed inv (a • Q) = b • Q := by
  cases inv with
  | true =>
      have hsum : ((a + b : Nat) : ZMod curve.N) = (0 : Nat) := by
        rw [Nat.cast_add, ← h, Nat.cast_zero]
        exact add_neg_cancel _
      have hzero := nsmul_eq_of_cast hs hQ hsum
      rw [add_nsmul, zero_nsmul, add_comm] at hzero
      exact (eq_neg_of_add_eq_zero_left hzero).symm
  | false => exact nsmul_eq_of_cast hs hQ h

theorem SbFePair.HoldsNonzero.ne_zero {q : SbFePair W} {Q : curve.Point}
    (h : q.HoldsNonzero Q) : Q ≠ 0 := by
  obtain ⟨x, y, h, rfl, -⟩ := h
  exact WeierstrassCurve.Affine.Point.some_ne_zero h

/-- The registers as the ladder takes them over, for the point `(x, y)`. -/
theorem started_pair (hs : s.Consistent curve) {c : SbSwContext W} {x y z : curve.Coordinate} {h}
    (hx : c.x2.Holds x) (hy : c.y2.Holds y) (hz : c.z.Holds z) (hz0 : z ≠ 0) :
    ∃ q, (blindPoints (sbSwPointInitialDouble c s) s).Pair q ∧
      CoZPair.Rung (.some x y h : curve.Point) 1 false q := by
  have hQ : (.some x y h : curve.Point) ≠ 0 := WeierstrassCurve.Affine.Point.some_ne_zero h
  have hdouble := Curve.add_self_ne_zero (Curve.N_nsmul_of_addOrderOf (hs.order hQ)) hQ
  have hy0 : 2 * y ≠ 0 := mul_ne_zero curve.two_ne_zero (Curve.snd_ne_zero hdouble)
  have hpair := (Pair.initialDouble (c := c) hs hx hy).1
  have hrep := (CoZPair.represents_initialDouble h hy0).scale hz0
  refine ⟨_, hpair.blindPoints hs (m := sbSwPointInitialDouble c s) hz, 2 * y * z, ?_⟩
  rw [one_nsmul, show (1 + 1) • (.some x y h : curve.Point) = _ from two_nsmul _]
  exact hrep

/-- The context before the point is doubled, for the scalar that `m` has by
then. -/
def regularized (m : SbSwContext W) (s : SbSwCurve W) : SbSwContext W :=
  { m with
    k := (sbSwRegularizeScalar m.k s).1
    t5 := (sbSwRegularizeScalar m.k s).2
    x2 := m.point.x
    y2 := m.point.y }

theorem sbSwPointMultStart_eq (m : SbSwContext W) :
    sbSwPointMultStart m s =
      let c := blindPoints
        (sbSwPointInitialDouble (regularized (invertScalar (substituteDouble m s) s) s) s) s
      { c with state := { c.state with
          i := BitVec.ofNat 32 (SB_FE_BITS - 1), stage := SB_SW_POINT_MULT_OP_STAGE_LADDER } } :=
  rfl

theorem sbSwPointMultStart_keeps (m : SbSwContext W) :
    (sbSwPointMultStart m s).state.operation = m.state.operation ∧
      (sbSwPointMultStart m s).state.curve_id = m.state.curve_id ∧
      (sbSwPointMultStart m s).message = m.message ∧ (sbSwPointMultStart m s).priv = m.priv := by
  obtain ⟨_, _, _, _, _, _, _, _, _, _, _, ⟨_, _, _, _, _, _, _, _⟩, _⟩ := m
  exact ⟨rfl, rfl, rfl, rfl⟩

theorem sbSwPointMultStart_spec (hs : s.Consistent curve) {m : SbSwContext W}
    {Q : curve.Point} {z : curve.Coordinate} (hpoint : m.point.Holds Q) (hpos : 0 < m.k.value)
    (hlt : m.k.value < curve.N) (hz : m.z.Holds z) (hz0 : z ≠ 0) (hswap : m.state.swap = 0) :
    ∃ Q' k inv, Underway m Q Q' k inv (sbSwPointMultStart m s).held ∧
      LadderAt Q' k 255 (sbSwPointMultStart m s) ∧
      (sbSwPointMultStart m s).state.stage = SB_SW_POINT_MULT_OP_STAGE_LADDER := by
  obtain ⟨Q', hpoint', hpos1, hlt1, hproduct1, hkeep⟩ := substituteDouble_spec hs hpoint hpos hlt
  obtain ⟨inv, hinv, hpos2, hlt2, hone, hsigned⟩ := invertScalar_spec hs hpos1 hlt1
  have hQ' := SbFePair.HoldsNonzero.ne_zero hpoint'
  obtain ⟨x, y, h, rfl, hx0, hx, hy⟩ := hpoint'
  have hregular := sbSwRegularizeScalar_value hs.n (invertScalar (substituteDouble m s) s).k
  have hbounds := regularScalar_bounds hs.wide hs.narrow hlt2
  obtain ⟨q, hpair, hrung⟩ := started_pair hs (h := h)
    (c := regularized (invertScalar (substituteDouble m s) s) s) hx hy hz hz0
  obtain ⟨hoperation, hcurve_id, hmessage, hpriv⟩ := sbSwPointMultStart_keeps (s := s) m
  refine ⟨.some x y h, (invertScalar (substituteDouble m s) s).k.value, inv, ?_, ?_, rfl⟩
  · refine ⟨⟨x, y, h, rfl, hx0, hx, hy⟩, hinv, hone, hpos2, hlt2, ?_, ?_, hoperation, hcurve_id,
      hmessage, hpriv⟩
    · rw [signed_nsmul hs hQ' hsigned, hproduct1]
    · intro hnonzero
      rw [hsigned, hkeep hnonzero]
  · rw [sbSwPointMultStart_eq]
    refine ⟨rfl, hregular, q, false, ⟨hpair.x1, hpair.y1, hpair.x2, hpair.y2⟩, ?_, ?_⟩
    · rw [flag_of_not (by decide)]
      exact hswap
    · rw [Position, if_neg (by omega)]
      have htop : regularScalar curve.N (invertScalar (substituteDouble m s) s).k.value /
          2 ^ (255 + 1) = 1 := by
        omega
      rw [htop]
      exact hrung

/-! ## The last stage -/

theorem swappedDifference_flag (c : SbSwContext W) (b : Bool) :
    swappedDifference c (flag W (b = true)) s =
      { c with t8 := if b then sbFeModSub c.x2 c.x1 s.p else sbFeModSub c.x1 c.x2 s.p } := by
  unfold swappedDifference
  cases b with
  | true => simp only [flag_of, swapPoints_one, if_true]
  | false => simp only [flag_of_not, swapPoints_zero, Bool.false_eq_true, if_false, not_false_iff]

theorem Pair.recoverZ (hs : s.Consistent curve) {m : SbSwContext W}
    {q : CoZPair curve.Coordinate} {x y : curve.Coordinate} (h : m.Pair q) (b : Bool)
    (hx : m.point.x.Holds x) (hy : m.point.y.Holds y) :
    (recoverZ m (flag W (b = true)) s).Pair q.conjAdd ∧
      (recoverZ m (flag W (b = true)) s).t8.Holds
        (q.conjAdd.x2 * (y * (x * (q.conjAdd.y2 *
          if b then q.conjAdd.x2 - q.conjAdd.x1 else q.conjAdd.x1 - q.conjAdd.x2))⁻¹)) := by
  have hconj := h.conjAdd hs.p
  have hpoint : (sbSwPointCoZConjAdd m s).point = m.point := rfl
  rw [← hpoint] at hx hy
  unfold DataProcessor.recoverZ
  generalize sbSwPointCoZConjAdd m s = c at hconj hx hy ⊢
  generalize q.conjAdd = q at hconj ⊢
  simp only [swappedDifference_flag]
  have hd : SbFe.Holds (if b then sbFeModSub c.x2 c.x1 s.p else sbFeModSub c.x1 c.x2 s.p)
      (if b then q.x2 - q.x1 else q.x1 - q.x2) := by
    cases b with
    | true => exact hconj.x2.modSub hs.p hconj.x1
    | false => exact hconj.x1.modSub hs.p hconj.x2
  have ht5 := hd.montMult hs.p hconj.y2
  have ht8 := ((((ht5.montMult hs.p hx).modInvR hs.p).montMult hs.p hy).montMult hs.p hconj.x2)
  refine ⟨⟨hconj.x1, hconj.y1, hconj.x2, hconj.y2⟩, ht8.of_eq ?_⟩
  rw [mul_comm (ite _ _ _), mul_comm _ x]
  ring

theorem applyInverse_spec (hs : s.Consistent curve) {m : SbSwContext W}
    {q : CoZPair curve.Coordinate} {w x y : curve.Coordinate} (h : m.Pair q)
    (hw : m.t8.Holds w) (hx : m.point.x.Holds x) (hy : m.point.y.Holds y) {one : Prop}
    [Decidable one] (hone : m.state.k_one = flag W one) :
    (applyInverse m s).x1.Stands (w ^ 2 * q.x2 + if one then x else 0) ∧
      (applyInverse m s).y1.Stands (w ^ 3 * q.y2 + if one then y else 0) := by
  have hw2 := hw.montSquare hs.p
  have hw3 := hw2.montMult hs.p hw
  have hX := hw2.montMult hs.p h.x2
  have hY := hw3.montMult hs.p h.y2
  unfold applyInverse
  simp only [hone, sbFeCtswap_flag]
  by_cases h1 : one
  · simp only [if_pos h1]
    exact ⟨(hX.modAdd hs.p hx).montReduce hs.p,
      ((hY.modAdd hs.p hy).of_eq (by ring)).montReduce hs.p⟩
  · simp only [if_neg h1, add_zero]
    exact ⟨hX.montReduce hs.p, (hY.of_eq (by ring)).montReduce hs.p⟩

theorem invertBack_spec (hs : s.Consistent curve) {m : SbSwContext W} {k : Nat}
    {y : curve.Coordinate} (hy : m.y1.Stands y)
    (hk : m.k.value + 2 ^ 256 = regularScalar curve.N k) (hk' : k < 2 ^ 255) {inv : Bool}
    (hinv : m.state.inv_k = flag W (inv = true)) :
    (invertBack m s).x1 = m.x1 ∧ (invertBack m s).y1.Stands (signed inv y) ∧
      (invertBack m s).k.Stands (signed inv (k : ZMod curve.N)) := by
  have hN := hs.n.value
  have hwide := hs.wide
  have hlt := m.k.value_lt
  have hsub := sbFeSub_value m.k s.n.p
  rw [hN] at hsub
  rw [regularScalar] at hk
  have hcast : ((sbFeSub m.k s.n.p).1.value : ZMod curve.N) = k := by
    split at hk
    · have hvalue : (sbFeSub m.k s.n.p).1.value = k := by
        split at hsub <;> omega
      rw [hvalue]
    · have hvalue : (sbFeSub m.k s.n.p).1.value = k + curve.N := by
        split at hsub <;> omega
      rw [hvalue, Nat.cast_add, ZMod.natCast_self, add_zero]
  have hreduced := sbFeModReduce_stands hN hs.n.wide (sbFeSub m.k s.n.p).1
  rw [hcast] at hreduced
  unfold invertBack
  simp only [hinv, sbFeCtswap_flag]
  cases inv with
  | true => exact ⟨trivial, sbFeModNegate_stands hs.p.value hy, sbFeModNegate_stands hN hreduced⟩
  | false => exact ⟨trivial, hy, hreduced⟩

theorem held_swapPoints (m : SbSwContext W) (b : SbWord W) : (m.swapPoints b).held = m.held := by
  obtain ⟨_, _, _, _, _, _, _, _, _, _, _, ⟨_, _, _, _, _, _, _, _⟩, _⟩ := m
  exact held_eq rfl rfl rfl rfl rfl rfl rfl rfl rfl

theorem held_recoverZ (m : SbSwContext W) (b : SbWord W) : (recoverZ m b s).held = m.held := by
  obtain ⟨_, _, _, _, _, _, _, _, _, _, _, ⟨_, _, _, _, _, _, _, _⟩, _⟩ := m
  exact held_eq rfl rfl rfl rfl rfl rfl rfl rfl rfl

theorem held_sbSwPointCoZAddUpdate (m : SbSwContext W) :
    (sbSwPointCoZAddUpdate m s).held = m.held := by
  obtain ⟨_, _, _, _, _, _, _, _, _, _, _, ⟨_, _, _, _, _, _, _, _⟩, _⟩ := m
  exact held_eq rfl rfl rfl rfl rfl rfl rfl rfl rfl

theorem t8_sbSwPointCoZAddUpdate (m : SbSwContext W) : (sbSwPointCoZAddUpdate m s).t8 = m.t8 := by
  cases m
  rfl

theorem t8_swapPoints (m : SbSwContext W) (b : SbWord W) : (m.swapPoints b).t8 = m.t8 := rfl

theorem held_applyInverse (m : SbSwContext W) : (applyInverse m s).held = m.held := by
  obtain ⟨_, _, _, _, _, _, _, _, _, _, _, ⟨_, _, _, _, _, _, _, _⟩, _⟩ := m
  exact held_eq rfl rfl rfl rfl rfl rfl rfl rfl rfl

/-- The registers through the whole stage. -/
theorem finishLadder_registers (hs : s.Consistent curve) {m : SbSwContext W}
    {q : CoZPair curve.Coordinate} {x y : curve.Coordinate} {swapped inv : Bool} {k : Nat}
    {one : Prop} [Decidable one] (h : m.Pair q) (hswap : m.state.swap = flag W (swapped = true))
    (hx : m.point.x.Holds x) (hy : m.point.y.Holds y) (hone : m.state.k_one = flag W one)
    (hk : m.k.value + 2 ^ 256 = regularScalar curve.N k) (hk' : k < 2 ^ 255)
    (hinv : m.state.inv_k = flag W (inv = true)) :
    let b := (regularScalar curve.N k).testBit 0
    let c := (q.swapIf (swapped ^^ b)).conjAdd
    let w := c.x2 * (y * (x * (c.y2 * if b then c.x2 - c.x1 else c.x1 - c.x2))⁻¹)
    let r := c.addUpdate.swapIf (!b)
    (finishLadder m s).x1.Stands (w ^ 2 * r.x2 + if one then x else 0) ∧
      (finishLadder m s).y1.Stands (signed inv (w ^ 3 * r.y2 + if one then y else 0)) ∧
      (finishLadder m s).k.Stands (signed inv (k : ZMod curve.N)) := by
  intro b
  have hb : sbFeTestBit m.k 0 = flag W (b = true) := by
    have hbit := sbFeTestBit_eq m.k (show (0 : SbBitcount).toNat < 256 by decide)
    rw [hbit]
    congr 2
    change m.k.value.testBit 0 = _
    rw [← testBit_add_two_pow _ (by decide), hk]
  unfold finishLadder
  rw [hb]
  dsimp only
  have hxor : m.state.swap ^^^ flag W (b = true) = flag W ((swapped ^^ b) = true) := by
    rw [hswap, flag_xor]
  have hheld : held { m with state.swap := m.state.swap ^^^ flag W (b = true) } = m.held := rfl
  have hstart : Pair { m with state.swap := m.state.swap ^^^ flag W (b = true) } q :=
    ⟨h.x1, h.y1, h.x2, h.y2⟩
  generalize ({ m with state.swap := m.state.swap ^^^ flag W (b = true) } : SbSwContext W) = c1
    at hheld hstart ⊢
  rw [hxor]
  have hordered := hstart.swapPoints (swapped ^^ b)
  replace hheld := (held_swapPoints c1 (flag W ((swapped ^^ b) = true))).trans hheld
  generalize c1.swapPoints (flag W ((swapped ^^ b) = true)) = c2 at hheld hordered ⊢
  have hpoint : c2.point = m.point := congrArg Held.point hheld
  obtain ⟨hrecovered, hw⟩ :=
    hordered.recoverZ hs b (by rw [hpoint]; exact hx) (by rw [hpoint]; exact hy)
  replace hheld := (held_recoverZ (s := s) c2 (flag W (b = true))).trans hheld
  generalize recoverZ c2 (flag W (b = true)) s = c3 at hheld hrecovered hw ⊢
  have hadded := (hrecovered.addUpdate hs.p).1
  rw [← t8_sbSwPointCoZAddUpdate (s := s)] at hw
  replace hheld := (held_sbSwPointCoZAddUpdate (s := s) c3).trans hheld
  generalize sbSwPointCoZAddUpdate c3 s = c4 at hheld hadded hw ⊢
  rw [flag_xor_one]
  have hresult := hadded.swapPoints (!b)
  rw [← t8_swapPoints c4 (flag W ((!b) = true))] at hw
  replace hheld := (held_swapPoints c4 (flag W ((!b) = true))).trans hheld
  generalize c4.swapPoints (flag W ((!b) = true)) = c5 at hheld hresult hw ⊢
  have hpoint' : c5.point = m.point := congrArg Held.point hheld
  have hone' : c5.state.k_one = flag W one := (congrArg Held.k_one hheld).trans hone
  obtain ⟨hX, hY⟩ := applyInverse_spec hs hresult hw (by rw [hpoint']; exact hx)
    (by rw [hpoint']; exact hy) hone'
  replace hheld := (held_applyInverse (s := s) c5).trans hheld
  generalize applyInverse c5 s = c6 at hheld hX hY ⊢
  have hk6 : c6.k = m.k := congrArg Held.k hheld
  have hinv6 : c6.state.inv_k = flag W (inv = true) := (congrArg Held.inv_k hheld).trans hinv
  obtain ⟨hX', hY', hk''⟩ := invertBack_spec hs hY (by rw [hk6, hk]) hk' hinv6
  rw [← hX'] at hX
  exact ⟨hX, hY', hk''⟩

theorem some_signed {x y : curve.Coordinate} {h} (inv : Bool) :
    ∃ h', signed inv (.some x y h : curve.Point) = .some x (signed inv y) h' := by
  cases inv with
  | true => exact shortCurve.neg_some h
  | false => exact ⟨h, rfl⟩

/-- With the inverse of the last coordinate at hand. -/
theorem affine_of_represents {X Y Z : curve.Coordinate} {Q : curve.Point}
    (h : (⟨X, Y, Z⟩ : Triple curve.Coordinate).Represents Q) :
    ∃ h', Q = .some (Z⁻¹ ^ 2 * X) (Z⁻¹ ^ 3 * Y) h' := by
  obtain ⟨-, h', rfl⟩ := h
  refine shortCurve.some_eq rfl ?_ ?_
  · rw [inv_pow, mul_comm, ← div_eq_mul_inv]
  · rw [inv_pow, mul_comm, ← div_eq_mul_inv]

theorem last_nsmul (hs : s.Consistent curve) {Q : curve.Point} (hQ : Q ≠ 0) (k : Nat) :
    (2 * (regularScalar curve.N k / 2) + ((regularScalar curve.N k).testBit 0).toNat) • Q =
      k • Q := by
  have h0 := rung_succ (regularScalar curve.N k) 0
  rw [Nat.pow_zero, Nat.div_one, Nat.zero_add, Nat.pow_one] at h0
  rw [← h0]
  apply nsmul_eq_of_cast hs hQ
  rw [regularScalar]
  split <;> simp

theorem finishLadder_keeps (m : SbSwContext W) :
    (finishLadder m s).state.operation = m.state.operation ∧
      (finishLadder m s).state.curve_id = m.state.curve_id ∧
      (finishLadder m s).message = m.message ∧ (finishLadder m s).priv = m.priv := by
  obtain ⟨_, _, _, _, _, _, _, _, _, _, _, ⟨_, _, _, _, _, _, _, _⟩, _⟩ := m
  exact ⟨rfl, rfl, rfl, rfl⟩

theorem finishLadder_spec (hs : s.Consistent curve) {m m' : SbSwContext W} {Q Q' : curve.Point}
    {k : Nat} {inv : Bool} (hm : Underway m Q Q' k inv m'.held) (hladder : LadderAt Q' k 0 m') :
    ∃ x y h, m.k.value • Q = (.some x y h : curve.Point) ∧ (finishLadder m' s).x1.Stands x ∧
      (finishLadder m' s).y1.Stands y ∧
      (finishLadder m' s).k.Stands (signed inv (k : ZMod curve.N)) := by
  obtain ⟨-, hscalar, q, swapped, hpair, hswap, hposition⟩ := hladder
  have hproduct := hm.product
  have hlt := hm.lt
  have hpos := hm.pos
  obtain ⟨x, y, h, rfl, hx0, hx, hy⟩ := hm.point
  have hQ' : (.some x y h : curve.Point) ≠ 0 := WeierstrassCurve.Affine.Point.some_ne_zero h
  have hregisters := finishLadder_registers hs hpair hswap hx hy hm.k_one hscalar hm.lt hm.inv_k
  by_cases hone : k = 1
  · subst hone
    obtain ⟨h', hsigned⟩ := some_signed (h := h) inv
    rw [one_nsmul, hsigned] at hproduct
    rw [Position, if_pos ⟨rfl, rfl⟩] at hposition
    obtain ⟨u, rfl⟩ := hposition
    simp only [CoZPair.conjAdd_collapsed, CoZPair.addUpdate_zero] at hregisters
    have hzero : ∀ b, (CoZPair.swapIf b (⟨0, 0, 0, 0⟩ : CoZPair curve.Coordinate)) =
        ⟨0, 0, 0, 0⟩ := by
      intro b
      cases b <;> rfl
    simp only [hzero, mul_zero, zero_mul, zero_add, if_true] at hregisters
    exact ⟨x, _, h', hproduct.symm, hregisters⟩
  · rw [Position, if_neg (by omega), Nat.zero_add, Nat.pow_one] at hposition
    have hnot : ∀ j ≤ 2, ¬ curve.N ∣ 2 * (regularScalar curve.N k / 2) + j := fun j hj =>
      not_dvd_rung (N_odd hs) hs.wide hs.narrow hlt (by omega) (i := 0) (by decide) hj
    obtain ⟨z, hd, hne, hlast⟩ := hposition.last ((regularScalar curve.N k).testBit 0) hQ'
      ((nsmul_ne_zero_iff hs hQ').2 (hnot 0 (by decide)))
      ((nsmul_ne_zero_iff hs hQ').2 (hnot 2 (by decide)))
      ((nsmul_ne_zero_iff hs hQ').2 (hnot 1 (by decide)))
    have hdouble := Curve.add_self_ne_zero (Curve.N_nsmul_of_addOrderOf (hs.order hQ')) hQ'
    have hrecover := hd.recover hx0 (Curve.snd_ne_zero hdouble) hne
    rw [last_nsmul hs hQ'] at hlast
    simp only [if_neg hone, add_zero, hrecover] at hregisters
    obtain ⟨h', hsome⟩ := affine_of_represents hlast
    obtain ⟨h'', hsigned⟩ := some_signed (h := h') inv
    rw [hsome, hsigned] at hproduct
    exact ⟨_, _, h'', hproduct.symm, hregisters⟩

/-! ## The whole run -/

theorem stage_ladderTurns (ops : Nat) (m : SbSwContext W) :
    (ladderTurns s ops m).state.stage = m.state.stage := by
  induction ops generalizing m with
  | zero => rfl
  | succ ops ih =>
      rw [ladderTurns]
      split
      · rfl
      · rw [ih]
        obtain ⟨_, _, _, _, _, _, _, _, _, _, _, ⟨_, _, _, _, _, _, _, _⟩, _⟩ := m
        rfl

/-- What a call answers is whether it left the multiplication finished. -/
theorem sbSwPointMultContinue_snd (m : SbSwContext W) :
    (sbSwPointMultContinue m s).2 = sbSwPointMultIsFinished (sbSwPointMultContinue m s).1 := by
  rw [sbSwPointMultContinue]
  split
  · next hladder =>
      have hstage := (stage_ladderTurns (s := s) SB_SW_POINT_ITERATIONS m).trans hladder
      simp only [sbSwPointMultIsFinished]
      split
      · rfl
      · rw [hstage]
        rfl
  · split <;> rfl

/-- One call in the ladder's stage. -/
theorem sbSwPointMultContinue_ladder (hs : s.Consistent curve) {m : SbSwContext W}
    {Q : curve.Point} {k i : Nat} (hQ : Q ≠ 0) (hk : 1 ≤ k) (hk' : k < 2 ^ 255) (hi : i ≤ 255)
    (h : LadderAt Q k i m) (hstage : m.state.stage = SB_SW_POINT_MULT_OP_STAGE_LADDER) :
    ∃ m', sbSwPointMultContinue m s = (m', false) ∧ LadderAt Q k (i - 16) m' ∧
      m'.held = m.held ∧ m'.state.stage =
        if i ≤ 16 then SB_SW_POINT_MULT_OP_STAGE_INV_Z else SB_SW_POINT_MULT_OP_STAGE_LADDER := by
  have hturns := h.turns hs hQ hk hk' SB_SW_POINT_ITERATIONS hi
  have hheld := held_ladderTurns s SB_SW_POINT_ITERATIONS m
  have hstage' := (stage_ladderTurns (s := s) SB_SW_POINT_ITERATIONS m).trans hstage
  rw [sbSwPointMultContinue, if_pos hstage]
  generalize ladderTurns s SB_SW_POINT_ITERATIONS m = c at hturns hheld hstage' ⊢
  change LadderAt Q k (i - 16) c at hturns
  have hzero : c.state.i = 0 ↔ i ≤ 16 := by
    have hbit := hturns.bit
    constructor
    · intro h0
      rw [h0] at hbit
      change 0 = i - 16 at hbit
      omega
    · intro hle
      apply BitVec.eq_of_toNat_eq
      rw [hbit]
      change i - 16 = 0
      omega
  by_cases hle : i ≤ 16
  · simp only [if_pos (hzero.2 hle), if_pos hle]
    obtain ⟨hbit, hscalar, q, swapped, hpair, hswap, hposition⟩ := hturns
    exact ⟨_, rfl, ⟨hbit, hscalar, q, swapped, ⟨hpair.x1, hpair.y1, hpair.x2, hpair.y2⟩, hswap,
      hposition⟩, hheld, rfl⟩
  · simp only [if_neg (hzero.not.2 hle), if_neg hle]
    exact ⟨_, rfl, hturns, hheld, hstage'⟩

/-- `calls` calls take the ladder to its end, when that many are enough. -/
theorem untilDone_ladder (hs : s.Consistent curve) {Q : curve.Point} {k : Nat} (hQ : Q ≠ 0)
    (hk : 1 ≤ k) (hk' : k < 2 ^ 255) (calls : Nat) {m : SbSwContext W} {i : Nat}
    (hi : i ≤ 255) (hpos : 1 ≤ i) (hcalls : i ≤ 16 * calls) (h : LadderAt Q k i m)
    (hstage : m.state.stage = SB_SW_POINT_MULT_OP_STAGE_LADDER) :
    ∃ m', LadderAt Q k 0 m' ∧ m'.held = m.held ∧ ∀ more,
      untilDone (sbSwPointMultContinue · s) (calls + (more + 1)) m = some (finishLadder m' s) := by
  induction calls generalizing m i with
  | zero => omega
  | succ calls ih =>
      obtain ⟨c, hcontinue, hladder, hheld, hstage'⟩ :=
        sbSwPointMultContinue_ladder hs hQ hk hk' hi h hstage
      have hstep : ∀ n, untilDone (sbSwPointMultContinue · s) (calls + 1 + n) m =
          untilDone (sbSwPointMultContinue · s) (calls + n) c := by
        intro n
        rw [show calls + 1 + n = calls + n + 1 by omega, untilDone, hcontinue]
        rfl
      by_cases hle : i ≤ 16
      · rw [if_pos hle] at hstage'
        rw [Nat.sub_eq_zero_of_le hle] at hladder
        refine ⟨c, hladder, hheld, fun more => ?_⟩
        have hne : c.state.stage ≠ SB_SW_POINT_MULT_OP_STAGE_LADDER := by
          rw [hstage']
          decide
        rw [hstep, ← Nat.add_assoc, untilDone, sbSwPointMultContinue, if_neg hne, if_pos hstage']
        rfl
      · rw [if_neg hle] at hstage'
        obtain ⟨m', hzero, hheld', hrun⟩ := ih (by omega) (by omega) (by omega) hladder hstage'
        exact ⟨m', hzero, hheld'.trans hheld, fun more => by rw [hstep, hrun]⟩

/-- A multiplication from its start to its end: the affine coordinates of the
multiple, and the scalar as it was. -/
theorem sbSwPointMult_run (hs : s.Consistent curve) {m : SbSwContext W} {Q : curve.Point}
    {z : curve.Coordinate} (hpoint : m.point.Holds Q) (hpos : 0 < m.k.value)
    (hlt : m.k.value < curve.N) (hz : m.z.Holds z) (hz0 : z ≠ 0) (hswap : m.state.swap = 0)
    {calls : Nat} (hcalls : 17 ≤ calls) :
    ∃ m', untilDone (sbSwPointMultContinue · s) calls (sbSwPointMultStart m s) = some m' ∧
      (∃ x y h, m.k.value • Q = (.some x y h : curve.Point) ∧ m'.x1.Stands x ∧ m'.y1.Stands y) ∧
      (m.point.HoldsNonzero Q → m'.k = m.k) ∧
      m'.state.stage = SB_SW_POINT_MULT_OP_DONE ∧
      m'.state.operation = m.state.operation ∧ m'.state.curve_id = m.state.curve_id ∧
      m'.message = m.message ∧ m'.priv = m.priv := by
  obtain ⟨Q', k, inv, hunderway, hladder, hstage⟩ :=
    sbSwPointMultStart_spec hs hpoint hpos hlt hz hz0 hswap
  have hQ' := SbFePair.HoldsNonzero.ne_zero hunderway.point
  obtain ⟨c, hend, hheld, hrun⟩ := untilDone_ladder hs hQ' hunderway.pos hunderway.lt 16
    (by omega) (by omega) (by omega) hladder hstage
  rw [← hheld] at hunderway
  obtain ⟨x, y, h, hproduct, hx, hy, hk⟩ := finishLadder_spec hs hunderway hend
  obtain ⟨hoperation, hcurve_id, hmessage, hpriv⟩ := finishLadder_keeps (s := s) c
  have hcalls' := hrun (calls - 17)
  rw [show 16 + (calls - 17 + 1) = calls by omega] at hcalls'
  refine ⟨_, hcalls', ⟨x, y, h, hproduct, hx, hy⟩, fun hnonzero => ?_, rfl,
    hoperation.trans hunderway.operation, hcurve_id.trans hunderway.curve_id,
    hmessage.trans hunderway.message, hpriv.trans hunderway.priv⟩
  rw [hunderway.scalar hnonzero] at hk
  exact Stands.unique hk ⟨hpos, hlt.le, rfl⟩

end SbSwContext

end DataProcessor
