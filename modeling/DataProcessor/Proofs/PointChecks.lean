import DataProcessor.Model.PointChecks
import DataProcessor.Proofs.PointMultiplication
import DataProcessor.Proofs.SwCurvePoints

/-!
# What the checks accept

A scalar is accepted exactly when it is neither zero nor too large, and a
point exactly when its coordinates are below the prime and satisfy the
curve's equation; the test for a zero second coordinate rejects nothing that
the equation accepts, since no point has order two.

A first coordinate is decompressed to one of the two points it has, by the
parity of the second, and rejected when it has none.
-/

namespace DataProcessor

open Lib SbFe

variable {W : SbWordSize}

theorem flag_and (P Q : Prop) [Decidable P] [Decidable Q] :
    flag W P &&& flag W Q = flag W (P ∧ Q) := by
  by_cases hP : P
  · by_cases hQ : Q
    · simp [flag, hP, hQ]
    · simp [flag, hP, hQ]
  · simp [flag, hP]

theorem one_and_flag (P : Prop) [Decidable P] : 1 &&& flag W P = flag W P := by
  by_cases hP : P
  · simp [flag, hP]
  · simp [flag, hP]

theorem sbNot_flag (P : Prop) [Decidable P] : sbNot (flag W P) = flag W (¬ P) := by
  by_cases hP : P
  · rw [flag_of hP, flag_of_not (not_not.2 hP), sbNot, if_neg (one_ne_zero_word W)]
  · rw [flag_of_not hP, flag_of hP, sbNot, if_pos rfl]

theorem flag_congr {P Q : Prop} [Decidable P] [Decidable Q] (h : P ↔ Q) :
    flag W P = flag W Q := by
  simp only [h]

/-! ## Numbers in range -/

section

variable {p : SbPrimeField W} {m : Nat} (hp : p.Consistent m)

include hp

theorem reduced_eq_prime_iff {a : SbFe W} (hlt : a.value < m) :
    sbFeModReduce a p = p.p ↔ a.value = 0 := by
  have hstands := sbFeModReduce_stands hp.value hp.wide a
  rw [hstands.eq_iff (prime_stands hp.value hp.prime.pos), ZMod.natCast_eq_zero_iff]
  constructor
  · intro hdvd
    exact Nat.eq_zero_of_dvd_of_lt hdvd hlt
  · intro h0
    rw [h0]
    exact dvd_zero m

/-- The test that scalars and last coordinates go through. -/
theorem validate_flag (a : SbFe W) :
    1 &&& sbFeLt a p.p &&& sbNot (sbFeEqual (sbFeModReduce a p) p.p) =
      flag W (0 < a.value ∧ a.value < m) := by
  rw [sbFeLt_eq, sbFeEqual_eq, sbNot_flag, one_and_flag, flag_and, hp.value]
  apply flag_congr
  constructor
  · rintro ⟨hlt, hne⟩
    exact ⟨Nat.pos_of_ne_zero ((reduced_eq_prime_iff hp hlt).not.1 hne), hlt⟩
  · rintro ⟨hpos, hlt⟩
    exact ⟨hlt, (reduced_eq_prime_iff hp hlt).not.2 hpos.ne'⟩

/-- A number in range stays as it is. -/
theorem sbFeModReduce_eq {a : SbFe W} (hpos : 0 < a.value) (hlt : a.value < m) :
    sbFeModReduce a p = a :=
  (sbFeModReduce_stands hp.value hp.wide a).unique ⟨hpos, hlt.le, rfl⟩

end

variable {s : SbSwCurve W} {curve : Curve} (hs : s.Consistent curve)

include hs

theorem sbSwScalarValidate_flag (k : SbFe W) :
    (sbSwScalarValidate k s).2 = flag W (0 < k.value ∧ k.value < curve.N) :=
  validate_flag hs.n k

omit hs in
theorem sbSwScalarValidate_flag_one :
    (sbSwScalarValidate (SB_FE_ONE .two) (SB_CURVE_SECP256K1 .two)).2 = flag .two
      (0 < (SB_FE_ONE .two).value ∧ (SB_FE_ONE .two).value < Curve.N .SECP_256_K1) :=
  sbSwScalarValidate_flag (consistent_SECP256K1 .two) (SB_FE_ONE .two)

theorem sbSwScalarValidate_fst {k : SbFe W} (hpos : 0 < k.value) (hlt : k.value < curve.N) :
    (sbSwScalarValidate k s).1 = k :=
  sbFeModReduce_eq hs.n hpos hlt

theorem sbSwZValidate_flag (z : SbFe W) :
    (sbSwZValidate z s).2 = flag W (0 < z.value ∧ z.value < curve.P) :=
  validate_flag hs.p z

theorem sbSwZValidate_fst {z : SbFe W} (hpos : 0 < z.value) (hlt : z.value < curve.P) :
    (sbSwZValidate z s).1 = z :=
  sbFeModReduce_eq hs.p hpos hlt

/-! ## Points -/

theorem sbSwCurveY2_stands {c : SbSwContext W} {x : curve.Coordinate} (hx : c.x1.Stands x) :
    (sbSwCurveY2 c s).y1.Stands (x ^ 3 + curve.A * x + curve.B : curve.Coordinate) := by
  have hp := hs.p
  have ht5 := Holds.montConvert_stands hp hx
  have ht6 := sbFeModSub_stands hp.value (ht5.montMult_stands hp hx) hs.minus_a
  have hy1 := sbFeModAdd_stands hp.value (ht5.montMult_stands hp ht6) hs.b
  have hvalue : x * (x * x - -(curve.A : curve.Coordinate)) + curve.B =
      x ^ 3 + curve.A * x + curve.B := by
    ring
  rw [hvalue] at hy1
  exact hy1

/-- No point has the second coordinate zero, since none has order two. -/
theorem snd_ne_zero {x y : curve.Coordinate} (h : y ^ 2 = x ^ 3 + curve.A * x + curve.B) :
    y ≠ 0 := by
  have hQ := WeierstrassCurve.Affine.Point.some_ne_zero (Curve.nonsingular_of_equation h)
  exact Curve.snd_ne_zero
    (Curve.add_self_ne_zero (Curve.N_nsmul_of_addOrderOf (hs.order hQ)) hQ)

omit hs in
theorem onCurve_iff {x y : Nat} : curve.OnCurve x y ↔
    (y : curve.Coordinate) ^ 2 = x ^ 3 + curve.A * x + curve.B := by
  refine ⟨Curve.OnCurve.equation, fun h => ?_⟩
  rw [Curve.OnCurve, ← ZMod.natCast_eq_natCast_iff']
  exact_mod_cast h

theorem sbSwPointValidate_flag (c : SbSwContext W) :
    (sbSwPointValidate c s).2 = flag W (c.point.x.value < curve.P ∧ c.point.y.value < curve.P ∧
      curve.OnCurve c.point.x.value c.point.y.value) := by
  have hp := hs.p
  have hfact := Fact.mk hp.prime
  have hx := sbFeModReduce_stands hp.value hp.wide c.point.x
  have hy := sbFeModReduce_stands hp.value hp.wide c.point.y
  have hy2 := Holds.montConvert_stands hp ((Holds.of_stands hp hy).montMult_stands hp hy)
  have hsquare : ((c.point.y.value : curve.Coordinate) * (2 ^ 256)⁻¹ * c.point.y.value) * 2 ^ 256 =
      c.point.y.value ^ 2 := by
    calc _ = (c.point.y.value : curve.Coordinate) ^ 2 * ((2 ^ 256)⁻¹ * 2 ^ 256) := by ring
      _ = _ := by rw [inv_mul_cancel₀ hp.R_ne_zero, mul_one]
  rw [Holds, Nat.cast_ofNat, hsquare] at hy2
  have hy1 := sbSwCurveY2_stands hs (x := (c.point.x.value : curve.Coordinate))
    (c := { c with
      point := ⟨sbFeModReduce c.point.x s.p, sbFeModReduce c.point.y s.p⟩
      t5 := sbFeMontSquare (sbFeModReduce c.point.y s.p) s.p
      y2 := sbFeMontConvert (sbFeMontSquare (sbFeModReduce c.point.y s.p) s.p) s.p
      x1 := sbFeModReduce c.point.x s.p }) hx
  have hr : (sbSwPointValidate c s).2 =
      1 &&& sbNot (sbFeEqual c.point.y (SB_FE_ZERO W)) &&&
        (sbFeLt c.point.x s.p.p &&& sbFeLt c.point.y s.p.p) &&&
        flag W ((c.point.x.value ^ 3 + curve.A * c.point.x.value + curve.B : curve.Coordinate) =
          c.point.y.value ^ 2) := by
    rw [← hy1.sbFeEqual_eq hy2]
    rfl
  rw [hr, sbFeEqual_eq, sbNot_flag, one_and_flag, sbFeLt_eq, sbFeLt_eq, hp.value, flag_and,
    flag_and, flag_and]
  apply flag_congr
  constructor
  · rintro ⟨⟨-, hxlt, hylt⟩, heq⟩
    exact ⟨hxlt, hylt, onCurve_iff.2 heq.symm⟩
  · rintro ⟨hxlt, hylt, hon⟩
    have heq := onCurve_iff.1 hon
    refine ⟨⟨?_, hxlt, hylt⟩, heq.symm⟩
    intro h0
    apply snd_ne_zero hs heq
    rw [h0, SB_FE_ZERO_value, Nat.cast_zero]

theorem sbSwPointValidate_point (c : SbSwContext W) :
    (sbSwPointValidate c s).1.point.x.Stands (c.point.x.value : curve.Coordinate) ∧
      (sbSwPointValidate c s).1.point.y.Stands (c.point.y.value : curve.Coordinate) :=
  ⟨sbFeModReduce_stands hs.p.value hs.p.wide c.point.x,
    sbFeModReduce_stands hs.p.value hs.p.wide c.point.y⟩

/-- The coordinates of the base point. -/
def basePointP256 : SbFePair .four where
  x := sbFeConst .four 0x6B17D1F2E12C4247 0xF8BCE6E563A440F2 0x77037D812DEB33A0 0xF4A13945D898C296
  y := sbFeConst .four 0x4FE342E2FE1A7F9B 0x8EE7EB4A7C0F9E16 0x2BCE33576B315ECE 0xCBB6406837BF51F5

omit hs in
theorem sbSwPointValidate_flag_base :
    let c : SbSwContext .four := { SbSwContext.null .four with point := basePointP256 }
    (c.point.x.value = Curve.Gx .SECP_256_R1 ∧ c.point.y.value = Curve.Gy .SECP_256_R1) ∧
      (sbSwPointValidate c (SB_CURVE_P256 .four)).2 = 1 := by
  intro c
  refine ⟨by decide, (sbSwPointValidate_flag (consistent_P256 .four) c).trans ?_⟩
  exact flag_of (by decide)

/-! ## Decompression -/

omit hs in
/-- The parity of a residue is that of the element, and it changes with the
sign. -/
theorem sbFeTestBit_zero {m : Nat} [NeZero m] {a : SbFe W} {u : ZMod m} (h : a.Stands u)
    (hu : u ≠ 0) : sbFeTestBit a 0 = flag W (decide (u.val % 2 = 1) = true) := by
  have htest : u.val.testBit (BitVec.toNat (0 : SbBitcount)) = decide (u.val % 2 = 1) := by
    rw [show BitVec.toNat (0 : SbBitcount) = 0 from rfl, Nat.testBit_zero]
  rw [sbFeTestBit_eq _ (by decide), h.value_eq hu, htest]

omit hs in
theorem val_neg_odd_iff {m : Nat} [NeZero m] (hodd : m % 2 = 1) {u : ZMod m} (hu : u ≠ 0) :
    (-u).val % 2 = 1 ↔ ¬ u.val % 2 = 1 := by
  have hlt := u.val_lt
  rw [ZMod.neg_val, if_neg hu]
  omega

/-- Whether the coordinate has a point, and then that point's other
coordinate, by its parity. -/
theorem sbSwPointDecompress_spec (c : SbSwContext W) (sign : Bool) :
    let x := (c.point.x.value : curve.Coordinate)
    let result := sbSwPointDecompress c (flag W (sign = true)) s
    ∃ found : Bool, result.2 = flag W (found = true) ∧ result.1.point.x.Stands x ∧
      (found = true ↔ c.point.x.value < curve.P ∧
        ∃ y : curve.Coordinate, y ^ 2 = x ^ 3 + curve.A * x + curve.B) ∧
      (found = true → ∃ y : curve.Coordinate, result.1.point.y.Stands y ∧
        y ^ 2 = x ^ 3 + curve.A * x + curve.B ∧ (y.val % 2 = 1 ↔ sign = true)) := by
  intro x result
  have hp := hs.p
  have hfact := Fact.mk hp.prime
  have hx := sbFeModReduce_stands hp.value hp.wide c.point.x
  have hy2 := sbSwCurveY2_stands hs (x := x)
    (c := { c with
      point := ⟨sbFeModReduce c.point.x s.p, c.point.y⟩
      x1 := sbFeModReduce c.point.x s.p }) hx
  obtain ⟨c', hc'⟩ : ∃ c', sbSwCurveY2 { c with
      point := ⟨sbFeModReduce c.point.x s.p, c.point.y⟩
      x1 := sbFeModReduce c.point.x s.p } s = c' := ⟨_, rfl⟩
  rw [hc'] at hy2
  obtain ⟨u, hu, hsquare, hroot⟩ := sbFeModSqrt_spec hp hs.four hy2.pos
  rw [hy2.residue] at hsquare hroot
  have hr : result.2 = 1 &&& sbFeLt c.point.x s.p.p &&&
      (if (sbFeModSqrt c'.y1 s.p).2 then 1 else 0) := by
    rw [← hc']
    rfl
  have hy : result.1.point.y = (sbFeCtswap (sbFeTestBit (sbFeModSqrt c'.y1 s.p).1 0 ^^^
      flag W (sign = true)) (sbFeModSqrt c'.y1 s.p).1
      (sbFeModNegate (sbFeModSqrt c'.y1 s.p).1 s.p)).1 := by
    rw [← hc']
    rfl
  refine ⟨decide (c.point.x.value < curve.P) && (sbFeModSqrt c'.y1 s.p).2, ?_, hx, ?_, ?_⟩
  · rw [hr, sbFeLt_eq, one_and_flag, hp.value]
    change _ &&& flag W ((sbFeModSqrt c'.y1 s.p).2 = true) = _
    rw [flag_and]
    apply flag_congr
    rw [Bool.and_eq_true, decide_eq_true_eq]
  · rw [Bool.and_eq_true, decide_eq_true_eq, hsquare, isSquare_iff_exists_sq]
    simp only [eq_comm]
  · intro hfound
    rw [Bool.and_eq_true] at hfound
    have hroot' := hroot hfound.2
    have hne := snd_ne_zero hs hroot'
    rw [hy, sbFeTestBit_zero hu hne, flag_xor, sbFeCtswap_flag]
    by_cases hodd : u.val % 2 = 1
    · cases sign with
      | true => exact ⟨u, by simpa [hodd] using hu, hroot', by simpa using hodd⟩
      | false =>
          refine ⟨-u, ?_, by rw [neg_sq, hroot'], ?_⟩
          · simpa [hodd] using sbFeModNegate_stands hp.value hu
          · simpa [val_neg_odd_iff hp.odd hne] using hodd
    · cases sign with
      | true =>
          refine ⟨-u, ?_, by rw [neg_sq, hroot'], ?_⟩
          · simpa [hodd] using sbFeModNegate_stands hp.value hu
          · simpa [val_neg_odd_iff hp.odd hne] using hodd
      | false => exact ⟨u, by simpa [hodd] using hu, hroot', by simpa using hodd⟩

omit hs in
/-- The base point's first coordinate, with the bit of its second. -/
theorem sbSwPointDecompress_spec_base :
    let x : SbFe .eight := sbFeConst .eight 0x79BE667EF9DCBBAC 0x55A06295CE870B07
      0x029BFCDB2DCE28D9 0x59F2815B16F81798
    let c : SbSwContext .eight := { SbSwContext.null .eight with point := ⟨x, SB_FE_ZERO .eight⟩ }
    let curve := Curve.SECP_256_K1
    let result := sbSwPointDecompress c (flag .eight (false = true)) (SB_CURVE_SECP256K1 .eight)
    result.2 = 1 ∧ result.1.point.x.Stands (curve.Gx : curve.Coordinate) ∧
      ∃ y : curve.Coordinate, result.1.point.y.Stands y ∧
        y ^ 2 = curve.Gx ^ 3 + curve.A * curve.Gx + curve.B ∧ y.val % 2 = 0 := by
  intro x c curve result
  have hx : c.point.x.value = curve.Gx := by decide
  obtain ⟨found, hflag, hstands, hiff, hroot⟩ :=
    sbSwPointDecompress_spec (consistent_SECP256K1 .eight) c false
  rw [hx] at hstands hiff hroot
  have hfound : found = true :=
    hiff.2 ⟨by decide, curve.Gy, Curve.base_equation _⟩
  obtain ⟨y, hy, hequation, hparity⟩ := hroot hfound
  refine ⟨by rw [hflag, hfound]; rfl, hstands, y, hy, hequation, ?_⟩
  have heven := mt hparity.1 nofun
  omega

omit hs in
/-- The base point times one, by the whole multiplication. -/
theorem sbSwPointMult_run_base :
    let s := SB_CURVE_P256 .four
    let m : SbSwContext .four :=
      { SbSwContext.null .four with k := SB_FE_ONE .four, z := s.p.r_mod_p, point := s.g_r }
    ∃ m', untilDone (sbSwPointMultContinue · s) 17 (sbSwPointMultStart m s) = some m' ∧
      (∃ x y h, m.k.value • Curve.G .SECP_256_R1 =
        (.some x y h : Curve.Point .SECP_256_R1) ∧ m'.x1.Stands x ∧ m'.y1.Stands y) ∧
      (m.point.HoldsNonzero (Curve.G .SECP_256_R1) → m'.k = m.k) ∧
      m'.state.stage = SB_SW_POINT_MULT_OP_DONE ∧
      m'.state.operation = m.state.operation ∧ m'.state.curve_id = m.state.curve_id ∧
      m'.message = m.message ∧ m'.priv = m.priv := by
  have hs := consistent_P256 .four
  have hfact := Fact.mk hs.p.prime
  intro s m
  have hone : m.k.value = 1 := SB_FE_ONE_value .four
  refine SbSwContext.sbSwPointMult_run hs hs.g_r (by omega) ?_ (SbFe.Holds.r_mod_p hs.p)
    one_ne_zero rfl (by decide)
  rw [hone]
  decide

end DataProcessor
