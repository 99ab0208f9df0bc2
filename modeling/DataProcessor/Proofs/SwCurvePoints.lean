import DataProcessor.Proofs.PointRegisters
import DataProcessor.Proofs.SwFields

/-!
# The constants of the native curves

`Consistent` for both curves and every size of a word. The points among the
constants are compared with multiples and sums of the points they are made
from, in Jacobian coordinates and by computing.
-/

namespace DataProcessor

open Lib

namespace Curve

variable {curve : Curve} {x y x' y' : Nat}

/-- `(x, y)` is on the curve. -/
def OnCurve (curve : Curve) (x y : Nat) : Prop :=
  y ^ 2 % curve.P = (x ^ 3 + curve.A * x + curve.B) % curve.P

instance (curve : Curve) (x y : Nat) : Decidable (curve.OnCurve x y) :=
  inferInstanceAs (Decidable (_ = _))

theorem OnCurve.equation (h : curve.OnCurve x y) :
    (y : curve.Coordinate) ^ 2 = x ^ 3 + curve.A * x + curve.B := by
  exact_mod_cast (ZMod.natCast_eq_natCast_iff' _ _ _).2 h

def OnCurve.point (h : curve.OnCurve x y) : curve.Point :=
  .some x y (nonsingular_of_equation h.equation)

theorem OnCurve.represents (h : curve.OnCurve x y) :
    (curve.castTriple ⟨x, y, 1⟩).Represents h.point := by
  have h' := Triple.represents_some (nonsingular_of_equation h.equation)
  simpa [castTriple, Triple.map, point] using h'

theorem intCast_eq_zero_iff (curve : Curve) (a : Int) :
    (a : curve.Coordinate) = 0 ↔ a % curve.P = 0 := by
  rw [← Int.dvd_iff_emod_eq_zero, ZMod.intCast_zmod_eq_zero_iff_dvd]

/-- The triple stands for `(x, y)`. -/
def Agrees (curve : Curve) (T : Triple Int) (x y : Nat) : Prop :=
  T.Z % curve.P ≠ 0 ∧ (T.X - T.Z ^ 2 * x) % curve.P = 0 ∧ (T.Y - T.Z ^ 3 * y) % curve.P = 0

instance (curve : Curve) (T : Triple Int) (x y : Nat) : Decidable (curve.Agrees T x y) :=
  inferInstanceAs (Decidable (_ ∧ _))

theorem Agrees.cast_Z_ne_zero {T : Triple Int} (h : curve.Agrees T x y) :
    (curve.castTriple T).Z ≠ 0 :=
  fun hz => h.1 ((curve.intCast_eq_zero_iff T.Z).1 hz)

theorem Agrees.eq {T : Triple Int} {Q : curve.Point} (h : curve.Agrees T x y)
    (hT : (curve.castTriple T).Represents Q) (hxy : curve.OnCurve x y) : Q = hxy.point := by
  obtain ⟨-, hX, hY⟩ := h
  rw [← curve.intCast_eq_zero_iff] at hX hY
  rw [hT.eq_iff hxy.represents]
  push_cast at hX hY
  simp only [castTriple, Triple.map, Int.coe_castRingHom, Int.cast_one, Int.cast_natCast]
  constructor
  · linear_combination hX
  · linear_combination hY

theorem OnCurve.nsmul_eq (h : curve.OnCurve x y) (h' : curve.OnCurve x' y') {n : Nat}
    (hpos : 1 ≤ n) (hlt : n < 2 * 2 ^ 256)
    (hladder : curve.Agrees
      (Triple.ladder (Triple.reduceMod curve.P) curve.A ⟨x, y, 1⟩ 257 n) x' y') :
    n • h.point = h'.point :=
  hladder.eq (Triple.represents_ladder (Triple.map_reduceMod curve.P)
    (Int.cast_natCast curve.A) h.represents hpos (by rwa [pow_succ']) hladder.cast_Z_ne_zero) h'

theorem OnCurve.add_eq {x'' y'' : Nat} (h : curve.OnCurve x y) (h' : curve.OnCurve x' y')
    (h'' : curve.OnCurve x'' y'')
    (hadd : curve.Agrees (Triple.add ⟨x, y, 1⟩ ⟨x', y', 1⟩) x'' y'') :
    h.point + h'.point = h''.point := by
  have hmap : curve.castTriple (Triple.add ⟨x, y, 1⟩ ⟨x', y', 1⟩) =
      (curve.castTriple ⟨x, y, 1⟩).add (curve.castTriple ⟨x', y', 1⟩) :=
    Triple.map_add _ _ _
  refine hadd.eq ?_ h''
  have hz := hadd.cast_Z_ne_zero
  rw [hmap] at hz ⊢
  exact h.represents.add h'.represents hz

theorem onCurve_base (curve : Curve) : curve.OnCurve curve.Gx curve.Gy := by
  cases curve <;> decide

end Curve

variable {W : SbWordSize}

theorem SbFe.stands_of_value {a : SbFe W} {m n u : Nat} (ha : a.value = n) (hpos : 0 < n)
    (hle : n ≤ m) (hmod : n % m = u % m) : a.Stands (u : ZMod m) := by
  subst ha
  exact ⟨hpos, hle, (ZMod.natCast_eq_natCast_iff' _ _ _).2 hmod⟩

theorem SbFe.holds_of_value {a : SbFe W} {m n u : Nat} (ha : a.value = n) (hpos : 0 < n)
    (hle : n ≤ m) (hmod : n % m = u * 2 ^ 256 % m) : a.Holds (u : ZMod m) := by
  have h := stands_of_value ha hpos hle hmod
  rwa [Nat.cast_mul, Nat.cast_pow, Nat.cast_ofNat] at h

theorem SbFePair.holds_point {curve : Curve} {q : SbFePair W} {x y : Nat}
    (h : curve.OnCurve x y) (hx : q.x.Holds (x : curve.Coordinate))
    (hy : q.y.Holds (y : curve.Coordinate)) : q.Holds h.point :=
  ⟨_, _, _, rfl, hx, hy⟩

/-! ## P-256 -/

namespace SB_CURVE_P256

/-- The affine coordinates of `h_r`. -/
def Hx : Nat := 34332587213918660075394534022875366097089151272163442614457406318957304830825

def Hy : Nat := 5768968955262278090624466357355325188120458878960250268579740370794362127061

/-- Those of `g_h_r`. -/
def GHx : Nat := 103102196290052725627475652681610485224355994702169295043019110904016971944331

def GHy : Nat := 72406596023179751964672291067139324557749883351688408395861487303476005747311

/-- The even square root of `B`. -/
def root : Nat := 46263761741508638697010950048709651021688891777877937875096931459006746039284

/-- The affine coordinates of `dz_r`. -/
def DZx : Nat := 87812602023915091554008014672837927937550987992501844572273008327590008072628

def DZy : Nat := 30362411217190829796407765600294096177413203619928371208700569416610654782886

theorem onCurve_H : Curve.SECP_256_R1.OnCurve Hx Hy := by decide

theorem onCurve_GH : Curve.SECP_256_R1.OnCurve GHx GHy := by decide

theorem onCurve_root : Curve.SECP_256_R1.OnCurve 0 root := by decide

theorem onCurve_DZ : Curve.SECP_256_R1.OnCurve DZx DZy := by decide

theorem nsmul_H : (2 * 2 ^ 256 - 1) • onCurve_H.point = Curve.G .SECP_256_R1 :=
  onCurve_H.nsmul_eq (Curve.onCurve_base _) (by decide) (by decide) (by decide +kernel)

theorem G_add_H : Curve.G .SECP_256_R1 + onCurve_H.point = onCurve_GH.point :=
  (Curve.onCurve_base _).add_eq onCurve_H onCurve_GH (by decide)

theorem double_root : onCurve_root.point + onCurve_root.point = onCurve_DZ.point := by
  rw [← two_nsmul]
  exact onCurve_root.nsmul_eq onCurve_DZ (by decide) (by decide) (by decide)

/-- Of the two points with the first coordinate zero the one with the even
number. -/
theorem even_root {y : Curve.Coordinate .SECP_256_R1} (heven : y.val % 2 = 0)
    (hy : y ^ 2 = (Curve.B .SECP_256_R1 : Curve.Coordinate .SECP_256_R1)) :
    y = (root : Curve.Coordinate .SECP_256_R1) := by
  have hroot := onCurve_root.equation
  rw [Nat.cast_zero, mul_zero, zero_pow (by decide), add_zero, zero_add, ← hy] at hroot
  rcases sq_eq_sq_iff_eq_or_eq_neg.1 hroot with h | h
  · exact h.symm
  · have hneg : y = -(root : Curve.Coordinate .SECP_256_R1) := by rw [h, neg_neg]
    have hval : (root : Curve.Coordinate .SECP_256_R1).val = root :=
      ZMod.val_natCast_of_lt (by decide)
    have hne : (root : Curve.Coordinate .SECP_256_R1) ≠ 0 := by
      rw [ne_eq, ← ZMod.val_eq_zero, hval]
      decide
    rw [hneg, ZMod.neg_val, if_neg hne, hval] at heven
    exact absurd heven (by decide)

end SB_CURVE_P256

section

variable (W : SbWordSize)

theorem consistent_P256 : (SB_CURVE_P256 W).Consistent .SECP_256_R1 where
  p := consistent_P256_P W
  n := consistent_P256_N W
  order := Curve.addOrderOf_of_ne_zero (.inr rfl)
  wide := by decide
  narrow := by decide
  four := by decide
  minus_a := by
    have h : (SB_CURVE_P256 W).minus_a.Stands ((3 : Nat) : Curve.Coordinate .SECP_256_R1) :=
      SbFe.stands_of_value (sbFeConst_value W _ _ _ _) (by decide) (by decide) (by decide)
    have hA : ((3 : Nat) : Curve.Coordinate .SECP_256_R1) = -Curve.A .SECP_256_R1 := by
      rw [eq_neg_iff_add_eq_zero, ← Nat.cast_add]
      exact ZMod.natCast_self _
    rwa [hA] at h
  minus_a_r_over_three := by
    refine ⟨1, SbFe.Holds.r_mod_p (consistent_P256_P W), ?_⟩
    rw [eq_neg_iff_add_eq_zero, mul_one, ← Nat.cast_ofNat, ← Nat.cast_add]
    exact ZMod.natCast_self _
  b := SbFe.stands_of_value (sbFeConst_value W _ _ _ _) (by decide) (by decide) (by decide)
  g_r := SbFePair.holds_point (Curve.onCurve_base _)
    (SbFe.holds_of_value (sbFeConst_value W _ _ _ _) (by decide) (by decide) (by decide))
    (SbFe.holds_of_value (sbFeConst_value W _ _ _ _) (by decide) (by decide) (by decide))
  h_r := by
    refine ⟨SB_CURVE_P256.onCurve_H.point, SB_CURVE_P256.nsmul_H, ?_, ?_⟩
    · exact SbFePair.holds_point _
        (SbFe.holds_of_value (sbFeConst_value W _ _ _ _) (by decide) (by decide) (by decide))
        (SbFe.holds_of_value (sbFeConst_value W _ _ _ _) (by decide) (by decide) (by decide))
    · rw [SB_CURVE_P256.G_add_H]
      exact SbFePair.holds_point _
        (SbFe.holds_of_value (sbFeConst_value W _ _ _ _) (by decide) (by decide) (by decide))
        (SbFe.holds_of_value (sbFeConst_value W _ _ _ _) (by decide) (by decide) (by decide))
  dz_r := by
    intro y h heven
    have hy := (shortCurve.equation_iff _ _).1 h.1
    rw [mul_zero, zero_pow (by decide), add_zero, zero_add] at hy
    have hroot : (.some 0 y h : Curve.Point .SECP_256_R1) = SB_CURVE_P256.onCurve_root.point := by
      obtain ⟨_, heq⟩ := shortCurve.some_eq (P := SB_CURVE_P256.onCurve_root.point) rfl
        Nat.cast_zero (SB_CURVE_P256.even_root heven hy).symm
      exact heq.symm
    rw [hroot, SB_CURVE_P256.double_root]
    exact SbFePair.holds_point _
      (SbFe.holds_of_value (sbFeConst_value W _ _ _ _) (by decide) (by decide) (by decide))
      (SbFe.holds_of_value (sbFeConst_value W _ _ _ _) (by decide) (by decide) (by decide))

end

/-! ## secp256k1 -/

namespace SB_CURVE_SECP256K1

def Hx : Nat := 47897111076640463810467555693502849859886916163281787624478195141001645829098

def Hy : Nat := 90530735944064631660242383675596130284489644009848324490538280581039260436259

def GHx : Nat := 58127312380108696722810509858928150040584924411576883826606885577936398621400

def GHy : Nat := 100777747288061005033737501267462412993538766522736129536239889372893456667564

theorem onCurve_H : Curve.SECP_256_K1.OnCurve Hx Hy := by decide

theorem onCurve_GH : Curve.SECP_256_K1.OnCurve GHx GHy := by decide

theorem nsmul_H : (2 * 2 ^ 256 - 1) • onCurve_H.point = Curve.G .SECP_256_K1 :=
  onCurve_H.nsmul_eq (Curve.onCurve_base _) (by decide) (by decide) (by decide +kernel)

theorem G_add_H : Curve.G .SECP_256_K1 + onCurve_H.point = onCurve_GH.point :=
  (Curve.onCurve_base _).add_eq onCurve_H onCurve_GH (by decide)

end SB_CURVE_SECP256K1

theorem consistent_SECP256K1 (W : SbWordSize) :
    (SB_CURVE_SECP256K1 W).Consistent .SECP_256_K1 where
  p := consistent_SECP256K1_P W
  n := consistent_SECP256K1_N W
  order := Curve.addOrderOf_of_ne_zero (.inl rfl)
  wide := by decide
  narrow := by decide
  four := by decide
  minus_a := by
    rw [show (Curve.A .SECP_256_K1 : Curve.Coordinate .SECP_256_K1) = 0 from Nat.cast_zero,
      neg_zero]
    exact prime_stands (SB_CURVE_SECP256K1_P_value W) (Curve.prime_P _).pos
  minus_a_r_over_three := by
    refine ⟨0, SbFe.Holds.prime (consistent_SECP256K1_P W), ?_⟩
    rw [show (Curve.A .SECP_256_K1 : Curve.Coordinate .SECP_256_K1) = 0 from Nat.cast_zero,
      mul_zero, neg_zero]
  b := SbFe.stands_of_value (sbFeConst_value W _ _ _ _) (by decide) (by decide) (by decide)
  g_r := SbFePair.holds_point (Curve.onCurve_base _)
    (SbFe.holds_of_value (sbFeConst_value W _ _ _ _) (by decide) (by decide) (by decide))
    (SbFe.holds_of_value (sbFeConst_value W _ _ _ _) (by decide) (by decide) (by decide))
  h_r := by
    refine ⟨SB_CURVE_SECP256K1.onCurve_H.point, SB_CURVE_SECP256K1.nsmul_H, ?_, ?_⟩
    · exact SbFePair.holds_point _
        (SbFe.holds_of_value (sbFeConst_value W _ _ _ _) (by decide) (by decide) (by decide))
        (SbFe.holds_of_value (sbFeConst_value W _ _ _ _) (by decide) (by decide) (by decide))
    · rw [SB_CURVE_SECP256K1.G_add_H]
      exact SbFePair.holds_point _
        (SbFe.holds_of_value (sbFeConst_value W _ _ _ _) (by decide) (by decide) (by decide))
        (SbFe.holds_of_value (sbFeConst_value W _ _ _ _) (by decide) (by decide) (by decide))
  -- there is no such point
  dz_r := by
    intro y h _
    exact absurd rfl (Curve.SECP_256_K1_x_ne_zero ((shortCurve.equation_iff _ _).1 h.1))

/-- Every curve there is an identifier for has consistent constants. -/
theorem sbSwCurveFromId_consistent {W : SbWordSize} {id : UInt32} {s : SbSwCurve W}
    (h : sbSwCurveFromId W id = some s) :
    (id = SB_SW_CURVE_P256 ∧ s.Consistent .SECP_256_R1) ∨
      (id = SB_SW_CURVE_SECP256K1 ∧ s.Consistent .SECP_256_K1) := by
  rw [sbSwCurveFromId] at h
  split at h
  · next hid =>
      cases h
      exact .inl ⟨hid, consistent_P256 W⟩
  · split at h
    · next hid =>
        cases h
        exact .inr ⟨hid, consistent_SECP256K1 W⟩
    · cases h

theorem sbSwCurveFromId_consistent_P256 :
    (SB_SW_CURVE_P256 = SB_SW_CURVE_P256 ∧ (SB_CURVE_P256 .four).Consistent .SECP_256_R1) ∨
      (SB_SW_CURVE_P256 = SB_SW_CURVE_SECP256K1 ∧
        (SB_CURVE_P256 .four).Consistent .SECP_256_K1) :=
  sbSwCurveFromId_consistent rfl

end DataProcessor
