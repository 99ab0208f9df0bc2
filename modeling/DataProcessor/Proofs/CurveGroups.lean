import DataProcessor.Lib.CubicRoots
import DataProcessor.Lib.Jacobian
import DataProcessor.Lib.Primality
import DataProcessor.Model.Curve

/-!
# The groups of the six curves

For each curve of `Curve`: `P` and `N` are prime, the curve is not singular,
and the base point has order `N`. All four are facts about the constants of
the source and are computed from them, the primes by certificates and the
order by the ladder, so that the results about signatures assume nothing of
the curves.
-/

namespace DataProcessor

open Lib

namespace Curve

/-! ## The primes -/

/-- The tests for the two moduli and for the large primes these rest on. -/
def certificate : Curve → List LucasTest
  | .SECP_192_K1 => [
      ⟨3651619, 2, [(2, 1), (3, 1), (23, 1), (47, 1), (563, 1)]⟩,
      ⟨14606477, 2, [(2, 2), (3651619, 1)]⟩,
      ⟨2307823367, 5, [(2, 1), (79, 1), (14606477, 1)]⟩,
      ⟨1295233555201613, 2, [(2, 2), (13, 1), (43, 1), (251, 1), (2307823367, 1)]⟩,
      ⟨11113956389, 2, [(2, 2), (7057, 1), (393721, 1)]⟩,
      ⟨16189543961, 6, [(2, 3), (5, 1), (61, 1), (2473, 1), (2683, 1)]⟩,
      ⟨8473813, 2, [(2, 2), (3, 1), (706151, 1)]⟩,
      ⟨138580737803, 2, [(2, 1), (13, 1), (17, 1), (37, 1), (8473813, 1)]⟩,
      ⟨10489845818524887021689201254173392444641, 13, [(2, 5), (3, 1), (5, 1), (281, 1),
        (3119, 1), (11113956389, 1), (16189543961, 1), (138580737803, 1)]⟩,
      ⟨6277101735386680763835789423207666416102355444459739541047, 3, [(2, 1), (3, 1),
        (7, 1), (11, 1), (1295233555201613, 1),
        (10489845818524887021689201254173392444641, 1)]⟩,
      ⟨1611297632578441, 13, [(2, 3), (3, 1), (5, 1), (19, 1), (815669, 1), (866417, 1)]⟩,
      ⟨31767070186748510944261247684750677, 6, [(2, 2), (3, 1), (7, 2), (169361, 1),
        (444791, 1), (445097, 1), (1611297632578441, 1)]⟩,
      ⟨434093022356392396149847294750353440317757907331, 3, [(2, 1), (3, 1), (5, 1),
        (167, 1), (4933, 1), (552913, 1), (31767070186748510944261247684750677, 1)]⟩,
      ⟨143250697377609490729449607267616635304860109419231, 7, [(2, 1), (3, 1), (5, 1),
        (11, 1), (434093022356392396149847294750353440317757907331, 1)]⟩,
      ⟨6277101735386680763835789423061264271957123915200845512077, 2, [(2, 2), (3, 1),
        (13, 2), (17, 1), (31, 1), (41, 1),
        (143250697377609490729449607267616635304860109419231, 1)]⟩]
  | .SECP_192_R1 => [
      ⟨11393611, 10, [(2, 1), (3, 1), (5, 1), (379787, 1)]⟩,
      ⟨108341181769254293, 2, [(2, 2), (17, 1), (43, 1), (2477, 1), (54251, 1),
        (275729, 1)]⟩,
      ⟨8413201, 29, [(2, 4), (3, 3), (5, 2), (19, 1), (41, 1)]⟩,
      ⟨252396031, 3, [(2, 1), (3, 1), (5, 1), (8413201, 1)]⟩,
      ⟨455827231987, 2, [(2, 1), (3, 1), (7, 1), (43, 1), (252396031, 1)]⟩,
      ⟨5933177618131140283, 2, [(2, 1), (3, 2), (723127, 1), (455827231987, 1)]⟩,
      ⟨288626509448065367648032903, 6, [(2, 1), (3, 1), (19, 2), (37, 1), (607, 1),
        (5933177618131140283, 1)]⟩,
      ⟨6277101735386680763835789423207666416083908700390324961279, 11, [(2, 1), (59, 1),
        (149309, 1), (11393611, 1), (108341181769254293, 1),
        (288626509448065367648032903, 1)]⟩,
      ⟨15716741, 2, [(2, 2), (5, 1), (13, 1), (60449, 1)]⟩,
      ⟨46245989, 2, [(2, 2), (1693, 1), (6829, 1)]⟩,
      ⟨7244839476697597, 2, [(2, 2), (3, 1), (239, 1), (54623, 1), (46245989, 1)]⟩,
      ⟨9564682313913860059195669, 2, [(2, 2), (3, 1), (7, 1), (15716741, 1),
        (7244839476697597, 1)]⟩,
      ⟨51920273, 3, [(2, 4), (61, 1), (53197, 1)]⟩,
      ⟨103840547, 2, [(2, 1), (51920273, 1)]⟩,
      ⟨7532705587894727, 5, [(2, 1), (29, 1), (43, 2), (331, 1), (4127, 1), (51419, 1)]⟩,
      ⟨3433859179316188682119986911, 13, [(2, 1), (5, 1), (439, 1), (103840547, 1),
        (7532705587894727, 1)]⟩,
      ⟨6277101735386680763835789423176059013767194773182842284081, 3, [(2, 4), (5, 1),
        (2389, 1), (9564682313913860059195669, 1), (3433859179316188682119986911, 1)]⟩]
  | .SECP_224_K1 => [
      ⟨42252061, 6, [(2, 2), (3, 1), (5, 1), (47, 1), (14983, 1)]⟩,
      ⟨7599533, 2, [(2, 2), (89, 1), (21347, 1)]⟩,
      ⟨17042913689, 3, [(2, 3), (43613, 1), (48847, 1)]⟩,
      ⟨34085827379, 2, [(2, 1), (17042913689, 1)]⟩,
      ⟨156976040219402488243, 2, [(2, 1), (3, 1), (101, 1), (7599533, 1),
        (34085827379, 1)]⟩,
      ⟨31670999344427766303479, 7, [(2, 1), (29, 1), (419, 1), (1471, 1), (1601, 1),
        (3001, 1), (10663, 1), (17293, 1)]⟩,
      ⟨30974237358850355444802463, 3, [(2, 1), (3, 1), (163, 1),
        (31670999344427766303479, 1)]⟩,
      ⟨9743875111334057846550285755748171501325144788037, 2, [(2, 2), (3, 1), (167, 1),
        (156976040219402488243, 1), (30974237358850355444802463, 1)]⟩,
      ⟨26959946667150639794667015087019630673637144422540572481099315275117, 2, [(2, 2),
        (3, 2), (7, 1), (3137, 1), (82837, 1), (42252061, 1),
        (9743875111334057846550285755748171501325144788037, 1)]⟩,
      ⟨2396171, 2, [(2, 1), (5, 1), (7, 1), (34231, 1)]⟩,
      ⟨24281921209346341, 14, [(2, 2), (3, 1), (5, 1), (353, 1), (478453, 1),
        (2396171, 1)]⟩,
      ⟨21244693, 2, [(2, 2), (3, 1), (7, 1), (252913, 1)]⟩,
      ⟨4167731, 6, [(2, 1), (5, 1), (7, 1), (59539, 1)]⟩,
      ⟨33341849, 3, [(2, 3), (4167731, 1)]⟩,
      ⟨12019933, 6, [(2, 2), (3, 2), (19, 1), (17573, 1)]⟩,
      ⟨6058046233, 10, [(2, 3), (3, 2), (7, 1), (12019933, 1)]⟩,
      ⟨2218883, 2, [(2, 1), (367, 1), (3023, 1)]⟩,
      ⟨4437767, 5, [(2, 1), (2218883, 1)]⟩,
      ⟨10083949, 6, [(2, 2), (3, 1), (7, 1), (120047, 1)]⟩,
      ⟨58597812472881879287, 5, [(2, 1), (17, 1), (19, 1), (2027, 1), (4437767, 1),
        (10083949, 1)]⟩,
      ⟨2514514399252200308862687893991356095647329471, 7, [(2, 1), (5, 1), (21244693, 1),
        (33341849, 1), (6058046233, 1), (58597812472881879287, 1)]⟩,
      ⟨4493324444525106632444502514503273391085054513853345758165826444713, 3, [(2, 3),
        (9199, 1), (24281921209346341, 1),
        (2514514399252200308862687893991356095647329471, 1)]⟩,
      ⟨26959946667150639794667015087019640346510327083120074548994958668279, 6, [(2, 1),
        (3, 1), (4493324444525106632444502514503273391085054513853345758165826444713, 1)]⟩]
  | .SECP_224_R1 => [
      ⟨6700417, 5, [(2, 7), (3, 1), (17449, 1)]⟩,
      ⟨2998279, 3, [(2, 1), (3, 2), (166571, 1)]⟩,
      ⟨67280421310721, 3, [(2, 8), (5, 1), (47, 1), (373, 1), (2998279, 1)]⟩,
      ⟨26959946667150639794667015087019630673557916260026308143510066298881, 22, [(2, 96),
        (3, 1), (5, 1), (17, 1), (257, 1), (641, 1), (65537, 1), (274177, 1),
        (6700417, 1), (67280421310721, 1)]⟩,
      ⟨13928737, 15, [(2, 5), (3, 1), (145091, 1)]⟩,
      ⟨11105363, 2, [(2, 1), (509, 1), (10909, 1)]⟩,
      ⟨821796863, 5, [(2, 1), (37, 1), (11105363, 1)]⟩,
      ⟨432621809776543, 3, [(2, 1), (3, 1), (87739, 1), (821796863, 1)]⟩,
      ⟨136401162692544977256234449, 3, [(2, 4), (31, 1), (20599, 1), (30859, 1),
        (432621809776543, 1)]⟩,
      ⟨34646440928557194402992574983797, 2, [(2, 2), (3, 1), (61, 1), (347, 1),
        (136401162692544977256234449, 1)]⟩,
      ⟨375503554633724504423937478103159147573209, 19, [(2, 3), (3, 1), (2707, 1),
        (166823, 1), (34646440928557194402992574983797, 1)]⟩,
      ⟨50520606258875818707470860153287666700917696099933389351507, 2, [(2, 1), (89, 1),
        (631, 1), (85999, 1), (13928737, 1),
        (375503554633724504423937478103159147573209, 1)]⟩,
      ⟨26959946667150639794667015087019625940457807714424391721682722368061, 2, [(2, 2),
        (3, 6), (5, 1), (17, 1), (2153, 1),
        (50520606258875818707470860153287666700917696099933389351507, 1)]⟩]
  | .SECP_256_K1 => [
      ⟨13331831, 13, [(2, 1), (5, 1), (971, 1), (1373, 1)]⟩,
      ⟨173378833005251801, 6, [(2, 3), (5, 2), (2621, 1), (24809, 1), (13331831, 1)]⟩,
      ⟨22149492674086928081353, 5, [(2, 3), (3, 1), (5323, 1), (173378833005251801, 1)]⟩,
      ⟨132896956044521568488119, 6, [(2, 1), (3, 1), (22149492674086928081353, 1)]⟩,
      ⟨1206781, 10, [(2, 2), (3, 1), (5, 1), (20113, 1)]⟩,
      ⟨7240687, 3, [(2, 1), (3, 1), (1206781, 1)]⟩,
      ⟨107590001, 3, [(2, 4), (5, 4), (7, 1), (29, 1), (53, 1)]⟩,
      ⟨255515944373312847190720520512484175977, 3, [(2, 3), (7, 2), (11, 1), (1627, 1),
        (2657, 1), (4423, 1), (41201, 1), (96557, 1), (7240687, 1), (107590001, 1)]⟩,
      ⟨205115282021455665897114700593932402728804164701536103180137503955397371, 10, [
        (2, 1), (3, 1), (5, 1), (29, 2), (31, 1), (7723, 1),
        (132896956044521568488119, 1), (255515944373312847190720520512484175977, 1)]⟩,
      ⟨115792089237316195423570985008687907853269984665640564039457584007908834671663, 3, [
        (2, 1), (3, 1), (7, 1), (13441, 1),
        (205115282021455665897114700593932402728804164701536103180137503955397371, 1)]⟩,
      ⟨4681609, 23, [(2, 3), (3, 1), (97, 1), (2011, 1)]⟩,
      ⟨107361793816595537, 3, [(2, 4), (16699, 1), (85831, 1), (4681609, 1)]⟩,
      ⟨44706919, 6, [(2, 1), (3, 1), (797, 1), (9349, 1)]⟩,
      ⟨174723607534414371449, 3, [(2, 3), (17, 1), (59, 1), (4051, 1), (120233, 1),
        (44706919, 1)]⟩,
      ⟨545358713, 5, [(2, 3), (41, 1), (59, 1), (28181, 1)]⟩,
      ⟨1627771, 3, [(2, 1), (3, 1), (5, 1), (29, 1), (1871, 1)]⟩,
      ⟨297159362677, 2, [(2, 2), (3, 2), (11, 1), (461, 1), (1627771, 1)]⟩,
      ⟨29047611873442575647497758179, 2, [(2, 1), (293, 1), (305873, 1), (545358713, 1),
        (297159362677, 1)]⟩,
      ⟨341948486974166000522343609283189, 2, [(2, 2), (3, 3), (109, 1),
        (29047611873442575647497758179, 1)]⟩,
      ⟨115792089237316195423570985008687907852837564279074904382605163141518161494337, 7, [
        (2, 6), (3, 1), (149, 1), (631, 1), (107361793816595537, 1),
        (174723607534414371449, 1), (341948486974166000522343609283189, 1)]⟩]
  | .SECP_256_R1 => [
      ⟨6700417, 5, [(2, 7), (3, 1), (17449, 1)]⟩,
      ⟨204061199, 11, [(2, 1), (11, 1), (23, 1), (107, 1), (3769, 1)]⟩,
      ⟨34282281433, 17, [(2, 3), (3, 1), (7, 1), (204061199, 1)]⟩,
      ⟨66417393611, 6, [(2, 1), (5, 1), (53, 1), (173, 1), (197, 1), (3677, 1)]⟩,
      ⟨11290956913871, 13, [(2, 1), (5, 1), (17, 1), (66417393611, 1)]⟩,
      ⟨46076956964474543, 5, [(2, 1), (23, 1), (18169, 1), (78283, 1), (704251, 1)]⟩,
      ⟨774023187263532362759620327192479577272145303, 3, [(2, 1), (3, 2), (2411, 1),
        (34282281433, 1), (11290956913871, 1), (46076956964474543, 1)]⟩,
      ⟨835945042244614951780389953367877943453916927241, 11, [(2, 3), (3, 3), (5, 1),
        (774023187263532362759620327192479577272145303, 1)]⟩,
      ⟨115792089210356248762697446949407573530086143415290314195533631308867097853951, 6, [
        (2, 1), (3, 1), (5, 2), (17, 1), (257, 1), (641, 1), (1531, 1), (65537, 1),
        (490463, 1), (6700417, 1), (835945042244614951780389953367877943453916927241, 1)]⟩,
      ⟨9350987, 2, [(2, 1), (17, 1), (229, 1), (1201, 1)]⟩,
      ⟨187019741, 2, [(2, 2), (5, 1), (9350987, 1)]⟩,
      ⟨311245691, 2, [(2, 1), (5, 1), (7, 1), (17, 1), (29, 2), (311, 1)]⟩,
      ⟨622491383, 5, [(2, 1), (311245691, 1)]⟩,
      ⟨3969899, 2, [(2, 1), (19, 1), (104471, 1)]⟩,
      ⟨1002328039319, 19, [(2, 1), (126241, 1), (3969899, 1)]⟩,
      ⟨191039911, 3, [(2, 1), (3, 1), (5, 1), (41, 1), (155317, 1)]⟩,
      ⟨208150935158385979, 2, [(2, 1), (3, 1), (11, 1), (43, 1), (127, 1), (3023, 1),
        (191039911, 1)]⟩,
      ⟨2624747550333869278416773953, 7, [(2, 6), (3, 2), (1297, 1), (16879, 1),
        (208150935158385979, 1)]⟩,
      ⟨115792089210356248762697446949407573529996955224135760342422259061068512044369, 7, [
        (2, 4), (3, 1), (71, 1), (131, 1), (373, 1), (3407, 1), (17449, 1), (38189, 1),
        (187019741, 1), (622491383, 1), (1002328039319, 1),
        (2624747550333869278416773953, 1)]⟩]

theorem certificate_certifies (curve : Curve) : certifies [] curve.certificate = true := by
  cases curve <;> decide +kernel

theorem prime_of_mem_certificate (curve : Curve) {p : Nat}
    (hp : (curve.certificate.map LucasTest.p).contains p = true) : p.Prime :=
  prime_of_certifies (by simp) curve.certificate_certifies (List.contains_iff_mem.1 hp)

theorem prime_P (curve : Curve) : curve.P.Prime :=
  prime_of_mem_certificate curve (by cases curve <;> decide +kernel)

theorem prime_N (curve : Curve) : curve.N.Prime :=
  prime_of_mem_certificate curve (by cases curve <;> decide)

instance (curve : Curve) : Fact curve.P.Prime := ⟨curve.prime_P⟩

instance (curve : Curve) : Fact curve.N.Prime := ⟨curve.prime_N⟩

theorem natCast_ne_zero {curve : Curve} {n : Nat} (h : ¬ curve.N ∣ n) :
    (n : ZMod curve.N) ≠ 0 := by
  rwa [ne_eq, ZMod.natCast_eq_zero_iff]

/-! ## The group and its base point -/

/-- The field the coordinates are in. -/
abbrev Coordinate (curve : Curve) : Type := ZMod curve.P

abbrev Point (curve : Curve) : Type :=
  (shortCurve (curve.A : curve.Coordinate) (curve.B : curve.Coordinate)).Point

theorem three_lt_P (curve : Curve) : 3 < curve.P := by
  cases curve <;> decide

theorem two_lt_N (curve : Curve) : 2 < curve.N := by
  cases curve <;> decide

theorem P_lt (curve : Curve) : curve.P < 256 ^ 32 := by
  cases curve <;> decide

theorem N_lt (curve : Curve) : curve.N < 256 ^ 32 := by
  cases curve <;> decide

theorem two_ne_zero (curve : Curve) : (2 : curve.Coordinate) ≠ 0 := by
  intro h
  have hdvd : curve.P ∣ 2 := (ZMod.natCast_eq_zero_iff 2 curve.P).1 (by exact_mod_cast h)
  exact absurd (Nat.le_of_dvd (by decide) hdvd) (by have := curve.three_lt_P; omega)

theorem not_singular (curve : Curve) :
    (shortCurve (curve.A : curve.Coordinate) (curve.B : curve.Coordinate)).Δ ≠ 0 := by
  have hdvd : ¬ curve.P ∣ 16 * (4 * curve.A ^ 3 + 27 * curve.B ^ 2) := by
    cases curve <;> decide
  have hΔ : (shortCurve (curve.A : curve.Coordinate) (curve.B : curve.Coordinate)).Δ
      = -((16 * (4 * curve.A ^ 3 + 27 * curve.B ^ 2) : Nat) : curve.Coordinate) := by
    simp only [shortCurve, WeierstrassCurve.Δ, WeierstrassCurve.b₂, WeierstrassCurve.b₄,
      WeierstrassCurve.b₆, WeierstrassCurve.b₈]
    push_cast
    ring
  rw [hΔ, ne_eq, neg_eq_zero, ZMod.natCast_eq_zero_iff]
  exact hdvd

theorem nonsingular_of_equation {curve : Curve} {x y : curve.Coordinate}
    (h : y ^ 2 = x ^ 3 + curve.A * x + curve.B) :
    (shortCurve (curve.A : curve.Coordinate) (curve.B : curve.Coordinate)).Nonsingular x y :=
  (WeierstrassCurve.Affine.equation_iff_nonsingular_of_Δ_ne_zero curve.not_singular).1
    ((shortCurve.equation_iff x y).2 h)

theorem base_equation (curve : Curve) :
    (curve.Gy : curve.Coordinate) ^ 2 = curve.Gx ^ 3 + curve.A * curve.Gx + curve.B := by
  have h : curve.Gy ^ 2 % curve.P
      = (curve.Gx ^ 3 + curve.A * curve.Gx + curve.B) % curve.P := by
    cases curve <;> decide
  exact_mod_cast (ZMod.natCast_eq_natCast_iff' _ _ _).2 h

/-- The base point `(Gx, Gy)`. -/
def G (curve : Curve) : curve.Point :=
  .some curve.Gx curve.Gy (nonsingular_of_equation curve.base_equation)

/-- The first coordinate, as a number below `P`. -/
def xOf {curve : Curve} (Q : curve.Point) : Option Nat :=
  (shortCurve.xCoordinate Q).map ZMod.val

theorem xOf_lt {curve : Curve} {Q : curve.Point} {x : Nat} (h : xOf Q = some x) :
    x < curve.P := by
  cases Q with
  | zero => cases h
  | some x' y' h' =>
      injection h with h
      rw [← h]
      exact x'.val_lt

theorem xOf_eq_iff {curve : Curve} {Q R : curve.Point} :
    xOf Q = xOf R ↔ Q = R ∨ Q = -R := by
  rw [← shortCurve.xCoordinate_eq_iff]
  exact (Option.map_injective (ZMod.val_injective curve.P)).eq_iff

theorem xOf_neg {curve : Curve} (Q : curve.Point) : xOf (-Q) = xOf Q :=
  xOf_eq_iff.2 (.inr rfl)

/-! ## Its order -/

def castTriple (curve : Curve) (T : Triple Int) : Triple curve.Coordinate :=
  T.map (Int.castRingHom curve.Coordinate)

theorem represents_G (curve : Curve) :
    (curve.castTriple ⟨curve.Gx, curve.Gy, 1⟩).Represents curve.G := by
  have h := Triple.represents_some (nonsingular_of_equation curve.base_equation)
  simpa [castTriple, Triple.map, G] using h

/-- `N - 1` times the base point, by the ladder. -/
def lastMultiple (curve : Curve) : Triple Int :=
  Triple.ladder (Triple.reduceMod curve.P) curve.A ⟨curve.Gx, curve.Gy, 1⟩ 256 (curve.N - 1)

/-- It is the base point's negative. -/
theorem lastMultiple_eq (curve : Curve) :
    let T := curve.lastMultiple
    T.Z % curve.P ≠ 0 ∧ (T.X - T.Z ^ 2 * curve.Gx) % curve.P = 0 ∧
      (T.Y + T.Z ^ 3 * curve.Gy) % curve.P = 0 := by
  cases curve <;> decide +kernel

theorem addOrderOf_G (curve : Curve) : addOrderOf curve.G = curve.N := by
  obtain ⟨hZ, hX, hY⟩ := curve.lastMultiple_eq
  have hcast (a : Int) : a % curve.P = 0 ↔ (a : curve.Coordinate) = 0 := by
    rw [← Int.dvd_iff_emod_eq_zero, ZMod.intCast_zmod_eq_zero_iff_dvd]
  rw [ne_eq, hcast] at hZ
  rw [hcast] at hX hY
  have hN := curve.two_lt_N
  have hbits : curve.N - 1 < 2 ^ 256 := by
    cases curve <;> decide
  have hlast : (curve.castTriple curve.lastMultiple).Represents ((curve.N - 1) • curve.G) :=
    Triple.represents_ladder (Triple.map_reduceMod curve.P) (Int.cast_natCast curve.A)
      curve.represents_G (by omega) hbits hZ
  have hneg : (curve.N - 1) • curve.G = -curve.G := by
    rw [hlast.eq_iff curve.represents_G.neg]
    push_cast at hX hY
    simp only [castTriple, Triple.map, Int.coe_castRingHom, Int.cast_one, Int.cast_natCast]
    constructor
    · linear_combination hX
    · linear_combination hY
  refine addOrderOf_eq_prime ?_ (WeierstrassCurve.Affine.Point.some_ne_zero _)
  calc curve.N • curve.G = (curve.N - 1 + 1) • curve.G := by rw [Nat.sub_add_cancel (by omega)]
    _ = -curve.G + curve.G := by rw [succ_nsmul, hneg]
    _ = 0 := neg_add_cancel curve.G

theorem N_nsmul_of_addOrderOf {curve : Curve} {Q : curve.Point}
    (hQ : addOrderOf Q = curve.N) : curve.N • Q = 0 := by
  rw [← hQ]
  exact addOrderOf_nsmul_eq_zero Q

theorem N_nsmul_G (curve : Curve) : curve.N • curve.G = 0 :=
  N_nsmul_of_addOrderOf curve.addOrderOf_G

/-- Of the points `N` kills only zero is its own negative: `N` is odd. -/
theorem add_self_ne_zero {curve : Curve} {Q : curve.Point} (hN : curve.N • Q = 0)
    (hQ : Q ≠ 0) : Q + Q ≠ 0 := by
  intro htwo
  rw [← two_nsmul] at htwo
  have horder := addOrderOf_eq_prime hN hQ
  have hdvd := addOrderOf_dvd_of_nsmul_eq_zero htwo
  rw [horder] at hdvd
  have := Nat.le_of_dvd (by decide) hdvd
  have := curve.two_lt_N
  omega

theorem snd_ne_zero {curve : Curve} {x y : curve.Coordinate}
    {h : (shortCurve (curve.A : curve.Coordinate) (curve.B : curve.Coordinate)).Nonsingular x y}
    (hQ : (.some x y h : curve.Point) + .some x y h ≠ 0) : y ≠ 0 := by
  rintro rfl
  obtain ⟨h', hneg⟩ := shortCurve.neg_some h
  refine hQ (add_eq_zero_iff_eq_neg.2 ?_)
  rw [hneg]
  simp

/-! ## secp256k1 has no other points -/

/-- A number whose power to `1 / k` of `P - 1` is not 1 is no `k`-th power. -/
theorem pow_ne {curve : Curve} {k a : Nat} (hk : k ∣ curve.P - 1) (hk0 : k ≠ 0)
    (ha : ¬ curve.P ∣ a)
    (hpow : powMod curve.P a exponentBits ((curve.P - 1) / k) ≠ 1)
    (x : curve.Coordinate) : x ^ k ≠ (a : curve.Coordinate) := by
  intro h
  have hx : x ≠ 0 := by
    rintro rfl
    rw [zero_pow hk0, eq_comm, ZMod.natCast_eq_zero_iff] at h
    exact ha h
  have hlt : (curve.P - 1) / k < 2 ^ exponentBits := by
    refine Nat.lt_of_le_of_lt (Nat.div_le_self _ _) ?_
    cases curve <;> decide
  rw [ne_eq, powMod_eq_one_iff curve.prime_P.two_le hlt, ← h, ← pow_mul,
    Nat.mul_div_cancel' hk] at hpow
  exact hpow (ZMod.pow_card_sub_one_eq_one hx)

theorem SECP_256_K1_equation (x : Coordinate .SECP_256_K1) :
    x ^ 3 + (A .SECP_256_K1 : Coordinate .SECP_256_K1) * x
      + (B .SECP_256_K1 : Coordinate .SECP_256_K1)
        = x ^ 3 + ((7 : Nat) : Coordinate .SECP_256_K1) := by
  have hA : (A .SECP_256_K1 : Coordinate .SECP_256_K1) = 0 := Nat.cast_zero
  rw [hA, zero_mul, add_zero]
  rfl

/-- `-7` is not a cube. -/
theorem SECP_256_K1_no_root (x : Coordinate .SECP_256_K1) :
    x ^ 3 + (A .SECP_256_K1 : Coordinate .SECP_256_K1) * x
      + (B .SECP_256_K1 : Coordinate .SECP_256_K1) ≠ 0 := by
  rw [SECP_256_K1_equation]
  intro h
  refine @pow_ne .SECP_256_K1 3 (P .SECP_256_K1 - 7) (by decide) (by decide)
    (by decide) (by decide +kernel) x ?_
  rw [Nat.cast_sub (by decide), ZMod.natCast_self, zero_sub, eq_neg_iff_add_eq_zero]
  exact h

/-- `7` is not a square, so the first coordinate of a point is not zero. -/
theorem SECP_256_K1_x_ne_zero {x y : Coordinate .SECP_256_K1}
    (h : y ^ 2 = x ^ 3 + (A .SECP_256_K1 : Coordinate .SECP_256_K1) * x
      + (B .SECP_256_K1 : Coordinate .SECP_256_K1)) : x ≠ 0 := by
  rintro rfl
  rw [SECP_256_K1_equation, zero_pow (by decide), zero_add] at h
  exact @pow_ne .SECP_256_K1 2 7 (by decide) (by decide) (by decide)
    (by decide +kernel) y h

theorem mem_zmultiples_G (Q : Point .SECP_256_K1) :
    Q ∈ AddSubgroup.zmultiples (G .SECP_256_K1) := by
  refine shortCurve.generates (two_ne_zero _) (addOrderOf_G _) ?_ SECP_256_K1_no_root Q
  rw [ZMod.card]
  decide

/-- The curve's points are the multiples of `G`, a prime number of them. -/
def Generated (curve : Curve) : Prop :=
  curve.N.Prime ∧ addOrderOf curve.G = curve.N ∧
    ∀ Q : curve.Point, Q ∈ AddSubgroup.zmultiples curve.G

theorem generated_SECP_256_K1 : Generated .SECP_256_K1 :=
  ⟨prime_N _, addOrderOf_G _, mem_zmultiples_G⟩

theorem addOrderOf_SECP_256_K1 {Q : Point .SECP_256_K1} (hQ : Q ≠ 0) :
    addOrderOf Q = N .SECP_256_K1 := by
  obtain ⟨k, rfl⟩ := AddSubgroup.mem_zmultiples_iff.1 (mem_zmultiples_G Q)
  refine addOrderOf_eq_prime ?_ hQ
  rw [smul_comm, N_nsmul_G, zsmul_zero]

/-! ## Nor has secp256r1 -/

/-- The inverse of `x ^ P - x` modulo the cubic. -/
def frobeniusInverse : CubicResidue where
  c0 := 76626890310466861426869089647039036757962535851890885406097439786770458211455
  c1 := 74462945259064871768191128030512052509059297803194871526163573358218695456204
  c2 := 34768139465301476436978405170953382516735956999154666452188405812258086013549

theorem SECP_256_R1_no_root (x : Coordinate .SECP_256_R1) :
    x ^ 3 + (A .SECP_256_R1 : Coordinate .SECP_256_R1) * x
      + (B .SECP_256_R1 : Coordinate .SECP_256_R1) ≠ 0 := by
  have hinverts : invertsFrobenius (P .SECP_256_R1) (P .SECP_256_R1 - A .SECP_256_R1)
      (P .SECP_256_R1 - B .SECP_256_R1) 256 frobeniusInverse = true := by
    decide +kernel
  have hno := no_root (p := P .SECP_256_R1) (by decide) hinverts x
  rw [Nat.cast_sub (by decide), Nat.cast_sub (by decide), ZMod.natCast_self] at hno
  intro h
  exact hno (by linear_combination h)

/-- On the two curves of 256 bits every point but zero has order `N`. -/
theorem addOrderOf_of_ne_zero {curve : Curve}
    (hcurve : curve = .SECP_256_K1 ∨ curve = .SECP_256_R1) {Q : curve.Point} (hQ : Q ≠ 0) :
    addOrderOf Q = curve.N := by
  rcases hcurve with rfl | rfl
  · exact addOrderOf_SECP_256_K1 hQ
  · have hcard : 2 * (Fintype.card (Coordinate .SECP_256_R1) + 1)
        < 3 * N .SECP_256_R1 := by
      rw [ZMod.card]
      decide
    have hmem := shortCurve.generates (two_ne_zero _) (addOrderOf_G _) hcard
      SECP_256_R1_no_root Q
    obtain ⟨k, rfl⟩ := AddSubgroup.mem_zmultiples_iff.1 hmem
    refine addOrderOf_eq_prime ?_ hQ
    rw [smul_comm, N_nsmul_G, zsmul_zero]

/-! ## Examples of points -/

theorem base_val (curve : Curve) : (curve.Gx : curve.Coordinate).val = curve.Gx ∧
    (curve.Gy : curve.Coordinate).val = curve.Gy := by
  have hlt : curve.Gx < curve.P ∧ curve.Gy < curve.P := by
    cases curve <;> decide
  exact ⟨ZMod.val_natCast_of_lt hlt.1, ZMod.val_natCast_of_lt hlt.2⟩

theorem neg_G (curve : Curve) :
    ∃ h, -curve.G = .some (curve.Gx : curve.Coordinate) (-(curve.Gy : curve.Coordinate)) h :=
  shortCurve.neg_some (nonsingular_of_equation curve.base_equation)

theorem val_neg_Gy (curve : Curve) :
    (-(curve.Gy : curve.Coordinate)).val = curve.P - curve.Gy := by
  have hpos : 0 < curve.Gy := by
    cases curve <;> decide
  have hne : (curve.Gy : curve.Coordinate) ≠ 0 := by
    rw [ne_eq, ← ZMod.val_eq_zero, curve.base_val.2]
    exact hpos.ne'
  rw [ZMod.neg_val, if_neg hne, curve.base_val.2]

theorem xOf_G (curve : Curve) : xOf curve.G = some curve.Gx :=
  congrArg some curve.base_val.1

end Curve

end DataProcessor
