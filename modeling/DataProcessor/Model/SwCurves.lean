import DataProcessor.Model.FieldElement

/-!
# The native curves (`cpp/sb_sw_curves.h`)

The prime fields of the two curves, the field of coordinates and that of
scalars, and the constants the point arithmetic takes from a curve, for every
size of a word.
-/

namespace DataProcessor

variable (W : SbWordSize)

/-! ## Prime fields -/

def SB_CURVE_P256_P : SbPrimeField W where
  p := sbFeConst W 0xFFFFFFFF00000001 0x0000000000000000 0x00000000FFFFFFFF 0xFFFFFFFFFFFFFFFF
  p_minus_two_f1 :=
    sbFeConst W 0x00000000F04D3168 0xCA47D4443B0552EC 0x999CB770B4B62944 0x6571423119245693
  p_minus_two_f2 := sbFeConst W 0 0 0 0x110B9592F
  p_mp := (1 : BitVec 64).setWidth W.bits
  r2_mod_p :=
    sbFeConst W 0x00000004FFFFFFFD 0xFFFFFFFFFFFFFFFE 0xFFFFFFFBFFFFFFFF 0x0000000000000003
  r_mod_p :=
    sbFeConst W 0x00000000FFFFFFFE 0xFFFFFFFFFFFFFFFF 0xFFFFFFFF00000000 0x0000000000000001
  bits := 256

def SB_CURVE_P256_N : SbPrimeField W where
  p := sbFeConst W 0xFFFFFFFF00000000 0xFFFFFFFFFFFFFFFF 0xBCE6FAADA7179E84 0xF3B9CAC2FC632551
  p_minus_two_f1 := sbFeConst W 0 0x1E85574166915052 0x945E2FDE9505C722 0x24DC681531C30637
  p_minus_two_f2 := sbFeConst W 0 0 0x8 0x6340A6B209A6CDA9
  p_mp := (0xCCD1C8AAEE00BC4F : BitVec 64).setWidth W.bits
  r2_mod_p :=
    sbFeConst W 0x66E12D94F3D95620 0x2845B2392B6BEC59 0x4699799C49BD6FA6 0x83244C95BE79EEA2
  r_mod_p :=
    sbFeConst W 0x00000000FFFFFFFF 0x0000000000000000 0x4319055258E8617B 0x0C46353D039CDAAF
  bits := 256

def SB_CURVE_SECP256K1_P : SbPrimeField W where
  p := sbFeConst W 0xFFFFFFFFFFFFFFFF 0xFFFFFFFFFFFFFFFF 0xFFFFFFFFFFFFFFFF 0xFFFFFFFEFFFFFC2F
  p_minus_two_f1 := sbFeConst W 0 0 0x037F6FF774E142D5 0xC004A68677B5D811
  p_minus_two_f2 := sbFeConst W 0 0x49 0x30562E37A2A6A014 0x99B40D0074369E5D
  p_mp := (0xD838091DD2253531 : BitVec 64).setWidth W.bits
  r2_mod_p :=
    sbFeConst W 0x0000000000000000 0x0000000000000000 0x0000000000000001 0x000007A2000E90A1
  r_mod_p := sbFeConst W 0 0 0 0x1000003D1
  bits := 256

def SB_CURVE_SECP256K1_N : SbPrimeField W where
  p := sbFeConst W 0xFFFFFFFFFFFFFFFF 0xFFFFFFFFFFFFFFFE 0xBAAEDCE6AF48A03B 0xBFD25E8CD0364141
  p_minus_two_f1 :=
    sbFeConst W 0x3333333333333333 0x3333333333333332 0xF222F8FAEFDB533F 0x265D461C29A47373
  p_minus_two_f2 := sbFeConst W 0 0 0 5
  p_mp := (0x4B0DFF665588B13F : BitVec 64).setWidth W.bits
  r2_mod_p :=
    sbFeConst W 0x9D671CD581C69BC5 0xE697F5E45BCD07C6 0x741496C20E7CF878 0x896CF21467D7D140
  r_mod_p :=
    sbFeConst W 0x0000000000000000 0x0000000000000001 0x4551231950B75FC4 0x402DA1732FC9BEBF
  bits := 256

/-! ## Curves -/

def SB_SW_CURVE_P256 : UInt32 := 0

def SB_SW_CURVE_SECP256K1 : UInt32 := 1

/-- `sb_fe_pair_t`. -/
structure SbFePair where
  x : SbFe W
  y : SbFe W
  deriving DecidableEq

/-- `sb_sw_curve_t`. -/
structure SbSwCurve where
  p : SbPrimeField W
  n : SbPrimeField W
  minus_a : SbFe W
  minus_a_r_over_three : SbFe W
  b : SbFe W
  g_r : SbFePair W
  h_r : SbFePair W
  g_h_r : SbFePair W
  dz_r : SbFePair W
  id : UInt32

def SB_CURVE_P256 : SbSwCurve W where
  p := SB_CURVE_P256_P W
  n := SB_CURVE_P256_N W
  minus_a := sbFeConst W 0 0 0 3
  minus_a_r_over_three := (SB_CURVE_P256_P W).r_mod_p
  b := sbFeConst W 0x5AC635D8AA3A93E7 0xB3EBBD55769886BC 0x651D06B0CC53B0F6 0x3BCE3C3E27D2604B
  g_r := {
    x := sbFeConst W 0x18905F76A53755C6 0x79FB732B77622510 0x75BA95FC5FEDB601 0x79E730D418A9143C
    y := sbFeConst W 0x8571FF1825885D85 0xD2E88688DD21F325 0x8B4AB8E4BA19E45C 0xDDF25357CE95560A }
  h_r := {
    x := sbFeConst W 0x3DABB6DD63469FDA 0xD6636C75F0AEE963 0x5E3BDEACE03C7C1E 0x599DE4BA95AEDB71
    y := sbFeConst W 0xCA44FCA952D8F196 0x7AC346280EA74210 0x77AE0F653969D951 0x3EF12A374A0D7441 }
  g_h_r := {
    x := sbFeConst W 0x41FBBA1A1842253C 0x2DDFA21F8A5F4377 0x928D36DAB2C0BD2F 0x2C487DEB40FA32F9
    y := sbFeConst W 0xD041EE1CCC6223C9 0xCD81EFC57B6F0943 0xC614355C4D10A425 0x3A1739581FCABBB7 }
  dz_r := {
    x := sbFeConst W 0x2D0F1BE2B5577CF9 0x8DECDF26C01CE141 0x07E28A0D562D7881 0x8218884B2F38E1D6
    y := sbFeConst W 0x707320391E7826FA 0x36925B3CB704A1FC 0xE77DA7D78929B20A 0x747C0826CD4F4E7B }
  id := SB_SW_CURVE_P256

def SB_CURVE_SECP256K1 : SbSwCurve W where
  p := SB_CURVE_SECP256K1_P W
  n := SB_CURVE_SECP256K1_N W
  minus_a :=
    sbFeConst W 0xFFFFFFFFFFFFFFFF 0xFFFFFFFFFFFFFFFF 0xFFFFFFFFFFFFFFFF 0xFFFFFFFEFFFFFC2F
  minus_a_r_over_three := (SB_CURVE_SECP256K1_P W).p
  b := sbFeConst W 0 0 0 7
  g_r := {
    x := sbFeConst W 0x9981E643E9089F48 0x979F48C033FD129C 0x231E295329BC66DB 0xD7362E5A487E2097
    y := sbFeConst W 0xCF3F851FD4A582D6 0x70B6B59AAC19C136 0x8DFC5D5D1F1DC64D 0xB15EA6D2D3DBABE2 }
  h_r := {
    x := sbFeConst W 0x30A198DEBBCEFCAE 0x537053ECF418BA53 0xD8C36C4D8EC6CE34 0xA381C3D21219CA1C
    y := sbFeConst W 0xC198D9AFBD3AB7C6 0xA5495A07C2AFCCE5 0xF671D727A3637755 0x446A2AD0C25FF948 }
  g_h_r := {
    x := sbFeConst W 0x7BCE0EF2C201767E 0xEC431492C7C96E54 0x15EF56335DF148DB 0xCDA8D7EF632EA0D8
    y := sbFeConst W 0x3FB97A191E4DE5EA 0xBBA21827B7EFEC04 0xC7B977CC32E0BAA9 0xC374BB2A1315A22F }
  -- no point has the first coordinate zero, and these two are never used
  dz_r := {
    x := sbFeConst W 0 0 0 1
    y := sbFeConst W 0 0 0 1 }
  id := SB_SW_CURVE_SECP256K1

/-- `sb_sw_curve_from_id`; `none` is `SB_ERROR_CURVE_INVALID`. -/
def sbSwCurveFromId (curve : UInt32) : Option (SbSwCurve W) :=
  if curve = SB_SW_CURVE_P256 then some (SB_CURVE_P256 W)
  else if curve = SB_SW_CURVE_SECP256K1 then some (SB_CURVE_SECP256K1 W)
  else none

end DataProcessor
