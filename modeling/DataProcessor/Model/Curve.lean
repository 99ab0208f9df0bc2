import DataProcessor.Model.Kotlin

/-!
# The curves (`crypto/curves/Curve.kt`)

The parameters of the six curves `y ^ 2 = x ^ 3 + A * x + B` over the
integers modulo `P`, with a base point `(Gx, Gy)` of order `N`, as the
decimal numbers the source has. None is negative, and they are kept as
natural numbers.
-/

namespace DataProcessor

structure CurveParameters where
  P : Nat
  N : Nat
  A : Nat
  B : Nat
  Gx : Nat
  Gy : Nat

inductive Curve
  | SECP_192_K1
  | SECP_192_R1
  | SECP_224_K1
  | SECP_224_R1
  | SECP_256_K1
  | SECP_256_R1
  deriving DecidableEq, Repr

namespace Curve

def parameters : Curve → CurveParameters
  | .SECP_192_K1 => {
      P := 6277101735386680763835789423207666416102355444459739541047
      N := 6277101735386680763835789423061264271957123915200845512077
      A := 0
      B := 3
      Gx := 5377521262291226325198505011805525673063229037935769709693
      Gy := 3805108391982600717572440947423858335415441070543209377693 }
  | .SECP_192_R1 => {
      P := 6277101735386680763835789423207666416083908700390324961279
      N := 6277101735386680763835789423176059013767194773182842284081
      A := 6277101735386680763835789423207666416083908700390324961276
      B := 2455155546008943817740293915197451784769108058161191238065
      Gx := 602046282375688656758213480587526111916698976636884684818
      Gy := 174050332293622031404857552280219410364023488927386650641 }
  | .SECP_224_K1 => {
      P := 26959946667150639794667015087019630673637144422540572481099315275117
      N := 26959946667150639794667015087019640346510327083120074548994958668279
      A := 0
      B := 5
      Gx := 16983810465656793445178183341822322175883642221536626637512293983324
      Gy := 13272896753306862154536785447615077600479862871316829862783613755813 }
  | .SECP_224_R1 => {
      P := 26959946667150639794667015087019630673557916260026308143510066298881
      N := 26959946667150639794667015087019625940457807714424391721682722368061
      A := 26959946667150639794667015087019630673557916260026308143510066298878
      B := 18958286285566608000408668544493926415504680968679321075787234672564
      Gx := 19277929113566293071110308034699488026831934219452440156649784352033
      Gy := 19926808758034470970197974370888749184205991990603949537637343198772 }
  | .SECP_256_K1 => {
      P := 115792089237316195423570985008687907853269984665640564039457584007908834671663
      N := 115792089237316195423570985008687907852837564279074904382605163141518161494337
      A := 0
      B := 7
      Gx := 55066263022277343669578718895168534326250603453777594175500187360389116729240
      Gy := 32670510020758816978083085130507043184471273380659243275938904335757337482424 }
  | .SECP_256_R1 => {
      P := 115792089210356248762697446949407573530086143415290314195533631308867097853951
      N := 115792089210356248762697446949407573529996955224135760342422259061068512044369
      A := 115792089210356248762697446949407573530086143415290314195533631308867097853948
      B := 41058363725152142129326129780047268409114441015993725554835256314039467401291
      Gx := 48439561293906451759052585252797914202762949526041747995844080717082404635286
      Gy := 36134250956749795798585127919587881956611106672985015071877198253568414405109 }

def P (curve : Curve) : Nat := curve.parameters.P
def N (curve : Curve) : Nat := curve.parameters.N
def A (curve : Curve) : Nat := curve.parameters.A
def B (curve : Curve) : Nat := curve.parameters.B
def Gx (curve : Curve) : Nat := curve.parameters.Gx
def Gy (curve : Curve) : Nat := curve.parameters.Gy

theorem N_pos (curve : Curve) : 0 < curve.N := by
  cases curve <;> decide

end Curve

end DataProcessor
