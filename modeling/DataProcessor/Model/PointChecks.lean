import DataProcessor.Model.PointArithmetic

/-!
# Checks of points and scalars (`cpp/sb_sw_lib.c`)

None of these stops at a test that fails: every test is made, and what they
return is one word for all of them. The numbers they look at are
quasi-reduced on the way and stay so.
-/

namespace DataProcessor

section

variable {W : SbWordSize}

/-- `!a`. -/
def sbNot (a : SbWord W) : SbWord W := if a = 0 then 1 else 0

/-- From the first coordinate in `x1`, into `y1`. -/
def sbSwCurveY2 (c : SbSwContext W) (s : SbSwCurve W) : SbSwContext W :=
  let c := { c with t5 := sbFeMontConvert c.x1 s.p }
  let c := { c with t6 := sbFeMontMult c.t5 c.x1 s.p }
  let c := { c with t6 := sbFeModSub c.t6 s.minus_a s.p }
  let c := { c with y1 := sbFeMontMult c.t5 c.t6 s.p }
  { c with y1 := sbFeModAdd c.y1 s.b s.p }

def sbSwPointValidate (c : SbSwContext W) (s : SbSwCurve W) : SbSwContext W × SbWord W :=
  let r : SbWord W := 1
  let r := r &&& sbNot (sbFeEqual c.point.y (SB_FE_ZERO W))
  let r := r &&& (sbFeLt c.point.x s.p.p &&& sbFeLt c.point.y s.p.p)
  let c := { c with point.y := sbFeModReduce c.point.y s.p }
  let c := { c with point.x := sbFeModReduce c.point.x s.p }
  let c := { c with t5 := sbFeMontSquare c.point.y s.p }
  let c := { c with y2 := sbFeMontConvert c.t5 s.p }
  let c := { c with x1 := c.point.x }
  let c := sbSwCurveY2 c s
  let r := r &&& sbFeEqual c.y1 c.y2
  (c, r)

def sbSwPointDecompress (c : SbSwContext W) (sign : SbWord W) (s : SbSwCurve W) :
    SbSwContext W × SbWord W :=
  let r : SbWord W := 1
  let r := r &&& sbFeLt c.point.x s.p.p
  let c := { c with point.x := sbFeModReduce c.point.x s.p }
  let c := { c with x1 := c.point.x }
  let c := sbSwCurveY2 c s
  let (y1, rv) := sbFeModSqrt c.y1 s.p
  let c := { c with y1 }
  let r := r &&& (if rv then 1 else 0)
  let sign_mismatch := sbFeTestBit c.y1 0 ^^^ sign
  let c := { c with t5 := sbFeModNegate c.y1 s.p }
  let (y1, t5) := sbFeCtswap sign_mismatch c.y1 c.t5
  let c := { c with y1, t5 }
  let c := { c with point.y := c.y1 }
  (c, r)

def sbSwScalarValidate (k : SbFe W) (s : SbSwCurve W) : SbFe W × SbWord W :=
  let r : SbWord W := 1
  let r := r &&& sbFeLt k s.n.p
  let k := sbFeModReduce k s.n
  let r := r &&& sbNot (sbFeEqual k s.n.p)
  (k, r)

def sbSwZValidate (z : SbFe W) (s : SbSwCurve W) : SbFe W × SbWord W :=
  let r : SbWord W := 1
  let r := r &&& sbFeLt z s.p.p
  let z := sbFeModReduce z s.p
  let r := r &&& sbNot (sbFeEqual z s.p.p)
  (z, r)

end

/-- `SB_NULLIFY` of a context. -/
def SbSwContext.null (W : SbWordSize) : SbSwContext W where
  k := SB_FE_ZERO W
  z := SB_FE_ZERO W
  x1 := SB_FE_ZERO W
  y1 := SB_FE_ZERO W
  x2 := SB_FE_ZERO W
  y2 := SB_FE_ZERO W
  t5 := SB_FE_ZERO W
  t6 := SB_FE_ZERO W
  t7 := SB_FE_ZERO W
  t8 := SB_FE_ZERO W
  point := ⟨SB_FE_ZERO W, SB_FE_ZERO W⟩
  state := {
    operation := .NONE
    curve_id := 0
    stage := 0
    i := 0
    inv_k := 0
    k_one := 0
    swap := 0 }
  message := SB_FE_ZERO W
  priv := SB_FE_ZERO W

end DataProcessor
