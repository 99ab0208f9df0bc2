import DataProcessor.Model.SwCurves

/-!
# Point arithmetic of the native library (`cpp/sb_sw_lib.c`)

The registers of a context and what the source's functions do to them, one
assignment after the other. Coordinates are in the Montgomery domain until
the end of a multiplication.

In the source the registers share their storage with each other and with the
saved state where their lifetimes do not overlap; no value is read under
another name than it was written. Here each has a field of its own, and the
local copy of the state that the source writes back before it returns is the
field itself. What a function leaves in its temporaries is what the source
leaves there.
-/

namespace DataProcessor

/-! ## The context (`include/sb_sw_context.h`) -/

/-- `sb_sw_incremental_operation_value_t`. -/
inductive SbSwIncrementalOperation
  | NONE
  | COMPUTE_PUBLIC_KEY
  | SHARED_SECRET
  | POINT_MULTIPLY
  | SIGN_MESSAGE_DIGEST
  | VERIFY_SIGNATURE
  deriving DecidableEq, Repr

/-! The stages of a multiplication, which are numbers. -/

def SB_SW_POINT_MULT_OP_STAGE_LADDER : Nat := 0
def SB_SW_POINT_MULT_OP_STAGE_INV_Z : Nat := 1
def SB_SW_POINT_MULT_OP_DONE : Nat := 2

/-- `sb_sw_context_saved_state_t`. -/
structure SbSwSavedState (W : SbWordSize) where
  operation : SbSwIncrementalOperation
  curve_id : UInt32
  stage : Nat
  i : SbBitcount
  inv_k : SbWord W
  k_one : SbWord W
  swap : SbWord W

/-- `sb_sw_context_t`, while curve points are computed with. `message` is what
is signed. -/
structure SbSwContext (W : SbWordSize) where
  k : SbFe W
  z : SbFe W
  x1 : SbFe W
  y1 : SbFe W
  x2 : SbFe W
  y2 : SbFe W
  t5 : SbFe W
  t6 : SbFe W
  t7 : SbFe W
  t8 : SbFe W
  point : SbFePair W
  state : SbSwSavedState W
  message : SbFe W
  priv : SbFe W

section

variable {W : SbWordSize}

namespace SbSwContext

/-- `sb_fe_ctswap` of `(x1, y1)` and `(x2, y2)`. -/
def swapPoints (c : SbSwContext W) (b : SbWord W) : SbSwContext W :=
  let (x1, x2) := sbFeCtswap b c.x1 c.x2
  let (y1, y2) := sbFeCtswap b c.y1 c.y2
  { c with x1, y1, x2, y2 }

end SbSwContext

/-! ## Co-Z formulas -/

def sbSwPointInitialDouble (c : SbSwContext W) (s : SbSwCurve W) : SbSwContext W :=
  let c := { c with t5 := sbFeModDouble c.y2 s.p }
  let c := { c with y1 := sbFeMontSquare c.x2 s.p }
  let c := { c with y1 := sbFeModSub c.y1 s.minus_a_r_over_three s.p }
  let c := { c with x1 := sbFeModDouble c.y1 s.p }
  let c := { c with y1 := sbFeModAdd c.y1 c.x1 s.p }
  let c := { c with t6 := sbFeMontSquare c.y2 s.p }
  let c := { c with y2 := sbFeModDouble c.t6 s.p }
  let c := { c with t6 := sbFeModDouble c.y2 s.p }
  let c := { c with x1 := sbFeMontMult c.x2 c.t6 s.p }
  let c := { c with x2 := sbFeMontSquare c.y1 s.p }
  let c := { c with x2 := sbFeModSub c.x2 c.x1 s.p }
  let c := { c with x2 := sbFeModSub c.x2 c.x1 s.p }
  let c := { c with t6 := sbFeModSub c.x1 c.x2 s.p }
  let c := { c with t7 := sbFeMontMult c.y1 c.t6 s.p }
  let c := { c with y1 := sbFeMontSquare c.y2 s.p }
  let c := { c with y1 := sbFeModDouble c.y1 s.p }
  { c with y2 := sbFeModSub c.t7 c.y1 s.p }

/-- It takes `x2 - x1` in `t6`. -/
def sbSwPointCoZAddUpdateZup (c : SbSwContext W) (s : SbSwCurve W) : SbSwContext W :=
  let c := { c with t5 := sbFeMontSquare c.t6 s.p }
  let c := { c with t6 := sbFeMontMult c.x2 c.t5 s.p }
  let c := { c with x2 := sbFeMontMult c.x1 c.t5 s.p }
  let c := { c with t7 := sbFeModSub c.y2 c.y1 s.p }
  let c := { c with t5 := sbFeModAdd c.x2 c.t6 s.p }
  let c := { c with t6 := sbFeModSub c.t6 c.x2 s.p }
  let c := { c with y2 := sbFeMontMult c.y1 c.t6 s.p }
  let c := { c with x1 := sbFeMontSquare c.t7 s.p }
  let c := { c with x1 := sbFeModSub c.x1 c.t5 s.p }
  let c := { c with t6 := sbFeModSub c.x2 c.x1 s.p }
  let c := { c with y1 := sbFeMontMult c.t7 c.t6 s.p }
  { c with y1 := sbFeModSub c.y1 c.y2 s.p }

def sbSwPointCoZAddUpdate (c : SbSwContext W) (s : SbSwCurve W) : SbSwContext W :=
  sbSwPointCoZAddUpdateZup { c with t6 := sbFeModSub c.x2 c.x1 s.p } s

def sbSwPointCoZConjAdd (c : SbSwContext W) (s : SbSwCurve W) : SbSwContext W :=
  let c := { c with t8 := sbFeModAdd c.y1 c.y2 s.p }
  let c := sbSwPointCoZAddUpdate c s
  let c := { c with t6 := c.x2 }
  let c := { c with t7 := c.y2 }
  let c := { c with x2 := sbFeMontSquare c.t8 s.p }
  let c := { c with x2 := sbFeModSub c.x2 c.t5 s.p }
  let c := { c with t5 := sbFeModSub c.x2 c.t6 s.p }
  let c := { c with y2 := sbFeMontMult c.t8 c.t5 s.p }
  { c with y2 := sbFeModSub c.y2 c.t7 s.p }

/-! ## Multiplication -/

/-- The scalar and what is left in `t5`. -/
def sbSwRegularizeScalar (scalar : SbFe W) (s : SbSwCurve W) : SbFe W × SbFe W :=
  let (t5, c_1) := sbFeAdd scalar s.n.p
  let scalar := (sbFeAdd t5 s.n.p).1
  sbFeCtswap c_1 scalar t5

/-- The start of `sb_sw_point_mult_start`: a point with the first coordinate
zero is replaced by its double, and the scalar halved. -/
def substituteDouble (m : SbSwContext W) (curve : SbSwCurve W) : SbSwContext W :=
  let is_zero := sbFeEqual m.point.x curve.p.p
  let m := { m with y1 := sbFeMontReduce m.point.y curve.p }
  let zero_sign := sbFeTestBit m.y1 0
  let m := { m with x1 := curve.dz_r.x, y1 := curve.dz_r.y }
  let m := { m with y2 := sbFeModNegate m.y1 curve.p }
  let (y1, y2) := sbFeCtswap zero_sign m.y1 m.y2
  let m := { m with y1, y2 }
  let m := { m with t5 := sbFeModHalve m.k curve.n }
  let (k, t5) := sbFeCtswap is_zero m.k m.t5
  let m := { m with k, t5 }
  let (x, x1) := sbFeCtswap is_zero m.point.x m.x1
  let (y, y1) := sbFeCtswap is_zero m.point.y m.y1
  { m with point := { x, y }, x1, y1 }

/-- Next, a scalar with its top bit set is inverted. -/
def invertScalar (m : SbSwContext W) (curve : SbSwCurve W) : SbSwContext W :=
  let inv_k := sbFeTestBit m.k (BitVec.ofNat 32 (SB_FE_BITS - 1))
  let m := { m with t5 := sbFeModNegate m.k curve.n }
  let (t5, k) := sbFeCtswap inv_k m.t5 m.k
  let m := { m with t5, k }
  let k_one := sbFeEqual m.k (SB_FE_ONE W)
  { m with state := { m.state with inv_k, k_one } }

/-- Its end: the last coordinate of the two points is multiplied by `z`. -/
def blindPoints (m : SbSwContext W) (curve : SbSwCurve W) : SbSwContext W :=
  let m := { m with t7 := sbFeMontSquare m.z curve.p }
  let m := { m with t6 := sbFeMontMult m.z m.t7 curve.p }
  let m := { m with t5 := m.x1 }
  let m := { m with x1 := sbFeMontMult m.t5 m.t7 curve.p }
  let m := { m with t5 := m.y1 }
  let m := { m with y1 := sbFeMontMult m.t5 m.t6 curve.p }
  let m := { m with t5 := m.x2 }
  let m := { m with x2 := sbFeMontMult m.t5 m.t7 curve.p }
  let m := { m with t5 := m.y2 }
  { m with y2 := sbFeMontMult m.t5 m.t6 curve.p }

def sbSwPointMultStart (m : SbSwContext W) (curve : SbSwCurve W) : SbSwContext W :=
  let m := substituteDouble m curve
  let m := invertScalar m curve
  let (k, t5) := sbSwRegularizeScalar m.k curve
  let m := { m with k, t5 }
  let m := { m with x2 := m.point.x, y2 := m.point.y }
  let m := sbSwPointInitialDouble m curve
  let m := blindPoints m curve
  { m with state := { m.state with
      i := BitVec.ofNat 32 (SB_FE_BITS - 1), stage := SB_SW_POINT_MULT_OP_STAGE_LADDER } }

def SB_SW_POINT_ITERATIONS : Nat := 16

/-- One turn of the ladder, for bit `state.i`. -/
def ladderTurn (m : SbSwContext W) (curve : SbSwCurve W) : SbSwContext W :=
  let b := sbFeTestBit m.k m.state.i
  let m := m.swapPoints (m.state.swap ^^^ b)
  let m := { m with state.swap := b }
  let m := sbSwPointCoZConjAdd m curve
  let m := sbSwPointCoZAddUpdate m curve
  { m with state.i := m.state.i - 1 }

/-- The loop of the ladder stage, with the number of turns left to it. -/
def ladderTurns (curve : SbSwCurve W) : Nat → SbSwContext W → SbSwContext W
  | 0, m => m
  | ops + 1, m => if m.state.i = 0 then m else ladderTurns curve ops (ladderTurn m curve)

/-- The difference of the first coordinates in `t8`, with the points swapped
and back. -/
def swappedDifference (m : SbSwContext W) (b : SbWord W) (curve : SbSwCurve W) : SbSwContext W :=
  let m := m.swapPoints b
  let m := { m with t8 := sbFeModSub m.x1 m.x2 curve.p }
  m.swapPoints b

/-- The stage `INV_Z` up to the inverse of the last coordinate, in `t8`; `b`
is the lowest bit. -/
def recoverZ (m : SbSwContext W) (b : SbWord W) (curve : SbSwCurve W) : SbSwContext W :=
  let m := sbSwPointCoZConjAdd m curve
  let m := swappedDifference m b curve
  let m := { m with t5 := sbFeMontMult m.t8 m.y2 curve.p }
  let m := { m with t8 := sbFeMontMult m.t5 m.point.x curve.p }
  let m := { m with t8 := sbFeModInvR m.t8 curve.p }
  let m := { m with t5 := sbFeMontMult m.t8 m.point.y curve.p }
  { m with t8 := sbFeMontMult m.t5 m.x2 curve.p }

/-- Then up to the affine coordinates. The scalar one ends in the origin, and
the point is added to it. -/
def applyInverse (m : SbSwContext W) (curve : SbSwCurve W) : SbSwContext W :=
  let m := { m with t5 := sbFeMontSquare m.t8 curve.p }
  let m := { m with t6 := sbFeMontMult m.t5 m.t8 curve.p }
  let m := { m with t7 := sbFeMontMult m.t5 m.x2 curve.p }
  let m := { m with x2 := sbFeModAdd m.t7 m.point.x curve.p }
  let (t7, x2) := sbFeCtswap m.state.k_one m.t7 m.x2
  let m := { m with t7, x2 }
  let m := { m with x1 := sbFeMontReduce m.t7 curve.p }
  let m := { m with t7 := sbFeMontMult m.t6 m.y2 curve.p }
  let m := { m with y2 := sbFeModAdd m.t7 m.point.y curve.p }
  let (t7, y2) := sbFeCtswap m.state.k_one m.t7 m.y2
  let m := { m with t7, y2 }
  { m with y1 := sbFeMontReduce m.t7 curve.p }

/-- And then to its end, for an inverted scalar. -/
def invertBack (m : SbSwContext W) (curve : SbSwCurve W) : SbSwContext W :=
  let m := { m with t5 := sbFeModNegate m.y1 curve.p }
  let (y1, t5) := sbFeCtswap m.state.inv_k m.y1 m.t5
  let m := { m with y1, t5 }
  let m := { m with k := (sbFeSub m.k curve.n.p).1 }
  let m := { m with k := sbFeModReduce m.k curve.n }
  let m := { m with t5 := sbFeModNegate m.k curve.n }
  let (t5, k) := sbFeCtswap m.state.inv_k m.t5 m.k
  { m with t5, k }

/-- The stage `INV_Z`. -/
def finishLadder (m : SbSwContext W) (curve : SbSwCurve W) : SbSwContext W :=
  let b := sbFeTestBit m.k 0
  let m := { m with state.swap := m.state.swap ^^^ b }
  let m := m.swapPoints m.state.swap
  let m := recoverZ m b curve
  let m := sbSwPointCoZAddUpdate m curve
  let m := m.swapPoints (b ^^^ 1)
  let m := applyInverse m curve
  let m := invertBack m curve
  { m with state.stage := SB_SW_POINT_MULT_OP_DONE }

/-- The context, and whether the multiplication is done. -/
def sbSwPointMultContinue (m : SbSwContext W) (curve : SbSwCurve W) : SbSwContext W × Bool :=
  if m.state.stage = SB_SW_POINT_MULT_OP_STAGE_LADDER then
    let m := ladderTurns curve SB_SW_POINT_ITERATIONS m
    let m := if m.state.i = 0 then
        { m with state.stage := SB_SW_POINT_MULT_OP_STAGE_INV_Z }
      else m
    (m, false)
  else if m.state.stage = SB_SW_POINT_MULT_OP_STAGE_INV_Z then
    (finishLadder m curve, true)
  else (m, m.state.stage = SB_SW_POINT_MULT_OP_DONE)

/-- The loop of the functions that do an operation in one go: it is continued
until it is done, here for at most `calls` times. -/
def untilDone {σ : Type} (continue_ : σ → σ × Bool) : Nat → σ → Option σ
  | 0, _ => none
  | calls + 1, m =>
      let (m, done) := continue_ m
      if done then some m else untilDone continue_ calls m

def sbSwPointMultIsFinished (m : SbSwContext W) : Bool :=
  m.state.stage = SB_SW_POINT_MULT_OP_DONE

end

end DataProcessor
