import Mathlib

/-!
# A cubic without a root modulo a prime

Let `x ^ 3 = a * x + b` modulo a prime `p`. Then every power of `x` is
`c0 + c1 * x + c2 * x ^ 2` for coefficients that do not depend on `x`, and
`cubicPow` computes them by repeated squaring. The `p`th power of `x` is
`x`, so `c0 + (c1 - 1) * x + c2 * x ^ 2` is zero there. If that is
invertible modulo the cubic, there is no such `x`: `no_root`.
-/

namespace DataProcessor.Lib

/-- The residue `c0 + c1 * x + c2 * x ^ 2`. -/
structure CubicResidue where
  c0 : Nat
  c1 : Nat
  c2 : Nat
  deriving DecidableEq

def CubicResidue.eval {F : Type} [CommRing F] (u : CubicResidue) (x : F) : F :=
  u.c0 + u.c1 * x + u.c2 * x ^ 2

/-- The product, with `x ^ 3` and `x ^ 4` brought down by `x ^ 3 = a * x + b`. -/
def cubicMul (p a b : Nat) (u v : CubicResidue) : CubicResidue :=
  let e3 := u.c1 * v.c2 + u.c2 * v.c1
  let e4 := u.c2 * v.c2
  { c0 := (u.c0 * v.c0 + e3 * b) % p
    c1 := (u.c0 * v.c1 + u.c1 * v.c0 + e3 * a + e4 * b) % p
    c2 := (u.c0 * v.c2 + u.c1 * v.c1 + u.c2 * v.c0 + e4 * a) % p }

/-- `x ^ n` for an exponent of at most `bits` bits. -/
def cubicPow (p a b : Nat) : Nat → Nat → CubicResidue
  | 0, _ => ⟨1, 0, 0⟩
  | bits + 1, n =>
      let half := cubicPow p a b bits (n / 2)
      let square := cubicMul p a b half half
      if n % 2 = 0 then square else cubicMul p a b square ⟨0, 1, 0⟩

variable {p a b : Nat} {x : ZMod p}

theorem eval_cubicMul (hx : x ^ 3 = a * x + b) (u v : CubicResidue) :
    (cubicMul p a b u v).eval x = u.eval x * v.eval x := by
  have hx4 : x ^ 4 = a * x ^ 2 + b * x := by
    linear_combination x * hx
  simp only [cubicMul, CubicResidue.eval]
  push_cast [ZMod.natCast_mod]
  linear_combination
    -((u.c1 * v.c2 + u.c2 * v.c1 : ZMod p)) * hx - ((u.c2 * v.c2 : ZMod p)) * hx4

theorem eval_cubicPow (hx : x ^ 3 = a * x + b) {bits n : Nat} (h : n < 2 ^ bits) :
    (cubicPow p a b bits n).eval x = x ^ n := by
  induction bits generalizing n with
  | zero =>
      have hn : n = 0 := by simpa using h
      simp [cubicPow, CubicResidue.eval, hn]
  | succ bits ih =>
      have hhalf : n / 2 < 2 ^ bits := by
        rw [Nat.pow_succ] at h
        omega
      have hsquare : x ^ (n / 2) * x ^ (n / 2) = x ^ (n / 2 * 2) := by
        rw [pow_mul, pow_two]
      rw [cubicPow]
      split
      · next heven => rw [eval_cubicMul hx, ih hhalf, hsquare, show n / 2 * 2 = n by omega]
      · next hodd =>
          rw [eval_cubicMul hx, eval_cubicMul hx, ih hhalf, hsquare]
          have hone : (⟨0, 1, 0⟩ : CubicResidue).eval x = x := by
            simp [CubicResidue.eval]
          rw [hone, ← pow_succ, show n / 2 * 2 + 1 = n by omega]

/-- `x ^ p - x`, and that `v` is its inverse modulo the cubic. -/
def invertsFrobenius (p a b bits : Nat) (v : CubicResidue) : Bool :=
  let frobenius := cubicPow p a b bits p
  let difference := { frobenius with c1 := frobenius.c1 + (p - 1) }
  decide (cubicMul p a b difference v = ⟨1, 0, 0⟩)

theorem no_root [Fact p.Prime] {bits : Nat} (hbits : p < 2 ^ bits) {v : CubicResidue}
    (h : invertsFrobenius p a b bits v = true) (x : ZMod p) : x ^ 3 ≠ a * x + b := by
  intro hx
  have hfrobenius : (cubicPow p a b bits p).eval x = x := by
    rw [eval_cubicPow hx hbits, ZMod.pow_card]
  have hinverse := congrArg (CubicResidue.eval · x) (of_decide_eq_true h)
  simp only [eval_cubicMul hx] at hinverse
  have hpos : 1 ≤ p := (Fact.out : p.Prime).one_lt.le
  have hdifference : (CubicResidue.eval { cubicPow p a b bits p with
      c1 := (cubicPow p a b bits p).c1 + (p - 1) } x : ZMod p) = 0 := by
    simp only [CubicResidue.eval] at hfrobenius ⊢
    rw [Nat.cast_add, Nat.cast_sub hpos, ZMod.natCast_self, Nat.cast_one]
    linear_combination hfrobenius
  rw [hdifference, zero_mul] at hinverse
  simp [CubicResidue.eval] at hinverse

end DataProcessor.Lib
