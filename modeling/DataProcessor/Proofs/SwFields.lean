import DataProcessor.Proofs.CurveGroups
import DataProcessor.Proofs.FieldPowers

/-!
# The four native prime fields

The constants of `sb_sw_curves.h` agree with their primes, for every size of
a word, and the primes are those of the two curves of `Curve`, which are
known to be prime.
-/

namespace DataProcessor

open Lib

variable (W : SbWordSize)

theorem sbFeConst_value (w3 w2 w1 w0 : BitVec 64) :
    (sbFeConst W w3 w2 w1 w0).value =
      w0.toNat + 2 ^ 64 * w1.toNat + 2 ^ 128 * w2.toNat + 2 ^ 192 * w3.toNat := by
  have hexpand : ∀ d : BitVec 64, limbsValue (sbWordExpand W d) = d.toNat := by
    intro d
    have hall : W.bits * (8 / W.bytes) = 64 := by
      cases W <;> rfl
    rw [sbWordExpand, limbsValue_pieces, hall, Nat.mod_eq_of_lt d.isLt]
  have hlen : ∀ d : BitVec 64, W.bits * (sbWordExpand W d).length = 64 := by
    intro d
    cases W <;> rfl
  rw [SbFe.value, sbFeConst]
  simp only [limbsValue_append, List.length_append, Nat.mul_add, hexpand, hlen]

theorem SB_CURVE_P256_P_value : (SB_CURVE_P256_P W).p.value = Curve.P .SECP_256_R1 := by
  rw [SB_CURVE_P256_P, sbFeConst_value]
  decide

theorem consistent_P256_P : (SB_CURVE_P256_P W).Consistent (Curve.P .SECP_256_R1) where
  value := SB_CURVE_P256_P_value W
  prime := Curve.prime_P _
  wide := by decide
  negInverse := by
    rw [SbPrimeField.NegInverse, SB_CURVE_P256_P_value]
    cases W <;> decide
  minus_two := by
    rw [SB_CURVE_P256_P, sbFeConst_value, sbFeConst_value]
    decide
  r := by
    rw [SB_CURVE_P256_P, sbFeConst_value]
    decide
  r2 := by
    rw [SB_CURVE_P256_P, sbFeConst_value]
    decide
  bits := rfl

theorem SB_CURVE_P256_N_value : (SB_CURVE_P256_N W).p.value = Curve.N .SECP_256_R1 := by
  rw [SB_CURVE_P256_N, sbFeConst_value]
  decide

theorem consistent_P256_N : (SB_CURVE_P256_N W).Consistent (Curve.N .SECP_256_R1) where
  value := SB_CURVE_P256_N_value W
  prime := Curve.prime_N _
  wide := by decide
  negInverse := by
    rw [SbPrimeField.NegInverse, SB_CURVE_P256_N_value]
    cases W <;> decide
  minus_two := by
    rw [SB_CURVE_P256_N, sbFeConst_value, sbFeConst_value]
    decide
  r := by
    rw [SB_CURVE_P256_N, sbFeConst_value]
    decide
  r2 := by
    rw [SB_CURVE_P256_N, sbFeConst_value]
    decide
  bits := rfl

theorem SB_CURVE_SECP256K1_P_value : (SB_CURVE_SECP256K1_P W).p.value = Curve.P .SECP_256_K1 := by
  rw [SB_CURVE_SECP256K1_P, sbFeConst_value]
  decide

theorem consistent_SECP256K1_P : (SB_CURVE_SECP256K1_P W).Consistent (Curve.P .SECP_256_K1) where
  value := SB_CURVE_SECP256K1_P_value W
  prime := Curve.prime_P _
  wide := by decide
  negInverse := by
    rw [SbPrimeField.NegInverse, SB_CURVE_SECP256K1_P_value]
    cases W <;> decide
  minus_two := by
    rw [SB_CURVE_SECP256K1_P, sbFeConst_value, sbFeConst_value]
    decide
  r := by
    rw [SB_CURVE_SECP256K1_P, sbFeConst_value]
    decide
  r2 := by
    rw [SB_CURVE_SECP256K1_P, sbFeConst_value]
    decide
  bits := rfl

theorem SB_CURVE_SECP256K1_N_value : (SB_CURVE_SECP256K1_N W).p.value = Curve.N .SECP_256_K1 := by
  rw [SB_CURVE_SECP256K1_N, sbFeConst_value]
  decide

theorem consistent_SECP256K1_N : (SB_CURVE_SECP256K1_N W).Consistent (Curve.N .SECP_256_K1) where
  value := SB_CURVE_SECP256K1_N_value W
  prime := Curve.prime_N _
  wide := by decide
  negInverse := by
    rw [SbPrimeField.NegInverse, SB_CURVE_SECP256K1_N_value]
    cases W <;> decide
  minus_two := by
    rw [SB_CURVE_SECP256K1_N, sbFeConst_value, sbFeConst_value]
    decide
  r := by
    rw [SB_CURVE_SECP256K1_N, sbFeConst_value]
    decide
  r2 := by
    rw [SB_CURVE_SECP256K1_N, sbFeConst_value]
    decide
  bits := rfl

variable {W}

/-- The native operations are those of the field, inverses and comparison
included. -/
theorem sbFe_field {p : SbPrimeField W} {m : Nat} (hp : p.Consistent m) {a b : SbFe W}
    {u v : ZMod m} (ha : a.Holds u) (hb : b.Holds v) :
    (sbFeModAdd a b p).Holds (u + v) ∧ (sbFeModSub a b p).Holds (u - v) ∧
      (sbFeModNegate a p).Holds (-u) ∧ (sbFeMontMult a b p).Holds (u * v) ∧
      (sbFeModInvR a p).Holds u⁻¹ ∧ (sbFeMontReduce a p).Stands u ∧
      sbFeEqual a b = flag W (u = v) :=
  ⟨ha.modAdd hp hb, ha.modSub hp hb, ha.modNegate hp, ha.montMult hp hb, ha.modInvR hp,
    ha.montReduce hp, ha.sbFeEqual_eq hp hb⟩

theorem sbFe_field_one :
    let p := SB_CURVE_P256_P .four
    let one : ZMod (Curve.P .SECP_256_R1) := 1
    let r := p.r_mod_p
    (sbFeModAdd r r p).Holds (one + one) ∧ (sbFeModSub r r p).Holds (one - one) ∧
      (sbFeModNegate r p).Holds (-one) ∧ (sbFeMontMult r r p).Holds (one * one) ∧
      (sbFeModInvR r p).Holds one⁻¹ ∧ (sbFeMontReduce r p).Stands one ∧
      sbFeEqual r r = flag .four (one = one) :=
  sbFe_field (consistent_P256_P .four) (SbFe.Holds.r_mod_p (consistent_P256_P .four))
    (SbFe.Holds.r_mod_p (consistent_P256_P .four))

/-- A root is found exactly for squares modulo a prime of the right form. -/
theorem sbFeModSqrt_iff {p : SbPrimeField W} {m : Nat} (hp : p.Consistent m) {x : SbFe W}
    (hx : 0 < x.value) :
    ((sbFeModSqrt x p).2 = true ↔ m % 4 = 3 ∧ IsSquare (x.value : ZMod m)) ∧
      ((sbFeModSqrt x p).2 = true →
        ∃ s : ZMod m, (sbFeModSqrt x p).1.Stands s ∧ s ^ 2 = x.value) := by
  by_cases h4 : m % 4 = 3
  · obtain ⟨root, hstands, hsquare, hroot⟩ := sbFeModSqrt_spec hp h4 hx
    exact ⟨hsquare.trans (and_iff_right h4).symm, fun h => ⟨root, hstands, hroot h⟩⟩
  · rw [sbFeModSqrt_other hp.value h4 x]
    exact ⟨⟨fun h => Bool.noConfusion h, fun h => absurd h.1 h4⟩, fun h => Bool.noConfusion h⟩

theorem sbFeModSqrt_iff_one :
    ((sbFeModSqrt (SB_FE_ONE .four) (SB_CURVE_P256_P .four)).2 = true ↔
      Curve.P .SECP_256_R1 % 4 = 3 ∧
        IsSquare ((SB_FE_ONE .four).value : ZMod (Curve.P .SECP_256_R1))) ∧
      ((sbFeModSqrt (SB_FE_ONE .four) (SB_CURVE_P256_P .four)).2 = true →
        ∃ s : ZMod (Curve.P .SECP_256_R1),
          (sbFeModSqrt (SB_FE_ONE .four) (SB_CURVE_P256_P .four)).1.Stands s ∧
            s ^ 2 = (SB_FE_ONE .four).value) :=
  sbFeModSqrt_iff (consistent_P256_P .four) (by decide)

end DataProcessor
