import Mathlib

/-!
# ECDSA over a group of prime order

The arithmetic of the scheme, away from any curve: scalars modulo a prime
`n` act on the points `n` kills, a signature is verified by a point made of
the base point and the public key, and a public key is recovered from that
point. `verificationPoint_sign` is why a signature verifies, and
`eq_verificationPoint_iff` why recovery undoes verification.
-/

namespace DataProcessor.Lib

namespace EcdsaScheme

variable {E : Type} [AddCommGroup E] {n : Nat} {P : E}

/-! ## Scalars -/

theorem smul_killed (hP : n • P = 0) (a : ZMod n) : n • (a.val • P) = 0 := by
  rw [← mul_nsmul', mul_comm, mul_nsmul', hP, nsmul_zero]

variable [Fact n.Prime]

theorem nsmul_val_natCast (hP : n • P = 0) (m : Nat) : (m : ZMod n).val • P = m • P := by
  rw [ZMod.val_natCast]
  calc (m % n) • P = (m % n) • P + (m / n) • n • P := by rw [hP, nsmul_zero, add_zero]
    _ = (m % n + m / n * n) • P := by rw [add_nsmul, mul_nsmul']
    _ = m • P := by rw [mul_comm, Nat.mod_add_div]

theorem add_smul (hP : n • P = 0) (a b : ZMod n) : (a + b).val • P = a.val • P + b.val • P := by
  rw [← add_nsmul, ← nsmul_val_natCast hP (a.val + b.val), Nat.cast_add,
    ZMod.natCast_zmod_val, ZMod.natCast_zmod_val]

theorem mul_smul (hP : n • P = 0) (a b : ZMod n) : (a * b).val • P = a.val • b.val • P := by
  rw [← mul_nsmul', ← nsmul_val_natCast hP (a.val * b.val), Nat.cast_mul,
    ZMod.natCast_zmod_val, ZMod.natCast_zmod_val]

theorem neg_smul (hP : n • P = 0) (a : ZMod n) : (-a).val • P = -(a.val • P) := by
  rw [← add_eq_zero_iff_eq_neg, ← add_smul hP, neg_add_cancel, ZMod.val_zero, zero_nsmul]

theorem zsmul_eq (hP : n • P = 0) (k : Int) : (k : ZMod n).val • P = k • P := by
  cases k with
  | ofNat m => simpa using nsmul_val_natCast hP m
  | negSucc m =>
      rw [Int.cast_negSucc, neg_smul hP, nsmul_val_natCast hP, negSucc_zsmul]

/-! ## Verification and recovery -/

/-- `(e * s⁻¹) G + (r * s⁻¹) Q`, whose first coordinate verification compares
with `r`. -/
def verificationPoint (G Q : E) (e r s : ZMod n) : E :=
  (e * s⁻¹).val • G + (r * s⁻¹).val • Q

/-- `r⁻¹ (s R - e G)`. -/
def recoveredKey (G R : E) (e r s : ZMod n) : E :=
  (r⁻¹ * -e).val • G + (r⁻¹ * s).val • R

/-- Verification as the textbook has it; `xOf` is a point's first coordinate
as a number, and the neutral element has none. -/
def Accepts (n : Nat) [Fact n.Prime] (xOf : E → Option Nat) (G Q : E) (e r s : Nat) : Prop :=
  1 ≤ r ∧ r < n ∧ 1 ≤ s ∧ s < n ∧
    ∃ x, xOf (verificationPoint G Q (e : ZMod n) r s) = some x ∧ x % n = r

variable {G Q R : E} {e r s : ZMod n}

/-- With the key `d G` the verification point is a multiple of `G`. -/
theorem verificationPoint_key (hG : n • G = 0) (d : ZMod n) :
    verificationPoint G (d.val • G) e r s = ((e + r * d) * s⁻¹).val • G := by
  rw [verificationPoint, ← mul_smul hG, ← add_smul hG]
  congr 2
  ring

/-- A signature made with the nonce `k`, or its folded form, leads back to
the nonce's point, up to sign. -/
theorem verificationPoint_sign (hG : n • G = 0) {d k : ZMod n} (hs : s ≠ 0)
    (h : s = k⁻¹ * (e + r * d) ∨ s = -(k⁻¹ * (e + r * d))) :
    verificationPoint G (d.val • G) e r s = k.val • G ∨
      verificationPoint G (d.val • G) e r s = -(k.val • G) := by
  have hk : k ≠ 0 := by
    rintro rfl
    rw [inv_zero, zero_mul, neg_zero, or_self] at h
    exact hs h
  have ht : e + r * d ≠ 0 := by
    intro h0
    rw [h0, mul_zero, neg_zero, or_self] at h
    exact hs h
  rw [verificationPoint_key hG, ← neg_smul hG]
  rcases h with h | h
  · left
    congr 2
    rw [h]
    field_simp
  · right
    congr 2
    rw [h]
    field_simp

/-- What is signed with the key `d` and the nonce `k` verifies under `d G`. -/
theorem accepts_sign {xOf : E → Option Nat} (hG : n • G = 0) {d k : ZMod n} {e r s x : Nat}
    (hr : 1 ≤ r ∧ r < n) (hs : 1 ≤ s ∧ s < n) (hx : xOf (k.val • G) = some x)
    (hmod : x % n = r) (hsign : (s : ZMod n) * k = e + r * d) :
    Accepts n xOf G (d.val • G) e r s := by
  have hne : (s : ZMod n) ≠ 0 := by
    rw [ne_eq, ZMod.natCast_eq_zero_iff]
    exact Nat.not_dvd_of_pos_of_lt hs.1 hs.2
  have hk : ((e : ZMod n) + r * d) * (s : ZMod n)⁻¹ = k := by
    rw [← hsign]
    field_simp
  refine ⟨hr.1, hr.2, hs.1, hs.2, x, ?_, hmod⟩
  rw [verificationPoint_key hG, hk]
  exact hx

theorem eq_verificationPoint_iff (hG : n • G = 0) (hQ : n • Q = 0) (hR : n • R = 0)
    (hr : r ≠ 0) (hs : s ≠ 0) :
    R = verificationPoint G Q e r s ↔ recoveredKey G R e r s = Q := by
  constructor
  · rintro rfl
    have hsG := smul_killed hG (e * s⁻¹)
    have hsQ := smul_killed hQ (r * s⁻¹)
    rw [recoveredKey, verificationPoint, nsmul_add, ← mul_smul hG, ← mul_smul hQ,
      ← add_assoc, ← add_smul hG]
    have hcancel : r⁻¹ * -e + r⁻¹ * s * (e * s⁻¹) = 0 := by
      field_simp
      ring
    have hone : r⁻¹ * s * (r * s⁻¹) = 1 := by
      field_simp
    rw [hcancel, hone, ZMod.val_zero, zero_nsmul, zero_add]
    simpa using nsmul_val_natCast hQ 1
  · rintro rfl
    rw [recoveredKey, verificationPoint, nsmul_add, ← mul_smul hG, ← mul_smul hR,
      ← add_assoc, ← add_smul hG]
    have hcancel : e * s⁻¹ + r * s⁻¹ * (r⁻¹ * -e) = 0 := by
      field_simp
      ring
    have hone : r * s⁻¹ * (r⁻¹ * s) = 1 := by
      field_simp
    rw [hcancel, hone, ZMod.val_zero, zero_nsmul, zero_add]
    simpa using (nsmul_val_natCast hR 1).symm

/-- The key of a signature with the base point. -/
theorem recoveredKey_base (hG : n • G = 0) {k : ZMod n} (hr : r ≠ 0) (hs : s = e + r * k) :
    recoveredKey G G e r s = k.val • G := by
  rw [recoveredKey, ← add_smul hG, hs]
  congr 2
  field_simp
  ring

/-- With a zero hash and `r = s` the verification point is the key: its own
coordinate signs for it. -/
theorem verificationPoint_zero (hQ : n • Q = 0) (hr : r ≠ 0) :
    verificationPoint G Q 0 r r = Q := by
  have hone : r * r⁻¹ = ((1 : Nat) : ZMod n) := by
    rw [mul_inv_cancel₀ hr, Nat.cast_one]
  rw [verificationPoint, zero_mul, ZMod.val_zero, zero_nsmul, zero_add, hone,
    nsmul_val_natCast hQ, one_nsmul]

theorem accepts_zero {xOf : E → Option Nat} (hQ : n • Q = 0) {x : Nat} (hx : xOf Q = some x)
    (hr : x % n ≠ 0) : Accepts n xOf G Q 0 (x % n) (x % n) := by
  have hpos : 1 ≤ x % n := Nat.one_le_iff_ne_zero.2 hr
  have hn : 0 < n := (Fact.out : n.Prime).pos
  have hlt : x % n < n := Nat.mod_lt x hn
  have hne : ((x % n : Nat) : ZMod n) ≠ 0 := by
    rw [ne_eq, ZMod.natCast_eq_zero_iff]
    exact Nat.not_dvd_of_pos_of_lt hpos hlt
  refine ⟨hpos, hlt, hpos, hlt, x, ?_, rfl⟩
  rw [Nat.cast_zero, verificationPoint_zero hQ hne]
  exact hx

end EcdsaScheme

end DataProcessor.Lib
