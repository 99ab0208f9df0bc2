import DataProcessor.Lib.EcdsaScheme
import DataProcessor.Proofs.EcdsaPoints

/-!
# Signing in Kotlin (`Ecdsa.sign`)

Every nonce but the multiples of `N` gives the 64 bytes of a textbook
signature: `r` is the first coordinate of the nonce's point and `s` the
smaller of the two numbers that go with it. A signature with `s` not zero
verifies, because either of the two leads back to the nonce's point up to
sign, and the sign does not show in the first coordinate.

`r` is the coordinate itself and is not reduced modulo `N`.
-/

namespace DataProcessor

open Lib

/-- What web3j's `Numeric.toBytesPadded` is documented to do with a number
that fits. -/
def PadsBytes (toBytesPadded : Int → Nat → Result Bytes) : Prop :=
  ∀ value length : Nat, value < 256 ^ length →
    toBytesPadded value length = .ok (toBE length value)

namespace Ecdsa

theorem bytesToBigInt_eq (bs : Bytes) : bytesToBigInt bs = ofBE bs := by
  have general : ∀ (bs : Bytes) (num : Nat),
      bs.foldl (fun num b => num * 2 ^ 8 + (b.toNat : Int)) (num : Int)
        = (bs.foldl (fun a b => a * 256 + b.toNat) num : Nat) := by
    intro bs
    induction bs with
    | nil => exact fun _ => rfl
    | cons b bs ih =>
        intro num
        rw [List.foldl_cons, List.foldl_cons, ← ih]
        push_cast
        rfl
  exact general bs 0

variable {curve : Curve}

/-- The second number before it is folded. -/
def rawS (curve : Curve) (k : Int) (e r d : Nat) : ZMod curve.N :=
  (k : ZMod curve.N)⁻¹ * (e + r * d)

theorem sRaw_eq {k : Int} (hk : ¬ (curve.N : Int) ∣ k) (e r d : Nat) :
    inv k curve.N * (e + r * d) % curve.N = ((rawS curve k e r d).val : Int) := by
  have hne : (k : ZMod curve.N) ≠ 0 := by
    rwa [ne_eq, ZMod.intCast_zmod_eq_zero_iff_dvd]
  rw [← ZMod.val_intCast, rawS]
  push_cast
  rw [inv_cast hne]

theorem folded_eq (t : ZMod curve.N) :
    (if (t.val : Int) * 2 < curve.N then (t.val : Int) else curve.N - t.val)
      = (min t.val (curve.N - t.val) : Nat) := by
  have ht := t.val_lt
  split <;> omega

theorem folded_cast (t : ZMod curve.N) :
    ((min t.val (curve.N - t.val) : Nat) : ZMod curve.N) = t ∨
      ((min t.val (curve.N - t.val) : Nat) : ZMod curve.N) = -t := by
  rcases min_choice t.val (curve.N - t.val) with h | h
  · left
    rw [h, ZMod.natCast_zmod_val]
  · right
    rw [h, Nat.cast_sub t.val_lt.le, ZMod.natCast_self, ZMod.natCast_zmod_val, zero_sub]

/-- The coordinates of a multiple of the base point. -/
theorem affine_multiple {k : Int} (hk : ¬ (curve.N : Int) ∣ k) :
    ∃ r : Nat, Curve.xOf (k • curve.G) = some r ∧ r < curve.P ∧
      inv (fastMultiply curve curve.Gx curve.Gy 1 k).Z curve.P ^ 2
        * (fastMultiply curve curve.Gx curve.Gy 1 k).X % curve.P = r := by
  obtain ⟨x, y, h, hpoint, hx, -⟩ := affine_of_represents
    (represents_fastMultiply curve.represents_G curve.addOrderOf_G hk)
  exact ⟨x.val, by rw [hpoint]; rfl, x.val_lt, hx⟩

theorem sign_eq {toBytesPadded : Int → Nat → Result Bytes}
    (hpad : PadsBytes toBytesPadded) {nonce : Bytes} {k : Int}
    (hnonce : BigInteger.ofBytes nonce = .ok k) (hk : ¬ (curve.N : Int) ∣ k)
    (privateKey hash : Bytes) :
    ∃ r, Curve.xOf (k • curve.G) = some r ∧
      let t := (rawS curve k (ofBE hash) r (ofBE privateKey)).val
      sign curve toBytesPadded privateKey hash nonce
        = .ok (toBE 32 r ++ toBE 32 (min t (curve.N - t))) := by
  obtain ⟨r, hr, hlt, hx⟩ := affine_multiple hk
  have hP := curve.P_lt
  have hN := curve.N_lt
  refine ⟨r, hr, ?_⟩
  simp only []
  rw [sign, hnonce]
  simp only [bind, Except.bind, pure, Except.pure]
  rw [hx, bytesToBigInt_eq, bytesToBigInt_eq, sRaw_eq hk, folded_eq,
    hpad _ _ (by omega), hpad _ _ (by omega)]

theorem verificationPoint_of_sign {k : Int} {e r d : Nat}
    (hr : Curve.xOf (k • curve.G) = some r)
    (hs : min (rawS curve k e r d).val (curve.N - (rawS curve k e r d).val) ≠ 0) :
    Curve.xOf (EcdsaScheme.verificationPoint curve.G (d • curve.G) (e : ZMod curve.N) r
      (min (rawS curve k e r d).val (curve.N - (rawS curve k e r d).val) : Nat)) = some r := by
  have hG := curve.N_nsmul_G
  have hne : ((min (rawS curve k e r d).val (curve.N - (rawS curve k e r d).val) : Nat)
      : ZMod curve.N) ≠ 0 := by
    have hlt := (rawS curve k e r d).val_lt
    exact Curve.natCast_ne_zero
      (Nat.not_dvd_of_pos_of_lt (Nat.pos_of_ne_zero hs) (by omega))
  have hback := EcdsaScheme.verificationPoint_sign hG hne (folded_cast (rawS curve k e r d))
  rw [EcdsaScheme.nsmul_val_natCast hG, EcdsaScheme.zsmul_eq hG] at hback
  rcases hback with h | h
  · rw [h]
    exact hr
  · rw [h, Curve.xOf_neg]
    exact hr

/-- `sign` on secp256k1: the 64 bytes it returns, and what they verify to. -/
theorem sign_secp256k1 {toBytesPadded : Int → Nat → Result Bytes}
    (hpad : PadsBytes toBytesPadded) {privateKey hash nonce : Bytes} {k : Int}
    (hnonce : BigInteger.ofBytes nonce = .ok k)
    (hk : ¬ (Curve.N .SECP_256_K1 : Int) ∣ k) :
    Curve.Generated .SECP_256_K1 ∧ ∃ r s : Nat,
      sign .SECP_256_K1 toBytesPadded privateKey hash nonce
        = .ok (toBE 32 r ++ toBE 32 s) ∧
      r < 256 ^ 32 ∧ s < 256 ^ 32 ∧
      Curve.xOf (k • Curve.G .SECP_256_K1) = some r ∧
      (let t := ((k : ZMod (Curve.N .SECP_256_K1))⁻¹
          * (ofBE hash + r * ofBE privateKey)).val;
        s = min t (Curve.N .SECP_256_K1 - t)) ∧
      (s ≠ 0 → Curve.xOf (EcdsaScheme.verificationPoint (Curve.G .SECP_256_K1)
        (ofBE privateKey • Curve.G .SECP_256_K1)
        (ofBE hash : ZMod (Curve.N .SECP_256_K1)) r s) = some r) := by
  obtain ⟨r, hr, hsign⟩ := sign_eq hpad hnonce hk privateKey hash
  have hlt : r < Curve.P .SECP_256_K1 := by
    obtain ⟨r', hr', hlt, -⟩ := affine_multiple hk
    rw [hr] at hr'
    injection hr' with hr'
    rwa [hr']
  have hP := Curve.P_lt .SECP_256_K1
  have hN := Curve.N_lt .SECP_256_K1
  exact ⟨Curve.generated_SECP_256_K1, r, _, hsign, by omega, by omega, hr, rfl,
    verificationPoint_of_sign hr⟩

theorem sign_secp256k1_negative :
    Curve.Generated .SECP_256_K1 ∧ ∃ r s : Nat,
      sign .SECP_256_K1 (fun value length => .ok (toBE length value.toNat)) [5] [7] [0xfe]
        = .ok (toBE 32 r ++ toBE 32 s) ∧
      r < 256 ^ 32 ∧ s < 256 ^ 32 ∧
      Curve.xOf ((-2 : Int) • Curve.G .SECP_256_K1) = some r ∧
      (let t := (((-2 : Int) : ZMod (Curve.N .SECP_256_K1))⁻¹
          * (ofBE [7] + r * ofBE [5])).val;
        s = min t (Curve.N .SECP_256_K1 - t)) ∧
      (s ≠ 0 → Curve.xOf (EcdsaScheme.verificationPoint (Curve.G .SECP_256_K1)
        (ofBE [5] • Curve.G .SECP_256_K1)
        (ofBE [7] : ZMod (Curve.N .SECP_256_K1)) r s) = some r) :=
  sign_secp256k1 (fun _ _ _ => rfl) rfl (by decide)

end Ecdsa

end DataProcessor
