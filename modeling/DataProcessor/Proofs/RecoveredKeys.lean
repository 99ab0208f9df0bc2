import DataProcessor.Proofs.EcdsaVerify
import DataProcessor.Proofs.GroupLaw
import DataProcessor.Proofs.PublicKeys
import DataProcessor.Proofs.RecoverIds

/-!
# The recovered key (`Ecdsa.recoverToPublicKey`)

`r` is taken for the coordinate of the signature's point, whatever the id
says, and of the id only the parity is used: the ids 2 and 3, of a
coordinate `r + N`, and those above 3 give the key of another point. The key
itself is right whenever `N` does not divide the hash, and is `(0, 0)` where
there is none. It is written like a private key's, with each coordinate as
short as it gets, and run together.
-/

namespace DataProcessor

open Lib

/-- A signature string with the id in its last two digits. -/
structure RecoverySignature (sig : String) (r s v : Nat) : Prop extends HexSignature sig r s where
  v_eq : digitsValue 16 (sig.toList.drop 128) = some v

theorem RecoverySignature.parse_v {sig : String} {r s v : Nat}
    (h : RecoverySignature sig r s v) :
    BigInteger.ofString (substring sig 128 130) 16 = .ok (v : Int) := by
  have hv : (sig.toList.drop 128).take 2 = sig.toList.drop 128 := by
    rw [List.take_of_length_le]
    rw [List.length_drop, h.length_eq]
  rw [substring_eq h.isHexDigit, hv]
  refine BigInteger.ofString_digits (fun hnil => ?_) h.v_eq
  have hlen := congrArg List.length hnil
  rw [List.length_drop, h.length_eq, List.length_nil] at hlen
  omega

namespace Ecdsa

variable {curve : Curve}

/-! ## The square root -/

theorem modPow_eq (curve : Curve) (n : Int) (exponent : Nat) :
    BigInteger.modPow n exponent curve.P = (((n : curve.Coordinate) ^ exponent).val : Int) := by
  have hP : (curve.P : Int) ≠ 0 := by
    have := curve.three_lt_P
    omega
  have hlo := Int.emod_nonneg n hP
  rw [BigInteger.modPow, powMod_eq exponent.lt_size_self, ← ZMod.val_natCast]
  push_cast
  rw [← Int.cast_natCast (n % curve.P).toNat, Int.toNat_of_nonneg hlo, ZMod.intCast_mod]

/-- The power is a root of a square where `P` is 3 modulo 4. -/
theorem root_sq (hmod : curve.P % 4 = 3) {a y : curve.Coordinate} (h : y ^ 2 = a) :
    (a ^ ((curve.P + 1) / 4)) ^ 2 = a := by
  have hexp : 2 * ((curve.P + 1) / 4 * 2) = (curve.P - 1) + 2 := by
    have := curve.three_lt_P
    omega
  by_cases hy : y = 0
  · have hne : (curve.P + 1) / 4 ≠ 0 := by
      have := curve.three_lt_P
      omega
    rw [← h, hy, zero_pow two_ne_zero, zero_pow hne, zero_pow two_ne_zero]
  · rw [← pow_mul, ← h, ← pow_mul, hexp, pow_add, ZMod.pow_card_sub_one_eq_one hy, one_mul]

/-- The right side of the curve's equation, as the source computes it. -/
def rightSide (curve : Curve) (r : Nat) : Int := (r ^ 3 + (r * curve.A + curve.B)) % curve.P

/-- The second coordinate that is tried. -/
def triedY (curve : Curve) (r v : Nat) : Int :=
  let root := BigInteger.modPow (rightSide curve r) ((curve.P + 1) / 4) curve.P
  if root % 2 = ((v : Int) + 27) % 2 then curve.P - root else root

theorem rightSide_cast (curve : Curve) (r : Nat) :
    (rightSide curve r : curve.Coordinate) = r ^ 3 + curve.A * r + curve.B := by
  rw [rightSide]
  push_cast [ZMod.intCast_mod]
  ring

theorem triedY_passes_iff (curve : Curve) (r v : Nat) :
    (triedY curve r v ^ 2 - rightSide curve r) % curve.P = 0 ↔
      ((triedY curve r v : curve.Coordinate)) ^ 2 = r ^ 3 + curve.A * r + curve.B := by
  rw [← Int.dvd_iff_emod_eq_zero, ← ZMod.intCast_zmod_eq_zero_iff_dvd]
  push_cast
  rw [rightSide_cast, sub_eq_zero]

theorem triedY_sq (curve : Curve) (r v : Nat) :
    (triedY curve r v : curve.Coordinate) ^ 2
      = ((rightSide curve r : curve.Coordinate) ^ ((curve.P + 1) / 4)) ^ 2 := by
  rw [triedY]
  simp only [modPow_eq]
  split
  · push_cast
    rw [ZMod.natCast_self, zero_sub, neg_sq, ZMod.natCast_zmod_val]
  · push_cast
    rw [ZMod.natCast_zmod_val]

/-- Neither curve has a point with second coordinate 0. -/
theorem rightSide_ne_zero (hcurve : curve = .SECP_256_K1 ∨ curve = .SECP_256_R1) (r : Nat) :
    (rightSide curve r : curve.Coordinate) ≠ 0 := by
  rw [rightSide_cast]
  rcases hcurve with rfl | rfl
  · exact Curve.SECP_256_K1_no_root r
  · exact Curve.SECP_256_R1_no_root r

/-- The number tried is a coordinate with the parity of the id. -/
theorem triedY_spec (hcurve : curve = .SECP_256_K1 ∨ curve = .SECP_256_R1) (r v : Nat) :
    ∃ y : curve.Coordinate, triedY curve r v = y.val ∧ y.val % 2 = v % 2 := by
  have hodd := curve.P_odd
  have hne : ((rightSide curve r : curve.Coordinate) ^ ((curve.P + 1) / 4)).val ≠ 0 :=
    mt (ZMod.val_eq_zero _).1 (pow_ne_zero _ (rightSide_ne_zero hcurve r))
  have hlt := ((rightSide curve r : curve.Coordinate) ^ ((curve.P + 1) / 4)).val_lt
  rw [triedY]
  simp only [modPow_eq]
  generalize ((rightSide curve r : curve.Coordinate) ^ ((curve.P + 1) / 4)).val = root
    at hne hlt ⊢
  split
  · next hsame =>
      refine ⟨((curve.P - root : Nat) : curve.Coordinate), ?_, ?_⟩
      · rw [ZMod.val_natCast_of_lt (by omega)]
        omega
      · rw [ZMod.val_natCast_of_lt (by omega)]
        omega
  · next hother =>
      refine ⟨(root : curve.Coordinate), ?_, ?_⟩
      · rw [ZMod.val_natCast_of_lt hlt]
      · rw [ZMod.val_natCast_of_lt hlt]
        omega

/-- `R` is the point with first coordinate `x` and the parity of the id. -/
def HasId (curve : Curve) (x v : Nat) (R : curve.Point) : Prop :=
  Curve.xOf R = some x ∧ Curve.isOdd R = (v % 2 == 1)

/-- Where the number tried passes, it makes the point that the id names. -/
theorem represents_tried (hcurve : curve = .SECP_256_K1 ∨ curve = .SECP_256_R1) {r v : Nat}
    (hpass : (triedY curve r v ^ 2 - rightSide curve r) % curve.P = 0) :
    ∃ R : curve.Point, HasId curve (r % curve.P) v R ∧
      (curve.castTriple ⟨r, triedY curve r v, 1⟩).Represents R := by
  obtain ⟨y, hy, hparity⟩ := triedY_spec hcurve r v
  have hsq := (triedY_passes_iff curve r v).1 hpass
  rw [hy, Int.cast_natCast, ZMod.natCast_zmod_val] at hsq
  refine ⟨.some (r : curve.Coordinate) y (Curve.nonsingular_of_equation hsq), ⟨?_, ?_⟩, ?_⟩
  · exact congrArg some (ZMod.val_natCast curve.P r)
  · show (y.val % 2 == 1) = (v % 2 == 1)
    rw [hparity]
  · rw [hy]
    simpa [Curve.castTriple, Triple.map] using
      Triple.represents_some (Curve.nonsingular_of_equation hsq)

theorem tried_passes (hmod : curve.P % 4 = 3) {r : Nat} (v : Nat) {S : curve.Point}
    (hS : Curve.xOf S = some (r % curve.P)) :
    (triedY curve r v ^ 2 - rightSide curve r) % curve.P = 0 := by
  cases S with
  | zero => cases hS
  | some x y h =>
      injection hS with hx
      have hcast : x = (r : curve.Coordinate) := by
        rw [← ZMod.natCast_zmod_val x, hx, ZMod.natCast_mod]
      have heq := (shortCurve.equation_iff x y).1 h.1
      rw [hcast] at heq
      rw [triedY_passes_iff, triedY_sq, root_sq hmod (heq.trans (rightSide_cast curve r).symm),
        rightSide_cast]

/-! ## The key -/

/-- The point whose coordinates are written. -/
def recoveredTriple (curve : Curve) (e r s : Nat) (y : Int) : Triple Int :=
  let GZ := fastMultiply curve curve.Gx curve.Gy 1 ((curve.N - e) % curve.N)
  let XY := fastMultiply curve r y 1 s
  let QR := fastAdd curve GZ.X GZ.Y GZ.Z XY.X XY.Y XY.Z
  fastMultiply curve QR.X QR.Y QR.Z (inv r curve.N)

theorem minus_cast (curve : Curve) (e : Nat) :
    (((curve.N - e : Int) % curve.N : Int) : ZMod curve.N) = -(e : ZMod curve.N) := by
  push_cast [ZMod.intCast_mod]
  rw [ZMod.natCast_self, zero_sub]

theorem recoveredKey_eq {R : curve.Point} (hR : curve.N • R = 0) {r : Nat}
    (hr : ¬ curve.N ∣ r) (e s : Nat) :
    inv r curve.N • (((curve.N - e : Int) % curve.N) • curve.G + (s : Int) • R)
      = EcdsaScheme.recoveredKey curve.G R (e : ZMod curve.N) r s := by
  have hG := curve.N_nsmul_G
  have hinv : ((inv r curve.N : Int) : ZMod curve.N) = (r : ZMod curve.N)⁻¹ := by
    rw [inv_cast (by rw [Int.cast_natCast]; exact Curve.natCast_ne_zero hr), Int.cast_natCast]
  have hs : (((s : Int) : Int) : ZMod curve.N) = (s : ZMod curve.N) := Int.cast_natCast s
  rw [EcdsaScheme.recoveredKey, EcdsaScheme.mul_smul hG, EcdsaScheme.mul_smul hR, ← nsmul_add,
    ← hinv, ← minus_cast, ← hs, EcdsaScheme.zsmul_eq hG, EcdsaScheme.zsmul_eq hR,
    EcdsaScheme.zsmul_eq]
  rw [nsmul_add, smul_comm, hG, zsmul_zero, smul_comm, hR, zsmul_zero, add_zero]

/-- A point as the source writes it; the neutral element is `(0, 0)`. -/
def writtenKey : curve.Point → Bytes
  | .zero => [0, 0]
  | .some x y _ => toBE (minWidth x.val) x.val ++ toBE (minWidth y.val) y.val

theorem inv_not_dvd {r : Nat} (hr : ¬ curve.N ∣ r) : ¬ (curve.N : Int) ∣ inv r curve.N := by
  have hne := Curve.natCast_ne_zero hr
  rw [← ZMod.intCast_zmod_eq_zero_iff_dvd, inv_cast (by rwa [Int.cast_natCast]), inv_eq_zero,
    Int.cast_natCast]
  exact hne

/-- The coordinates computed are the textbook key's, when `N` does not
divide the hash. -/
theorem recoveredTriple_written (hcurve : curve = .SECP_256_K1 ∨ curve = .SECP_256_R1)
    {R : curve.Point} {e r s : Nat} {y : Int} (hR : (curve.castTriple ⟨r, y, 1⟩).Represents R)
    (he : ¬ curve.N ∣ e) (hr : ¬ curve.N ∣ r) (hs : ¬ curve.N ∣ s) :
    let T := recoveredTriple curve e r s y
    bigIntToBytes (inv T.Z curve.P ^ 2 * T.X % curve.P)
        ++ bigIntToBytes (inv T.Z curve.P ^ 3 * T.Y % curve.P)
      = writtenKey (EcdsaScheme.recoveredKey curve.G R (e : ZMod curve.N) r s) := by
  have horder := Curve.addOrderOf_of_ne_zero hcurve hR.ne_zero
  have hkilled := Curve.N_nsmul_of_addOrderOf horder
  have hminus : ¬ (curve.N : Int) ∣ (curve.N - e : Int) % curve.N := by
    rw [← ZMod.intCast_zmod_eq_zero_iff_dvd, minus_cast, neg_eq_zero]
    exact Curve.natCast_ne_zero he
  have hs' : ¬ (curve.N : Int) ∣ (s : Int) := by exact_mod_cast hs
  have hGZ := represents_fastMultiply curve.represents_G curve.addOrderOf_G hminus
  have hXY := represents_fastMultiply hR horder hs'
  rw [← recoveredKey_eq hkilled hr]
  simp only [recoveredTriple]
  simp only [] at hGZ hXY
  by_cases hsum : ((curve.N - e : Int) % curve.N) • curve.G + (s : Int) • R = 0
  · have hne : ((curve.N - e : Int) % curve.N) • curve.G ≠ (s : Int) • R := by
      intro heq
      rw [← heq] at hsum
      refine Curve.add_self_ne_zero ?_ hGZ.ne_zero hsum
      rw [smul_comm, curve.N_nsmul_G, zsmul_zero]
    rw [fastAdd_opposite hGZ hXY hsum hne, hsum, zsmul_zero, fastMultiply, if_pos (.inl rfl)]
    simp only [mul_zero, Int.zero_emod]
    rfl
  · have hQR := represents_fastAdd hGZ hXY hsum
    have hQ := represents_fastMultiply hQR (Curve.addOrderOf_of_ne_zero hcurve hsum)
      (inv_not_dvd hr)
    obtain ⟨X, Y, h, hpoint, hX, hY⟩ := affine_of_represents hQ
    rw [hpoint, hX, hY, bigIntToBytes_natCast, bigIntToBytes_natCast]
    rfl

/-! ## The string -/

/-- The strings that are refused. -/
def Rejected (curve : Curve) (r s v : Nat) : Prop :=
  curve.N ∣ r ∨ curve.N ∣ s ∨ 7 < v ∨ ∀ S : curve.Point, Curve.xOf S ≠ some (r % curve.P)

section

variable {sig : String} {r s v : Nat}

theorem arraycopy_pair (left right : Bytes) :
    (do
      let pubBytes := List.replicate (left.length + right.length) 0
      let pubBytes ← arraycopy left pubBytes 0
      arraycopy right pubBytes left.length) = .ok (left ++ right) := by
  have hfirst : arraycopy left (List.replicate (left.length + right.length) 0) 0
      = .ok (left ++ List.replicate right.length 0) := by
    rw [arraycopy, if_pos (by rw [List.length_replicate]; omega), List.take_zero,
      List.nil_append, List.drop_replicate]
    congr 3
    omega
  simp only []
  rw [hfirst, ok_bind, arraycopy, if_pos (by simp), List.take_left' rfl,
    List.drop_of_length_le (by simp), List.append_nil]

theorem modN_iff (curve : Curve) (r s : Nat) :
    ((r : Int) % curve.N = 0 ∨ (s : Int) % curve.N = 0) ↔ curve.N ∣ r ∨ curve.N ∣ s := by
  rw [← Int.dvd_iff_emod_eq_zero, ← Int.dvd_iff_emod_eq_zero, Int.natCast_dvd_natCast,
    Int.natCast_dvd_natCast]

theorem large_iff (v : Nat) : ((v : Int) + 27 < 27 ∨ (v : Int) + 27 > 34) ↔ 7 < v := by
  omega

theorem recoverToPublicKey_refused (hsig : RecoverySignature sig r s v) (hash : Bytes)
    (hbad : (curve.N ∣ r ∨ curve.N ∣ s) ∨ 7 < v ∨
      (triedY curve r v ^ 2 - rightSide curve r) % curve.P ≠ 0) :
    recoverToPublicKey curve hash sig = .error (.runtime s!"Invalid signature, {sig}") := by
  rw [recoverToPublicKey, if_neg (by rw [hsig.length_codeUnits]; decide), hsig.parse_r,
    hsig.parse_s, hsig.parse_v]
  simp only [ok_bind, modN_iff, large_iff]
  by_cases hdvd : curve.N ∣ r ∨ curve.N ∣ s
  · rw [if_pos hdvd]
    rfl
  · rw [if_neg hdvd]
    by_cases hlarge : 7 < v
    · rw [if_pos hlarge]
      rfl
    · rw [if_neg hlarge]
      exact if_pos ((hbad.resolve_left hdvd).resolve_left hlarge)

theorem recoverToPublicKey_written (hsig : RecoverySignature sig r s v) (hash : Bytes)
    (hr : ¬ curve.N ∣ r) (hs : ¬ curve.N ∣ s) (hv : v ≤ 7)
    (hpass : (triedY curve r v ^ 2 - rightSide curve r) % curve.P = 0) :
    recoverToPublicKey curve hash sig
      = let T := recoveredTriple curve (ofBE hash) r s (triedY curve r v)
        .ok (bigIntToBytes (inv T.Z curve.P ^ 2 * T.X % curve.P)
          ++ bigIntToBytes (inv T.Z curve.P ^ 3 * T.Y % curve.P)) := by
  rw [recoverToPublicKey, if_neg (by rw [hsig.length_codeUnits]; decide), hsig.parse_r,
    hsig.parse_s, hsig.parse_v]
  simp only [ok_bind, modN_iff, large_iff, bytesToBigInt_eq]
  rw [if_neg (not_or.2 ⟨hr, hs⟩), if_neg (Nat.not_lt.2 hv)]
  refine (if_neg (not_not.2 hpass)).trans ?_
  exact arraycopy_pair _ _

/-- A string is refused, or the id's point above `r` gives the key. -/
theorem recoverToPublicKey_cases (hcurve : curve = .SECP_256_K1 ∨ curve = .SECP_256_R1)
    (hsig : RecoverySignature sig r s v) (hash : Bytes) :
    Rejected curve r s v ∧ recoverToPublicKey curve hash sig
        = .error (.runtime s!"Invalid signature, {sig}") ∨
      ¬ Rejected curve r s v ∧ ∃ R key, HasId curve (r % curve.P) v R ∧
        recoverToPublicKey curve hash sig = .ok key ∧
        (¬ curve.N ∣ ofBE hash →
          key = writtenKey
            (EcdsaScheme.recoveredKey curve.G R (ofBE hash : ZMod curve.N) r s)) := by
  have hmod : curve.P % 4 = 3 := by
    rcases hcurve with rfl | rfl <;> decide
  by_cases hrej : Rejected curve r s v
  · refine .inl ⟨hrej, recoverToPublicKey_refused hsig hash ?_⟩
    rcases hrej with hr | hs | hv | hoff
    · exact .inl (.inl hr)
    · exact .inl (.inr hs)
    · exact .inr (.inl hv)
    · refine .inr (.inr fun hpass => ?_)
      obtain ⟨R, hR, -⟩ := represents_tried hcurve hpass
      exact hoff R hR.1
  · refine .inr ⟨hrej, ?_⟩
    simp only [Rejected, not_or, not_forall, not_not, Nat.not_lt] at hrej
    obtain ⟨hr, hs, hv, S, hS⟩ := hrej
    have hpass := tried_passes hmod v hS
    obtain ⟨R, hid, hrep⟩ := represents_tried hcurve hpass
    exact ⟨R, _, hid, recoverToPublicKey_written hsig hash hr hs hv hpass,
      fun he => recoveredTriple_written hcurve hrep he hr hs⟩

end

/-! ## Keys as they should be written -/

/-- The 64 bytes of a point. -/
def IsKeyOf (key : Bytes) (Q : curve.Point) : Prop :=
  ∃ x y h, Q = .some x y h ∧ key = toBE 32 x.val ++ toBE 32 y.val

theorem length_isKeyOf {key : Bytes} {Q : curve.Point} (h : IsKeyOf key Q) : key.length = 64 := by
  obtain ⟨x, y, h', heq, hbytes⟩ := h
  rw [hbytes, List.length_append, length_toBE, length_toBE]

section

variable {x y : curve.Coordinate}
  {h : (shortCurve (curve.A : curve.Coordinate) (curve.B : curve.Coordinate)).Nonsingular x y}

theorem isKeyOf_written_of_fills (hx : Fills x.val) (hy : Fills y.val) :
    IsKeyOf (writtenKey (.some x y h : curve.Point)) (.some x y h : curve.Point) := by
  refine ⟨x, y, h, rfl, ?_⟩
  rw [writtenKey, minWidth_eq_iff.2 hx, minWidth_eq_iff.2 hy]

/-- The widths of the coordinates of a key of 64 bytes. -/
theorem minWidth_of_length (hlen : (writtenKey (.some x y h : curve.Point)).length = 64) :
    (Fills x.val ∧ Fills y.val) ∨ (minWidth x.val = 33 ∧ minWidth y.val = 31) ∨
      minWidth x.val = 31 ∧ minWidth y.val = 33 := by
  have hwx := minWidth_le (Nat.lt_trans x.val_lt curve.P_lt)
  have hwy := minWidth_le (Nat.lt_trans y.val_lt curve.P_lt)
  rw [writtenKey, List.length_append, length_toBE, length_toBE] at hlen
  rw [← minWidth_eq_iff, ← minWidth_eq_iff]
  omega

/-- The bytes are the point's own only if both coordinates take 32. -/
theorem fills_of_isKeyOf
    (hkey : IsKeyOf (writtenKey (.some x y h : curve.Point)) (.some x y h : curve.Point)) :
    Fills x.val ∧ Fills y.val := by
  have hlen := length_isKeyOf hkey
  obtain ⟨x', y', h', heq, hbytes⟩ := hkey
  rw [WeierstrassCurve.Affine.Point.some.injEq] at heq
  obtain ⟨rfl, rfl⟩ := heq
  rcases minWidth_of_length hlen with hfills | hwidths
  · exact hfills
  · have hx := Nat.lt_trans x.val_lt curve.P_lt
    have hy := Nat.lt_trans y.val_lt curve.P_lt
    have hvalue := congrArg ofBE hbytes
    rw [writtenKey, ofBE_append, ofBE_append, length_toBE, length_toBE, ofBE_toBE hx,
      ofBE_toBE hy, ofBE_toBE (lt_minWidth _), ofBE_toBE (lt_minWidth _)] at hvalue
    have hzero : x.val = 0 := by
      rcases hwidths with ⟨-, hw⟩ | ⟨-, hw⟩ <;> rw [hw] at hvalue <;> omega
    have hone : minWidth x.val = 1 := by
      rw [hzero]
      rfl
    omega

theorem eq_of_isKeyOf {Q : curve.Point} (hx : Fills x.val) (hy : Fills y.val)
    (hkey : IsKeyOf (writtenKey (.some x y h : curve.Point)) Q) : .some x y h = Q := by
  obtain ⟨x', y', h', rfl, hbytes⟩ := hkey
  have hlt (z : curve.Coordinate) : z.val < 256 ^ 32 := Nat.lt_trans z.val_lt curve.P_lt
  rw [writtenKey, minWidth_eq_iff.2 hx, minWidth_eq_iff.2 hy] at hbytes
  obtain ⟨hX, hright⟩ := toBE_append_inj (hlt x) (hlt x') hbytes
  have hY := congrArg ofBE hright
  rw [ofBE_toBE (hlt y), ofBE_toBE (hlt y')] at hY
  obtain rfl := ZMod.val_injective curve.P hX
  obtain rfl := ZMod.val_injective curve.P hY
  rfl

end

/-! ## Against the textbook -/

/-- What is asked of `recoverToPublicKey`: a key it returns is one the
textbook verifies with, and for the right id it is the signer's. -/
structure RecoversKey (curve : Curve) (hash : Bytes) (sig : String) (r s v : Nat) : Prop where
  accepted : ∀ key, recoverToPublicKey curve hash sig = .ok key →
    ∃ Q : curve.Point, IsKeyOf key Q ∧
      EcdsaScheme.Accepts curve.N Curve.xOf curve.G Q (ofBE hash) r s
  signer : ∀ (Q : curve.Point) x, Q ≠ 0 →
    EcdsaScheme.Accepts curve.N Curve.xOf curve.G Q (ofBE hash) r s →
    let R := EcdsaScheme.verificationPoint curve.G Q (ofBE hash : ZMod curve.N) r s
    Curve.xOf R = some x → v = RecoverableEcdsa.rightId curve R x →
      ∃ key, recoverToPublicKey curve hash sig = .ok key ∧ IsKeyOf key Q

/-- The inputs on which it is met. The string is refused, or the hash is not
zero modulo `N`, `r` and `s` are in range, and the id's point above `r` gives
a key with two coordinates of 32 bytes. The ids 2 and 3 must not give a key
from a point above `r + N`. -/
def RecoveryHolds (curve : Curve) (e r s v : Nat) : Prop :=
  (Rejected curve r s v ∨
    ¬ curve.N ∣ e ∧ r < curve.N ∧ s < curve.N ∧
      ∃ R, HasId curve r v R ∧ ∃ x y h,
        EcdsaScheme.recoveredKey curve.G R (e : ZMod curve.N) r s = .some x y h ∧
          Fills x.val ∧ Fills y.val) ∧
  (v = 2 ∨ v = 3 → 1 ≤ r → 1 ≤ s → s < curve.N → ∀ R, HasId curve (r + curve.N) v R →
    EcdsaScheme.recoveredKey curve.G R (e : ZMod curve.N) r s = 0)

section

variable {e r s v : Nat}

theorem HasId.ne_zero {x : Nat} {R : curve.Point} (h : HasId curve x v R) : R ≠ 0 := by
  rintro rfl
  cases h.1

theorem HasId.unique (hcurve : curve = .SECP_256_K1 ∨ curve = .SECP_256_R1) {x : Nat}
    {R S : curve.Point} (hR : HasId curve x v R) (hS : HasId curve x v S) : R = S := by
  have horder := Curve.addOrderOf_of_ne_zero hcurve hS.ne_zero
  exact Curve.eq_of_xOf_of_isOdd (hR.1.trans hS.1.symm) (hR.2.trans hS.2.symm)
    (Curve.add_self_ne_zero (Curve.N_nsmul_of_addOrderOf horder) hS.ne_zero)

/-- The point of a key that a point gives is that point. -/
theorem verificationPoint_recovered (hcurve : curve = .SECP_256_K1 ∨ curve = .SECP_256_R1)
    {x : Nat} {R Q : curve.Point} (hR : HasId curve x v R) (hr : ¬ curve.N ∣ r)
    (hs : ¬ curve.N ∣ s)
    (hQ : EcdsaScheme.recoveredKey curve.G R (e : ZMod curve.N) r s = Q) :
    R = EcdsaScheme.verificationPoint curve.G Q (e : ZMod curve.N) r s := by
  have hkilled := Curve.N_nsmul_of_addOrderOf (Curve.addOrderOf_of_ne_zero hcurve hR.ne_zero)
  have hQN : curve.N • Q = 0 := by
    rw [← hQ, EcdsaScheme.recoveredKey, nsmul_add, EcdsaScheme.smul_killed curve.N_nsmul_G,
      EcdsaScheme.smul_killed hkilled, add_zero]
  exact (EcdsaScheme.eq_verificationPoint_iff curve.N_nsmul_G hQN hkilled
    (Curve.natCast_ne_zero hr) (Curve.natCast_ne_zero hs)).2 hQ

/-- Such a key verifies. -/
theorem accepts_recovered (hcurve : curve = .SECP_256_K1 ∨ curve = .SECP_256_R1)
    {x : Nat} {R Q : curve.Point} (hR : HasId curve x v R) (hx : x % curve.N = r)
    (hr : 1 ≤ r) (hs : 1 ≤ s) (hs' : s < curve.N)
    (hQ : EcdsaScheme.recoveredKey curve.G R (e : ZMod curve.N) r s = Q) :
    EcdsaScheme.Accepts curve.N Curve.xOf curve.G Q e r s := by
  have hr' : r < curve.N := hx ▸ Nat.mod_lt x curve.N_pos
  have hpoint := verificationPoint_recovered hcurve hR (Nat.not_dvd_of_pos_of_lt hr hr')
    (Nat.not_dvd_of_pos_of_lt hs hs') hQ
  exact ⟨hr, hr', hs, hs', x, hpoint ▸ hR.1, hx⟩

/-- A signature with its right id comes from the id's point above `r`, or,
for the ids 2 and 3, above `r + N`. -/
theorem point_of_rightId (hcurve : curve = .SECP_256_K1 ∨ curve = .SECP_256_R1)
    {Q : curve.Point} {x : Nat} (hQ : Q ≠ 0)
    (haccepts : EcdsaScheme.Accepts curve.N Curve.xOf curve.G Q e r s)
    (hx : Curve.xOf (EcdsaScheme.verificationPoint curve.G Q (e : ZMod curve.N) r s) = some x)
    (hv : v = RecoverableEcdsa.rightId curve
      (EcdsaScheme.verificationPoint curve.G Q (e : ZMod curve.N) r s) x) :
    ∃ R, EcdsaScheme.recoveredKey curve.G R (e : ZMod curve.N) r s = Q ∧
      (v < 2 ∧ HasId curve r v R ∨ (v = 2 ∨ v = 3) ∧ HasId curve (r + curve.N) v R) := by
  have hkilled := Curve.N_nsmul_of_addOrderOf (Curve.addOrderOf_of_ne_zero hcurve hQ)
  obtain ⟨hr, hr', hs, hs', x', hx', hmod⟩ := haccepts
  rw [hx] at hx'
  injection hx' with hx'
  rw [← hx'] at hmod
  generalize hR : EcdsaScheme.verificationPoint curve.G Q (e : ZMod curve.N) r s = R at hx hv
  refine ⟨R, ?_, ?_⟩
  · have hRkilled : curve.N • R = 0 := by
      rw [← hR, EcdsaScheme.verificationPoint, nsmul_add,
        EcdsaScheme.smul_killed curve.N_nsmul_G, EcdsaScheme.smul_killed hkilled, add_zero]
    exact (EcdsaScheme.eq_verificationPoint_iff curve.N_nsmul_G hkilled hRkilled
      (Curve.natCast_ne_zero (Nat.not_dvd_of_pos_of_lt hr hr'))
      (Curve.natCast_ne_zero (Nat.not_dvd_of_pos_of_lt hs hs'))).1 hR.symm
  · have hP : curve.P < 2 * curve.N := by
      rcases hcurve with rfl | rfl <;> decide
    have hlt := Curve.xOf_lt hx
    have hdiv := Nat.mod_add_div x curve.N
    have hparity : Curve.isOdd R = (v % 2 == 1) := by
      rw [hv, RecoverableEcdsa.rightId, Nat.mul_add_mod]
      cases Curve.isOdd R <;> rfl
    have hodd := Bool.toNat_le (Curve.isOdd R)
    rw [RecoverableEcdsa.rightId] at hv
    rcases Nat.lt_or_ge x curve.N with hsmall | hlarge
    · have hzero : x / curve.N = 0 := Nat.div_eq_of_lt hsmall
      rw [Nat.mod_eq_of_lt hsmall] at hmod
      exact .inl ⟨by omega, hmod ▸ hx, hparity⟩
    · have hone : x / curve.N = 1 := Nat.div_eq_of_lt_le (by omega) (by omega)
      rw [hone] at hdiv
      have hsum : x = r + curve.N := by omega
      exact .inr ⟨by omega, hsum ▸ hx, hparity⟩

variable {sig : String} {hash : Bytes}

/-- Under the condition the key returned is the one the id's point gives. -/
theorem recoversKey_of_holds (hcurve : curve = .SECP_256_K1 ∨ curve = .SECP_256_R1)
    (hsig : RecoverySignature sig r s v) (hholds : RecoveryHolds curve (ofBE hash) r s v) :
    RecoversKey curve hash sig r s v := by
  obtain ⟨hmain, hother⟩ := hholds
  have hNP : curve.N < curve.P := by
    rcases hcurve with rfl | rfl <;> decide
  rcases recoverToPublicKey_cases hcurve hsig hash with
    ⟨hrej, herror⟩ | ⟨hrej, R, key, hR, hok, hkey⟩
  · refine ⟨fun key hok => ?_, fun Q x hQ haccepts hx hv => ?_⟩
    · rw [herror] at hok
      cases hok
    · obtain ⟨S, hS, hcases⟩ := point_of_rightId hcurve hQ haccepts hx hv
      obtain ⟨hr, hr', hs, hs', -⟩ := haccepts
      rcases hcases with ⟨hsmall, hid⟩ | ⟨hlarge, hid⟩
      · rcases hrej with h | h | h | h
        · exact absurd h (Nat.not_dvd_of_pos_of_lt hr hr')
        · exact absurd h (Nat.not_dvd_of_pos_of_lt hs hs')
        · omega
        · rw [Nat.mod_eq_of_lt (Nat.lt_trans hr' hNP)] at h
          exact absurd hid.1 (h S)
      · rw [hother hlarge hr hs hs' S hid] at hS
        exact absurd hS.symm hQ
  · obtain ⟨he, hr', hs', S, hS, x, y, h, hpoint, hx, hy⟩ := hmain.resolve_left hrej
    rw [Nat.mod_eq_of_lt (Nat.lt_trans hr' hNP)] at hR
    obtain rfl := hR.unique hcurve hS
    have hwritten := hkey he
    rw [hpoint] at hwritten
    have hisKey := isKeyOf_written_of_fills (h := h) hx hy
    rw [← hwritten] at hisKey
    have hr : 1 ≤ r := Nat.pos_of_ne_zero fun h0 => hrej (.inl (h0 ▸ dvd_zero _))
    have hs : 1 ≤ s := Nat.pos_of_ne_zero fun h0 => hrej (.inr (.inl (h0 ▸ dvd_zero _)))
    refine ⟨fun key' hok' => ?_, fun Q x' hQ haccepts hx' hv => ?_⟩
    · rw [hok] at hok'
      injection hok' with hok'
      exact ⟨_, hok' ▸ hisKey,
        accepts_recovered hcurve hS (Nat.mod_eq_of_lt hr') hr hs hs' hpoint⟩
    · obtain ⟨S', hS', hcases⟩ := point_of_rightId hcurve hQ haccepts hx' hv
      rcases hcases with ⟨-, hid⟩ | ⟨hlarge, hid⟩
      · obtain rfl := hid.unique hcurve hS
        rw [← hS', hpoint]
        exact ⟨key, hok, hisKey⟩
      · rw [hother hlarge hr hs hs' S' hid] at hS'
        exact absurd hS'.symm hQ

theorem HasId.toNat_isOdd {x : Nat} {R : curve.Point} (h : HasId curve x v R) :
    (Curve.isOdd R).toNat = v % 2 := by
  rw [h.2]
  rcases Nat.mod_two_eq_zero_or_one v with h0 | h1
  · rw [h0]
    rfl
  · rw [h1]
    rfl

/-- The key of a point that the id is right for has to be the one returned. -/
theorem RecoversKey.signer_of_hasId (hrec : RecoversKey curve hash sig r s v)
    (hcurve : curve = .SECP_256_K1 ∨ curve = .SECP_256_R1) {x : Nat} {R Q : curve.Point}
    (hR : HasId curve x v R) (hx : x % curve.N = r) (hv : v = 2 * (x / curve.N) + v % 2)
    (hr : 1 ≤ r) (hs : 1 ≤ s) (hs' : s < curve.N)
    (hQ : EcdsaScheme.recoveredKey curve.G R (ofBE hash : ZMod curve.N) r s = Q)
    (hne : Q ≠ 0) :
    ∃ key, recoverToPublicKey curve hash sig = .ok key ∧ IsKeyOf key Q := by
  have hr' : r < curve.N := hx ▸ Nat.mod_lt x curve.N_pos
  have hpoint := verificationPoint_recovered hcurve hR (Nat.not_dvd_of_pos_of_lt hr hr')
    (Nat.not_dvd_of_pos_of_lt hs hs') hQ
  refine hrec.signer Q x hne (accepts_recovered hcurve hR hx hr hs hs' hQ) (hpoint ▸ hR.1) ?_
  rw [← hpoint, RecoverableEcdsa.rightId, hR.toNat_isOdd]
  exact hv

/-- The id's point above `r` gives a key whose coordinates are written in 33
and 31 bytes: together 64, but not a half each. -/
def RunsTogether (curve : Curve) (e r s v : Nat) : Prop :=
  ∃ R, HasId curve r v R ∧ ∃ x y h,
    EcdsaScheme.recoveredKey curve.G R (e : ZMod curve.N) r s = .some x y h ∧
      (minWidth x.val = 33 ∧ minWidth y.val = 31 ∨ minWidth x.val = 31 ∧ minWidth y.val = 33)

/-- A string that is not refused gives a key that takes 32 bytes for each
coordinate. -/
theorem fills_of_recoversKey (hcurve : curve = .SECP_256_K1 ∨ curve = .SECP_256_R1)
    (hrec : RecoversKey curve hash sig r s v) {R : curve.Point} {key : Bytes}
    (hR : HasId curve (r % curve.P) v R) (hok : recoverToPublicKey curve hash sig = .ok key)
    (hkey : key
      = writtenKey (EcdsaScheme.recoveredKey curve.G R (ofBE hash : ZMod curve.N) r s))
    (hruns : 2 ≤ v → ¬ RunsTogether curve (ofBE hash) r s v) :
    HasId curve r v R ∧ r < curve.N ∧ s < curve.N ∧ ∃ x y h,
      EcdsaScheme.recoveredKey curve.G R (ofBE hash : ZMod curve.N) r s = .some x y h ∧
        Fills x.val ∧ Fills y.val := by
  have hNP : curve.N < curve.P := by
    rcases hcurve with rfl | rfl <;> decide
  obtain ⟨Q, hQ, hr, hr', hs, hs', -⟩ := hrec.accepted key hok
  rw [Nat.mod_eq_of_lt (Nat.lt_trans hr' hNP)] at hR
  refine ⟨hR, hr', hs', ?_⟩
  have hlen := length_isKeyOf hQ
  rw [hkey] at hlen
  generalize hK : EcdsaScheme.recoveredKey curve.G R (ofBE hash : ZMod curve.N) r s = K
    at hlen hkey
  cases K with
  | zero => cases hlen
  | some x y h =>
      refine ⟨x, y, h, rfl, ?_⟩
      rcases Nat.lt_or_ge v 2 with hsmall | hlarge
      · obtain ⟨key', hok', hkey'⟩ := hrec.signer_of_hasId hcurve hR (Nat.mod_eq_of_lt hr')
          (by rw [Nat.div_eq_of_lt hr']; omega) hr hs hs' hK
          (WeierstrassCurve.Affine.Point.some_ne_zero h)
        rw [hok] at hok'
        injection hok' with hok'
        rw [← hok', hkey] at hkey'
        exact fills_of_isKeyOf hkey'
      · rcases minWidth_of_length hlen with hfills | hwidths
        · exact hfills
        · exact absurd ⟨R, hR, x, y, h, hK, hwidths⟩ (hruns hlarge)

theorem holds_of_recoversKey (hcurve : curve = .SECP_256_K1 ∨ curve = .SECP_256_R1)
    (hsig : RecoverySignature sig r s v) (he : ¬ curve.N ∣ ofBE hash)
    (hruns : 2 ≤ v → ¬ RunsTogether curve (ofBE hash) r s v)
    (hrec : RecoversKey curve hash sig r s v) : RecoveryHolds curve (ofBE hash) r s v := by
  have hother : v = 2 ∨ v = 3 → 1 ≤ r → 1 ≤ s → s < curve.N →
      ∀ S, HasId curve (r + curve.N) v S → ∀ Q ≠ 0,
        EcdsaScheme.recoveredKey curve.G S (ofBE hash : ZMod curve.N) r s = Q →
          ∃ key, recoverToPublicKey curve hash sig = .ok key ∧ IsKeyOf key Q := by
    intro hv hr hs hs' S hS Q hne hQ
    have hP : curve.P < 2 * curve.N := by
      rcases hcurve with rfl | rfl <;> decide
    have hlt := Curve.xOf_lt hS.1
    refine hrec.signer_of_hasId hcurve hS ?_ ?_ hr hs hs' hQ hne
    · rw [Nat.add_mod_right, Nat.mod_eq_of_lt (by omega)]
    · rw [Nat.add_div_right r curve.N_pos, Nat.div_eq_of_lt (by omega)]
      omega
  rcases recoverToPublicKey_cases hcurve hsig hash with
    ⟨hrej, herror⟩ | ⟨hrej, R, key, hR, hok, hkey⟩
  · refine ⟨.inl hrej, fun hv hr hs hs' S hS => ?_⟩
    by_contra hne
    obtain ⟨key, hok, -⟩ := hother hv hr hs hs' S hS _ hne rfl
    rw [herror] at hok
    cases hok
  · obtain ⟨hid, hr', hs', x, y, h, hpoint, hx, hy⟩ :=
      fills_of_recoversKey hcurve hrec hR hok (hkey he) hruns
    refine ⟨.inr ⟨he, hr', hs', R, hid, x, y, h, hpoint, hx, hy⟩, fun hv hr hs _ S hS => ?_⟩
    by_contra hne
    -- The key returned would be that of two points, one above `r` and one above `r + N`.
    obtain ⟨key', hok', hkey'⟩ := hother hv hr hs hs' S hS _ hne rfl
    rw [hok] at hok'
    injection hok' with hok'
    rw [← hok', hkey he, hpoint] at hkey'
    have heq := eq_of_isKeyOf hx hy hkey'
    have hr0 := Nat.not_dvd_of_pos_of_lt hr hr'
    have hs0 := Nat.not_dvd_of_pos_of_lt hs hs'
    have hRS : R = S :=
      (verificationPoint_recovered hcurve hid hr0 hs0 (hpoint.trans heq)).trans
        (verificationPoint_recovered hcurve hS hr0 hs0 rfl).symm
    have hcoordinate := hid.1.symm.trans (hRS ▸ hS.1)
    injection hcoordinate with hcoordinate
    have := curve.N_pos
    omega

/-- The condition is enough for every hash, and it is necessary where `N`
does not divide the hash and, for the ids from 2 on, the coordinates of the
key do not run together. -/
theorem recoverToPublicKey_iff (hcurve : curve = .SECP_256_K1 ∨ curve = .SECP_256_R1)
    (hsig : RecoverySignature sig r s v) (hash : Bytes) :
    (RecoveryHolds curve (ofBE hash) r s v → RecoversKey curve hash sig r s v) ∧
      (¬ curve.N ∣ ofBE hash → (2 ≤ v → ¬ RunsTogether curve (ofBE hash) r s v) →
        RecoversKey curve hash sig r s v → RecoveryHolds curve (ofBE hash) r s v) :=
  ⟨recoversKey_of_holds hcurve hsig, holds_of_recoversKey hcurve hsig⟩

end

/-! ## Signatures with the base point -/

theorem recoverySignature_toHex {r s : Nat} (hr : r < 256 ^ 32) (hs : s < 256 ^ 32) (v : UInt8) :
    RecoverySignature (toHex (toBE 32 r ++ toBE 32 s ++ [v])) r s v.toNat := by
  refine ⟨hexSignature_toHex hr hs v, ?_⟩
  have hlen : (hexChars (toBE 32 r ++ toBE 32 s)).length = 128 := by
    rw [length_hexChars, List.length_append, length_toBE, length_toBE]
  rw [toList_toHex, hexChars_append, List.drop_left' hlen, digitsValue_hexChars]
  rw [ofBE_cons]
  simp [ofBE]

theorem hasId_G : HasId .SECP_256_K1 (Curve.Gx .SECP_256_K1) 0 (Curve.G .SECP_256_K1) := by
  refine ⟨Curve.xOf_G _, ?_⟩
  show ((Curve.Gy .SECP_256_K1 : Curve.Coordinate .SECP_256_K1).val % 2 == 1) = _
  rw [(Curve.base_val _).2]
  decide

/-- What the base point as the signature's point gives for the hash 1. -/
theorem recoveredKey_G {s : Nat} (k : ZMod (Curve.N .SECP_256_K1))
    (hs : (s : ZMod (Curve.N .SECP_256_K1)) = 1 + Curve.Gx .SECP_256_K1 * k) :
    EcdsaScheme.recoveredKey (Curve.G .SECP_256_K1) (Curve.G .SECP_256_K1)
      ((ofBE [1] : Nat) : ZMod (Curve.N .SECP_256_K1)) (Curve.Gx .SECP_256_K1 : Nat) s
        = k.val • Curve.G .SECP_256_K1 := by
  have hone : ((ofBE [1] : Nat) : ZMod (Curve.N .SECP_256_K1)) = 1 := Nat.cast_one
  rw [hone]
  exact EcdsaScheme.recoveredKey_base (Curve.N_nsmul_G _)
    (Curve.natCast_ne_zero (by decide)) hs

/-- The hash 1 is signed with `s = 1 + Gx`, and the key is the base point. -/
theorem recoverToPublicKey_base :
    RecoversKey .SECP_256_K1 [1]
      (toHex (toBE 32 (Curve.Gx .SECP_256_K1) ++ toBE 32 (1 + Curve.Gx .SECP_256_K1) ++ [0]))
      (Curve.Gx .SECP_256_K1) (1 + Curve.Gx .SECP_256_K1) 0 := by
  refine (recoverToPublicKey_iff (.inl rfl)
    (recoverySignature_toHex (by decide) (by decide) 0) [1]).1 ⟨.inr ?_,
    fun hv => absurd hv (by decide)⟩
  refine ⟨by decide, by decide, by decide, _, hasId_G, Curve.Gx .SECP_256_K1,
    Curve.Gy .SECP_256_K1, Curve.nonsingular_of_equation (Curve.base_equation _), ?_, ?_, ?_⟩
  · rw [recoveredKey_G 1 (by push_cast; ring), ZMod.val_one, one_nsmul]
    rfl
  · rw [(Curve.base_val _).1]
    unfold Fills
    decide
  · rw [(Curve.base_val _).2]
    unfold Fills
    decide

/-- What is returned for the hash 1 and the base point. -/
theorem recoverToPublicKey_G {s : Nat} (hs : 1 ≤ s) (hs' : s < Curve.N .SECP_256_K1)
    (k : ZMod (Curve.N .SECP_256_K1))
    (hk : (s : ZMod (Curve.N .SECP_256_K1)) = 1 + Curve.Gx .SECP_256_K1 * k) :
    recoverToPublicKey .SECP_256_K1 [1]
        (toHex (toBE 32 (Curve.Gx .SECP_256_K1) ++ toBE 32 s ++ [0]))
      = .ok (writtenKey (k.val • Curve.G .SECP_256_K1)) := by
  have hN := Curve.N_lt .SECP_256_K1
  have hmod : Curve.Gx .SECP_256_K1 % Curve.P .SECP_256_K1 = Curve.Gx .SECP_256_K1 :=
    Nat.mod_eq_of_lt (by decide)
  have hsig := @recoverySignature_toHex (Curve.Gx .SECP_256_K1) s (by decide) (by omega) 0
  rcases recoverToPublicKey_cases (.inl rfl) hsig [1] with
    ⟨hrej, -⟩ | ⟨-, R, key, hR, hok, hkey⟩
  · rcases hrej with h | h | h | h
    · exact absurd h (by decide)
    · exact absurd h (Nat.not_dvd_of_pos_of_lt hs hs')
    · exact absurd h (by decide)
    · rw [hmod] at h
      exact absurd (Curve.xOf_G _) (h _)
  · rw [hmod] at hR
    rw [hok, hkey (by decide), hR.unique (.inl rfl) hasId_G, recoveredKey_G k hk]

theorem length_writtenKey_neg_G :
    (writtenKey (-Curve.G .SECP_256_K1)).length = 65 := by
  obtain ⟨hon, hneg⟩ := Curve.neg_G .SECP_256_K1
  have hwx : minWidth (Curve.Gx .SECP_256_K1) = 32 := minWidth_eq_iff.2 (by unfold Fills; decide)
  have hwy : minWidth (Curve.P .SECP_256_K1 - Curve.Gy .SECP_256_K1) = 33 := by
    have hle := @minWidth_le_iff (Curve.P .SECP_256_K1 - Curve.Gy .SECP_256_K1) 31
    have hlong : ¬ Curve.P .SECP_256_K1 - Curve.Gy .SECP_256_K1 < 2 ^ (8 * 31 + 7) := by decide
    have hshort := minWidth_le (Nat.lt_of_le_of_lt
      (Nat.sub_le (Curve.P .SECP_256_K1) (Curve.Gy .SECP_256_K1)) (Curve.P_lt _))
    have := mt hle.1 hlong
    omega
  rw [hneg, writtenKey, List.length_append, length_toBE, length_toBE, (Curve.base_val _).1,
    Curve.val_neg_Gy, hwx, hwy]

/-- The signature of the hash 1 with the nonce 1 and the key `-G`: 65 bytes.
With `s = 1` there is no key, and two bytes come back. -/
theorem recoverToPublicKey_long :
    (∃ key, recoverToPublicKey .SECP_256_K1 [1]
        (toHex (toBE 32 (Curve.Gx .SECP_256_K1)
          ++ toBE 32 (Curve.N .SECP_256_K1 + 1 - Curve.Gx .SECP_256_K1) ++ [0])) = .ok key ∧
      key.length = 65) ∧
    recoverToPublicKey .SECP_256_K1 [1]
      (toHex (toBE 32 (Curve.Gx .SECP_256_K1) ++ toBE 32 1 ++ [0])) = .ok [0, 0] ∧
    ¬ RecoversKey .SECP_256_K1 [1]
      (toHex (toBE 32 (Curve.Gx .SECP_256_K1)
        ++ toBE 32 (Curve.N .SECP_256_K1 + 1 - Curve.Gx .SECP_256_K1) ++ [0]))
      (Curve.Gx .SECP_256_K1) (Curve.N .SECP_256_K1 + 1 - Curve.Gx .SECP_256_K1) 0 := by
  have hcast : ((Curve.N .SECP_256_K1 + 1 - Curve.Gx .SECP_256_K1 : Nat)
      : ZMod (Curve.N .SECP_256_K1)) = 1 + Curve.Gx .SECP_256_K1 * -1 := by
    rw [Nat.cast_sub (by decide), Nat.cast_add, ZMod.natCast_self]
    push_cast
    ring
  have hlong := recoverToPublicKey_G (by decide) (by decide) (-1) hcast
  rw [EcdsaScheme.neg_smul (Curve.N_nsmul_G _), ZMod.val_one, one_nsmul] at hlong
  have hnone := recoverToPublicKey_G (Nat.le_refl 1) (by decide) 0 (by push_cast; ring)
  rw [ZMod.val_zero, zero_nsmul] at hnone
  refine ⟨⟨_, hlong, length_writtenKey_neg_G⟩, hnone, fun hrec => ?_⟩
  obtain ⟨Q, hQ, -⟩ := hrec.accepted _ hlong
  have hlen := length_isKeyOf hQ
  rw [length_writtenKey_neg_G] at hlen
  omega

end Ecdsa

end DataProcessor
