import DataProcessor.Proofs.EcdsaSign

/-!
# Verification in Kotlin (`Ecdsa.verify`)

`verify` computes the two multiples of the textbook, makes them affine, and
adds them with `fastAdd`. The neutral element becomes `(0, 0)` on the way,
and `fastAdd` takes that for a point: when `N` divides the hash the code
compares `r` with the first coordinate of the chord through the origin and
the other multiple. In all other cases it compares `r` with the first
coordinate of the textbook's point, and it compares that number itself, not
its remainder modulo `N`; nor does it bound `s`.

`verify_agrees_iff` says for which inputs the answer is the textbook's all
the same.
-/

namespace DataProcessor

open Lib

/-- A signature string: 130 hexadecimal digits, `r` in the first 64 and `s`
in the next. -/
structure HexSignature (sig : String) (r s : Nat) : Prop where
  length_eq : sig.toList.length = 130
  isHexDigit : ∀ c ∈ sig.toList, isHexDigit c = true
  r_eq : digitsValue 16 (sig.toList.take 64) = some r
  s_eq : digitsValue 16 ((sig.toList.drop 64).take 64) = some s

theorem substring_eq {text : String} (h : ∀ c ∈ text.toList, isHexDigit c = true)
    (start stop : Nat) :
    substring text start stop
      = String.ofList ((text.toList.drop start).take (stop - start)) := by
  have hlt : ∀ c ∈ text.toList, c.toNat < 0x10000 := by
    intro c hc
    have hdigit := h c hc
    rw [isHexDigit, Bool.and_eq_true, decide_eq_true_eq] at hdigit
    omega
  rw [substring, codeUnits_of_lt hlt, ← List.map_drop, ← List.map_take, List.map_map,
    show Char.ofNat ∘ Char.toNat = id from funext Char.ofNat_toNat, List.map_id]

namespace HexSignature

variable {sig : String} {r s : Nat}

theorem length_codeUnits (h : HexSignature sig r s) : (codeUnits sig).length = 130 := by
  rw [codeUnits_of_lt, List.length_map, h.length_eq]
  intro c hc
  have hdigit := h.isHexDigit c hc
  rw [DataProcessor.isHexDigit, Bool.and_eq_true, decide_eq_true_eq] at hdigit
  omega

theorem parse (h : HexSignature sig r s) {start n : Nat} (hstart : start < 130)
    (hn : digitsValue 16 ((sig.toList.drop start).take 64) = some n) :
    BigInteger.ofString (substring sig start (start + 64)) 16 = .ok (n : Int) := by
  rw [substring_eq h.isHexDigit, Nat.add_sub_cancel_left]
  refine BigInteger.ofString_digits (fun hnil => ?_) hn
  have hlen := congrArg List.length hnil
  rw [List.length_take, List.length_drop, h.length_eq, List.length_nil] at hlen
  omega

theorem parse_r (h : HexSignature sig r s) :
    BigInteger.ofString (substring sig 0 64) 16 = .ok (r : Int) :=
  h.parse (by decide : 0 < 130) h.r_eq

theorem parse_s (h : HexSignature sig r s) :
    BigInteger.ofString (substring sig 64 128) 16 = .ok (s : Int) :=
  h.parse (by decide : 64 < 130) h.s_eq

end HexSignature

theorem hexSignature_toHex {r s : Nat} (hr : r < 256 ^ 32) (hs : s < 256 ^ 32) (v : UInt8) :
    HexSignature (toHex (toBE 32 r ++ toBE 32 s ++ [v])) r s := by
  have hlist : (toHex (toBE 32 r ++ toBE 32 s ++ [v])).toList
      = hexChars (toBE 32 r) ++ (hexChars (toBE 32 s) ++ hexChars [v]) := by
    rw [toList_toHex, hexChars_append, hexChars_append, List.append_assoc]
  have hlen (n : Nat) : (hexChars (toBE 32 n)).length = 64 := by
    rw [length_hexChars, length_toBE]
  refine ⟨?_, fun c hc => ?_, ?_, ?_⟩
  · rw [hlist, List.length_append, List.length_append, hlen, hlen, length_hexChars]
    rfl
  · rw [toList_toHex] at hc
    exact isHexDigit_of_mem_hexChars hc
  · rw [hlist, List.take_left' (hlen r), digitsValue_hexChars, ofBE_toBE hr]
  · rw [hlist, List.drop_left' (hlen r), List.take_left' (hlen s), digitsValue_hexChars,
      ofBE_toBE hs]

namespace Ecdsa

variable {curve : Curve}

/-! ## The sum that is compared -/

theorem castTriple_affine (x y : curve.Coordinate) :
    curve.castTriple ⟨x.val, y.val, 1⟩ = ⟨x, y, 1⟩ := by
  simp [Curve.castTriple, Triple.map]

/-- The first coordinate of a triple, as `verify` computes it. -/
def affineX (curve : Curve) (T : Triple Int) : Int := inv T.Z curve.P ^ 2 * T.X % curve.P

theorem affineX_zero : affineX curve ⟨0, 0, 1⟩ = 0 := by
  rw [affineX, mul_zero, Int.zero_emod]

/-- Two affine points are added as the group does, and for the neutral
element the coordinate is 0. -/
theorem affineX_fastAdd {x y x' y' : curve.Coordinate}
    {h : (shortCurve (curve.A : curve.Coordinate) (curve.B : curve.Coordinate)).Nonsingular x y}
    {h' : (shortCurve (curve.A : curve.Coordinate) (curve.B : curve.Coordinate)).Nonsingular x' y'}
    (hne : (.some x y h : curve.Point) + .some x' y' h' = 0 →
      (.some x y h : curve.Point) ≠ .some x' y' h') :
    affineX curve (fastAdd curve x.val y.val 1 x'.val y'.val 1)
      = (Curve.xOf ((.some x y h : curve.Point) + .some x' y' h')).getD 0 := by
  have hT : (curve.castTriple ⟨x.val, y.val, 1⟩).Represents (.some x y h : curve.Point) := by
    rw [castTriple_affine]
    exact Triple.represents_some h
  have hU : (curve.castTriple ⟨x'.val, y'.val, 1⟩).Represents
      (.some x' y' h' : curve.Point) := by
    rw [castTriple_affine]
    exact Triple.represents_some h'
  by_cases hsum : (.some x y h : curve.Point) + .some x' y' h' = 0
  · have hzero := fastAdd_opposite hT hU hsum (hne hsum)
    simp only [] at hzero
    rw [hzero, hsum, affineX_zero]
    rfl
  · obtain ⟨x'', y'', h'', hpoint, hx, -⟩ :=
      affine_of_represents (represents_fastAdd hT hU hsum)
    rw [hpoint]
    exact hx

/-- The third point of the chord through the origin and a point with first
coordinate `x`: what is added to the point when `(0, 0)` is taken for one. -/
def originX (curve : Curve) (x : curve.Coordinate) : Nat :=
  (((curve.A : curve.Coordinate) * x + curve.B) / x ^ 2).val

theorem affineX_origin {x y : curve.Coordinate} (hy : y ≠ 0)
    (heq : y ^ 2 = x ^ 3 + (curve.A : curve.Coordinate) * x + curve.B) :
    affineX curve (fastAdd curve 0 0 1 x.val y.val 1) = originX curve x := by
  have hemod (a : curve.Coordinate) : (a.val : Int) % curve.P = a.val :=
    Int.emod_eq_of_lt (by omega) (by exact_mod_cast a.val_lt)
  by_cases hx : x = 0
  · have hval : (0 : Int) ≠ y.val := by
      intro h0
      exact hy ((ZMod.val_eq_zero y).1 (by exact_mod_cast h0.symm))
    subst hx
    rw [fastAdd]
    simp only [ZMod.val_zero, Nat.cast_zero, mul_zero, one_pow, one_mul, Int.zero_emod, hemod,
      if_true, if_neg hval]
    rw [affineX_zero, originX]
    simp
  · have hX : (1 : Int) ^ 2 * 0 % curve.P ≠ 1 ^ 2 * (x.val : Int) % curve.P := by
      rw [one_pow, mul_zero, one_mul, hemod, Int.zero_emod]
      intro h0
      exact hx ((ZMod.val_eq_zero x).1 (by exact_mod_cast h0.symm))
    have hadd := @castTriple_fastAdd curve ⟨0, 0, 1⟩ ⟨x.val, y.val, 1⟩ hX
    have horigin : curve.castTriple ⟨0, 0, 1⟩ = ⟨0, 0, 1⟩ := by
      simp [Curve.castTriple, Triple.map]
    rw [horigin, castTriple_affine] at hadd
    have hgX : ((fastAdd curve 0 0 1 x.val y.val 1).X : curve.Coordinate) = y ^ 2 - x ^ 3 := by
      refine (congrArg Triple.X hadd).trans ?_
      simp [Triple.add]
    have hgZ : ((fastAdd curve 0 0 1 x.val y.val 1).Z : curve.Coordinate) = x := by
      refine (congrArg Triple.Z hadd).trans ?_
      simp [Triple.add]
    rw [affineX, affine_eq (by rwa [hgZ]), hgX, hgZ, originX, heq]
    congr 3
    ring

/-! ## The two multiples -/

section

variable {T : Triple Int} {Q : curve.Point} {u : ZMod curve.N}

/-- No multiple but zero is its own negative. -/
theorem smul_add_self_ne_zero (hQ : addOrderOf Q = curve.N) (hu : u ≠ 0) :
    u.val • Q + u.val • Q ≠ 0 := by
  have hN := Curve.N_nsmul_of_addOrderOf hQ
  have hpos : u.val ≠ 0 := mt (ZMod.val_eq_zero u).1 hu
  exact Curve.add_self_ne_zero (EcdsaScheme.smul_killed hN u)
    (nsmul_ne_zero hQ (Nat.one_le_iff_ne_zero.2 hpos) u.val_lt)

theorem affine_smul (hT : (curve.castTriple T).Represents Q) (hQ : addOrderOf Q = curve.N)
    (hu : u ≠ 0) :
    ∃ x y h, u.val • Q = .some x y h ∧
      let p := fastMultiply curve T.X T.Y T.Z u.val
      inv p.Z curve.P ^ 2 * p.X % curve.P = x.val ∧
        inv p.Z curve.P ^ 3 * p.Y % curve.P = y.val := by
  have hpos : u.val ≠ 0 := mt (ZMod.val_eq_zero u).1 hu
  exact affine_of_represents
    (represents_fastMultiply_of_lt hT hQ (Nat.one_le_iff_ne_zero.2 hpos) u.val_lt)

theorem scalar_eq {s : Nat} (hs : ¬ curve.N ∣ s) (a : Nat) :
    (a : Int) * inv s curve.N % curve.N
      = (((a : ZMod curve.N) * (s : ZMod curve.N)⁻¹).val : Int) := by
  have hne : ((s : Int) : ZMod curve.N) ≠ 0 := by
    rw [Int.cast_natCast]
    exact Curve.natCast_ne_zero hs
  rw [← ZMod.val_intCast]
  push_cast
  rw [inv_cast hne, Int.cast_natCast]

end

/-! ## `verify` -/

/-- What `verify` compares `r` with, given the hash and the textbook's
point. -/
def comparedX (curve : Curve) (e : Nat) (R : curve.Point) : Nat :=
  if curve.N ∣ e then (shortCurve.xCoordinate R).elim 0 (originX curve)
  else (Curve.xOf R).getD 0

section

variable {X Y : curve.Coordinate}
  {h : (shortCurve (curve.A : curve.Coordinate) (curve.B : curve.Coordinate)).Nonsingular X Y}
  {sig : String} {r s : Nat}

theorem affineX_sum (hQ : addOrderOf (.some X Y h : curve.Point) = curve.N) {e r s : Nat}
    (hr : ¬ curve.N ∣ r) (hs : ¬ curve.N ∣ s) :
    let p := fastMultiply curve curve.Gx curve.Gy 1
      ((e : ZMod curve.N) * (s : ZMod curve.N)⁻¹).val
    let q := fastMultiply curve X.val Y.val 1
      ((r : ZMod curve.N) * (s : ZMod curve.N)⁻¹).val
    affineX curve (fastAdd curve
        (inv p.Z curve.P ^ 2 * p.X % curve.P) (inv p.Z curve.P ^ 3 * p.Y % curve.P) 1
        (inv q.Z curve.P ^ 2 * q.X % curve.P) (inv q.Z curve.P ^ 3 * q.Y % curve.P) 1)
      = comparedX curve e (EcdsaScheme.verificationPoint curve.G (.some X Y h)
          (e : ZMod curve.N) r s) := by
  have hs0 : (s : ZMod curve.N)⁻¹ ≠ 0 := inv_ne_zero (Curve.natCast_ne_zero hs)
  have hr0 : (r : ZMod curve.N) ≠ 0 := Curve.natCast_ne_zero hr
  have hT : (curve.castTriple ⟨X.val, Y.val, 1⟩).Represents (.some X Y h : curve.Point) := by
    rw [castTriple_affine]
    exact Triple.represents_some h
  -- The key's multiple is never zero, and neither is its second coordinate.
  have hu2 := mul_ne_zero hr0 hs0
  have hdouble := smul_add_self_ne_zero hQ hu2
  obtain ⟨x', y', h', hpoint', hx', hy'⟩ := affine_smul hT hQ hu2
  simp only [] at hx' hy' ⊢
  rw [hx', hy', comparedX, EcdsaScheme.verificationPoint, hpoint']
  by_cases he : curve.N ∣ e
  · have he0 : (e : ZMod curve.N) = 0 := (ZMod.natCast_eq_zero_iff e curve.N).2 he
    have hzero : fastMultiply curve curve.Gx curve.Gy 1 ((0 : Nat) : Int) = ⟨0, 0, 1⟩ :=
      fastMultiply_of_dvd (Y_ne_zero curve.represents_G curve.addOrderOf_G) (dvd_zero _)
    have hy0 : y' ≠ 0 := Curve.snd_ne_zero (by rwa [hpoint'] at hdouble)
    rw [if_pos he, he0, zero_mul, ZMod.val_zero, hzero, zero_nsmul, zero_add]
    simp only [mul_zero, Int.zero_emod]
    exact affineX_origin hy0 ((shortCurve.equation_iff x' y').1 h'.1)
  · have he0 : (e : ZMod curve.N) ≠ 0 := Curve.natCast_ne_zero he
    obtain ⟨x, y, h₁, hpoint, hx, hy⟩ :=
      affine_smul curve.represents_G curve.addOrderOf_G (mul_ne_zero he0 hs0)
    simp only [] at hx hy
    rw [hx, hy, if_neg he, hpoint]
    refine affineX_fastAdd fun hsum heq => hdouble ?_
    rw [hpoint', ← heq, heq]
    rw [heq] at hsum
    exact hsum

theorem verify_eq (hQ : addOrderOf (.some X Y h : curve.Point) = curve.N)
    (hsig : HexSignature sig r s) (hr : ¬ curve.N ∣ r) (hs : ¬ curve.N ∣ s) (hash : Bytes) :
    verify curve (toBE 32 X.val ++ toBE 32 Y.val) hash sig
      = .ok (decide (r = comparedX curve (ofBE hash)
          (EcdsaScheme.verificationPoint curve.G (.some X Y h)
            (ofBE hash : ZMod curve.N) r s))) := by
  have hP := curve.P_lt
  have hX : ofBE (toBE 32 X.val) = X.val := ofBE_toBE (by have := X.val_lt; omega)
  have hY : ofBE (toBE 32 Y.val) = Y.val := ofBE_toBE (by have := Y.val_lt; omega)
  have hr' : ¬ (r : Int) % curve.N = 0 := by
    rw [← Int.dvd_iff_emod_eq_zero]
    exact_mod_cast hr
  have hs' : ¬ (s : Int) % curve.N = 0 := by
    rw [← Int.dvd_iff_emod_eq_zero]
    exact_mod_cast hs
  rw [verify]
  simp only [hsig.length_codeUnits, List.length_append, length_toBE, hsig.parse_r, hsig.parse_s,
    bind, Except.bind, pure, Except.pure, hr', hs', or_self, if_false,
    List.take_left' (length_toBE 32 _), List.drop_left' (length_toBE 32 _),
    bytesToBigInt_eq, hX, hY, scalar_eq hs]
  rw [if_neg (by decide), if_neg (by decide)]
  refine congrArg _ (decide_eq_decide.2 ?_)
  rw [← Int.natCast_inj, ← affineX_sum hQ hr hs]
  rfl

theorem verify_of_dvd (hsig : HexSignature sig r s) (hdvd : curve.N ∣ r ∨ curve.N ∣ s)
    {pubKey : Bytes} (hlen : pubKey.length = 64) (hash : Bytes) :
    verify curve pubKey hash sig = .ok false := by
  have hzero : (r : Int) % curve.N = 0 ∨ (s : Int) % curve.N = 0 := by
    rw [← Int.dvd_iff_emod_eq_zero, ← Int.dvd_iff_emod_eq_zero]
    exact_mod_cast hdvd
  rw [verify]
  simp only [hsig.length_codeUnits, hlen, hsig.parse_r, hsig.parse_s, bind, Except.bind, pure,
    Except.pure, hzero, if_true]
  rw [if_neg (by decide), if_neg (by decide)]

end

/-! ## Against the textbook -/

/-- The inputs for which `verify` and the textbook give the same answer; `R`
is the textbook's point. The coordinate compared is `R`'s own, so that it must
not be `r` where a number is out of range and not `r + N` where both are in
range. With a hash that `N` divides both accept or both refuse: `verify`
accepts where `r` is the coordinate of the chord through the origin,
`(A * x + B) / x ^ 2` modulo `P`, and the textbook where the two numbers are
in range and `r` is `R`'s own coordinate modulo `N`. -/
def VerifyAgrees (curve : Curve) (Q : curve.Point) (e r s : Nat) : Prop :=
  let R := EcdsaScheme.verificationPoint curve.G Q (e : ZMod curve.N) r s
  curve.N ∣ r ∨ curve.N ∣ s ∨
    if curve.N ∣ e then
      ∀ x, Curve.xOf R = some x →
        ((x ≠ 0 ∧ r < curve.P ∧ (curve.A * x + curve.B) % curve.P = r * x ^ 2 % curve.P) ↔
          (r < curve.N ∧ s < curve.N ∧ x % curve.N = r))
    else
      (Curve.xOf R = some r → r < curve.N ∧ s < curve.N) ∧
        (Curve.xOf R = some (r + curve.N) → curve.N ≤ s)

theorem eq_originX_iff {x : curve.Coordinate} {r : Nat} (hr : r ≠ 0) :
    r = originX curve x ↔ x.val ≠ 0 ∧ r < curve.P ∧
      (curve.A * x.val + curve.B) % curve.P = r * x.val ^ 2 % curve.P := by
  have hcast : (curve.A * x.val + curve.B) % curve.P = r * x.val ^ 2 % curve.P ↔
      (curve.A : curve.Coordinate) * x + curve.B = r * x ^ 2 := by
    rw [← ZMod.natCast_eq_natCast_iff']
    push_cast
    rw [ZMod.natCast_zmod_val]
  rw [hcast, ne_eq, ZMod.val_eq_zero, originX]
  constructor
  · intro heq
    have hx : x ≠ 0 := by
      rintro rfl
      simp at heq
      exact hr heq
    have hmul : (r : curve.Coordinate)
        = ((curve.A : curve.Coordinate) * x + curve.B) / x ^ 2 := by
      rw [heq, ZMod.natCast_zmod_val]
    rw [eq_div_iff (pow_ne_zero 2 hx)] at hmul
    refine ⟨hx, ?_, hmul.symm⟩
    rw [heq]
    exact ZMod.val_lt _
  · intro hgiven
    obtain ⟨hx, hlt, hmul⟩ := hgiven
    rw [hmul, mul_div_assoc, div_self (pow_ne_zero 2 hx), mul_one, ZMod.val_natCast_of_lt hlt]

theorem not_dvd_of_accepts {Q : curve.Point} {e r s : Nat}
    (h : EcdsaScheme.Accepts curve.N Curve.xOf curve.G Q e r s) :
    ¬ curve.N ∣ r ∧ ¬ curve.N ∣ s := by
  obtain ⟨hr, hr', hs, hs', -⟩ := h
  exact ⟨Nat.not_dvd_of_pos_of_lt hr hr', Nat.not_dvd_of_pos_of_lt hs hs'⟩

/-- With neither number a multiple of `N`, the condition is that the
comparison comes out as the textbook's. -/
theorem verifyAgrees_iff {Q : curve.Point} {e r s : Nat} (hP : curve.P < 2 * curve.N)
    (hr : ¬ curve.N ∣ r) (hs : ¬ curve.N ∣ s) :
    VerifyAgrees curve Q e r s ↔
      (r = comparedX curve e
          (EcdsaScheme.verificationPoint curve.G Q (e : ZMod curve.N) r s) ↔
        EcdsaScheme.Accepts curve.N Curve.xOf curve.G Q e r s) := by
  have hr0 : r ≠ 0 := by
    rintro rfl
    exact hr (dvd_zero _)
  have hs0 : s ≠ 0 := by
    rintro rfl
    exact hs (dvd_zero _)
  rw [VerifyAgrees, EcdsaScheme.Accepts, comparedX]
  simp only [hr, hs, false_or]
  cases hR : EcdsaScheme.verificationPoint curve.G Q (e : ZMod curve.N) r s with
  | zero =>
      -- The point at infinity: 0 is compared, and the textbook refuses.
      have hnone : Curve.xOf (WeierstrassCurve.Affine.Point.zero : curve.Point) = none := rfl
      simp only [hnone, reduceCtorEq, false_and, exists_false, and_false, iff_false]
      simp [shortCurve.xCoordinate, hr0]
  | some x y h =>
      have hsome : Curve.xOf (WeierstrassCurve.Affine.Point.some x y h : curve.Point)
          = some x.val := rfl
      have hlt := x.val_lt
      simp only [hsome, Option.some.injEq, exists_eq_left', forall_eq']
      split
      · rw [← eq_originX_iff hr0]
        have hpos : 1 ≤ r ∧ 1 ≤ s := by omega
        simp only [hpos.1, hpos.2, true_and]
        rfl
      · rw [Option.getD_some]
        -- Below `2 * N` a coordinate is its remainder, or that and `N`.
        rcases Nat.lt_or_ge x.val curve.N with hx | hx
        · rw [Nat.mod_eq_of_lt hx]
          omega
        · rw [Nat.mod_eq_sub_mod hx, Nat.mod_eq_of_lt (by omega)]
          omega

/-- Where `verify` answers what the textbook does. -/
theorem verify_agrees_iff (hcurve : curve = .SECP_256_K1 ∨ curve = .SECP_256_R1)
    {X Y : curve.Coordinate}
    {h : (shortCurve (curve.A : curve.Coordinate) (curve.B : curve.Coordinate)).Nonsingular X Y}
    (hQ : addOrderOf (.some X Y h : curve.Point) = curve.N) {sig : String} {r s : Nat}
    (hsig : HexSignature sig r s) (hash : Bytes) :
    ∃ accepted, verify curve (toBE 32 X.val ++ toBE 32 Y.val) hash sig = .ok accepted ∧
      ((accepted = true ↔ EcdsaScheme.Accepts curve.N Curve.xOf curve.G (.some X Y h)
          (ofBE hash) r s) ↔
        VerifyAgrees curve (.some X Y h) (ofBE hash) r s) := by
  have hP : curve.P < 2 * curve.N := by
    rcases hcurve with rfl | rfl <;> decide
  by_cases hdvd : curve.N ∣ r ∨ curve.N ∣ s
  · refine ⟨false, verify_of_dvd hsig hdvd (by simp) hash, ?_⟩
    have hagrees : VerifyAgrees curve (.some X Y h) (ofBE hash) r s := by
      rcases hdvd with hr | hs
      · exact .inl hr
      · exact .inr (.inl hs)
    refine iff_of_true (iff_of_false Bool.false_ne_true fun hacc => ?_) hagrees
    exact hdvd.elim (not_dvd_of_accepts hacc).1 (not_dvd_of_accepts hacc).2
  · rw [not_or] at hdvd
    refine ⟨_, verify_eq hQ hsig hdvd.1 hdvd.2 hash, ?_⟩
    rw [decide_eq_true_eq, verifyAgrees_iff hP hdvd.1 hdvd.2]

/-! ## The base point as a key -/

/-- The key bytes of the base point. -/
def baseKey : Bytes := toBE 32 (Curve.Gx .SECP_256_K1) ++ toBE 32 (Curve.Gy .SECP_256_K1)

theorem verify_baseKey {sig : String} {r s : Nat} (hsig : HexSignature sig r s)
    (hr : ¬ Curve.N .SECP_256_K1 ∣ r) (hs : ¬ Curve.N .SECP_256_K1 ∣ s) (hash : Bytes) :
    verify .SECP_256_K1 baseKey hash sig
      = .ok (decide (r = comparedX .SECP_256_K1 (ofBE hash)
          (EcdsaScheme.verificationPoint (Curve.G .SECP_256_K1) (Curve.G .SECP_256_K1)
            (ofBE hash : ZMod (Curve.N .SECP_256_K1)) r s))) := by
  have heq := @verify_eq .SECP_256_K1 _ _ _ _ _ _ (Curve.addOrderOf_G _) hsig hr hs hash
  rwa [(Curve.base_val _).1, (Curve.base_val _).2] at heq

/-- With the base point as the key the textbook's point is one multiple of
it. -/
theorem verificationPoint_G {e r s : ZMod (Curve.N .SECP_256_K1)}
    (h : (e + r) * s⁻¹ = 1) :
    EcdsaScheme.verificationPoint (Curve.G .SECP_256_K1) (Curve.G .SECP_256_K1) e r s
      = Curve.G .SECP_256_K1 := by
  have hkey := EcdsaScheme.verificationPoint_key (e := e) (r := r) (s := s)
    (Curve.N_nsmul_G .SECP_256_K1) 1
  have hone : (1 : ZMod (Curve.N .SECP_256_K1)).val = 1 := by decide
  rwa [mul_one, h, hone, one_nsmul] at hkey

theorem verify_agrees_base :
    ∃ accepted, verify .SECP_256_K1
        (toBE 32 (Curve.Gx .SECP_256_K1 : Curve.Coordinate .SECP_256_K1).val
          ++ toBE 32 (Curve.Gy .SECP_256_K1 : Curve.Coordinate .SECP_256_K1).val)
        [7] (toHex (toBE 32 5 ++ toBE 32 6 ++ [27])) = .ok accepted ∧
      ((accepted = true ↔ EcdsaScheme.Accepts (Curve.N .SECP_256_K1) Curve.xOf
          (Curve.G .SECP_256_K1) (Curve.G .SECP_256_K1) (ofBE [7]) 5 6) ↔
        VerifyAgrees .SECP_256_K1 (Curve.G .SECP_256_K1) (ofBE [7]) 5 6) :=
  verify_agrees_iff (.inl rfl) (Curve.addOrderOf_G _)
    (hexSignature_toHex (by decide) (by decide) 27) [7]

/-- With the base point as the key: a valid signature of a zero hash is
refused, and an `s` beyond `N` is accepted. -/
theorem verify_disagrees :
    (verify .SECP_256_K1 baseKey (toBE 32 0)
        (toHex (toBE 32 (Curve.Gx .SECP_256_K1) ++ toBE 32 (Curve.Gx .SECP_256_K1) ++ [27]))
        = .ok false ∧
      EcdsaScheme.Accepts (Curve.N .SECP_256_K1) Curve.xOf (Curve.G .SECP_256_K1)
        (Curve.G .SECP_256_K1) (ofBE (toBE 32 0)) (Curve.Gx .SECP_256_K1)
        (Curve.Gx .SECP_256_K1)) ∧
    (verify .SECP_256_K1 baseKey
        (toBE 32 (Curve.N .SECP_256_K1 + 1 - Curve.Gx .SECP_256_K1))
        (toHex (toBE 32 (Curve.Gx .SECP_256_K1) ++ toBE 32 (Curve.N .SECP_256_K1 + 1) ++ [27]))
        = .ok true ∧
      ¬ EcdsaScheme.Accepts (Curve.N .SECP_256_K1) Curve.xOf (Curve.G .SECP_256_K1)
        (Curve.G .SECP_256_K1) (ofBE (toBE 32 (Curve.N .SECP_256_K1 + 1 - Curve.Gx .SECP_256_K1)))
        (Curve.Gx .SECP_256_K1) (Curve.N .SECP_256_K1 + 1)) := by
  have hr : ¬ Curve.N .SECP_256_K1 ∣ Curve.Gx .SECP_256_K1 := by decide
  have hr0 : (Curve.Gx .SECP_256_K1 : ZMod (Curve.N .SECP_256_K1)) ≠ 0 :=
    Curve.natCast_ne_zero hr
  have hhash : ofBE (toBE 32 0) = 0 := ofBE_toBE (by decide)
  have hzero : ((ofBE (toBE 32 0) : Nat) : ZMod (Curve.N .SECP_256_K1)) = 0 := by
    rw [hhash, Nat.cast_zero]
  have hpoint := EcdsaScheme.verificationPoint_zero (G := Curve.G .SECP_256_K1)
    (Curve.N_nsmul_G _) hr0
  have hsum : ((ofBE (toBE 32 (Curve.N .SECP_256_K1 + 1 - Curve.Gx .SECP_256_K1)) : Nat)
      : ZMod (Curve.N .SECP_256_K1)) + Curve.Gx .SECP_256_K1 = 1 := by
    rw [ofBE_toBE (by decide), ← Nat.cast_add, Nat.sub_add_cancel (by decide), Nat.cast_add,
      ZMod.natCast_self, zero_add, Nat.cast_one]
  have hs1 : ((Curve.N .SECP_256_K1 + 1 : Nat) : ZMod (Curve.N .SECP_256_K1)) = 1 := by
    rw [Nat.cast_add, ZMod.natCast_self, zero_add, Nat.cast_one]
  refine ⟨⟨?_, ?_⟩, ?_, ?_⟩
  · rw [verify_baseKey (hexSignature_toHex (by decide) (by decide) 27) hr hr, hzero, hpoint,
      comparedX, hhash, if_pos (dvd_zero _)]
    refine congrArg _ (decide_eq_false fun heq => ?_)
    have horigin := (eq_originX_iff (by decide)).1 heq
    rw [(Curve.base_val _).1] at horigin
    exact absurd horigin.2.2 (by decide)
  · rw [EcdsaScheme.Accepts, hzero, hpoint, Curve.xOf_G]
    exact ⟨by decide, by decide, by decide, by decide, _, rfl, by decide⟩
  · rw [verify_baseKey (hexSignature_toHex (by decide) (by decide) 27) hr (by decide),
      verificationPoint_G (by rw [hsum, hs1, inv_one, one_mul]), comparedX,
      if_neg (by decide), Curve.xOf_G]
    exact congrArg _ (decide_eq_true rfl)
  · intro hgiven
    obtain ⟨-, -, -, hlt, -⟩ := hgiven
    exact absurd hlt (by decide)

end Ecdsa

end DataProcessor
