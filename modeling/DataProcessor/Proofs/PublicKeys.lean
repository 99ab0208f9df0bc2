import DataProcessor.Proofs.EcdsaSign

/-!
# The public key of a private key (`Ecdsa.privateKeyToPublicKey`)

The point is the right one for every private key. Its two coordinates are
written as `BigInteger`s write themselves, with as few bytes as hold the
number and a sign bit: 33 bytes from `2 ^ 255` on, 31 or fewer below
`2 ^ 247`. `bigIntToBytes` is there to take the sign byte off again, and
compares the first byte with the wrong one. Neither number is aligned to the
right of its half, so a short first coordinate is multiplied by a power of
256, a long one loses its last byte to the second, and a long second one
does not fit.
-/

namespace DataProcessor

open Lib

namespace Ecdsa

/-! ## The bytes of a coordinate -/

/-- The bytes a `BigInteger` writes a number with. -/
def minWidth (n : Nat) : Nat := BigInteger.bitLength n / 8 + 1

theorem minWidth_le_iff {n k : Nat} : minWidth n ≤ k + 1 ↔ n < 2 ^ (8 * k + 7) := by
  rw [← BigInteger.bitLength_le, minWidth]
  omega

theorem lt_minWidth (n : Nat) : n < 256 ^ minWidth n := BigInteger.lt_toByteArray_width n

/-- A number that takes 32 bytes and has the sign bit left. -/
def Fills (n : Nat) : Prop := 2 ^ 247 ≤ n ∧ n < 2 ^ 255

theorem minWidth_eq_iff {n : Nat} : minWidth n = 32 ↔ Fills n := by
  have hlo := @minWidth_le_iff n 30
  have hhi := @minWidth_le_iff n 31
  unfold Fills
  omega

theorem minWidth_le {n : Nat} (h : n < 256 ^ 32) : minWidth n ≤ 33 := by
  have hbits : BigInteger.bitLength n ≤ 256 := BigInteger.bitLength_le.2 (by omega)
  rw [minWidth]
  omega

theorem head?_toBE_minWidth (n : Nat) : (toBE (minWidth n) n).head? ≠ some 0x80 := by
  intro h
  obtain ⟨bs, hbs⟩ := List.head?_eq_some_iff.1 h
  have hlt : (0x80 : UInt8).toNat < 128 :=
    BigInteger.head_toByteArray_lt ((BigInteger.toByteArray_natCast n).trans hbs)
  exact absurd hlt (by decide)

/-- No byte is taken off: the first one has its top bit free for the sign. -/
theorem bigIntToBytes_natCast (n : Nat) : bigIntToBytes n = toBE (minWidth n) n := by
  rw [bigIntToBytes, BigInteger.toByteArray_natCast]
  exact if_neg (head?_toBE_minWidth n)

/-- A number at the left of its 32 bytes is at the right of them when it is
zero or takes them all. -/
theorem leftAligned_iff {w n : Nat} (hw : w ≤ 32) (hn : n < 256 ^ w) :
    toBE w n ++ List.replicate (32 - w) 0 = toBE 32 n ↔ n = 0 ∨ w = 32 := by
  have hn' : n < 256 ^ 32 := Nat.lt_of_lt_of_le hn (Nat.pow_le_pow_right (by decide) hw)
  constructor
  · intro h
    have hvalue := congrArg ofBE h
    rw [ofBE_append, ofBE_replicate_zero, List.length_replicate, Nat.add_zero, ofBE_toBE hn,
      ofBE_toBE hn'] at hvalue
    by_cases hzero : n = 0
    · exact .inl hzero
    · have hone : 256 ^ (32 - w) = 1 :=
        Nat.eq_of_mul_eq_mul_left (Nat.pos_of_ne_zero hzero) (by omega)
      rcases Nat.pow_eq_one.1 hone with hbase | hexponent
      · omega
      · exact .inr (by omega)
  · intro h
    rcases h with rfl | rfl
    · have hzeros : ∀ k, toBE k 0 = List.replicate k 0 := by
        intro k
        simpa using @toBE_add_of_lt 0 0 k (by decide)
      rw [hzeros, hzeros, List.replicate_append_replicate, Nat.add_sub_cancel' hw]
    · simp

/-! ## The two halves -/

/-- The first half, and what the second number writes over. -/
theorem firstHalf_iff {x : Nat} (hx : x < 256 ^ 32) :
    (bigIntToBytes x ++ List.replicate (64 - minWidth x) 0).take 32 = toBE 32 x ↔
      x = 0 ∨ Fills x := by
  rw [bigIntToBytes_natCast]
  rcases Nat.lt_or_ge 32 (minWidth x) with hlong | hle
  · -- 33 bytes: the sign byte is kept and the last byte is not.
    have hwidth : minWidth x = 33 := by
      have := minWidth_le hx
      omega
    have hbig : 2 ^ 255 ≤ x := by
      have := @minWidth_le_iff x 31
      omega
    rw [hwidth, toBE_succ, List.append_assoc, List.take_left' (length_toBE 32 (x / 256))]
    refine iff_of_false (fun h => ?_) fun h => ?_
    · have hvalue := congrArg ofBE h
      rw [ofBE_toBE (by omega), ofBE_toBE hx] at hvalue
      omega
    · unfold Fills at h
      omega
  · have hsplit : (toBE (minWidth x) x ++ List.replicate (64 - minWidth x) (0 : UInt8)).take 32
        = toBE (minWidth x) x ++ List.replicate (32 - minWidth x) 0 := by
      rw [List.take_append, length_toBE, List.take_of_length_le (by rw [length_toBE]; exact hle),
        List.take_replicate]
      congr 2
      omega
    rw [hsplit, leftAligned_iff hle (lt_minWidth x), minWidth_eq_iff]

/-- What is written for a point with these coordinates. -/
def writeKey (x y : Nat) : Result Bytes := do
  let pubKeyBytes ← arraycopy (bigIntToBytes x) (List.replicate 64 0) 0
  arraycopy (bigIntToBytes y) pubKeyBytes 32

theorem length_bigIntToBytes (n : Nat) : (bigIntToBytes n).length = minWidth n := by
  rw [bigIntToBytes_natCast, length_toBE]

theorem writeKey_eq {x y : Nat} (hx : x < 256 ^ 32) :
    writeKey x y = arraycopy (bigIntToBytes y)
      (bigIntToBytes x ++ List.replicate (64 - minWidth x) 0) 32 := by
  have hwx := minWidth_le hx
  have hlx := length_bigIntToBytes x
  rw [writeKey, arraycopy, if_pos (by rw [hlx, List.length_replicate]; omega), hlx,
    List.take_zero, List.nil_append, List.drop_replicate, Nat.zero_add, ok_bind]

/-- A number of 33 bytes does not fit in the second half. -/
theorem writeKey_long {x y : Nat} (hx : x < 256 ^ 32) (hy : 2 ^ 255 ≤ y) :
    writeKey x y = .error .indexOutOfBounds := by
  have hwx := minWidth_le hx
  have hwy := @minWidth_le_iff y 31
  have hlen : ¬ 32 + (bigIntToBytes y).length ≤
      (bigIntToBytes x ++ List.replicate (64 - minWidth x) (0 : UInt8)).length := by
    rw [List.length_append, List.length_replicate, length_bigIntToBytes, length_bigIntToBytes]
    omega
  rw [writeKey_eq hx, arraycopy, if_neg hlen]

theorem writeKey_iff {x y : Nat} (hx : x < 256 ^ 32) (hy0 : y ≠ 0) :
    writeKey x y = .ok (toBE 32 x ++ toBE 32 y) ↔ (x = 0 ∨ Fills x) ∧ Fills y := by
  rcases Nat.lt_or_ge y (2 ^ 255) with hshort | hlong
  · have hwx := minWidth_le hx
    have hlx := length_bigIntToBytes x
    have hly := length_bigIntToBytes y
    have hwy : minWidth y ≤ 32 := minWidth_le_iff.2 hshort
    have hlen :
        (bigIntToBytes x ++ List.replicate (64 - minWidth x) (0 : UInt8)).length = 64 := by
      rw [List.length_append, hlx, List.length_replicate]
      omega
    have hpos : 1 ≤ minWidth y := Nat.le_add_left 1 _
    have hrest : (bigIntToBytes x ++ List.replicate (64 - minWidth x) (0 : UInt8)).drop
        (32 + minWidth y) = List.replicate (32 - minWidth y) 0 := by
      rw [List.drop_append, hlx, List.drop_of_length_le (by rw [hlx]; omega),
        List.nil_append, List.drop_replicate]
      congr 1
      omega
    have hright := leftAligned_iff hwy (lt_minWidth y)
    rw [minWidth_eq_iff, or_iff_right hy0, ← bigIntToBytes_natCast] at hright
    rw [writeKey_eq hx, arraycopy, hlen, hly, if_pos (by omega), hrest, Except.ok.injEq,
      List.append_assoc, ← firstHalf_iff hx, ← hright]
    constructor
    · intro h
      refine List.append_inj h ?_
      rw [List.length_take, hlen, length_toBE]
      rfl
    · intro h
      rw [h.1, h.2]
  · rw [writeKey_long hx hlong]
    refine iff_of_false nofun fun h => ?_
    have hfills := h.2
    unfold Fills at hfills
    omega

/-! ## The key of a private key -/

theorem privateKeyToPublicKey_eq (curve : Curve) {privKeyBytes : Bytes}
    (hpos : 1 ≤ ofBE privKeyBytes) (hlt : ofBE privKeyBytes < curve.N) :
    ∃ x y h, ofBE privKeyBytes • curve.G = .some x y h ∧ y.val ≠ 0 ∧
      privateKeyToPublicKey curve privKeyBytes = writeKey x.val y.val := by
  have hrep := represents_fastMultiply_of_lt curve.represents_G curve.addOrderOf_G hpos hlt
  obtain ⟨x, y, h, hpoint, hx, hy⟩ := affine_of_represents hrep
  have hdouble : (.some x y h : curve.Point) + .some x y h ≠ 0 := by
    refine Curve.add_self_ne_zero ?_ (WeierstrassCurve.Affine.Point.some_ne_zero h)
    rw [← hpoint, smul_comm, curve.N_nsmul_G, nsmul_zero]
  have hy0 : y.val ≠ 0 := mt (ZMod.val_eq_zero y).1 (Curve.snd_ne_zero hdouble)
  refine ⟨x, y, h, hpoint, hy0, ?_⟩
  rw [privateKeyToPublicKey, bytesToBigInt_eq, if_neg (by omega)]
  simp only [hx, hy]
  rfl

/-- `privateKeyToPublicKey` on a private key below `N`: its point is the key,
and it is written as it should be where both coordinates take 32 bytes with
the sign bit left, or the first is zero and the second does. -/
theorem privateKeyToPublicKey_iff (curve : Curve) {privKeyBytes : Bytes}
    (hpos : 1 ≤ ofBE privKeyBytes) (hlt : ofBE privKeyBytes < curve.N) :
    ∃ x y h, ofBE privKeyBytes • curve.G = .some x y h ∧
      (privateKeyToPublicKey curve privKeyBytes = .ok (toBE 32 x.val ++ toBE 32 y.val) ↔
        (x.val = 0 ∨ Fills x.val) ∧ Fills y.val) := by
  obtain ⟨x, y, h, hpoint, hy0, heq⟩ := privateKeyToPublicKey_eq curve hpos hlt
  refine ⟨x, y, h, hpoint, ?_⟩
  rw [heq, writeKey_iff (Nat.lt_trans x.val_lt curve.P_lt) hy0]

theorem privateKeyToPublicKey_one :
    privateKeyToPublicKey .SECP_256_K1 [1]
      = .ok (toBE 32 Curve.SECP_256_K1.Gx ++ toBE 32 Curve.SECP_256_K1.Gy) := by
  have hone : ofBE [1] = 1 := rfl
  obtain ⟨x, y, h, hpoint, hiff⟩ :=
    @privateKeyToPublicKey_iff .SECP_256_K1 [1] (by decide) (by decide)
  rw [hone, one_smul, Curve.G, WeierstrassCurve.Affine.Point.some.injEq] at hpoint
  obtain ⟨rfl, rfl⟩ := hpoint
  rw [(Curve.base_val _).1, (Curve.base_val _).2] at hiff
  exact hiff.2 ⟨.inr (by unfold Fills; decide), by unfold Fills; decide⟩

/-- The last private key is that of `-G`, whose second coordinate takes 33 bytes. -/
theorem privateKeyToPublicKey_last :
    privateKeyToPublicKey .SECP_256_K1 (toBE 32 (Curve.SECP_256_K1.N - 1))
      = .error .indexOutOfBounds := by
  have hval : ofBE (toBE 32 (Curve.SECP_256_K1.N - 1)) = Curve.SECP_256_K1.N - 1 :=
    ofBE_toBE (by decide)
  obtain ⟨x, y, h, hpoint, -, heq⟩ :=
    @privateKeyToPublicKey_eq .SECP_256_K1 (toBE 32 (Curve.SECP_256_K1.N - 1))
      (by rw [hval]; decide) (by rw [hval]; decide)
  have hneg : (Curve.SECP_256_K1.N - 1) • Curve.SECP_256_K1.G = -Curve.SECP_256_K1.G := by
    rw [eq_neg_iff_add_eq_zero, ← succ_nsmul, Nat.sub_add_cancel (Curve.N_pos _)]
    exact Curve.N_nsmul_G _
  obtain ⟨hon, hG⟩ := Curve.neg_G .SECP_256_K1
  rw [hval, hneg, hG, WeierstrassCurve.Affine.Point.some.injEq] at hpoint
  obtain ⟨-, rfl⟩ := hpoint
  rw [heq]
  refine writeKey_long (Nat.lt_trans x.val_lt (Curve.P_lt _)) ?_
  rw [Curve.val_neg_Gy]
  decide

end Ecdsa

end DataProcessor
