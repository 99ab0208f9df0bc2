import DataProcessor.Proofs.RawSign

/-!
# Which pairs `Ecdsa.sign` lets out

The textbook draws another nonce when `r` or `s` comes out as zero. `sign`
looks at neither number. A nonce that is a multiple of `N` has the neutral
element for its point and 0 for `r`; a hash can be chosen that makes `s`
zero; and `r` is a coordinate modulo `P`, which is above `N` for a few
nonces. All of these are returned like any other pair, `sign_range_iff`.
-/

namespace DataProcessor

open Lib

namespace Ecdsa

/-- Whatever `sign` returns is in the range of a signature. -/
def SignsInRange (toBytesPadded : Int → Nat → Result Bytes)
    (privateKey hash nonce : Bytes) : Prop :=
  ∀ signature, sign .SECP_256_K1 toBytesPadded privateKey hash nonce = .ok signature →
    ∃ r s : Nat, signature = toBE 32 r ++ toBE 32 s ∧
      1 ≤ r ∧ r ≤ Curve.N .SECP_256_K1 - 1 ∧
      1 ≤ s ∧ s ≤ (Curve.N .SECP_256_K1 - 1) / 2

variable {toBytesPadded : Int → Nat → Result Bytes}

/-- A nonce that is a multiple of `N` gives a zero `r`. -/
theorem sign_of_dvd (hpad : PadsBytes toBytesPadded) {nonce : Bytes} {k : Int}
    (hnonce : BigInteger.ofBytes nonce = .ok k) (hk : (Curve.N .SECP_256_K1 : Int) ∣ k)
    {privateKey hash signature : Bytes}
    (h : sign .SECP_256_K1 toBytesPadded privateKey hash nonce = .ok signature) :
    ∃ rest, signature = toBE 32 0 ++ rest := by
  have hY : ((Curve.Gy .SECP_256_K1 : Nat) : Int) ≠ 0 := by decide
  have hzero := @fastMultiply_of_dvd .SECP_256_K1
    ⟨Curve.Gx .SECP_256_K1, Curve.Gy .SECP_256_K1, 1⟩ hY k hk
  simp only [] at hzero
  have hpadded : toBytesPadded 0 32 = .ok (toBE 32 0) := hpad 0 32 (by decide)
  rw [sign, hnonce, ok_bind] at h
  simp only [hzero, mul_zero, Int.zero_emod, hpadded, ok_bind] at h
  obtain ⟨rest, -, h⟩ := bind_ok.1 h
  injection h with h
  exact ⟨rest, h.symm⟩

theorem rawS_eq_zero_iff {curve : Curve} {k : Int} (hk : ¬ (curve.N : Int) ∣ k)
    (e r d : Nat) : (rawS curve k e r d).val = 0 ↔ curve.N ∣ e + r * d := by
  have hne : (k : ZMod curve.N) ≠ 0 := by
    rwa [ne_eq, ZMod.intCast_zmod_eq_zero_iff_dvd]
  rw [ZMod.val_eq_zero, rawS, mul_eq_zero, or_iff_right (inv_ne_zero hne),
    ← ZMod.natCast_eq_zero_iff]
  push_cast
  rfl

/-- No point of secp256k1 has first coordinate 0. -/
theorem one_le_of_xOf {Q : Curve.Point .SECP_256_K1} {r : Nat} (h : Curve.xOf Q = some r) :
    1 ≤ r := by
  cases Q with
  | zero => cases h
  | some x y hon =>
      injection h with h
      have hx := Curve.SECP_256_K1_x_ne_zero ((shortCurve.equation_iff x y).1 hon.1)
      have hval : x.val ≠ 0 := mt (ZMod.val_eq_zero x).1 hx
      omega

theorem not_signsInRange_of_dvd (hpad : PadsBytes toBytesPadded) {nonce : Bytes} {k : Int}
    (hnonce : BigInteger.ofBytes nonce = .ok k) (hk : (Curve.N .SECP_256_K1 : Int) ∣ k)
    (privateKey hash : Bytes) : ¬ SignsInRange toBytesPadded privateKey hash nonce := by
  intro hrange
  have hne : nonce ≠ [] := fun hnil => by
    rw [hnil] at hnonce
    cases hnonce
  obtain ⟨signature, hsign⟩ : ∃ signature, sign .SECP_256_K1 toBytesPadded privateKey
      hash nonce = .ok signature := sign_total hpad hne privateKey hash
  obtain ⟨r, s, heq, hr, hr', -⟩ := hrange signature hsign
  obtain ⟨rest, hzero⟩ := sign_of_dvd hpad hnonce hk hsign
  have hN := Curve.N_lt .SECP_256_K1
  rw [heq] at hzero
  have hr0 := (toBE_append_inj (by omega) (by decide) hzero).1
  omega

/-- Any other nonce gives the first coordinate of its point, and the smaller
of the two numbers `s`. -/
theorem signsInRange_iff_of_not_dvd (hpad : PadsBytes toBytesPadded) {nonce : Bytes} {k : Int}
    (hnonce : BigInteger.ofBytes nonce = .ok k) (hk : ¬ (Curve.N .SECP_256_K1 : Int) ∣ k)
    (privateKey hash : Bytes) {r : Nat}
    (hr : Curve.xOf (k • Curve.G .SECP_256_K1) = some r) :
    SignsInRange toBytesPadded privateKey hash nonce ↔ r < Curve.N .SECP_256_K1 ∧
      ¬ Curve.N .SECP_256_K1 ∣ ofBE hash + r * ofBE privateKey := by
  obtain ⟨r', hr', hsigned⟩ := sign_eq hpad hnonce hk privateKey hash
  obtain rfl : r = r' := Option.some.inj (hr.symm.trans hr')
  have hrP : r < Curve.P .SECP_256_K1 := Curve.xOf_lt hr
  have hpos := one_le_of_xOf hr
  have hP := Curve.P_lt .SECP_256_K1
  have hN := Curve.N_lt .SECP_256_K1
  have hzero := rawS_eq_zero_iff hk (ofBE hash) r (ofBE privateKey)
  have ht := (rawS .SECP_256_K1 k (ofBE hash) r (ofBE privateKey)).val_lt
  have hodd : Curve.N .SECP_256_K1 % 2 = 1 := by decide
  simp only [] at hsigned
  generalize (rawS .SECP_256_K1 k (ofBE hash) r (ofBE privateKey)).val = t
    at hzero ht hsigned
  constructor
  · intro hrange
    obtain ⟨r', s, heq, -, hr', hs, hhalf⟩ := hrange _ hsigned
    obtain ⟨rfl, htail⟩ := toBE_append_inj (by omega) (by omega) heq
    have hs' := ofBE_toBE (w := 32) (n := s) (by omega)
    rw [← htail, ofBE_toBE (by omega)] at hs'
    refine ⟨by omega, fun hdvd => ?_⟩
    have ht0 := hzero.2 hdvd
    omega
  · intro hgiven signature hsign
    obtain ⟨hlt, hndvd⟩ := hgiven
    rw [hsigned] at hsign
    injection hsign with hsign
    have ht0 : t ≠ 0 := mt hzero.1 hndvd
    exact ⟨r, min t (Curve.N .SECP_256_K1 - t), hsign.symm, hpos, by omega, by omega,
      by omega⟩

/-- `sign` keeps to the range exactly where it raises, for the empty nonce,
or where the nonce is no multiple of `N`, the first coordinate of its point
is below `N`, and the hash does not cancel it times the key. -/
theorem sign_range_iff (hpad : PadsBytes toBytesPadded) (privateKey hash nonce : Bytes) :
    SignsInRange toBytesPadded privateKey hash nonce ↔
      nonce = [] ∨ ∃ k r, BigInteger.ofBytes nonce = .ok k ∧
        ¬ (Curve.N .SECP_256_K1 : Int) ∣ k ∧
        Curve.xOf (k • Curve.G .SECP_256_K1) = some r ∧ r < Curve.N .SECP_256_K1 ∧
        ¬ Curve.N .SECP_256_K1 ∣ ofBE hash + r * ofBE privateKey := by
  cases nonce with
  | nil =>
      refine iff_of_true (fun signature h => ?_) (.inl rfl)
      exact absurd h (sign_nil privateKey hash signature)
  | cons b rest =>
      obtain ⟨k, hnonce⟩ : ∃ k, BigInteger.ofBytes (b :: rest) = .ok k := ⟨_, rfl⟩
      simp only [reduceCtorEq, false_or]
      by_cases hk : (Curve.N .SECP_256_K1 : Int) ∣ k
      · refine iff_of_false (not_signsInRange_of_dvd hpad hnonce hk privateKey hash) ?_
        intro h
        obtain ⟨k', r, hk', hndvd, -⟩ := h
        rw [hnonce] at hk'
        injection hk' with hk'
        exact hndvd (hk' ▸ hk)
      · obtain ⟨r, hr, -⟩ := affine_multiple hk
        rw [signsInRange_iff_of_not_dvd hpad hnonce hk privateKey hash hr]
        constructor
        · exact fun h => ⟨k, r, hnonce, hk, hr, h⟩
        · intro h
          obtain ⟨k', r', hk', -, hr', hrange⟩ := h
          rw [hnonce] at hk'
          injection hk' with hk'
          rw [← hk', hr] at hr'
          injection hr' with hr'
          rwa [hr']

/-- The nonce, the key and the hash 1: the base point is the nonce's. -/
theorem sign_range_one :
    PadsBytes (fun value length => .ok (toBE length value.toNat)) ∧
      SignsInRange (fun value length => .ok (toBE length value.toNat)) [1] [1] [1] := by
  have hpad : PadsBytes (fun value length => .ok (toBE length value.toNat)) :=
    fun _ _ _ => rfl
  refine ⟨hpad, (sign_range_iff hpad [1] [1] [1]).2 (.inr
    ⟨1, Curve.Gx .SECP_256_K1, rfl, by decide, ?_, by decide, by decide⟩)⟩
  rw [one_zsmul, Curve.xOf_G]

/-- The nonce 0 gives a zero `r`. With the key and the nonce 1, the hash
`N - Gx` gives a zero `s`. -/
theorem sign_out_of_range :
    let toBytesPadded : Int → Nat → Result Bytes :=
      fun value length => .ok (toBE length value.toNat)
    (∃ rest, sign .SECP_256_K1 toBytesPadded [1] [1] [0] = .ok (toBE 32 0 ++ rest)) ∧
    ¬ SignsInRange toBytesPadded [1] [1] [0] ∧
    sign .SECP_256_K1 toBytesPadded [1]
        (toBE 32 (Curve.N .SECP_256_K1 - Curve.Gx .SECP_256_K1)) [1]
      = .ok (toBE 32 (Curve.Gx .SECP_256_K1) ++ toBE 32 0) ∧
    ¬ SignsInRange toBytesPadded [1]
        (toBE 32 (Curve.N .SECP_256_K1 - Curve.Gx .SECP_256_K1)) [1] := by
  have hpad : PadsBytes (fun value length => .ok (toBE length value.toNat)) :=
    fun _ _ _ => rfl
  have hG : Curve.xOf ((1 : Int) • Curve.G .SECP_256_K1) = some (Curve.Gx .SECP_256_K1) := by
    rw [one_zsmul, Curve.xOf_G]
  have hone : ¬ (Curve.N .SECP_256_K1 : Int) ∣ 1 := by decide
  have hcancel : Curve.N .SECP_256_K1
      ∣ ofBE (toBE 32 (Curve.N .SECP_256_K1 - Curve.Gx .SECP_256_K1))
        + Curve.Gx .SECP_256_K1 * ofBE [1] := by
    rw [ofBE_toBE (by decide)]
    decide
  refine ⟨?_, fun h => ?_, ?_, fun h => ?_⟩
  · obtain ⟨signature, hsign⟩ : ∃ signature, sign .SECP_256_K1
        (fun value length => .ok (toBE length value.toNat)) [1] [1] [0] = .ok signature :=
      sign_total hpad (by simp) [1] [1]
    obtain ⟨rest, rfl⟩ := sign_of_dvd hpad rfl (by decide) hsign
    exact ⟨rest, hsign⟩
  · exact not_signsInRange_of_dvd hpad rfl (by decide) [1] [1] h
  · obtain ⟨r, hr, hsigned⟩ := @sign_eq .SECP_256_K1 _ hpad [1] 1 rfl hone [1]
      (toBE 32 (Curve.N .SECP_256_K1 - Curve.Gx .SECP_256_K1))
    obtain rfl : Curve.Gx .SECP_256_K1 = r := Option.some.inj (hG.symm.trans hr)
    simp only [(rawS_eq_zero_iff hone _ _ _).2 hcancel, Nat.zero_min] at hsigned
    exact hsigned
  · exact ((signsInRange_iff_of_not_dvd hpad rfl hone [1] _ hG).1 h).2 hcancel

end Ecdsa

end DataProcessor
