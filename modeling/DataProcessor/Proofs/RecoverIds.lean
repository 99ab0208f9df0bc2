import DataProcessor.Lib.EcdsaScheme
import DataProcessor.Model.Recoverable
import DataProcessor.Proofs.CurveGroups

/-!
# The recovery id (`RecoverableEcdsa.findRecoverId`)

A signature's `r` is the first coordinate of the nonce's point modulo `N`,
and the four ids are the two coordinates below `P` it may come from, with
the two parities of the second coordinate. Exactly one of them leads back to
the public key. The ids are tried in order, and a coordinate that is on no
point of the curve is meant to be passed over: but `decodePoint` raises
there, and nothing catches it. So the search fails when the point's
coordinate was `r + N` and `r` itself is on no point, and only then.

Bouncy Castle's part is assumed to do what it is for: its points stand for
points of the curve, and its operations for those of the group.
-/

namespace DataProcessor

open Lib

namespace Curve

variable {curve : Curve}

/-- The bit a compressed point keeps of its second coordinate. -/
def isOdd : curve.Point → Bool
  | .zero => false
  | .some _ y _ => y.val % 2 == 1

/-- The compressed encoding. -/
def encode (Q : curve.Point) : Bytes :=
  (xOf Q).elim [0] fun x => (if isOdd Q then 0x03 else 0x02) :: toBE 32 x

theorem encode_ne_nil (Q : curve.Point) : encode Q ≠ [] := by
  rw [encode]
  cases xOf Q <;> simp

theorem P_odd (curve : Curve) : curve.P % 2 = 1 := by
  cases curve <;> decide

/-- The two points with a first coordinate have second coordinates of
different parity. -/
theorem isOdd_neg {Q : curve.Point} (hQ : Q + Q ≠ 0) : isOdd (-Q) = !isOdd Q := by
  cases Q with
  | zero => exact absurd rfl hQ
  | some x y h =>
      obtain ⟨h', hneg⟩ := shortCurve.neg_some h
      have hy := snd_ne_zero hQ
      have hlt := y.val_lt
      have hpos : y.val ≠ 0 := mt (ZMod.val_eq_zero y).1 hy
      have hodd := curve.P_odd
      rw [hneg]
      show ((-y).val % 2 == 1) = !(y.val % 2 == 1)
      rw [ZMod.neg_val, if_neg hy]
      rcases Nat.mod_two_eq_zero_or_one y.val with h0 | h1
      · rw [show (curve.P - y.val) % 2 = 1 by omega, h0]
        rfl
      · rw [show (curve.P - y.val) % 2 = 0 by omega, h1]
        rfl

theorem eq_of_xOf_of_isOdd {Q R : curve.Point} (hx : xOf Q = xOf R)
    (hodd : isOdd Q = isOdd R) (hR : R + R ≠ 0) : Q = R := by
  rcases xOf_eq_iff.1 hx with heq | hneg
  · exact heq
  · rw [hneg, isOdd_neg hR] at hodd
    exact absurd hodd (by simp)

theorem ofBE_encode {Q : curve.Point} {x : Nat} (h : xOf Q = some x) :
    ofBE (encode Q) = (if isOdd Q then 3 else 2) * 256 ^ 32 + x := by
  have hlt : x < 256 ^ 32 := Nat.lt_trans (xOf_lt h) curve.P_lt
  rw [encode, h, Option.elim_some, ofBE_cons, length_toBE, ofBE_toBE hlt]
  split <;> rfl

/-- A key that is not its own negative is named by its encoding's number. -/
theorem ofBE_encode_inj {Q R : curve.Point} (h : ofBE (encode Q) = ofBE (encode R))
    (hR : R + R ≠ 0) : Q = R := by
  cases hxR : xOf R with
  | none =>
      cases R with
      | zero => exact absurd rfl hR
      | some x y h' => cases hxR
  | some x =>
      have hx := xOf_lt hxR
      have hP := curve.P_lt
      rw [ofBE_encode hxR] at h
      cases hxQ : xOf Q with
      | none =>
          rw [encode, hxQ, Option.elim_none, show ofBE [0] = 0 from rfl] at h
          split at h <;> omega
      | some x' =>
          have hx' := xOf_lt hxQ
          rw [ofBE_encode hxQ] at h
          refine eq_of_xOf_of_isOdd ?_ ?_ hR
          · rw [hxQ, hxR]
            split at h <;> split at h <;> congr 1 <;> omega
          · cases hQ' : isOdd Q <;> cases hR' : isOdd R <;> simp only [hQ', hR'] at h ⊢ <;>
              simp at h <;> omega

end Curve

/-! ## Bouncy Castle -/

/-- Bouncy Castle computes in the curve's group: `val` is what a point of its
stands for. A coordinate of two points is decoded to the one with the parity
asked for, and one of no point is refused. -/
structure BcCurve.Implements {Point : Type} (bc : BcCurve Point) (curve : Curve)
    (val : Point → curve.Point) : Prop where
  q_eq : bc.q = curve.P
  n_eq : bc.n = curve.N
  byteLength_eq : bc.byteLength = 32
  val_g : val bc.g = curve.G
  isInfinity_iff : ∀ R, bc.isInfinity R = true ↔ val R = 0
  val_multiply : ∀ R k, val (bc.multiply R k) = k • val R
  val_sumOfTwoMultiplies : ∀ R k S l,
    val (bc.sumOfTwoMultiplies R k S l) = k • val R + l • val S
  getEncoded_eq : ∀ R, bc.getEncoded R true = Curve.encode (val R)
  decodePoint_ok : ∀ (x : Nat) (odd : Bool), (∃ Q : curve.Point, Curve.xOf Q = some x) →
    ∃ R, bc.decodePoint ((if odd then 0x03 else 0x02) :: toBE 32 x) = .ok R ∧
      Curve.xOf (val R) = some x ∧ (val R + val R ≠ 0 → Curve.isOdd (val R) = odd)
  decodePoint_error : ∀ (x : Nat) (odd : Bool), x < curve.P →
    (∀ Q : curve.Point, Curve.xOf Q ≠ some x) →
      bc.decodePoint ((if odd then 0x03 else 0x02) :: toBE 32 x) = .error .illegalArgument

theorem integerToBytes_natCast {n len : Nat} (h : n < 256 ^ len) :
    integerToBytes n len = toBE len n := by
  have hw := BigInteger.lt_toByteArray_width n
  rw [integerToBytes, BigInteger.toByteArray_natCast, length_toBE]
  split
  · next hlt =>
      obtain ⟨k, hk⟩ := Nat.exists_eq_add_of_lt hlt
      rw [hk, show len + k + 1 = k + 1 + len by omega, toBE_add_of_lt (k + 1) h,
        Nat.add_sub_cancel, List.drop_left' (List.length_replicate)]
  · next hge =>
      obtain ⟨k, hk⟩ := Nat.exists_eq_add_of_le (Nat.le_of_not_lt hge)
      rw [hk, Nat.add_sub_cancel_left, Nat.add_comm _ k, toBE_add_of_lt k hw]

namespace RecoverableEcdsa

section

variable {Point : Type} {bc : BcCurve Point} {curve : Curve} {val : Point → curve.Point}

theorem decompressKey_eq (hbc : bc.Implements curve val) {x : Nat} (hx : x < curve.P)
    (odd : Bool) :
    decompressKey bc x odd
      = bc.decodePoint ((if odd then 0x03 else 0x02) :: toBE 32 x) := by
  have hlt : x < 256 ^ 32 := Nat.lt_trans hx curve.P_lt
  have hlt' : x < 256 ^ (1 + 32) := Nat.lt_trans hlt (by decide)
  rw [decompressKey, hbc.byteLength_eq, integerToBytes_natCast hlt', Nat.add_comm 1 32,
    toBE_succ_of_lt hlt]
  rfl

/-- An encoding begins with 0, 2 or 3, so that its number is not negative. -/
theorem ofBytes_encode (Q : curve.Point) :
    BigInteger.ofBytes (Curve.encode Q) = .ok (ofBE (Curve.encode Q) : Int) := by
  rw [Curve.encode]
  cases Curve.xOf Q with
  | none => rfl
  | some x =>
      rw [Option.elim_some, BigInteger.ofBytes]
      cases Curve.isOdd Q <;> rfl

theorem modInverse_eq {r : Nat} (hr : ¬ curve.N ∣ r) :
    ∃ i, BigInteger.modInverse r curve.N = .ok i ∧
      (i : ZMod curve.N) = (r : ZMod curve.N)⁻¹ := by
  have hgcd : Int.gcd r curve.N = 1 := by
    rw [Int.gcd_natCast_natCast, Nat.gcd_comm]
    exact (curve.prime_N.coprime_iff_not_dvd).2 hr
  have hpos : ¬ ((curve.N : Int) ≤ 0 ∨ Int.gcd r curve.N ≠ 1) := by
    rw [hgcd]
    have := curve.N_pos
    omega
  refine ⟨_, if_neg hpos, ?_⟩
  have hbezout := congrArg (Int.cast : Int → ZMod curve.N) (Int.gcd_eq_gcd_ab r curve.N)
  rw [hgcd] at hbezout
  push_cast at hbezout
  rw [ZMod.natCast_self, zero_mul, add_zero] at hbezout
  rw [ZMod.intCast_mod]
  exact eq_inv_of_mul_eq_one_right hbezout.symm

/-! ## One id -/

/-- The first coordinate an id stands for. -/
def candidate (curve : Curve) (r recId : Nat) : Nat := r + recId / 2 * curve.N

theorem candidate_cast (r recId : Nat) :
    (r : Int) + (recId : Int) / 2 * (curve.N : Int) = (candidate curve r recId : Int) := by
  rw [candidate]
  push_cast
  rfl

theorem recoverFromSignature_beyond (hbc : bc.Implements curve val) {r s recId : Nat}
    (hx : curve.P ≤ candidate curve r recId) (message : Bytes) :
    recoverFromSignature bc r s recId message = .ok none := by
  rw [recoverFromSignature, hbc.n_eq, hbc.q_eq]
  simp only [candidate_cast]
  rw [if_pos (by exact_mod_cast hx)]
  rfl

theorem recoverFromSignature_off (hbc : bc.Implements curve val) {r s recId : Nat}
    (hx : candidate curve r recId < curve.P)
    (hoff : ∀ Q : curve.Point, Curve.xOf Q ≠ some (candidate curve r recId))
    (message : Bytes) :
    recoverFromSignature bc r s recId message = .error .illegalArgument := by
  rw [recoverFromSignature, hbc.n_eq, hbc.q_eq]
  simp only [candidate_cast]
  rw [if_neg (by exact_mod_cast Nat.not_le.2 hx), decompressKey_eq hbc hx,
    hbc.decodePoint_error _ _ hx hoff]
  rfl

/-- On a coordinate of the curve: the point with the id's parity, and the
key that goes with it. -/
theorem recoverFromSignature_on (hbc : bc.Implements curve val) {r s recId : Nat}
    (hr : ¬ curve.N ∣ r)
    (hon : ∃ Q : curve.Point, Curve.xOf Q = some (candidate curve r recId))
    (message : Bytes) :
    ∃ R : curve.Point, Curve.xOf R = some (candidate curve r recId) ∧
      (R + R ≠ 0 → Curve.isOdd R = (recId % 2 == 1)) ∧
      recoverFromSignature bc r s recId message
        = .ok (if curve.N • R = 0 then
            some (ofBE (Curve.encode (EcdsaScheme.recoveredKey curve.G R
              (ofBE message : ZMod curve.N) r s)) : Int)
          else none) := by
  have hx : candidate curve r recId < curve.P := by
    obtain ⟨Q, hQ⟩ := hon
    exact Curve.xOf_lt hQ
  obtain ⟨R, hdecode, hxR, hodd⟩ := hbc.decodePoint_ok _ (recId % 2 == 1) hon
  obtain ⟨rInv, hinv, hcast⟩ := modInverse_eq hr
  refine ⟨val R, hxR, hodd, ?_⟩
  have hinfinity : bc.isInfinity (bc.multiply R curve.N) = decide (curve.N • val R = 0) := by
    rw [Bool.eq_iff_iff, hbc.isInfinity_iff, hbc.val_multiply, natCast_zsmul, decide_eq_true_eq]
  rw [recoverFromSignature, hbc.n_eq, hbc.q_eq]
  simp only [candidate_cast]
  rw [if_neg (by exact_mod_cast Nat.not_le.2 hx), decompressKey_eq hbc hx, hdecode]
  simp only [bind, Except.bind, pure, Except.pure, hinfinity]
  split
  · next hinf =>
      rw [if_neg (by simpa using hinf)]
  · next hinf =>
      have heInv : rInv * ((0 - (ofBE message : Int)) % curve.N) % curve.N
          = (((r : ZMod curve.N)⁻¹ * -(ofBE message : ZMod curve.N)).val : Int) := by
        rw [← ZMod.val_intCast]
        push_cast [ZMod.intCast_mod]
        rw [hcast, zero_sub]
      have hsrInv : rInv * (s : Int) % curve.N
          = (((r : ZMod curve.N)⁻¹ * (s : ZMod curve.N)).val : Int) := by
        rw [← ZMod.val_intCast]
        push_cast
        rw [hcast]
      rw [if_pos (by simpa using hinf), hinv]
      simp only [heInv, hsrInv, hbc.getEncoded_eq, hbc.val_sumOfTwoMultiplies, hbc.val_g,
        natCast_zsmul, ofBytes_encode]
      rfl

/-- An id that recovers a key has a coordinate of the curve. -/
theorem recoverFromSignature_some (hbc : bc.Implements curve val) {r s recId : Nat}
    (hr : ¬ curve.N ∣ r) {message : Bytes} {key : Int}
    (h : recoverFromSignature bc r s recId message = .ok (some key)) :
    ∃ R : curve.Point, Curve.xOf R = some (candidate curve r recId) ∧
      (R + R ≠ 0 → Curve.isOdd R = (recId % 2 == 1)) ∧ curve.N • R = 0 ∧
      key = (ofBE (Curve.encode (EcdsaScheme.recoveredKey curve.G R
        (ofBE message : ZMod curve.N) r s)) : Int) := by
  by_cases hx : candidate curve r recId < curve.P
  · by_cases hon : ∃ S : curve.Point, Curve.xOf S = some (candidate curve r recId)
    · obtain ⟨R, hxR, hodd, heq⟩ := recoverFromSignature_on hbc hr hon message
      rw [heq, Except.ok.injEq] at h
      split at h
      · next hkilled =>
          injection h with h
          exact ⟨R, hxR, hodd, hkilled, h.symm⟩
      · cases h
    · rw [recoverFromSignature_off hbc hx (fun S hS => hon ⟨S, hS⟩)] at h
      cases h
  · rw [recoverFromSignature_beyond hbc (Nat.le_of_not_lt hx)] at h
    cases h

/-! ## The right id -/

/-- A signature the textbook accepts, with the point it comes from. -/
structure Valid (curve : Curve) (Q R : curve.Point) (e r s x : Nat) : Prop where
  key_order : addOrderOf Q = curve.N
  r_not_dvd : ¬ curve.N ∣ r
  s_not_dvd : ¬ curve.N ∣ s
  point_eq : R = EcdsaScheme.verificationPoint curve.G Q (e : ZMod curve.N) r s
  xOf_eq : Curve.xOf R = some x
  x_mod : x % curve.N = r

/-- Which of the two coordinates, and which parity. -/
def rightId (curve : Curve) (R : curve.Point) (x : Nat) : Nat :=
  2 * (x / curve.N) + (Curve.isOdd R).toNat

variable {Q R : curve.Point} {r s x : Nat} {message : Bytes}

/-- Every signature the textbook accepts has such a point. -/
theorem exists_valid {e : Nat} (hQ : addOrderOf Q = curve.N)
    (h : EcdsaScheme.Accepts curve.N Curve.xOf curve.G Q e r s) :
    ∃ R x, Valid curve Q R e r s x := by
  obtain ⟨hr, hr', hs, hs', x, hx, hmod⟩ := h
  exact ⟨_, x, {
    key_order := hQ
    r_not_dvd := Nat.not_dvd_of_pos_of_lt hr hr'
    s_not_dvd := Nat.not_dvd_of_pos_of_lt hs hs'
    point_eq := rfl
    xOf_eq := hx
    x_mod := hmod }⟩

theorem rightId_le (hP : curve.P < 2 * curve.N) (hx : Curve.xOf R = some x) :
    rightId curve R x ≤ 3 := by
  have hlt := Curve.xOf_lt hx
  have hdiv : x / curve.N < 2 := Nat.div_lt_of_lt_mul (by omega)
  have hodd := Bool.toNat_le (Curve.isOdd R)
  rw [rightId]
  omega

theorem Valid.key_killed {e : Nat} (h : Valid curve Q R e r s x) : curve.N • Q = 0 :=
  Curve.N_nsmul_of_addOrderOf h.key_order

theorem Valid.key_double {e : Nat} (h : Valid curve Q R e r s x) : Q + Q ≠ 0 := by
  refine Curve.add_self_ne_zero h.key_killed ?_
  rintro rfl
  have horder := h.key_order
  have := curve.two_lt_N
  rw [addOrderOf_zero] at horder
  omega

theorem Valid.point_killed {e : Nat} (h : Valid curve Q R e r s x) : curve.N • R = 0 := by
  rw [h.point_eq, EcdsaScheme.verificationPoint, nsmul_add,
    EcdsaScheme.smul_killed curve.N_nsmul_G, EcdsaScheme.smul_killed h.key_killed, add_zero]

theorem Valid.point_double {e : Nat} (h : Valid curve Q R e r s x) : R + R ≠ 0 := by
  refine Curve.add_self_ne_zero h.point_killed ?_
  rintro rfl
  cases h.xOf_eq

/-- Recovery leads to the key from the signature's point and from no other. -/
theorem Valid.recoveredKey_iff {e : Nat} (h : Valid curve Q R e r s x) {R' : curve.Point}
    (hR' : curve.N • R' = 0) :
    EcdsaScheme.recoveredKey curve.G R' (e : ZMod curve.N) r s = Q ↔ R' = R := by
  have hr : (r : ZMod curve.N) ≠ 0 := Curve.natCast_ne_zero h.r_not_dvd
  have hs : (s : ZMod curve.N) ≠ 0 := Curve.natCast_ne_zero h.s_not_dvd
  rw [h.point_eq]
  exact (EcdsaScheme.eq_verificationPoint_iff curve.N_nsmul_G h.key_killed hR' hr hs).symm

theorem Valid.candidate_iff {e : Nat} (h : Valid curve Q R e r s x) (recId : Nat) :
    candidate curve r recId = x ↔ recId / 2 = x / curve.N := by
  have hdiv := Nat.mod_add_div x curve.N
  have hN := curve.N_pos
  rw [h.x_mod, Nat.mul_comm] at hdiv
  rw [candidate]
  constructor
  · intro heq
    exact Nat.eq_of_mul_eq_mul_right hN (by omega)
  · intro heq
    rw [heq]
    exact hdiv

/-- The point of the signature's coordinate that has its parity. -/
theorem Valid.eq_point {e : Nat} (h : Valid curve Q R e r s x) {R' : curve.Point}
    (hx : Curve.xOf R' = some x)
    (hodd : R' + R' ≠ 0 → Curve.isOdd R' = Curve.isOdd R) : R' = R := by
  have hsame : Curve.xOf R' = Curve.xOf R := by rw [hx, h.xOf_eq]
  have hkilled : curve.N • R' = 0 := by
    rcases Curve.xOf_eq_iff.1 hsame with hR | hR
    · rw [hR]
      exact h.point_killed
    · rw [hR, neg_nsmul, h.point_killed, neg_zero]
  have hdouble : R' + R' ≠ 0 := by
    refine Curve.add_self_ne_zero hkilled ?_
    rintro rfl
    cases hx
  exact Curve.eq_of_xOf_of_isOdd hsame (hodd hdouble) h.point_double

theorem Valid.recovers_iff (hbc : bc.Implements curve val)
    (h : Valid curve Q R (ofBE message) r s x) (recId : Nat) :
    recoverFromSignature bc r s recId message = .ok (some (ofBE (Curve.encode Q) : Int)) ↔
      recId = rightId curve R x := by
  have hid : recId = rightId curve R x ↔
      candidate curve r recId = x ∧ (recId % 2 == 1) = Curve.isOdd R := by
    rw [h.candidate_iff, rightId]
    cases Curve.isOdd R <;> simp <;> omega
  rw [hid]
  constructor
  · intro hrec
    obtain ⟨R', hxR', hodd, hkilled, hrecovered⟩ :=
      recoverFromSignature_some hbc h.r_not_dvd hrec
    have hkey := Curve.ofBE_encode_inj (by exact_mod_cast hrecovered.symm) h.key_double
    have hR := (h.recoveredKey_iff hkilled).1 hkey
    rw [hR, h.xOf_eq] at hxR'
    injection hxR' with hxR'
    rw [hR] at hodd
    exact ⟨hxR'.symm, (hodd h.point_double).symm⟩
  · intro hgiven
    obtain ⟨hx, hparity⟩ := hgiven
    have hon : ∃ S : curve.Point, Curve.xOf S = some (candidate curve r recId) :=
      ⟨R, by rw [h.xOf_eq, hx]⟩
    obtain ⟨R', hxR', hodd, heq⟩ :=
      recoverFromSignature_on (s := s) hbc h.r_not_dvd hon message
    rw [hx] at hxR'
    rw [hparity] at hodd
    have hR := h.eq_point hxR' hodd
    rw [hR, if_pos h.point_killed, (h.recoveredKey_iff h.point_killed).2 rfl] at heq
    exact heq

/-! ## The search -/

/-- The ids before the right one are passed over when none of them raises. -/
theorem searchRecoverId_append {PK : Int} {recId : Nat} {before after : List Nat}
    (hbefore : ∀ i ∈ before, ∃ k, recoverFromSignature bc r s i message = .ok k ∧ k ≠ some PK)
    (hright : recoverFromSignature bc r s recId message = .ok (some PK)) :
    searchRecoverId bc r s PK message (before ++ recId :: after) = .ok (some recId) := by
  induction before with
  | nil =>
      rw [List.nil_append, searchRecoverId, hright]
      simp [bind, Except.bind, pure, Except.pure]
  | cons i rest ih =>
      obtain ⟨k, hk, hne⟩ := hbefore i (by simp)
      rw [List.cons_append, searchRecoverId, hk]
      simp only [bind, Except.bind, hne, if_false]
      exact ih fun j hj => hbefore j (by simp [hj])

/-- `findRecoverId` answers an id that recovers the key, and no other id
does. -/
def FindsOnlyId (bc : BcCurve Point) (rBytes sBytes publicKey message : Bytes) : Prop :=
  ∃ recId : UInt8, findRecoverId bc rBytes sBytes publicKey message = .ok recId ∧
    recId.toNat ≤ 3 ∧
    recoverFromSignature bc (ofBE rBytes) (ofBE sBytes) recId.toNat message
      = .ok (some (ofBE publicKey : Int)) ∧
    ∀ other ≤ 3, other ≠ recId.toNat →
      recoverFromSignature bc (ofBE rBytes) (ofBE sBytes) other message
        ≠ .ok (some (ofBE publicKey : Int))

theorem findRecoverId_eq {rBytes sBytes publicKey : Bytes} (hr : rBytes ≠ []) (hs : sBytes ≠ [])
    (hkey : publicKey ≠ []) (message : Bytes) :
    findRecoverId bc rBytes sBytes publicKey message
      = (searchRecoverId bc (ofBE rBytes) (ofBE sBytes) (ofBE publicKey) message
          [0, 1, 2, 3] >>= fun found => match found with
            | some recId => .ok (UInt8.ofNat recId)
            | none => .error (.runtime
                "Could not construct a recoverable key. Are your credentials valid?")) := by
  rw [findRecoverId, ofString_toHex hr, ofString_toHex hs, ofString_toHex hkey]
  simp only [bind, Except.bind]
  cases searchRecoverId bc (ofBE rBytes) (ofBE sBytes) (ofBE publicKey) message [0, 1, 2, 3] with
  | error e => rfl
  | ok found => cases found <;> rfl

/-- The first id has the coordinate `r`, and decoding it raises. -/
theorem findRecoverId_off (hbc : bc.Implements curve val) {rBytes sBytes publicKey : Bytes}
    (hr : rBytes ≠ []) (hs : sBytes ≠ []) (hkey : publicKey ≠ [])
    (hlt : ofBE rBytes < curve.P)
    (hoff : ∀ S : curve.Point, Curve.xOf S ≠ some (ofBE rBytes)) (message : Bytes) :
    findRecoverId bc rBytes sBytes publicKey message = .error .illegalArgument := by
  have hzero : candidate curve (ofBE rBytes) 0 = ofBE rBytes := by
    rw [candidate, Nat.zero_div, Nat.zero_mul, Nat.add_zero]
  rw [← hzero] at hlt hoff
  have herror : recoverFromSignature bc (ofBE rBytes) (ofBE sBytes) 0 message
      = .error .illegalArgument := recoverFromSignature_off hbc hlt hoff message
  rw [findRecoverId_eq hr hs hkey, searchRecoverId, herror]
  rfl

/-- The right id is found when `r` is on the curve: the ids before it have
the coordinate `r` or its own. -/
theorem Valid.search_eq (hbc : bc.Implements curve val)
    (h : Valid curve Q R (ofBE message) r s x) (hle : rightId curve R x ≤ 3)
    (hon : ∃ S : curve.Point, Curve.xOf S = some r) :
    searchRecoverId bc r s (ofBE (Curve.encode Q)) message [0, 1, 2, 3]
      = .ok (some (rightId curve R x)) := by
  obtain ⟨after, hsplit⟩ : ∃ after,
      [0, 1, 2, 3] = List.range (rightId curve R x) ++ rightId curve R x :: after := by
    rcases (by omega : rightId curve R x = 0 ∨ rightId curve R x = 1 ∨
      rightId curve R x = 2 ∨ rightId curve R x = 3) with h | h | h | h <;>
      (rw [h]; exact ⟨_, rfl⟩)
  rw [hsplit]
  refine searchRecoverId_append (fun i hi => ?_) ((h.recovers_iff hbc _).2 rfl)
  rw [List.mem_range] at hi
  have hodd := Bool.toNat_le (Curve.isOdd R)
  have honi : ∃ S : curve.Point, Curve.xOf S = some (candidate curve r i) := by
    rw [rightId] at hi hle
    rcases (by omega : i / 2 = 0 ∨ i / 2 = x / curve.N) with h0 | hx
    · rw [candidate, h0, Nat.zero_mul, Nat.add_zero]
      exact hon
    · rw [(h.candidate_iff i).2 hx]
      exact ⟨R, h.xOf_eq⟩
  obtain ⟨R', -, -, heq⟩ := recoverFromSignature_on (s := s) hbc h.r_not_dvd honi message
  refine ⟨_, heq, fun hk => ?_⟩
  have hrec := (h.recovers_iff hbc i).1 (by rw [heq, hk])
  omega

/-- Where the search finds the one right id: `r` has to be on the curve, also
when the signature's point is not the one above it. -/
theorem findRecoverId_iff (hcurve : curve = .SECP_256_K1 ∨ curve = .SECP_256_R1)
    (hbc : bc.Implements curve val) (hQ : addOrderOf Q = curve.N)
    {rBytes sBytes : Bytes}
    (hvalid : EcdsaScheme.Accepts curve.N Curve.xOf curve.G Q (ofBE message)
      (ofBE rBytes) (ofBE sBytes)) :
    FindsOnlyId bc rBytes sBytes (Curve.encode Q) message ↔
      ∃ S : curve.Point, Curve.xOf S = some (ofBE rBytes) := by
  obtain ⟨R, x, h⟩ := exists_valid hQ hvalid
  obtain ⟨hr, hr', hs, -⟩ := hvalid
  have hrne : rBytes ≠ [] := by
    rintro rfl
    exact absurd hr (by decide)
  have hsne : sBytes ≠ [] := by
    rintro rfl
    exact absurd hs (by decide)
  have hkey := Curve.encode_ne_nil Q
  constructor
  · intro hgiven
    obtain ⟨recId, hfind, -⟩ := hgiven
    by_contra hoff
    have hlt : ofBE rBytes < curve.P := by
      rcases hcurve with rfl | rfl <;> exact Nat.lt_trans hr' (by decide)
    rw [findRecoverId_off hbc hrne hsne hkey hlt fun S hS => hoff ⟨S, hS⟩] at hfind
    cases hfind
  · intro hon
    have hP : curve.P < 2 * curve.N := by
      rcases hcurve with rfl | rfl <;> decide
    have hle := rightId_le hP h.xOf_eq
    have hnat : (UInt8.ofNat (rightId curve R x)).toNat = rightId curve R x := by
      rw [UInt8.toNat_ofNat']
      omega
    refine ⟨UInt8.ofNat (rightId curve R x), ?_, by rwa [hnat], ?_, fun other _ hne => ?_⟩
    · rw [findRecoverId_eq hrne hsne hkey, h.search_eq hbc hle hon]
      rfl
    · rw [hnat]
      exact (h.recovers_iff hbc _).2 rfl
    · rw [hnat] at hne
      exact mt (h.recovers_iff hbc other).1 hne

end

/-! ## The group itself -/

open Classical in
/-- The point with a first coordinate and a parity. -/
noncomputable def pointOf (curve : Curve) (x : Nat) (odd : Bool) : Result curve.Point :=
  if h : ∃ Q : curve.Point, Curve.xOf Q = some x ∧ (Q + Q ≠ 0 → Curve.isOdd Q = odd) then
    .ok h.choose
  else .error .illegalArgument

open Classical in
/-- Mathlib's group in Bouncy Castle's place. -/
noncomputable def groupCurve (curve : Curve) : BcCurve curve.Point where
  q := curve.P
  n := curve.N
  g := curve.G
  byteLength := 32
  createPoint x y :=
    if h : (y : curve.Coordinate) ^ 2 = x ^ 3 + curve.A * x + curve.B then
      .ok (.some x y (Curve.nonsingular_of_equation h))
    else .error .illegalArgument
  decodePoint bytes := pointOf curve (ofBE bytes.tail) (bytes.head? == some 0x03)
  multiply R k := k • R
  isInfinity R := decide (R = 0)
  sumOfTwoMultiplies R k S l := k • R + l • S
  getEncoded R _ := Curve.encode R

theorem groupCurve_decodePoint (curve : Curve) {x : Nat} (hx : x < curve.P) (odd : Bool) :
    (groupCurve curve).decodePoint ((if odd then 0x03 else 0x02) :: toBE 32 x)
      = pointOf curve x odd := by
  have hbytes : ofBE (toBE 32 x) = x := ofBE_toBE (Nat.lt_trans hx curve.P_lt)
  have hhead : (some (if odd then (0x03 : UInt8) else 0x02) == some 0x03) = odd := by
    cases odd <;> rfl
  show pointOf curve (ofBE (toBE 32 x)) _ = _
  rw [hbytes, List.head?_cons, hhead]

/-- With both parities to choose from, one point has the one asked for. -/
theorem exists_parity {curve : Curve} {Q : curve.Point} {x : Nat} (hQ : Curve.xOf Q = some x)
    (odd : Bool) :
    ∃ S : curve.Point, Curve.xOf S = some x ∧ (S + S ≠ 0 → Curve.isOdd S = odd) := by
  by_cases hodd : Curve.isOdd Q = odd
  · exact ⟨Q, hQ, fun _ => hodd⟩
  · refine ⟨-Q, by rw [Curve.xOf_neg, hQ], fun hS => ?_⟩
    have hdouble : Q + Q ≠ 0 := by
      intro h
      rw [← neg_add, h, neg_zero] at hS
      exact hS rfl
    rw [Curve.isOdd_neg hdouble]
    exact Bool.not_eq.2 hodd

theorem groupCurve_implements (curve : Curve) : (groupCurve curve).Implements curve id where
  q_eq := rfl
  n_eq := rfl
  byteLength_eq := rfl
  val_g := rfl
  isInfinity_iff R := by simp [groupCurve]
  val_multiply _ _ := rfl
  val_sumOfTwoMultiplies _ _ _ _ := rfl
  getEncoded_eq _ := rfl
  decodePoint_ok x odd := by
    intro hgiven
    obtain ⟨Q, hQ⟩ := hgiven
    have hex := exists_parity hQ odd
    refine ⟨hex.choose, ?_, hex.choose_spec⟩
    rw [groupCurve_decodePoint curve (Curve.xOf_lt hQ), pointOf, dif_pos hex]
  decodePoint_error x odd hx hoff := by
    rw [groupCurve_decodePoint curve hx, pointOf, dif_neg]
    intro hgiven
    obtain ⟨Q, hQ, -⟩ := hgiven
    exact hoff Q hQ

theorem groupCurve_createPoint (curve : Curve) {X Y : curve.Coordinate}
    (h : (shortCurve (curve.A : curve.Coordinate)
      (curve.B : curve.Coordinate)).Nonsingular X Y) :
    (groupCurve curve).createPoint X.val Y.val = .ok (.some X Y h) := by
  have hX : (((X.val : Nat) : Int) : curve.Coordinate) = X := by
    rw [Int.cast_natCast, ZMod.natCast_zmod_val]
  have hY : (((Y.val : Nat) : Int) : curve.Coordinate) = Y := by
    rw [Int.cast_natCast, ZMod.natCast_zmod_val]
  simp only [groupCurve, hX, hY]
  exact dif_pos ((shortCurve.equation_iff X Y).1 h.1)

/-! ## A key that is found, and one that is not -/

theorem findRecoverId_base :
    FindsOnlyId (groupCurve .SECP_256_K1)
        (toBE 32 (Curve.Gx .SECP_256_K1 % Curve.N .SECP_256_K1))
        (toBE 32 (Curve.Gx .SECP_256_K1 % Curve.N .SECP_256_K1))
        (Curve.encode (Curve.G .SECP_256_K1)) [] ↔
      ∃ S : Curve.Point .SECP_256_K1,
        Curve.xOf S = some (ofBE (toBE 32 (Curve.Gx .SECP_256_K1 % Curve.N .SECP_256_K1))) :=
  findRecoverId_iff (.inl rfl) (groupCurve_implements _) (Curve.addOrderOf_G _) (by
    rw [ofBE_toBE (by decide)]
    exact EcdsaScheme.accepts_zero (Curve.N_nsmul_G _) (Curve.xOf_G _) (by decide))

/-- The second coordinate of a point whose first is `7 + N`. -/
def missedY : Nat :=
  70972576165039604022187200758464049215399536657597524093230014747218990164774

theorem missed_equation : ((missedY : Nat) : Curve.Coordinate .SECP_256_K1) ^ 2
    = ((7 + Curve.N .SECP_256_K1 : Nat) : Curve.Coordinate .SECP_256_K1) ^ 3
      + Curve.A .SECP_256_K1 * ((7 + Curve.N .SECP_256_K1 : Nat) : Curve.Coordinate .SECP_256_K1)
      + Curve.B .SECP_256_K1 := by
  have h : missedY ^ 2 % Curve.P .SECP_256_K1
      = ((7 + Curve.N .SECP_256_K1) ^ 3
        + Curve.A .SECP_256_K1 * (7 + Curve.N .SECP_256_K1) + Curve.B .SECP_256_K1)
          % Curve.P .SECP_256_K1 := by
    decide
  exact_mod_cast (ZMod.natCast_eq_natCast_iff' _ _ _).2 h

def missedKey : Curve.Point .SECP_256_K1 :=
  .some _ _ (Curve.nonsingular_of_equation missed_equation)

theorem xOf_missedKey : Curve.xOf missedKey = some (7 + Curve.N .SECP_256_K1) :=
  congrArg some (ZMod.val_natCast_of_lt (by decide))

/-- `7 ^ 3 + 7` is not a square. -/
theorem xOf_ne_seven (S : Curve.Point .SECP_256_K1) : Curve.xOf S ≠ some 7 := by
  intro hS
  cases S with
  | zero => cases hS
  | some x y h =>
      injection hS with hx
      have hx7 : x = ((7 : Nat) : Curve.Coordinate .SECP_256_K1) := by
        rw [← hx, ZMod.natCast_zmod_val]
      have heq := (shortCurve.equation_iff x y).1 h.1
      rw [Curve.SECP_256_K1_equation, hx7] at heq
      exact @Curve.pow_ne .SECP_256_K1 2 (7 ^ 3 + 7) (by decide) (by decide)
        (by decide) (by decide +kernel) y (by exact_mod_cast heq)

/-- The signature's point is the key itself, above the coordinate 7 by `N`;
the first id's coordinate is 7, and the search ends in the exception. -/
theorem findRecoverId_raises :
    (groupCurve .SECP_256_K1).Implements .SECP_256_K1 id ∧
    addOrderOf missedKey = Curve.N .SECP_256_K1 ∧
    EcdsaScheme.Accepts (Curve.N .SECP_256_K1) Curve.xOf (Curve.G .SECP_256_K1) missedKey
      (ofBE []) (ofBE [7]) (ofBE [7]) ∧
    findRecoverId (groupCurve .SECP_256_K1) [7] [7] (Curve.encode missedKey) []
      = .error .illegalArgument ∧
    ¬ FindsOnlyId (groupCurve .SECP_256_K1) [7] [7] (Curve.encode missedKey) [] := by
  have hne : missedKey ≠ 0 := WeierstrassCurve.Affine.Point.some_ne_zero _
  have horder : addOrderOf missedKey = Curve.N .SECP_256_K1 :=
    Curve.addOrderOf_SECP_256_K1 hne
  have hkilled : Curve.N .SECP_256_K1 • missedKey = 0 := Curve.N_nsmul_of_addOrderOf horder
  have hmod : (7 + Curve.N .SECP_256_K1) % Curve.N .SECP_256_K1 = 7 := by decide
  have haccepts : EcdsaScheme.Accepts (Curve.N .SECP_256_K1) Curve.xOf
      (Curve.G .SECP_256_K1) missedKey (ofBE []) (ofBE [7]) (ofBE [7]) := by
    have h := EcdsaScheme.accepts_zero (G := Curve.G .SECP_256_K1) hkilled xOf_missedKey
      (by rw [hmod]; decide)
    rwa [hmod] at h
  have hraises : findRecoverId (groupCurve .SECP_256_K1) [7] [7] (Curve.encode missedKey) []
      = .error .illegalArgument :=
    findRecoverId_off (groupCurve_implements _) (by decide) (by decide)
      (Curve.encode_ne_nil missedKey) (by decide) xOf_ne_seven []
  refine ⟨groupCurve_implements _, horder, haccepts, hraises, ?_⟩
  intro hgiven
  obtain ⟨recId, hfind, -⟩ := hgiven
  rw [hraises] at hfind
  cases hfind

end RecoverableEcdsa

end DataProcessor
