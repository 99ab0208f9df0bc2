import DataProcessor.Proofs.ModularElements

/-!
# Montgomery multiplication

A turn of the outer loop adds a multiple of the prime that makes the low word
zero, and drops that word, so that `A` with the bit `hw` in front is divided
by the base exactly. The rule for such loops gives the product divided by
`R`, the number `2 ^ 256`, up to a multiple of the prime below `R` times it,
and that is what quasi-reduction takes.

`Holds` is the reading in which that is the product: the element stands for
`u * R`. Under it every operation of the field is one of these functions, and
so are powers and inverses, for any prime whose constants agree.
-/

namespace DataProcessor

open Lib SbFe

variable {W : SbWordSize} {p : SbPrimeField W}

theorem SbFe.value_mod_bits (a : SbFe W) : a.value % 2 ^ W.bits = (a.words.headD 0).toNat := by
  have hlen := a.length_words
  have hpos := W.feWords_pos
  cases hwords : a.words with
  | nil => simp [hwords] at hlen; omega
  | cons word words =>
      rw [SbFe.value, hwords, limbsValue_cons_mod]
      rfl

/-- Dropping a zero word and taking one in at the top. -/
theorem SbFe.shiftWord_value (a : SbFe W) (top : SbWord W) (hlow : a.value % 2 ^ W.bits = 0) :
    (a.shiftWord top).value * 2 ^ W.bits = a.value + 2 ^ 256 * top.toNat := by
  have hlen := a.length_words
  have hmod := a.value_mod_bits
  have hpos := W.feWords_pos
  cases hwords : a.words with
  | nil => simp [hwords] at hlen; omega
  | cons word words =>
      have hword : word.toNat = 0 := by
        rw [hwords, hlow] at hmod
        exact hmod.symm
      have hall : W.bits * words.length + W.bits = 256 := by
        rw [← Nat.mul_succ, Nat.succ_eq_add_one, ← List.length_cons (a := word), ← hwords, hlen,
          W.bits_mul_feWords]
      have hshift : (a.shiftWord top).words = words ++ [top] := by
        change a.words.tail ++ [top] = _
        rw [hwords, List.tail_cons]
      rw [SbFe.value, SbFe.value, hshift, hwords, limbsValue_append, limbsValue_cons,
        limbsValue_cons, limbsValue_nil, hword, ← hall, pow_add]
      ring

theorem multAddPass_value (A : SbFe W) (k : SbWord W) (y : SbFe W) :
    (multAddPass A k y).1.value + 2 ^ 256 * (multAddPass A k y).2.toNat =
      A.value + k.toNat * y.value := by
  have h := SbFe.pass_add
    (fun A_j y_j c => ((sbMultAddAdd k y_j A_j c).2, (sbMultAddAdd k y_j A_j c).1)) k.toNat
    (fun A_j y_j c => sbMultAddAdd_toNat k y_j A_j c) 0 A y
  rwa [toNat_zero_word, Nat.add_zero] at h

/-- What the loop of `sb_fe_mont_mult` holds. -/
def montHeld (state : SbFe W × SbWord W) : Nat := state.1.value + 2 ^ 256 * state.2.toNat

/-- `p_mp` is the negative inverse of the prime modulo the base. -/
def SbPrimeField.NegInverse (p : SbPrimeField W) : Prop :=
  (p.p.value * p.p_mp.toNat + 1) % 2 ^ W.bits = 0

/-- With `u_i` the low word is cleared. -/
theorem low_word_cleared (hmp : p.NegInverse) (n : Nat) (A : SbFe W) :
    (A.value + (A.words.headD 0 * p.p_mp).toNat * p.p.value + 2 ^ 256 * n) % 2 ^ W.bits = 0 := by
  have hdvd : 2 ^ W.bits ∣ 2 ^ 256 * n :=
    Dvd.dvd.mul_right (pow_dvd_pow 2 (by cases W <;> decide)) n
  rw [Nat.add_mod, Nat.mod_eq_zero_of_dvd hdvd, Nat.add_zero, Nat.mod_mod, BitVec.toNat_mul,
    Nat.add_mod, Nat.mod_mul_mod, ← Nat.add_mod, ← A.value_mod_bits]
  have hmul : A.value % 2 ^ W.bits * p.p_mp.toNat * p.p.value =
      A.value % 2 ^ W.bits * (p.p.value * p.p_mp.toNat) := by ring
  rw [hmul, Nat.add_mod, Nat.mod_mul_mod, ← Nat.add_mod]
  have hone : A.value + A.value * (p.p.value * p.p_mp.toNat) =
      A.value * (p.p.value * p.p_mp.toNat + 1) := by ring
  rw [hone, Nat.mul_mod, hmp, Nat.mul_zero, Nat.zero_mod]

theorem montTurn_held (hmp : p.NegInverse) (y : SbFe W) (state : SbFe W × SbWord W)
    (x_i : SbWord W) :
    ∃ u < 2 ^ W.bits, montHeld (montTurn y p state x_i) * 2 ^ W.bits =
      montHeld state + x_i.toNat * y.value + u * p.p.value := by
  obtain ⟨A, hw⟩ := state
  have h1 := multAddPass_value A x_i y
  obtain ⟨A1, c, hA1⟩ : ∃ A1 c, multAddPass A x_i y = (A1, c) := ⟨_, _, rfl⟩
  have h2 := multAddPass_value A1 (A1.words.headD 0 * p.p_mp) p.p
  obtain ⟨A2, c2, hA2⟩ : ∃ A2 c2, multAddPass A1 (A1.words.headD 0 * p.p_mp) p.p = (A2, c2) :=
    ⟨_, _, rfl⟩
  have h3 := sbAddCarry2_toNat hw c c2
  obtain ⟨hw', top, hsum⟩ : ∃ hw' top, sbAddCarry2 hw c c2 = (hw', top) := ⟨_, _, rfl⟩
  rw [hA1] at h1
  rw [hA2] at h2
  rw [hsum] at h3
  have hturn : montTurn y p (A, hw) x_i = (A2.shiftWord top, hw') := by
    simp only [montTurn, hA1, hA2, hsum]
  have hlow : A2.value % 2 ^ W.bits = 0 := by
    have hclear := low_word_cleared hmp 0 A1
    have hdvd : 2 ^ W.bits ∣ 2 ^ 256 * c2.toNat :=
      Dvd.dvd.mul_right (pow_dvd_pow 2 (by cases W <;> decide)) _
    rw [Nat.mul_zero, Nat.add_zero, ← h2, Nat.add_mod, Nat.mod_eq_zero_of_dvd hdvd, Nat.add_zero,
      Nat.mod_mod] at hclear
    exact hclear
  have h4 := A2.shiftWord_value top hlow
  refine ⟨(A1.words.headD 0 * p.p_mp).toNat, BitVec.isLt _, ?_⟩
  rw [hturn]
  generalize (A1.words.headD 0 * p.p_mp).toNat = u at h2 ⊢
  calc ((A2.shiftWord top).value + 2 ^ 256 * hw'.toNat) * 2 ^ W.bits
      = (A2.shiftWord top).value * 2 ^ W.bits + 2 ^ 256 * (2 ^ W.bits * hw'.toNat) := by ring
    _ = A2.value + 2 ^ 256 * (top.toNat + 2 ^ W.bits * hw'.toNat) := by rw [h4]; ring
    _ = (A2.value + 2 ^ 256 * c2.toNat) + 2 ^ 256 * hw.toNat + 2 ^ 256 * c.toNat := by
        rw [h3]
        ring
    _ = (A1.value + 2 ^ 256 * c.toNat) + 2 ^ 256 * hw.toNat + u * p.p.value := by rw [h2]; ring
    _ = A.value + 2 ^ 256 * hw.toNat + x_i.toNat * y.value + u * p.p.value := by rw [h1]; ring

/-- A factor may be any number whose product with the other is at most `R`
times the prime. -/
theorem sbFeMontMult_stands {m : Nat} (hm : p.p.value = m) (hmp : p.NegInverse) {x y : SbFe W}
    (hpos : 0 < x.value * y.value) (hle : x.value * y.value ≤ m * 2 ^ 256) :
    ∃ t : ZMod m, (sbFeMontMult x y p).Stands t ∧ t * 2 ^ 256 = x.value * y.value := by
  subst hm
  have hy := y.value_lt
  have hp := p.p.value_lt
  have hrun := @foldl_redc _ _ (montTurn y p) montHeld (fun _ => True) y.value p.p.value
    (fun state x_i _ _ => ⟨trivial, montTurn_held hmp y state x_i⟩) (SB_FE_ZERO W, 0) trivial
    (by simp [montHeld]) x.words
  obtain ⟨-, hbound, u, hu, heq⟩ := hrun
  obtain ⟨A, hw, hA⟩ : ∃ A hw, x.words.foldl (montTurn y p) (SB_FE_ZERO W, 0) = (A, hw) :=
    ⟨_, _, rfl⟩
  rw [x.length_words, W.bits_mul_feWords] at hu heq
  have hstart : montHeld (SB_FE_ZERO W, (0 : SbWord W)) = 0 := by
    simp [montHeld]
  rw [hA] at hbound heq
  rw [hstart, Nat.zero_add] at heq
  change _ = x.value * y.value + u * p.p.value at heq
  have hdef : montHeld (A, hw) = A.value + 2 ^ 256 * hw.toNat := rfl
  have hA256 := A.value_lt
  have hwle : hw = flag W (2 ^ 256 ≤ montHeld (A, hw)) := by
    apply eq_flag_of_toNat
    split <;> omega
  have hheld : (A.value + if 2 ^ 256 ≤ montHeld (A, hw) then 2 ^ 256 else 0) =
      montHeld (A, hw) := by
    split <;> omega
  have hup : u * p.p.value ≤ (2 ^ 256 - 1) * p.p.value := Nat.mul_le_mul_right _ (by omega)
  have hqr := sbFeQr_stands (p := p) rfl A (2 ^ 256 ≤ montHeld (A, hw))
    (by rw [hheld]; omega) (by rw [hheld]; omega)
  rw [hheld, ← hwle] at hqr
  refine ⟨montHeld (A, hw), ?_, ?_⟩
  · rw [sbFeMontMult, hA]
    exact hqr
  · have hcast := congrArg (Nat.cast : Nat → ZMod p.p.value) heq
    rwa [Nat.cast_mul, Nat.cast_add, Nat.cast_mul, Nat.cast_mul, ZMod.natCast_self, mul_zero,
      add_zero, Nat.cast_pow, Nat.cast_ofNat] at hcast

/-! ## The field -/

/-- The constants of the field agree with its prime, which is `m` and has 256
bits. -/
structure SbPrimeField.Consistent (p : SbPrimeField W) (m : Nat) : Prop where
  value : p.p.value = m
  prime : m.Prime
  wide : 2 ^ 256 ≤ 2 * m
  negInverse : p.NegInverse
  minus_two : p.p_minus_two_f1.value * p.p_minus_two_f2.value = m - 2
  r : p.r_mod_p.value = 2 ^ 256 % m
  r2 : p.r2_mod_p.value = 2 ^ 256 * 2 ^ 256 % m
  bits : p.bits = 256

/-- `u`, in the Montgomery domain. -/
def SbFe.Holds {m : Nat} (a : SbFe W) (u : ZMod m) : Prop :=
  a.Stands (u * ((2 : Nat) : ZMod m) ^ 256)

variable {m : Nat}

namespace SbPrimeField.Consistent

variable (hp : p.Consistent m)

include hp

theorem two_lt : 2 < m := by
  have := hp.wide
  omega

theorem odd : m % 2 = 1 :=
  (hp.prime.eq_two_or_odd).resolve_left (by have := hp.two_lt; omega)

theorem two_ne_zero : (2 : ZMod m) ≠ 0 := by
  intro h
  have hcast : ((2 : Nat) : ZMod m) = 0 := by
    rw [Nat.cast_ofNat]
    exact h
  have := Nat.le_of_dvd (by decide) ((ZMod.natCast_eq_zero_iff _ _).1 hcast)
  have := hp.two_lt
  omega

theorem R_ne_zero : (2 ^ 256 : ZMod m) ≠ 0 := by
  have hfact := Fact.mk hp.prime
  exact pow_ne_zero _ hp.two_ne_zero

end SbPrimeField.Consistent

namespace SbFe.Holds

variable {a b : SbFe W} {u v : ZMod m}

theorem unique (ha : a.Holds u) (hb : b.Holds u) : a = b := Stands.unique ha hb

theorem quasiReduced (ha : a.Holds u) : a.QuasiReduced m := Stands.quasiReduced ha

variable (hp : p.Consistent m)

include hp

theorem eq_iff (ha : a.Holds u) (hb : b.Holds v) : a = b ↔ u = v := by
  have hfact := Fact.mk hp.prime
  rw [Stands.eq_iff ha hb]
  exact ⟨mul_right_cancel₀ hp.R_ne_zero, fun h => by rw [h]⟩

theorem sbFeEqual_eq (ha : a.Holds u) (hb : b.Holds v) :
    sbFeEqual a b = flag W (u = v) := by
  rw [DataProcessor.sbFeEqual_eq]
  simp only [eq_iff hp ha hb]

/-- Whatever stands for something is something in the Montgomery domain. -/
theorem of_stands (ha : a.Stands u) : a.Holds (u * (2 ^ 256)⁻¹) := by
  have hfact := Fact.mk hp.prime
  rwa [Holds, Nat.cast_ofNat, mul_assoc, inv_mul_cancel₀ hp.R_ne_zero, mul_one]

theorem prime : p.p.Holds (0 : ZMod m) := by
  rw [Holds, zero_mul]
  exact prime_stands hp.value hp.prime.pos

theorem r_mod_p : p.r_mod_p.Holds (1 : ZMod m) := by
  have hpos := hp.prime.pos
  have hR : ((2 ^ 256 % m : Nat) : ZMod m) = 2 ^ 256 := by
    rw [ZMod.natCast_mod, Nat.cast_pow, Nat.cast_ofNat]
  have hne : 2 ^ 256 % m ≠ 0 := by
    intro h
    apply hp.R_ne_zero
    rw [← hR, h, Nat.cast_zero]
  refine ⟨?_, ?_, ?_⟩
  · rw [hp.r]
    omega
  · rw [hp.r]
    exact (Nat.mod_lt _ hpos).le
  · rw [hp.r, hR, one_mul, Nat.cast_ofNat]

theorem modAdd (ha : a.Holds u) (hb : b.Holds v) : (sbFeModAdd a b p).Holds (u + v) := by
  rw [Holds, add_mul]
  exact sbFeModAdd_stands hp.value ha hb

theorem modSub (ha : a.Holds u) (hb : b.Holds v) : (sbFeModSub a b p).Holds (u - v) := by
  rw [Holds, sub_mul]
  exact sbFeModSub_stands hp.value ha hb

theorem modDouble (ha : a.Holds u) : (sbFeModDouble a p).Holds (2 * u) := by
  rw [Holds, mul_assoc]
  exact sbFeModDouble_stands hp.value ha

theorem modNegate (ha : a.Holds u) : (sbFeModNegate a p).Holds (-u) := by
  rw [Holds, neg_mul]
  exact sbFeModNegate_stands hp.value ha

/-- A factor outside of the domain takes the product out of it. -/
theorem montMult_stands (ha : a.Holds u) (hb : b.Stands v) :
    (sbFeMontMult a b p).Stands (u * v) := by
  have hfact := Fact.mk hp.prime
  obtain ⟨t, ht, heq⟩ := sbFeMontMult_stands hp.value hp.negInverse (x := a) (y := b)
    (Nat.mul_pos ha.pos hb.pos) (Nat.mul_le_mul ha.le b.value_lt.le)
  have htu : t = u * v := by
    apply mul_right_cancel₀ hp.R_ne_zero
    rw [heq, ha.residue, hb.residue]
    ring
  rwa [← htu]

theorem montMult (ha : a.Holds u) (hb : b.Holds v) : (sbFeMontMult a b p).Holds (u * v) := by
  rw [Holds, mul_assoc]
  exact ha.montMult_stands hp hb

theorem montSquare (ha : a.Holds u) : (sbFeMontSquare a p).Holds (u ^ 2) := by
  rw [pow_two]
  exact ha.montMult hp ha

/-- Out of the Montgomery domain. -/
theorem montReduce (ha : a.Holds u) : (sbFeMontReduce a p).Stands u := by
  have h := ha.montMult_stands hp (SB_FE_ONE_stands hp.prime.pos)
  rwa [mul_one] at h

/-- Into it, from any number but zero. -/
theorem montConvert (ha : 0 < a.value) : (sbFeMontConvert a p).Holds (a.value : ZMod m) := by
  have hfact := Fact.mk hp.prime
  have hR : ((2 ^ 256 * 2 ^ 256 % m : Nat) : ZMod m) = 2 ^ 256 * 2 ^ 256 := by
    rw [ZMod.natCast_mod, Nat.cast_mul, Nat.cast_pow, Nat.cast_ofNat]
  have hr2 : p.r2_mod_p.value ≤ m := by
    rw [hp.r2]
    exact (Nat.mod_lt _ hp.prime.pos).le
  have hr2pos : 0 < p.r2_mod_p.value := by
    rw [hp.r2, Nat.pos_iff_ne_zero]
    intro h
    apply mul_ne_zero hp.R_ne_zero hp.R_ne_zero
    rw [← hR, h, Nat.cast_zero]
  obtain ⟨t, ht, heq⟩ := sbFeMontMult_stands hp.value hp.negInverse (x := a) (y := p.r2_mod_p)
    (Nat.mul_pos ha hr2pos)
    (by rw [Nat.mul_comm]; exact Nat.mul_le_mul hr2 a.value_lt.le)
  have htR : t = a.value * 2 ^ 256 := by
    apply mul_right_cancel₀ hp.R_ne_zero
    rw [heq, hp.r2, hR]
    ring
  rw [Holds, Nat.cast_ofNat, ← htR]
  exact ht

/-- From a number in range. -/
theorem montConvert_stands (ha : a.Stands u) : (sbFeMontConvert a p).Holds u := by
  have h := montConvert hp ha.pos
  rwa [ha.residue] at h

end SbFe.Holds

end DataProcessor
