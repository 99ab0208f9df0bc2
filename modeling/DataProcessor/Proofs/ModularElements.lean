import DataProcessor.Proofs.FieldElements

/-!
# Quasi-reduced elements

A modular operation takes numbers from one to the prime and gives such a
number back. `Stands` says that an element is one and which residue it is,
and every operation has one lemma, about the residues; that the result is in
range again is part of it. Nothing here needs the modulus to be prime.

An element is determined by its residue, since of two numbers in that range
with one residue neither is larger (`Stands.unique`), so that comparing
elements word by word compares residues.
-/

namespace DataProcessor

open Lib

variable {W : SbWordSize} {p : SbPrimeField W}

theorem flag_or (P Q : Prop) [Decidable P] [Decidable Q] :
    flag W P ||| flag W Q = flag W (P ∨ Q) := by
  by_cases hP : P
  · by_cases hQ : Q
    · simp [flag, hP, hQ]
    · simp [flag, hP, hQ]
  · by_cases hQ : Q
    · simp [flag, hP, hQ]
    · simp [flag, hP, hQ]

namespace SbFe

/-- From one to the modulus. -/
def QuasiReduced (m : Nat) (a : SbFe W) : Prop := 0 < a.value ∧ a.value ≤ m

/-- The element is quasi-reduced, and `u` is its residue. -/
structure Stands {m : Nat} (a : SbFe W) (u : ZMod m) : Prop where
  pos : 0 < a.value
  le : a.value ≤ m
  residue : (a.value : ZMod m) = u

variable {m : Nat} {a b : SbFe W} {u v : ZMod m}

theorem QuasiReduced.stands (h : a.QuasiReduced m) : a.Stands (a.value : ZMod m) :=
  ⟨h.1, h.2, rfl⟩

namespace Stands

theorem quasiReduced (ha : a.Stands u) : a.QuasiReduced m := ⟨ha.pos, ha.le⟩

theorem unique (ha : a.Stands u) (hb : b.Stands u) : a = b := by
  have heq := (ZMod.natCast_eq_natCast_iff' _ _ _).1 (ha.residue.trans hb.residue.symm)
  have hapos := ha.pos
  have hbpos := hb.pos
  apply value_injective
  rcases Nat.lt_or_eq_of_le ha.le with halt | halt
  · rcases Nat.lt_or_eq_of_le hb.le with hblt | hblt
    · rwa [Nat.mod_eq_of_lt halt, Nat.mod_eq_of_lt hblt] at heq
    · rw [Nat.mod_eq_of_lt halt, hblt, Nat.mod_self] at heq
      omega
  · rcases Nat.lt_or_eq_of_le hb.le with hblt | hblt
    · rw [halt, Nat.mod_self, Nat.mod_eq_of_lt hblt] at heq
      omega
    · omega

theorem eq_iff (ha : a.Stands u) (hb : b.Stands v) : a = b ↔ u = v := by
  constructor
  · intro h
    rw [← ha.residue, ← hb.residue, h]
  · intro h
    subst h
    exact ha.unique hb

theorem sbFeEqual_eq (ha : a.Stands u) (hb : b.Stands v) :
    sbFeEqual a b = flag W (u = v) := by
  rw [DataProcessor.sbFeEqual_eq]
  simp only [ha.eq_iff hb]

end Stands

end SbFe

open SbFe

section

variable {m : Nat} (hm : p.p.value = m)

include hm

/-- Zero stands as the prime. -/
theorem prime_stands (hpos : 0 < m) : p.p.Stands (0 : ZMod m) := by
  subst hm
  exact ⟨hpos, le_rfl, ZMod.natCast_self _⟩

/-! ## Quasi-reduction -/

/-- From `carry` in front of `dest`, at most twice the prime. A carry makes
the difference with the prime wrap back into range. -/
theorem sbFeQr_stands (dest : SbFe W) (P : Prop) [Decidable P]
    (hpos : 0 < dest.value + if P then 2 ^ 256 else 0)
    (hle : (dest.value + if P then 2 ^ 256 else 0) ≤ 2 * m) :
    (sbFeQr dest (flag W P) p).Stands
      ((dest.value + if P then 2 ^ 256 else 0 : Nat) : ZMod m) := by
  subst hm
  have hdest := dest.value_lt
  have hp := p.p.value_lt
  have hsub := sbFeSub_value dest p.p
  rw [sbFeQr, sbFeLt_eq, flag_or, sbFeCondSubP_flag]
  by_cases hgt : P ∨ p.p.value < dest.value
  · rw [if_pos hgt]
    have hvalue : (sbFeSub dest p.p).1.value + p.p.value =
        dest.value + if P then 2 ^ 256 else 0 := by
      rw [hsub]
      by_cases hP : P
      · rw [if_pos hP] at hle
        rw [if_pos hP, if_pos (by omega)]
      · rw [if_neg hP, if_neg (by have := hgt.resolve_left hP; omega)]
    refine ⟨?_, by omega, ?_⟩
    · by_cases hP : P
      · rw [if_pos hP] at hvalue
        omega
      · rw [if_neg hP] at hvalue
        have := hgt.resolve_left hP
        omega
    · rw [← hvalue, Nat.cast_add, ZMod.natCast_self, add_zero]
  · have hP : ¬ P := fun hP => hgt (.inl hP)
    rw [if_neg hgt, if_neg hP, Nat.add_zero]
    rw [if_neg hP] at hpos
    exact ⟨hpos, Nat.le_of_not_lt fun hlt => hgt (.inr hlt), rfl⟩

/-! ## The operations -/

section

variable {a b : SbFe W} {u v : ZMod m}

theorem sbFeModAdd_stands (ha : a.Stands u) (hb : b.Stands v) :
    (sbFeModAdd a b p).Stands (u + v) := by
  have hadd := sbFeAdd_value a b
  have hcarry := sbFeAdd_carry a b
  have hapos := ha.pos
  have hale := ha.le
  have hble := hb.le
  have hsum : ((sbFeAdd a b).1.value + if 2 ^ 256 ≤ a.value + b.value then 2 ^ 256 else 0) =
      a.value + b.value := by
    rw [hcarry, toNat_flag] at hadd
    split at hadd <;> split <;> omega
  have h := sbFeQr_stands hm (sbFeAdd a b).1 (2 ^ 256 ≤ a.value + b.value)
    (by omega) (by omega)
  rw [hsum, ← hcarry, Nat.cast_add, ha.residue, hb.residue] at h
  exact h

theorem sbFeModSub_stands (ha : a.Stands u) (hb : b.Stands v) :
    (sbFeModSub a b p).Stands (u - v) := by
  subst hm
  have hapos := ha.pos
  have hbpos := hb.pos
  have hale := ha.le
  have hble := hb.le
  have hp := p.p.value_lt
  obtain ⟨hborrow, hdiff⟩ := sbFeSubBorrow_spec (c := 1) (by rw [toNat_one_word]) a b
  rw [toNat_one_word] at hborrow hdiff
  have hvalue : (sbFeModSub a b p).value =
      if a.value < b.value + 1 then a.value + p.p.value - b.value else a.value - b.value := by
    have hdest : sbFeModSub a b p =
        sbFeCondAddP1 (sbFeSubBorrow a b 1).1 (sbFeSubBorrow a b 1).2 p.p := rfl
    rw [hdest, hborrow, sbFeCondAddP1_value]
    split at hdiff <;> split <;> omega
  have hcast : ((a.value + p.p.value - b.value : Nat) : ZMod p.p.value) = u - v := by
    rw [Nat.cast_sub (by omega), Nat.cast_add, ZMod.natCast_self, add_zero, ha.residue,
      hb.residue]
  split at hvalue
  · exact ⟨by omega, by omega, by rw [hvalue, hcast]⟩
  · refine ⟨by omega, by omega, ?_⟩
    rw [hvalue, Nat.cast_sub (by omega), ha.residue, hb.residue]

theorem sbFeModNegate_stands (ha : a.Stands u) : (sbFeModNegate a p).Stands (-u) := by
  have hpos := ha.pos
  have h := sbFeModSub_stands hm (prime_stands hm (Nat.lt_of_lt_of_le hpos ha.le)) ha
  rwa [zero_sub] at h

theorem sbFeModDouble_stands (ha : a.Stands u) : (sbFeModDouble a p).Stands (2 * u) := by
  rw [two_mul]
  exact sbFeModAdd_stands hm ha ha

omit hm in
@[simp] theorem SB_FE_ONE_value (W : SbWordSize) : (SB_FE_ONE W).value = 1 := by
  cases W <;> rfl

omit hm in
@[simp] theorem SB_FE_ZERO_value (W : SbWordSize) : (SB_FE_ZERO W).value = 0 := by
  cases W <;> rfl

omit hm in
theorem SB_FE_ONE_stands (hpos : 0 < m) : (SB_FE_ONE W).Stands (1 : ZMod m) :=
  ⟨by simp, by rwa [SB_FE_ONE_value], by simp⟩

/-- Any number at all, when the prime has the full width. -/
theorem sbFeModReduce_stands (hwide : 2 ^ 256 ≤ 2 * m) (a : SbFe W) :
    (sbFeModReduce a p).Stands (a.value : ZMod m) := by
  have hpos : 0 < m := by omega
  have hadd := sbFeAdd_value a (SB_FE_ONE W)
  have hcarry := sbFeAdd_carry a (SB_FE_ONE W)
  have ha := a.value_lt
  rw [SB_FE_ONE_value] at hadd hcarry
  have hsum : ((sbFeAdd a (SB_FE_ONE W)).1.value + if 2 ^ 256 ≤ a.value + 1 then 2 ^ 256 else 0) =
      a.value + 1 := by
    rw [hcarry, toNat_flag] at hadd
    split at hadd <;> split <;> omega
  have h := sbFeQr_stands hm (sbFeAdd a (SB_FE_ONE W)).1 (2 ^ 256 ≤ a.value + 1)
    (by omega) (by omega)
  rw [hsum, ← hcarry] at h
  have h' := sbFeModSub_stands hm h (SB_FE_ONE_stands hpos)
  rwa [Nat.cast_add, Nat.cast_one, add_sub_cancel_right] at h'

theorem sbFeModReduceFull_value (ha : a.QuasiReduced m) :
    (sbFeModReduceFull a p).value = a.value % m := by
  subst hm
  have hxor : flag W (a.value < p.p.value) ^^^ 1 = flag W (¬ a.value < p.p.value) := by
    by_cases h : a.value < p.p.value
    · rw [flag_of h, flag_of_not (not_not.2 h)]
      exact BitVec.xor_self
    · rw [flag_of_not h, flag_of h]
      exact BitVec.zero_xor
  have hsub := sbFeSub_value a p.p
  obtain ⟨hpos, hle⟩ := ha
  rw [sbFeModReduceFull, sbFeLt_eq, hxor, sbFeCondSubP_flag]
  split
  · next h =>
      have heq : a.value = p.p.value := by omega
      rw [if_neg h] at hsub
      rw [heq, Nat.mod_self]
      omega
  · next h => rw [Nat.mod_eq_of_lt (not_not.1 h)]

/-! ## Halves -/

omit hm in
/-- Most significant word first: what is shifted in goes in front, and the
low bits of the last word are lost. -/
theorem rshiftWords_value {n : Nat} (hn : n < W.bits) (words : List (SbWord W)) (high : Nat)
    (hhigh : high < 2 ^ n) (carry : SbWord W) (hcarry : carry.toNat = high * 2 ^ (W.bits - n)) :
    limbsValue (rshiftWords n carry words).reverse =
      (high * 2 ^ (W.bits * words.length) + limbsValue words.reverse) / 2 ^ n := by
  induction words generalizing high carry with
  | nil => simp [rshiftWords, Nat.div_eq_of_lt hhigh]
  | cons word words ih =>
      have hword := word.isLt
      have hbase : 2 ^ W.bits = 2 ^ n * 2 ^ (W.bits - n) := by
        rw [← pow_add, Nat.add_sub_cancel' hn.le]
      have hlow : word.toNat % 2 ^ n < 2 ^ n := Nat.mod_lt _ (Nat.two_pow_pos n)
      have hnext : (word <<< (W.bits - n)).toNat = word.toNat % 2 ^ n * 2 ^ (W.bits - n) := by
        rw [BitVec.toNat_shiftLeft, Nat.shiftLeft_eq, hbase, Nat.mul_mod_mul_right]
      have htop : ((word >>> n) ||| carry).toNat =
          word.toNat / 2 ^ n + high * 2 ^ (W.bits - n) := by
        have hshort : word.toNat / 2 ^ n < 2 ^ (W.bits - n) := by
          rw [Nat.div_lt_iff_lt_mul (Nat.two_pow_pos n), Nat.mul_comm, ← hbase]
          exact hword
        rw [BitVec.toNat_or, BitVec.toNat_ushiftRight, Nat.shiftRight_eq_div_pow, hcarry,
          Nat.or_comm, Nat.mul_comm, ← Nat.two_pow_add_eq_or_of_lt hshort, Nat.add_comm]
      have hdiv := Nat.div_add_mod word.toNat (2 ^ n)
      rw [rshiftWords, List.reverse_cons, limbsValue_append, ih _ hlow _ hnext,
        List.length_reverse, length_rshiftWords, limbsValue_cons, limbsValue_nil, htop,
        List.reverse_cons, limbsValue_append, List.length_reverse, limbsValue_cons,
        limbsValue_nil, List.length_cons, Nat.mul_succ, pow_add]
      have hsplit : high * (2 ^ (W.bits * words.length) * 2 ^ W.bits)
            + (limbsValue words.reverse
              + 2 ^ (W.bits * words.length) * (word.toNat + 2 ^ W.bits * 0)) =
          2 ^ n * (2 ^ (W.bits * words.length)
              * (word.toNat / 2 ^ n + high * 2 ^ (W.bits - n)))
            + (word.toNat % 2 ^ n * 2 ^ (W.bits * words.length) + limbsValue words.reverse) := by
        calc _ = 2 ^ (W.bits * words.length) * (high * 2 ^ W.bits + word.toNat)
              + limbsValue words.reverse := by ring
          _ = 2 ^ (W.bits * words.length) * (high * (2 ^ n * 2 ^ (W.bits - n))
                + (2 ^ n * (word.toNat / 2 ^ n) + word.toNat % 2 ^ n))
              + limbsValue words.reverse := by rw [hdiv, ← hbase]
          _ = _ := by ring
      rw [hsplit, Nat.mul_add_div (Nat.two_pow_pos n)]
      ring

omit hm in
theorem sbFeRshiftW_value (a : SbFe W) {n : Nat} (hn : n < W.bits) :
    (sbFeRshiftW a n).value = a.value / 2 ^ n := by
  have h := rshiftWords_value hn a.words.reverse 0 (Nat.two_pow_pos n) 0 (by simp)
  rwa [Nat.zero_mul, Nat.zero_add, List.reverse_reverse] at h

/-- An odd number is halved through its negative, which is even. -/
theorem sbFeModHalve_stands (hodd : m % 2 = 1) (ha : a.Stands u) :
    ∃ v, (sbFeModHalve a p).Stands v ∧ 2 * v = u := by
  subst hm
  have hbits := W.one_lt_bits
  have hapos := ha.pos
  have hale := ha.le
  have hlow : sbFeTestBit a 0 = flag W (a.value % 2 = 1) := by
    have htest : a.value.testBit (BitVec.toNat (0 : SbBitcount)) = decide (a.value % 2 = 1) := by
      rw [show BitVec.toNat (0 : SbBitcount) = 0 from rfl, Nat.testBit_zero]
    rw [sbFeTestBit_eq a (by decide), htest]
    simp only [decide_eq_true_eq]
  have hneg := sbFeSub_value p.p a
  have hback := sbFeSub_value p.p (sbFeRshiftW (sbFeSub p.p a).1 1)
  rw [sbFeRshiftW_value _ hbits, Nat.pow_one] at hback
  rw [if_neg (by omega)] at hneg
  rw [if_neg (by omega)] at hback
  have hvalue : (sbFeModHalve a p).value =
      if a.value % 2 = 1 then (p.p.value + a.value) / 2 else a.value / 2 := by
    rw [sbFeModHalve, hlow, sbFeCtswap_flag]
    split
    · change (sbFeSub p.p (sbFeRshiftW (sbFeSub p.p a).1 1)).1.value = _
      omega
    · change (sbFeRshiftW a 1).value = _
      rw [sbFeRshiftW_value _ hbits, Nat.pow_one]
  refine ⟨((sbFeModHalve a p).value : ZMod p.p.value), ⟨?_, ?_, rfl⟩, ?_⟩
  · rw [hvalue]
    split <;> omega
  · rw [hvalue]
    split <;> omega
  · have hdouble : 2 * (sbFeModHalve a p).value =
        if a.value % 2 = 1 then p.p.value + a.value else a.value := by
      rw [hvalue]
      split <;> omega
    have hcast := congrArg (Nat.cast : Nat → ZMod p.p.value) hdouble
    rw [Nat.cast_mul, Nat.cast_ofNat] at hcast
    rw [hcast]
    split
    · rw [Nat.cast_add, ZMod.natCast_self, zero_add, ha.residue]
    · exact ha.residue

end

end

end DataProcessor
