import Mathlib

/-!
# Numbers in limbs

A number kept as a list of words of `w` bits, the least significant first.
The loops over such numbers go from limb to limb and hand a carry or a
borrow on, and `carryPass` is that loop for any body. What a body does to
one limb determines what the pass does to the number: `carryPass_add` is the
rule for the bodies that add, whatever they add a multiple of, and
`carryPass_sub` the one for those that subtract.

The steps themselves are done in words of twice the width, where a sum of
three words and a product of two with two more are exact, and where a
difference below zero leaves all ones in the high half.

The last section is the interleaved multiplication of Montgomery: every turn
adds a multiple of one number for the next limb of the other, and a multiple
of the modulus that clears the low limb, and drops that limb. `foldl_redc`
says what is left at the end, for any loop whose turns do that.
-/

namespace DataProcessor.Lib

variable {w : Nat}

/-- The number the limbs stand for. -/
def limbsValue : List (BitVec w) → Nat
  | [] => 0
  | a :: as => a.toNat + 2 ^ w * limbsValue as

@[simp] theorem limbsValue_nil : limbsValue ([] : List (BitVec w)) = 0 := rfl

@[simp] theorem limbsValue_cons (a : BitVec w) (as : List (BitVec w)) :
    limbsValue (a :: as) = a.toNat + 2 ^ w * limbsValue as := rfl

theorem limbsValue_lt (as : List (BitVec w)) : limbsValue as < 2 ^ (w * as.length) := by
  induction as with
  | nil => simp
  | cons a as ih =>
      have hw : 2 ^ (w * (as.length + 1)) = 2 ^ w * 2 ^ (w * as.length) := by
        rw [Nat.mul_succ, pow_add, Nat.mul_comm]
      have hle : 2 ^ w * (limbsValue as + 1) ≤ 2 ^ w * 2 ^ (w * as.length) :=
        Nat.mul_le_mul_left _ ih
      have := a.isLt
      rw [limbsValue_cons, List.length_cons, hw]
      rw [Nat.mul_add] at hle
      omega

theorem limbsValue_append (as bs : List (BitVec w)) :
    limbsValue (as ++ bs) = limbsValue as + 2 ^ (w * as.length) * limbsValue bs := by
  induction as with
  | nil => simp
  | cons a as ih =>
      rw [List.cons_append, limbsValue_cons, ih, limbsValue_cons, List.length_cons,
        Nat.mul_succ, pow_add]
      ring

/-- The low limb is the rest on division by the base. -/
theorem limbsValue_cons_mod (a : BitVec w) (as : List (BitVec w)) :
    limbsValue (a :: as) % 2 ^ w = a.toNat := by
  rw [limbsValue_cons, Nat.add_mul_mod_self_left, Nat.mod_eq_of_lt a.isLt]

theorem limbsValue_injective {as bs : List (BitVec w)} (hlen : as.length = bs.length)
    (h : limbsValue as = limbsValue bs) : as = bs := by
  induction as generalizing bs with
  | nil => simpa using hlen.symm
  | cons a as ih =>
      cases bs with
      | nil => simp at hlen
      | cons b bs =>
          have hab : a = b := by
            apply BitVec.eq_of_toNat_eq
            rw [← limbsValue_cons_mod a as, ← limbsValue_cons_mod b bs, h]
          subst hab
          have hrest : limbsValue as = limbsValue bs := by
            have hpos : 0 < 2 ^ w := Nat.two_pow_pos w
            simpa [hpos.ne'] using h
          rw [ih (by simpa using hlen) hrest]

/-- A number cut into its limbs. -/
theorem limbsValue_pieces {v : Nat} (d : BitVec v) (k : Nat) :
    limbsValue ((List.range k).map fun i => (d >>> (w * i)).setWidth w) =
      d.toNat % 2 ^ (w * k) := by
  induction k with
  | zero => simp [Nat.mod_one]
  | succ k ih =>
      rw [List.range_succ, List.map_append, limbsValue_append, ih, List.map_singleton,
        limbsValue_cons, limbsValue_nil, List.length_map, List.length_range,
        BitVec.toNat_setWidth, BitVec.toNat_ushiftRight, Nat.shiftRight_eq_div_pow,
        Nat.mul_zero, Nat.add_zero, Nat.mul_succ, pow_add, Nat.mod_mul]

/-! ## Bits -/

theorem testBit_limbsValue (as : List (BitVec w)) {i j : Nat} (hi : i < as.length)
    (hj : j < w) : (limbsValue as).testBit (w * i + j) = as[i].getLsbD j := by
  induction as generalizing i with
  | nil => simp at hi
  | cons a as ih =>
      rw [limbsValue_cons, Nat.add_comm, Nat.testBit_two_pow_mul_add _ a.isLt]
      cases i with
      | zero =>
          rw [if_pos (by omega)]
          simp [BitVec.getLsbD]
      | succ i =>
          have hge : ¬ w * (i + 1) + j < w := by
            rw [Nat.mul_succ]
            omega
          have hsub : w * (i + 1) + j - w = w * i + j := by
            rw [Nat.mul_succ]
            omega
          rw [if_neg hge, hsub]
          exact ih (by simpa using hi)

/-! ## Double words -/

theorem two_pow_double (w : Nat) : 2 ^ (2 * w) = 2 ^ w * 2 ^ w := by
  rw [Nat.two_mul, pow_add]

theorem toNat_double (a : BitVec w) : (a.setWidth (2 * w)).toNat = a.toNat := by
  have := a.isLt
  have := Nat.pow_le_pow_right Nat.two_pos (show w ≤ 2 * w by omega)
  rw [BitVec.toNat_setWidth, Nat.mod_eq_of_lt (by omega)]

/-- A double word in its two halves. -/
theorem double_halves (d : BitVec (2 * w)) :
    (d.setWidth w).toNat + 2 ^ w * ((d >>> w).setWidth w).toNat = d.toNat := by
  have hd := d.isLt
  rw [two_pow_double] at hd
  have hhigh : d.toNat / 2 ^ w < 2 ^ w := Nat.div_lt_of_lt_mul hd
  rw [BitVec.toNat_setWidth, BitVec.toNat_setWidth, BitVec.toNat_ushiftRight,
    Nat.shiftRight_eq_div_pow, Nat.mod_eq_of_lt hhigh, Nat.mod_add_div]

theorem four_le_two_pow (hw : 1 < w) : 4 ≤ 2 ^ w :=
  Nat.pow_le_pow_right Nat.two_pos hw

theorem toNat_double_add (hw : 1 < w) (a b c : BitVec w) :
    (a.setWidth (2 * w) + b.setWidth (2 * w) + c.setWidth (2 * w)).toNat =
      a.toNat + b.toNat + c.toNat := by
  have ha := a.isLt
  have hb := b.isLt
  have hc := c.isLt
  have hfit : 4 * 2 ^ w ≤ 2 ^ (2 * w) := by
    rw [two_pow_double]
    exact Nat.mul_le_mul_right _ (four_le_two_pow hw)
  rw [BitVec.toNat_add, BitVec.toNat_add, toNat_double, toNat_double, toNat_double,
    Nat.mod_add_mod, Nat.mod_eq_of_lt (by omega)]

theorem toNat_double_mul_add (a b c d : BitVec w) :
    (a.setWidth (2 * w) * b.setWidth (2 * w) + c.setWidth (2 * w) + d.setWidth (2 * w)).toNat =
      a.toNat * b.toNat + c.toNat + d.toNat := by
  have hc := c.isLt
  have hd := d.isLt
  have hfit : a.toNat * b.toNat + c.toNat + d.toNat < 2 ^ (2 * w) := by
    have ha := a.isLt
    have hb := b.isLt
    have hprod : a.toNat * b.toNat ≤ (2 ^ w - 1) * (2 ^ w - 1) :=
      Nat.mul_le_mul (by omega) (by omega)
    obtain ⟨m, hm⟩ := Nat.exists_eq_add_one_of_ne_zero (Nat.two_pow_pos w).ne'
    have hsquare : 2 ^ w * 2 ^ w = m * m + m + m + 1 := by
      rw [hm]
      ring
    have hm' : 2 ^ w - 1 = m := by omega
    rw [two_pow_double, hsquare]
    rw [hm'] at hprod
    omega
  rw [BitVec.toNat_add, BitVec.toNat_add, BitVec.toNat_mul, toNat_double, toNat_double,
    toNat_double, toNat_double, Nat.mod_eq_of_lt (show a.toNat * b.toNat < _ by omega),
    Nat.mod_eq_of_lt (show a.toNat * b.toNat + c.toNat < _ by omega), Nat.mod_eq_of_lt hfit]

theorem toNat_double_sub (hw : 1 < w) (a b c : BitVec w) :
    (a.setWidth (2 * w) - (b.setWidth (2 * w) + c.setWidth (2 * w))).toNat =
      (2 ^ w * 2 ^ w - (b.toNat + c.toNat) + a.toNat) % (2 ^ w * 2 ^ w) := by
  have hb := b.isLt
  have hc := c.isLt
  have hfit : 4 * 2 ^ w ≤ 2 ^ w * 2 ^ w := Nat.mul_le_mul_right _ (four_le_two_pow hw)
  rw [BitVec.toNat_sub, BitVec.toNat_add, toNat_double, toNat_double, toNat_double,
    two_pow_double, Nat.mod_eq_of_lt (show b.toNat + c.toNat < _ by omega)]

/-- The halves of a difference that is taken modulo the square of the base. -/
theorem halves_sub {base a s low high : Nat} (hbase : 1 < base) (ha : a < base)
    (hs : s ≤ base) (hlow : low < base)
    (h : low + base * high = (base * base - s + a) % (base * base)) :
    s ≤ a ∧ high = 0 ∧ low + s = a ∨ a < s ∧ high = base - 1 ∧ low + s = a + base := by
  have hsquare : base + base ≤ base * base := by
    rw [← Nat.two_mul]
    exact Nat.mul_le_mul_right _ hbase
  by_cases hle : s ≤ a
  · have hmod : (base * base - s + a) % (base * base) = a - s := by
      rw [show base * base - s + a = a - s + base * base by omega, Nat.add_mod_right,
        Nat.mod_eq_of_lt (by omega)]
    have hhigh : high = 0 := by
      by_contra hne
      have : base * 1 ≤ base * high := Nat.mul_le_mul_left _ (Nat.pos_of_ne_zero hne)
      omega
    subst hhigh
    omega
  · have hmod : (base * base - s + a) % (base * base) = base * base - s + a :=
      Nat.mod_eq_of_lt (by omega)
    rw [hmod] at h
    have hlt : high < base := Nat.lt_of_mul_lt_mul_left (a := base) (by omega)
    have hge : base < high + 2 := by
      apply Nat.lt_of_mul_lt_mul_left (a := base)
      rw [Nat.mul_add]
      omega
    have hhigh : high = base - 1 := by omega
    have hmul : base * (base - 1) = base * base - base := by
      rw [Nat.mul_sub, Nat.mul_one]
    subst hhigh
    omega

/-- A difference of words and its borrow, read off the double word. -/
theorem double_sub (hw : 1 < w) (a b c : BitVec w) (hc : c.toNat ≤ 1) :
    (-((a.setWidth (2 * w) - (b.setWidth (2 * w) + c.setWidth (2 * w))) >>> w).setWidth
        w).toNat ≤ 1 ∧
      ((a.setWidth (2 * w) - (b.setWidth (2 * w) + c.setWidth (2 * w))).setWidth w).toNat
          + b.toNat + c.toNat =
        a.toNat + 2 ^ w * (-((a.setWidth (2 * w)
          - (b.setWidth (2 * w) + c.setWidth (2 * w))) >>> w).setWidth w).toNat := by
  have hbase := four_le_two_pow hw
  have hb := b.isLt
  have hhalves := double_halves (a.setWidth (2 * w) - (b.setWidth (2 * w) + c.setWidth (2 * w)))
  rw [toNat_double_sub hw] at hhalves
  rw [BitVec.toNat_neg]
  rcases halves_sub (by omega) a.isLt (by omega) (BitVec.isLt _) hhalves with
    ⟨-, hhigh, hlow⟩ | ⟨-, hhigh, hlow⟩
  · rw [hhigh, Nat.sub_zero, Nat.mod_self]
    omega
  · rw [hhigh, show 2 ^ w - (2 ^ w - 1) = 1 by omega, Nat.mod_eq_of_lt (by omega)]
    omega

/-! ## Passes -/

/-- The loop over the limbs of two numbers, from the low one up, that hands a
carry on. -/
def carryPass (step : BitVec w → BitVec w → BitVec w → BitVec w × BitVec w) :
    BitVec w → List (BitVec w) → List (BitVec w) → List (BitVec w) × BitVec w
  | c, a :: as, b :: bs =>
      let (d, c') := step a b c
      let (ds, c'') := carryPass step c' as bs
      (d :: ds, c'')
  | c, _, _ => ([], c)

variable {step : BitVec w → BitVec w → BitVec w → BitVec w × BitVec w}
  {as bs : List (BitVec w)}

theorem carryPass_cons (c a b : BitVec w) (as bs : List (BitVec w)) :
    carryPass step c (a :: as) (b :: bs) =
      ((step a b c).1 :: (carryPass step (step a b c).2 as bs).1,
        (carryPass step (step a b c).2 as bs).2) := rfl

theorem length_carryPass (c : BitVec w) (hlen : as.length = bs.length) :
    (carryPass step c as bs).1.length = as.length := by
  induction as generalizing bs c with
  | nil => rfl
  | cons a as ih =>
      cases bs with
      | nil => simp at hlen
      | cons b bs =>
          rw [carryPass_cons, List.length_cons, ih _ (by simpa using hlen), List.length_cons]

/-- A body that adds `k` times its second limb adds `k` times the second
number. -/
theorem carryPass_add {k : Nat}
    (hstep : ∀ a b c, (step a b c).1.toNat + 2 ^ w * (step a b c).2.toNat =
      a.toNat + k * b.toNat + c.toNat)
    (c : BitVec w) (hlen : as.length = bs.length) :
    limbsValue (carryPass step c as bs).1 +
        2 ^ (w * as.length) * (carryPass step c as bs).2.toNat =
      limbsValue as + k * limbsValue bs + c.toNat := by
  induction as generalizing bs c with
  | nil =>
      have hbs : bs = [] := by simpa using hlen.symm
      subst hbs
      simp [carryPass]
  | cons a as ih =>
      cases bs with
      | nil => simp at hlen
      | cons b bs =>
          have hhead := hstep a b c
          have htail := ih (step a b c).2 (by simpa using hlen)
          rw [carryPass_cons]
          simp only [limbsValue_cons, List.length_cons, Nat.mul_succ, pow_add]
          calc (step a b c).1.toNat
                + 2 ^ w * limbsValue (carryPass step (step a b c).2 as bs).1
                + 2 ^ (w * as.length) * 2 ^ w
                  * (carryPass step (step a b c).2 as bs).2.toNat
              = (step a b c).1.toNat + 2 ^ w *
                  (limbsValue (carryPass step (step a b c).2 as bs).1
                    + 2 ^ (w * as.length)
                      * (carryPass step (step a b c).2 as bs).2.toNat) := by ring
            _ = ((step a b c).1.toNat + 2 ^ w * (step a b c).2.toNat)
                  + 2 ^ w * (limbsValue as + k * limbsValue bs) := by rw [htail]; ring
            _ = a.toNat + 2 ^ w * limbsValue as
                  + k * (b.toNat + 2 ^ w * limbsValue bs) + c.toNat := by rw [hhead]; ring

/-- A body that subtracts its second limb and the borrow subtracts the second
number. -/
theorem carryPass_sub
    (hstep : ∀ a b c, c.toNat ≤ 1 → (step a b c).2.toNat ≤ 1 ∧
      (step a b c).1.toNat + b.toNat + c.toNat = a.toNat + 2 ^ w * (step a b c).2.toNat)
    (c : BitVec w) (hc : c.toNat ≤ 1) (hlen : as.length = bs.length) :
    (carryPass step c as bs).2.toNat ≤ 1 ∧
      limbsValue (carryPass step c as bs).1 + limbsValue bs + c.toNat =
        limbsValue as + 2 ^ (w * as.length) * (carryPass step c as bs).2.toNat := by
  induction as generalizing bs c with
  | nil =>
      have hbs : bs = [] := by simpa using hlen.symm
      subst hbs
      simpa [carryPass] using hc
  | cons a as ih =>
      cases bs with
      | nil => simp at hlen
      | cons b bs =>
          obtain ⟨hborrow, hhead⟩ := hstep a b c hc
          obtain ⟨hle, htail⟩ := ih (step a b c).2 hborrow (by simpa using hlen)
          rw [carryPass_cons]
          refine ⟨hle, ?_⟩
          simp only [limbsValue_cons, List.length_cons, Nat.mul_succ, pow_add]
          calc (step a b c).1.toNat
                + 2 ^ w * limbsValue (carryPass step (step a b c).2 as bs).1
                + (b.toNat + 2 ^ w * limbsValue bs) + c.toNat
              = ((step a b c).1.toNat + b.toNat + c.toNat)
                  + 2 ^ w * (limbsValue (carryPass step (step a b c).2 as bs).1
                    + limbsValue bs) := by ring
            _ = a.toNat + 2 ^ w * (limbsValue (carryPass step (step a b c).2 as bs).1
                  + limbsValue bs + (step a b c).2.toNat) := by rw [hhead]; ring
            _ = a.toNat + 2 ^ w * limbsValue as + 2 ^ (w * as.length) * 2 ^ w
                  * (carryPass step (step a b c).2 as bs).2.toNat := by rw [htail]; ring

/-- A body that writes what does not depend on the carry. -/
theorem carryPass_map {f : BitVec w × BitVec w → BitVec w}
    (hstep : ∀ a b c, (step a b c).1 = f (a, b)) (c : BitVec w) :
    (carryPass step c as bs).1 = (as.zip bs).map f := by
  induction as generalizing bs c with
  | nil => simp [carryPass]
  | cons a as ih =>
      cases bs with
      | nil => simp [carryPass]
      | cons b bs => rw [carryPass_cons, hstep, ih, List.zip_cons_cons, List.map_cons]

/-! ## Comparing without branches -/

theorem foldl_or_eq_zero_iff (r : BitVec w) (as : List (BitVec w)) :
    as.foldl (· ||| ·) r = 0 ↔ r = 0 ∧ ∀ a ∈ as, a = 0 := by
  induction as generalizing r with
  | nil => simp
  | cons a as ih =>
      rw [List.foldl_cons, ih, List.forall_mem_cons]
      simp [and_assoc]

theorem zipWith_xor_eq_zero_iff {as bs : List (BitVec w)} (hlen : as.length = bs.length) :
    (∀ d ∈ List.zipWith (· ^^^ ·) as bs, d = 0) ↔ as = bs := by
  induction as generalizing bs with
  | nil =>
      have hbs : bs = [] := by simpa using hlen.symm
      simp [hbs]
  | cons a as ih =>
      cases bs with
      | nil => simp at hlen
      | cons b bs =>
          rw [List.zipWith_cons_cons, List.forall_mem_cons, ih (by simpa using hlen),
            List.cons.injEq]
          simp

/-- A word or its negation has the top bit set, unless it is zero. -/
theorem or_neg_ushiftRight (hw : 0 < w) (r : BitVec w) :
    (r ||| -r) >>> (w - 1) = if r = 0 then 0 else 1 := by
  split
  · next h => simp [h]
  · next h =>
      have hr : r.toNat ≠ 0 := fun h0 => h (BitVec.eq_of_toNat_eq (by simpa using h0))
      have hlt := r.isLt
      have hneg : (-r).toNat = 2 ^ w - r.toNat := by
        rw [BitVec.toNat_neg, Nat.mod_eq_of_lt (by omega)]
      have hleft : r.toNat ≤ (r ||| -r).toNat := by
        rw [BitVec.toNat_or]
        exact Nat.left_le_or
      have hright : (-r).toNat ≤ (r ||| -r).toNat := by
        rw [BitVec.toNat_or]
        exact Nat.right_le_or
      have hhalf : 2 ^ w = 2 * 2 ^ (w - 1) := by
        rw [← Nat.pow_succ', Nat.succ_eq_add_one, Nat.sub_add_cancel hw]
      have htop := (r ||| -r).isLt
      have hone : (1 : BitVec w).toNat = 1 := by
        simp
        omega
      apply BitVec.eq_of_toNat_eq
      rw [BitVec.toNat_ushiftRight, Nat.shiftRight_eq_div_pow, hone]
      exact Nat.div_eq_of_lt_le (by omega) (by omega)

/-! ## Interleaved reduction -/

/-- Where every turn multiplies what the state holds by the base, up to `y`
times the limb of the turn and a multiple `u` of `p`, the run does so by the
power of the base. What the state holds never passes `y + p`. -/
theorem foldl_redc {σ : Type} {turn : σ → BitVec w → σ} {held : σ → Nat}
    {Inv : σ → Prop} {y p : Nat}
    (hturn : ∀ s x, Inv s → held s ≤ y + p → Inv (turn s x) ∧
      ∃ u < 2 ^ w, held (turn s x) * 2 ^ w = held s + x.toNat * y + u * p)
    {s : σ} (hinv : Inv s) (hs : held s ≤ y + p) (xs : List (BitVec w)) :
    Inv (xs.foldl turn s) ∧ held (xs.foldl turn s) ≤ y + p ∧
      ∃ u < 2 ^ (w * xs.length), held (xs.foldl turn s) * 2 ^ (w * xs.length) =
        held s + limbsValue xs * y + u * p := by
  induction xs generalizing s with
  | nil => exact ⟨hinv, hs, 0, by simp, by simp⟩
  | cons x xs ih =>
      obtain ⟨hinv', u, hu, heq⟩ := hturn s x hinv hs
      have hx := x.isLt
      have hs' : held (turn s x) ≤ y + p := by
        have hxy : x.toNat * y ≤ (2 ^ w - 1) * y := Nat.mul_le_mul_right _ (by omega)
        have hup : u * p ≤ (2 ^ w - 1) * p := Nat.mul_le_mul_right _ (by omega)
        have hbase : 2 ^ w = (2 ^ w - 1) + 1 := by omega
        have hle : held (turn s x) * 2 ^ w ≤ (y + p) * 2 ^ w := by
          calc held (turn s x) * 2 ^ w
              = held s + x.toNat * y + u * p := heq
            _ ≤ (y + p) + (2 ^ w - 1) * y + (2 ^ w - 1) * p := by omega
            _ = (y + p) * ((2 ^ w - 1) + 1) := by ring
            _ = (y + p) * 2 ^ w := by rw [← hbase]
        exact Nat.le_of_mul_le_mul_right hle (Nat.two_pow_pos w)
      obtain ⟨hinv'', hheld, u', hu', heq'⟩ := ih hinv' hs'
      refine ⟨hinv'', hheld, u + 2 ^ w * u', ?_, ?_⟩
      · have hle : 2 ^ w * (u' + 1) ≤ 2 ^ w * 2 ^ (w * xs.length) :=
          Nat.mul_le_mul_left _ hu'
        rw [List.length_cons, Nat.mul_succ, pow_add, Nat.mul_comm (2 ^ (w * xs.length))]
        rw [Nat.mul_add] at hle
        omega
      · rw [List.foldl_cons, List.length_cons, Nat.mul_succ, pow_add, limbsValue_cons]
        calc held (xs.foldl turn (turn s x)) * (2 ^ (w * xs.length) * 2 ^ w)
            = held (xs.foldl turn (turn s x)) * 2 ^ (w * xs.length) * 2 ^ w := by ring
          _ = (held (turn s x) * 2 ^ w) + 2 ^ w * (limbsValue xs * y + u' * p) := by
              rw [heq']
              ring
          _ = held s + (x.toNat + 2 ^ w * limbsValue xs) * y + (u + 2 ^ w * u') * p := by
              rw [heq]
              ring

end DataProcessor.Lib
