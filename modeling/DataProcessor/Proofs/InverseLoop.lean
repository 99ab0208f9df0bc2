import DataProcessor.Lib.Transition
import DataProcessor.Proofs.EcdsaPoints

/-!
# The loop of `Ecdsa.inv`

Every turn divides the larger remainder by the smaller one, drops it, and
keeps the rest of the division, which is less than half of what was
dropped. So the product of the two remainders halves with every turn, and
twice the bits of the modulus bound the turns, whatever the number is and
however large the two factors beside the remainders grow.

That the loop ends asks nothing of the number. That it ends at a remainder
of 1, beside which stands the inverse, asks that the number and the modulus
have no common divisor, `inv_ends_and_inverts`.
-/

namespace DataProcessor

open Lib

namespace Ecdsa

/-- The variables of the loop. -/
structure InvLocals where
  lm : Int
  hm : Int
  low : Int
  high : Int

namespace InvLocals

/-- What they are before the loop. -/
def start (a : Int) (b : Nat) : InvLocals := ⟨1, 0, a % b, b⟩

/-- One turn: the test, and the body where it passes. -/
def turn (l : InvLocals) : Option InvLocals :=
  if l.low > 1 then
    let r := l.high.tdiv l.low
    let nm := l.hm - l.lm * r
    let ne := l.high - l.low * r
    some { lm := nm, hm := l.lm, low := ne, high := l.low }
  else none

/-- The loop from here on, as the model has it. -/
def loop (l : InvLocals) : Int := invLoop l.lm l.hm l.low l.high

variable {l u : InvLocals}

theorem loop_of_turn (h : l.turn = some u) : l.loop = u.loop := by
  unfold turn at h
  split at h
  · next hlow =>
      injection h with h
      subst h
      rw [loop, invLoop, if_pos hlow]
      rfl
  · cases h

theorem loop_of_stopped (h : l.turn = none) : l.loop = l.lm := by
  unfold turn at h
  split at h
  · cases h
  · next hlow => rw [loop, invLoop, if_neg hlow]

/-- Where the turns stop, `lm` is what the loop leaves. -/
theorem loop_of_stopsAfter {n : Nat} (h : StopsAfter turn n l u) : l.loop = u.lm := by
  have hkeep : ∀ v w : InvLocals, l.loop = v.loop → v.turn = some w → l.loop = w.loop :=
    fun _ _ hv hturn => hv.trans (loop_of_turn hturn)
  obtain ⟨hsame, hstopped⟩ := h.invariant hkeep rfl
  rw [hsame, loop_of_stopped hstopped]

/-! ## The remainders -/

/-- The remainders of a division. -/
structure Falls (l : InvLocals) : Prop where
  low_nonneg : 0 ≤ l.low
  low_lt : l.low < l.high

def variant (l : InvLocals) : Nat := (l.low * l.high).toNat.size

theorem Falls.turn_eq (hl : l.Falls) (h : l.turn = some u) :
    1 < l.low ∧ u.low = l.high % l.low ∧ u.high = l.low := by
  have hnonneg : 0 ≤ l.high := by
    have := hl.low_nonneg
    have := hl.low_lt
    omega
  unfold turn at h
  split at h
  · next hlow =>
      injection h with h
      subst h
      refine ⟨hlow, ?_, rfl⟩
      show l.high - l.low * l.high.tdiv l.low = l.high % l.low
      rw [Int.tdiv_eq_ediv_of_nonneg hnonneg, Int.emod_def]
  · cases h

/-- A remainder and its divisor fit side by side into what was divided. -/
theorem two_mul_emod_lt {high low : Int} (hpos : 0 < low) (hlt : low < high) :
    2 * (high % low) < high := by
  have hquotient : 1 ≤ high / low := (Int.le_ediv_iff_mul_le hpos).2 (by omega)
  have hsum : high % low + low * (high / low) = high := Int.emod_add_mul_ediv high low
  have hrest := Int.emod_lt_of_pos high hpos
  have hdivisor : low * 1 ≤ low * (high / low) :=
    Int.mul_le_mul_of_nonneg_left hquotient (by omega)
  omega

theorem size_lt_size {m n : Nat} (h : 2 * m < n) : m.size < n.size := by
  have hpos : 0 < n.size := Nat.size_pos.2 (by omega)
  obtain ⟨k, hk⟩ := Nat.exists_eq_succ_of_ne_zero hpos.ne'
  have hn := Nat.lt_size_self n
  rw [hk, Nat.pow_succ] at hn
  have hm : m.size ≤ k := by
    rw [Nat.size_le]
    omega
  omega

theorem Falls.turn (hl : l.Falls) (h : l.turn = some u) :
    u.Falls ∧ u.variant < l.variant := by
  obtain ⟨hlow, hu, hu'⟩ := hl.turn_eq h
  have hrest := Int.emod_nonneg l.high (by omega : l.low ≠ 0)
  have hhalf := two_mul_emod_lt (by omega) hl.low_lt
  refine ⟨⟨by rw [hu]; exact hrest, ?_⟩, ?_⟩
  · rw [hu, hu']
    exact Int.emod_lt_of_pos l.high (by omega)
  · have hproduct : 2 * (l.high % l.low) * l.low < l.high * l.low :=
      Int.mul_lt_mul_of_pos_right hhalf (by omega)
    have hnonneg : 0 ≤ l.high % l.low * l.low := Int.mul_nonneg hrest (by omega)
    rw [mul_assoc] at hproduct
    rw [variant, variant, hu, hu', mul_comm l.low l.high]
    exact size_lt_size (by omega)

theorem falls_start {b : Nat} (hb : 1 < b) (a : Int) : (start a b).Falls where
  low_nonneg := Int.emod_nonneg a (by omega)
  low_lt := Int.emod_lt_of_pos a (by omega)

theorem variant_start_le {b : Nat} (hb : 1 < b) (a : Int) :
    (start a b).variant ≤ 2 * b.size := by
  have hstart := falls_start hb a
  have hle : (start a b).low * (start a b).high ≤ b * b :=
    Int.mul_le_mul_of_nonneg_right hstart.low_lt.le (by simp [start])
  have hlt : b * b < 2 ^ b.size * 2 ^ b.size :=
    Nat.mul_lt_mul'' (Nat.lt_size_self b) (Nat.lt_size_self b)
  rw [variant, Nat.size_le, two_mul, pow_add]
  refine Nat.lt_of_le_of_lt ?_ hlt
  rw [Int.toNat_le]
  push_cast
  exact hle

end InvLocals

/-- The loop makes at most two turns for a bit of the modulus. If the number
has an inverse, the answer is it. -/
theorem inv_ends_and_inverts {b : Nat} (hb : 1 < b) (a : Int) :
    (∃ n ≤ 2 * b.size, ∃ l, StopsAfter InvLocals.turn n (.start a b) l ∧
      inv a b = if a = 0 then 0 else l.lm % b) ∧
    (Int.gcd a b = 1 → 0 ≤ inv a b ∧ inv a b < b ∧ a * inv a b ≡ 1 [ZMOD b]) := by
  obtain ⟨n, hn, l, hstops⟩ := exists_stopsAfter
    (fun _ _ (hl : InvLocals.Falls _) h => hl.turn h) (InvLocals.falls_start hb a)
  have hinv : inv a b = if a = 0 then 0 else l.lm % b := by
    rw [← InvLocals.loop_of_stopsAfter hstops]
    rfl
  refine ⟨⟨n, hn.trans (InvLocals.variant_start_le hb a), l, hstops, hinv⟩, fun hgcd => ?_⟩
  have hmul : a * inv a b ≡ 1 [ZMOD b] := by
    rw [mul_comm]
    exact inv_mul hb hgcd
  rw [if_neg (ne_zero_of_gcd_eq_one hb hgcd)] at hinv
  have hlo := Int.emod_nonneg l.lm (by omega : (b : Int) ≠ 0)
  have hhi := Int.emod_lt_of_pos l.lm (by omega : 0 < (b : Int))
  exact ⟨by omega, by omega, hmul⟩

/-- A negative number and one above the modulus. -/
theorem inv_modulo_seven :
    (0 ≤ inv (-3) 7 ∧ inv (-3) 7 < 7 ∧ -3 * inv (-3) 7 ≡ 1 [ZMOD 7]) ∧
    (0 ≤ inv 10 7 ∧ inv 10 7 < 7 ∧ 10 * inv 10 7 ≡ 1 [ZMOD 7]) := by
  have hseven : 1 < 7 := by decide
  exact ⟨(inv_ends_and_inverts hseven (-3)).2 rfl, (inv_ends_and_inverts hseven 10).2 rfl⟩

end Ecdsa

end DataProcessor
