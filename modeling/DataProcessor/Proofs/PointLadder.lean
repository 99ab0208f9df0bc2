import DataProcessor.Proofs.PointRegisters

/-!
# The ladder of point multiplication

A scalar below `2 ^ 255` gets one or two orders of the group added, so that
it has 257 bits, and the ladder goes through its bits below the top one. With
`i` bits to go the registers hold a rung for the bits before these.

A step fails only where a multiple of the order comes up between twice the
rung and twice the next one. `not_dvd_rung` is why that happens for no scalar
from two on, since the scalar is less than half of the order. For the scalar
one it happens at the last step but one, where twice the rung and one more is
the order: the points are opposite, all registers collapse, and what comes
out in the end is the origin.
-/

namespace DataProcessor

open Lib SbFe

variable {W : SbWordSize}

/-! ## The scalar -/

/-- The scalar with the order added once or twice, of 257 bits. -/
def regularScalar (N k : Nat) : Nat := if 2 ^ 256 ≤ k + N then k + N else k + 2 * N

theorem sbSwRegularizeScalar_value {s : SbSwCurve W} {N : Nat} (hn : s.n.Consistent N)
    (k : SbFe W) :
    (sbSwRegularizeScalar k s).1.value + 2 ^ 256 = regularScalar N k.value := by
  have hwide := hn.wide
  have hN := hn.value
  have hlt := s.n.p.value_lt
  have h1 := sbFeAdd_value k s.n.p
  have h1lt := (sbFeAdd k s.n.p).1.value_lt
  have h2 := sbFeAdd_value (sbFeAdd k s.n.p).1 s.n.p
  have h2lt := (sbFeAdd (sbFeAdd k s.n.p).1 s.n.p).1.value_lt
  have hcarry := sbFeAdd_carry k s.n.p
  have hcarry' := sbFeAdd_carry (sbFeAdd k s.n.p).1 s.n.p
  rw [hcarry, toNat_flag] at h1
  rw [hcarry', toNat_flag] at h2
  have hswap : (sbSwRegularizeScalar k s).1 = if 2 ^ 256 ≤ k.value + s.n.p.value then
      (sbFeAdd k s.n.p).1 else (sbFeAdd (sbFeAdd k s.n.p).1 s.n.p).1 := by
    simp only [sbSwRegularizeScalar, hcarry, sbFeCtswap_flag]
    split <;> rfl
  rw [hswap, regularScalar, ← hN]
  by_cases h : 2 ^ 256 ≤ k.value + s.n.p.value
  · rw [if_pos h] at h1 ⊢
    rw [if_pos h]
    omega
  · rw [if_neg h] at h1 ⊢
    rw [if_neg h]
    rw [if_pos (by omega)] at h2
    omega

section

variable {N k : Nat} (hodd : N % 2 = 1) (hwide : 3 * 2 ^ 254 < N) (hlt : N + 1 < 2 ^ 256)
  (hk : k < 2 ^ 255)

include hlt hk hwide

theorem regularScalar_bounds :
    2 ^ 256 ≤ regularScalar N k ∧ regularScalar N k < 2 * 2 ^ 256 := by
  rw [regularScalar]
  split <;> omega

theorem regularScalar_rung {i : Nat} (hi : 1 ≤ i) (hi' : i ≤ 255) :
    0 < regularScalar N k / 2 ^ (i + 1) ∧ regularScalar N k / 2 ^ (i + 1) < 2 ^ 255 := by
  obtain ⟨hge, hle⟩ := regularScalar_bounds hwide hlt hk
  constructor
  · apply Nat.div_pos _ (Nat.two_pow_pos _)
    exact (Nat.pow_le_pow_right (by decide) (by omega)).trans hge
  · have hfour : 2 ^ 2 ≤ 2 ^ (i + 1) := Nat.pow_le_pow_right (by decide) (by omega)
    rw [Nat.div_lt_iff_lt_mul (Nat.two_pow_pos _)]
    omega

include hodd

/-- Above the last two bits the rungs are small. -/
theorem not_dvd_high_rung {i : Nat} (hi : 2 ≤ i) (hi' : i ≤ 255) {j : Nat} (hj : j ≤ 2) :
    ¬ N ∣ 2 * (regularScalar N k / 2 ^ (i + 1)) + j := by
  obtain ⟨hge, hle⟩ := regularScalar_bounds hwide hlt hk
  obtain ⟨hpos, -⟩ := regularScalar_rung hwide hlt hk (by omega) hi'
  have hsmall : regularScalar N k / 2 ^ (i + 1) < 2 ^ 254 := by
    have height : 2 ^ 3 ≤ 2 ^ (i + 1) := Nat.pow_le_pow_right (by decide) (by omega)
    rw [Nat.div_lt_iff_lt_mul (Nat.two_pow_pos _)]
    omega
  exact Nat.not_dvd_of_pos_of_lt (by omega) (by omega)

/-- Neither twice the rung nor twice the next one nor the number between is a
multiple of the order. -/
theorem not_dvd_rung (hk2 : 2 ≤ k) {i : Nat} (hi : i ≤ 255) {j : Nat} (hj : j ≤ 2) :
    ¬ N ∣ 2 * (regularScalar N k / 2 ^ (i + 1)) + j := by
  obtain ⟨hge, hle⟩ := regularScalar_bounds hwide hlt hk
  have hcases : regularScalar N k = k + N ∧ 2 ^ 256 ≤ k + N ∨ regularScalar N k = k + 2 * N := by
    rw [regularScalar]
    split
    · next h => exact .inl ⟨rfl, h⟩
    · exact .inr rfl
  rcases Nat.lt_or_ge i 2 with hlow | hhigh
  · rcases Nat.lt_or_ge i 1 with hzero | hone
    · have h0 : i = 0 := by omega
      subst h0
      rw [Nat.zero_add, Nat.pow_one]
      by_cases heq : 2 * (regularScalar N k / 2) + j = 2 * N
      · omega
      · rcases Nat.lt_or_ge (2 * (regularScalar N k / 2) + j) (2 * N) with hless | hmore
        · exact Nat.not_dvd_of_lt_of_lt_mul_succ (k := 1) (by omega) (by omega)
        · exact Nat.not_dvd_of_lt_of_lt_mul_succ (k := 2) (by omega) (by omega)
    · have h1 : i = 1 := by omega
      subst h1
      rw [show 2 ^ (1 + 1) = 4 from rfl]
      by_cases heq : 2 * (regularScalar N k / 4) + j = N
      · omega
      · rcases Nat.lt_or_ge (2 * (regularScalar N k / 4) + j) N with hless | hmore
        · exact Nat.not_dvd_of_pos_of_lt (by omega) hless
        · exact Nat.not_dvd_of_lt_of_lt_mul_succ (k := 1) (by omega) (by omega)
  · exact not_dvd_high_rung hodd hwide hlt hk hhigh hi hj

end

theorem testBit_add_two_pow (n : Nat) {i : Nat} (hi : i < 256) :
    (n + 2 ^ 256).testBit i = n.testBit i := by
  rw [Nat.add_comm, Nat.testBit_two_pow_add_gt hi]

/-- The rung below takes one bit more of the scalar. -/
theorem rung_succ (n i : Nat) : n / 2 ^ i = 2 * (n / 2 ^ (i + 1)) + (n.testBit i).toNat := by
  have hhalf : n / 2 ^ (i + 1) = n / 2 ^ i / 2 := by
    rw [pow_succ, Nat.div_div_eq_div_mul]
  rw [hhalf, Nat.testBit_eq_decide_div_mod_eq]
  by_cases h : n / 2 ^ i % 2 = 1
  · simp only [h, decide_true, Bool.toNat_true]
    omega
  · simp only [h, decide_false, Bool.toNat_false]
    omega

namespace SbSwContext

/-! ## What stays -/

/-- The part of a context that a ladder neither changes nor forgets. -/
structure Held (W : SbWordSize) where
  z : SbFe W
  point : SbFePair W
  k : SbFe W
  inv_k : SbWord W
  k_one : SbWord W
  operation : SbSwIncrementalOperation
  curve_id : UInt32
  message : SbFe W
  priv : SbFe W

def held (m : SbSwContext W) : Held W where
  z := m.z
  point := m.point
  k := m.k
  inv_k := m.state.inv_k
  k_one := m.state.k_one
  operation := m.state.operation
  curve_id := m.state.curve_id
  message := m.message
  priv := m.priv

theorem held_eq {m m' : SbSwContext W} (hz : m'.z = m.z) (hpoint : m'.point = m.point)
    (hk : m'.k = m.k) (hinv_k : m'.state.inv_k = m.state.inv_k)
    (hk_one : m'.state.k_one = m.state.k_one)
    (hoperation : m'.state.operation = m.state.operation)
    (hcurve_id : m'.state.curve_id = m.state.curve_id) (hmessage : m'.message = m.message)
    (hpriv : m'.priv = m.priv) : m'.held = m.held := by
  simp only [held, *]

@[simp] theorem held_ladderTurn (m : SbSwContext W) (s : SbSwCurve W) :
    (ladderTurn m s).held = m.held := by
  obtain ⟨_, _, _, _, _, _, _, _, _, _, _, ⟨_, _, _, _, _, _, _, _⟩, _⟩ := m
  exact held_eq rfl rfl rfl rfl rfl rfl rfl rfl rfl

theorem ladderTurn_i (m : SbSwContext W) (s : SbSwCurve W) :
    (ladderTurn m s).state.i = m.state.i - 1 := by
  obtain ⟨_, _, _, _, _, _, _, _, _, _, _, ⟨_, _, _, _, _, _, _, _⟩, _⟩ := m
  rfl

@[simp] theorem held_ladderTurns (s : SbSwCurve W) (ops : Nat) (m : SbSwContext W) :
    (ladderTurns s ops m).held = m.held := by
  induction ops generalizing m with
  | zero => rfl
  | succ ops ih =>
      rw [ladderTurns]
      split
      · rfl
      · rw [ih, held_ladderTurn]

/-! ## A turn -/

variable {s : SbSwCurve W} {curve : Curve}

theorem ladderTurn_pair (hs : s.Consistent curve) {m : SbSwContext W}
    {q : CoZPair curve.Coordinate} (h : m.Pair q) {swapped : Bool}
    (hswap : m.state.swap = flag W (swapped = true)) (hi : m.state.i.toNat < 256) :
    let b := m.k.value.testBit m.state.i.toNat
    (ladderTurn m s).Pair (q.swapIf (swapped ^^ b)).step ∧
      (ladderTurn m s).state.swap = flag W (b = true) := by
  intro b
  have hb : sbFeTestBit m.k m.state.i = flag W (b = true) := sbFeTestBit_eq m.k hi
  have hxor : m.state.swap ^^^ sbFeTestBit m.k m.state.i = flag W ((swapped ^^ b) = true) := by
    rw [hswap, hb, flag_xor]
  have hordered := h.swapPoints (swapped ^^ b)
  rw [← hxor] at hordered
  have hstart : Pair { m.swapPoints (m.state.swap ^^^ sbFeTestBit m.k m.state.i) with
      state.swap := sbFeTestBit m.k m.state.i } (q.swapIf (swapped ^^ b)) :=
    ⟨hordered.x1, hordered.y1, hordered.x2, hordered.y2⟩
  have hstep := ((hstart.conjAdd hs.p).addUpdate hs.p).1
  exact ⟨⟨hstep.x1, hstep.y1, hstep.x2, hstep.y2⟩, hb⟩

/-- What the registers hold before bit `i` for the scalar `k`. The points of
the scalar one have collapsed when the last bit is left. -/
def Position (Q : curve.Point) (k i : Nat) (swapped : Bool) (q : CoZPair curve.Coordinate) :
    Prop :=
  if k = 1 ∧ i = 0 then ∃ u, q = ⟨0, 0, u ^ 2, u ^ 3⟩
  else CoZPair.Rung Q (regularScalar curve.N k / 2 ^ (i + 1)) swapped q

structure LadderAt (Q : curve.Point) (k i : Nat) (m : SbSwContext W) : Prop where
  bit : m.state.i.toNat = i
  scalar : m.k.value + 2 ^ 256 = regularScalar curve.N k
  position : ∃ (q : CoZPair curve.Coordinate) (swapped : Bool), m.Pair q ∧
    m.state.swap = flag W (swapped = true) ∧ Position Q k i swapped q

section

variable (hs : s.Consistent curve) {Q : curve.Point} (hQ : Q ≠ 0) {k i : Nat}
  (hk : 1 ≤ k) (hk' : k < 2 ^ 255)

include hs in
theorem N_odd : curve.N % 2 = 1 := hs.n.odd

include hs hQ in
theorem nsmul_ne_zero_iff {n : Nat} : n • Q ≠ 0 ↔ ¬ curve.N ∣ n := by
  rw [ne_eq, ← addOrderOf_dvd_iff_nsmul_eq_zero, hs.order hQ]

include hs hQ hk hk'

/-- One turn, from the position before bit `i` to that before the next. The
two cases are the last step but one of the scalar one, and all others. -/
theorem Position.step {swapped : Bool} {q : CoZPair curve.Coordinate} (hi : 1 ≤ i)
    (hi' : i ≤ 255) (h : Position Q k i swapped q) :
    let b := (regularScalar curve.N k).testBit i
    Position Q k (i - 1) b (q.swapIf (swapped ^^ b)).step := by
  intro b
  rw [Position, if_neg (by omega)] at h
  by_cases hone : k = 1 ∧ i = 1
  · obtain ⟨rfl, rfl⟩ := hone
    have hodd := N_odd hs
    have hnarrow := hs.narrow
    have hregular : regularScalar curve.N 1 = 1 + 2 * curve.N := by
      rw [regularScalar, if_neg (by omega)]
    have hb : b = true := by
      change (regularScalar curve.N 1).testBit 1 = true
      rw [Nat.testBit_eq_decide_div_mod_eq, hregular, decide_eq_true_eq]
      omega
    rw [Position, if_pos ⟨rfl, rfl⟩]
    obtain ⟨z, hz⟩ := h.ordered b
    rw [hb] at hz ⊢
    have hopposite : (regularScalar curve.N 1 / 2 ^ (1 + 1)) • Q =
        -((regularScalar curve.N 1 / 2 ^ (1 + 1) + 1) • Q) := by
      rw [CoZPair.Rung.eq_neg_succ_iff]
      by_contra hne
      refine (nsmul_ne_zero_iff hs hQ).1 hne ⟨1, ?_⟩
      rw [hregular]
      omega
    simp only [if_true] at hz
    rw [hopposite] at hz
    exact CoZPair.step_opposite hz
  · have hnot : ∀ j ≤ 2, ¬ curve.N ∣ 2 * (regularScalar curve.N k / 2 ^ (i + 1)) + j := by
      intro j hj
      rcases Nat.lt_or_ge k 2 with hk1 | hk2
      · exact not_dvd_high_rung (N_odd hs) hs.wide hs.narrow hk' (by omega) hi' hj
      · exact not_dvd_rung (N_odd hs) hs.wide hs.narrow hk' hk2 hi' hj
    have hrung := h.step b hQ ((nsmul_ne_zero_iff hs hQ).2 (hnot 0 (by decide)))
      ((nsmul_ne_zero_iff hs hQ).2 (hnot 2 (by decide)))
      ((nsmul_ne_zero_iff hs hQ).2 (hnot 1 (by decide)))
    rw [Position, if_neg (by omega), Nat.sub_add_cancel hi, rung_succ]
    exact hrung

theorem LadderAt.turn {m : SbSwContext W} (hi : 1 ≤ i) (hi' : i ≤ 255)
    (h : LadderAt Q k i m) : LadderAt Q k (i - 1) (ladderTurn m s) := by
  obtain ⟨hbit, hscalar, q, swapped, hpair, hswap, hposition⟩ := h
  have hlt : m.state.i.toNat < 256 := by omega
  obtain ⟨hpair', hswap'⟩ := ladderTurn_pair hs hpair hswap hlt
  have hb : m.k.value.testBit m.state.i.toNat = (regularScalar curve.N k).testBit i := by
    rw [← hscalar, hbit, testBit_add_two_pow _ (by omega)]
  rw [hb] at hpair' hswap'
  have hheld := congrArg Held.k (held_ladderTurn m s)
  refine ⟨?_, ?_, _, _, hpair', hswap', hposition.step hs hQ hk hk' hi hi'⟩
  · have hone : (1 : SbBitcount).toNat = 1 := rfl
    rw [ladderTurn_i, BitVec.toNat_sub, hone, hbit]
    omega
  · change (ladderTurn m s).k = m.k at hheld
    rw [hheld, hscalar]

/-- As many turns as are left, or as one call makes. -/
theorem LadderAt.turns (ops : Nat) {m : SbSwContext W} (hi' : i ≤ 255)
    (h : LadderAt Q k i m) : LadderAt Q k (i - ops) (ladderTurns s ops m) := by
  induction ops generalizing m i with
  | zero => exact h
  | succ ops ih =>
      have hzero : m.state.i = 0 ↔ i = 0 := by
        rw [← h.bit]
        exact ⟨fun h0 => by rw [h0]; rfl, fun h0 => BitVec.eq_of_toNat_eq h0⟩
      rw [ladderTurns]
      split
      · next h0 =>
          have hi0 := hzero.1 h0
          subst hi0
          rwa [Nat.zero_sub]
      · next h0 =>
          have hi : 1 ≤ i := Nat.one_le_iff_ne_zero.2 (hzero.not.1 h0)
          have hturn := ih (i := i - 1) (by omega) (h.turn hs hQ hk hk' hi hi')
          rwa [show i - 1 - ops = i - (ops + 1) by omega] at hturn

end

end SbSwContext

end DataProcessor
