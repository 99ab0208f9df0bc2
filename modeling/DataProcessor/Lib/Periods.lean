import Mathlib

/-!
# Instants in phase with a start

Time is cut into periods of length `I`, counted from zero. The instants due
are `start`, `start + I`, `start + 2 * I` and so on. Someone who looks at
the clock at `t` is given the due instant of the period after the one `t`
lies in, or `start` where that is still to come, and never one beyond
`stop`. Which due instant that is, is a number, `turn`; everything here is
read off that number.

`dueAfter_range_iff` says when looking at the clock at the instants of a
sequence gives exactly the instants due before `stop`.
-/

namespace DataProcessor.Lib

/-- The instant in phase with `start` in the period after `t`'s. -/
def nextInPhase (start I t : Int) : Int := (t / I + 1) * I + start % I

/-- What someone who looks at the clock at `t` is given. -/
def dueAfter (start stop I t : Int) : Int :=
  min (max start (nextInPhase start I t)) stop

/-- The number of the due instant given at `t`. -/
def turn (start I t : Int) : Nat := (t / I + 1 - start / I).toNat

section

variable {start stop I t u : Int}

theorem nextInPhase_eq : nextInPhase start I t = start + (t / I + 1 - start / I) * I := by
  have hstart : I * (start / I) + start % I = start := Int.mul_ediv_add_emod start I
  rw [nextInPhase]
  linarith

theorem max_nextInPhase (hI : 0 < I) :
    max start (nextInPhase start I t) = start + turn start I t * I := by
  rw [nextInPhase_eq, turn]
  by_cases hlate : 0 ≤ t / I + 1 - start / I
  · rw [Int.toNat_of_nonneg hlate]
    have hpos := Int.mul_nonneg hlate hI.le
    omega
  · rw [Int.toNat_of_nonpos (by omega)]
    have hneg := Int.mul_nonpos_of_nonpos_of_nonneg (by omega : t / I + 1 - start / I ≤ 0) hI.le
    omega

theorem dueAfter_eq (hI : 0 < I) :
    dueAfter start stop I t = min (start + turn start I t * I) stop := by
  rw [dueAfter, max_nextInPhase hI]

theorem turn_mono (start : Int) (hI : 0 < I) (h : t ≤ u) : turn start I t ≤ turn start I u := by
  have hdiv := Int.ediv_le_ediv hI h
  unfold turn
  omega

theorem lt_nextInPhase (start t : Int) (hI : 0 < I) : t < nextInPhase start I t := by
  have ht : I * (t / I) + t % I = t := Int.mul_ediv_add_emod t I
  have hlt := Int.emod_lt_of_pos t hI
  have hphase := Int.emod_nonneg start hI.ne'
  rw [nextInPhase]
  linarith

theorem le_dueAfter (hI : 0 < I) (h : t ≤ stop) : t ≤ dueAfter start stop I t := by
  have hlt := lt_nextInPhase start t hI
  rw [dueAfter]
  omega

theorem dueAfter_le : dueAfter start stop I t ≤ stop := min_le_right ..

theorem due_mono (start : Int) {j k : Nat} (hI : 0 < I) (h : j ≤ k) :
    start + (j : Int) * I ≤ start + (k : Int) * I := by
  have hmul := Int.mul_le_mul_of_nonneg_right (Int.ofNat_le.2 h) hI.le
  omega

theorem dueAfter_mono (hI : 0 < I) (h : t ≤ u) :
    dueAfter start stop I t ≤ dueAfter start stop I u := by
  have hmul := due_mono start hI (turn_mono start hI h)
  rw [dueAfter_eq hI, dueAfter_eq hI]
  omega

/-- At or before a due instant, one is given the next one at the latest. -/
theorem turn_le_succ {k : Nat} (hI : 0 < I) (h : t ≤ start + k * I) :
    turn start I t ≤ k + 1 := by
  have hdiv := Int.ediv_le_ediv hI h
  rw [Int.add_mul_ediv_right _ _ hI.ne'] at hdiv
  unfold turn
  omega

/-- Until one due instant has passed, only that one and the next are given. -/
theorem dueAfter_le_of_lt {x y : Int} (hI : 0 < I)
    (hlt : dueAfter start stop I x < dueAfter start stop I y)
    (ht : t ≤ dueAfter start stop I x) :
    dueAfter start stop I t ≤ dueAfter start stop I y := by
  rw [dueAfter_eq hI, dueAfter_eq hI] at hlt
  rw [dueAfter_eq hI] at ht
  have hturn : turn start I x < turn start I y := by
    by_contra hge
    have hmul := due_mono start hI (Nat.le_of_not_lt hge)
    omega
  have hsucc : turn start I t ≤ turn start I x + 1 := turn_le_succ hI (by omega)
  have hmul := due_mono start hI (hsucc.trans hturn)
  rw [dueAfter_eq hI, dueAfter_eq hI]
  omega

end

/-! ## The due instant that comes next -/

/-- `start`, or a whole number of periods later. -/
def Due (start I t : Int) : Prop := ∃ k : Nat, t = start + k * I

/-- How many due instants there are up to `t`. -/
def passed (start I t : Int) : Nat := ((t - start) / I + 1).toNat

/-- The due instant after `t`. -/
def nextDue (start I t : Int) : Int := start + passed start I t * I

/-- `t` lies in `start`'s period or a later one, before its due instant. -/
def Early (start I t : Int) : Prop := start / I ≤ t / I ∧ t % I < start % I

section

variable {start stop I t : Int}

theorem passed_le_iff {k : Nat} (hI : 0 < I) :
    passed start I t ≤ k ↔ t < start + k * I := by
  have hdiv : (t - start) / I < k ↔ t - start < k * I := Int.ediv_lt_iff_lt_mul hI
  unfold passed
  omega

theorem isLeast_nextDue (start t : Int) (hI : 0 < I) :
    IsLeast {u | Due start I u ∧ t < u} (nextDue start I t) := by
  constructor
  · exact ⟨⟨passed start I t, rfl⟩, (passed_le_iff hI).1 (Nat.le_refl _)⟩
  · rintro u ⟨⟨k, rfl⟩, hlt⟩
    exact due_mono start hI ((passed_le_iff hI).2 hlt)

theorem emod_of_due (h : Due start I t) : t % I = start % I := by
  obtain ⟨k, rfl⟩ := h
  exact Int.add_mul_emod_self_right ..

theorem sub_ediv (hI : 0 < I) : (t - start) / I
    = t / I - start / I - if t % I < start % I then 1 else 0 := by
  have ht : I * (t / I) + t % I = t := Int.mul_ediv_add_emod t I
  have hstart : I * (start / I) + start % I = start := Int.mul_ediv_add_emod start I
  have htpos := Int.emod_nonneg t hI.ne'
  have htlt := Int.emod_lt_of_pos t hI
  have hspos := Int.emod_nonneg start hI.ne'
  have hslt := Int.emod_lt_of_pos start hI
  split
  · have hsplit : t - start
        = (t % I - start % I + I) + (t / I - start / I - 1) * I := by linarith
    rw [hsplit, Int.add_mul_ediv_right _ _ hI.ne',
      Int.ediv_eq_zero_of_lt (by omega) (by omega)]
    omega
  · have hsplit : t - start = (t % I - start % I) + (t / I - start / I) * I := by
      linarith
    rw [hsplit, Int.add_mul_ediv_right _ _ hI.ne',
      Int.ediv_eq_zero_of_lt (by omega) (by omega)]
    omega

/-- One is given the next due instant, or the one after it where the clock
is early in its period. -/
theorem turn_of_early (hI : 0 < I) (h : Early start I t) :
    turn start I t = passed start I t + 1 := by
  obtain ⟨hperiod, hphase⟩ := h
  have hsub : (t - start) / I = t / I - start / I - if t % I < start % I then 1 else 0 :=
    sub_ediv hI
  rw [if_pos hphase] at hsub
  unfold turn passed
  omega

theorem turn_of_not_early (hI : 0 < I) (h : ¬ Early start I t) :
    turn start I t = passed start I t := by
  have hsub : (t - start) / I = t / I - start / I - if t % I < start % I then 1 else 0 :=
    sub_ediv hI
  unfold Early at h
  unfold turn passed
  split at hsub <;> omega

theorem dueAfter_of_early (hI : 0 < I) (h : Early start I t) :
    dueAfter start stop I t = min (nextDue start I t + I) stop := by
  have hsucc : ((passed start I t + 1 : Nat) : Int) * I
      = passed start I t * I + I := by
    push_cast
    ring
  rw [dueAfter_eq hI, turn_of_early hI h, hsucc, nextDue]
  omega

theorem dueAfter_of_not_early (hI : 0 < I) (h : ¬ Early start I t) :
    dueAfter start stop I t = min (nextDue start I t) stop := by
  rw [dueAfter_eq hI, turn_of_not_early hI h, nextDue]

/-- One is given the next due instant up to `stop`, and a due instant in any
case, exactly where the clock is not early and `stop` cuts nothing off but
what is beyond a due `stop`, or where `stop` itself comes next. -/
theorem dueAfter_next_iff (hI : 0 < I) (hstop : t ≤ stop) :
    ((nextDue start I t ≤ stop → dueAfter start stop I t = nextDue start I t) ∧
      Due start I (dueAfter start stop I t)) ↔
    nextDue start I t = stop ∨
      ¬ Early start I t ∧ (nextDue start I t < stop ∨ Due start I stop) := by
  obtain ⟨⟨hdue, hlt⟩, hleast⟩ := isLeast_nextDue start t hI
  by_cases hearly : Early start I t
  · rw [dueAfter_of_early hI hearly]
    constructor
    · intro hgiven
      obtain ⟨hnext, hgrid⟩ := hgiven
      by_cases hle : nextDue start I t ≤ stop
      · have heq := hnext hle
        exact .inl (by omega)
      -- A due `stop` before the next due instant is the clock's own time.
      · rw [min_eq_right (by omega)] at hgrid
        have hback : ¬ t < stop := by
          intro hafter
          have hle' : nextDue start I t ≤ stop := hleast ⟨hgrid, hafter⟩
          exact hle hle'
        obtain rfl : t = stop := by omega
        have hphase := emod_of_due hgrid
        exact absurd hearly.2 (by omega)
    · rintro (heq | ⟨hnot, _⟩)
      · rw [min_eq_right (by omega)]
        exact ⟨fun _ => heq.symm, heq ▸ hdue⟩
      · exact absurd hearly hnot
  · rw [dueAfter_of_not_early hI hearly]
    constructor
    · intro hgiven
      obtain ⟨_, hgrid⟩ := hgiven
      rcases lt_trichotomy (nextDue start I t) stop with hlt' | heq | hgt
      · exact .inr ⟨hearly, .inl hlt'⟩
      · exact .inl heq
      · rw [min_eq_right hgt.le] at hgrid
        exact .inr ⟨hearly, .inr hgrid⟩
    · intro h
      refine ⟨fun hle => min_eq_left hle, ?_⟩
      rcases le_or_gt (nextDue start I t) stop with hle | hgt
      · rw [min_eq_left hle]
        exact hdue
      · rw [min_eq_right hgt.le]
        rcases h with heq | ⟨_, hlt' | hgrid⟩
        · omega
        · omega
        · exact hgrid

end

/-! ## Looking again and again -/

/-- Somebody looks in an earlier period than the last due one, always, and
in the period before each due one, at least once; for `start`, in any
earlier one. -/
def LooksFit (start stop I : Int) (look : Nat → Int) : Prop :=
  (∀ n, look n ≤ stop →
    ∃ k : Nat, start + k * I < stop ∧ look n / I < start / I + k) ∧
  (∀ k : Nat, start + k * I < stop →
    ∃ n, look n ≤ stop ∧
      if k = 0 then look n / I < start / I else look n / I + 1 = start / I + k)

variable {start stop I : Int} {look : Nat → Int}

theorem turn_le_iff {k : Nat} {t : Int} :
    turn start I t ≤ k ↔ t / I < start / I + k := by
  unfold turn
  omega

theorem turn_eq_iff {k : Nat} {t : Int} : turn start I t = k ↔
    if k = 0 then t / I < start / I else t / I + 1 = start / I + k := by
  unfold turn
  split <;> omega

theorem dueAfter_range_iff (hI : 0 < I) :
    (∀ T, (∃ n, look n ≤ stop ∧ dueAfter start stop I (look n) = T) ↔
      ∃ k : Nat, T = start + k * I ∧ T < stop) ↔ LooksFit start stop I look := by
  constructor
  · intro h
    refine ⟨?_, ?_⟩
    · intro n hn
      obtain ⟨k, hk, hlt⟩ := (h _).1 ⟨n, hn, rfl⟩
      refine ⟨turn start I (look n), ?_, turn_le_iff.1 (Nat.le_refl _)⟩
      rw [dueAfter_eq hI] at hlt
      omega
    · intro k hk
      obtain ⟨n, hn, hdue⟩ := (h _).2 ⟨k, rfl, hk⟩
      refine ⟨n, hn, turn_eq_iff.1 ?_⟩
      rw [dueAfter_eq hI] at hdue
      have hmul : (turn start I (look n) : Int) * I = k * I := by omega
      exact_mod_cast Int.eq_of_mul_eq_mul_right hI.ne' hmul
  · rintro ⟨hbefore, hseen⟩ T
    constructor
    · intro hgiven
      obtain ⟨n, hn, rfl⟩ := hgiven
      obtain ⟨k, hk, hturn⟩ := hbefore n hn
      have hmul := due_mono start hI (turn_le_iff.2 hturn)
      refine ⟨turn start I (look n), ?_, ?_⟩ <;> rw [dueAfter_eq hI] <;> omega
    · intro hgiven
      obtain ⟨k, rfl, hk⟩ := hgiven
      obtain ⟨n, hn, hturn⟩ := hseen k hk
      refine ⟨n, hn, ?_⟩
      rw [dueAfter_eq hI, turn_eq_iff.2 hturn]
      omega

/-- A strictly increasing sequence of instants passes every later instant,
between two of its own. -/
theorem exists_last_le {n : Nat} {t : Int} (hlook : StrictMono look) (h : look n ≤ t) :
    ∃ m, n ≤ m ∧ look m ≤ t ∧ t < look (m + 1) := by
  have hgrow : ∀ j, look n + j ≤ look (n + j) := by
    intro j
    induction j with
    | zero => simp
    | succ j ih =>
        have hstep : look (n + j) < look (n + j + 1) := hlook (Nat.lt_succ_self _)
        show look n + ((j : Int) + 1) ≤ look (n + j + 1)
        omega
  have hpast : ∃ j, t < look (n + j) := by
    refine ⟨(t - look n).toNat + 1, ?_⟩
    have hj := hgrow ((t - look n).toNat + 1)
    omega
  refine ⟨n + (Nat.find hpast - 1), Nat.le_add_right .., ?_, ?_⟩
  · by_cases hzero : Nat.find hpast = 0
    · rw [hzero]
      exact h
    · have hmin := Nat.find_min hpast (m := Nat.find hpast - 1) (by omega)
      omega
  · have hfind := Nat.find_spec hpast
    by_cases hzero : Nat.find hpast = 0
    · rw [hzero] at hfind
      exact absurd hfind (by simpa using h)
    · rw [show n + (Nat.find hpast - 1) + 1 = n + Nat.find hpast by omega]
      exact hfind

/-! ## Telling the last instant -/

section

variable {K : Nat → Int} {G phase raw : Int} {m : Nat}

/-- Steps of at most one leave nothing out. -/
theorem exists_eq_of_step (hstep : ∀ i, i < m → K (i + 1) ≤ K i + 1)
    (hfirst : K 0 ≤ G) (hlast : G ≤ K m) : ∃ i, i ≤ m ∧ K i = G := by
  induction m with
  | zero => exact ⟨0, Nat.le_refl _, by omega⟩
  | succ m ih =>
      by_cases hbefore : G ≤ K m
      · obtain ⟨i, hi, heq⟩ := ih (fun i hi => hstep i (by omega)) hbefore
        exact ⟨i, by omega, heq⟩
      · have hlt := hstep m (Nat.lt_succ_self m)
        exact ⟨m + 1, Nat.le_refl _, by omega⟩

theorem mul_add_le {a b : Int} (hI : 0 < I) (h : a < b) : a * I + I ≤ b * I := by
  have hmul := Int.mul_le_mul_of_nonneg_right (show a + 1 ≤ b from h) hI.le
  linarith

/-- The instants of one phase, cut off at `stop`. -/
def cutAt (stop I phase : Int) (k : Int) : Int := min (k * I + phase) stop

theorem cutAt_mono {j k : Int} (hI : 0 < I) (h : j ≤ k) :
    cutAt stop I phase j ≤ cutAt stop I phase k := by
  have hmul := Int.mul_le_mul_of_nonneg_right h hI.le
  unfold cutAt
  omega

variable (hI : 0 < I) (hraw : 0 < raw) (hle : raw ≤ I)
  (hG : G * I + phase ≤ stop) (hnext : stop < G * I + phase + I)
include hI hG

theorem cutAt_of_le {k : Int} (h : k ≤ G) : cutAt stop I phase k = k * I + phase := by
  have hmul := Int.mul_le_mul_of_nonneg_right h hI.le
  unfold cutAt
  omega

/-- Below `G` an instant is at least `raw` from `stop`. -/
theorem not_near_of_lt (hle : raw ≤ I) {k : Int} (h : k < G) :
    cutAt stop I phase k + raw ≤ stop := by
  have hmul := mul_add_le hI h
  rw [cutAt_of_le hI hG h.le]
  omega

omit hG in
include hnext in
theorem cutAt_of_gt {k : Int} (h : G < k) : cutAt stop I phase k = stop := by
  have hmul := mul_add_le hI h
  unfold cutAt
  omega

include hraw hle hnext

/-- Being less than `raw` before `stop` tells the last instant of a run from
the others exactly in two cases: the run is cut off at `stop`, and the last
instant in phase is `stop` itself, or no part of the run, or not so near; or
the run ends with the last instant in phase, and that is so near. -/
theorem near_iff_last (hmono : ∀ i j, i ≤ j → j ≤ m → K i ≤ K j)
    (hstep : ∀ i, i < m → K (i + 1) ≤ K i + 1) :
    (∀ i, i ≤ m → (stop < cutAt stop I phase (K i) + raw ↔
      ∀ j, j ≤ m → cutAt stop I phase (K j) ≤ cutAt stop I phase (K i))) ↔
    if G < K m then
      G * I + phase = stop ∨ G < K 0 ∨ G * I + phase + raw ≤ stop
    else K m = G ∧ stop < G * I + phase + raw := by
  have hatG := cutAt_of_le hI hG (Int.le_refl G)
  have htop : ∀ i, i ≤ m → cutAt stop I phase (K i) ≤ cutAt stop I phase (K m) :=
    fun i hi => cutAt_mono hI (hmono i m hi (Nat.le_refl m))
  have hcut : ∀ k, cutAt stop I phase k ≤ stop := fun k => min_le_right ..
  split
  · next hpast =>
      have hend := cutAt_of_gt hI hnext hpast
      constructor
      · intro h
        by_cases hfirst : G < K 0
        · exact .inr (.inl hfirst)
        · obtain ⟨i, hi, hKi⟩ := exists_eq_of_step hstep (by omega) hpast.le
          have hi' := h i hi
          rw [hKi, hatG] at hi'
          by_cases hnear : stop < G * I + phase + raw
          · have hmax := hi'.1 hnear m (Nat.le_refl m)
            exact .inl (by omega)
          · exact .inr (.inr (by omega))
      · intro h i hi
        constructor
        · intro hnear j hj
          rcases lt_trichotomy (K i) G with hlt | heq | hgt
          · have hfar : cutAt stop I phase (K i) + raw ≤ stop := not_near_of_lt hI hG hle hlt
            omega
          · rw [heq, hatG] at hnear ⊢
            have hfirst := hmono 0 i (Nat.zero_le i) hi
            have hj' := hcut (K j)
            omega
          · rw [cutAt_of_gt hI hnext hgt]
            exact hcut _
        · intro hmax
          have hm := hmax m (Nat.le_refl m)
          omega
  · next hbefore =>
      constructor
      · intro h
        have hnear := (h m (Nat.le_refl m)).2 htop
        rcases lt_or_eq_of_le (Int.not_lt.1 hbefore) with hlt | heq
        · have hfar : cutAt stop I phase (K m) + raw ≤ stop := not_near_of_lt hI hG hle hlt
          omega
        · rw [heq, hatG] at hnear
          exact ⟨heq, hnear⟩
      · rintro ⟨heq, hnear⟩ i hi
        constructor
        · intro hi' j hj
          rcases lt_or_eq_of_le (hmono i m hi (Nat.le_refl m)) with hlt | hKi
          · have hfar : cutAt stop I phase (K i) + raw ≤ stop :=
              not_near_of_lt hI hG hle (by omega)
            omega
          · rw [hKi]
            exact htop j hj
        · intro hmax
          have hm := hmax m (Nat.le_refl m)
          rw [heq, hatG] at hm
          omega

end

end DataProcessor.Lib
