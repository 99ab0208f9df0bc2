import DataProcessor.Proofs.NextAlarms

/-!
# Where the arithmetic of a schedule wraps around

The start, the end and the interval of a job are `Long`s its author chooses
freely, and `scheduleV8Execution` multiplies, divides and adds them without
a check. The remainder and the division raise when the interval in
milliseconds has wrapped around to zero. Elsewhere a wrapped sum goes on to
the clamp between the start and the end, or to the comparison that makes
`isLastReport`.

No sum goes below the range of a `Long`, and none is beyond it by more than
one turn, so a wrapped sum is the exact one less `2 ^ 64`. The clamp hides a
wrapped slot where the end is taken in either case; the comparison hides
nothing. `schedule_exact_iff` puts the two together.
-/

namespace DataProcessor

open Lib Scheduler

theorem wrapLong_of_ge {n : Int} (hlo : 2 ^ 63 ≤ n) (hhi : n < 2 ^ 63 + 2 ^ 64) :
    wrapLong n = n - 2 ^ 64 := by
  have hturn : wrapLong (n - 2 ^ 64) = wrapLong n := Int.sub_bmod_right n (2 ^ 64)
  rw [← hturn, wrapLong_of_isLong ⟨by omega, by omega⟩]

/-! ## The values without a bound -/

/-- The slot after the current period, in the phase of the start. -/
def Job.slot (USING_ACURAST : Bool) (job : Job) (now : Int) : Int :=
  (now.tdiv (job.millis USING_ACURAST) + 1) * job.millis USING_ACURAST
    + job.startTimestamp.tmod (job.millis USING_ACURAST)

def Job.time (USING_ACURAST : Bool) (job : Job) (now : Int) : Int :=
  min (max job.startTimestamp (job.slot USING_ACURAST now)) job.endTimestamp

/-- A periodic job of `Long`s, at a clock that is a `Long`. -/
structure LongCall (job : Job) (now : Int) : Prop where
  periodic : 0 < job.interval
  interval : IsLong job.interval
  start : IsLong job.startTimestamp
  stop : IsLong job.endTimestamp
  clock : IsLong now

/-- The callback raises no `ArithmeticException`, and computes the interval,
the time and the flag it would compute without a bound. -/
structure ExactSchedule (USING_ACURAST : Bool) (job : Job) (now : Int) : Prop where
  returns : ∀ s, schedule USING_ACURAST job now s ≠ .error .arithmetic
  millis : intervalMillis USING_ACURAST job.interval = job.millis USING_ACURAST
  placed : ∀ s s', schedule USING_ACURAST job now s = .ok s' →
    ∃ p, s'.placed = p :: s.placed ∧ p.time = job.time USING_ACURAST now ∧
      (p.extras.isLastReport = true ↔
        job.endTimestamp < job.time USING_ACURAST now + job.interval)

variable {USING_ACURAST : Bool} {job : Job} {now : Int}

/-! ## The clamp and the comparison -/

/-- A slot beyond the range of a `Long` wraps around unseen where the end is
taken all the same. -/
theorem clamp_wrapLong_iff {start stop slot : Int} (hstop : IsLong stop)
    (hlo : -2 ^ 63 ≤ slot) (hhi : slot < 2 ^ 63 + 2 ^ 64) :
    min (max start (wrapLong slot)) stop = min (max start slot) stop ↔
      slot < 2 ^ 63 ∨ stop ≤ start ∨ stop ≤ slot - 2 ^ 64 := by
  obtain ⟨-, hstop⟩ := hstop
  by_cases hslot : slot < 2 ^ 63
  · rw [wrapLong_of_isLong ⟨hlo, hslot⟩]
    omega
  · rw [wrapLong_of_ge (by omega) hhi]
    omega

/-- A wrapped sum is never beyond the end, and an exact one always is. -/
theorem flag_wrapLong_iff {time interval stop : Int} (hpos : 0 < interval)
    (hinterval : IsLong interval) (htime : -2 ^ 63 ≤ time) (hle : time ≤ stop)
    (hstop : IsLong stop) :
    (wrapLong (time + interval) > stop ↔ stop < time + interval) ↔
      time + interval < 2 ^ 63 := by
  obtain ⟨-, hinterval⟩ := hinterval
  obtain ⟨-, hstop⟩ := hstop
  by_cases hsum : time + interval < 2 ^ 63
  · rw [wrapLong_of_isLong ⟨by omega, hsum⟩]
    omega
  · rw [wrapLong_of_ge (by omega) (by omega)]
    omega

namespace LongCall

variable (h : LongCall job now)
include h

theorem slot_bounds (hmillis : IsLong (job.millis USING_ACURAST)) :
    -2 ^ 63 ≤ job.slot USING_ACURAST now ∧
      job.slot USING_ACURAST now < 2 ^ 63 + 2 ^ 64 := by
  have hpos := job.millis_pos USING_ACURAST h.periodic
  have hdiv := Int.tdiv_mul_add_tmod now (job.millis USING_ACURAST)
  have hnow := Int.tmod_lt_of_pos now hpos
  have hnow' := Int.lt_tmod_of_pos now hpos
  have hstart := Int.tmod_lt_of_pos job.startTimestamp hpos
  have hstart' := Int.lt_tmod_of_pos job.startTimestamp hpos
  obtain ⟨hclock, hclock'⟩ := h.clock
  obtain ⟨-, hmillis⟩ := hmillis
  unfold Job.slot
  rw [Int.add_mul, Int.one_mul]
  -- Rounding towards zero keeps the sign, so the period is not below the clock.
  rcases Int.le_total 0 now with hsign | hsign
  · have hperiod := Int.mul_nonneg (Int.tdiv_nonneg hsign hpos.le) hpos.le
    have hrest := Int.tmod_nonneg (job.millis USING_ACURAST) hsign
    omega
  · have hrest := Int.tmod_nonneg (job.millis USING_ACURAST) (Int.neg_nonneg.2 hsign)
    rw [Int.neg_tmod] at hrest
    omega

theorem time_bounds : -2 ^ 63 ≤ job.time USING_ACURAST now ∧
    job.time USING_ACURAST now ≤ job.endTimestamp := by
  obtain ⟨hstart, -⟩ := h.start
  obtain ⟨hstop, -⟩ := h.stop
  unfold Job.time
  omega

/-- What is computed from an interval that fits. -/
theorem systemNextScheduleTimestamp_eq (hmillis : IsLong (job.millis USING_ACURAST)) :
    systemNextScheduleTimestamp USING_ACURAST job now
      = .ok (min (max job.startTimestamp (wrapLong (job.slot USING_ACURAST now)))
          job.endTimestamp) := by
  have hpos := job.millis_pos USING_ACURAST h.periodic
  unfold systemNextScheduleTimestamp
  rw [if_pos h.periodic, intervalMillis_of_isLong hmillis]
  simp only [if_neg hpos.ne', nextSlot_eq_wrapLong]
  rfl

end LongCall

/-! ## The whole computation -/

theorem getInt_ne_arithmetic (prefs : SharedPreferences) (key : String) (default : Int32) :
    prefs.getInt key default ≠ .error .arithmetic := by
  unfold SharedPreferences.getInt
  split <;> simp

/-- Drawing a request code divides nothing. -/
theorem requestCode_ne_arithmetic (prefs : SharedPreferences) (key : String) :
    requestCode prefs key ≠ .error .arithmetic := by
  intro h
  rcases bind_error.1 h with hnext | ⟨next, -, h⟩
  · exact getInt_ne_arithmetic _ _ _ hnext
  · split at h
    · rcases bind_error.1 h with hcode | ⟨code, -, h⟩
      · exact getInt_ne_arithmetic _ _ _ hcode
      · cases h
    · cases h

/-- The callback raises for its divisor or not at all, this exception. -/
theorem schedule_arithmetic {s : ScheduleState}
    (h : schedule USING_ACURAST job now s = .error .arithmetic) :
    systemNextScheduleTimestamp USING_ACURAST job now = .error .arithmetic := by
  rcases bind_error.1 h with htime | ⟨time, -, h⟩
  · exact htime
  · rcases bind_error.1 h with hcode | ⟨code, -, h⟩
    · exact absurd hcode (requestCode_ne_arithmetic _ _)
    · cases h

/-- On a fresh installation nothing else raises. -/
theorem schedule_fresh {time : Int}
    (htime : systemNextScheduleTimestamp USING_ACURAST job now = .ok time) :
    ∃ s', schedule USING_ACURAST job now ScheduleState.fresh = .ok s' := by
  have hcodes : Codes [] ScheduleState.fresh.prefs := Codes.fresh
  obtain ⟨prefs, flag, -, hschedule⟩ := hcodes.schedule htime
  exact ⟨_, hschedule⟩

/-- What an interval that fits leaves to be exact. -/
theorem LongCall.exact_of_millis (h : LongCall job now)
    (hmillis : IsLong (job.millis USING_ACURAST)) :
    ExactSchedule USING_ACURAST job now ↔
      min (max job.startTimestamp (wrapLong (job.slot USING_ACURAST now)))
          job.endTimestamp = job.time USING_ACURAST now ∧
        (wrapLong (job.time USING_ACURAST now + job.interval) > job.endTimestamp ↔
          job.endTimestamp < job.time USING_ACURAST now + job.interval) := by
  have htime := h.systemNextScheduleTimestamp_eq hmillis
  constructor
  · intro hexact
    obtain ⟨s', hs'⟩ := schedule_fresh htime
    obtain ⟨p, hp, hpt, hflag⟩ := hexact.placed _ _ hs'
    obtain ⟨time, code, heq, hplaced⟩ := schedule_ok hs'
    rw [htime] at heq
    injection heq with heq
    rw [hplaced] at hp
    injection hp with hp
    subst hp
    have hclamp : _ = job.time USING_ACURAST now := heq.trans hpt
    refine ⟨hclamp, ?_⟩
    have hcoded : time = job.time USING_ACURAST now := hpt
    rw [← hflag, ← hcoded]
    exact decide_eq_true_iff.symm
  · intro hgiven
    obtain ⟨hclamp, hflag⟩ := hgiven
    refine ⟨fun s hraise => ?_, intervalMillis_of_isLong hmillis, fun s s' hs' => ?_⟩
    · rw [schedule_arithmetic hraise] at htime
      cases htime
    · obtain ⟨time, code, heq, hplaced⟩ := schedule_ok hs'
      rw [htime, hclamp] at heq
      injection heq with heq
      refine ⟨_, hplaced, heq.symm, ?_⟩
      rw [← heq, ← hflag]
      exact decide_eq_true_iff

/-- The schedule is exact where the interval in milliseconds fits a `Long`,
the slot fits or the end is taken in its place both when it does and when it
has wrapped around, and the time plus the interval fits. -/
theorem schedule_exact_iff (h : LongCall job now) :
    ExactSchedule USING_ACURAST job now ↔
      job.millis USING_ACURAST < 2 ^ 63 ∧
      (job.slot USING_ACURAST now < 2 ^ 63 ∨ job.endTimestamp ≤ job.startTimestamp ∨
        job.endTimestamp ≤ job.slot USING_ACURAST now - 2 ^ 64) ∧
      (job.endTimestamp + job.interval < 2 ^ 63 ∨
        job.startTimestamp + job.interval < 2 ^ 63 ∧
          job.slot USING_ACURAST now + job.interval < 2 ^ 63) := by
  have hpos := job.millis_pos USING_ACURAST h.periodic
  by_cases hmillis : job.millis USING_ACURAST < 2 ^ 63
  · have hlong : IsLong (job.millis USING_ACURAST) := ⟨by omega, hmillis⟩
    obtain ⟨hlo, hhi⟩ := h.slot_bounds hlong
    have htime : -2 ^ 63 ≤ job.time USING_ACURAST now ∧
        job.time USING_ACURAST now ≤ job.endTimestamp := h.time_bounds
    rw [h.exact_of_millis hlong,
      flag_wrapLong_iff h.periodic h.interval htime.1 htime.2 h.stop]
    unfold Job.time
    rw [clamp_wrapLong_iff h.stop hlo hhi]
    have hinterval := h.periodic
    omega
  · simp only [hmillis, false_and, iff_false]
    intro hexact
    have hlong : IsLong (intervalMillis USING_ACURAST job.interval) := by
      unfold intervalMillis
      split
      · exact h.interval
      · exact ⟨Int.le_bmod (by decide), Int.bmod_lt (by decide)⟩
    rw [hexact.millis] at hlong
    exact hmillis hlong.2

/-- A job of this start and interval that never ends. -/
def endlessJob (startTimestamp interval : Int) : Job where
  ipfsUri := "ipfs://script"
  requester := []
  startTimestamp := startTimestamp
  endTimestamp := 2 ^ 63 - 1
  interval := interval
  fee := 0
  gasLimit := 0
  storageLimit := 0

theorem schedule_exact_hundred :
    LongCall (hundredJob 30 250) 100 ∧ ExactSchedule false (hundredJob 30 250) 100 := by
  have h : LongCall (hundredJob 30 250) 100 :=
    ⟨by decide, by decide, by decide, by decide, by decide⟩
  exact ⟨h, (schedule_exact_iff h).2 (by decide)⟩

/-- `2 ^ 61` seconds are zero milliseconds, and the remainder raises; `10 ^ 16`
are less than none. With the longest interval in milliseconds the slot of a
job started at 10 is before the epoch, so the start is set in the place of
the end, and one started at 0 is set for its end and not flagged. -/
theorem schedule_wraps :
    (LongCall (endlessJob 0 (2 ^ 61)) 1700000000000 ∧
      systemNextScheduleTimestamp false (endlessJob 0 (2 ^ 61)) 1700000000000
        = .error .arithmetic ∧
      ¬ ExactSchedule false (endlessJob 0 (2 ^ 61)) 1700000000000) ∧
    (intervalMillis false (10 ^ 16) = -8446744073709551616 ∧
      ¬ ExactSchedule false (endlessJob 0 (10 ^ 16)) 1700000000000) ∧
    (systemNextScheduleTimestamp true (endlessJob 10 (2 ^ 63 - 1)) 1700000000000
        = .ok 10 ∧
      (endlessJob 10 (2 ^ 63 - 1)).time true 1700000000000 = 2 ^ 63 - 1 ∧
      ¬ ExactSchedule true (endlessJob 10 (2 ^ 63 - 1)) 1700000000000) ∧
    (systemNextScheduleTimestamp true (endlessJob 0 (2 ^ 63 - 1)) 1700000000000
        = .ok (2 ^ 63 - 1) ∧
      wrapLong (2 ^ 63 - 1 + (2 ^ 63 - 1)) = -2 ∧
      ¬ ExactSchedule true (endlessJob 0 (2 ^ 63 - 1)) 1700000000000) := by
  have hlong : ∀ start interval, IsLong start → IsLong interval → 0 < interval →
      LongCall (endlessJob start interval) 1700000000000 := by
    intro start interval hstart hinterval hpos
    exact ⟨hpos, hinterval, hstart, show IsLong (2 ^ 63 - 1) by decide, by decide⟩
  refine ⟨⟨hlong _ _ (by decide) (by decide) (by decide), by decide, fun h => ?_⟩,
    ⟨by decide, fun h => ?_⟩, ⟨by decide, by decide, fun h => ?_⟩,
    by decide, by decide, fun h => ?_⟩
  · have hmillis := h.millis
    exact absurd hmillis (by decide)
  · have hmillis := h.millis
    exact absurd hmillis (by decide)
  · have hexact := ((hlong 10 _ (by decide) (by decide) (by decide)).exact_of_millis
      (by decide)).1 h
    exact absurd hexact.1 (by decide)
  · have hexact := ((hlong 0 _ (by decide) (by decide) (by decide)).exact_of_millis
      (by decide)).1 h
    exact absurd hexact.2 (by decide)

end DataProcessor
