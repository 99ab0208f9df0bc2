import DataProcessor.Proofs.FetchRuns

/-!
# Which time an alarm is set for, and which alarm is the last

`scheduleV8Execution` rounds the clock up to a period counted from the
epoch and adds the start's phase. Where the clock is early in its period
that passes over one due time; where the next due time is beyond the end,
the end is taken in its place. `alarm_next_due_iff` says when neither
happens.

`isLastReport` looks one interval ahead, and takes the interval as it came,
in seconds or milliseconds. `isLastReport_iff` says for which runs of
fetches it marks the last scheduled time and no other.
-/

namespace DataProcessor

open Lib Scheduler

/-! ## What a call sets -/

theorem schedule_ok {USING_ACURAST : Bool} {job : Job} {now : Int}
    {s s' : ScheduleState} (h : schedule USING_ACURAST job now s = .ok s') :
    ∃ time code, systemNextScheduleTimestamp USING_ACURAST job now = .ok time ∧
      s'.placed = {
        requestCode := code
        time := time
        extras := {
          toJob := job
          isLastReport := decide (wrapLong (time + job.interval) > job.endTimestamp) }
        } :: s.placed := by
  obtain ⟨time, htime, h⟩ := bind_ok.1 h
  obtain ⟨⟨code, prefs⟩, -, h⟩ := bind_ok.1 h
  cases h
  exact ⟨time, code, htime, rfl⟩

/-- A call that has set an alarm has come as far as the callback. -/
theorem time_of_placed {USING_ACURAST : Bool} {s : ScheduleState} {call : ScheduleCall}
    {now : Int} {p : Placed} (hresolved : call.resolvedAt = some now)
    (hset : (scheduleV8Execution USING_ACURAST s call).placed = p :: s.placed) :
    systemNextScheduleTimestamp USING_ACURAST call.job now = .ok p.time := by
  have hnone : s.placed ≠ p :: s.placed := fun heq => List.cons_ne_self _ _ heq.symm
  unfold scheduleV8Execution at hset
  rw [hresolved] at hset
  split at hset
  · cases hschedule : schedule USING_ACURAST call.job now s with
    | error e =>
        simp only [hschedule, Except.toOption, Option.getD_none] at hset
        exact absurd hset hnone
    | ok s' =>
        obtain ⟨time, code, htime, hplaced⟩ := schedule_ok hschedule
        simp only [hschedule, Except.toOption, Option.getD_some] at hset
        rw [hplaced] at hset
        injection hset with hp
        rw [← hp]
        exact htime
  · exact absurd hset hnone

/-! ## The next due time -/

/-- A periodic job within its time, with nothing negative and no overflow. -/
structure NextDueCall (USING_ACURAST : Bool) (job : Job) (now : Int) : Prop where
  periodic : 0 < job.interval
  epoch : 0 ≤ job.startTimestamp
  ordered : job.startTimestamp ≤ job.endTimestamp
  clock : 0 ≤ now
  within : now ≤ job.endTimestamp
  millis : IsLong (job.millis USING_ACURAST)
  slot : IsLong (nextInPhase job.startTimestamp (job.millis USING_ACURAST) now)

variable {USING_ACURAST : Bool} {job : Job}

/-- `T` is the least due time after `now`, unless that is beyond the end;
and it is a due time. -/
def SetsNextDue (USING_ACURAST : Bool) (job : Job) (now T : Int) : Prop :=
  (∀ t, IsLeast {u | Due job.startTimestamp (job.millis USING_ACURAST) u ∧ now < u} t →
    t ≤ job.endTimestamp → T = t) ∧
  Due job.startTimestamp (job.millis USING_ACURAST) T

/-- An alarm is set for the next due time exactly where the end itself comes
next, or where the clock is not early in its period and the end is beyond
the next due time or due itself. -/
theorem alarm_next_due_iff {s : ScheduleState} {call : ScheduleCall} {now : Int}
    {p : Placed} (h : NextDueCall USING_ACURAST call.job now)
    (hresolved : call.resolvedAt = some now)
    (hset : (scheduleV8Execution USING_ACURAST s call).placed = p :: s.placed) :
    SetsNextDue USING_ACURAST call.job now p.time ↔
      nextDue call.job.startTimestamp (call.job.millis USING_ACURAST) now
          = call.job.endTimestamp ∨
        ¬ Early call.job.startTimestamp (call.job.millis USING_ACURAST) now ∧
          (nextDue call.job.startTimestamp (call.job.millis USING_ACURAST) now
              < call.job.endTimestamp ∨
            Due call.job.startTimestamp (call.job.millis USING_ACURAST)
              call.job.endTimestamp) := by
  have hpos := call.job.millis_pos USING_ACURAST h.periodic
  have htime := time_of_placed hresolved hset
  rw [time_eq_dueAfter h.periodic h.epoch h.clock h.millis h.slot] at htime
  injection htime with htime
  have hleast := isLeast_nextDue call.job.startTimestamp now hpos
  rw [← dueAfter_next_iff hpos h.within, htime, SetsNextDue]
  refine and_congr_left fun _ => ⟨fun hnext => hnext _ hleast, ?_⟩
  intro hnext t ht hle
  obtain rfl := ht.unique hleast
  exact hnext hle

def hundredJob (startTimestamp endTimestamp : Int) : Job where
  ipfsUri := "ipfs://script"
  requester := []
  startTimestamp := startTimestamp
  endTimestamp := endTimestamp
  interval := 100
  fee := 0
  gasLimit := 0
  storageLimit := 0

/-- A fetch of the job when its script is cached. -/
def fetchOf (job : Job) (now : Int) : ScheduleCall where
  job := job
  now := now
  resolvedAt := some now

theorem hundredJob_call {start stop now : Int} (hstart : 0 ≤ start ∧ start ≤ stop)
    (hnow : 0 ≤ now ∧ now ≤ stop) (hstop : stop ≤ 1000) :
    NextDueCall true (hundredJob start stop) now where
  periodic := show (0 : Int) < 100 by decide
  epoch := hstart.1
  ordered := hstart.2
  clock := hnow.1
  within := hnow.2
  millis := show IsLong 100 by decide
  slot := by
    show IsLong (nextInPhase start 100 now)
    unfold IsLong nextInPhase
    omega

theorem alarm_next_due_hundred :
    ∃ p, (scheduleV8Execution true ScheduleState.fresh
        (fetchOf (hundredJob 0 1000) 50)).placed = [p] ∧
      SetsNextDue true (hundredJob 0 1000) 50 p.time := by
  obtain ⟨p, hp⟩ : ∃ p, (scheduleV8Execution true ScheduleState.fresh
      (fetchOf (hundredJob 0 1000) 50)).placed = [p] := ⟨_, rfl⟩
  have hcall : NextDueCall true (hundredJob 0 1000) 50 :=
    hundredJob_call (by decide) (by decide) (by decide)
  refine ⟨p, hp, (alarm_next_due_iff hcall rfl hp).2 (.inr ⟨?_, .inl (by decide)⟩)⟩
  exact fun hearly => absurd hearly.2 (by decide)

/-- Early in its second period, a job due at 10, 110, 210 and so on is set
for 210 at 105; and one due at 0, 100 and 200 that ends at 150 is set for
150 at 120. -/
theorem alarm_passes_over :
    (∃ p, NextDueCall true (hundredJob 10 1000) 105 ∧
      (scheduleV8Execution true ScheduleState.fresh
        (fetchOf (hundredJob 10 1000) 105)).placed = [p] ∧
      p.time = 210 ∧ ¬ SetsNextDue true (hundredJob 10 1000) 105 p.time) ∧
    (∃ p, NextDueCall true (hundredJob 0 150) 120 ∧
      (scheduleV8Execution true ScheduleState.fresh
        (fetchOf (hundredJob 0 150) 120)).placed = [p] ∧
      p.time = 150 ∧ ¬ SetsNextDue true (hundredJob 0 150) 120 p.time) := by
  constructor
  · obtain ⟨p, hp, htime⟩ : ∃ p, (scheduleV8Execution true ScheduleState.fresh
        (fetchOf (hundredJob 10 1000) 105)).placed = [p] ∧ p.time = 210 :=
      ⟨_, rfl, rfl⟩
    refine ⟨p, hundredJob_call (by decide) (by decide) (by decide), hp, htime,
      fun h => ?_⟩
    have hnext := h.1 _ (isLeast_nextDue 10 105 (by decide : (0 : Int) < 100))
      (by decide)
    rw [htime] at hnext
    exact absurd hnext (by decide)
  · obtain ⟨p, hp, htime⟩ : ∃ p, (scheduleV8Execution true ScheduleState.fresh
        (fetchOf (hundredJob 0 150) 120)).placed = [p] ∧ p.time = 150 :=
      ⟨_, rfl, rfl⟩
    refine ⟨p, hundredJob_call (by decide) (by decide) (by decide), hp, htime,
      fun h => ?_⟩
    have hphase := emod_of_due h.2
    rw [htime] at hphase
    exact absurd hphase (by decide)

/-! ## The last alarm of a run -/

/-- A periodic job, fetched with gaps shorter than its period. The `last`th
fetch is the last one up to the end. Nothing overflows. -/
structure DenseFetches (USING_ACURAST : Bool) (job : Job) (fetch : Nat → Int)
    (last : Nat) : Prop where
  periodic : 0 < job.interval
  ordered : job.startTimestamp ≤ job.endTimestamp
  clock : 0 ≤ fetch 0
  monotone : Monotone fetch
  gap : ∀ n, fetch (n + 1) < fetch n + job.millis USING_ACURAST
  within : fetch last ≤ job.endTimestamp
  past : job.endTimestamp < fetch (last + 1)
  millis : IsLong (job.millis USING_ACURAST)
  slot : ∀ n, n ≤ last → IsLong ((fetch n / job.millis USING_ACURAST + 1)
    * job.millis USING_ACURAST + job.startTimestamp.tmod (job.millis USING_ACURAST))
  start : IsLong job.startTimestamp
  flag : IsLong (job.endTimestamp + job.interval)

/-- The phase of the start, with the start's sign. -/
def Job.phase (USING_ACURAST : Bool) (job : Job) : Int :=
  job.startTimestamp.tmod (job.millis USING_ACURAST)

/-- The number of the last period whose instant in phase is up to the end. -/
def Job.lastPeriod (USING_ACURAST : Bool) (job : Job) : Int :=
  (job.endTimestamp - job.phase USING_ACURAST) / job.millis USING_ACURAST

/-- The instant of that period. -/
def Job.lastDue (USING_ACURAST : Bool) (job : Job) : Int :=
  job.lastPeriod USING_ACURAST * job.millis USING_ACURAST + job.phase USING_ACURAST

/-- The period the `n`th fetch schedules in. -/
def periodAt (USING_ACURAST : Bool) (job : Job) (fetch : Nat → Int) (n : Nat) : Int :=
  max (job.startTimestamp.tdiv (job.millis USING_ACURAST))
    (fetch n / job.millis USING_ACURAST + 1)

/-- The time the `n`th fetch schedules for. -/
def cutTime (USING_ACURAST : Bool) (job : Job) (fetch : Nat → Int) (n : Nat) : Int :=
  cutAt job.endTimestamp (job.millis USING_ACURAST) (job.phase USING_ACURAST)
    (periodAt USING_ACURAST job fetch n)

theorem Job.start_eq (USING_ACURAST : Bool) (job : Job) : job.startTimestamp
    = job.startTimestamp.tdiv (job.millis USING_ACURAST) * job.millis USING_ACURAST
      + job.phase USING_ACURAST := by
  have hdiv := Int.mul_tdiv_add_tmod job.startTimestamp (job.millis USING_ACURAST)
  unfold Job.phase
  linarith

variable {fetch : Nat → Int} {last : Nat}

namespace DenseFetches

variable (h : DenseFetches USING_ACURAST job fetch last)
include h

theorem millis_pos : 0 < job.millis USING_ACURAST :=
  job.millis_pos USING_ACURAST h.periodic

theorem interval_le : job.interval ≤ job.millis USING_ACURAST := by
  have hpos := h.periodic
  unfold Job.millis
  split <;> omega

theorem fetch_le {n : Nat} (hn : n ≤ last) : fetch n ≤ job.endTimestamp :=
  (h.monotone hn).trans h.within

theorem fetch_le_iff {n : Nat} : fetch n ≤ job.endTimestamp ↔ n ≤ last := by
  refine ⟨fun hn => ?_, h.fetch_le⟩
  by_contra hlt
  have hmono := h.monotone (show last + 1 ≤ n by omega)
  have hpast := h.past
  omega

theorem lastDue_le : job.lastDue USING_ACURAST ≤ job.endTimestamp := by
  have hdiv := Int.ediv_mul_le (job.endTimestamp - job.phase USING_ACURAST)
    h.millis_pos.ne'
  unfold Job.lastDue Job.lastPeriod
  omega

theorem lt_lastDue_add :
    job.endTimestamp < job.lastDue USING_ACURAST + job.millis USING_ACURAST := by
  have hdiv := Int.lt_ediv_add_one_mul_self
    (job.endTimestamp - job.phase USING_ACURAST) h.millis_pos
  unfold Job.lastDue Job.lastPeriod
  linarith

theorem start_period_le : job.startTimestamp.tdiv (job.millis USING_ACURAST)
    ≤ job.lastPeriod USING_ACURAST := by
  have hstart := job.start_eq USING_ACURAST
  have hordered := h.ordered
  exact (Int.le_ediv_iff_mul_le h.millis_pos).2 (by omega)

theorem periodAt_mono {i j : Nat} (hij : i ≤ j) :
    periodAt USING_ACURAST job fetch i ≤ periodAt USING_ACURAST job fetch j := by
  have hdiv := Int.ediv_le_ediv h.millis_pos (h.monotone hij)
  unfold periodAt
  omega

theorem periodAt_step (n : Nat) : periodAt USING_ACURAST job fetch (n + 1)
    ≤ periodAt USING_ACURAST job fetch n + 1 := by
  have hgap := (h.gap n).le
  have hdiv := Int.ediv_le_ediv h.millis_pos hgap
  have hshift : (fetch n + job.millis USING_ACURAST) / job.millis USING_ACURAST
      = fetch n / job.millis USING_ACURAST + 1 := by
    rw [Int.add_ediv_of_dvd_right (dvd_refl _), Int.ediv_self h.millis_pos.ne']
  unfold periodAt
  omega

theorem lastPeriod_lt_periodAt_iff {n : Nat} :
    job.lastPeriod USING_ACURAST < periodAt USING_ACURAST job fetch n ↔
      job.lastPeriod USING_ACURAST ≤ fetch n / job.millis USING_ACURAST := by
  have hstart := h.start_period_le
  unfold periodAt
  omega

/-- What the `n`th fetch computes. -/
theorem time_eq {n : Nat} (hn : n ≤ last) :
    systemNextScheduleTimestamp USING_ACURAST job (fetch n)
      = .ok (cutTime USING_ACURAST job fetch n) := by
  have hnonneg : 0 ≤ fetch n := h.clock.trans (h.monotone (Nat.zero_le n))
  unfold systemNextScheduleTimestamp
  rw [if_pos h.periodic, intervalMillis_of_isLong h.millis]
  simp only [if_neg h.millis_pos.ne', nextSlot_eq_wrapLong,
    Int.tdiv_eq_ediv_of_nonneg hnonneg, wrapLong_of_isLong (h.slot n hn)]
  congr 2
  have hmax := max_mul_of_nonneg
    (job.startTimestamp.tdiv (job.millis USING_ACURAST))
    (fetch n / job.millis USING_ACURAST + 1) h.millis_pos.le
  have hstart := job.start_eq USING_ACURAST
  unfold periodAt
  rw [hmax, ← max_add_add_right, ← hstart]
  rfl

theorem flag_eq {T : Int} (hstart : job.startTimestamp ≤ T)
    (hend : T ≤ job.endTimestamp) :
    decide (wrapLong (T + job.interval) > job.endTimestamp) = true ↔
      job.endTimestamp < T + job.interval := by
  have hpos := h.periodic
  obtain ⟨hlo, -⟩ := h.start
  obtain ⟨-, hhi⟩ := h.flag
  rw [wrapLong_of_isLong ⟨by omega, by omega⟩, decide_eq_true_iff]

theorem cutTime_bounds (n : Nat) :
    job.startTimestamp ≤ cutTime USING_ACURAST job fetch n ∧
      cutTime USING_ACURAST job fetch n ≤ job.endTimestamp := by
  have hle : job.startTimestamp.tdiv (job.millis USING_ACURAST)
      ≤ periodAt USING_ACURAST job fetch n := le_max_left ..
  have hmul := Int.mul_le_mul_of_nonneg_right hle h.millis_pos.le
  have hstart := job.start_eq USING_ACURAST
  have hordered := h.ordered
  unfold cutTime cutAt
  omega

theorem fetchRun_succ {n : Nat} {keys : List (String × Int)} (hn : n ≤ last)
    (hcodes : Codes keys (fetchRun USING_ACURAST job fetch n).prefs) :
    (∃ keys', Codes keys' (fetchRun USING_ACURAST job fetch (n + 1)).prefs) ∧
    ∃ p, (fetchRun USING_ACURAST job fetch (n + 1)).placed
        = p :: (fetchRun USING_ACURAST job fetch n).placed ∧
      p.time = cutTime USING_ACURAST job fetch n ∧
      p.extras.isLastReport
        = decide (wrapLong (p.time + job.interval) > job.endTimestamp) := by
  obtain ⟨prefs, flag, hcodes', hschedule⟩ := hcodes.schedule (h.time_eq hn)
  obtain ⟨time, code, htime, hplaced⟩ := schedule_ok hschedule
  rw [h.time_eq hn] at htime
  injection htime with htime
  rw [fetchRun_within (h.fetch_le hn) hschedule]
  exact ⟨⟨_, hcodes'⟩, _, hplaced, htime.symm, rfl⟩

/-- Each fetch up to the end sets one alarm, and no other fetch sets any. -/
theorem placed_iff (n : Nat) :
    (∃ keys, Codes keys (fetchRun USING_ACURAST job fetch n).prefs) ∧
    (∀ T flag, (∃ p ∈ (fetchRun USING_ACURAST job fetch n).placed,
        p.time = T ∧ p.extras.isLastReport = flag) ↔
      ∃ i, i < n ∧ i ≤ last ∧ cutTime USING_ACURAST job fetch i = T ∧
        decide (wrapLong (T + job.interval) > job.endTimestamp) = flag) := by
  induction n with
  | zero =>
      refine ⟨⟨[], .fresh⟩, fun T flag => ⟨?_, ?_⟩⟩
      · intro hgiven
        obtain ⟨p, hp, -⟩ := hgiven
        simp [fetchRun, ScheduleState.fresh] at hp
      · intro hgiven
        obtain ⟨i, hi, -⟩ := hgiven
        omega
  | succ n ih =>
      obtain ⟨⟨keys, hcodes⟩, ih⟩ := ih
      by_cases hn : n ≤ last
      · obtain ⟨hcodes', p, hplaced, htime, hflag⟩ := h.fetchRun_succ hn hcodes
        refine ⟨hcodes', fun T flag => ?_⟩
        rw [hplaced, List.exists_mem_cons_iff, ih T flag]
        constructor
        · rintro (⟨rfl, rfl⟩ | ⟨i, hi, hrest⟩)
          · exact ⟨n, by omega, hn, htime.symm, hflag.symm⟩
          · exact ⟨i, by omega, hrest⟩
        · intro hgiven
          obtain ⟨i, hi, hlast, rfl, rfl⟩ := hgiven
          rcases Nat.lt_succ_iff_lt_or_eq.1 hi with hi | rfl
          · exact .inr ⟨i, hi, hlast, rfl, rfl⟩
          · exact .inl ⟨htime, by rw [hflag, htime]⟩
      · have hpast : ¬ fetch n ≤ job.endTimestamp := fun hle => hn (h.fetch_le_iff.1 hle)
        rw [fetchRun, scheduleV8Execution, if_neg hpast]
        refine ⟨⟨keys, hcodes⟩, fun T flag => (ih T flag).trans ?_⟩
        constructor
        · intro hgiven
          obtain ⟨i, hi, hrest⟩ := hgiven
          exact ⟨i, by omega, hrest⟩
        · intro hgiven
          obtain ⟨i, hi, hlast, hrest⟩ := hgiven
          exact ⟨i, by omega, hlast, hrest⟩

end DenseFetches

/-- The run of fetches schedules an execution at `T`, with this flag. -/
def Schedules (USING_ACURAST : Bool) (job : Job) (fetch : Nat → Int) (T : Int)
    (flag : Bool) : Prop :=
  ∃ n, ∃ p ∈ (fetchRun USING_ACURAST job fetch n).placed,
    p.time = T ∧ p.extras.isLastReport = flag

/-- The flag is on the executions no other is scheduled after, and on one
scheduled time only. -/
def FlagsLast (USING_ACURAST : Bool) (job : Job) (fetch : Nat → Int) : Prop :=
  (∀ T flag, Schedules USING_ACURAST job fetch T flag →
    (flag = true ↔ ∀ T' flag', Schedules USING_ACURAST job fetch T' flag' → T' ≤ T)) ∧
  ∃! T, Schedules USING_ACURAST job fetch T true

namespace DenseFetches

variable (h : DenseFetches USING_ACURAST job fetch last)
include h

theorem schedules_iff {T : Int} {flag : Bool} :
    Schedules USING_ACURAST job fetch T flag ↔
      ∃ i, i ≤ last ∧ cutTime USING_ACURAST job fetch i = T ∧
        decide (job.endTimestamp < T + job.interval) = flag := by
  have hflag : ∀ i, cutTime USING_ACURAST job fetch i = T →
      decide (wrapLong (T + job.interval) > job.endTimestamp)
        = decide (job.endTimestamp < T + job.interval) := by
    rintro i rfl
    obtain ⟨hstart, hend⟩ : job.startTimestamp ≤ cutTime USING_ACURAST job fetch i ∧
        cutTime USING_ACURAST job fetch i ≤ job.endTimestamp := h.cutTime_bounds i
    rw [Bool.eq_iff_iff, h.flag_eq hstart hend, decide_eq_true_iff]
  constructor
  · intro hgiven
    obtain ⟨n, hn⟩ := hgiven
    obtain ⟨i, -, hi, hT, hfl⟩ := ((h.placed_iff n).2 T flag).1 hn
    exact ⟨i, hi, hT, by rw [← hflag i hT, hfl]⟩
  · intro hgiven
    obtain ⟨i, hi, hT, hfl⟩ := hgiven
    exact ⟨i + 1, ((h.placed_iff (i + 1)).2 T flag).2
      ⟨i, by omega, hi, hT, by rw [hflag i hT, hfl]⟩⟩

/-- Of a flag that is on the last time only, there is one. -/
theorem flagsLast_iff : FlagsLast USING_ACURAST job fetch ↔
    ∀ i, i ≤ last →
      (job.endTimestamp < cutTime USING_ACURAST job fetch i + job.interval ↔
        ∀ j, j ≤ last →
          cutTime USING_ACURAST job fetch j ≤ cutTime USING_ACURAST job fetch i) := by
  unfold FlagsLast
  simp only [h.schedules_iff]
  constructor
  · rintro ⟨hlast, -⟩ i hi
    have hi' := hlast _ _ ⟨i, hi, rfl, rfl⟩
    rw [decide_eq_true_iff] at hi'
    rw [hi']
    constructor
    · intro hmax j hj
      exact hmax _ _ ⟨j, hj, rfl, rfl⟩
    · rintro hmax _ _ ⟨j, hj, rfl, -⟩
      exact hmax j hj
  · intro hlast
    refine ⟨?_, cutTime USING_ACURAST job fetch last, ?_, ?_⟩
    · rintro _ _ ⟨i, hi, rfl, rfl⟩
      rw [decide_eq_true_iff, hlast i hi]
      constructor
      · rintro hmax _ _ ⟨j, hj, rfl, -⟩
        exact hmax j hj
      · intro hmax j hj
        exact hmax _ _ ⟨j, hj, rfl, rfl⟩
    · refine ⟨last, Nat.le_refl _, rfl, decide_eq_true_iff.2 ?_⟩
      exact (hlast last (Nat.le_refl _)).2 fun j hj =>
        cutAt_mono h.millis_pos (h.periodAt_mono hj)
    · rintro _ ⟨i, hi, rfl, hflag⟩
      have hmax := (hlast i hi).1 (decide_eq_true_iff.1 hflag) last (Nat.le_refl _)
      have hle : cutTime USING_ACURAST job fetch i ≤ cutTime USING_ACURAST job fetch last :=
        cutAt_mono h.millis_pos (h.periodAt_mono hi)
      omega

end DenseFetches

/-- The flag marks the last scheduled time and no other exactly in two
cases. The last fetch up to the end lies in the last due period or later,
and the last due time is the end, or the first fetch lies there too, or the
last due time is at least `interval` before the end. Or it lies before that
period, and the start or the period after the last fetch's is the last due
one, and that is less than `interval` before the end. -/
theorem isLastReport_iff (h : DenseFetches USING_ACURAST job fetch last) :
    FlagsLast USING_ACURAST job fetch ↔
      if job.lastPeriod USING_ACURAST ≤ fetch last / job.millis USING_ACURAST then
        job.lastDue USING_ACURAST = job.endTimestamp ∨
          job.lastPeriod USING_ACURAST ≤ fetch 0 / job.millis USING_ACURAST ∨
          job.lastDue USING_ACURAST + job.interval ≤ job.endTimestamp
      else
        max (job.startTimestamp.tdiv (job.millis USING_ACURAST))
            (fetch last / job.millis USING_ACURAST + 1)
          = job.lastPeriod USING_ACURAST ∧
        job.endTimestamp < job.lastDue USING_ACURAST + job.interval := by
  rw [h.flagsLast_iff]
  simp only [← h.lastPeriod_lt_periodAt_iff]
  exact near_iff_last h.millis_pos h.periodic h.interval_le h.lastDue_le
    h.lt_lastDue_add (fun i j hij _ => h.periodAt_mono hij)
    (fun i _ => h.periodAt_step i)

/-- Fetches in equal gaps from the epoch on. -/
def evenFetch (gap : Int) (n : Nat) : Int := gap * n

theorem evenFetch_dense {start stop gap : Int} {last : Nat} {job : Job}
    (hinterval : job.interval = 100) (hstart : job.startTimestamp = start)
    (hstop : job.endTimestamp = stop) (hbounds : 0 ≤ start ∧ start ≤ stop ∧ stop < 2 ^ 32)
    (hgap : 0 < gap) (hgap' : gap < job.millis USING_ACURAST)
    (hlast : gap * last ≤ stop) (hpast : stop < gap * last + gap) :
    DenseFetches USING_ACURAST job (evenFetch gap) last where
  periodic := by omega
  ordered := by omega
  clock := by simp [evenFetch]
  monotone := by
    intro i j hij
    exact Int.mul_le_mul_of_nonneg_left (Int.ofNat_le.2 hij) hgap.le
  gap := by
    intro n
    unfold evenFetch
    push_cast
    linarith
  within := by
    rw [hstop]
    exact hlast
  past := by
    rw [hstop]
    unfold evenFetch
    push_cast
    linarith
  millis := by
    unfold Job.millis IsLong
    rw [hinterval]
    split <;> decide
  slot := by
    intro n hn
    have hpos : 0 < job.millis USING_ACURAST := by omega
    have hfetch : evenFetch gap n ≤ gap * last :=
      Int.mul_le_mul_of_nonneg_left (Int.ofNat_le.2 hn) hgap.le
    have hnonneg : 0 ≤ evenFetch gap n := Int.mul_nonneg hgap.le (Int.natCast_nonneg n)
    have hdiv := Int.ediv_mul_le (evenFetch gap n) hpos.ne'
    have hdivpos := Int.mul_nonneg (Int.ediv_nonneg hnonneg hpos.le) hpos.le
    have hmod := Int.tmod_lt_of_pos job.startTimestamp hpos
    have hmodpos := Int.tmod_nonneg (job.millis USING_ACURAST)
      (show 0 ≤ job.startTimestamp by omega)
    have hmillis : job.millis USING_ACURAST ≤ 100000 := by
      unfold Job.millis
      rw [hinterval]
      split <;> decide
    rw [Int.add_mul, Int.one_mul]
    exact ⟨by omega, by omega⟩
  start := by
    rw [hstart]
    exact ⟨by omega, by omega⟩
  flag := by
    rw [hstop, hinterval]
    exact ⟨by omega, by omega⟩

theorem isLastReport_hundred :
    DenseFetches true (hundredJob 0 200) (evenFetch 50) 4 ∧
      FlagsLast true (hundredJob 0 200) (evenFetch 50) := by
  have h : DenseFetches true (hundredJob 0 200) (evenFetch 50) 4 :=
    evenFetch_dense rfl rfl rfl (by decide) (by decide) (by decide) (by decide)
      (by decide)
  refine ⟨h, (isLastReport_iff h).2 ?_⟩
  rw [if_pos (by decide)]
  exact .inl (by decide)

/-- A job due at 0, 100 and 200 that ends at 250 is flagged at 200 and
scheduled once more, at 250. A job of 100 seconds due at 30 and 130 seconds
that ends at 150, fetched at 0 and 90 seconds, is never flagged. -/
theorem isLastReport_wrong :
    (DenseFetches true (hundredJob 0 250) (evenFetch 50) 5 ∧
      Schedules true (hundredJob 0 250) (evenFetch 50) 200 true ∧
      Schedules true (hundredJob 0 250) (evenFetch 50) 250 true ∧
      ¬ FlagsLast true (hundredJob 0 250) (evenFetch 50)) ∧
    (DenseFetches false (hundredJob 30000 150000) (evenFetch 90000) 1 ∧
      (∀ T, ¬ Schedules false (hundredJob 30000 150000) (evenFetch 90000) T true) ∧
      ¬ FlagsLast false (hundredJob 30000 150000) (evenFetch 90000)) := by
  have hacurast : DenseFetches true (hundredJob 0 250) (evenFetch 50) 5 :=
    evenFetch_dense rfl rfl rfl (by decide) (by decide) (by decide) (by decide)
      (by decide)
  have hseconds : DenseFetches false (hundredJob 30000 150000) (evenFetch 90000) 1 :=
    evenFetch_dense rfl rfl rfl (by decide) (by decide) (by decide) (by decide)
      (by decide)
  have hnever : ∀ T, ¬ Schedules false (hundredJob 30000 150000) (evenFetch 90000) T
      true := by
    intro T h
    obtain ⟨i, hi, rfl, hflag⟩ := hseconds.schedules_iff.1 h
    interval_cases i <;> exact absurd hflag (by decide)
  have h200 : Schedules true (hundredJob 0 250) (evenFetch 50) 200 true :=
    hacurast.schedules_iff.2 ⟨2, by decide, by decide, by decide⟩
  have h250 : Schedules true (hundredJob 0 250) (evenFetch 50) 250 true :=
    hacurast.schedules_iff.2 ⟨5, by decide, by decide, by decide⟩
  refine ⟨⟨hacurast, h200, h250, fun h => ?_⟩, hseconds, hnever, fun h => ?_⟩
  · have hle := (h.1 200 true h200).1 rfl 250 true h250
    exact absurd hle (by decide)
  · obtain ⟨T, hT, -⟩ := h.2
    exact hnever T hT

end DataProcessor
