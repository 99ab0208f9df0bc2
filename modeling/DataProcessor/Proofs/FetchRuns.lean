import DataProcessor.Lib.Periods
import DataProcessor.Proofs.RequestCodes

/-!
# Which executions of a periodic job the fetches bring about

A job is fetched again and again, and every fetch sets an alarm for the next
slot after the period the clock is in. A fetch's alarm fires: until its time
has come at most one later slot is given a request code, so nothing takes
the alarm over. The times that fire are therefore the times computed at the
fetches, `firedAt_iff`, and `fires_iff` says when these are the due ones. A
period without a fetch loses the execution of the period after it, and a
first fetch in the start's own period loses the start.
-/

namespace DataProcessor

open Lib Scheduler

/-! ## Keys that do not come back -/

/-- The keys of the first calls, in the order they came. -/
def keysSeen (key : Nat → String × Int) : Nat → List (String × Int)
  | 0 => []
  | n + 1 => insertKey (keysSeen key n) (key n)

section

variable {key : Nat → String × Int} {i j m n : Nat}

theorem mem_keysSeen {k : String × Int} :
    k ∈ keysSeen key n ↔ ∃ i, i < n ∧ key i = k := by
  induction n with
  | zero => simp [keysSeen]
  | succ n ih =>
      rw [keysSeen, mem_insertKey, ih]
      constructor
      · rintro (⟨i, hi, rfl⟩ | rfl)
        · exact ⟨i, by omega, rfl⟩
        · exact ⟨n, by omega, rfl⟩
      · intro hgiven
        obtain ⟨i, hi, rfl⟩ := hgiven
        rcases Nat.lt_succ_iff_lt_or_eq.1 hi with hi | rfl
        · exact .inl ⟨i, hi, rfl⟩
        · exact .inr rfl

theorem nodup_keysSeen : (keysSeen key n).Nodup := by
  induction n with
  | zero => exact List.nodup_nil
  | succ n ih => exact nodup_insertKey ih _

theorem idxOf_keysSeen (h : i ≤ m) :
    (keysSeen key (m + 1)).idxOf (key i) = (keysSeen key (i + 1)).idxOf (key i) := by
  induction m, h using Nat.le_induction with
  | base => rfl
  | succ m h ih =>
      have hmem : key i ∈ keysSeen key (m + 1) := mem_keysSeen.2 ⟨i, by omega, rfl⟩
      rw [keysSeen, idxOf_insertKey hmem, ih]

variable (hback : ∀ i j k, i ≤ j → j ≤ k → key i = key k → key j = key k)
include hback

theorem idxOf_last : (keysSeen key (n + 1)).idxOf (key n) + 1
    = (keysSeen key (n + 1)).length := by
  induction n with
  | zero => simp [keysSeen, insertKey]
  | succ n ih =>
      rw [keysSeen]
      unfold insertKey
      split
      · next hmem =>
          obtain ⟨i, hi, heq⟩ := mem_keysSeen.1 hmem
          have hlast : key n = key (n + 1) := hback i n (n + 1) (by omega) (by omega) heq
          rw [← hlast]
          exact ih
      · next hnew =>
          rw [List.idxOf_append_of_notMem hnew]
          simp

/-- With no third key in between, a newer key is in the next place. -/
theorem idxOf_next (h : n ≤ m) (hne : key n ≠ key m)
    (htwo : ∀ j, n ≤ j → j ≤ m → key j = key n ∨ key j = key m) :
    (keysSeen key (m + 1)).idxOf (key m) = (keysSeen key (n + 1)).idxOf (key n) + 1 := by
  have hsub : keysSeen key (m + 1) ⊆ keysSeen key (n + 1) ++ [key m] := by
    intro k hk
    obtain ⟨j, hj, rfl⟩ := mem_keysSeen.1 hk
    rw [List.mem_append, List.mem_singleton]
    by_cases hjn : j ≤ n
    · exact .inl (mem_keysSeen.2 ⟨j, by omega, rfl⟩)
    · rcases htwo j (by omega) (by omega) with heq | heq
      · exact .inl (mem_keysSeen.2 ⟨n, by omega, heq.symm⟩)
      · exact .inr heq
  have hlength := (List.subperm_of_subset nodup_keysSeen hsub).length_le
  rw [List.length_append, List.length_singleton] at hlength
  have hm := idxOf_last (n := m) hback
  have hn := idxOf_last (n := n) hback
  have hmem : key n ∈ keysSeen key (m + 1) := mem_keysSeen.2 ⟨n, by omega, rfl⟩
  have hlt := List.idxOf_lt_length_of_mem hmem
  have hidx : (keysSeen key (m + 1)).idxOf (key n) ≠ (keysSeen key (m + 1)).idxOf (key m) :=
    fun heq => hne ((List.idxOf_inj hmem).1 heq)
  rw [idxOf_keysSeen h] at hlt hidx
  omega

end

/-! ## The time a fetch computes -/

def Job.millis (USING_ACURAST : Bool) (job : Job) : Int :=
  if USING_ACURAST then job.interval else job.interval * 1000

/-- However the steps wrap around, their sum wraps around once. -/
theorem nextSlot_eq_wrapLong (start millis now : Int) :
    nextSlot start millis now
      = wrapLong ((now.tdiv millis + 1) * millis + start.tmod millis) := by
  simp only [nextSlot, wrapLong, Int.bmod_add_bmod, Int.bmod_mul_bmod]

theorem intervalMillis_of_isLong {USING_ACURAST : Bool} {job : Job}
    (h : IsLong (job.millis USING_ACURAST)) :
    intervalMillis USING_ACURAST job.interval = job.millis USING_ACURAST := by
  unfold intervalMillis Job.millis at *
  split
  · rfl
  · next hseconds =>
      rw [if_neg hseconds] at h
      exact wrapLong_of_isLong h

theorem Job.millis_pos {job : Job} (USING_ACURAST : Bool) (h : 0 < job.interval) :
    0 < job.millis USING_ACURAST := by
  unfold Job.millis
  split <;> omega

/-- What is computed where nothing is negative and nothing overflows. -/
theorem time_eq_dueAfter {USING_ACURAST : Bool} {job : Job} {now : Int}
    (hperiodic : 0 < job.interval) (hepoch : 0 ≤ job.startTimestamp) (hclock : 0 ≤ now)
    (hmillis : IsLong (job.millis USING_ACURAST))
    (hslot : IsLong (nextInPhase job.startTimestamp (job.millis USING_ACURAST) now)) :
    systemNextScheduleTimestamp USING_ACURAST job now
      = .ok (dueAfter job.startTimestamp job.endTimestamp
        (job.millis USING_ACURAST) now) := by
  have hpos := job.millis_pos USING_ACURAST hperiodic
  unfold systemNextScheduleTimestamp
  rw [if_pos hperiodic, intervalMillis_of_isLong hmillis]
  simp only [if_neg hpos.ne', nextSlot_eq_wrapLong,
    Int.tdiv_eq_ediv_of_nonneg hclock, Int.tmod_eq_emod_of_nonneg hepoch]
  rw [← nextInPhase, wrapLong_of_isLong hslot]
  rfl

/-- A periodic job, fetched from before its start on, with no gap of more
than a minute and no overflow. The clock counts from the epoch. -/
structure PeriodicFetches (USING_ACURAST : Bool) (job : Job) (fetch : Nat → Int) :
    Prop where
  periodic : 0 < job.interval
  ordered : job.startTimestamp ≤ job.endTimestamp
  clock : 0 ≤ fetch 0
  before : fetch 0 < job.startTimestamp
  increasing : StrictMono fetch
  gap : ∀ n, fetch (n + 1) ≤ fetch n + Constants.JOB_FETCHER_SCHEDULE_INTERVAL
  millis : IsLong (job.millis USING_ACURAST)
  slot : ∀ n, fetch n ≤ job.endTimestamp →
    IsLong (nextInPhase job.startTimestamp (job.millis USING_ACURAST) (fetch n))

theorem scheduleFetcher_eq {now : Int} (hnow : 0 ≤ now) (hlong : now + 75000 < 2 ^ 63) :
    scheduleFetcher now = (now / 60000 + 1) * 60000 + 15000 := by
  unfold scheduleFetcher Constants.JOB_FETCHER_SCHEDULE_INTERVAL
    Constants.JOB_FETCHER_SCHEDULE_SHIFT
  rw [Int.tdiv_eq_ediv_of_nonneg hnow]
  have hnext : IsLong (now / (1 * 60 * 1000) + 1) := ⟨by omega, by omega⟩
  have hperiod : IsLong ((now / (1 * 60 * 1000) + 1) * (1 * 60 * 1000)) :=
    ⟨by omega, by omega⟩
  simp only [wrapLong_of_isLong hnext, wrapLong_of_isLong hperiod]
  rw [wrapLong_of_isLong ⟨by omega, by omega⟩]
  omega

/-- `scheduleFetcher` keeps to that gap, from its first alarm on. -/
theorem scheduleFetcher_gap {now : Int} (hnow : 0 ≤ now) (hlong : now + 150000 < 2 ^ 63) :
    scheduleFetcher (scheduleFetcher now)
      = scheduleFetcher now + Constants.JOB_FETCHER_SCHEDULE_INTERVAL := by
  have hfirst := scheduleFetcher_eq hnow (by omega)
  rw [scheduleFetcher_eq (by omega) (by omega), hfirst]
  unfold Constants.JOB_FETCHER_SCHEDULE_INTERVAL
  omega

variable {USING_ACURAST : Bool} {job : Job} {fetch : Nat → Int}

/-- What is computed at the `n`th fetch. -/
def dueAt (USING_ACURAST : Bool) (job : Job) (fetch : Nat → Int) (n : Nat) : Int :=
  dueAfter job.startTimestamp job.endTimestamp (job.millis USING_ACURAST) (fetch n)

namespace PeriodicFetches

theorem millis_pos (h : PeriodicFetches USING_ACURAST job fetch) :
    0 < job.millis USING_ACURAST :=
  job.millis_pos USING_ACURAST h.periodic

theorem nonneg (h : PeriodicFetches USING_ACURAST job fetch) (n : Nat) : 0 ≤ fetch n :=
  h.clock.trans (h.increasing.monotone (Nat.zero_le n))

theorem systemNextScheduleTimestamp_eq (h : PeriodicFetches USING_ACURAST job fetch)
    {n : Nat} (hn : fetch n ≤ job.endTimestamp) :
    systemNextScheduleTimestamp USING_ACURAST job (fetch n)
      = .ok (dueAt USING_ACURAST job fetch n) :=
  time_eq_dueAfter h.periodic (h.clock.trans h.before.le) (h.nonneg n) h.millis (h.slot n hn)

theorem dueAt_mono (h : PeriodicFetches USING_ACURAST job fetch) {i j : Nat}
    (hij : i ≤ j) : dueAt USING_ACURAST job fetch i ≤ dueAt USING_ACURAST job fetch j :=
  dueAfter_mono h.millis_pos (h.increasing.monotone hij)

theorem le_dueAt (h : PeriodicFetches USING_ACURAST job fetch) {n : Nat}
    (hn : fetch n ≤ job.endTimestamp) : fetch n ≤ dueAt USING_ACURAST job fetch n :=
  le_dueAfter h.millis_pos hn

end PeriodicFetches

/-! ## Runs of fetches -/

/-- What the `n`th fetch draws its request code for. -/
def fetchKey (USING_ACURAST : Bool) (job : Job) (fetch : Nat → Int) (n : Nat) :
    String × Int :=
  (job.ipfsUri, dueAt USING_ACURAST job fetch n)

def fetchCode (USING_ACURAST : Bool) (job : Job) (fetch : Nat → Int) (n : Nat) : Int32 :=
  Int32.ofNat ((keysSeen (fetchKey USING_ACURAST job fetch) (n + 1)).idxOf
    (fetchKey USING_ACURAST job fetch n))

theorem fetchRun_within {n : Nat} {s : ScheduleState} (hn : fetch n ≤ job.endTimestamp)
    (h : schedule USING_ACURAST job (fetch n) (fetchRun USING_ACURAST job fetch n) = .ok s) :
    fetchRun USING_ACURAST job fetch (n + 1) = s := by
  rw [fetchRun, scheduleV8Execution, if_pos hn]
  simp only [h, Except.toOption, Option.getD_some]

theorem fetchKey_inj {i j : Nat} :
    fetchKey USING_ACURAST job fetch i = fetchKey USING_ACURAST job fetch j ↔
      dueAt USING_ACURAST job fetch i = dueAt USING_ACURAST job fetch j := by
  simp [fetchKey]

namespace PeriodicFetches

theorem fetchKey_back (h : PeriodicFetches USING_ACURAST job fetch) (i j k : Nat)
    (hij : i ≤ j) (hjk : j ≤ k)
    (heq : fetchKey USING_ACURAST job fetch i = fetchKey USING_ACURAST job fetch k) :
    fetchKey USING_ACURAST job fetch j = fetchKey USING_ACURAST job fetch k := by
  rw [fetchKey_inj] at heq ⊢
  have hlo := h.dueAt_mono hij
  have hhi := h.dueAt_mono hjk
  omega

theorem fetchRun_succ (h : PeriodicFetches USING_ACURAST job fetch) {n : Nat}
    (hn : fetch n ≤ job.endTimestamp)
    (hcodes : Codes (keysSeen (fetchKey USING_ACURAST job fetch) n)
      (fetchRun USING_ACURAST job fetch n).prefs) :
    Codes (keysSeen (fetchKey USING_ACURAST job fetch) (n + 1))
        (fetchRun USING_ACURAST job fetch (n + 1)).prefs ∧
      (fetchRun USING_ACURAST job fetch (n + 1)).alarms
        = Function.update (fetchRun USING_ACURAST job fetch n).alarms
            (fetchCode USING_ACURAST job fetch n)
            (some (dueAt USING_ACURAST job fetch n)) := by
  obtain ⟨prefs, isLastReport, hcodes', hschedule⟩ :=
    hcodes.schedule (h.systemNextScheduleTimestamp_eq hn)
  rw [fetchRun_within hn hschedule]
  exact ⟨hcodes', rfl⟩

theorem fetchRun_past (n : Nat) (hn : job.endTimestamp < fetch n) :
    fetchRun USING_ACURAST job fetch (n + 1) = fetchRun USING_ACURAST job fetch n := by
  rw [fetchRun, scheduleV8Execution, if_neg (by simpa using hn)]

theorem codes (h : PeriodicFetches USING_ACURAST job fetch) {n : Nat}
    (hn : fetch n ≤ job.endTimestamp) :
    Codes (keysSeen (fetchKey USING_ACURAST job fetch) n)
      (fetchRun USING_ACURAST job fetch n).prefs := by
  induction n with
  | zero => exact .fresh
  | succ n ih =>
      have hle : fetch n ≤ job.endTimestamp := by
        have hstep : fetch n < fetch (n + 1) := h.increasing (Nat.lt_succ_self n)
        omega
      exact (h.fetchRun_succ hle (ih hle)).1

/-- Until its time, at most one other code is drawn after a fetch's. -/
theorem fetchCode_ne (h : PeriodicFetches USING_ACURAST job fetch) {i m : Nat}
    (him : i ≤ m) (hm : fetch m ≤ dueAt USING_ACURAST job fetch i)
    (hne : dueAt USING_ACURAST job fetch i ≠ dueAt USING_ACURAST job fetch m) :
    fetchCode USING_ACURAST job fetch i ≠ fetchCode USING_ACURAST job fetch m := by
  have htwo : ∀ j, i ≤ j → j ≤ m →
      fetchKey USING_ACURAST job fetch j = fetchKey USING_ACURAST job fetch i ∨
      fetchKey USING_ACURAST job fetch j = fetchKey USING_ACURAST job fetch m := by
    intro j hij hjm
    rw [fetchKey_inj, fetchKey_inj]
    by_cases hsame : dueAt USING_ACURAST job fetch j = dueAt USING_ACURAST job fetch i
    · exact .inl hsame
    · have hlo := h.dueAt_mono hij
      have hhi := h.dueAt_mono hjm
      have hlt : dueAt USING_ACURAST job fetch i < dueAt USING_ACURAST job fetch j := by omega
      have hle : dueAt USING_ACURAST job fetch m ≤ dueAt USING_ACURAST job fetch j :=
        dueAfter_le_of_lt h.millis_pos hlt hm
      exact .inr (by omega)
  have hnext := idxOf_next h.fetchKey_back him (fun heq => hne (fetchKey_inj.1 heq)) htwo
  intro hcode
  have hmod := mod_eq_of_int32_ofNat_eq hcode
  rw [hnext] at hmod
  omega

/-- An alarm whose time has not come is still set. -/
theorem alarm_pending (h : PeriodicFetches USING_ACURAST job fetch) {m : Nat}
    (hend : fetch m ≤ job.endTimestamp) {i : Nat} (him : i ≤ m)
    (hm : fetch m ≤ dueAt USING_ACURAST job fetch i) :
    (fetchRun USING_ACURAST job fetch (m + 1)).alarms (fetchCode USING_ACURAST job fetch i)
      = some (dueAt USING_ACURAST job fetch i) := by
  induction m with
  | zero =>
      obtain rfl : i = 0 := by omega
      rw [(h.fetchRun_succ hend (h.codes hend)).2, Function.update_self]
  | succ m ih =>
      rw [(h.fetchRun_succ hend (h.codes hend)).2]
      by_cases hsame : dueAt USING_ACURAST job fetch i = dueAt USING_ACURAST job fetch (m + 1)
      · have hkey := fetchKey_inj.2 hsame
        have hcode : fetchCode USING_ACURAST job fetch i
            = fetchCode USING_ACURAST job fetch (m + 1) := by
          unfold fetchCode
          rw [← idxOf_keysSeen him, hkey]
        rw [hcode, hsame, Function.update_self]
      · have hlt : i ≠ m + 1 := fun heq => hsame (by rw [heq])
        have hstep : fetch m < fetch (m + 1) := h.increasing (Nat.lt_succ_self m)
        rw [Function.update_of_ne (h.fetchCode_ne him hm hsame)]
        exact ih (by omega) (by omega) (by omega)

/-- Nothing else is ever set. -/
theorem alarm_due (h : PeriodicFetches USING_ACURAST job fetch) {n : Nat} {c : Int32}
    {T : Int} (hset : (fetchRun USING_ACURAST job fetch n).alarms c = some T) :
    ∃ i, fetch i ≤ job.endTimestamp ∧ dueAt USING_ACURAST job fetch i = T := by
  induction n with
  | zero => simp [fetchRun, ScheduleState.fresh] at hset
  | succ n ih =>
      by_cases hn : fetch n ≤ job.endTimestamp
      · rw [(h.fetchRun_succ hn (h.codes hn)).2] at hset
        by_cases hc : c = fetchCode USING_ACURAST job fetch n
        · rw [hc, Function.update_self] at hset
          injection hset with hset
          exact ⟨n, hn, hset⟩
        · rw [Function.update_of_ne hc] at hset
          exact ih hset
      · rw [fetchRun_past n (by omega)] at hset
        exact ih hset

theorem firedAt_iff (h : PeriodicFetches USING_ACURAST job fetch) {T : Int} :
    FiredAt USING_ACURAST job fetch T ↔
      ∃ n, fetch n ≤ job.endTimestamp ∧ dueAt USING_ACURAST job fetch n = T := by
  constructor
  · intro hgiven
    obtain ⟨n, c, hset, _⟩ := hgiven
    exact h.alarm_due hset
  · intro hgiven
    obtain ⟨n, hn, rfl⟩ := hgiven
    obtain ⟨m, hnm, hm, hlast⟩ := exists_last_le h.increasing (h.le_dueAt hn)
    have hend : fetch m ≤ job.endTimestamp := hm.trans dueAfter_le
    exact ⟨m, _, h.alarm_pending hend hnm hm, hm, hlast.le⟩

end PeriodicFetches

/-- Executions happen at the due times and no others exactly where every
fetch up to the end lies in an earlier period than the last due time, the
period before each later due time has a fetch, and some fetch lies in a
period before the start's. -/
theorem fires_iff (h : PeriodicFetches USING_ACURAST job fetch) :
    (∀ T, FiredAt USING_ACURAST job fetch T ↔
      ∃ k : Nat, T = job.startTimestamp + k * job.millis USING_ACURAST ∧
        T < job.endTimestamp) ↔
    LooksFit job.startTimestamp job.endTimestamp (job.millis USING_ACURAST) fetch := by
  simp only [h.firedAt_iff]
  exact dueAfter_range_iff h.millis_pos

def minuteJob (startTimestamp endTimestamp : Int) : Job where
  ipfsUri := "ipfs://script"
  requester := []
  startTimestamp := startTimestamp
  endTimestamp := endTimestamp
  interval := 60
  fee := 0
  gasLimit := 0
  storageLimit := 0

/-- `scheduleFetcher`'s instants: 15 seconds into every minute. -/
def minuteFetch (n : Nat) : Int := 75000 + 60000 * n

theorem minuteFetches {start stop : Int} (hstart : 75000 < start) (hle : start ≤ stop)
    (hstop : stop ≤ 1000000) : PeriodicFetches false (minuteJob start stop) minuteFetch where
  periodic := show (0 : Int) < 60 by decide
  ordered := hle
  clock := by decide
  before := hstart
  increasing := by
    intro i j hij
    unfold minuteFetch
    omega
  gap := by
    intro n
    unfold minuteFetch Constants.JOB_FETCHER_SCHEDULE_INTERVAL
    omega
  millis := show IsLong (60 * 1000) by decide
  slot := by
    intro n hn
    change minuteFetch n ≤ stop at hn
    show IsLong (nextInPhase start 60000 (minuteFetch n))
    unfold IsLong nextInPhase minuteFetch at *
    constructor <;> omega

theorem fires_iff_two_minutes :
    PeriodicFetches false (minuteJob 120000 180001) minuteFetch ∧
    ∀ T, FiredAt false (minuteJob 120000 180001) minuteFetch T ↔
      ∃ k : Nat, T = 120000 + k * 60000 ∧ T < 180001 := by
  have hfetches : PeriodicFetches false (minuteJob 120000 180001) minuteFetch :=
    minuteFetches (by decide) (by decide) (by decide)
  refine ⟨hfetches, (fires_iff hfetches).2 ⟨?_, ?_⟩⟩
  · intro n hn
    change minuteFetch n ≤ 180001 at hn
    refine ⟨1, by decide, ?_⟩
    show minuteFetch n / 60000 < 120000 / 60000 + 1
    unfold minuteFetch at *
    omega
  · intro k hk
    change (120000 : Int) + k * 60000 < 180001 at hk
    refine ⟨k, ?_, ?_⟩
    · show minuteFetch k ≤ 180001
      unfold minuteFetch
      omega
    · show if k = 0 then minuteFetch k / 60000 < 120000 / 60000
        else minuteFetch k / 60000 + 1 = 120000 / 60000 + k
      unfold minuteFetch
      split <;> omega

/-- The first fetch before a start at 90000 lies in the start's own minute:
the first execution is a minute late. -/
theorem start_missed :
    PeriodicFetches false (minuteJob 90000 300000) minuteFetch ∧
    ¬ ∀ T, FiredAt false (minuteJob 90000 300000) minuteFetch T ↔
      ∃ k : Nat, T = 90000 + k * 60000 ∧ T < 300000 := by
  have hfetches : PeriodicFetches false (minuteJob 90000 300000) minuteFetch :=
    minuteFetches (by decide) (by decide) (by decide)
  refine ⟨hfetches, ?_⟩
  intro h
  obtain ⟨n, _, hdue⟩ := hfetches.firedAt_iff.1 ((h 90000).2 ⟨0, by decide, by decide⟩)
  change min (max 90000 (nextInPhase 90000 60000 (minuteFetch n))) 300000 = 90000 at hdue
  unfold nextInPhase minuteFetch at hdue
  omega

end DataProcessor
