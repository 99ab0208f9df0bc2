import DataProcessor.Model.Android

/-!
# Setting a job's next alarm (`utils/Scheduler.kt`)

Every fetch calls `scheduleV8Execution` for every assigned job. It computes
one time from the clock, the job's start, end and interval, looks up or
draws a request code for the URI and that time, and sets the alarm. The
request code is the identity of the `PendingIntent`: a second one with the
same code takes over the first one's extras and its alarm.

All timestamps are Kotlin `Long`s, kept as integers with every operation's
wrap-around. Next to the store and the alarm manager the state records each
alarm as it was set.
-/

namespace DataProcessor

namespace Constants

def NEXT_REQUEST_COUNTER_KEY : String := "next_request_counter"
def JOB_FETCHER_SCHEDULE_INTERVAL : Int := 1 * 60 * 1000
def JOB_FETCHER_SCHEDULE_SHIFT : Int := 15 * 1000

end Constants

/-- When `scheduleFetcher` has the jobs fetched next. -/
def Scheduler.scheduleFetcher (now : Int) : Int :=
  let nextPeriod := wrapLong (wrapLong (now.tdiv Constants.JOB_FETCHER_SCHEDULE_INTERVAL + 1)
    * Constants.JOB_FETCHER_SCHEDULE_INTERVAL)
  wrapLong (nextPeriod + Constants.JOB_FETCHER_SCHEDULE_SHIFT)

structure Job where
  ipfsUri : String
  requester : Bytes
  startTimestamp : Int
  endTimestamp : Int
  interval : Int
  fee : Int
  gasLimit : Int
  storageLimit : Int
  deriving DecidableEq

/-- The extras of the execution's intent. -/
structure Extras extends Job where
  isLastReport : Bool
  deriving DecidableEq

/-- An alarm as it was set. -/
structure Placed where
  requestCode : Int32
  time : Int
  extras : Extras
  deriving DecidableEq

structure ScheduleState where
  prefs : SharedPreferences
  /-- The extras of the `PendingIntent` of each request code. -/
  extras : Int32 → Option Extras
  /-- The time the alarm of each request code is set for. -/
  alarms : Int32 → Option Int
  placed : List Placed

def ScheduleState.fresh : ScheduleState where
  prefs := SharedPreferences.empty
  extras := fun _ => none
  alarms := fun _ => none
  placed := []

namespace Scheduler

/-- An interval comes in milliseconds from Acurast, in seconds else. -/
def intervalMillis (USING_ACURAST : Bool) (interval : Int) : Int :=
  if USING_ACURAST then interval else wrapLong (interval * 1000)

/-- The slot after the current period, in the phase of the start. -/
def nextSlot (start intervalMillis now : Int) : Int :=
  let timeShiftMillis := start.tmod intervalMillis
  let nextPeriod := wrapLong (wrapLong (now.tdiv intervalMillis + 1) * intervalMillis)
  wrapLong (nextPeriod + timeShiftMillis)

def systemNextScheduleTimestamp (USING_ACURAST : Bool) (job : Job) (now : Int) :
    Result Int :=
  if job.interval > 0 then
    let millis := intervalMillis USING_ACURAST job.interval
    -- Division and remainder by zero raise.
    if millis = 0 then .error .arithmetic
    else .ok (min (max job.startTimestamp (nextSlot job.startTimestamp millis now))
      job.endTimestamp)
  else .ok job.startTimestamp

def counterKey (ipfsUri : String) (time : Int) : String :=
  ipfsUri ++ "_" ++ toString time

/-- The code of a key, and the store afterwards. -/
def requestCode (prefs : SharedPreferences) (counterKey : String) :
    Result (Int32 × SharedPreferences) := do
  let nextRequestCounter ← prefs.getInt Constants.NEXT_REQUEST_COUNTER_KEY 0
  if prefs.contains counterKey then
    let code ← prefs.getInt counterKey nextRequestCounter
    return (code, prefs)
  else
    return (nextRequestCounter,
      (prefs.put counterKey (.int nextRequestCounter)).put
        Constants.NEXT_REQUEST_COUNTER_KEY (.int (nextRequestCounter + 1)))

/-- The success callback of `resolveUri`. -/
def schedule (USING_ACURAST : Bool) (job : Job) (now : Int) (s : ScheduleState) :
    Result ScheduleState := do
  let time ← systemNextScheduleTimestamp USING_ACURAST job now
  let (code, prefs) ← requestCode s.prefs (counterKey job.ipfsUri time)
  let isLastReport := decide (wrapLong (time + job.interval) > job.endTimestamp)
  let extras : Extras := { toJob := job, isLastReport := isLastReport }
  return {
    prefs := prefs
    extras := Function.update s.extras code (some extras)
    alarms := Function.update s.alarms code (some time)
    placed := { requestCode := code, time := time, extras := extras } :: s.placed }

end Scheduler

/-- One call: the clock when it starts, and when `resolveUri` calls back, if
it does. -/
structure ScheduleCall where
  job : Job
  now : Int
  resolvedAt : Option Int

/-- `scheduleV8Execution`. A callback that raises has written nothing. -/
def Scheduler.scheduleV8Execution (USING_ACURAST : Bool) (s : ScheduleState)
    (call : ScheduleCall) : ScheduleState :=
  if call.job.endTimestamp ≥ call.now then
    match call.resolvedAt with
    | some now => (schedule USING_ACURAST call.job now s).toOption.getD s
    | none => s
  else s

/-- The state after the first fetches of one job, at instants at which its
script is cached. -/
def Scheduler.fetchRun (USING_ACURAST : Bool) (job : Job) (fetch : Nat → Int) :
    Nat → ScheduleState
  | 0 => ScheduleState.fresh
  | n + 1 => scheduleV8Execution USING_ACURAST (fetchRun USING_ACURAST job fetch n)
      { job := job, now := fetch n, resolvedAt := some (fetch n) }

/-- An alarm is set for `T` when the clock gets there. -/
def Scheduler.FiredAt (USING_ACURAST : Bool) (job : Job) (fetch : Nat → Int)
    (T : Int) : Prop :=
  ∃ n requestCode,
    (fetchRun USING_ACURAST job fetch (n + 1)).alarms requestCode = some T ∧
      fetch n ≤ T ∧ T ≤ fetch (n + 1)

end DataProcessor
