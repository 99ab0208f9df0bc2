import DataProcessor.Lib.Transition
import DataProcessor.Model.Scheduler

/-!
# From alarms to executions

What becomes of one job's alarms: the fetcher calls `scheduleV8Execution`,
which checks the clock and has the script resolved; the callback sets an
alarm; the alarm goes off; and the service resolves the script once more and
starts it. Resolving takes no time where the script is cached, and any time
else.

An alarm goes off at its time, or at once where that is past: the clock does
not move on over an alarm that is set.
-/

namespace DataProcessor

open Lib

structure Execution where
  /-- The time its alarm was set for. -/
  time : Int
  startedAt : Int
  deriving DecidableEq

structure ExecutionState where
  schedule : ScheduleState
  clock : Int
  /-- Calls of `scheduleV8Execution` that wait for the script. -/
  resolving : Nat
  /-- The alarms that have gone off, whose services wait for the script. -/
  waiting : List Int
  executions : List Execution

inductive ExecutionAction
  /-- The fetcher finds the job. -/
  | fetch
  /-- The script of a call comes, or does not. -/
  | resolve
  | loseScript
  | tick (now : Int)
  /-- The alarm with this code goes off. -/
  | fire (requestCode : Int32) (cached : Bool)
  /-- The script of a service comes, or does not. -/
  | serve (i : Nat)
  | giveUp (i : Nat)
  deriving DecidableEq

namespace ExecutionState

variable (USING_ACURAST : Bool) (job : Job) (s : ExecutionState)

/-- No alarm is set for a time before `now`. -/
def Quiet (now : Int) : Prop :=
  ∀ p ∈ s.schedule.placed, ∀ time ∈ s.schedule.alarms p.requestCode, now ≤ time

instance (now : Int) : Decidable (s.Quiet now) :=
  inferInstanceAs (Decidable (∀ p ∈ s.schedule.placed, _))

def clearAlarm (requestCode : Int32) : ScheduleState :=
  { s.schedule with alarms := Function.update s.schedule.alarms requestCode none }

def step : ExecutionAction → Option ExecutionState
  | .fetch =>
      if job.endTimestamp ≥ s.clock then some { s with resolving := s.resolving + 1 }
      else some s
  | .resolve =>
      if s.resolving = 0 then none
      else some { s with
        resolving := s.resolving - 1
        schedule := (Scheduler.schedule USING_ACURAST job s.clock s.schedule).toOption.getD
          s.schedule }
  | .loseScript =>
      if s.resolving = 0 then none else some { s with resolving := s.resolving - 1 }
  | .tick now =>
      if s.clock ≤ now ∧ s.Quiet now then some { s with clock := now } else none
  | .fire requestCode cached =>
      match s.schedule.alarms requestCode with
      | some time =>
          if s.clock < time then none
          else if cached then some { s with
            schedule := s.clearAlarm requestCode
            executions := { time := time, startedAt := s.clock } :: s.executions }
          else some { s with
            schedule := s.clearAlarm requestCode
            waiting := time :: s.waiting }
      | none => none
  | .serve i =>
      s.waiting[i]?.map fun time => { s with
        waiting := s.waiting.eraseIdx i
        executions := { time := time, startedAt := s.clock } :: s.executions }
  | .giveUp i =>
      if i < s.waiting.length then some { s with waiting := s.waiting.eraseIdx i }
      else none

/-- Every time an alarm has gone off for. -/
def fired : List Int := s.executions.map Execution.time ++ s.waiting

/-- The app is installed, and nothing has happened. -/
def Installed : Prop :=
  s.schedule = ScheduleState.fresh ∧ 0 ≤ s.clock ∧ s.resolving = 0 ∧ s.waiting = [] ∧
    s.executions = []

/-- A fetch, and the callback at some later time: what the state of the
schedule becomes is what `scheduleV8Execution` makes of it. -/
theorem schedule_of_call {resolvedAt : Int} {t u v : ExecutionState}
    (hend : s.clock ≤ job.endTimestamp)
    (hfetch : s.step USING_ACURAST job .fetch = some t)
    (htick : t.step USING_ACURAST job (.tick resolvedAt) = some u)
    (hresolve : u.step USING_ACURAST job .resolve = some v) :
    v.schedule = Scheduler.scheduleV8Execution USING_ACURAST s.schedule
      { job := job, now := s.clock, resolvedAt := some resolvedAt } := by
  simp only [step, if_pos (show job.endTimestamp ≥ s.clock from hend)] at hfetch
  injection hfetch with hfetch
  subst hfetch
  simp only [step] at htick
  split at htick
  · injection htick with htick
    subst htick
    simp only [step] at hresolve
    rw [if_neg (Nat.succ_ne_zero _)] at hresolve
    injection hresolve with hresolve
    subst hresolve
    rw [Scheduler.scheduleV8Execution, if_pos hend]
  · cases htick

end ExecutionState

end DataProcessor
