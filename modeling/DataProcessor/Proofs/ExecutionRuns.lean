import DataProcessor.Model.Executions
import DataProcessor.Proofs.NextAlarms

/-!
# One execution for each time, and none after the end

A callback reads the clock again and sets its alarm for whatever time that
gives. A job without an interval gets an alarm for its start each time, so
every fetch after the start runs it once more; and a callback that comes
after the end sets an alarm that goes off then. A service that waits for its
script starts it whenever that comes, and does not look at the end again.
Where callbacks and scripts come in time, `CallsInTime`, no time is executed
twice and nothing starts after the end.
-/

namespace DataProcessor

open Lib Scheduler

variable {USING_ACURAST : Bool} {job : Job}

namespace ExecutionState

/-- The condition on a step. A callback of a job without an interval comes
before the start, or up to the end while no alarm has gone off for the
start; one of a periodic job comes before the end, or at the end while no
alarm has gone off for that. The script a service waits for comes up to the
end. -/
def CallsInTime (USING_ACURAST : Bool) (job : Job) (s : ExecutionState) :
    ExecutionAction → Prop
  | .resolve =>
      if 0 < job.interval then
        0 ≤ job.startTimestamp ∧ IsLong (job.millis USING_ACURAST) ∧
          IsLong (nextInPhase job.startTimestamp (job.millis USING_ACURAST) s.clock) ∧
          (s.clock < job.endTimestamp ∨
            s.clock = job.endTimestamp ∧ job.endTimestamp ∉ s.fired)
      else job.startTimestamp ≤ job.endTimestamp ∧
        (s.clock < job.startTimestamp ∨
          s.clock ≤ job.endTimestamp ∧ job.startTimestamp ∉ s.fired)
  | .serve _ => s.clock ≤ job.endTimestamp
  | _ => True

instance (s : ExecutionState) : ∀ a, Decidable (s.CallsInTime USING_ACURAST job a)
  | .resolve => inferInstanceAs (Decidable (ite _ _ _))
  | .serve _ => inferInstanceAs (Decidable (s.clock ≤ job.endTimestamp))
  | .fetch | .loseScript | .tick _ | .fire _ _ | .giveUp _ =>
      inferInstanceAs (Decidable True)

variable {s t : ExecutionState}

/-- What a callback in time computes: a time up to the end, that is to come
or has not been executed. -/
theorem time_of_inTime (hclock : 0 ≤ s.clock)
    (h : s.CallsInTime USING_ACURAST job .resolve) :
    ∃ time, systemNextScheduleTimestamp USING_ACURAST job s.clock = .ok time ∧
      time ≤ job.endTimestamp ∧
      (s.clock < time ∨ s.clock ≤ job.endTimestamp ∧ time ∉ s.fired) := by
  simp only [CallsInTime] at h
  split at h
  · next hperiodic =>
      obtain ⟨hepoch, hmillis, hslot, hin⟩ := h
      have hpos := job.millis_pos USING_ACURAST hperiodic
      have hafter := lt_nextInPhase job.startTimestamp s.clock hpos
      refine ⟨_, time_eq_dueAfter hperiodic hepoch hclock hmillis hslot, dueAfter_le, ?_⟩
      rcases hin with hbefore | ⟨hat, hfired⟩
      · left
        unfold dueAfter
        omega
      · right
        have hend : dueAfter job.startTimestamp job.endTimestamp
            (job.millis USING_ACURAST) s.clock = job.endTimestamp := by
          unfold dueAfter
          omega
        rw [hend]
        exact ⟨hat.le, hfired⟩
  · next honce =>
      refine ⟨job.startTimestamp, ?_, h.1, h.2⟩
      rw [systemNextScheduleTimestamp, if_neg honce]

/-- The alarms that are set have codes of their own, are for times no alarm
has gone off for, and go off up to the end. -/
structure OnTime (job : Job) (keys : List (String × Int)) (s : ExecutionState) :
    Prop where
  codes : Codes keys s.schedule.prefs
  pending : ∀ code time, s.schedule.alarms code = some time →
    (job.ipfsUri, time) ∈ keys ∧ code = Int32.ofNat (keys.idxOf (job.ipfsUri, time))
  placed : ∀ code time, s.schedule.alarms code = some time →
    ∃ p ∈ s.schedule.placed, p.requestCode = code
  unfired : ∀ code time, s.schedule.alarms code = some time → time ∉ s.fired
  within : ∀ code time, s.schedule.alarms code = some time →
    time ≤ job.endTimestamp ∧ (time < s.clock → s.clock ≤ job.endTimestamp)
  past : ∀ time ∈ s.fired, time ≤ s.clock
  nodup : s.fired.Nodup
  started : ∀ e ∈ s.executions, e.startedAt ≤ job.endTimestamp
  epoch : 0 ≤ s.clock

variable {keys : List (String × Int)}

theorem Installed.onTime (h : s.Installed) : OnTime job [] s := by
  obtain ⟨hschedule, hclock, -, hwaiting, hexecutions⟩ := h
  have hfired : s.fired = [] := by
    rw [fired, hwaiting, hexecutions]
    rfl
  have hnone : ∀ code, s.schedule.alarms code = none := by
    intro code
    rw [hschedule]
    rfl
  refine ⟨?_, ?_, ?_, ?_, ?_, ?_, ?_, ?_, hclock⟩
  · rw [hschedule]
    exact .fresh
  · intro code time hset
    rw [hnone] at hset
    cases hset
  · intro code time hset
    rw [hnone] at hset
    cases hset
  · intro code time hset
    rw [hnone] at hset
    cases hset
  · intro code time hset
    rw [hnone] at hset
    cases hset
  · intro time htime
    rw [hfired] at htime
    simp at htime
  · rw [hfired]
    exact List.nodup_nil
  · intro e he
    rw [hexecutions] at he
    simp at he

theorem OnTime.of_resolving (h : OnTime job keys s) (resolving : Nat) :
    OnTime job keys { s with resolving := resolving } :=
  ⟨h.codes, h.pending, h.placed, h.unfired, h.within, h.past, h.nodup, h.started, h.epoch⟩

theorem OnTime.tick (h : OnTime job keys s) {now : Int} (hle : s.clock ≤ now)
    (hquiet : s.Quiet now) : OnTime job keys { s with clock := now } := by
  refine ⟨h.codes, h.pending, h.placed, h.unfired, ?_, ?_, h.nodup, h.started,
    h.epoch.trans hle⟩
  · intro code time hset
    obtain ⟨p, hp, rfl⟩ := h.placed code time hset
    have hnow := hquiet p hp time hset
    refine ⟨(h.within _ _ hset).1, fun hlt => ?_⟩
    exact absurd hnow (by simpa using hlt)
  · intro time htime
    exact (h.past time htime).trans hle

/-- A new alarm, for a time that is to come or has not been executed. -/
theorem OnTime.resolve (h : OnTime job keys s)
    (hcalls : s.CallsInTime USING_ACURAST job .resolve) (resolving : Nat) :
    ∃ keys', OnTime job keys' { s with
      resolving := resolving
      schedule := (Scheduler.schedule USING_ACURAST job s.clock s.schedule).toOption.getD
        s.schedule } := by
  obtain ⟨time, htime, hend, hnew⟩ := time_of_inTime h.epoch hcalls
  obtain ⟨prefs, isLastReport, hcodes, hschedule⟩ := h.codes.schedule htime
  have hunfired : time ∉ s.fired := by
    rcases hnew with hlt | ⟨-, hunfired⟩
    · intro hmem
      have hpast := h.past time hmem
      omega
    · exact hunfired
  rw [hschedule]
  refine ⟨_, hcodes, ?_, ?_, ?_, ?_, h.past, h.nodup, h.started, h.epoch⟩
  · intro code time' hset
    simp only [Except.toOption, Option.getD_some, Function.update_apply] at hset
    split at hset
    · next hcode =>
        cases hset
        exact ⟨mem_insertKey.2 (.inr rfl), hcode⟩
    · obtain ⟨hmem, hcode⟩ := h.pending code time' hset
      refine ⟨mem_insertKey.2 (.inl hmem), ?_⟩
      rw [idxOf_insertKey hmem]
      exact hcode
  · intro code time' hset
    simp only [Except.toOption, Option.getD_some, Function.update_apply] at hset
    split at hset
    · next hcode => exact ⟨_, List.mem_cons_self .., hcode.symm⟩
    · obtain ⟨p, hp, hcode⟩ := h.placed code time' hset
      exact ⟨p, List.mem_cons_of_mem _ hp, hcode⟩
  · intro code time' hset
    simp only [Except.toOption, Option.getD_some, Function.update_apply] at hset
    split at hset
    · cases hset
      exact hunfired
    · exact h.unfired code time' hset
  · intro code time' hset
    simp only [Except.toOption, Option.getD_some, Function.update_apply] at hset
    split at hset
    · cases hset
      refine ⟨hend, fun hlt => ?_⟩
      change time < s.clock at hlt
      rcases hnew with hafter | ⟨hwithin, -⟩
      · omega
      · exact hwithin
    · exact h.within code time' hset

/-- The alarm that goes off was the only one for its time, which is now
among those alarms have gone off for. -/
theorem OnTime.fire (h : OnTime job keys s) {code : Int32} {time : Int}
    (hset : s.schedule.alarms code = some time) (hdue : time ≤ s.clock)
    {waiting : List Int} {executions : List Execution}
    (hfired : (executions.map Execution.time ++ waiting).Perm (time :: s.fired))
    (hstarted : s.clock ≤ job.endTimestamp → ∀ e ∈ executions, e.startedAt ≤ job.endTimestamp) :
    OnTime job keys { s with
      schedule := s.clearAlarm code
      waiting := waiting
      executions := executions } := by
  have hclear : ∀ code' time',
      (s.clearAlarm code).alarms code' = some time' →
      s.schedule.alarms code' = some time' ∧ time' ≠ time := by
    intro code' time' hset'
    simp only [clearAlarm, Function.update_apply] at hset'
    split at hset'
    · cases hset'
    · next hne =>
        refine ⟨hset', ?_⟩
        rintro rfl
        exact hne ((h.pending code' _ hset').2.trans (h.pending code _ hset).2.symm)
  have hend : s.clock ≤ job.endTimestamp := by
    obtain ⟨hle, hlate⟩ := h.within code time hset
    rcases hdue.lt_or_eq with hlt | heq
    · exact hlate hlt
    · omega
  refine ⟨h.codes, ?_, ?_, ?_, ?_, ?_, ?_, hstarted hend, h.epoch⟩
  · intro code' time' hset'
    exact h.pending code' time' (hclear code' time' hset').1
  · intro code' time' hset'
    exact h.placed code' time' (hclear code' time' hset').1
  · intro code' time' hset' hmem
    obtain ⟨hset', hne⟩ := hclear code' time' hset'
    rcases List.mem_cons.1 (hfired.mem_iff.1 hmem) with heq | hmem
    · exact hne heq
    · exact h.unfired code' time' hset' hmem
  · intro code' time' hset'
    exact h.within code' time' (hclear code' time' hset').1
  · intro time' hmem
    rcases List.mem_cons.1 (hfired.mem_iff.1 hmem) with rfl | hmem
    · exact hdue
    · exact h.past time' hmem
  · exact hfired.nodup_iff.2 (List.nodup_cons.2 ⟨h.unfired code time hset, h.nodup⟩)

/-- A service that leaves off waiting. Its time may be forgotten, but no time
is added. -/
theorem OnTime.of_subperm (h : OnTime job keys s) {waiting : List Int}
    {executions : List Execution}
    (hfired : (executions.map Execution.time ++ waiting).Subperm s.fired)
    (hstarted : ∀ e ∈ executions, e.startedAt ≤ job.endTimestamp) :
    OnTime job keys { s with waiting := waiting, executions := executions } := by
  have hnodup : (executions.map Execution.time ++ waiting).Nodup := by
    obtain ⟨times, hperm, hsublist⟩ := hfired
    exact hperm.nodup_iff.1 (hsublist.nodup h.nodup)
  refine ⟨h.codes, h.pending, h.placed, ?_, h.within, ?_, hnodup, hstarted, h.epoch⟩
  · intro code time hset hmem
    exact h.unfired code time hset (hfired.subset hmem)
  · intro time hmem
    exact h.past time (hfired.subset hmem)

/-- The times stay the same when a service starts its script. -/
theorem perm_serve {times waiting : List Int} {i : Nat} {time : Int}
    (h : waiting[i]? = some time) :
    (time :: times ++ waiting.eraseIdx i).Perm (times ++ waiting) := by
  obtain ⟨hi, rfl⟩ := List.getElem?_eq_some_iff.1 h
  rw [List.cons_append]
  exact (List.perm_middle.symm).trans ((List.getElem_cons_eraseIdx_perm hi).append_left times)

theorem OnTime.step (h : OnTime job keys s) {a : ExecutionAction}
    (hcalls : s.CallsInTime USING_ACURAST job a)
    (hstep : s.step USING_ACURAST job a = some t) : ∃ keys', OnTime job keys' t := by
  cases a with
  | fetch =>
      simp only [ExecutionState.step] at hstep
      split at hstep
      · injection hstep with hstep
        subst hstep
        exact ⟨keys, h.of_resolving _⟩
      · injection hstep with hstep
        subst hstep
        exact ⟨keys, h⟩
  | resolve =>
      simp only [ExecutionState.step] at hstep
      split at hstep
      · cases hstep
      · injection hstep with hstep
        subst hstep
        exact h.resolve hcalls _
  | loseScript =>
      simp only [ExecutionState.step] at hstep
      split at hstep
      · cases hstep
      · injection hstep with hstep
        subst hstep
        exact ⟨keys, h.of_resolving _⟩
  | tick now =>
      simp only [ExecutionState.step] at hstep
      split at hstep
      · next htick =>
          injection hstep with hstep
          subst hstep
          exact ⟨keys, h.tick htick.1 htick.2⟩
      · cases hstep
  | fire code cached =>
      simp only [ExecutionState.step] at hstep
      split at hstep
      · next time hset =>
          split at hstep
          · cases hstep
          · next hdue =>
              have hdue' : time ≤ s.clock := by omega
              split at hstep
              · injection hstep with hstep
                subst hstep
                refine ⟨keys, h.fire hset hdue' (.refl _) fun hend e he => ?_⟩
                rcases List.mem_cons.1 he with rfl | he
                · exact hend
                · exact h.started e he
              · injection hstep with hstep
                subst hstep
                exact ⟨keys, h.fire hset hdue' List.perm_middle fun _ => h.started⟩
      · cases hstep
  | serve i =>
      simp only [ExecutionState.step] at hstep
      obtain ⟨time, htime, hstep⟩ := Option.map_eq_some_iff.1 hstep
      subst hstep
      refine ⟨keys, h.of_subperm (perm_serve htime).subperm fun e he => ?_⟩
      rcases List.mem_cons.1 he with rfl | he
      · exact hcalls
      · exact h.started e he
  | giveUp i =>
      simp only [ExecutionState.step] at hstep
      split at hstep
      · injection hstep with hstep
        subst hstep
        have hless := (List.Sublist.refl (s.executions.map Execution.time)).append
          (List.eraseIdx_sublist s.waiting i)
        exact ⟨keys, h.of_subperm hless.subperm h.started⟩
      · cases hstep

end ExecutionState

/-- Where every callback and every service's script comes in time, no time of
the job is executed twice and no execution starts after the end, however
often the job is fetched. -/
theorem executions_once_and_in_time {s t : ExecutionState} (hinstalled : s.Installed)
    (h : Reaches (fun s a => s.step USING_ACURAST job a)
      (fun s a => s.CallsInTime USING_ACURAST job a) s t) :
    (t.executions.map Execution.time).Nodup ∧
      ∀ e ∈ t.executions, e.startedAt ≤ job.endTimestamp := by
  have hinv : ∀ (s : ExecutionState) a t, (∃ keys, s.OnTime job keys) →
      s.CallsInTime USING_ACURAST job a → s.step USING_ACURAST job a = some t →
      ∃ keys, t.OnTime job keys := by
    rintro s a t ⟨keys, hs⟩ hcalls hstep
    exact hs.step hcalls hstep
  obtain ⟨keys, hkeys⟩ := Reaches.invariant hinv h ⟨[], hinstalled.onTime⟩
  refine ⟨?_, hkeys.started⟩
  exact (List.nodup_append.1 hkeys.nodup).1

/-! ## Jobs that are executed in time, again, and late -/

def installed : ExecutionState where
  schedule := ScheduleState.fresh
  clock := 0
  resolving := 0
  waiting := []
  executions := []

theorem installed_installed : installed.Installed := ⟨rfl, by decide, rfl, rfl, rfl⟩

def onceJob : Job where
  ipfsUri := "ipfs://script"
  requester := []
  startTimestamp := 100
  endTimestamp := 1000
  interval := 0
  fee := 0
  gasLimit := 0
  storageLimit := 0

/-- Fetched before and at its first time; the script of the second service
comes 60 milliseconds after its alarm. -/
def timelyFetches : List ExecutionAction :=
  [.fetch, .resolve, .tick 50, .fetch, .resolve, .tick 100, .fire 0 true, .fetch,
    .resolve, .tick 200, .fire 1 false, .tick 260, .serve 0]

/-- Fetched before the start and after it. -/
def repeatedFetches : List ExecutionAction :=
  [.fetch, .resolve, .tick 100, .fire 0 true, .tick 160, .fetch, .resolve, .fire 0 true]

/-- The script comes after the end. -/
def slowScript : List ExecutionAction :=
  [.fetch, .tick 1500, .resolve, .fire 0 true]

/-- The service waits for it. -/
def slowService : List ExecutionAction :=
  [.fetch, .resolve, .tick 100, .fire 0 false, .tick 1500, .serve 0]

theorem executions_once_and_in_time_twice :
    ∃ t, runAll (fun s a => s.step true (hundredJob 0 1000) a)
        (fun s a => s.CallsInTime true (hundredJob 0 1000) a) timelyFetches installed
        = some t ∧
      t.executions = [⟨200, 260⟩, ⟨100, 100⟩] ∧
      (t.executions.map Execution.time).Nodup ∧
      ∀ e ∈ t.executions, e.startedAt ≤ 1000 := by
  have hrun : (runAll (fun s a => s.step true (hundredJob 0 1000) a)
      (fun s a => s.CallsInTime true (hundredJob 0 1000) a) timelyFetches installed).map
        ExecutionState.executions = some [⟨200, 260⟩, ⟨100, 100⟩] := by
    decide
  obtain ⟨t, ht, hexecutions⟩ := Option.map_eq_some_iff.1 hrun
  exact ⟨t, ht, hexecutions,
    executions_once_and_in_time installed_installed (reaches_of_runAll ht)⟩

theorem executions_twice_and_late :
    installed.Installed ∧
    (∃ t, Reaches (fun s a => s.step true onceJob a) anyStep installed t ∧
      t.executions = [⟨100, 160⟩, ⟨100, 100⟩] ∧
      ¬ (t.executions.map Execution.time).Nodup) ∧
    (∃ t, Reaches (fun s a => s.step true (hundredJob 0 1000) a) anyStep installed t ∧
      t.executions = [⟨1000, 1500⟩] ∧ ¬ ∀ e ∈ t.executions, e.startedAt ≤ 1000) ∧
    (∃ t, Reaches (fun s a => s.step true onceJob a) anyStep installed t ∧
      t.executions = [⟨100, 1500⟩] ∧ ¬ ∀ e ∈ t.executions, e.startedAt ≤ 1000) := by
  have honce : (runAll (fun s a => s.step true onceJob a) anyStep repeatedFetches
      installed).map ExecutionState.executions = some [⟨100, 160⟩, ⟨100, 100⟩] := by
    decide
  have hlate : (runAll (fun s a => s.step true (hundredJob 0 1000) a) anyStep slowScript
      installed).map ExecutionState.executions = some [⟨1000, 1500⟩] := by
    decide
  have hwaits : (runAll (fun s a => s.step true onceJob a) anyStep slowService
      installed).map ExecutionState.executions = some [⟨100, 1500⟩] := by
    decide
  obtain ⟨t, ht, hexecutions⟩ := Option.map_eq_some_iff.1 honce
  obtain ⟨t', ht', hexecutions'⟩ := Option.map_eq_some_iff.1 hlate
  obtain ⟨t'', ht'', hexecutions''⟩ := Option.map_eq_some_iff.1 hwaits
  refine ⟨installed_installed, ⟨t, reaches_of_runAll ht, hexecutions, ?_⟩,
    ⟨t', reaches_of_runAll ht', hexecutions', ?_⟩, t'', reaches_of_runAll ht'',
    hexecutions'', ?_⟩
  · rw [hexecutions]
    decide
  · rw [hexecutions']
    decide
  · rw [hexecutions'']
    decide

end DataProcessor
