import DataProcessor.Model.FetchJobs

/-!
# One bad entry and the jobs behind it

An entry that cannot be read, scheduled or looked up ends the loop it is in,
for the one handler stands around the loop and not around its body. The jobs
before it are done, those behind it are not, at this fetch and at every
other, as long as the entry is in the list. So nothing is lost exactly when
the entries behind it are bad as well or ask for nothing.
-/

namespace DataProcessor

open Lib

/-- The loop does for the good entries what it does without the bad ones. -/
def Tezos.KeepsOthers (text : TextSdk) (USING_ACURAST : Bool)
    (entries : List (Micheline × Moment)) : Prop :=
  fetchJob text USING_ACURAST entries
    = fetchJob text USING_ACURAST
      (entries.filter (succeeds (treatEntry text USING_ACURAST)))

def AcurastRPC.KeepsOthers (text : TextSdk) (USING_ACURAST : Bool)
    (jobs : List (JobAssignment × Result JobRegistration × Moment)) : Prop :=
  fetchJobs text USING_ACURAST jobs
    = fetchJobs text USING_ACURAST (jobs.filter (succeeds (treatJob text USING_ACURAST)))

/-- Behind a bad entry there is only what is bad itself or asks for nothing. -/
def NothingBehindBad {ι α : Type} (treat : ι → Result (List α)) (entries : List ι) : Prop :=
  entries.Pairwise fun bad entry => succeeds treat bad = false → Idle treat entry

theorem fetch_keeps_others_iff (text : TextSdk) (USING_ACURAST : Bool)
    (entries : List (Micheline × Moment))
    (jobs : List (JobAssignment × Result JobRegistration × Moment)) :
    (Tezos.KeepsOthers text USING_ACURAST entries ↔
      NothingBehindBad (Tezos.treatEntry text USING_ACURAST) entries) ∧
    (AcurastRPC.KeepsOthers text USING_ACURAST jobs ↔
      NothingBehindBad (AcurastRPC.treatJob text USING_ACURAST) jobs) :=
  ⟨effects_eq_filter_iff, effects_eq_filter_iff⟩

/-- An interval of a multiple of 2^64 / 1000 seconds is good in form, and its
job raises as soon as the script is cached. -/
theorem systemNextScheduleTimestamp_degenerate {job : Job} {now : Int}
    (hpos : 0 < job.interval) (hdvd : (2 ^ 64 : Int) ∣ job.interval * 1000) :
    Scheduler.systemNextScheduleTimestamp false job now = .error .arithmetic := by
  have hzero : Scheduler.intervalMillis false job.interval = 0 := by
    show (job.interval * 1000).bmod (2 ^ 64) = 0
    obtain ⟨k, hk⟩ := hdvd
    rw [hk]
    exact Int.mul_bmod_right (2 ^ 64) k
  rw [Scheduler.systemNextScheduleTimestamp, if_pos hpos, if_pos hzero]

/-! ## A bad entry in front of a good one -/

def isoTexts : TextSdk where
  parseInstant text :=
    if text = "2023-01-01T00:00:00Z" then .ok { seconds := 1672531200, nanos := 0 }
    else if text = "2024-01-01T00:00:00Z" then .ok { seconds := 1704067200, nanos := 0 }
    else .error (.external "DateTimeParseException")
  decode bytes := String.ofList (bytes.map fun b => Char.ofNat b.toNat)

/-- The script is cached, and it is the middle of 2023. -/
def midsummer : Moment where
  now := 1687348800000
  cached := some (.ok "print(1)")
  resolvedAt := 1687348800000
  setAlarm _ := .ok ()

def hourlyJob (start : String) : Micheline :=
  .prim "Pair" [.bytes [0x51, 0x6d],
    .prim "Pair" [.int "0", .string start, .string "2024-01-01T00:00:00Z", .int "3600",
      .int "1000", .int "2000", .int "300"]]

def unreadThenHourly : List (Micheline × Moment) :=
  [(hourlyJob "yesterday", midsummer), (hourlyJob "2023-01-01T00:00:00Z", midsummer)]

def jobOf (requester : UInt8) : JobAssignment where
  jobId := { requester := [requester], script := [0x51, 0x6d] }
  acknowledged := false

def unregisteredThenNew : List (JobAssignment × Result JobRegistration × Moment) :=
  [(jobOf 1, .error (.external "RPCException"), midsummer),
    (jobOf 2, .ok { script := [0x51, 0x6d], startTime := 0, endTime := 0, interval := 0 },
      midsummer)]

theorem fetch_loses_others :
    (Tezos.fetchJob isoTexts false unreadThenHourly = [] ∧
      (Tezos.fetchJob isoTexts false unreadThenHourly.tail).length = 2 ∧
      ¬ Tezos.KeepsOthers isoTexts false unreadThenHourly) ∧
    (AcurastRPC.fetchJobs isoTexts true unregisteredThenNew = [] ∧
      AcurastRPC.fetchJobs isoTexts true unregisteredThenNew.tail
        = [.acknowledge { requester := [2], script := [0x51, 0x6d] }] ∧
      ¬ AcurastRPC.KeepsOthers isoTexts true unregisteredThenNew) := by
  have htezos : Tezos.fetchJob isoTexts false unreadThenHourly = [] := rfl
  have htezos' : (Tezos.fetchJob isoTexts false (unreadThenHourly.filter
      (succeeds (Tezos.treatEntry isoTexts false)))).length = 2 := rfl
  have hacurast : AcurastRPC.fetchJobs isoTexts true unregisteredThenNew = [] := rfl
  have hacurast' : (AcurastRPC.fetchJobs isoTexts true (unregisteredThenNew.filter
      (succeeds (AcurastRPC.treatJob isoTexts true)))).length = 1 := rfl
  refine ⟨⟨htezos, rfl, fun h => ?_⟩, hacurast, rfl, fun h => ?_⟩
  · rw [Tezos.KeepsOthers, htezos] at h
    rw [← h] at htezos'
    cases htezos'
  · rw [AcurastRPC.KeepsOthers, hacurast] at h
    rw [← h] at hacurast'
    cases hacurast'

end DataProcessor
