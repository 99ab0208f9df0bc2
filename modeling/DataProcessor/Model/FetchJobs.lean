import DataProcessor.Lib.Loops
import DataProcessor.Model.Micheline
import DataProcessor.Model.Scheduler

/-!
# Fetching the assigned jobs (`utils/Tezos.kt`, `AcurastRPC.fetchJobs`)

Both fetchers read a list of entries from their chain and treat one after
the other: a job is scheduled, and acknowledged where it has not been. The
`try` of each stands around its whole loop, so the loop is `effects` over
the treatment of one entry. An entry is treated with everything the device
meets meanwhile, a `Moment`: the clock, what the script store has, and
whether the alarm can be set.

What follows a request for a script, or for an acknowledgement, runs in
tasks of its own and raises nothing here.
-/

namespace DataProcessor

open Lib

/-- What the treatment of one entry does. -/
inductive FetchEffect (Id : Type)
  /-- The script is cached, and the job's next alarm is set. -/
  | alarm (job : Job) (time : Int)
  /-- The script is requested; the alarm is set when it comes. -/
  | resolving (job : Job)
  | acknowledge (id : Id)
  deriving DecidableEq

/-- What the device meets while it treats an entry. -/
structure Moment where
  now : Int
  /-- What `IPFS.resolveUri` has in store: a text, or an entry it cannot read. -/
  cached : Option (Result String)
  /-- The clock in the success callback. -/
  resolvedAt : Int
  /-- Everything from the request code to the alarm manager. -/
  setAlarm : Int → Result Unit

/-- `scheduleV8Execution`, as the loop meets it: a cached script is answered
on the spot, and what its callback raises is raised here. -/
def Scheduler.scheduleInLoop {Id : Type} (USING_ACURAST : Bool) (moment : Moment)
    (job : Job) : Result (List (FetchEffect Id)) :=
  if job.endTimestamp ≥ moment.now then
    match moment.cached with
    | some script => do
        let _ ← script
        let time ← systemNextScheduleTimestamp USING_ACURAST job moment.resolvedAt
        moment.setAlarm time
        return [.alarm job time]
    | none => return [.resolving job]
  else return []

/-! ## Entries of the Tezos contract -/

namespace Micheline

/-- `tryAs<MichelinePrimitiveApplication>().args`. -/
def args : Micheline → Result (List Micheline)
  | prim _ args => .ok args
  | _ => .error (.external "tryAs")

def asInteger : Micheline → Result String
  | int text => .ok text
  | _ => .error (.external "tryAs")

def asString : Micheline → Result String
  | string text => .ok text
  | _ => .error (.external "tryAs")

def asBytes : Micheline → Result Bytes
  | bytes value => .ok value
  | _ => .error (.external "tryAs")

/-- `args[i]` of a node. -/
def arg (node : Micheline) (i : Nat) : Result Micheline := do
  (← node.args)[i]?.elim (.error .indexOutOfBounds) .ok

end Micheline

/-- `toInt()` and `toLong()` of a decimal text: beyond the type it raises. -/
def parseWithin (lower upper : Int) (text : String) : Result Int := do
  let n ← BigInteger.ofString text 10
  if lower ≤ n ∧ n < upper then return n else throw .numberFormat

def parseInt : String → Result Int := parseWithin (-2 ^ 31) (2 ^ 31)

def parseLong : String → Result Int := parseWithin (-2 ^ 63) (2 ^ 63)

structure Instant where
  seconds : Int
  nanos : Nat

/-- `toEpochMilli()`, which raises beyond a `Long`. -/
def Instant.toEpochMilli (instant : Instant) : Result Int :=
  let millis := instant.seconds * 1000 + instant.nanos / 1000000
  if IsLong millis then .ok millis else .error .arithmetic

/-- How the class library reads texts and bytes. -/
structure TextSdk where
  /-- `Instant.parse(text)`. -/
  parseInstant : String → Result Instant
  /-- `String(bytes)`. -/
  decode : Bytes → String

namespace Tezos

variable (text : TextSdk) (USING_ACURAST : Bool)

structure JobEntry where
  script : Bytes
  status : Int
  start : Instant
  ends : Instant
  interval : Int
  fee : Int
  gasLimit : Int
  storageLimit : Int

def parseEntry (it : Micheline) : Result JobEntry := do
  let script ← (← it.arg 0).asBytes
  let status ← parseInt (← (← (← it.arg 1).arg 0).asInteger)
  let start ← text.parseInstant (← (← (← it.arg 1).arg 1).asString)
  let ends ← text.parseInstant (← (← (← it.arg 1).arg 2).asString)
  let interval ← parseLong (← (← (← it.arg 1).arg 3).asInteger)
  let fee ← parseLong (← (← (← it.arg 1).arg 4).asInteger)
  let gasLimit ← parseLong (← (← (← it.arg 1).arg 5).asInteger)
  let storageLimit ← parseLong (← (← (← it.arg 1).arg 6).asInteger)
  return {
    script := script
    status := status
    start := start
    ends := ends
    interval := interval
    fee := fee
    gasLimit := gasLimit
    storageLimit := storageLimit }

/-- The body of the loop. The acknowledgement is for the script's bytes. -/
def treatEntry (entry : Micheline × Moment) : Result (List (FetchEffect Bytes)) := do
  let parsed ← parseEntry text entry.1
  let startTimestamp ← parsed.start.toEpochMilli
  let endTimestamp ← parsed.ends.toEpochMilli
  let scheduled ← Scheduler.scheduleInLoop USING_ACURAST entry.2 {
    ipfsUri := text.decode parsed.script
    requester := []
    startTimestamp := startTimestamp
    endTimestamp := endTimestamp
    interval := parsed.interval
    fee := parsed.fee
    gasLimit := parsed.gasLimit
    storageLimit := parsed.storageLimit }
  return scheduled ++ (if parsed.status = 0 then [.acknowledge parsed.script] else [])

def fetchJob (entries : List (Micheline × Moment)) : List (FetchEffect Bytes) :=
  effects (treatEntry text USING_ACURAST) entries

end Tezos

/-! ## Entries of the Acurast chain -/

structure JobIdentifier where
  requester : Bytes
  script : Bytes
  deriving DecidableEq

structure JobAssignment where
  jobId : JobIdentifier
  acknowledged : Bool

structure JobRegistration where
  script : Bytes
  startTime : Int
  endTime : Int
  interval : Int

namespace AcurastRPC

variable (text : TextSdk) (USING_ACURAST : Bool)

/-- The body of the loop, over what `getJobRegistration` answers for the job. -/
def treatJob (entry : JobAssignment × Result JobRegistration × Moment) :
    Result (List (FetchEffect JobIdentifier)) := do
  let (job, registration, moment) := entry
  let registration ← registration
  if job.acknowledged then
    Scheduler.scheduleInLoop USING_ACURAST moment {
      ipfsUri := text.decode registration.script
      requester := job.jobId.requester
      startTimestamp := registration.startTime
      endTimestamp := registration.endTime
      interval := registration.interval
      fee := 0
      gasLimit := 0
      storageLimit := 0 }
  else return [.acknowledge job.jobId]

def fetchJobs (jobs : List (JobAssignment × Result JobRegistration × Moment)) :
    List (FetchEffect JobIdentifier) :=
  effects (treatJob text USING_ACURAST) jobs

end AcurastRPC

end DataProcessor
