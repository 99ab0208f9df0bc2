import DataProcessor.Model.FetchJobs
import DataProcessor.Model.TezosFulfill
import DataProcessor.Model.Utf8

/-!
# From an alarm to an execution (`V8ExecutorService.kt`, `v8/V8Executor.kt`)

An alarm's intent carries a job as extras. The receiver hands them to the
service, the service makes an executor of them, and the executor runs the
script. Two things leave the device: what the script fulfills, under the
executor's `ipfsHash`, and the report, under the identifier the extras spell.

A chain's bytes arrive as text in `ipfsUri` and become bytes again here, in
`onStartCommand` and in `execute`.
-/

namespace DataProcessor

/-- The extras `scheduleV8Execution` puts into the intent. -/
def Extras.toBundle (extras : Extras) : Bundle :=
  Bundle.empty
    |>.put "ipfsUri" (.string extras.ipfsUri)
    |>.put "requester" (.byteArray extras.requester)
    |>.put "isLastReport" (.boolean extras.isLastReport)
    |>.put "start" (.long (Int64.ofInt extras.startTimestamp))
    |>.put "end" (.long (Int64.ofInt extras.endTimestamp))
    |>.put "interval" (.long (Int64.ofInt extras.interval))
    |>.put "fee" (.long (Int64.ofInt extras.fee))
    |>.put "gasLimit" (.long (Int64.ofInt extras.gasLimit))
    |>.put "storageLimit" (.long (Int64.ofInt extras.storageLimit))

structure Intent where
  extras : Option Bundle

def Intent.getStringExtra (intent : Intent) (name : String) : Option String :=
  intent.extras.bind (·.getString? name)

/-- The intent the service is started with, if it is. -/
def V8ExecutorBroadcastReceiver.onReceive (intent : Intent) : Option Intent :=
  intent.extras.map fun extras => { extras := some extras }

structure V8Executor where
  ipfsHash : Bytes
  script : String
  extras : Bundle

/-- The executor, once `resolveUri` has handed over the script. -/
def V8ExecutorService.onStartCommand (intent : Intent) (script : String) :
    Option V8Executor :=
  match intent.getStringExtra "ipfsUri" with
  | some ipfsUri => some {
      ipfsHash := bytesOfString ipfsUri
      script := script
      extras := intent.extras.getD Bundle.empty }
  | none => none

namespace V8Executor

variable {α : Type} (protocolFulfill : Bundle → V8Value → Result α)
  (executor : V8Executor)

/-- `_STD_.chains.tezos.fulfill`, as `execute` registers it. -/
def tezosFulfill (parameters : List V8Value) : Result α :=
  Prelude.Tezos.fulfill protocolFulfill executor.ipfsHash parameters

/-- The deprecated `fulfill`: the context is a copy of the extras. -/
def fulfillJavaVoidCallback (parameters : List V8Value) : Result α :=
  let context := executor.extras.put "jobIdentifier" (.byteArray executor.ipfsHash)
  protocolFulfill context (argument parameters 0)

/-- The end of `execute`: the identifier and the flag that are reported. -/
def report : Option (JobIdentifier × Bool) :=
  let requester := match executor.extras "requester" with
    | some (.byteArray value) => some value
    | _ => none
  let script := executor.extras.getString "ipfsUri" ""
  let isLastReport := match executor.extras "isLastReport" with
    | some (.boolean value) => value
    | _ => false
  match requester with
  | some requester =>
      if requester.isEmpty then none
      else some ({ requester := requester, script := bytesOfString script },
        isLastReport)
  | none => none

end V8Executor

/-- The executor an alarm ends in. -/
def Extras.execution (extras : Extras) (script : String) : Option V8Executor :=
  (V8ExecutorBroadcastReceiver.onReceive { extras := some extras.toBundle }).bind
    fun intent => V8ExecutorService.onStartCommand intent script

/-- The job an effect of a fetch has scheduled. -/
def FetchEffect.scheduled {Id : Type} : FetchEffect Id → Option Job
  | alarm job _ => some job
  | resolving job => some job
  | acknowledge _ => none

/-- The class library's way with texts, over its way with dates. -/
def TextSdk.utf8 (parseInstant : String → Result Instant) : TextSdk where
  parseInstant := parseInstant
  decode := stringOfBytes

end DataProcessor
