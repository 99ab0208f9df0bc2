import DataProcessor.Model.V8Executor
import DataProcessor.Proofs.Extras
import DataProcessor.Proofs.FetchBatches

/-!
# Whose job an execution answers

A script can fill the bundle `Tezos.fulfill` reads, but not its
`jobIdentifier`: that name holds a byte array, and no entry of a script's
object is stored as one. Whatever is built is built for the executor's own
identifier.

That identifier has been text on its way from the chain. It is the chain's
own exactly where the chain's bytes are UTF-8, and so is the identifier of a
report.
-/

namespace DataProcessor

/-- The first component of the operation's `Pair` is this identifier. -/
def Operation.FulfillsFor (jobIdentifier : Bytes) (op : Operation) : Prop :=
  ∃ payload, op.content.value =
    .prim "Pair" [.bytes jobIdentifier, .bytes payload]

theorem Operation.FulfillsFor.iff_eq {id id' : Bytes} {op : Operation}
    (h : op.FulfillsFor id) : op.FulfillsFor id' ↔ id = id' := by
  constructor
  · intro hgiven
    obtain ⟨payload', h'⟩ := hgiven
    obtain ⟨payload, h⟩ := h
    rw [h'] at h
    simp only [Micheline.prim.injEq, List.cons.injEq,
      Micheline.bytes.injEq, true_and] at h
    exact h.1.symm
  · intro heq
    rw [← heq]
    exact h

/-! ## What a script can fulfill -/

section

variable {sdk : TezosSdk} {NETWORK : String} {cryptoModule : ICrypto}
  {fetchBranch : Result String} {fetchCounter : String → Result Int}

/-- An operation is built for the identifier in the bundle. -/
theorem fulfillsFor_of_fulfill {context : Bundle} {unserializedPayload : V8Value}
    {op : Operation}
    (h : Tezos.fulfill sdk NETWORK cryptoModule fetchBranch fetchCounter context
      unserializedPayload = .ok op) :
    ∃ jobIdentifier, context "jobIdentifier" = some (.byteArray jobIdentifier) ∧
      op.FulfillsFor jobIdentifier := by
  obtain ⟨jobIdentifier, -, packed, hjob, -, -, -, -, -, hvalue⟩ := tezos_fulfill_ok h
  exact ⟨jobIdentifier, hjob, packed, hvalue⟩

/-- No entry of a script is kept as a byte array. -/
theorem bundleValue_ne_byteArray (value : V8Value) (bytes : Bytes) :
    Prelude.bundleValue value ≠ some (.byteArray bytes) := by
  cases value <;> simp [Prelude.bundleValue]

theorem fulfillsFor_of_tezosFulfill {executor : V8Executor}
    {parameters : List V8Value} {op : Operation}
    (h : executor.tezosFulfill
      (Tezos.fulfill sdk NETWORK cryptoModule fetchBranch fetchCounter)
      parameters = .ok op) : op.FulfillsFor executor.ipfsHash := by
  obtain ⟨context, hput, h⟩ := bind_ok.1 h
  obtain ⟨jobIdentifier, hjob, hop⟩ := fulfillsFor_of_fulfill h
  rw [Prelude.putExtras_apply hput,
    Prelude.Tezos.putText_of_ne (by decide : "jobIdentifier" ≠ "destination"),
    Prelude.Tezos.putText_of_ne (by decide : "jobIdentifier" ≠ "rpc"),
    Bundle.put_self] at hjob
  cases hentry : (argument parameters 3).entry "jobIdentifier" with
  | none =>
      rw [hentry] at hjob
      cases hjob
      exact hop
  | some value =>
      rw [hentry] at hjob
      exact absurd hjob (bundleValue_ne_byteArray value jobIdentifier)

theorem fulfillsFor_of_fulfillJavaVoidCallback {executor : V8Executor}
    {parameters : List V8Value} {op : Operation}
    (h : executor.fulfillJavaVoidCallback
      (Tezos.fulfill sdk NETWORK cryptoModule fetchBranch fetchCounter)
      parameters = .ok op) : op.FulfillsFor executor.ipfsHash := by
  simp only [V8Executor.fulfillJavaVoidCallback] at h
  obtain ⟨jobIdentifier, hjob, hop⟩ := fulfillsFor_of_fulfill h
  rw [Bundle.put_self] at hjob
  cases hjob
  exact hop

/-- The two ways a script has to an operation. -/
def V8Executor.Builds (executor : V8Executor)
    (protocolFulfill : Bundle → V8Value → Result Operation)
    (parameters : List V8Value) (op : Operation) : Prop :=
  executor.tezosFulfill protocolFulfill parameters = .ok op ∨
    executor.fulfillJavaVoidCallback protocolFulfill parameters = .ok op

theorem fulfillsFor_iff_of_builds {executor : V8Executor}
    {parameters : List V8Value} {op : Operation}
    (h : executor.Builds
      (Tezos.fulfill sdk NETWORK cryptoModule fetchBranch fetchCounter)
      parameters op) {id : Bytes} : op.FulfillsFor id ↔ executor.ipfsHash = id := by
  rcases h with h | h
  · exact (fulfillsFor_of_tezosFulfill h).iff_eq
  · exact (fulfillsFor_of_fulfillJavaVoidCallback h).iff_eq

/-- Whatever a script passes to either function, an operation that is built
is built for the executor's own job. -/
theorem script_fulfills_own_job {executor : V8Executor} {parameters : List V8Value}
    {op : Operation}
    (h : executor.Builds
      (Tezos.fulfill sdk NETWORK cryptoModule fetchBranch fetchCounter)
      parameters op) : op.FulfillsFor executor.ipfsHash :=
  (fulfillsFor_iff_of_builds h).2 rfl

end

/-- The protocol on a device whose node answers with counter 41. -/
def idleFulfill : Bundle → V8Value → Result Operation :=
  Tezos.fulfill idleTezosSdk "MAINNET" idleCrypto (.ok "BL") fun _ => .ok 41

def smallExecutor : V8Executor where
  ipfsHash := [1]
  script := ""
  extras := Bundle.empty.put "jobIdentifier" (.byteArray [2])

theorem smallExecutor_fulfills :
    (∃ op, smallExecutor.tezosFulfill idleFulfill
        [.undefined, .undefined, .int 0, .object [("fee", .int 1000)]] = .ok op ∧
      op.FulfillsFor [1]) ∧
    (∃ op, smallExecutor.fulfillJavaVoidCallback idleFulfill [.int 0] = .ok op ∧
      op.FulfillsFor [1]) := by
  constructor
  · obtain ⟨op, hop⟩ : ∃ op, smallExecutor.tezosFulfill idleFulfill
        [.undefined, .undefined, .int 0, .object [("fee", .int 1000)]] = .ok op :=
      ⟨_, rfl⟩
    exact ⟨op, hop, script_fulfills_own_job (.inl hop)⟩
  · obtain ⟨op, hop⟩ : ∃ op,
        smallExecutor.fulfillJavaVoidCallback idleFulfill [.int 0] = .ok op :=
      ⟨_, rfl⟩
    exact ⟨op, hop, script_fulfills_own_job (.inr hop)⟩

-- Another job's identifier in `extra` ends the call.
example : smallExecutor.tezosFulfill idleFulfill
    [.undefined, .undefined, .int 0, .object [("jobIdentifier", .string "2")]]
      = .error .illegalArgument := rfl

/-! ## What an alarm's execution answers with -/

theorem Extras.execution_eq (extras : Extras) (script : String) :
    extras.execution script = some {
      ipfsHash := bytesOfString extras.ipfsUri
      script := script
      extras := extras.toBundle } := rfl

theorem Extras.report_eq (extras : Extras) (ipfsHash : Bytes) (script : String) :
    V8Executor.report ⟨ipfsHash, script, extras.toBundle⟩ =
      if extras.requester.isEmpty then none
      else some (⟨extras.requester, bytesOfString extras.ipfsUri⟩,
        extras.isLastReport) := rfl

/-- The loop schedules the job it was asked to. -/
theorem scheduled_of_scheduleInLoop {Id : Type} {USING_ACURAST : Bool}
    {moment : Moment} {job : Job} {done : List (FetchEffect Id)}
    (h : Scheduler.scheduleInLoop USING_ACURAST moment job = .ok done)
    {job' : Job} (hjob : job' ∈ done.filterMap FetchEffect.scheduled) :
    job' = job := by
  unfold Scheduler.scheduleInLoop at h
  split at h
  · split at h
    · obtain ⟨_, -, h⟩ := bind_ok.1 h
      obtain ⟨time, -, h⟩ := bind_ok.1 h
      obtain ⟨_, -, h⟩ := bind_ok.1 h
      cases h
      simpa [FetchEffect.scheduled] using hjob
    · cases h
      simpa [FetchEffect.scheduled] using hjob
  · cases h
    simp at hjob

variable {parseInstant : String → Result Instant} {USING_ACURAST : Bool}

/-- The text of an entry's script is where its job is looked up. -/
theorem ipfsUri_of_treatEntry {entry : Micheline × Moment} {parsed : Tezos.JobEntry}
    {done : List (FetchEffect Bytes)}
    (hparsed : Tezos.parseEntry (TextSdk.utf8 parseInstant) entry.1 = .ok parsed)
    (h : Tezos.treatEntry (TextSdk.utf8 parseInstant) USING_ACURAST entry = .ok done)
    {job : Job} (hjob : job ∈ done.filterMap FetchEffect.scheduled) :
    job.ipfsUri = stringOfBytes parsed.script := by
  obtain ⟨parsed', hparsed', h⟩ := bind_ok.1 h
  rw [hparsed] at hparsed'
  cases hparsed'
  obtain ⟨startTimestamp, -, h⟩ := bind_ok.1 h
  obtain ⟨endTimestamp, -, h⟩ := bind_ok.1 h
  obtain ⟨scheduled, hscheduled, h⟩ := bind_ok.1 h
  cases h
  rw [List.filterMap_append, List.mem_append] at hjob
  rcases hjob with hjob | hjob
  · rw [scheduled_of_scheduleInLoop hscheduled hjob]
    rfl
  · split at hjob <;> simp [FetchEffect.scheduled] at hjob

theorem job_of_treatJob {assignment : JobAssignment} {registration : JobRegistration}
    {moment : Moment} {done : List (FetchEffect JobIdentifier)}
    (h : AcurastRPC.treatJob (TextSdk.utf8 parseInstant) USING_ACURAST
      (assignment, .ok registration, moment) = .ok done)
    {job : Job} (hjob : job ∈ done.filterMap FetchEffect.scheduled) :
    job.ipfsUri = stringOfBytes registration.script ∧
      job.requester = assignment.jobId.requester := by
  obtain ⟨registration', hregistration, h⟩ := bind_ok.1 h
  cases hregistration
  split at h
  · rw [scheduled_of_scheduleInLoop h hjob]
    exact ⟨rfl, rfl⟩
  · cases h
    simp [FetchEffect.scheduled] at hjob

/-- The execution of a job fulfills and reports under the identifier that
was read from the chain exactly where the identifier's script is UTF-8. -/
theorem identifier_returned_iff :
    (∀ (entry : Micheline × Moment) parsed done,
      Tezos.parseEntry (TextSdk.utf8 parseInstant) entry.1 = .ok parsed →
      Tezos.treatEntry (TextSdk.utf8 parseInstant) USING_ACURAST entry = .ok done →
      ∀ job ∈ done.filterMap FetchEffect.scheduled, ∀ isLastReport script,
      ∃ executor, Extras.execution ⟨job, isLastReport⟩ script = some executor ∧
        ∀ sdk NETWORK cryptoModule fetchBranch fetchCounter parameters op,
        executor.Builds
          (Tezos.fulfill sdk NETWORK cryptoModule fetchBranch fetchCounter)
          parameters op →
        (op.FulfillsFor parsed.script ↔ IsUtf8 parsed.script)) ∧
    (∀ (assignment : JobAssignment) registration moment done,
      -- The account of a requester has 32 bytes.
      assignment.jobId.requester.length = 32 →
      registration.script = assignment.jobId.script →
      AcurastRPC.treatJob (TextSdk.utf8 parseInstant) USING_ACURAST
        (assignment, .ok registration, moment) = .ok done →
      ∀ job ∈ done.filterMap FetchEffect.scheduled, ∀ isLastReport script,
      ∃ executor, Extras.execution ⟨job, isLastReport⟩ script = some executor ∧
        (executor.report = some (assignment.jobId, isLastReport) ↔
          IsUtf8 assignment.jobId.script)) := by
  constructor
  · intro entry parsed done hparsed h job hjob isLastReport script
    refine ⟨_, Extras.execution_eq _ script, ?_⟩
    intro sdk NETWORK cryptoModule fetchBranch fetchCounter parameters op hop
    rw [fulfillsFor_iff_of_builds hop, ← bytesOfString_stringOfBytes_iff,
      ipfsUri_of_treatEntry hparsed h hjob]
  · intro assignment registration moment done hwidth hscript h job hjob
      isLastReport script
    obtain ⟨huri, hrequester⟩ := job_of_treatJob h hjob
    refine ⟨_, Extras.execution_eq _ script, ?_⟩
    have hne : job.requester.isEmpty = false := by
      rw [hrequester, List.isEmpty_eq_false_iff, ← List.length_pos_iff]
      omega
    rw [Extras.report_eq, if_neg (by rw [hne]; decide), huri, hrequester, hscript,
      ← bytesOfString_stringOfBytes_iff]
    simp only [Option.some.injEq, Prod.mk.injEq, and_true]
    constructor
    · intro heq
      exact congrArg JobIdentifier.script heq
    · intro heq
      rw [heq]

/-! ## An identifier that is text, and one that is not -/

def yearEntry (script : Bytes) : Micheline × Moment :=
  (.prim "Pair" [.bytes script,
    .prim "Pair" [.int "1", .string "2023-01-01T00:00:00Z",
      .string "2024-01-01T00:00:00Z", .int "3600", .int "0", .int "0", .int "0"]],
    midsummer)

def yearAssignment (script : Bytes) : JobAssignment where
  jobId := { requester := List.replicate 32 7, script := script }
  acknowledged := true

def yearRegistration (script : Bytes) : JobRegistration where
  script := script
  startTime := 1672531200000
  endTime := 1704067200000
  interval := 3600000

/-- What `yearEntry` and `yearRegistration` have scheduled. -/
def yearJob (requester script : Bytes) (interval : Int) : Job where
  ipfsUri := stringOfBytes script
  requester := requester
  startTimestamp := 1672531200000
  endTimestamp := 1704067200000
  interval := interval
  fee := 0
  gasLimit := 0
  storageLimit := 0

theorem scheduleInLoop_yearJob {Id : Type} {USING_ACURAST : Bool} {interval : Int}
    {requester script : Bytes}
    (h : Scheduler.systemNextScheduleTimestamp USING_ACURAST
      (yearJob requester script interval) midsummer.resolvedAt = .ok 1687352400000) :
    (Scheduler.scheduleInLoop USING_ACURAST midsummer
      (yearJob requester script interval) : Result (List (FetchEffect Id)))
      = .ok [.alarm (yearJob requester script interval) 1687352400000] := by
  refine (if_pos (by simp [yearJob, midsummer])).trans ?_
  exact bind_ok.2 ⟨_, rfl, bind_ok.2 ⟨_, h, rfl⟩⟩

theorem yearEntry_scheduled (script : Bytes) :
    ∃ parsed done,
      Tezos.parseEntry (TextSdk.utf8 isoTexts.parseInstant) (yearEntry script).1
        = .ok parsed ∧
      Tezos.treatEntry (TextSdk.utf8 isoTexts.parseInstant) false (yearEntry script)
        = .ok done ∧
      parsed.script = script ∧
      yearJob [] script 3600 ∈ done.filterMap FetchEffect.scheduled := by
  have hparsed : Tezos.parseEntry (TextSdk.utf8 isoTexts.parseInstant)
      (yearEntry script).1
      = .ok ⟨script, 1, ⟨1672531200, 0⟩, ⟨1704067200, 0⟩, 3600, 0, 0, 0⟩ := rfl
  have hstart : Instant.toEpochMilli ⟨1672531200, 0⟩ = .ok 1672531200000 := by
    simp [Instant.toEpochMilli, IsLong]
  have hends : Instant.toEpochMilli ⟨1704067200, 0⟩ = .ok 1704067200000 := by
    simp [Instant.toEpochMilli, IsLong]
  exact ⟨_, _, hparsed, bind_ok.2 ⟨_, hparsed, bind_ok.2 ⟨_, hstart,
    bind_ok.2 ⟨_, hends, bind_ok.2 ⟨_, scheduleInLoop_yearJob rfl, rfl⟩⟩⟩⟩, rfl,
    List.mem_singleton.2 rfl⟩

theorem yearRegistration_scheduled (script : Bytes) :
    ∃ done,
      AcurastRPC.treatJob (TextSdk.utf8 isoTexts.parseInstant) true
        (yearAssignment script, .ok (yearRegistration script), midsummer)
        = .ok done ∧
      yearJob (List.replicate 32 7) script 3600000
        ∈ done.filterMap FetchEffect.scheduled :=
  ⟨_, bind_ok.2 ⟨_, rfl, scheduleInLoop_yearJob rfl⟩, List.mem_singleton.2 rfl⟩

theorem identifier_returned_plain :
    (∃ executor, Extras.execution
        ⟨yearJob [] (bytesOfString "ipfs://Qm") 3600, false⟩ "" = some executor ∧
      ∃ op, executor.Builds idleFulfill [.int 0] op ∧
        op.FulfillsFor (bytesOfString "ipfs://Qm")) ∧
    (∃ executor, Extras.execution
        ⟨yearJob (List.replicate 32 7) (bytesOfString "ipfs://Qm") 3600000, true⟩ ""
          = some executor ∧
      executor.report
        = some ((yearAssignment (bytesOfString "ipfs://Qm")).jobId, true)) := by
  have hutf8 := isUtf8_bytesOfString "ipfs://Qm"
  constructor
  · obtain ⟨parsed, done, hparsed, hdone, hscript, hjob⟩ :=
      yearEntry_scheduled (bytesOfString "ipfs://Qm")
    obtain ⟨executor, hexecutor, h⟩ := identifier_returned_iff.1 _ parsed done
      hparsed hdone _ hjob false ""
    rw [hscript] at h
    obtain ⟨op, hop⟩ : ∃ op, executor.Builds idleFulfill [.int 0] op := by
      rw [Extras.execution_eq] at hexecutor
      cases hexecutor
      exact ⟨_, .inr rfl⟩
    exact ⟨executor, hexecutor, op, hop, (h _ _ _ _ _ _ _ hop).2 hutf8⟩
  · obtain ⟨done, hdone, hjob⟩ :=
      yearRegistration_scheduled (bytesOfString "ipfs://Qm")
    obtain ⟨executor, hexecutor, h⟩ := identifier_returned_iff.2 _ _ _ done
      (by decide) rfl hdone _ hjob true ""
    exact ⟨executor, hexecutor, h.2 hutf8⟩

/-- `ipfs://Qm#` and a byte that begins no character. -/
def fragmentScript : Bytes := bytesOfString "ipfs://Qm#" ++ [0xFF]

/-- Both chains' answers go out under another script. -/
theorem identifier_changed :
    (∃ parsed done,
      Tezos.parseEntry (TextSdk.utf8 isoTexts.parseInstant)
        (yearEntry fragmentScript).1 = .ok parsed ∧
      Tezos.treatEntry (TextSdk.utf8 isoTexts.parseInstant) false
        (yearEntry fragmentScript) = .ok done ∧
      parsed.script = fragmentScript ∧
      yearJob [] fragmentScript 3600 ∈ done.filterMap FetchEffect.scheduled ∧
      ∃ executor op, Extras.execution ⟨yearJob [] fragmentScript 3600, false⟩ ""
          = some executor ∧
        executor.Builds idleFulfill [.int 0] op ∧
        ¬ op.FulfillsFor fragmentScript) ∧
    (∃ done,
      AcurastRPC.treatJob (TextSdk.utf8 isoTexts.parseInstant) true
        (yearAssignment fragmentScript, .ok (yearRegistration fragmentScript),
          midsummer) = .ok done ∧
      yearJob (List.replicate 32 7) fragmentScript 3600000
        ∈ done.filterMap FetchEffect.scheduled ∧
      ∃ executor jobId, Extras.execution
          ⟨yearJob (List.replicate 32 7) fragmentScript 3600000, true⟩ ""
            = some executor ∧
        executor.report = some (jobId, true) ∧
        jobId ≠ (yearAssignment fragmentScript).jobId) := by
  have hchanged : bytesOfString (stringOfBytes fragmentScript) ≠ fragmentScript := by
    decide
  constructor
  · obtain ⟨parsed, done, hparsed, hdone, hscript, hjob⟩ :=
      yearEntry_scheduled fragmentScript
    have hexecutor :=
      Extras.execution_eq ⟨yearJob [] fragmentScript 3600, false⟩ ""
    obtain ⟨op, hop⟩ : ∃ op, V8Executor.Builds
        ⟨bytesOfString (stringOfBytes fragmentScript), "",
          Extras.toBundle ⟨yearJob [] fragmentScript 3600, false⟩⟩
        idleFulfill [.int 0] op := ⟨_, .inr rfl⟩
    refine ⟨parsed, done, hparsed, hdone, hscript, hjob, _, op, hexecutor, hop, ?_⟩
    rw [fulfillsFor_iff_of_builds hop]
    exact hchanged
  · obtain ⟨done, hdone, hjob⟩ := yearRegistration_scheduled fragmentScript
    refine ⟨done, hdone, hjob, _, _, Extras.execution_eq _ _, rfl, ?_⟩
    intro heq
    exact hchanged (congrArg JobIdentifier.script heq)

end DataProcessor
