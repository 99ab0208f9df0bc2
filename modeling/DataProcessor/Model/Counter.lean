import DataProcessor.Lib.Transition
import DataProcessor.Model.Android

/-!
# Where an operation's counter comes from (`TezosRPC.fetchCounter`)

`Tezos.fulfill` and `ack` both ask for the branch, then for the counter, and
inject an operation with the counter's successor. `fetchCounter` works in
two tasks of one single-threaded executor. The first reads the cache: while
it is younger than 30 seconds the counter is the cached one plus one, else a
node is asked. Whichever way the counter comes, a second task is put at the
end of the queue, which writes the cache and calls `onSuccess`, where the
operation is built, signed and injected.

All calls are alike, so the state holds no call by name: it holds the tasks
in their order, how many questions no node has looked up yet, and the
answers on their way.
-/

namespace DataProcessor

open Lib

namespace Constants

def TRANSACTION_COUNTER : String := "transaction_counter"

end Constants

namespace TezosRPC

/-- The cached counter's successor while the cache is valid. -/
def cachedCounter (prefs : SharedPreferences) (now : Int64) : Result (Option Int) := do
  let lastFetch ← prefs.getLong "LAST_COUNTER_FETCH" 0
  if now - lastFetch < 30 * 1000 then
    let text ← prefs.getString Constants.TRANSACTION_COUNTER "0"
    let counter ← BigInteger.ofString text 10
    return some (counter + 1)
  else return none

def isCacheHit : Result (Option Int) → Bool
  | .ok (some _) => true
  | _ => false

def writeCounter (prefs : SharedPreferences) (counter : Int) (now : Int64) :
    SharedPreferences :=
  (prefs.put Constants.TRANSACTION_COUNTER (.string (toString counter))).put
    "LAST_COUNTER_FETCH" (.long now)

end TezosRPC

inductive CounterTask
  | read
  | write (counter : Int)
  deriving DecidableEq

def CounterTask.counter? : CounterTask → Option Int
  | .read => none
  | .write counter => some counter

structure CounterState where
  prefs : SharedPreferences
  /-- The queue of `singleThreadedExecutor`. -/
  queue : List CounterTask
  /-- Questions sent, and not looked up yet. -/
  questions : Nat
  /-- Counters looked up, on their way to the device. -/
  answers : List Int
  /-- The account counter of the head block. -/
  head : Int
  injected : List Int

inductive CounterAction
  /-- `fetchBranch` has answered a call, which now asks for the counter. -/
  | fetchCounter
  /-- The executor takes its next task. `proceeds` says whether what may
  raise in it goes through: a synchronized node is found, the operation gets
  built and signed. -/
  | runTask (now : Int64) (proceeds : Bool)
  | lookUp
  | answer (i : Nat)
  /-- A question or an answer is lost; the call ends in `onError`. -/
  | loseQuestion
  | loseAnswer (i : Nat)
  /-- The next operation of the account enters the head block. -/
  | bake
  deriving DecidableEq

namespace CounterState

variable (s : CounterState)

/-- The first task `fetchCounter` submits. -/
def runRead (now : Int64) (proceeds : Bool) (queue : List CounterTask) :
    CounterState :=
  match TezosRPC.cachedCounter s.prefs now with
  | .error _ => { s with queue := queue }
  | .ok (some counter) => { s with queue := queue ++ [.write counter] }
  | .ok none =>
      if proceeds then { s with queue := queue, questions := s.questions + 1 }
      else { s with queue := queue }

/-- The second one, and the operation built in `onSuccess`. -/
def runWrite (counter : Int) (now : Int64) (proceeds : Bool)
    (queue : List CounterTask) : CounterState :=
  { s with
    prefs := TezosRPC.writeCounter s.prefs counter now
    queue := queue
    injected := if proceeds then (counter + 1) :: s.injected else s.injected }

def step : CounterAction → Option CounterState
  | .fetchCounter => some { s with queue := s.queue ++ [.read] }
  | .runTask now proceeds =>
      match s.queue with
      | [] => none
      | .read :: queue => some (s.runRead now proceeds queue)
      | .write counter :: queue => some (s.runWrite counter now proceeds queue)
  | .lookUp =>
      if s.questions = 0 then none
      else some { s with
        questions := s.questions - 1
        answers := s.answers ++ [s.head] }
  | .answer i =>
      s.answers[i]?.map fun counter => { s with
        answers := s.answers.eraseIdx i
        queue := s.queue ++ [.write counter] }
  | .loseQuestion =>
      if s.questions = 0 then none
      else some { s with questions := s.questions - 1 }
  | .loseAnswer i =>
      if i < s.answers.length then some { s with answers := s.answers.eraseIdx i }
      else none
  | .bake =>
      if s.head + 1 ∈ s.injected then some { s with head := s.head + 1 } else none

/-- No call is under way, and nothing has been injected. -/
def Idle : Prop :=
  s.queue = [] ∧ s.questions = 0 ∧ s.answers = [] ∧ s.injected = []

/-- The counters calls have taken and not written back. -/
def taken : List Int :=
  s.answers ++ s.queue.filterMap CounterTask.counter?

/-- The condition on a step. A call takes its counter, from a valid cache or
from a node, only while no other has one it has not written back; and a node
is asked only when every injected operation is in the head block. -/
def TakesInTurn : CounterAction → Prop
  | .runTask now _ =>
      s.queue.head? = some .read →
        TezosRPC.isCacheHit (TezosRPC.cachedCounter s.prefs now) → s.taken = []
  | .lookUp => s.taken = [] ∧ ∀ counter ∈ s.injected, counter ≤ s.head
  | _ => True

instance : ∀ a, Decidable (s.TakesInTurn a)
  | .runTask .. => inferInstanceAs (Decidable (_ → _ → _))
  | .lookUp => inferInstanceAs (Decidable (_ ∧ _))
  | .fetchCounter | .answer _ | .loseQuestion | .loseAnswer _ | .bake =>
      inferInstanceAs (Decidable True)

end CounterState

end DataProcessor
