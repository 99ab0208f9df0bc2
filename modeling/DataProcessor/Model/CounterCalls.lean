import DataProcessor.Model.Counter

/-!
# Calls one after the other

`Tezos.fulfill` and `ack` when each call ends before the next begins. A call
takes the successor of the cached counter or a node's answer, writes that
into the cache, and only then builds, signs and injects its operation, with
the successor of what it has written. Nothing is written back when the
operation comes to nothing.

A call whose branch does not come changes nothing, and is left out.
-/

namespace DataProcessor

/-- One call, by everything it meets. -/
structure CounterCall where
  /-- The clock when the cache is read. -/
  now : Int64
  /-- A node's counter for the account, where one is asked and answers. -/
  answer : Option Int
  /-- The clock when the cache is written. -/
  written : Int64
  /-- The operation gets built and signed. -/
  built : Bool
  /-- A node accepts the operation, at one of the attempts. -/
  accepted : Bool
  deriving DecidableEq

structure Injection where
  counter : Int
  /-- The counter of the last operation that had been accepted. -/
  after : Int
  deriving DecidableEq

structure CallState where
  prefs : SharedPreferences
  /-- The counter of the last operation a node has accepted. -/
  accepted : Int
  /-- The call that has written the cache had its operation accepted. -/
  kept : Bool
  injected : List Injection

namespace CallState

variable (s : CallState)

/-- The rest of a call, once it has its counter. -/
def finish (counter : Int) (call : CounterCall) : CallState :=
  { prefs := TezosRPC.writeCounter s.prefs counter call.written
    accepted := if call.built && call.accepted then counter + 1 else s.accepted
    kept := call.built && call.accepted
    injected := if call.built
      then { counter := counter + 1, after := s.accepted } :: s.injected
      else s.injected }

def call (call : CounterCall) : CallState :=
  match TezosRPC.cachedCounter s.prefs call.now with
  | .error _ => s
  | .ok (some counter) => s.finish counter call
  | .ok none =>
      match call.answer with
      | some counter => s.finish counter call
      | none => s

def step (call : CounterCall) : Option CallState := some (s.call call)

/-- Nothing has been injected, and nothing is known of the cache. -/
def Started : Prop := s.injected = [] ∧ s.kept = false

/-- The condition on a call that gets as far as injecting. A valid cache was
written by a call whose operation was accepted; and a node that is asked
knows of the last accepted operation. -/
def Current (call : CounterCall) : Prop :=
  call.built = true →
    if TezosRPC.isCacheHit (TezosRPC.cachedCounter s.prefs call.now) then s.kept = true
    else ∀ counter ∈ call.answer, counter = s.accepted

instance (call : CounterCall) : Decidable (s.Current call) :=
  inferInstanceAs (Decidable (_ → _))

/-- The same device as the tasks see it, with no call under way. -/
def counterState (head : Int) : CounterState where
  prefs := s.prefs
  queue := []
  questions := 0
  answers := []
  head := head
  injected := s.injected.map Injection.counter

end CallState

end DataProcessor
