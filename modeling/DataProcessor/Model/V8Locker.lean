import DataProcessor.Lib.Transition

/-!
# The lock of a script's runtime (`v8/V8Utils.kt`, `V8Executor.execute`)

A V8 runtime is used by one thread at a time, the owner of its locker. The
executor's thread creates the runtime and owns the locker while the script
runs; then it releases it, sleeps for the time callbacks are given, and
acquires it a last time to close everything. In between the script's
callbacks come in on network threads and on the main thread, each through
`withV8Lock`.

What a callback raises leaves `withV8Lock` with the lock held. From the
success callback of a request it gets as far as the handler in
`httpsRequest`, which calls the error callback on the same thread; from any
other it leaves the code altogether.
-/

namespace DataProcessor

open Lib

inductive V8Callback
  | httpSuccess
  | httpError
  /-- Either callback of an attestation. -/
  | attest
  deriving DecidableEq

/-- How far a thread is in the code around `withV8Lock`. -/
inductive Position
  /-- In no callback. -/
  | away
  /-- In the `tryAcquire` loop. -/
  | acquiring (callback : V8Callback)
  | inside (callback : V8Callback)
  /-- The body has returned; `release` comes next. -/
  | leaving
  /-- In the handler of `httpsRequest`, in the error callback's loop. -/
  | handling
  deriving DecidableEq

/-- The thread has acquired the locker in a call it has not left. -/
def Position.holds : Position → Bool
  | inside _ | leaving | handling => true
  | away | acquiring _ => false

inductive ExecutorPhase
  | script
  | sleeping
  /-- In the `tryAcquire` loop at the end. -/
  | spinning
  | closing
  /-- `v8.release`. -/
  | released
  deriving DecidableEq

inductive LockOwner (Thread : Type)
  | executor
  | thread (t : Thread)
  deriving DecidableEq

structure LockerState (Thread : Type) where
  owner : Option (LockOwner Thread)
  executor : ExecutorPhase
  position : Thread → Position

inductive LockerAction (Thread : Type)
  | callBack (t : Thread) (callback : V8Callback)
  | tryAcquire (t : Thread)
  | bodyReturns (t : Thread)
  /-- The body raises an `Exception`, or else an `Error`. -/
  | bodyRaises (t : Thread) (isException : Bool)
  | release (t : Thread)
  /-- The script has returned or raised, and the locker is released. -/
  | scriptEnds
  | wake
  | executorTryAcquire
  | closeRuntime
  deriving DecidableEq

namespace LockerState

variable {Thread : Type} [DecidableEq Thread] (s : LockerState Thread)

/-- The runtime has just been created, by the executor's thread. -/
def created : LockerState Thread where
  owner := some .executor
  executor := .script
  position := fun _ => .away

/-- `tryAcquire()` answers `true`. -/
def Available (owner : LockOwner Thread) : Prop :=
  s.owner = none ∨ s.owner = some owner

instance (owner : LockOwner Thread) : Decidable (s.Available owner) :=
  inferInstanceAs (Decidable (_ ∨ _))

def move (t : Thread) (position : Position) : LockerState Thread :=
  { s with position := Function.update s.position t position }

/-- One turn of the loop in `withV8Lock`. -/
def acquireFor (t : Thread) (callback : V8Callback) : LockerState Thread :=
  if s.Available (.thread t) then
    { s.move t (.inside callback) with owner := some (.thread t) }
  else if s.executor = .released then s.move t .away
  else s

def step : LockerAction Thread → Option (LockerState Thread)
  | .callBack t callback =>
      match s.position t with
      | .away => some (s.move t (.acquiring callback))
      | _ => none
  | .tryAcquire t =>
      match s.position t with
      | .acquiring callback => some (s.acquireFor t callback)
      | .handling => some (s.acquireFor t .httpError)
      | _ => none
  | .bodyReturns t =>
      match s.position t with
      | .inside _ => some (s.move t .leaving)
      | _ => none
  | .bodyRaises t isException =>
      match s.position t with
      | .inside callback =>
          if callback = .httpSuccess ∧ isException then some (s.move t .handling)
          else some (s.move t .away)
      | _ => none
  | .release t =>
      match s.position t with
      | .leaving => some { s.move t .away with owner := none }
      | _ => none
  | .scriptEnds =>
      match s.executor with
      | .script => some { s with executor := .sleeping, owner := none }
      | _ => none
  | .wake =>
      match s.executor with
      | .sleeping => some { s with executor := .spinning }
      | _ => none
  | .executorTryAcquire =>
      match s.executor with
      | .spinning =>
          if s.Available .executor then
            some { s with executor := .closing, owner := some .executor }
          else some s
      | _ => none
  | .closeRuntime =>
      match s.executor with
      | .closing => some { s with executor := .released }
      | _ => none

/-- Between the release that follows the script and the last acquisition. -/
def InWindow : Prop := s.executor = .sleeping ∨ s.executor = .spinning

/-- Every call of `withV8Lock` that acquired the locker has ended. -/
def CallsEnded : Prop := ∀ t, (s.position t).holds = false

/-- The condition on a step. A body raises only in the success callback of a
request, and no `Error`. -/
def RaisesHandled : LockerAction Thread → Prop
  | .bodyRaises t isException =>
      s.position t = .inside .httpSuccess ∧ isException = true
  | _ => True

instance : ∀ a, Decidable (s.RaisesHandled a)
  | .bodyRaises .. => inferInstanceAs (Decidable (_ ∧ _))
  | .callBack .. | .tryAcquire _ | .bodyReturns _ | .release _ | .scriptEnds | .wake
  | .executorTryAcquire | .closeRuntime => inferInstanceAs (Decidable True)

end LockerState

end DataProcessor
