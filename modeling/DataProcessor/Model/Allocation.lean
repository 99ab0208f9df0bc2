import DataProcessor.Lib.Transition
import DataProcessor.Model.Scheduler

/-!
# Request codes drawn at the same time

`resolveUri` calls back on any of ten threads, so the part of the callback
that finds a request code runs in several threads at once. It reads the next
free code, looks whether its key has one, and then reads that or applies two
entries: the key's code and the next free code. Each access to the store is
a step of its own here; what `apply` has been given is written in one step.
-/

namespace DataProcessor

open Lib

/-- What a callback has read so far. -/
inductive AllocationStage
  | start
  | counted (next : Int32)
  /-- The key has a code. -/
  | present (next : Int32)
  /-- The key has none. -/
  | absent (next : Int32)
  deriving DecidableEq

/-- What the callback is about to apply. -/
def AllocationStage.applies : AllocationStage → Option Int32
  | .absent next => some next
  | _ => none

structure Allocation where
  key : String × Int
  stage : AllocationStage
  deriving DecidableEq

/-- The key's name in the store. -/
def Allocation.name (a : Allocation) : String :=
  Scheduler.counterKey a.key.1 a.key.2

structure AllocationState where
  prefs : SharedPreferences
  callbacks : List Allocation
  /-- Every key with each code a callback has got for it. -/
  assigned : List ((String × Int) × Int32)

inductive AllocationAction
  /-- A script has come for a job and its time. -/
  | callback (key : String × Int)
  /-- The callback's next access to the store. -/
  | access (i : Nat)
  /-- The callback ends where it is, with its process. -/
  | kill (i : Nat)
  deriving DecidableEq

namespace AllocationState

def fresh : AllocationState where
  prefs := SharedPreferences.empty
  callbacks := []
  assigned := []

variable (s : AllocationState)

def goOn (i : Nat) (key : String × Int) (stage : AllocationStage) : AllocationState :=
  { s with callbacks := s.callbacks.set i { key := key, stage := stage } }

def drop (i : Nat) : AllocationState :=
  { s with callbacks := s.callbacks.eraseIdx i }

def assign (i : Nat) (key : String × Int) (code : Int32) (prefs : SharedPreferences) :
    AllocationState where
  prefs := prefs
  callbacks := s.callbacks.eraseIdx i
  assigned := (key, code) :: s.assigned

def access (i : Nat) (a : Allocation) : AllocationState :=
  match a.stage with
  | .start =>
      match s.prefs.getInt Constants.NEXT_REQUEST_COUNTER_KEY 0 with
      | .ok next => s.goOn i a.key (.counted next)
      | .error _ => s.drop i
  | .counted next =>
      if s.prefs.contains a.name then s.goOn i a.key (.present next)
      else s.goOn i a.key (.absent next)
  | .present next =>
      match s.prefs.getInt a.name next with
      | .ok code => s.assign i a.key code s.prefs
      | .error _ => s.drop i
  | .absent next =>
      s.assign i a.key next ((s.prefs.put a.name (.int next)).put
        Constants.NEXT_REQUEST_COUNTER_KEY (.int (next + 1)))

def step : AllocationAction → Option AllocationState
  | .callback key =>
      some { s with callbacks := s.callbacks ++ [{ key := key, stage := .start }] }
  | .access i => s.callbacks[i]?.map (s.access i)
  | .kill i => if i < s.callbacks.length then some (s.drop i) else none

/-- The store is as the callback has read it, and the codes have not come
round. -/
def Untouched (a : Allocation) (next : Int32) : Prop :=
  s.prefs.getInt Constants.NEXT_REQUEST_COUNTER_KEY 0 = .ok next ∧
    s.prefs.contains a.name = false ∧ (next = 0 → s.assigned = [])

/-- Another callback has just applied the same two entries. -/
def AppliedAlready (a : Allocation) (next : Int32) : Prop :=
  s.prefs a.name = some (.int next) ∧
    s.prefs Constants.NEXT_REQUEST_COUNTER_KEY = some (.int (next + 1))

/-- The condition on a step that applies entries. -/
def AppliesAsRead : AllocationAction → Prop
  | .access i => ∀ a ∈ s.callbacks[i]?, ∀ next ∈ a.stage.applies,
      s.Untouched a next ∨ s.AppliedAlready a next
  | _ => True

instance (a : Allocation) (next : Int32) : Decidable (s.Untouched a next) :=
  inferInstanceAs (Decidable (_ ∧ _ ∧ (_ → _)))

instance (a : Allocation) (next : Int32) : Decidable (s.AppliedAlready a next) :=
  inferInstanceAs (Decidable (_ ∧ _))

instance : ∀ action, Decidable (s.AppliesAsRead action)
  | .access i =>
      decidable_of_iff ((s.callbacks[i]?.all fun a => a.stage.applies.all fun next =>
          decide (s.Untouched a next ∨ s.AppliedAlready a next)) = true)
        (by simp [AppliesAsRead, Option.all_eq_true])
  | .callback _ | .kill _ => inferInstanceAs (Decidable True)

end AllocationState

end DataProcessor
