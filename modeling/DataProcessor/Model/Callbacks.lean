import DataProcessor.Model.Android

/-!
# Code that answers through callbacks

The network and chain classes take two callbacks, one for success and one
for an error, and may raise besides. A `Task` is a piece of such code: it
raises or returns, and keeps a record of the callbacks it has invoked either
way. What a callback itself raises lands in whatever `try` the invocation
stands in, so an invocation carries its outcome.
-/

namespace DataProcessor

/-- What is thrown: an `Exception`, or an `Error`, which a handler of
exceptions lets through. -/
inductive Thrown
  | exception (e : Exn)
  | error (name : String)
  deriving DecidableEq

/-- The two callbacks a caller supplies. -/
inductive Callback
  | success
  | error
  deriving DecidableEq

structure TaskState (σ : Type) where
  invoked : List Callback
  device : σ

abbrev Task (σ : Type) := EStateM Thrown (TaskState σ)

namespace Task

variable {σ α β : Type}

def lift : Result α → Task σ α
  | .ok a => pure a
  | .error e => throw (.exception e)

/-- An invocation of a callback, which returns or throws. -/
def invoke (callback : Callback) (outcome : Except Thrown Unit) : Task σ Unit := do
  modify fun s => { s with invoked := s.invoked ++ [callback] }
  match outcome with
  | .ok () => return ()
  | .error t => throw t

/-- `try { body } catch (e: Exception) { handler(e) }`. -/
def catchException (body : Task σ α) (handler : Exn → Task σ α) : Task σ α :=
  tryCatch body fun
    | .exception e => handler e
    | .error name => throw (.error name)

/-- `try { body } catch (e: Throwable) { handler(e) }`. -/
def catchThrowable (body : Task σ α) (handler : Thrown → Task σ α) : Task σ α :=
  tryCatch body handler

/-- A task handed to an executor, or a coroutine that is launched: what it
throws reaches no code of the repository. Nothing that follows such a call
in the code that makes it touches a callback, so the task stands where it is
handed over. -/
def submit (task : Task σ Unit) : Task σ Unit :=
  tryCatch task fun _ => pure ()

/-- The callbacks a finished piece of code has invoked, in order. -/
def invoked (task : Task σ Unit) (device : σ) : List Callback :=
  match task.run { invoked := [], device := device } with
  | .ok _ s => s.invoked
  | .error _ s => s.invoked

/-- One of the two callbacks has been invoked, once. -/
def CallsOnce (task : Task σ Unit) (device : σ) : Prop :=
  (task.invoked device).length = 1

instance (task : Task σ Unit) (device : σ) : Decidable (task.CallsOnce device) :=
  inferInstanceAs (Decidable (_ = _))

/-! ## How a task ends

`Ends` says what a task adds to the record and how it leaves, from any state.
-/

@[simp] theorem lift_ok_bind (a : α) (f : α → Task σ β) :
    (lift (.ok a) >>= f) = f a := rfl

@[simp] theorem lift_error_bind (e : Exn) (f : α → Task σ β) :
    (lift (.error e) >>= f) = throw (.exception e) := rfl

/-- To return or to throw, as an outcome says. -/
def finish (s : TaskState σ) : Except Thrown Unit → EStateM.Result Thrown (TaskState σ) Unit
  | .ok () => .ok () s
  | .error t => .error t s

def Ends (task : Task σ Unit) (log : List Callback) (outcome : Except Thrown Unit) : Prop :=
  ∀ s, ∃ s', s'.invoked = s.invoked ++ log ∧ task.run s = finish s' outcome

section

variable {task : Task σ Unit} {log log' : List Callback} {outcome : Except Thrown Unit}

theorem ends_pure : (pure () : Task σ Unit).Ends [] (.ok ()) :=
  fun s => ⟨s, (List.append_nil _).symm, rfl⟩

theorem ends_throw (t : Thrown) : (throw t : Task σ Unit).Ends [] (.error t) :=
  fun s => ⟨s, (List.append_nil _).symm, rfl⟩

theorem ends_modify {f : TaskState σ → TaskState σ} (hf : ∀ s, (f s).invoked = s.invoked) :
    (modify f : Task σ Unit).Ends [] (.ok ()) :=
  fun s => ⟨f s, by rw [hf, List.append_nil], rfl⟩

theorem ends_invoke (callback : Callback) (outcome : Except Thrown Unit) :
    (invoke callback outcome : Task σ Unit).Ends [callback] outcome := by
  intro s
  refine ⟨{ s with invoked := s.invoked ++ [callback] }, rfl, ?_⟩
  cases outcome with
  | ok _ => rfl
  | error t => rfl

theorem Ends.bind {next : Unit → Task σ Unit} (h : task.Ends log (.ok ()))
    (hnext : (next ()).Ends log' outcome) : (task >>= next).Ends (log ++ log') outcome := by
  intro s
  obtain ⟨s', hs', hrun⟩ := h s
  obtain ⟨s'', hs'', hrun'⟩ := hnext s'
  refine ⟨s'', by rw [hs'', hs', List.append_assoc], ?_⟩
  unfold EStateM.run at *
  simp only [Bind.bind, EStateM.bind, hrun]
  exact hrun'

theorem Ends.bind_error {next : Unit → Task σ Unit} {t : Thrown}
    (h : task.Ends log (.error t)) : (task >>= next).Ends log (.error t) := by
  intro s
  obtain ⟨s', hs', hrun⟩ := h s
  refine ⟨s', hs', ?_⟩
  unfold EStateM.run at *
  simp only [Bind.bind, EStateM.bind, hrun]
  rfl

theorem Ends.catchThrowable_ok {handler : Thrown → Task σ Unit}
    (h : task.Ends log (.ok ())) : (catchThrowable task handler).Ends log (.ok ()) := by
  intro s
  obtain ⟨s', hs', hrun⟩ := h s
  refine ⟨s', hs', ?_⟩
  unfold EStateM.run at *
  simp only [catchThrowable, tryCatch, tryCatchThe, MonadExceptOf.tryCatch,
    EStateM.tryCatch, hrun]
  rfl

theorem Ends.catchThrowable_error {handler : Thrown → Task σ Unit} {t : Thrown}
    (h : task.Ends log (.error t)) (hhandler : (handler t).Ends log' outcome) :
    (catchThrowable task handler).Ends (log ++ log') outcome := by
  intro s
  obtain ⟨s', hs', hrun⟩ := h s
  obtain ⟨s'', hs'', hrun'⟩ := hhandler s'
  refine ⟨s'', by rw [hs'', hs', List.append_assoc], ?_⟩
  unfold EStateM.run at *
  simp only [catchThrowable, tryCatch, tryCatchThe, MonadExceptOf.tryCatch,
    EStateM.tryCatch, hrun]
  exact hrun'

/-- The other two handlers are handlers of everything thrown. -/
theorem catchException_eq (handler : Exn → Task σ Unit) :
    catchException task handler = catchThrowable task fun
      | .exception e => handler e
      | .error name => throw (.error name) := rfl

theorem Ends.submit (h : task.Ends log outcome) : task.submit.Ends log (.ok ()) := by
  cases outcome with
  | ok _ => exact h.catchThrowable_ok
  | error t =>
      have hend := @Ends.catchThrowable_error _ _ _ _ _ (fun _ => pure ()) t h ends_pure
      rw [List.append_nil] at hend
      exact hend

theorem Ends.invoked_eq (h : task.Ends log outcome) (device : σ) :
    task.invoked device = log := by
  obtain ⟨s', hs', hrun⟩ := h { invoked := [], device := device }
  rw [Task.invoked, hrun]
  cases outcome with
  | ok _ => exact hs'
  | error t => exact hs'

end

end Task

end DataProcessor
