import DataProcessor.Model.V8Locker

/-!
# When no ended callback keeps the locker

`withV8Lock` has no `finally`, so a body that raises leaves the lock with a
thread that goes away, and the executor spins for it without end. One such
case is saved by accident: after a success callback has raised, the error
callback enters on the same thread, is let in as the owner, and releases for
both when it returns.

The invariant ties the owner to the places in the code. A thread owns the
locker exactly while it is somewhere between an acquisition and a release,
and the executor owns it while the script runs and from its last acquisition
on.
-/

namespace DataProcessor

open Lib

namespace LockerState

variable {Thread : Type} {s s' : LockerState Thread}

/-- The phases in which the executor's thread owns the locker. -/
def executorOwns : ExecutorPhase → Bool
  | .script | .closing | .released => true
  | .sleeping | .spinning => false

structure Owned (s : LockerState Thread) : Prop where
  thread : ∀ t, s.owner = some (.thread t) ↔ (s.position t).holds = true
  executor : s.owner = some .executor ↔ executorOwns s.executor = true

/-- No thread but the owner is between an acquisition and a release. -/
theorem Owned.unique (h : s.Owned) {t t' : Thread}
    (howner : s.owner = some (.thread t)) (hholds : (s.position t').holds = true) :
    t' = t := by
  have howner' := (h.thread t').2 hholds
  rw [howner] at howner'
  injection howner' with howner'
  injection howner' with howner'
  exact howner'.symm

theorem owned_created : (created : LockerState Thread).Owned :=
  ⟨fun _ => ⟨nofun, nofun⟩, fun _ => rfl, fun _ => rfl⟩

/-- The executor's own steps change its phase, and the owner with it. -/
theorem Owned.executor_step (h : s.Owned) {owner : Option (LockOwner Thread)}
    {phase : ExecutorPhase} (hbefore : ∀ t, s.owner ≠ some (.thread t))
    (hthread : ∀ t, owner ≠ some (.thread t))
    (hphase : owner = some .executor ↔ executorOwns phase = true) :
    Owned { s with executor := phase, owner := owner } := by
  refine ⟨fun t => ⟨fun howner => absurd howner (hthread t), fun hholds => ?_⟩, hphase⟩
  exact absurd ((h.thread t).2 hholds) (hbefore t)

variable [DecidableEq Thread]

@[simp] theorem move_owner (t : Thread) (p : Position) : (s.move t p).owner = s.owner := rfl

theorem move_position (t t' : Thread) (p : Position) :
    (s.move t p).position t' = if t' = t then p else s.position t' :=
  Function.update_apply ..

/-- A move between two places that hold alike. -/
theorem Owned.move (h : s.Owned) {t : Thread} {p : Position}
    (hp : p.holds = (s.position t).holds) : (s.move t p).Owned := by
  refine ⟨fun t' => ?_, h.executor⟩
  rw [move_owner, move_position, h.thread t']
  split
  · next ht => rw [hp, ht]
  · exact Iff.rfl

/-- The locker passes to a thread from nobody, or from itself. -/
theorem Owned.acquire (h : s.Owned) {t : Thread} (hfree : s.Available (.thread t))
    (callback : V8Callback) :
    Owned { s.move t (.inside callback) with owner := some (.thread t) } := by
  have hexec : executorOwns s.executor ≠ true := by
    intro hown
    have howner := h.executor.2 hown
    rcases hfree with hnone | hself
    · rw [hnone] at howner
      cases howner
    · rw [hself] at howner
      cases howner
  have hother : ∀ t', t' ≠ t → (s.position t').holds ≠ true := by
    intro t' hne hholds
    rcases hfree with hnone | hself
    · have howner := (h.thread t').2 hholds
      rw [hnone] at howner
      cases howner
    · exact hne (h.unique hself hholds)
  refine ⟨fun t' => ?_, ⟨nofun, fun hown => absurd hown hexec⟩⟩
  show some (LockOwner.thread t) = some (.thread t')
    ↔ ((s.move t (.inside callback)).position t').holds = true
  rw [move_position]
  split
  · next ht =>
      rw [ht]
      exact ⟨fun _ => rfl, fun _ => rfl⟩
  · next ht =>
      refine ⟨fun howner => ?_, fun hholds => absurd hholds (hother t' ht)⟩
      injection howner with howner
      injection howner with howner
      exact absurd howner.symm ht

theorem Owned.acquireFor (h : s.Owned) {t : Thread}
    (hholds : (s.position t).holds = true → s.owner = some (.thread t))
    (callback : V8Callback) : (s.acquireFor t callback).Owned := by
  unfold LockerState.acquireFor
  split
  · next hfree => exact h.acquire hfree callback
  · next hbusy =>
      split
      · refine h.move ?_
        cases hpos : (s.position t).holds with
        | false => rfl
        | true => exact absurd (.inr (hholds hpos)) hbusy
      · exact h

/-- The owner lets go. -/
theorem Owned.release (h : s.Owned) {t : Thread} (hleaving : s.position t = .leaving) :
    Owned { s.move t .away with owner := none } := by
  have howner : s.owner = some (.thread t) := by
    rw [h.thread t, hleaving]
    rfl
  refine ⟨fun t' => ?_, ⟨nofun, fun hown => ?_⟩⟩
  · show none = some (LockOwner.thread t') ↔ ((s.move t .away).position t').holds = true
    rw [move_position]
    split
    · exact ⟨nofun, nofun⟩
    · next hne => exact ⟨nofun, fun hholds => absurd (h.unique howner hholds) hne⟩
  · have hexec := h.executor.2 hown
    rw [howner] at hexec
    cases hexec

theorem Owned.step (h : s.Owned) {a : LockerAction Thread} (hraises : s.RaisesHandled a)
    (hstep : s.step a = some s') : s'.Owned := by
  cases a with
  | callBack t callback =>
      simp only [LockerState.step] at hstep
      split at hstep
      · next haway =>
          injection hstep with hstep
          subst hstep
          exact h.move (by rw [haway]; rfl)
      · cases hstep
  | tryAcquire t =>
      simp only [LockerState.step] at hstep
      split at hstep
      · next callback hacquiring =>
          injection hstep with hstep
          subst hstep
          exact h.acquireFor (by rw [hacquiring]; nofun) callback
      · injection hstep with hstep
        subst hstep
        exact h.acquireFor (h.thread t).2 .httpError
      · cases hstep
  | bodyReturns t =>
      simp only [LockerState.step] at hstep
      split at hstep
      · next hinside =>
          injection hstep with hstep
          subst hstep
          exact h.move (by rw [hinside]; rfl)
      · cases hstep
  | bodyRaises t isException =>
      obtain ⟨hinside, rfl⟩ := hraises
      simp only [LockerState.step, hinside] at hstep
      injection hstep with hstep
      subst hstep
      exact h.move (by rw [hinside]; rfl)
  | release t =>
      simp only [LockerState.step] at hstep
      split at hstep
      · next hleaving =>
          injection hstep with hstep
          subst hstep
          exact h.release hleaving
      · cases hstep
  | scriptEnds =>
      simp only [LockerState.step] at hstep
      split at hstep
      · next hphase =>
          injection hstep with hstep
          subst hstep
          have howner : s.owner = some .executor := h.executor.2 (by rw [hphase]; rfl)
          exact h.executor_step (by rw [howner]; nofun) nofun ⟨nofun, nofun⟩
      · cases hstep
  | wake =>
      simp only [LockerState.step] at hstep
      split at hstep
      · next hphase =>
          injection hstep with hstep
          subst hstep
          refine ⟨h.thread, ?_⟩
          rw [h.executor, hphase]
          exact Iff.rfl
      · cases hstep
  | executorTryAcquire =>
      simp only [LockerState.step] at hstep
      split at hstep
      · split at hstep
        · next hfree =>
            injection hstep with hstep
            subst hstep
            refine h.executor_step ?_ nofun ⟨fun _ => rfl, fun _ => rfl⟩
            rcases hfree with howner | howner <;>
              (rw [howner]; nofun)
        · injection hstep with hstep
          subst hstep
          exact h
      · cases hstep
  | closeRuntime =>
      simp only [LockerState.step] at hstep
      split at hstep
      · next hphase =>
          injection hstep with hstep
          subst hstep
          refine ⟨h.thread, ?_⟩
          rw [h.executor, hphase]
          exact Iff.rfl
      · cases hstep

/-- The locker is free once every call that acquired it has ended, and the
executor's loop gets it at its next turn. -/
def FreeWhenEnded (s : LockerState Thread) : Prop :=
  s.InWindow → s.CallsEnded → s.owner = none ∧
    (s.executor = .spinning →
      (s.step .executorTryAcquire).map LockerState.executor = some .closing)

theorem Owned.freeWhenEnded (h : s.Owned) : s.FreeWhenEnded := by
  intro hwindow hended
  have hfree : s.owner = none := by
    cases howner : s.owner with
    | none => rfl
    | some owner =>
        cases owner with
        | executor =>
            have hown := h.executor.1 howner
            rcases hwindow with hphase | hphase <;>
              (rw [hphase] at hown; cases hown)
        | thread t =>
            have hholds := (h.thread t).1 howner
            rw [hended t] at hholds
            cases hholds
  refine ⟨hfree, fun hphase => ?_⟩
  simp only [LockerState.step, hphase, Available, hfree, true_or, if_true, Option.map_some]

/-- A step that does not meet the condition leaves the locker with a thread
that has left. -/
theorem Owned.not_freeWhenEnded (h : s.Owned) {a : LockerAction Thread}
    (hraises : ¬ s.RaisesHandled a) (hstep : s.step a = some s') : ¬ s'.FreeWhenEnded := by
  cases a with
  | bodyRaises t isException =>
      simp only [LockerState.step] at hstep
      split at hstep
      · next callback hinside =>
          have howner : s.owner = some (.thread t) := by
            rw [h.thread t, hinside]
            rfl
          split at hstep
          · next hhttp =>
              refine absurd ⟨?_, hhttp.2⟩ hraises
              rw [hinside, hhttp.1]
          · injection hstep with hstep
            subst hstep
            intro hfree
            have hwindow : (s.move t .away).InWindow := by
              have hexec : executorOwns s.executor ≠ true := by
                rw [ne_eq, ← h.executor, howner]
                nofun
              show s.executor = .sleeping ∨ s.executor = .spinning
              cases hphase : s.executor <;> simp [hphase, executorOwns] at hexec ⊢
            have hended : (s.move t .away).CallsEnded := by
              intro t'
              rw [move_position]
              split
              · rfl
              · next hne =>
                  rw [Bool.eq_false_iff]
                  exact fun hholds => hne (h.unique howner hholds)
            have hnone := (hfree hwindow hended).1
            rw [move_owner, howner] at hnone
            cases hnone
      · cases hstep
  | callBack | tryAcquire | bodyReturns | release | scriptEnds | wake | executorTryAcquire
  | closeRuntime => exact absurd trivial hraises

end LockerState

/-- Where only success callbacks of requests raise, and no `Error`, no ended
callback keeps the locker from the executor. -/
theorem locker_free_when_ended {Thread : Type} [DecidableEq Thread]
    {s : LockerState Thread}
    (h : Reaches LockerState.step LockerState.RaisesHandled LockerState.created s) :
    s.FreeWhenEnded :=
  have howned : s.Owned :=
    Reaches.invariant (fun _ _ _ hs hraises hstep => LockerState.Owned.step hs hraises hstep)
      h LockerState.owned_created
  howned.freeWhenEnded

/-! ## A success callback that raises, and an error callback that does -/

/-- The error callback of the same request returns. -/
def raisedThenHandled : List (LockerAction Nat) :=
  [.callBack 0 .httpSuccess, .scriptEnds, .tryAcquire 0, .callBack 1 .attest,
    .bodyRaises 0 true, .tryAcquire 1, .tryAcquire 0, .bodyReturns 0, .wake, .release 0]

def raisedLast : List (LockerAction Nat) :=
  [.scriptEnds, .callBack 0 .httpError, .tryAcquire 0, .bodyRaises 0 true, .wake]

theorem locker_free_after_handled :
    ∃ s, runAll LockerState.step LockerState.RaisesHandled raisedThenHandled
        LockerState.created = some s ∧ s.executor = .spinning ∧ s.owner = none ∧
      s.FreeWhenEnded := by
  obtain ⟨s, hs, hexec, howner⟩ : ∃ s,
      runAll LockerState.step LockerState.RaisesHandled raisedThenHandled
        LockerState.created = some s ∧ s.executor = .spinning ∧ s.owner = none :=
    ⟨_, rfl, rfl, rfl⟩
  exact ⟨s, hs, hexec, howner, locker_free_when_ended (reaches_of_runAll hs)⟩

/-- The executor spins for a locker whose owner has left. -/
theorem locker_kept_by_ended :
    ∃ s, Reaches LockerState.step anyStep (LockerState.created : LockerState Nat) s ∧
      s.executor = .spinning ∧ s.CallsEnded ∧ s.owner = some (.thread 0) ∧
      s.step .executorTryAcquire = some s ∧ ¬ s.FreeWhenEnded := by
  obtain ⟨s, hs, hexec, howner, hposition⟩ : ∃ s,
      runAll LockerState.step anyStep raisedLast LockerState.created = some s ∧
        s.executor = .spinning ∧ s.owner = some (.thread 0) ∧
        s.position = Function.update (Function.update (Function.update
          (fun _ => .away) 0 (.acquiring .httpError)) 0 (.inside .httpError)) 0 .away :=
    ⟨_, rfl, rfl, rfl, rfl⟩
  have hended : s.CallsEnded := by
    intro t
    rw [hposition]
    simp only [Function.update_idem, Function.update_apply]
    split <;> rfl
  refine ⟨s, reaches_of_runAll hs, hexec, hended, howner, ?_, ?_⟩
  · simp [LockerState.step, hexec, LockerState.Available, howner]
  · intro hfree
    have hnone := (hfree (.inr hexec) hended).1
    rw [howner] at hnone
    cases hnone

end DataProcessor
