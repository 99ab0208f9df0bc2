import Mathlib

/-!
# Runs of a machine, and what they keep

A machine is a partial step function: in a state, an action either leads to
a state or cannot happen. A guard says which actions a run may take where.
What holds at the start of a guarded run and is kept by every guarded step
holds in every state the run reaches, `Reaches.invariant`; a run given as a
list of actions is one of these, `reaches_of_runAll`.

A loop is a machine without a choice: in a state there is a next turn or
there is none. It stops where every turn makes a number smaller, and that
number bounds the turns, `exists_stopsAfter`.
-/

namespace DataProcessor.Lib

variable {σ α : Type}

def GuardedStep (step : σ → α → Option σ) (guard : σ → α → Prop) (s t : σ) : Prop :=
  ∃ a, guard s a ∧ step s a = some t

/-- The states a guarded run from `s` gets to. -/
def Reaches (step : σ → α → Option σ) (guard : σ → α → Prop) : σ → σ → Prop :=
  Relation.ReflTransGen (GuardedStep step guard)

/-- The guard of a run under no condition. -/
def anyStep (_ : σ) (_ : α) : Prop := True

variable {step : σ → α → Option σ} {guard : σ → α → Prop} {s t u : σ}

theorem Reaches.refl : Reaches step guard s s := Relation.ReflTransGen.refl

theorem Reaches.tail {a : α} (h : Reaches step guard s t) (hguard : guard t a)
    (hstep : step t a = some u) : Reaches step guard s u :=
  Relation.ReflTransGen.tail h ⟨a, hguard, hstep⟩

theorem Reaches.head {a : α} (hguard : guard s a) (hstep : step s a = some t)
    (h : Reaches step guard t u) : Reaches step guard s u :=
  Relation.ReflTransGen.head ⟨a, hguard, hstep⟩ h

theorem Reaches.invariant {Inv : σ → Prop}
    (hinv : ∀ s a t, Inv s → guard s a → step s a = some t → Inv t)
    (h : Reaches step guard s t) (hs : Inv s) : Inv t := by
  induction h with
  | refl => exact hs
  | tail _ hstep ih =>
      obtain ⟨a, hguard, hstep⟩ := hstep
      exact hinv _ a _ ih hguard hstep

instance : ∀ (s : σ) (a : α), Decidable (anyStep s a) :=
  fun _ _ => isTrue trivial

/-- The actions one after the other, as far as each may and can happen. -/
def runAll (step : σ → α → Option σ) (guard : σ → α → Prop)
    [∀ s a, Decidable (guard s a)] : List α → σ → Option σ
  | [], s => some s
  | a :: as, s => if guard s a then (step s a).bind (runAll step guard as) else none

theorem reaches_of_runAll [∀ s a, Decidable (guard s a)] {as : List α}
    (h : runAll step guard as s = some t) : Reaches step guard s t := by
  induction as generalizing s with
  | nil =>
      rw [runAll] at h
      injection h with h
      subst h
      exact .refl
  | cons a as ih =>
      rw [runAll] at h
      split at h
      · next hguard =>
          obtain ⟨m, hm, h⟩ := Option.bind_eq_some_iff.1 h
          exact Reaches.head hguard hm (ih h)
      · simp at h

/-! ## Loops -/

section

variable {turn : σ → Option σ} {Inv : σ → Prop} {variant : σ → Nat} {n : Nat}

/-- The loop makes `n` turns from the first state and stops in the second. -/
inductive StopsAfter (turn : σ → Option σ) : Nat → σ → σ → Prop
  | stop {s : σ} (h : turn s = none) : StopsAfter turn 0 s s
  | next {n : Nat} {s t u : σ} (h : turn s = some t) (rest : StopsAfter turn n t u) :
      StopsAfter turn (n + 1) s u

/-- What every turn keeps holds where the loop stops. -/
theorem StopsAfter.invariant (hkeep : ∀ s t, Inv s → turn s = some t → Inv t)
    (h : StopsAfter turn n s t) (hs : Inv s) : Inv t ∧ turn t = none := by
  induction h with
  | stop hstop => exact ⟨hs, hstop⟩
  | next hturn _ ih => exact ih (hkeep _ _ hs hturn)

/-- The induction is on the variant, which every turn makes smaller. -/
theorem exists_stopsAfter
    (hturn : ∀ s t, Inv s → turn s = some t → Inv t ∧ variant t < variant s) (hs : Inv s) :
    ∃ n ≤ variant s, ∃ t, StopsAfter turn n s t := by
  induction hv : variant s using Nat.strongRecOn generalizing s with
  | _ v ih =>
      cases hnext : turn s with
      | none => exact ⟨0, Nat.zero_le v, s, .stop hnext⟩
      | some t =>
          obtain ⟨ht, hlt⟩ := hturn s t hs hnext
          obtain ⟨n, hn, u, hstops⟩ := ih (variant t) (by omega) ht rfl
          exact ⟨n + 1, by omega, u, .next hnext hstops⟩

end

end DataProcessor.Lib
