import DataProcessor.Model.CounterCalls
import DataProcessor.Proofs.CounterRuns

/-!
# When every operation carries the next counter

The cache is written before the operation's outcome is known and answers for
30 seconds from then on. After an operation that failed it answers a counter
too high; a node whose head block does not have the last operation answers
one too low. In a run without either, `CallState.Current`, each operation is
one above the last accepted one.
-/

namespace DataProcessor

open Lib

namespace CallState

variable {s t : CallState}

/-- A call on its own is a run of the executor's tasks, with a node's answer
for the head block's counter. -/
theorem call_run (call : CounterCall) {head : Int}
    (hhead : ∀ counter ∈ call.answer, counter = head) :
    ∃ as, runAll CounterState.step anyStep as (s.counterState head)
      = some ((s.call call).counterState head) := by
  cases hcached : TezosRPC.cachedCounter s.prefs call.now with
  | error e =>
      refine ⟨[.fetchCounter, .runTask call.now true], ?_⟩
      simp [runAll, anyStep, CounterState.step, CounterState.runRead, counterState,
        CallState.call, hcached]
  | ok hit =>
      cases hit with
      | some counter =>
          refine ⟨[.fetchCounter, .runTask call.now true,
            .runTask call.written call.built], ?_⟩
          cases hbuilt : call.built <;>
            simp [runAll, anyStep, CounterState.step, CounterState.runRead,
              CounterState.runWrite, counterState, CallState.call, finish, hcached,
              hbuilt]
      | none =>
          cases hanswer : call.answer with
          | none =>
              refine ⟨[.fetchCounter, .runTask call.now false], ?_⟩
              simp [runAll, anyStep, CounterState.step, CounterState.runRead,
                counterState, CallState.call, hcached, hanswer]
          | some counter =>
              have heq := hhead counter (by rw [hanswer]; rfl)
              refine ⟨[.fetchCounter, .runTask call.now true, .lookUp, .answer 0,
                .runTask call.written call.built], ?_⟩
              cases hbuilt : call.built <;>
                simp [runAll, anyStep, CounterState.step, CounterState.runRead,
                  CounterState.runWrite, counterState, CallState.call, finish, hcached,
                  hanswer, hbuilt, heq]

/-- Operations in sequence, and a cache that answers the last accepted one's
counter where the call that wrote it was accepted. -/
structure InSequence (s : CallState) : Prop where
  next : ∀ op ∈ s.injected, op.counter = op.after + 1
  cache : s.kept = true → ∀ now counter,
    TezosRPC.cachedCounter s.prefs now = .ok (some counter) → counter = s.accepted

theorem Started.inSequence (h : s.Started) : s.InSequence := by
  obtain ⟨hinjected, hkept⟩ := h
  refine ⟨?_, ?_⟩
  · intro op hop
    rw [hinjected] at hop
    simp at hop
  · intro htrue
    rw [hkept] at htrue
    cases htrue

/-- The counter matters only to a call that gets as far as injecting. -/
theorem InSequence.finish (h : s.InSequence) {counter : Int} {call : CounterCall}
    (hcounter : call.built = true → counter = s.accepted) :
    (s.finish counter call).InSequence := by
  refine ⟨?_, ?_⟩
  · intro op hop
    simp only [CallState.finish] at hop
    split at hop
    · next hbuilt =>
        rcases List.mem_cons.1 hop with rfl | hop
        · show counter + 1 = s.accepted + 1
          rw [hcounter hbuilt]
        · exact h.next op hop
    · exact h.next op hop
  · intro hkept now counter' hcached
    have hnext := TezosRPC.cachedCounter_writeCounter hcached
    simp only [CallState.finish] at hkept ⊢
    rw [if_pos hkept, hnext]

theorem InSequence.call (h : s.InSequence) {call : CounterCall}
    (hcurrent : s.Current call) : (s.call call).InSequence := by
  unfold CallState.Current at hcurrent
  unfold CallState.call
  split
  · exact h
  · next counter hcached =>
      refine h.finish fun hbuilt => ?_
      have hkept := hcurrent hbuilt
      rw [hcached] at hkept
      exact h.cache hkept _ _ hcached
  · next hcached =>
      split
      · next counter hanswer =>
          refine h.finish fun hbuilt => ?_
          have hnode := hcurrent hbuilt
          rw [hcached] at hnode
          exact hnode counter hanswer
      · exact h

end CallState

/-- Where every call that injects finds the cache or the node up to date,
each operation carries the counter after the last accepted one's, whatever
else fails and however much time passes. -/
theorem injected_in_sequence {s t : CallState} (hstart : s.Started)
    (h : Reaches CallState.step CallState.Current s t) :
    ∀ op ∈ t.injected, op.counter = op.after + 1 := by
  have hinv : t.InSequence := by
    refine Reaches.invariant (fun s call t hs hcurrent hstep => ?_) h hstart.inSequence
    injection hstep with hstep
    rw [← hstep]
    exact hs.call hcurrent
  exact hinv.next

/-! ## A rejected operation, and a node that is behind -/

def startedCalls : CallState where
  prefs := SharedPreferences.empty
  accepted := 41
  kept := false
  injected := []

/-- A call at this time, with its operation's outcome. -/
def callAt (now : Int64) (answer : Option Int) (accepted : Bool) : CounterCall where
  now := now
  answer := answer
  written := now + 1
  built := true
  accepted := accepted

theorem injected_in_sequence_twice :
    ∃ t, runAll CallState.step CallState.Current
        [callAt noon (some 41) true, callAt (noon + 400) none true] startedCalls
        = some t ∧
      t.injected = [⟨43, 42⟩, ⟨42, 41⟩] ∧
      ∀ op ∈ t.injected, op.counter = op.after + 1 := by
  obtain ⟨t, ht, hinjected⟩ : ∃ t, runAll CallState.step CallState.Current
      [callAt noon (some 41) true, callAt (noon + 400) none true] startedCalls
        = some t ∧ t.injected = [⟨43, 42⟩, ⟨42, 41⟩] := ⟨_, rfl, rfl⟩
  exact ⟨t, ht, hinjected, injected_in_sequence ⟨rfl, rfl⟩ (reaches_of_runAll ht)⟩

/-- After a rejected operation the next one, 400 milliseconds later, leaves a
gap. After an accepted one that no block has yet, the next one, 31 seconds
later, takes its counter again. -/
theorem injected_out_of_sequence :
    startedCalls.Started ∧
    (∃ t, Reaches CallState.step anyStep startedCalls t ∧
      t.injected = [⟨43, 41⟩, ⟨42, 41⟩] ∧
      ¬ ∀ op ∈ t.injected, op.counter = op.after + 1) ∧
    (∃ t, Reaches CallState.step anyStep startedCalls t ∧
      t.injected = [⟨42, 42⟩, ⟨42, 41⟩] ∧
      ¬ ∀ op ∈ t.injected, op.counter = op.after + 1) := by
  obtain ⟨t, ht, hinjected⟩ : ∃ t, runAll CallState.step anyStep
      [callAt noon (some 41) false, callAt (noon + 400) none true] startedCalls
        = some t ∧ t.injected = [⟨43, 41⟩, ⟨42, 41⟩] := ⟨_, rfl, rfl⟩
  obtain ⟨t', ht', hinjected'⟩ : ∃ t, runAll CallState.step anyStep
      [callAt noon (some 41) true, callAt (noon + 31000) (some 41) true] startedCalls
        = some t ∧ t.injected = [⟨42, 42⟩, ⟨42, 41⟩] := ⟨_, rfl, rfl⟩
  refine ⟨⟨rfl, rfl⟩, ⟨t, reaches_of_runAll ht, hinjected, ?_⟩,
    t', reaches_of_runAll ht', hinjected', ?_⟩
  · rw [hinjected]
    decide
  · rw [hinjected']
    decide

end DataProcessor
