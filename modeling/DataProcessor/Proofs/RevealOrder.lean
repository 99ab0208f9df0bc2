import DataProcessor.Model.Reveal

/-!
# No transaction before the key is revealed

`initialized` is set in two places, and in both the key is known to be
revealed or to get revealed. Nothing reads it: `fulfill` and `ack` inject
while `init` is still waiting, or after it has failed. Where they wait for
it, no transaction goes out too early.
-/

namespace DataProcessor

open Lib

namespace RevealState

variable {s t : RevealState}

structure Ordered (s : RevealState) : Prop where
  initialized : s.initialized = true → (s.observed || s.accepted) = true
  stored : s.isRevealed = true → s.observed = true
  sent : ∀ known ∈ s.sent, known = true

theorem Started.ordered (h : s.Started) : s.Ordered := by
  obtain ⟨hinit, hsent, hstored⟩ := h
  refine ⟨?_, hstored, ?_⟩
  · intro htrue
    rw [hinit] at htrue
    cases htrue
  · intro known hknown
    rw [hsent] at hknown
    simp at hknown

/-- A step that only moves chains. -/
theorem Ordered.of_chains (h : s.Ordered) (chains : List ChainStage) :
    Ordered { s with chains := chains } :=
  ⟨h.initialized, h.stored, h.sent⟩

theorem Ordered.answerInjection (h : s.Ordered) {i retry : Nat} {accepted : Bool}
    {kind : OperationKind}
    (hready : kind = .transaction → s.initialized = true) :
    (s.answerInjection i retry accepted kind).Ordered := by
  cases kind with
  | reveal =>
      simp only [RevealState.answerInjection]
      split
      · refine ⟨fun _ => ?_, h.stored, h.sent⟩
        exact Bool.or_true _
      · exact h.of_chains _
  | transaction =>
      refine ⟨h.initialized, h.stored, ?_⟩
      intro known hknown
      rcases List.mem_cons.1 hknown with rfl | hknown
      · exact h.initialized (hready rfl)
      · exact h.sent known hknown

theorem Ordered.step (h : s.Ordered) {a : RevealAction} (hwaits : s.WaitsForInit a)
    (hstep : s.step a = some t) : t.Ordered := by
  cases a with
  | init =>
      simp only [RevealState.step] at hstep
      split at hstep
      · injection hstep with hstep
        subst hstep
        exact ⟨fun _ => rfl, fun _ => rfl, h.sent⟩
      · injection hstep with hstep
        subst hstep
        exact h.of_chains _
  | call =>
      injection hstep with hstep
      subst hstep
      exact h.of_chains _
  | answerManagerKey i isRevealed =>
      simp only [RevealState.step] at hstep
      split at hstep
      · split at hstep
        · injection hstep with hstep
          subst hstep
          exact ⟨fun _ => rfl, fun _ => rfl, h.sent⟩
        · injection hstep with hstep
          subst hstep
          exact ⟨h.initialized, fun hfalse => (nomatch hfalse), h.sent⟩
      · cases hstep
  | proceed i =>
      simp only [RevealState.step] at hstep
      split at hstep
      · injection hstep with hstep
        subst hstep
        exact h.of_chains _
      · injection hstep with hstep
        subst hstep
        exact h.of_chains _
      · cases hstep
  | inject i accepted =>
      simp only [RevealState.step] at hstep
      split at hstep
      · next kind retry hchain =>
          injection hstep with hstep
          subst hstep
          refine h.answerInjection fun hkind => hwaits ?_
          rw [SendsTransaction, hchain, hkind]
      · cases hstep
  | fail i =>
      simp only [RevealState.step] at hstep
      split at hstep
      · injection hstep with hstep
        subst hstep
        exact h.of_chains _
      · cases hstep

end RevealState

/-- Where transactions wait for `initialized`, each goes out after the key
was observed as revealed or a reveal was accepted, in whatever order `init`
and the calls proceed and whatever fails. -/
theorem transactions_after_reveal {s t : RevealState} (hstart : s.Started)
    (h : Reaches RevealState.step RevealState.WaitsForInit s t) :
    ∀ known ∈ t.sent, known = true := by
  have hinv := Reaches.invariant
    (fun s a t (hs : s.Ordered) hwaits hstep => hs.step hwaits hstep) h hstart.ordered
  exact hinv.sent

/-! ## A call that waits for `init`, and one that does not -/

def startedReveal : RevealState where
  isRevealed := false
  initialized := false
  chains := []
  observed := false
  accepted := false
  sent := []

def revealThenCall : List RevealAction :=
  [.init, .answerManagerKey 0 false, .proceed 0, .proceed 0, .inject 0 false,
    .inject 0 true, .call, .proceed 0, .proceed 0, .inject 0 true]

/-- The call overtakes the reveal. -/
def callBeforeReveal : List RevealAction :=
  [.init, .call, .answerManagerKey 0 false, .proceed 1, .proceed 1, .inject 1 false]

theorem transactions_after_reveal_waiting :
    ∃ t, runAll RevealState.step RevealState.WaitsForInit revealThenCall startedReveal
        = some t ∧ t.sent = [true] ∧ ∀ known ∈ t.sent, known = true := by
  obtain ⟨t, ht, hsent⟩ : ∃ t, runAll RevealState.step RevealState.WaitsForInit
      revealThenCall startedReveal = some t ∧ t.sent = [true] := ⟨_, rfl, rfl⟩
  exact ⟨t, ht, hsent, transactions_after_reveal ⟨rfl, rfl, by decide⟩
    (reaches_of_runAll ht)⟩

theorem transaction_before_reveal :
    startedReveal.Started ∧ ∃ t, Reaches RevealState.step anyStep startedReveal t ∧
      t.sent = [false] ∧ ¬ ∀ known ∈ t.sent, known = true := by
  obtain ⟨t, ht, hsent⟩ : ∃ t, runAll RevealState.step anyStep callBeforeReveal
      startedReveal = some t ∧ t.sent = [false] := ⟨_, rfl, rfl⟩
  refine ⟨⟨rfl, rfl, by decide⟩, t, reaches_of_runAll ht, hsent, ?_⟩
  rw [hsent]
  decide

end DataProcessor
