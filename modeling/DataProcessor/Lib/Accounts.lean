import DataProcessor.Lib.Transition

/-!
# Numbers taken from a chain's count

A chain takes an account's transactions in the order of their numbers, each
number once, and answers how many it has taken. A client that starts several
transactions at a time asks for that count for each of them, builds the
transaction with what it makes of the answer, and sends it. Between the
question and the block that takes the transaction every other one is
answered the same count.

`Account.AsksAlone` is the condition under which this goes well: the count
is asked for only while no other transaction is built and not sent, every
transaction sent is in a block, and the answer is right. Then every
transaction is sent with the next number, `Account.Exact`, and no number is
sent twice.
-/

namespace DataProcessor.Lib

/-- A transaction that was sent, with the count at that moment and whether
another one was pending then. -/
structure Sent (κ : Type) where
  call : κ
  nonce : Nat
  next : Nat
  pending : Bool

structure Account (κ : Type) where
  /-- The account's transactions in blocks. -/
  included : Nat
  /-- Calls that have not asked for the count. -/
  started : List κ
  /-- Calls that have built a transaction with a number. -/
  built : List (κ × Nat)
  sent : List (Sent κ)

inductive AccountAction (κ ρ : Type)
  | start (calls : List κ)
  /-- The call's question for the count is answered. -/
  | ask (i : Nat) (answer : ρ)
  | send (i : Nat)
  /-- A call ends before it has asked, or before it has sent. -/
  | failStarted (i : Nat)
  | failBuilt (i : Nat)
  /-- The account's next transaction enters a block. -/
  | takeNext
  deriving DecidableEq

namespace Account

variable {κ ρ : Type}

def initial (included : Nat) : Account κ where
  included := included
  started := []
  built := []
  sent := []

/-- A transaction was sent that no block has taken. -/
def hasPending (s : Account κ) : Bool := s.sent.any fun tx => s.included ≤ tx.nonce

/-- `build` is the number of the transaction a call builds on an answer, at a
count; a call that builds none ends there. -/
def step (build : κ → ρ → Nat → Option Nat) (s : Account κ) :
    AccountAction κ ρ → Option (Account κ)
  | .start calls => some { s with started := s.started ++ calls }
  | .ask i answer =>
      s.started[i]?.map fun call => { s with
        started := s.started.eraseIdx i
        built := s.built ++ ((build call answer s.included).map fun n => (call, n)).toList }
  | .send i =>
      s.built[i]?.map fun tx => { s with
        built := s.built.eraseIdx i
        sent := {
          call := tx.1
          nonce := tx.2
          next := s.included
          pending := s.hasPending } :: s.sent }
  | .failStarted i =>
      if i < s.started.length then some { s with started := s.started.eraseIdx i } else none
  | .failBuilt i =>
      if i < s.built.length then some { s with built := s.built.eraseIdx i } else none
  | .takeNext =>
      if s.included ∈ s.sent.map Sent.nonce then some { s with included := s.included + 1 }
      else none

/-- The condition on a step; `right` says of an answer that it is right at a
count. -/
def AsksAlone (right : ρ → Nat → Prop) (s : Account κ) : AccountAction κ ρ → Prop
  | .ask _ answer => s.built = [] ∧ s.hasPending = false ∧ right answer s.included
  | _ => True

instance (right : ρ → Nat → Prop) [∀ answer n, Decidable (right answer n)] (s : Account κ) :
    ∀ a, Decidable (s.AsksAlone right a)
  | .ask _ answer =>
      if hnone : s.built.isEmpty = true then
        if hrest : s.hasPending = false ∧ right answer s.included then
          isTrue ⟨List.isEmpty_iff.1 hnone, hrest⟩
        else isFalse fun h => hrest h.2
      else isFalse fun h => hnone (List.isEmpty_iff.2 h.1)
  | .start _ | .send _ | .failStarted _ | .failBuilt _ | .takeNext =>
      inferInstanceAs (Decidable True)

/-- No number was sent twice, and each was the next one. -/
structure Exact (s : Account κ) : Prop where
  distinct : (s.sent.map Sent.nonce).Nodup
  next : ∀ tx ∈ s.sent, tx.nonce = tx.next

/-- The invariant: at most one transaction is built and not sent; it has the
next number, and all before it are in blocks. -/
structure InTurn (s : Account κ) : Prop extends s.Exact where
  one : s.built.length ≤ 1
  fresh : ∀ tx ∈ s.built, tx.2 = s.included ∧ s.hasPending = false

variable {build : κ → ρ → Nat → Option Nat} {right : ρ → Nat → Prop} {s t : Account κ}

theorem inTurn_initial (included : Nat) : (initial included : Account κ).InTurn where
  distinct := List.nodup_nil
  next := nofun
  one := Nat.zero_le 1
  fresh := nofun

theorem hasPending_eq_false : s.hasPending = false ↔ ∀ tx ∈ s.sent, tx.nonce < s.included := by
  rw [hasPending, List.any_eq_false]
  simp only [decide_eq_true_eq, Nat.not_le]

/-- A step that sends nothing and builds nothing new. -/
theorem InTurn.of_sublist (h : s.InTurn) (hincluded : t.included = s.included)
    (hsent : t.sent = s.sent) (hbuilt : t.built.Sublist s.built) : t.InTurn := by
  have hpending : t.hasPending = s.hasPending := by
    rw [hasPending, hasPending, hsent, hincluded]
  refine ⟨⟨?_, ?_⟩, Nat.le_trans hbuilt.length_le h.one, ?_⟩
  · rw [hsent]
    exact h.distinct
  · rw [hsent]
    exact h.next
  · intro tx htx
    rw [hincluded, hpending]
    exact h.fresh tx (hbuilt.subset htx)

/-- The one built transaction is sent: its number is new. -/
theorem InTurn.send (h : s.InTurn) {i : Nat} {tx : κ × Nat} (htx : s.built[i]? = some tx) :
    InTurn { s with
      built := s.built.eraseIdx i
      sent := { call := tx.1, nonce := tx.2, next := s.included, pending := s.hasPending }
        :: s.sent } := by
  obtain ⟨hi, hget⟩ := List.getElem?_eq_some_iff.1 htx
  obtain ⟨hnumber, hpending⟩ := h.fresh tx (List.mem_of_getElem? htx)
  rw [hasPending_eq_false] at hpending
  have hnone : s.built.eraseIdx i = [] := by
    have hone := h.one
    rw [← List.length_eq_zero_iff, List.length_eraseIdx_of_lt hi]
    omega
  refine ⟨⟨?_, ?_⟩, ?_, ?_⟩
  · show (tx.2 :: s.sent.map Sent.nonce).Nodup
    refine List.nodup_cons.2 ⟨fun hmem => ?_, h.distinct⟩
    obtain ⟨tx', htx', heq⟩ := List.mem_map.1 hmem
    have := hpending tx' htx'
    omega
  · intro tx' htx'
    rcases List.mem_cons.1 htx' with rfl | htx'
    · exact hnumber
    · exact h.next tx' htx'
  · rw [hnone]
    exact Nat.zero_le 1
  · rw [hnone]
    exact nofun

/-- On a right answer the count is the number. -/
def BuildsCount (build : κ → ρ → Nat → Option Nat) (right : ρ → Nat → Prop) : Prop :=
  ∀ call answer n m, right answer n → build call answer n = some m → m = n

theorem InTurn.step (hbuild : BuildsCount build right) (h : s.InTurn) {a : AccountAction κ ρ}
    (halone : s.AsksAlone right a) (hstep : s.step build a = some t) : t.InTurn := by
  cases a with
  | start calls =>
      injection hstep with hstep
      subst hstep
      exact h.of_sublist rfl rfl (List.Sublist.refl _)
  | ask i answer =>
      obtain ⟨hnone, hpending, hright⟩ := halone
      simp only [Account.step] at hstep
      obtain ⟨call, hi, hstep⟩ := Option.map_eq_some_iff.1 hstep
      subst hstep
      cases hnumber : build call answer s.included with
      | none =>
          refine ⟨⟨h.distinct, h.next⟩, ?_, ?_⟩
          · simp [hnone]
          · intro tx htx
            simp [hnone] at htx
      | some m =>
          have hm := hbuild call answer _ m hright hnumber
          refine ⟨⟨h.distinct, h.next⟩, ?_, ?_⟩
          · simp [hnone]
          · intro tx htx
            rw [hnone] at htx
            rw [List.mem_singleton.1 htx]
            exact ⟨hm, hpending⟩
  | send i =>
      simp only [Account.step] at hstep
      obtain ⟨tx, hi, hstep⟩ := Option.map_eq_some_iff.1 hstep
      subst hstep
      exact h.send hi
  | failStarted i =>
      simp only [Account.step] at hstep
      split at hstep
      · injection hstep with hstep
        subst hstep
        exact h.of_sublist rfl rfl (List.Sublist.refl _)
      · cases hstep
  | failBuilt i =>
      simp only [Account.step] at hstep
      split at hstep
      · injection hstep with hstep
        subst hstep
        exact h.of_sublist rfl rfl (List.eraseIdx_sublist _ _)
      · cases hstep
  | takeNext =>
      simp only [Account.step] at hstep
      split at hstep
      · next hmem =>
          injection hstep with hstep
          subst hstep
          refine ⟨⟨h.distinct, h.next⟩, h.one, fun tx htx => ?_⟩
          -- With a transaction built and not sent, nothing is left to take.
          obtain ⟨tx', htx', heq⟩ := List.mem_map.1 hmem
          have := hasPending_eq_false.1 (h.fresh tx htx).2 tx' htx'
          omega
      · cases hstep

theorem exact_of_reaches (hbuild : BuildsCount build right) {included : Nat}
    (h : Reaches (step build) (AsksAlone right) (initial included : Account κ) t) :
    t.Exact :=
  (Reaches.invariant (fun _ _ _ (hs : InTurn _) halone hstep => hs.step hbuild halone hstep) h
    (inTurn_initial included)).toExact

end Account

end DataProcessor.Lib
