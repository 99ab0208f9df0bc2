import DataProcessor.Lib.Transition
import DataProcessor.Model.FulfillTasks

/-!
# Revealing the account's key (`Tezos.init`, `TezosRPC.isRevealed`)

A node takes operations of an account only after the account's key has been
revealed. `init` sees to that: it asks a node for the manager key, and where
there is none it injects a reveal operation, by the same chain of callbacks
`fulfill` and `ack` use. When it gets through it sets `initialized`. Any
number of chains may be under way, each at a place of its own.

The state records what is known of the key, and for each transaction handed
to a node what was known then.
-/

namespace DataProcessor

open Lib

inductive OperationKind
  | reveal
  | transaction
  deriving DecidableEq

/-- What a chain of callbacks waits for. -/
inductive ChainStage
  /-- `getManagerKey`, in `isRevealed`. -/
  | managerKey
  | branch (kind : OperationKind)
  | counter (kind : OperationKind)
  /-- The answer to an attempt to inject, with so many retries left. -/
  | injection (kind : OperationKind) (retry : Nat)
  deriving DecidableEq

structure RevealState where
  /-- `IS_REVEALED` of the preference file. -/
  isRevealed : Bool
  initialized : Bool
  chains : List ChainStage
  /-- `isRevealed` has answered true. -/
  observed : Bool
  /-- A node has accepted a reveal operation. -/
  accepted : Bool
  /-- For each transaction handed to a node, the newest first: the key was
  observed as revealed, or a reveal accepted, before. -/
  sent : List Bool

inductive RevealAction
  | init
  /-- `fulfill` or `ack`. -/
  | call
  | answerManagerKey (i : Nat) (isRevealed : Bool)
  /-- The branch or the counter has come, and what follows is built. -/
  | proceed (i : Nat)
  | inject (i : Nat) (accepted : Bool)
  /-- Something on the way fails for good. -/
  | fail (i : Nat)
  deriving DecidableEq

namespace RevealState

variable (s : RevealState)

/-- A failed attempt: again, while there are retries. -/
def retryAt (i retry : Nat) (kind : OperationKind) : List ChainStage :=
  match retry with
  | 0 => s.chains.eraseIdx i
  | retry + 1 => s.chains.set i (.injection kind retry)

/-- What comes of the `i`th chain's attempt. -/
def answerInjection (i retry : Nat) (accepted : Bool) : OperationKind → RevealState
  | .reveal =>
      if accepted then { s with
        initialized := true
        accepted := true
        chains := s.chains.eraseIdx i }
      else { s with chains := s.retryAt i retry .reveal }
  | .transaction => { s with
      sent := (s.observed || s.accepted) :: s.sent
      chains := if accepted then s.chains.eraseIdx i
        else s.retryAt i retry .transaction }

def step : RevealAction → Option RevealState
  | .init =>
      if s.isRevealed then some { s with initialized := true, observed := true }
      else some { s with chains := s.chains ++ [.managerKey] }
  | .call => some { s with chains := s.chains ++ [.branch .transaction] }
  | .answerManagerKey i isRevealed =>
      match s.chains[i]? with
      | some .managerKey =>
          if isRevealed then some { s with
            isRevealed := true
            observed := true
            initialized := true
            chains := s.chains.eraseIdx i }
          else some { s with
            isRevealed := false
            chains := s.chains.set i (.branch .reveal) }
      | _ => none
  | .proceed i =>
      match s.chains[i]? with
      | some (.branch kind) => some { s with chains := s.chains.set i (.counter kind) }
      | some (.counter kind) => some { s with
          chains := s.chains.set i (.injection kind Constants.INJECTION_RETRY_COUNT) }
      | _ => none
  | .inject i accepted =>
      match s.chains[i]? with
      | some (.injection kind retry) => some (s.answerInjection i retry accepted kind)
      | _ => none
  | .fail i =>
      if i < s.chains.length then some { s with chains := s.chains.eraseIdx i } else none

/-- The process has just started: a stored flag is what a node once answered. -/
def Started : Prop :=
  s.initialized = false ∧ s.sent = [] ∧ (s.isRevealed = true → s.observed = true)

def SendsTransaction : RevealAction → Bool
  | .inject i _ =>
      match s.chains[i]? with
      | some (.injection .transaction _) => true
      | _ => false
  | _ => false

/-- The condition on a step: a transaction goes out only once the protocol is
initialized. -/
def WaitsForInit (a : RevealAction) : Prop :=
  s.SendsTransaction a = true → s.initialized = true

instance (a : RevealAction) : Decidable (s.WaitsForInit a) :=
  inferInstanceAs (Decidable (_ → _))

end RevealState

end DataProcessor
