import DataProcessor.Model.FulfillTasks
import DataProcessor.Proofs.Extras

/-!
# When a fulfillment calls back exactly once

A failure is reported where a `try` of the repository stands around it, and
lost where only an executor's task does: looking up a synchronized node,
reading the counter cache, and building and signing the operation are all
lost. A success callback that raises lands in the `try` of the attempt that
called it, and the attempt is made again.

So the condition follows the call from step to step. `Needs` is a step that
must go through, `IfAnswers` one whose failure is reported. The attempts to
inject are the one loop, and the induction is on the retries left: an
attempt whose success callback raised has called back once already, and
calls back exactly once only if the rest of the attempts stay silent.
-/

namespace DataProcessor

/-- The step goes through, and what it answers is as it should be. -/
def Needs {α : Type} (x : Result α) (p : α → Prop) : Prop :=
  match x with
  | .ok a => p a
  | .error _ => False

/-- If the step goes through, what it answers is as it should be. -/
def IfAnswers {α : Type} (x : Result α) (p : α → Prop) : Prop :=
  match x with
  | .ok a => p a
  | .error _ => True

namespace Task

variable {σ α : Type}

/-- The task returns, and calls back once under the condition only. -/
def OnceIf (task : Task σ Unit) (cond : Prop) : Prop :=
  ∃ log, task.Ends log (.ok ()) ∧ (log.length = 1 ↔ cond)

variable {task : Task σ Unit} {cond : Prop} {handler : Thrown → Task σ Unit}

theorem OnceIf.callsOnce (h : task.OnceIf cond) (device : σ) :
    task.CallsOnce device ↔ cond := by
  obtain ⟨log, hends, hlog⟩ := h
  rw [CallsOnce, hends.invoked_eq]
  exact hlog

theorem OnceIf.submit (h : task.OnceIf cond) : task.submit.OnceIf cond := by
  obtain ⟨log, hends, hlog⟩ := h
  exact ⟨log, hends.submit, hlog⟩

theorem OnceIf.catchThrowable (h : task.OnceIf cond) :
    (catchThrowable task handler).OnceIf cond := by
  obtain ⟨log, hends, hlog⟩ := h
  exact ⟨log, hends.catchThrowable_ok, hlog⟩

theorem callsOnce_submit (task : Task σ Unit) (device : σ) :
    task.submit.CallsOnce device ↔ task.CallsOnce device := by
  have hinvoked : task.submit.invoked device = task.invoked device := by
    unfold Task.invoked Task.submit EStateM.run
    simp only [tryCatch, tryCatchThe, MonadExceptOf.tryCatch, EStateM.tryCatch]
    cases task { invoked := [], device := device } <;> rfl
  rw [CallsOnce, hinvoked, CallsOnce]

/-- A failure in a task is lost. -/
theorem onceIf_lost {x : Result α} {f : α → Task σ Unit} {p : α → Prop}
    (h : ∀ a, x = .ok a → (Task.submit (f a)).OnceIf (p a)) :
    (Task.submit (lift x >>= f)).OnceIf (Needs x p) := by
  cases x with
  | ok a => exact h a rfl
  | error e => exact ⟨[], (ends_throw (.exception e)).submit, nofun, False.elim⟩

/-- A failure inside a `try` is reported. -/
theorem onceIf_reported {x : Result α} {f : α → Task σ Unit} {p : α → Prop}
    {answer : Thrown → Except Thrown Unit}
    (hhandler : ∀ t, (handler t).Ends [.error] (answer t))
    (h : ∀ a, x = .ok a → (Task.submit (Task.catchThrowable (f a) handler)).OnceIf (p a)) :
    (Task.submit (Task.catchThrowable (lift x >>= f) handler)).OnceIf (IfAnswers x p) := by
  cases x with
  | ok a => exact h a rfl
  | error e =>
      have hcatch := (ends_throw (.exception e)).catchThrowable_error (hhandler (.exception e))
      exact ⟨[.error], hcatch.submit, fun _ => trivial, fun _ => rfl⟩

/-- A callback that raises inside a `try` is followed by the error callback. -/
theorem onceIf_invoke {answer : Thrown → Except Thrown Unit}
    (hhandler : ∀ t, (handler t).Ends [.error] (answer t)) (callback : Callback)
    (outcome : Except Thrown Unit) :
    (Task.submit (Task.catchThrowable (invoke callback outcome) handler)).OnceIf
      (outcome = .ok ()) := by
  cases outcome with
  | ok _ =>
      exact ⟨[callback], (ends_invoke callback (.ok ())).catchThrowable_ok.submit,
        fun _ => rfl, fun _ => rfl⟩
  | error t =>
      exact ⟨[callback, .error],
        ((ends_invoke callback (.error t)).catchThrowable_error (hhandler t)).submit,
        nofun, nofun⟩

end Task

/-- The node a look-up draws. -/
def NodeLookup.drawn (lookup : NodeLookup) : Result TezosNode :=
  match lookup.synced[lookup.random % lookup.synced.length]? with
  | some node => .ok node
  | none => .error .noSuchElement

namespace TezosRPC

variable {call : TezosCall} {onError : Thrown → Except Thrown Unit}
  {onSuccess : Nat → String → Except Thrown Unit}

theorem launchAtSynced_eq (lookup : NodeLookup) (coroutine : TezosNode → FulfillTask)
    (handler : Thrown → FulfillTask) :
    launchAtSynced lookup coroutine handler = (do
      let node ← Task.lift lookup.drawn
      Task.submit (Task.catchThrowable (coroutine node) handler)) := by
  unfold launchAtSynced NodeLookup.getSyncedNodes NodeLookup.drawn
  cases lookup.synced[lookup.random % lookup.synced.length]? with
  | none => rfl
  | some node =>
      rw [Task.lift_ok_bind, Task.lift_ok_bind]
      show (do Task.submit (Task.catchThrowable (coroutine node) handler); pure ()) = _
      simp only [bind_pure_unit]

theorem onceIf_launchAtSynced {lookup : NodeLookup} {coroutine : TezosNode → FulfillTask}
    {handler : Thrown → FulfillTask} {p : TezosNode → Prop}
    (h : ∀ node, (Task.submit (Task.catchThrowable (coroutine node) handler)).OnceIf (p node)) :
    (Task.submit (launchAtSynced lookup coroutine handler)).OnceIf
      (Needs lookup.drawn p) := by
  rw [launchAtSynced_eq]
  exact Task.onceIf_lost fun node _ => (h node).submit

/-! ## The attempts to inject -/

/-- What a node answers to one attempt, if the attempt gets to a node. -/
def posted (call : TezosCall) (operation : Operation) (retry : Nat) :
    Result (Result String) := do
  let signature ← call.signOperation retry operation
  let forged ← call.forgeToBytes operation
  let node ← (call.injectLookup retry).drawn
  return node.injectOperation (toHex (forged ++ signature))

/-- What a coroutine does with a node's answer. -/
def answered (onSuccess : Nat → String → Except Thrown Unit) (retry : Nat)
    (handler : Thrown → FulfillTask) (answer : Result String) : FulfillTask :=
  Task.catchThrowable (do
    let operationHash ← Task.lift answer
    Task.invoke .success (onSuccess retry operationHash)) handler

theorem ends_attemptInjection {operation : Operation} {retry : Nat}
    {handler : Thrown → FulfillTask} :
    match posted call operation retry with
    | .error _ => ∃ outcome, (attemptInjection call retry operation
        (fun retry hash => Task.invoke .success (onSuccess retry hash)) handler).Ends [] outcome
    | .ok answer => ∀ log outcome, (answered onSuccess retry handler answer).Ends log outcome →
        (attemptInjection call retry operation
          (fun retry hash => Task.invoke .success (onSuccess retry hash)) handler).Ends log
            (.ok ()) := by
  unfold posted attemptInjection
  cases call.signOperation retry operation with
  | error e => exact ⟨_, Task.ends_throw (.exception e)⟩
  | ok signature =>
      cases call.forgeToBytes operation with
      | error e => exact ⟨_, Task.ends_throw (.exception e)⟩
      | ok forged =>
          rw [Task.lift_ok_bind, Task.lift_ok_bind, launchAtSynced_eq]
          cases (call.injectLookup retry).drawn with
          | error e => exact ⟨_, (Task.ends_throw (.exception e)).submit⟩
          | ok node =>
              intro log outcome h
              exact h.submit.submit

/-- The attempts from here on invoke no callback. -/
def InjectsSilently (call : TezosCall) (operation : Operation) : Nat → Prop
  | 0 => IfAnswers (posted call operation 0) fun _ => False
  | retry + 1 => IfAnswers (posted call operation (retry + 1)) fun
      | .ok _ => False
      | .error _ => InjectsSilently call operation retry

/-- The attempts from here on invoke one callback, once. -/
def InjectsOnce (call : TezosCall) (onSuccess : Nat → String → Except Thrown Unit)
    (operation : Operation) : Nat → Prop
  | 0 => Needs (posted call operation 0) fun answer =>
      IfAnswers answer fun hash => onSuccess 0 hash = .ok ()
  | retry + 1 => Needs (posted call operation (retry + 1)) fun
      | .ok hash => onSuccess (retry + 1) hash = .ok () ∨ InjectsSilently call operation retry
      | .error _ => InjectsOnce call onSuccess operation retry

/-- What an attempt adds to the record, where its handler adds `log`. -/
def attemptLog (onSuccess : String → Except Thrown Unit) (log : List Callback) :
    Result (Result String) → List Callback
  | .error _ => []
  | .ok (.error _) => log
  | .ok (.ok hash) =>
      match onSuccess hash with
      | .ok () => [.success]
      | .error _ => .success :: log

theorem ends_answered_returns {retry : Nat} {handler : Thrown → FulfillTask} {hash : String}
    (h : onSuccess retry hash = .ok ()) :
    (answered onSuccess retry handler (.ok hash)).Ends [.success] (.ok ()) := by
  rw [answered, Task.lift_ok_bind, h]
  exact (Task.ends_invoke .success (.ok ())).catchThrowable_ok

theorem ends_answered_raises {retry : Nat} {handler : Thrown → FulfillTask} {hash : String}
    {t : Thrown} (h : onSuccess retry hash = .error t) {log : List Callback}
    {outcome : Except Thrown Unit} (hhandler : (handler t).Ends log outcome) :
    (answered onSuccess retry handler (.ok hash)).Ends (.success :: log) outcome := by
  rw [answered, Task.lift_ok_bind, h]
  exact (Task.ends_invoke .success (.error t)).catchThrowable_error hhandler

theorem ends_answered_error {retry : Nat} {handler : Thrown → FulfillTask} {e : Exn}
    {log : List Callback} {outcome : Except Thrown Unit}
    (hhandler : (handler (.exception e)).Ends log outcome) :
    (answered onSuccess retry handler (.error e)).Ends log outcome :=
  (Task.ends_throw (.exception e)).catchThrowable_error hhandler

/-- One attempt, from what its handler does about anything thrown. -/
theorem ends_attempt {operation : Operation} {retry : Nat} {handler : Thrown → FulfillTask}
    {log : List Callback} {outcome : Thrown → Except Thrown Unit}
    (hhandler : ∀ t, (handler t).Ends log (outcome t)) :
    ∃ outcome', (attemptInjection call retry operation
      (fun retry hash => Task.invoke .success (onSuccess retry hash)) handler).Ends
        (attemptLog (onSuccess retry) log (posted call operation retry)) outcome' := by
  have hattempt := @ends_attemptInjection call onSuccess operation retry handler
  cases hposted : posted call operation retry with
  | error e =>
      rw [hposted] at hattempt
      exact hattempt
  | ok answer =>
      rw [hposted] at hattempt
      cases answer with
      | error e => exact ⟨_, hattempt _ _ (ends_answered_error (hhandler _))⟩
      | ok hash =>
          rw [attemptLog]
          cases hsuccess : onSuccess retry hash with
          | ok _ => exact ⟨_, hattempt _ _ (ends_answered_returns hsuccess)⟩
          | error t => exact ⟨_, hattempt _ _ (ends_answered_raises hsuccess (hhandler t))⟩

/-- The last attempt reports a failure. -/
theorem attemptLog_last (operation : Operation) :
    let log := attemptLog (onSuccess 0) [.error] (posted call operation 0)
    (log.length = 1 ↔ InjectsOnce call onSuccess operation 0) ∧
      (log = [] ↔ InjectsSilently call operation 0) := by
  rw [InjectsOnce, InjectsSilently]
  cases posted call operation 0 with
  | error e => exact ⟨⟨nofun, False.elim⟩, fun _ => trivial, fun _ => rfl⟩
  | ok answer =>
      cases answer with
      | error e => exact ⟨⟨fun _ => trivial, fun _ => rfl⟩, nofun, False.elim⟩
      | ok hash =>
          simp only [Needs, IfAnswers, attemptLog]
          cases onSuccess 0 hash with
          | ok _ => exact ⟨⟨fun _ => rfl, fun _ => rfl⟩, nofun, False.elim⟩
          | error t => exact ⟨⟨nofun, nofun⟩, nofun, False.elim⟩

/-- An earlier attempt hands a failure to the rest of the attempts. -/
theorem attemptLog_earlier (operation : Operation) (retry : Nat) {log : List Callback}
    (honce : log.length = 1 ↔ InjectsOnce call onSuccess operation retry)
    (hsilent : log = [] ↔ InjectsSilently call operation retry) :
    let log' := attemptLog (onSuccess (retry + 1)) log (posted call operation (retry + 1))
    (log'.length = 1 ↔ InjectsOnce call onSuccess operation (retry + 1)) ∧
      (log' = [] ↔ InjectsSilently call operation (retry + 1)) := by
  rw [InjectsOnce, InjectsSilently]
  cases posted call operation (retry + 1) with
  | error e => exact ⟨⟨nofun, False.elim⟩, fun _ => trivial, fun _ => rfl⟩
  | ok answer =>
      cases answer with
      | error e => exact ⟨honce, hsilent⟩
      | ok hash =>
          simp only [Needs, IfAnswers, attemptLog, ← hsilent]
          cases onSuccess (retry + 1) hash with
          | ok _ => exact ⟨⟨fun _ => .inl rfl, fun _ => rfl⟩, nofun, False.elim⟩
          | error t =>
              refine ⟨?_, nofun, False.elim⟩
              rw [List.length_cons, Nat.add_eq_right, List.length_eq_zero_iff]
              exact ⟨.inr, fun h => h.resolve_left nofun⟩

/-- All attempts, by induction on the retries left. -/
theorem ends_injectOperation (operation : Operation) (retry : Nat) :
    ∃ log outcome, (injectOperation call operation
        (fun retry hash => Task.invoke .success (onSuccess retry hash))
        (fun t => Task.invoke .error (onError t)) retry).Ends log outcome ∧
      (log.length = 1 ↔ InjectsOnce call onSuccess operation retry) ∧
      (log = [] ↔ InjectsSilently call operation retry) := by
  induction retry with
  | zero =>
      obtain ⟨outcome, hends⟩ := @ends_attempt call onSuccess operation 0 _ _ _
        fun t => Task.ends_invoke .error (onError t)
      exact ⟨_, outcome, hends, attemptLog_last operation⟩
  | succ retry ih =>
      obtain ⟨log, outcome, hrest, honce, hsilent⟩ := ih
      obtain ⟨outcome', hends⟩ := @ends_attempt call onSuccess operation (retry + 1) _ _ _
        fun _ => hrest
      exact ⟨_, outcome', hends, attemptLog_earlier operation retry honce hsilent⟩

/-! ## The steps before -/

/-- The condition on `fetchCounter`, over what its success callback needs. -/
def CounterOnce (call : TezosCall) (address : String) (p : Int → Prop) : Prop :=
  Needs (cachedCounter call.prefs call.now) fun
    | some counter => p counter
    | none =>
        Needs call.counterLookup.drawn fun node =>
        IfAnswers (node.getCounter address) fun text =>
        IfAnswers (BigInteger.ofString (text.getD "0") 10) p

theorem onceIf_fetchCounter {address : String} {next : Int → FulfillTask} {p : Int → Prop}
    (h : ∀ counter, (Task.submit (next counter)).OnceIf (p counter)) :
    (fetchCounter call address next fun t => Task.invoke .error (onError t)).OnceIf
      (CounterOnce call address p) := by
  refine Task.onceIf_lost fun cached _ => ?_
  cases cached with
  | some counter => exact (h counter).submit
  | none =>
      refine onceIf_launchAtSynced fun node => ?_
      refine Task.onceIf_reported (fun t => Task.ends_invoke .error (onError t)) fun text _ => ?_
      refine Task.onceIf_reported (fun t => Task.ends_invoke .error (onError t))
        fun counter _ => ?_
      exact (h counter).catchThrowable.submit

theorem onceIf_fetchBranch {next : String → FulfillTask} {p : String → Prop}
    (h : ∀ branch, (Task.submit (Task.catchThrowable (next branch)
      fun t => Task.invoke .error (onError t))).OnceIf (p branch)) :
    (fetchBranch call next fun t => Task.invoke .error (onError t)).OnceIf
      (Needs call.branchLookup.drawn fun node => IfAnswers node.getBlockHeader p) :=
  onceIf_launchAtSynced fun _ =>
    Task.onceIf_reported (fun t => Task.ends_invoke .error (onError t)) fun branch _ => h branch

end TezosRPC

/-- The condition on a call of `Tezos.fulfill`, step by step. -/
def Tezos.FulfillsOnce (sdk : TezosSdk) (NETWORK : String) (call : TezosCall)
    (context : Bundle) (unserializedPayload : V8Value)
    (onSuccess : Nat → String → Except Thrown Unit) : Prop :=
  Needs unserializedPayload.checkNotNull fun _ =>
  IfAnswers (Tezos.readRequest sdk NETWORK context unserializedPayload) fun request =>
  Needs call.branchLookup.drawn fun node =>
  IfAnswers node.getBlockHeader fun branch =>
  IfAnswers (TezosUtils.getPublicKeyHash sdk call.addressCrypto) fun address =>
  TezosRPC.CounterOnce call address fun counter =>
  Needs (Tezos.buildFulfillment sdk call.buildCrypto request branch counter) fun operation =>
  TezosRPC.InjectsOnce call onSuccess operation Constants.INJECTION_RETRY_COUNT

/-- The condition on a call of `Ethereum.fulfill`: preparing the transaction,
signing it and sending it. -/
def Ethereum.FulfillsOnce {Point : Type} (sdk : Web3Sdk) (curve : BcCurve Point)
    (cryptoModule : ICrypto) (context : Bundle) (unserializedPayload : V8Value)
    (onSuccess : String → Except Thrown Unit) (onError : Thrown → Except Thrown Unit) : Prop :=
  Needs unserializedPayload.checkNotNull fun _ =>
  IfAnswers (Ethereum.prepare sdk cryptoModule context unserializedPayload) fun prepared =>
  IfAnswers (Ethereum.signTransaction sdk curve cryptoModule prepared.2) fun encoded =>
  IfAnswers (prepared.1.ethSendRawTransaction ("0x" ++ toHex encoded)) fun
    | .ok transactionHash => onSuccess transactionHash = .ok ()
    | .error message => onError (.exception (.exception message)) = .ok ()

theorem tezos_fulfill_once {sdk : TezosSdk} {NETWORK : String} {call : TezosCall}
    {context : Bundle} {unserializedPayload : V8Value}
    {onSuccess : Nat → String → Except Thrown Unit} {onError : Thrown → Except Thrown Unit} :
    (Tezos.fulfillTask sdk NETWORK call context unserializedPayload
        (fun retry hash => Task.invoke .success (onSuccess retry hash))
        fun t => Task.invoke .error (onError t)).CallsOnce () ↔
      Tezos.FulfillsOnce sdk NETWORK call context unserializedPayload onSuccess := by
  rw [← Task.callsOnce_submit]
  refine Task.OnceIf.callsOnce (Task.onceIf_lost fun _ _ => ?_) ()
  refine Task.onceIf_reported (fun t => Task.ends_invoke .error (onError t)) fun request _ => ?_
  refine (TezosRPC.onceIf_fetchBranch fun branch => ?_).catchThrowable.submit
  refine Task.onceIf_reported (fun t => Task.ends_invoke .error (onError t)) fun address _ => ?_
  refine (TezosRPC.onceIf_fetchCounter fun counter => ?_).catchThrowable.submit
  refine Task.onceIf_lost fun operation _ => ?_
  obtain ⟨log, outcome, hends, honce, -⟩ :=
    TezosRPC.ends_injectOperation operation Constants.INJECTION_RETRY_COUNT
  exact ⟨log, hends.submit, honce⟩

theorem ifAnswers_bind {α β : Type} {x : Result α} {f : α → Result β} {p : β → Prop} :
    IfAnswers (x >>= f) p ↔ IfAnswers x fun a => IfAnswers (f a) p := by
  cases x <;> rfl

theorem ifAnswers_sendTransaction {Point : Type} {sdk : Web3Sdk} {curve : BcCurve Point}
    {cryptoModule : ICrypto} {context : Bundle} {unserializedPayload : V8Value}
    {p : Except String String → Prop} :
    IfAnswers (Ethereum.sendTransaction sdk curve cryptoModule context unserializedPayload) p ↔
      IfAnswers (Ethereum.prepare sdk cryptoModule context unserializedPayload) fun prepared =>
        IfAnswers (Ethereum.signTransaction sdk curve cryptoModule prepared.2) fun encoded =>
        IfAnswers (prepared.1.ethSendRawTransaction ("0x" ++ toHex encoded)) p := by
  unfold Ethereum.sendTransaction
  simp only [ifAnswers_bind]

theorem ethereum_fulfill_once {Point : Type} {sdk : Web3Sdk} {curve : BcCurve Point}
    {cryptoModule : ICrypto} {context : Bundle} {unserializedPayload : V8Value}
    {onSuccess : String → Except Thrown Unit} {onError : Thrown → Except Thrown Unit} :
    (Ethereum.fulfillTask sdk curve cryptoModule context unserializedPayload
        (fun hash => Task.invoke .success (onSuccess hash))
        fun t => Task.invoke .error (onError t)).CallsOnce () ↔
      Ethereum.FulfillsOnce sdk curve cryptoModule context unserializedPayload onSuccess
        onError := by
  have herror (t : Thrown) := @Task.ends_invoke Unit .error (onError t)
  rw [← Task.callsOnce_submit]
  refine Task.OnceIf.callsOnce (Task.onceIf_lost fun _ _ => ?_) ()
  rw [← ifAnswers_sendTransaction]
  refine Task.onceIf_reported herror fun result _ => ?_
  cases result with
  | ok transactionHash => exact Task.onceIf_invoke herror .success (onSuccess transactionHash)
  | error message =>
      exact Task.onceIf_invoke herror .error (onError (.exception (.exception message)))

/-- Exactly when a call of `fulfill` has called back once, when nothing of it
is left to run. -/
theorem fulfill_calls_back_once_iff {Point : Type} (sdk : TezosSdk) (NETWORK : String)
    (call : TezosCall) (web3 : Web3Sdk) (curve : BcCurve Point) (cryptoModule : ICrypto)
    (context : Bundle) (unserializedPayload : V8Value)
    (onTezosSuccess : Nat → String → Except Thrown Unit)
    (onEthereumSuccess : String → Except Thrown Unit)
    (onError : Thrown → Except Thrown Unit) :
    ((Tezos.fulfillTask sdk NETWORK call context unserializedPayload
        (fun retry hash => Task.invoke .success (onTezosSuccess retry hash))
        fun t => Task.invoke .error (onError t)).CallsOnce () ↔
      Tezos.FulfillsOnce sdk NETWORK call context unserializedPayload onTezosSuccess) ∧
    ((Ethereum.fulfillTask web3 curve cryptoModule context unserializedPayload
        (fun hash => Task.invoke .success (onEthereumSuccess hash))
        fun t => Task.invoke .error (onError t)).CallsOnce () ↔
      Ethereum.FulfillsOnce web3 curve cryptoModule context unserializedPayload
        onEthereumSuccess onError) :=
  ⟨tezos_fulfill_once, ethereum_fulfill_once⟩

/-! ## Calls with none, and with five -/

def answeringNode : TezosNode where
  getBlockHeader := .ok "BL"
  getCounter _ := .ok (some "41")
  injectOperation _ := .ok "oo"

/-- Every look-up finds the given nodes; the cache is empty. -/
def callAmong (nodes : List TezosNode) : TezosCall where
  branchLookup := { synced := nodes, random := 0 }
  addressCrypto := idleCrypto
  buildCrypto := idleCrypto
  prefs := SharedPreferences.empty
  now := 1700000000000
  counterLookup := { synced := nodes, random := 0 }
  signOperation _ _ := .ok (List.replicate 64 0)
  forgeToBytes _ := .ok [0x01]
  injectLookup _ := { synced := nodes, random := 0 }

/-- The integer 0 sent to a destination, with a success callback that ends
as given. -/
def fulfillAmong (nodes : List TezosNode) (destination : String)
    (outcome : Except Thrown Unit) : FulfillTask :=
  Tezos.fulfillTask idleTezosSdk "MAINNET" (callAmong nodes)
    ((Bundle.empty.put "jobIdentifier" (.byteArray [1])).put "destination" (.string destination))
    (.int 0) (fun _ _ => Task.invoke .success outcome) fun _ => Task.invoke .error (.ok ())

/-- No node is synchronized; the destination is no address; the success
callback raises. -/
theorem fulfill_calls_back_not_once :
    ((fulfillAmong [] "KT1" (.ok ())).invoked () = [] ∧
      ¬ (fulfillAmong [] "KT1" (.ok ())).CallsOnce ()) ∧
    ((fulfillAmong [answeringNode] "0x00" (.ok ())).invoked () = [] ∧
      ¬ (fulfillAmong [answeringNode] "0x00" (.ok ())).CallsOnce ()) ∧
    ((fulfillAmong [answeringNode] "KT1" (.error (.exception .illegalArgument))).invoked ()
        = [.success, .success, .success, .success, .error] ∧
      ¬ (fulfillAmong [answeringNode] "KT1"
        (.error (.exception .illegalArgument))).CallsOnce ()) := by
  refine ⟨⟨rfl, ?_⟩, ⟨rfl, ?_⟩, rfl, ?_⟩ <;>
    exact nofun

end DataProcessor
