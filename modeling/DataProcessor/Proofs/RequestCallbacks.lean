import DataProcessor.Model.Networking

/-!
# When a request calls back exactly once

Two places break the promise. The connection is opened and cast before the
`try`, so where that raises, as it does for every plain http URL, neither
callback hears of it. And the success callback runs inside the `try`, so an
exception it raises sends the error callback after it. `resolveUri` inherits
both on its way to the network, and on the cached path it reads the entry
before any callback.

A callback is recorded before anything it does can raise.
-/

namespace DataProcessor

namespace Task

variable {σ : Type}

/-- What a handler of exceptions adds to the record. -/
def handled : Except Thrown Unit → List Callback
  | .error (.exception _) => [.error]
  | _ => []

theorem Ends.catchException {task : Task σ Unit} {log : List Callback}
    {outcome : Except Thrown Unit} (h : task.Ends log outcome)
    {handler : Exn → Task σ Unit} {answer : Exn → Except Thrown Unit}
    (hhandler : ∀ e, (handler e).Ends [.error] (answer e)) :
    ∃ outcome', (catchException task handler).Ends (log ++ handled outcome) outcome' := by
  rw [catchException_eq]
  cases outcome with
  | ok _ =>
      refine ⟨.ok (), ?_⟩
      rw [show log ++ handled (.ok ()) = log from List.append_nil log]
      exact h.catchThrowable_ok
  | error t =>
      cases t with
      | exception e => exact ⟨answer e, h.catchThrowable_error (hhandler e)⟩
      | error name =>
          exact ⟨.error (.error name), h.catchThrowable_error (ends_throw (.error name))⟩

end Task

namespace Networking

variable {σ : Type} {network : Network} {url : URL} {method : String} {body : Bytes}
  {headers : List (String × String)} {connectTimeout readTimeout : Int}

/-- The condition: an https connection is opened, and where the exchange goes
through, the success callback raises no exception. -/
def CallsBackOnce (network : Network) (url : URL) (method : String) (body : Bytes)
    (headers : List (String × String)) (connectTimeout readTimeout : Int)
    (onSuccess : String → Bytes → Except Thrown Unit) : Prop :=
  url.protocol = .https ∧ ∃ urlConnection, network.openHttps url = .ok urlConnection ∧
    ∀ payload pin e,
      exchange network urlConnection method body headers connectTimeout readTimeout
        = .ok (payload, pin) →
      onSuccess payload pin ≠ .error (.exception e)

theorem asHttps_openConnection {urlConnection : HttpsURLConnection} :
    (network.openConnection url >>= URLConnection.asHttps) = .ok urlConnection ↔
      url.protocol = .https ∧ network.openHttps url = .ok urlConnection := by
  unfold Network.openConnection
  cases url.protocol with
  | http => exact ⟨nofun, fun h => nomatch h.1⟩
  | https =>
      cases network.openHttps url with
      | error e => exact ⟨nofun, fun h => nomatch h.2⟩
      | ok connection =>
          constructor
          · intro h
            injection h with h
            rw [h]
            exact ⟨rfl, rfl⟩
          · intro h
            injection h.2 with h
            rw [h]
            rfl

variable {successCallback : String → Bytes → Task σ Unit} {errorCallback : Exn → Task σ Unit}
  {onSuccess : String → Bytes → Except Thrown Unit} {onError : Exn → Except Thrown Unit}

theorem httpsRequest_of_opened {urlConnection : HttpsURLConnection}
    (h : (network.openConnection url >>= URLConnection.asHttps) = .ok urlConnection) :
    httpsRequest network url method body headers successCallback errorCallback
        connectTimeout readTimeout
      = Task.submit (Task.catchException (do
          let (payload, certificateSha256) ← Task.lift
            (exchange network urlConnection method body headers connectTimeout readTimeout)
          successCallback payload certificateSha256) errorCallback) := by
  obtain ⟨connection, hopen, hcast⟩ := bind_ok.1 h
  unfold httpsRequest
  rw [hopen, Task.lift_ok_bind, hcast, Task.lift_ok_bind]

/-- Neither callback hears of a connection that is not opened. -/
theorem invoked_of_not_opened (device : σ)
    (h : ∀ urlConnection,
      (network.openConnection url >>= URLConnection.asHttps) ≠ .ok urlConnection) :
    (httpsRequest network url method body headers successCallback errorCallback
      connectTimeout readTimeout).invoked device = [] := by
  unfold httpsRequest
  cases hopen : network.openConnection url with
  | error e => rfl
  | ok connection =>
      rw [Task.lift_ok_bind]
      cases hcast : connection.asHttps with
      | error e => rfl
      | ok urlConnection => exact absurd (bind_ok.2 ⟨connection, hopen, hcast⟩) (h urlConnection)

/-- Once the connection is open, it is up to the success callback. -/
theorem httpsRequest_of_opened_once (device : σ) {urlConnection : HttpsURLConnection}
    (hopened : (network.openConnection url >>= URLConnection.asHttps) = .ok urlConnection)
    (hsuccess : ∀ payload pin,
      (successCallback payload pin).Ends [.success] (onSuccess payload pin))
    (herror : ∀ e, (errorCallback e).Ends [.error] (onError e)) :
    (httpsRequest network url method body headers successCallback errorCallback
        connectTimeout readTimeout).CallsOnce device ↔
      ∀ payload pin e,
        exchange network urlConnection method body headers connectTimeout readTimeout
          = .ok (payload, pin) →
        onSuccess payload pin ≠ .error (.exception e) := by
  rw [Task.CallsOnce, httpsRequest_of_opened hopened]
  cases exchange network urlConnection method body headers connectTimeout readTimeout with
  | error e =>
      -- Nothing but the error callback is left to run.
      obtain ⟨_, hcatch⟩ := (@Task.ends_throw σ (.exception e)).catchException herror
      rw [Task.lift_error_bind, hcatch.submit.invoked_eq]
      exact ⟨fun _ _ _ _ hok => (nomatch hok), fun _ => rfl⟩
  | ok answer =>
      obtain ⟨payload, pin⟩ := answer
      obtain ⟨_, hcatch⟩ := (hsuccess payload pin).catchException herror
      rw [Task.lift_ok_bind, hcatch.submit.invoked_eq]
      constructor
      · intro h payload' pin' e hok hraises
        cases hok
        rw [hraises] at h
        cases h
      · intro hreturns
        cases honSuccess : onSuccess payload pin with
        | ok _ => rfl
        | error t =>
            cases t with
            | error name => rfl
            | exception e => exact absurd honSuccess (hreturns payload pin e rfl)

theorem httpsRequest_once (device : σ)
    (hsuccess : ∀ payload pin,
      (successCallback payload pin).Ends [.success] (onSuccess payload pin))
    (herror : ∀ e, (errorCallback e).Ends [.error] (onError e)) :
    (httpsRequest network url method body headers successCallback errorCallback
        connectTimeout readTimeout).CallsOnce device ↔
      CallsBackOnce network url method body headers connectTimeout readTimeout onSuccess := by
  unfold CallsBackOnce
  by_cases hopened : ∃ urlConnection,
      (network.openConnection url >>= URLConnection.asHttps) = .ok urlConnection
  · obtain ⟨urlConnection, hopened⟩ := hopened
    obtain ⟨hprotocol, hopen⟩ := asHttps_openConnection.1 hopened
    rw [httpsRequest_of_opened_once device hopened hsuccess herror]
    constructor
    · intro hreturns
      exact ⟨hprotocol, urlConnection, hopen, hreturns⟩
    · intro h
      obtain ⟨-, _, hopen', hreturns⟩ := h
      rw [hopen] at hopen'
      cases hopen'
      exact hreturns
  · rw [Task.CallsOnce, invoked_of_not_opened device (not_exists.1 hopened)]
    refine ⟨nofun, fun h => ?_⟩
    obtain ⟨hprotocol, urlConnection, hopen, -⟩ := h
    exact absurd ⟨urlConnection, asHttps_openConnection.2 ⟨hprotocol, hopen⟩⟩ hopened

end Networking

namespace IPFS

/-- The condition for `resolveUri`: a cached entry is a text; a download
calls back once. -/
def ResolvesOnce (network : Network) (prefs : SharedPreferences) (ipfsUri : String)
    (onSuccess : String → Except Thrown Unit) : Prop :=
  match cachedScript prefs ipfsUri with
  | some script => ∃ text, script = .ok text
  | none =>
      Networking.CallsBackOnce network (scriptUrl ipfsUri) "GET" [] []
        Constants.HTTP_CONNECT_TIMEOUT Constants.HTTP_CONNECT_TIMEOUT
        fun script _ => onSuccess script

/-- Storing the script after the callback has returned adds nothing. -/
theorem ends_successCallback (ipfsUri script : String) (outcome : Except Thrown Unit) :
    (do
      Task.invoke .success outcome
      modify fun s => { s with device := s.device.put ipfsUri (.string script) } :
        Task SharedPreferences Unit).Ends [.success] outcome := by
  cases outcome with
  | ok _ => exact (Task.ends_invoke .success (.ok ())).bind (Task.ends_modify fun _ => rfl)
  | error t => exact (Task.ends_invoke .success (.error t)).bind_error

theorem resolveUri_once {network : Network} {prefs : SharedPreferences} {ipfsUri : String}
    {onSuccess : String → Except Thrown Unit} {onError : Exn → Except Thrown Unit} :
    (resolveUri network ipfsUri (fun script => Task.invoke .success (onSuccess script))
        fun e => Task.invoke .error (onError e)).CallsOnce prefs ↔
      ResolvesOnce network prefs ipfsUri onSuccess := by
  have hstart : (resolveUri network ipfsUri
        (fun script => Task.invoke .success (onSuccess script))
        fun e => Task.invoke .error (onError e)).invoked prefs
      = Task.invoked (match cachedScript prefs ipfsUri with
        | some script => do
            Task.invoke .success (onSuccess (← Task.lift script))
        | none => Networking.httpsGetString network (scriptUrl ipfsUri) []
            (fun script _ => do
              Task.invoke .success (onSuccess script)
              modify fun s => { s with device := s.device.put ipfsUri (.string script) })
            fun e => Task.invoke .error (onError e)) prefs := rfl
  rw [Task.CallsOnce, hstart, ResolvesOnce]
  cases cachedScript prefs ipfsUri with
  | some script =>
      cases script with
      | error e => exact ⟨nofun, nofun⟩
      | ok text =>
          have hcalls := (@Task.ends_invoke SharedPreferences .success
            (onSuccess text)).invoked_eq prefs
          refine ⟨fun _ => ⟨text, rfl⟩, fun _ => ?_⟩
          show (Task.invoked (Task.invoke .success (onSuccess text)) prefs).length = 1
          rw [hcalls]
          rfl
  | none =>
      exact Networking.httpsRequest_once prefs
        (fun script _ => ends_successCallback ipfsUri script (onSuccess script))
        fun e => Task.ends_invoke .error (onError e)

end IPFS

/-- Exactly when a finished request has called back once, and when a finished
`resolveUri` has. -/
theorem requests_call_back_once_iff (network : Network) (url : URL) (method : String)
    (body : Bytes) (headers : List (String × String)) (connectTimeout readTimeout : Int)
    (onSuccess : String → Bytes → Except Thrown Unit) (onError : Exn → Except Thrown Unit)
    (prefs : SharedPreferences) (ipfsUri : String) (onScript : String → Except Thrown Unit) :
    ((Networking.httpsRequest network url method body headers
        (fun payload pin => Task.invoke .success (onSuccess payload pin))
        (fun e => Task.invoke .error (onError e)) connectTimeout readTimeout).CallsOnce () ↔
      Networking.CallsBackOnce network url method body headers connectTimeout
        readTimeout onSuccess) ∧
    ((IPFS.resolveUri network ipfsUri
        (fun script => Task.invoke .success (onScript script))
        fun e => Task.invoke .error (onError e)).CallsOnce prefs ↔
      IPFS.ResolvesOnce network prefs ipfsUri onScript) := by
  refine ⟨?_, IPFS.resolveUri_once⟩
  exact Networking.httpsRequest_once ()
    (fun payload pin => Task.ends_invoke .success (onSuccess payload pin))
    fun e => Task.ends_invoke .error (onError e)

/-! ## A server that answers -/

def answeringConnection : HttpsURLConnection where
  setRequestMethod _ := .ok ()
  setConnectTimeout _ := .ok ()
  setReadTimeout _ := .ok ()
  setRequestProperty _ _ := .ok ()
  write _ := .ok ()
  responseCode := .ok 200
  errorStream := .ok none
  readText := .ok "print(1)"
  serverCertificates := .ok [{ encoded := [0x30] }]
  closeInputStream := .ok ()

def answeringNetwork : Network where
  openHttps _ := .ok answeringConnection
  sha256 bytes := bytes

/-- A GET of one of the two kinds, whose success callback ends as given. -/
def getScript (protocol : Protocol) (outcome : Except Thrown Unit) : Task Unit Unit :=
  Networking.httpsGetString answeringNetwork { protocol := protocol, rest := "host/" } []
    (fun _ _ => Task.invoke .success outcome) fun _ => Task.invoke .error (.ok ())

def resolveScript (outcome : Except Thrown Unit) : Task SharedPreferences Unit :=
  IPFS.resolveUri answeringNetwork "ipfs://Qm" (fun _ => Task.invoke .success outcome)
    fun _ => Task.invoke .error (.ok ())

/-- Over http nobody is called; a success callback that raises is followed by
the error callback, on the way of `resolveUri` too. -/
theorem requests_call_back_not_once :
    ((getScript .http (.ok ())).invoked () = [] ∧
      ¬ (getScript .http (.ok ())).CallsOnce ()) ∧
    ((getScript .https (.error (.exception .illegalArgument))).invoked ()
        = [.success, .error] ∧
      ¬ (getScript .https (.error (.exception .illegalArgument))).CallsOnce ()) ∧
    ((resolveScript (.error (.exception .illegalArgument))).invoked SharedPreferences.empty
        = [.success, .error] ∧
      ¬ (resolveScript (.error (.exception .illegalArgument))).CallsOnce
        SharedPreferences.empty) := by
  refine ⟨⟨rfl, ?_⟩, ⟨rfl, ?_⟩, rfl, ?_⟩ <;>
    exact nofun

end DataProcessor
