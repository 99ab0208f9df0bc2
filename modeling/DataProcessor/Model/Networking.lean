import DataProcessor.Model.Cache
import DataProcessor.Model.Callbacks

/-!
# Requests over the network (`utils/Networking.kt`, `utils/IPFS.kt`)

`httpsRequest` hands one task to an executor: it opens a connection, makes
the exchange and calls back. `IPFS.resolveUri` answers from the preference
file or downloads the script with such a request and stores it. What a
connection does at each step comes in as an `HttpsURLConnection`; any step
may raise.
-/

namespace DataProcessor

inductive Protocol
  | http
  | https
  deriving DecidableEq

structure URL where
  protocol : Protocol
  /-- What follows the two slashes. -/
  rest : String
  deriving DecidableEq

namespace Constants

def IPFS_NODE : URL := { protocol := .https, rest := "cloudflare-ipfs.com/ipfs/" }
def IPFS_SCHEMA : String := "ipfs://"
def HTTP_CONNECT_TIMEOUT : Int := 30000

end Constants

/-- A certificate, by its encoded public key. -/
structure Certificate where
  encoded : Bytes

/-- The steps of one connection. -/
structure HttpsURLConnection where
  setRequestMethod : String → Result Unit
  setConnectTimeout : Int → Result Unit
  setReadTimeout : Int → Result Unit
  setRequestProperty : String → String → Result Unit
  /-- `outputStream.write` and `close`. -/
  write : Bytes → Result Unit
  responseCode : Result Int
  /-- `errorStream`, read to its end; `none` where a response has no body. -/
  errorStream : Result (Option String)
  /-- `inputStream`, read to its end. -/
  readText : Result String
  serverCertificates : Result (List Certificate)
  closeInputStream : Result Unit

inductive URLConnection
  | http
  | https (connection : HttpsURLConnection)

/-- `as HttpsURLConnection`. -/
def URLConnection.asHttps : URLConnection → Result HttpsURLConnection
  | .http => .error .classCast
  | .https connection => .ok connection

/-- What the device's network answers. -/
structure Network where
  /-- The connection an https URL opens. -/
  openHttps : URL → Result HttpsURLConnection
  sha256 : Bytes → Bytes

/-- `openConnection()`: the class of the connection goes by the protocol. -/
def Network.openConnection (network : Network) (url : URL) : Result URLConnection :=
  match url.protocol with
  | .http => .ok .http
  | .https => (network.openHttps url).map .https

namespace Networking

variable {σ : Type} (network : Network)

def getCertificatePin (certificate : Certificate) : Bytes :=
  network.sha256 certificate.encoded

/-- The `try` block of `httpsRequest`, up to the success callback. -/
def exchange (urlConnection : HttpsURLConnection) (method : String) (body : Bytes)
    (headers : List (String × String)) (connectTimeout readTimeout : Int) :
    Result (String × Bytes) := do
  urlConnection.setRequestMethod method
  urlConnection.setConnectTimeout connectTimeout
  urlConnection.setReadTimeout readTimeout
  for (key, value) in headers do
    urlConnection.setRequestProperty key value
  if !body.isEmpty then
    urlConnection.write body
  let responseCode ← urlConnection.responseCode
  if ¬ (200 ≤ responseCode ∧ responseCode < 300) then
    let some errMsg ← urlConnection.errorStream | throw .nullPointer
    throw (.exception s!"HTTP {method} failed with {errMsg} ({responseCode})")
  let payload ← urlConnection.readText
  let certificates ← urlConnection.serverCertificates
  let some certificate := certificates.head? | throw .noSuchElement
  let certificateSha256 := getCertificatePin network certificate
  urlConnection.closeInputStream
  return (payload, certificateSha256)

/-- Disconnecting in the end changes nothing here. -/
def httpsRequest (url : URL) (method : String) (body : Bytes)
    (headers : List (String × String))
    (successCallback : String → Bytes → Task σ Unit)
    (errorCallback : Exn → Task σ Unit) (connectTimeout readTimeout : Int) :
    Task σ Unit :=
  Task.submit do
    let connection ← Task.lift (network.openConnection url)
    let urlConnection ← Task.lift connection.asHttps
    Task.catchException (do
        let (payload, certificateSha256) ← Task.lift
          (exchange network urlConnection method body headers connectTimeout readTimeout)
        successCallback payload certificateSha256)
      errorCallback

def httpsGetString (url : URL) (headers : List (String × String))
    (success : String → Bytes → Task σ Unit) (error : Exn → Task σ Unit) :
    Task σ Unit :=
  httpsRequest network url "GET" [] headers success error
    Constants.HTTP_CONNECT_TIMEOUT Constants.HTTP_CONNECT_TIMEOUT

end Networking

namespace IPFS

/-- Removes the `ipfs://` of a URI. -/
def uriToHash (ipfsUri : String) : String := ipfsUri.replace Constants.IPFS_SCHEMA ""

def scriptUrl (ipfsUri : String) : URL :=
  { Constants.IPFS_NODE with rest := Constants.IPFS_NODE.rest ++ uriToHash ipfsUri }

/-- The task's state is the preference file "cache". -/
def resolveUri (network : Network) (ipfsUri : String)
    (successCallback : String → Task SharedPreferences Unit)
    (errorCallback : Exn → Task SharedPreferences Unit) :
    Task SharedPreferences Unit := do
  match cachedScript (← get).device ipfsUri with
  | some script => successCallback (← Task.lift script)
  | none =>
      Networking.httpsGetString network (scriptUrl ipfsUri) []
        (fun script _ => do
          successCallback script
          modify fun s => { s with device := s.device.put ipfsUri (.string script) })
        errorCallback

end IPFS

end DataProcessor
