import DataProcessor.Model.Counter

/-!
# One store for four users (`App.kt`, `utils/IPFS.kt`)

The preference file "cache" holds the scripts `IPFS.resolveUri` has
downloaded, under their URIs; the account counter and the time of its last
fetch; the reveal flag; and the environment parameters of the start intent,
under a prefix. Next to the store the state records what was downloaded for
which URI and what `resolveUri` handed on from the store.
-/

namespace DataProcessor

namespace Constants

def ENVIRONMENT_KEY_PREFIX : String := "environment_"

end Constants

/-- The part of `resolveUri` before the download: what the store has under
the URI, or nothing. -/
def IPFS.cachedScript (prefs : SharedPreferences) (ipfsUri : String) :
    Option (Result String) :=
  if prefs.contains ipfsUri then some (prefs.getString ipfsUri "") else none

structure CacheState where
  prefs : SharedPreferences
  /-- URIs whose download has been started. -/
  pending : List String
  /-- Every URI with each script that was downloaded for it. -/
  downloads : List (String × String)
  /-- Every URI with what `resolveUri` made of its entry in the store: the
  text for the success callback, or what it raised. -/
  resolved : List (String × Result String)

inductive CacheAction
  | resolveUri (ipfsUri : String)
  /-- A download ends. `returns` says whether the success callback returns;
  the script is stored after it. -/
  | download (i : Nat) (script : String) (returns : Bool)
  | writeCounter (counter : Int) (now : Int64)
  | writeRevealed (isRevealed : Bool)
  /-- `onCreate` writes a query parameter. -/
  | writeEnvironment (parameterName value : String)
  | clearSharedPreferences

namespace CacheState

def fresh : CacheState where
  prefs := SharedPreferences.empty
  pending := []
  downloads := []
  resolved := []

def step (s : CacheState) : CacheAction → Option CacheState
  | .resolveUri ipfsUri =>
      match IPFS.cachedScript s.prefs ipfsUri with
      | some result => some { s with resolved := (ipfsUri, result) :: s.resolved }
      | none => some { s with pending := s.pending ++ [ipfsUri] }
  | .download i script returns =>
      s.pending[i]?.map fun ipfsUri => { s with
        pending := s.pending.eraseIdx i
        downloads := (ipfsUri, script) :: s.downloads
        prefs := if returns then s.prefs.put ipfsUri (.string script) else s.prefs }
  | .writeCounter counter now =>
      some { s with prefs := TezosRPC.writeCounter s.prefs counter now }
  | .writeRevealed isRevealed =>
      some { s with prefs := s.prefs.put "IS_REVEALED" (.boolean isRevealed) }
  | .writeEnvironment parameterName value =>
      let key := Constants.ENVIRONMENT_KEY_PREFIX ++ parameterName
      some { s with prefs := s.prefs.put key (.string value) }
  | .clearSharedPreferences => some { s with prefs := SharedPreferences.empty }

end CacheState

/-- The keys of the other three users. -/
def IsReserved (key : String) : Prop :=
  key = Constants.TRANSACTION_COUNTER ∨ key = "LAST_COUNTER_FETCH" ∨
    key = "IS_REVEALED" ∨ ∃ name, key = Constants.ENVIRONMENT_KEY_PREFIX ++ name

end DataProcessor
