import DataProcessor.Model.Sha256

/-!
# HMAC and HKDF of the native library (`cpp/sb_hmac_sha256.c`, `cpp/sb_hkdf.c`)

A state keeps its key beside the hash. To pad the key it is changed in place,
and changed back when the hash has taken it in, so that the state can start
over with the same key.
-/

namespace DataProcessor

open Lib

/-! ## HMAC -/

/-- `sb_hmac_sha256_state_t`. -/
structure SbHmacSha256State where
  sha : SbSha256State
  key : Vector UInt8 64

def SbHmacSha256State.null : SbHmacSha256State where
  sha := SbSha256State.null
  key := Vector.replicate 64 0

def ipad : UInt8 := 0x36
def opad : UInt8 := 0x5C

def sbHmacSha256KeyPad (hmac : SbHmacSha256State) (pad : UInt8) : SbHmacSha256State :=
  { hmac with key := hmac.key.map (· ^^^ pad) }

def sbHmacSha256Reinit (hmac : SbHmacSha256State) : SbHmacSha256State :=
  let hmac := sbHmacSha256KeyPad hmac ipad
  let hmac := { hmac with sha := sbSha256Init }
  let hmac := { hmac with sha := sbSha256Update hmac.sha hmac.key.toList }
  sbHmacSha256KeyPad hmac ipad

def sbHmacSha256Init (key : Bytes) : SbHmacSha256State :=
  let hmac := SbHmacSha256State.null
  if key.length > SB_SHA256_BLOCK_SIZE then
    let hmac := { hmac with sha := sbSha256Init }
    let hmac := { hmac with sha := sbSha256Update hmac.sha key }
    let (sha, digest) := sbSha256Finish hmac.sha
    sbHmacSha256Reinit { hmac with sha := sha, key := memcpy hmac.key 0 digest.toList }
  else
    sbHmacSha256Reinit { hmac with key := memcpy hmac.key 0 key }

def sbHmacSha256Update (hmac : SbHmacSha256State) (input : Bytes) : SbHmacSha256State :=
  { hmac with sha := sbSha256Update hmac.sha input }

/-- The state, and the output. -/
def sbHmacSha256Finish (hmac : SbHmacSha256State) : SbHmacSha256State × Vector UInt8 32 :=
  let (sha, output) := sbSha256Finish hmac.sha
  let hmac := sbHmacSha256KeyPad { hmac with sha := sha } opad
  let hmac := { hmac with sha := sbSha256Init }
  let hmac := { hmac with sha := sbSha256Update hmac.sha hmac.key.toList }
  let hmac := { hmac with sha := sbSha256Update hmac.sha output.toList }
  let (sha, output) := sbSha256Finish hmac.sha
  (sbHmacSha256KeyPad { hmac with sha := sha } opad, output)

/-- The second half of a short key is padding, so that there is room for the
inner hash. -/
def sbHmacSha256FinishToKey (hmac : SbHmacSha256State) : SbHmacSha256State :=
  let hmac := sbHmacSha256KeyPad hmac opad
  let (_, inner) := sbSha256Finish hmac.sha
  let hmac := { hmac with key := memcpy hmac.key SB_SHA256_SIZE inner.toList }
  let hmac := { hmac with sha := sbSha256Init }
  let hmac := { hmac with
    sha := sbSha256Update hmac.sha (hmac.key.toList.take SB_SHA256_SIZE) }
  let hmac := { hmac with
    key := memcpy hmac.key 0 (List.replicate SB_SHA256_SIZE opad) }
  let hmac := { hmac with
    sha := sbSha256Update hmac.sha (hmac.key.toList.take SB_SHA256_SIZE) }
  let hmac := { hmac with
    sha := sbSha256Update hmac.sha (hmac.key.toList.drop SB_SHA256_SIZE) }
  let (sha, output) := sbSha256Finish hmac.sha
  let hmac := { hmac with sha := sha, key := memcpy hmac.key 0 output.toList }
  let hmac := { hmac with
    key := memcpy hmac.key SB_SHA256_SIZE (List.replicate SB_SHA256_SIZE 0) }
  sbHmacSha256Reinit hmac

def sbHmacSha256 (key input : Bytes) : SbHmacSha256State × Vector UInt8 32 :=
  let hmac := sbHmacSha256Init key
  let hmac := sbHmacSha256Update hmac input
  sbHmacSha256Finish hmac

/-! ## HKDF -/

/-- `sb_hkdf_state_t`. -/
structure SbHkdfState where
  hmac : SbHmacSha256State
  output : Vector UInt8 32

def SbHkdfState.null : SbHkdfState where
  hmac := SbHmacSha256State.null
  output := Vector.replicate 32 0

def sbHkdfExtractInit (salt : Bytes) : SbHkdfState :=
  let hkdf := SbHkdfState.null
  if salt.length > 0 then { hkdf with hmac := sbHmacSha256Init salt }
  else { hkdf with hmac := sbHmacSha256Init hkdf.output.toList }

def sbHkdfExtractUpdate (hkdf : SbHkdfState) (input : Bytes) : SbHkdfState :=
  { hkdf with hmac := sbHmacSha256Update hkdf.hmac input }

def sbHkdfExtractFinish (hkdf : SbHkdfState) : SbHkdfState :=
  let (_, output) := sbHmacSha256Finish hkdf.hmac
  { hmac := sbHmacSha256Init output.toList, output := Vector.replicate 32 0 }

def sbHkdfExtract (salt input : Bytes) : SbHkdfState :=
  let hkdf := sbHkdfExtractInit salt
  let hkdf := sbHkdfExtractUpdate hkdf input
  sbHkdfExtractFinish hkdf

def sbHkdfKdfInit (input : Bytes) : SbHkdfState :=
  { SbHkdfState.null with hmac := sbHmacSha256Init input }

/-- `bytes` of a turn of the loop. -/
def SbHkdfState.bytes (output_len bytes_produced : Nat) : Nat :=
  let bytes := output_len - bytes_produced
  if bytes > SB_SHA256_SIZE then SB_SHA256_SIZE else bytes

theorem SbHkdfState.bytes_pos {output_len bytes_produced : Nat}
    (h : bytes_produced < output_len) : 0 < SbHkdfState.bytes output_len bytes_produced := by
  by_cases hmany : output_len - bytes_produced > SB_SHA256_SIZE
  · rw [SbHkdfState.bytes, if_pos hmany]
    decide
  · rw [SbHkdfState.bytes, if_neg hmany]
    omega

/-- What the turn does to the state. -/
def SbHkdfState.turn (hkdf : SbHkdfState) (info : Bytes) (bytes_produced : Nat)
    (iter : UInt8) : SbHkdfState :=
  let hmac := hkdf.hmac
  let hmac := if bytes_produced > 0 then sbHmacSha256Update hmac hkdf.output.toList else hmac
  let hmac := sbHmacSha256Update hmac info
  let hmac := sbHmacSha256Update hmac [iter]
  let (hmac, output) := sbHmacSha256Finish hmac
  { hmac := sbHmacSha256Reinit hmac, output := output }

/-- The loop, from where `bytes_produced` are there: the state, and what is
written behind them. -/
def SbHkdfState.produce (hkdf : SbHkdfState) (info : Bytes) (output_len bytes_produced : Nat)
    (iter : UInt8) : SbHkdfState × Bytes :=
  if bytes_produced < output_len then
    let bytes := SbHkdfState.bytes output_len bytes_produced
    let hkdf := hkdf.turn info bytes_produced iter
    let (hkdf', rest) := hkdf.produce info output_len (bytes_produced + bytes) (iter + 1)
    (hkdf', hkdf.output.toList.take bytes ++ rest)
  else (hkdf, [])
termination_by output_len - bytes_produced
decreasing_by
  have h := SbHkdfState.bytes_pos (show bytes_produced < output_len by assumption)
  omega

/-- The state, and the output. -/
def sbHkdfExpand (hkdf : SbHkdfState) (info : Bytes) (output_len : Nat) : SbHkdfState × Bytes :=
  let (hkdf, output) := hkdf.produce info output_len 0 1
  ({ hkdf with output := Vector.replicate 32 0 }, output)

end DataProcessor
