import DataProcessor.Model.HmacSha256

/-!
# The generator of the native library (`cpp/sb_hmac_drbg.c`)

A request is checked before anything changes. Its additional input comes in
several pieces, which are taken in one after the other. Errors are bits of
one number.
-/

namespace DataProcessor

/-- `sb_error_t`. -/
abbrev SbError := BitVec 32

def SB_ERROR_INSUFFICIENT_ENTROPY : SbError := 1 <<< 0
def SB_ERROR_INPUT_TOO_LARGE : SbError := 1 <<< 1
def SB_ERROR_REQUEST_TOO_LARGE : SbError := 1 <<< 2
def SB_ERROR_RESEED_REQUIRED : SbError := 1 <<< 3
def SB_ERROR_DRBG_UNINITIALIZED : SbError := 1 <<< 9
def SB_ERROR_ADDITIONAL_INPUT_REQUIRED : SbError := 1 <<< 12

def SB_HMAC_DRBG_MIN_ENTROPY_INPUT_LENGTH : Nat := 32
def SB_HMAC_DRBG_MIN_NONCE_LENGTH : Nat := 16
def SB_HMAC_DRBG_RESEED_INTERVAL : Nat := 1024
def SB_HMAC_DRBG_MAX_BYTES_PER_REQUEST : Nat := 1024
def SB_HMAC_DRBG_MAX_ENTROPY_INPUT_LENGTH : Nat := 1024
def SB_HMAC_DRBG_MAX_ADDITIONAL_INPUT_LENGTH : Nat := 1024
def SB_HMAC_DRBG_MAX_PERSONALIZATION_STRING_LENGTH : Nat := 1024

/-- `sb_hmac_drbg_state_t`. The counter stays far below any word's size. -/
structure SbHmacDrbgState where
  hmac : SbHmacSha256State
  V : Vector UInt8 32
  reseed_counter : Nat

/-- `err |= bit`, under a condition. -/
def SbError.when (cond : Prop) [Decidable cond] (bit err : SbError) : SbError :=
  if cond then err ||| bit else err

/-- One turn of the loop over the pieces. -/
def SbHmacSha256State.provide (hmac : SbHmacSha256State) (provided : Bytes) :
    SbHmacSha256State :=
  if provided.length > 0 then sbHmacSha256Update hmac provided else hmac

def sbHmacDrbgUpdateStep (drbg : SbHmacDrbgState) (r : UInt8) (provided : List Bytes) :
    SbHmacDrbgState :=
  let hmac := sbHmacSha256Reinit drbg.hmac
  let hmac := sbHmacSha256Update hmac drbg.V.toList
  let hmac := sbHmacSha256Update hmac [r]
  let hmac := provided.foldl SbHmacSha256State.provide hmac
  let hmac := sbHmacSha256FinishToKey hmac
  let hmac := sbHmacSha256Update hmac drbg.V.toList
  let finished := sbHmacSha256Finish hmac
  { drbg with hmac := finished.1, V := finished.2 }

def sbHmacDrbgUpdateVec (drbg : SbHmacDrbgState) (provided : List Bytes) (any_provided : Bool) :
    SbHmacDrbgState :=
  let drbg := sbHmacDrbgUpdateStep drbg 0x00 provided
  if any_provided then sbHmacDrbgUpdateStep drbg 0x01 provided else drbg

/-- The error, and the state. -/
def sbHmacDrbgInit (entropy nonce personalization : Bytes) : SbError × SbHmacDrbgState :=
  let drbg : SbHmacDrbgState := ⟨sbHmacSha256Init (List.replicate 32 0), Vector.replicate 32 1, 0⟩
  let err := SbError.when (entropy.length < SB_HMAC_DRBG_MIN_ENTROPY_INPUT_LENGTH ∨
    nonce.length < SB_HMAC_DRBG_MIN_NONCE_LENGTH) SB_ERROR_INSUFFICIENT_ENTROPY 0
  let err := SbError.when (entropy.length > SB_HMAC_DRBG_MAX_ENTROPY_INPUT_LENGTH ∨
    nonce.length > SB_HMAC_DRBG_MAX_ENTROPY_INPUT_LENGTH ∨
    personalization.length > SB_HMAC_DRBG_MAX_PERSONALIZATION_STRING_LENGTH)
    SB_ERROR_INPUT_TOO_LARGE err
  if err ≠ 0 then (err, drbg)
  else
    let drbg := sbHmacDrbgUpdateVec drbg [entropy, nonce, personalization, []] true
    (0, { drbg with reseed_counter := 1 })

def sbHmacDrbgReseed (drbg : SbHmacDrbgState) (entropy additional : Bytes) :
    SbError × SbHmacDrbgState :=
  let err := SbError.when (drbg.reseed_counter = 0) SB_ERROR_DRBG_UNINITIALIZED 0
  let err := SbError.when (entropy.length < SB_HMAC_DRBG_MIN_ENTROPY_INPUT_LENGTH)
    SB_ERROR_INSUFFICIENT_ENTROPY err
  let err := SbError.when (entropy.length > SB_HMAC_DRBG_MAX_ENTROPY_INPUT_LENGTH ∨
    additional.length > SB_HMAC_DRBG_MAX_ADDITIONAL_INPUT_LENGTH) SB_ERROR_INPUT_TOO_LARGE err
  if err ≠ 0 then (err, drbg)
  else
    let drbg := sbHmacDrbgUpdateVec drbg [entropy, additional, [], []] true
    (0, { drbg with reseed_counter := 1 })

/-- `gen` of a turn of the loop. -/
def SbHmacDrbgState.gen (remaining : Nat) : Nat :=
  if remaining > SB_SHA256_SIZE then SB_SHA256_SIZE else remaining

theorem SbHmacDrbgState.gen_pos {remaining : Nat} (h : remaining ≠ 0) :
    0 < SbHmacDrbgState.gen remaining := by
  by_cases hmany : remaining > SB_SHA256_SIZE
  · rw [SbHmacDrbgState.gen, if_pos hmany]
    decide
  · rw [SbHmacDrbgState.gen, if_neg hmany]
    omega

/-- The loop: the state, and what is written. -/
def SbHmacDrbgState.produce (drbg : SbHmacDrbgState) (remaining : Nat) : SbHmacDrbgState × Bytes :=
  if remaining ≠ 0 then
    let gen := SbHmacDrbgState.gen remaining
    let hmac := sbHmacSha256Reinit drbg.hmac
    let hmac := sbHmacSha256Update hmac drbg.V.toList
    let finished := sbHmacSha256Finish hmac
    let drbg := { drbg with hmac := finished.1, V := finished.2 }
    let (drbg', rest) := SbHmacDrbgState.produce drbg (remaining - gen)
    (drbg', drbg.V.toList.take gen ++ rest)
  else (drbg, [])
termination_by remaining
decreasing_by
  have h := SbHmacDrbgState.gen_pos (show remaining ≠ 0 by assumption)
  omega

/-- The checks of a request. -/
def SbHmacDrbgState.generateError (drbg : SbHmacDrbgState) (output_len total_additional_len : Nat)
    (additional_required : Bool) : SbError :=
  let err := SbError.when (drbg.reseed_counter = 0) SB_ERROR_DRBG_UNINITIALIZED 0
  let err := SbError.when (output_len > SB_HMAC_DRBG_MAX_BYTES_PER_REQUEST)
    SB_ERROR_REQUEST_TOO_LARGE err
  let err := SbError.when (additional_required = true ∧ total_additional_len = 0)
    SB_ERROR_ADDITIONAL_INPUT_REQUIRED err
  let err := SbError.when (total_additional_len > SB_HMAC_DRBG_MAX_ADDITIONAL_INPUT_LENGTH)
    SB_ERROR_INPUT_TOO_LARGE err
  SbError.when (drbg.reseed_counter > SB_HMAC_DRBG_RESEED_INTERVAL) SB_ERROR_RESEED_REQUIRED err

/-- The error, the state and the output. -/
def sbHmacDrbgGenerateAdditionalVecOpt (drbg : SbHmacDrbgState) (output_len : Nat)
    (additional : List Bytes) (additional_required : Bool) : SbError × SbHmacDrbgState × Bytes :=
  let total_additional_len := (additional.map List.length).sum
  let err := drbg.generateError output_len total_additional_len additional_required
  if err ≠ 0 then (err, drbg, [])
  else
    let drbg := if total_additional_len > 0 then
        sbHmacDrbgUpdateVec drbg additional (decide (total_additional_len > 0))
      else drbg
    let (drbg, output) := drbg.produce output_len
    let drbg := sbHmacDrbgUpdateVec drbg additional (decide (total_additional_len > 0))
    (0, { drbg with reseed_counter := drbg.reseed_counter + 1 }, output)

def sbHmacDrbgGenerateAdditionalVec (drbg : SbHmacDrbgState) (output_len : Nat)
    (additional : List Bytes) : SbError × SbHmacDrbgState × Bytes :=
  sbHmacDrbgGenerateAdditionalVecOpt drbg output_len additional true

def sbHmacDrbgGenerate (drbg : SbHmacDrbgState) (output_len : Nat) :
    SbError × SbHmacDrbgState × Bytes :=
  sbHmacDrbgGenerateAdditionalVecOpt drbg output_len [[], [], [], []] false

end DataProcessor
