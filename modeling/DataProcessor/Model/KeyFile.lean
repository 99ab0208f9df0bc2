import DataProcessor.Lib.Transition
import DataProcessor.Model.GenericEcdsa

/-!
# The key file under many calls (`GenericEcdsa.kt`, step by step)

Nothing serializes `getOrCreatePrivateKey`: calls from several threads may
interleave between any two of its steps, and any step may fail. Here a call
is the step it takes next with the local variables it has so far, and the
disk tells the name `Constants.KEY_FILE` from the file it stands for, since
a call writes to the file it opened even when the name is gone or stands
for another one.

The key store, the cipher, the random numbers and the native library are
outside the repository. What they draw comes with each step; what they
compute is `AesGcm` and `SweetBSigner`.
-/

namespace DataProcessor

open Lib

/-- AES/GCM under a key of the key store: key, vector, data. -/
structure AesGcm (AesKey : Type) where
  encrypt : AesKey → Bytes → Bytes → Bytes
  decrypt : AesKey → Bytes → Bytes → Option Bytes

abbrev Iv := { iv : Bytes // iv.length = 12 }

/-- What `CryptoLegacy.secureRandomBytes` draws: a SHA-256 digest. -/
abbrev PrivateKey := { privateKey : Bytes // privateKey.length = 32 }

structure Drawn (AesKey : Type) where
  encryptionKey : AesKey
  iv : Iv
  privateKey : PrivateKey

/-! ## The disk and the key store -/

structure Storage (AesKey : Type) where
  /-- The file `Constants.KEY_FILE` names. -/
  keyFile : Option Nat
  /-- What is in each file, whether it still has the name or not. -/
  files : List Bytes
  /-- The entry `Constants.ENCRYPTER_KEY_ALIAS`. -/
  encrypter : Option AesKey

/-- A write at a position: what is missing before it reads as zeros. -/
def writeAt (content : Bytes) (position : Nat) (bytes : Bytes) : Bytes :=
  content.take position ++ List.replicate (position - content.length) 0 ++ bytes
    ++ content.drop (position + bytes.length)

namespace Storage

variable {AesKey : Type} (d : Storage AesKey)

def content (file : Nat) : Bytes := (d.files[file]?).getD []

/-- `keyFile.outputStream()`: the file is created, or emptied. -/
def outputStream : Nat × Storage AesKey :=
  match d.keyFile with
  | some file => (file, { d with files := d.files.set file [] })
  | none => (d.files.length,
      { d with keyFile := some d.files.length, files := d.files ++ [[]] })

def write (file position : Nat) (bytes : Bytes) : Storage AesKey :=
  { d with files := d.files.modify file (writeAt · position bytes) }

def delete : Storage AesKey := { d with keyFile := none }

end Storage

/-! ## The steps of a call -/

/-- How a step of one of the two branches ends. -/
inductive Progress (β : Type)
  | more (next : β)
  | returned (privateKey : Bytes)
  | raised

/-- The branch for a file that does not exist, by its next step. -/
inductive Creation (AesKey : Type)
  | outputStream
  | generateKey (file : Nat)
  | initEncrypt (file : Nat) (encryptionKey : AesKey)
  | secureRandomBytes (file : Nat) (encryptionKey : AesKey) (iv : Iv)
  | computePublicKey (file : Nat) (encryptionKey : AesKey) (iv : Iv)
      (privateKey : PrivateKey)
  | writePublicKey (file : Nat) (encryptionKey : AesKey) (iv : Iv)
      (privateKey : PrivateKey) (publicKey : Bytes)
  | writeIv (file : Nat) (encryptionKey : AesKey) (iv : Iv)
      (privateKey : PrivateKey) (publicKey : Bytes)
  | writeEncrypted (file : Nat) (encryptionKey : AesKey) (iv : Iv)
      (privateKey : PrivateKey) (publicKey : Bytes)
  | close (file : Nat) (encryptionKey : AesKey) (iv : Iv)
      (privateKey : PrivateKey) (publicKey : Bytes)

/-- The branch for a file that exists. -/
inductive Reading (AesKey : Type)
  | inputStream
  | readBytes (file : Nat)
  | getEntry (encryptedPayload : Bytes)
  | initDecrypt (encryptedPayload : Bytes) (secretKey : AesKey)
  | doFinal (encryptedPayload : Bytes) (secretKey : AesKey) (iv : Bytes)

section

variable {AesKey : Type} (aesGcm : AesGcm AesKey) (sweetBSigner : SweetBSigner)

/-- `generateKey`, in the strong box or else outside it, puts its key under
the alias, whatever was there. -/
def Creation.next (drawn : Drawn AesKey) (d : Storage AesKey) :
    Creation AesKey → Storage AesKey × Progress (Creation AesKey)
  | .outputStream => (d.outputStream.2, .more (.generateKey d.outputStream.1))
  | .generateKey file =>
      ({ d with encrypter := some drawn.encryptionKey },
        .more (.initEncrypt file drawn.encryptionKey))
  | .initEncrypt file key => (d, .more (.secureRandomBytes file key drawn.iv))
  | .secureRandomBytes file key iv =>
      (d, .more (.computePublicKey file key iv drawn.privateKey))
  | .computePublicKey file key iv privateKey =>
      match sweetBSigner.computePublicKey privateKey with
      | .ok publicKey => (d, .more (.writePublicKey file key iv privateKey publicKey))
      | .error _ => (d, .raised)
  | .writePublicKey file key iv privateKey publicKey =>
      (d.write file 0 publicKey, .more (.writeIv file key iv privateKey publicKey))
  | .writeIv file key iv privateKey publicKey =>
      (d.write file publicKey.length iv,
        .more (.writeEncrypted file key iv privateKey publicKey))
  | .writeEncrypted file key iv privateKey publicKey =>
      (d.write file (publicKey.length + iv.val.length) (aesGcm.encrypt key iv privateKey),
        .more (.close file key iv privateKey publicKey))
  | .close _ _ _ privateKey _ => (d, .returned privateKey)

def Reading.next (d : Storage AesKey) : Reading AesKey → Progress (Reading AesKey)
  | .inputStream =>
      match d.keyFile with
      | some file => .more (.readBytes file)
      | none => .raised
  | .readBytes file => .more (.getEntry (d.content file))
  | .getEntry encryptedPayload =>
      match d.encrypter with
      | some secretKey => .more (.initDecrypt encryptedPayload secretKey)
      | none => .raised
  | .initDecrypt encryptedPayload secretKey =>
      match sliceArray encryptedPayload 64 75 with
      | .ok iv => .more (.doFinal encryptedPayload secretKey iv)
      | .error _ => .raised
  | .doFinal encryptedPayload secretKey iv =>
      match sliceArray encryptedPayload 76 123 with
      | .ok encrypted =>
          match aesGcm.decrypt secretKey iv encrypted with
          | some privateKey => .returned privateKey
          | none => .raised
      | .error _ => .raised

/-- The two ways into `getOrCreatePrivateKey`: with `returnKey`, from
`rawSign`, `rawStreamEncrypt` and `rawStreamDecrypt`, and without it. -/
inductive KeyCall
  | getOrCreatePrivateKey
  | getPublicKey (compressed : Bool)
  deriving DecidableEq

inductive Pc (AesKey : Type)
  | load
  | checkExists
  | creating (next : Creation AesKey)
  | reading (next : Reading AesKey)
  /-- Back in `getPublicKey`, where nothing catches. -/
  | openPublicKey
  | readPublicKey (file : Nat)
  | done

/-- The call found no file and has not returned. -/
def Pc.creates {AesKey : Type} : Pc AesKey → Bool
  | .creating _ => true
  | _ => false

/-- The call found the file and has not returned. -/
def Pc.reads {AesKey : Type} : Pc AesKey → Bool
  | .reading _ => true
  | _ => false

inductive Returned
  | privateKey (bytes : Bytes)
  | publicKey (compressed : Bool) (bytes : Bytes)
  deriving DecidableEq

structure Stepped (AesKey : Type) where
  storage : Storage AesKey
  pc : Pc AesKey
  returned : Option Returned

def KeyCall.afterwards : KeyCall → Pc AesKey
  | .getOrCreatePrivateKey => .done
  | .getPublicKey _ => .openPublicKey

/-- The `catch` block: the file is deleted and the array returned empty. -/
def KeyCall.catch (call : KeyCall) (d : Storage AesKey) : Stepped AesKey :=
  { storage := d.delete, pc := call.afterwards, returned := none }

def KeyCall.progress {β : Type} (call : KeyCall) (continued : β → Pc AesKey) :
    Storage AesKey × Progress β → Stepped AesKey
  | (d, .more next) => { storage := d, pc := continued next, returned := none }
  | (d, .returned privateKey) =>
      { storage := d, pc := call.afterwards, returned := some (.privateKey privateKey) }
  | (d, .raised) => call.catch d

/-- The key in the file's first 64 bytes, if it gets that far. -/
def publicKeyOf (bytes : Bytes) (compressed : Bool) : Result Bytes := do
  let publicKey ← sliceArray bytes 0 63
  if compressed then sweetBSigner.compressPublicKey publicKey else return publicKey

/-- A step that goes through, as far as the data lets it. -/
def KeyCall.next (call : KeyCall) (drawn : Drawn AesKey) (d : Storage AesKey) :
    Pc AesKey → Option (Stepped AesKey)
  | .load => some { storage := d, pc := .checkExists, returned := none }
  | .checkExists => some {
      storage := d
      pc := match d.keyFile, call with
        | none, _ => .creating .outputStream
        | some _, .getOrCreatePrivateKey => .reading .inputStream
        | some _, .getPublicKey _ => call.afterwards
      returned := none }
  | .creating creation =>
      some (call.progress .creating (creation.next aesGcm sweetBSigner drawn d))
  | .reading reading => some (call.progress .reading (d, reading.next aesGcm d))
  | .openPublicKey => some {
      storage := d
      pc := match d.keyFile with
        | some file => .readPublicKey file
        | none => .done
      returned := none }
  | .readPublicKey file => some {
      storage := d
      pc := .done
      returned := match call with
        | .getOrCreatePrivateKey => none
        | .getPublicKey compressed =>
            (publicKeyOf sweetBSigner (d.content file) compressed).toOption.map
              (.publicKey compressed) }
  | .done => none

/-- A step that fails. Before the `try` and after it that ends the call. -/
def KeyCall.fail (call : KeyCall) (d : Storage AesKey) :
    Pc AesKey → Option (Stepped AesKey)
  | .load | .openPublicKey | .readPublicKey _ =>
      some { storage := d, pc := .done, returned := none }
  | .creating _ | .reading _ => some (call.catch d)
  | .checkExists | .done => none

end

/-! ## Calls together -/

structure KeyFileState (AesKey : Type) where
  storage : Storage AesKey
  calls : List (KeyCall × Pc AesKey)
  returned : List Returned

inductive KeyFileAction (AesKey : Type)
  | start (call : KeyCall)
  | next (c : Nat) (drawn : Drawn AesKey)
  | fail (c : Nat)

namespace KeyFileState

variable {AesKey : Type} (aesGcm : AesGcm AesKey) (sweetBSigner : SweetBSigner)
  (s : KeyFileState AesKey)

/-- A device on which the key was never asked for. -/
def fresh : KeyFileState AesKey where
  storage := { keyFile := none, files := [], encrypter := none }
  calls := []
  returned := []

def started (call : KeyCall) : KeyFileState AesKey :=
  { s with calls := s.calls ++ [(call, .load)] }

def after (c : Nat) (call : KeyCall) (stepped : Stepped AesKey) : KeyFileState AesKey where
  storage := stepped.storage
  calls := s.calls.set c (call, stepped.pc)
  returned := stepped.returned.toList ++ s.returned

def step : KeyFileAction AesKey → Option (KeyFileState AesKey)
  | .start call => some (s.started call)
  | .next c drawn => do
      let (call, pc) ← s.calls[c]?
      let stepped ← call.next aesGcm sweetBSigner drawn s.storage pc
      return s.after c call stepped
  | .fail c => do
      let (call, pc) ← s.calls[c]?
      let stepped ← call.fail s.storage pc
      return s.after c call stepped

def pcAt (c : Nat) : Pc AesKey := (s.calls[c]?).elim .done Prod.snd

/-- No call but `c` is creating the file. -/
def OthersCreateNone (c : Nat) : Prop :=
  ∀ i, i < s.calls.length → i ≠ c → ¬ (s.pcAt i).creates

instance (c : Nat) : Decidable (s.OthersCreateNone c) :=
  inferInstanceAs (Decidable (∀ i, i < s.calls.length → i ≠ c → _))

/-- The file is found missing, or opened for reading, only while no other
call is creating it, and a call that found it opens it before it is gone. -/
def MayTake (c : Nat) : Pc AesKey → Prop
  | .checkExists => s.storage.keyFile = none → s.OthersCreateNone c
  | .reading .inputStream => s.storage.keyFile ≠ none ∧ s.OthersCreateNone c
  | .openPublicKey => s.OthersCreateNone c
  | _ => True

instance (c : Nat) : ∀ pc, Decidable (s.MayTake c pc)
  | .checkExists => inferInstanceAs (Decidable (_ → _))
  | .reading .inputStream => inferInstanceAs (Decidable (_ ∧ _))
  | .openPublicKey => inferInstanceAs (Decidable (s.OthersCreateNone c))
  | .load | .creating _ | .readPublicKey _ | .done
  | .reading (.readBytes _) | .reading (.getEntry _) | .reading (.initDecrypt ..)
  | .reading (.doFinal ..) => isTrue trivial

/-- The condition on a step: calls take the file in turn while it is being
created, and no step fails in a call that found it. -/
def CreatesAlone : KeyFileAction AesKey → Prop
  | .start _ => True
  | .next c _ => s.MayTake c (s.pcAt c)
  | .fail c => ¬ (s.pcAt c).reads

instance : ∀ a, Decidable (s.CreatesAlone a)
  | .start _ => isTrue trivial
  | .next c _ => inferInstanceAs (Decidable (s.MayTake c _))
  | .fail _ => inferInstanceAs (Decidable (¬ _))

end KeyFileState

end DataProcessor
