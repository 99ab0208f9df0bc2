import DataProcessor.Model.Signatures

/-!
# The key file (`GenericEcdsa.kt`, one call at a time)

The secp256k1 key lives in a file: 64 bytes of public key, the 12 bytes of
an initialisation vector, and the private key encrypted under an AES key of
the key store. `getOrCreatePrivateKey` creates the file or decrypts it, and
whatever goes wrong in either it deletes the file, if that goes well, and
answers an empty array.

A computation on the device is an `OnDevice`: it raises or answers, and
keeps what it did to the device either way.
-/

namespace DataProcessor

/-- What of the device outlives a call. -/
structure Device (AesKey : Type) where
  keyFile : Option Bytes
  /-- The entry `Constants.ENCRYPTER_KEY_ALIAS` of the key store. -/
  encrypter : Option AesKey

abbrev OnDevice (AesKey : Type) := EStateM Exn (Device AesKey)

def Device.run {AesKey α : Type} (d : Device AesKey) (x : OnDevice AesKey α) :
    Result α :=
  match x d with
  | .ok a _ => .ok a
  | .error e _ => .error e

/-- What the platform's steps answer during one call. -/
structure Platform (AesKey : Type) where
  /-- The key store and the cipher, before the `try`. -/
  load : Result Unit
  outputStream : Result Unit
  /-- `keyGenerator.init` and `generateKey`, in the strong box or not. -/
  generateKey : Bool → Except GenerateFailure AesKey
  /-- `cipher.init(ENCRYPT_MODE, key)`, and the vector it chose. -/
  initEncrypt : AesKey → Result Bytes
  secureRandomBytes : Result Bytes
  write : Bytes → Result Unit
  close : Result Unit
  /-- `inputStream().readBytes()`, where there is a file. -/
  readBytes : Result Unit
  getEntry : Result Unit
  /-- `doFinal` after either `init`: key, vector, data. -/
  encrypt : AesKey → Bytes → Bytes → Result Bytes
  decrypt : AesKey → Bytes → Bytes → Result Bytes
  /-- Whether `keyFile.delete()` deletes: it never raises. -/
  delete : Bool

/-- The native library, for one curve. -/
structure SweetBSigner where
  curveName : String
  computePublicKey : Bytes → Result Bytes
  compressPublicKey : Bytes → Result Bytes
  generateSharedSecret : Bytes → Bytes → Result Bytes

namespace GenericEcdsa

variable {AesKey : Type} (platform : Platform AesKey) (sweetBSigner : SweetBSigner)

/-- A result of the platform, inside a computation on the device. -/
def lift {α : Type} : Result α → OnDevice AesKey α
  | .ok a => pure a
  | .error e => throw e

def Runs {α : Type} (x : OnDevice AesKey α) (d : Device AesKey) (a : α)
    (d' : Device AesKey) : Prop :=
  x.run d = .ok a d'

section

variable {α β : Type} {d d' d'' : Device AesKey} {a : α} {b : β}

theorem runs_pure : Runs (pure a) d a d := rfl

theorem runs_get : Runs (get : OnDevice AesKey _) d d d := rfl

theorem runs_lift {x : Result α} (h : x = .ok a) : Runs (lift x) d a d := by
  rw [h]
  rfl

theorem Runs.bind {x : OnDevice AesKey α} {f : α → OnDevice AesKey β}
    (hx : Runs x d a d') (hf : Runs (f a) d' b d'') : Runs (x >>= f) d b d'' := by
  unfold Runs EStateM.run at *
  simp only [Bind.bind, EStateM.bind, hx, hf]

theorem Runs.unique {x : OnDevice AesKey α} {a' : α} (h : Runs x d a d')
    (h' : Runs x d a' d'') : a' = a ∧ d'' = d' := by
  unfold Runs at h h'
  rw [h] at h'
  injection h' with ha hd
  exact ⟨ha.symm, hd.symm⟩

theorem runs_pure_iff {a' : α} :
    Runs (pure a') d a d' ↔ a = a' ∧ d' = d :=
  ⟨fun h => runs_pure.unique h, fun ⟨ha, hd⟩ => by rw [ha, hd]; exact runs_pure⟩

theorem runs_modify_iff {f : Device AesKey → Device AesKey} {u : Unit} :
    Runs (modify f) d u d' ↔ d' = f d := by
  have hmodify : Runs (modify f) d () (f d) := rfl
  exact ⟨fun h => (hmodify.unique h).2, fun hd => by rw [hd]; exact hmodify⟩

theorem runs_lift_iff {x : Result α} :
    Runs (lift x) d a d' ↔ x = .ok a ∧ d' = d := by
  cases x with
  | ok a' =>
      rw [show (lift (.ok a') : OnDevice AesKey α) = pure a' from rfl, runs_pure_iff]
      constructor
      · intro hgiven
        obtain ⟨rfl, rfl⟩ := hgiven
        exact ⟨rfl, rfl⟩
      · intro hgiven
        obtain ⟨h, rfl⟩ := hgiven
        injection h with h
        exact ⟨h.symm, rfl⟩
  | error e => exact ⟨nofun, fun h => nomatch h.1⟩

theorem runs_bind_iff {x : OnDevice AesKey α} {f : α → OnDevice AesKey β} :
    Runs (x >>= f) d b d'' ↔ ∃ a d', Runs x d a d' ∧ Runs (f a) d' b d'' := by
  constructor
  · intro h
    unfold Runs EStateM.run at *
    simp only [Bind.bind, EStateM.bind] at h
    split at h
    · next a d' hx => exact ⟨a, d', hx, h⟩
    · cases h
  · intro ⟨a, d', hx, hf⟩
    exact .bind hx hf

theorem runs_tryCatch_iff {x : OnDevice AesKey α} {handler : Exn → OnDevice AesKey α} :
    Runs (tryCatch x handler) d a d'' ↔ Runs x d a d'' ∨
      ∃ e d', x.run d = .error e d' ∧ Runs (handler e) d' a d'' := by
  unfold Runs EStateM.run
  simp only [MonadExcept.tryCatch, tryCatchThe, MonadExceptOf.tryCatch, EStateM.tryCatch]
  cases hx : x d with
  | ok a' d' => simp
  | error e d' =>
      simp only [reduceCtorEq, false_or]
      constructor
      · exact fun h => ⟨e, d', rfl, h⟩
      · intro hgiven
        obtain ⟨_, _, he, h⟩ := hgiven
        injection he with he hd
        rw [he, hd]
        exact h

theorem Runs.tryCatch {x : OnDevice AesKey α} {handler : Exn → OnDevice AesKey α}
    (hx : Runs x d a d') : Runs (tryCatch x handler) d a d' := by
  unfold Runs EStateM.run at *
  simp only [MonadExcept.tryCatch, tryCatchThe, MonadExceptOf.tryCatch,
    EStateM.tryCatch, hx]

theorem Runs.run {x : OnDevice AesKey α} (hx : Runs x d a d') :
    d.run x = .ok a := by
  unfold Runs EStateM.run at hx
  rw [Device.run, hx]

theorem Runs.run_bind_lift {x : OnDevice AesKey α} {f : α → Result β}
    (hx : Runs x d a d') : d.run (x >>= fun a => lift (f a)) = f a := by
  unfold Runs EStateM.run at hx
  rw [Device.run, show (x >>= fun a => lift (f a)) d = lift (f a) d' by
    simp only [Bind.bind, EStateM.bind, hx]]
  cases f a <;> rfl

/-- Where such a computation answers, the platform's step did. -/
theorem run_bind_lift_ok {x : OnDevice AesKey α} {f : α → Result β}
    (h : d.run (x >>= fun a => lift (f a)) = .ok b) : ∃ a, f a = .ok b := by
  cases hx : x.run d with
  | ok a d' =>
      have hruns : Runs x d a d' := hx
      rw [hruns.run_bind_lift] at h
      exact ⟨a, h⟩
  | error e d' =>
      unfold EStateM.run at hx
      simp only [Device.run, Bind.bind, EStateM.bind, hx] at h
      cases h

end

/-- `fileOutputStream.write`: to the end of the file as it is. -/
def write (bytes : Bytes) : OnDevice AesKey Unit := do
  lift (platform.write bytes)
  modify fun d => { d with keyFile := d.keyFile.map (· ++ bytes) }

/-- The branch for a file that does not exist. -/
def createPrivateKey : OnDevice AesKey Bytes := do
  lift platform.outputStream
  modify fun d => { d with keyFile := some [] }
  let encryptionKey ← lift (match platform.generateKey true with
    | .ok key => .ok key
    | .error .strongBoxUnavailable =>
        (platform.generateKey false).mapError fun
          | .strongBoxUnavailable => .external "StrongBoxUnavailableException"
          | .other e => e
    | .error (.other e) => .error e)
  modify fun d => { d with encrypter := some encryptionKey }
  let iv ← lift (platform.initEncrypt encryptionKey)
  let privateKey ← lift platform.secureRandomBytes
  let publicKey ← lift (sweetBSigner.computePublicKey privateKey)
  write platform publicKey
  write platform iv
  let encrypted ← lift (platform.encrypt encryptionKey iv privateKey)
  write platform encrypted
  lift platform.close
  return privateKey

/-- The branch for a file that exists. -/
def readPrivateKey (encryptedPayload : Bytes) : OnDevice AesKey Bytes := do
  lift platform.readBytes
  lift platform.getEntry
  let secretKey ← lift ((← get).encrypter.elim (.error .nullPointer) .ok)
  let iv ← lift (sliceArray encryptedPayload 64 75)
  let encrypted ← lift (sliceArray encryptedPayload 76 123)
  lift (platform.decrypt secretKey iv encrypted)

def getOrCreatePrivateKey (returnKey : Bool) : OnDevice AesKey Bytes := do
  lift platform.load
  let keyFile := (← get).keyFile
  tryCatch
    (match keyFile with
      | none => createPrivateKey platform sweetBSigner
      | some encryptedPayload =>
          if returnKey then readPrivateKey platform encryptedPayload else pure [])
    fun _ => do
      if platform.delete then modify fun d => { d with keyFile := none }
      return []

def getPublicKey (compressed : Bool) : OnDevice AesKey Bytes := do
  let _ ← getOrCreatePrivateKey platform sweetBSigner false
  let bytes ← lift ((← get).keyFile.elim (.error .fileNotFound) .ok)
  lift platform.readBytes
  let publicKey ← lift (sliceArray bytes 0 63)
  if compressed then lift (sweetBSigner.compressPublicKey publicKey)
  else return publicKey

/-- `sign` is `Ecdsa(Curve.SECP_256_K1).sign`. -/
def rawSign (sign : Bytes → Bytes → Result Bytes) (payload : Bytes) :
    OnDevice AesKey Bytes := do
  let privateKey ← getOrCreatePrivateKey platform sweetBSigner true
  lift (sign privateKey payload)

/-! ## A device that holds its key pair -/

/-- The file is whole, can be read and decrypts to the private key. -/
def Holds (d : Device AesKey) (privateKey publicKey : Bytes) : Prop :=
  platform.load = .ok () ∧ platform.readBytes = .ok () ∧ platform.getEntry = .ok () ∧
    publicKey.length = 64 ∧
    ∃ key iv encrypted, d.encrypter = some key ∧
      d.keyFile = some (publicKey ++ iv ++ encrypted) ∧
      iv.length = 12 ∧ encrypted.length = 48 ∧
      platform.decrypt key iv encrypted = .ok privateKey

variable {platform} {sweetBSigner} {d : Device AesKey} {privateKey publicKey : Bytes}

theorem runs_getOrCreatePrivateKey (h : Holds platform d privateKey publicKey) :
    Runs (getOrCreatePrivateKey platform sweetBSigner true) d privateKey d := by
  obtain ⟨hload, hread, hentry, hpub, key, iv, encrypted, hkey, hfile, hiv, henc, hdec⟩ := h
  have hslice : sliceArray (publicKey ++ iv ++ encrypted) 64 75 = .ok iv := by
    rw [sliceArray_ok (by decide) (by simp; omega), List.append_assoc,
      List.drop_left' hpub, List.take_left' hiv]
  have hslice' : sliceArray (publicKey ++ iv ++ encrypted) 76 123 = .ok encrypted := by
    rw [sliceArray_ok (by decide) (by simp; omega), List.drop_left' (by simp; omega),
      List.take_of_length_le (by omega)]
  have hkeyFile : Runs (readPrivateKey platform (publicKey ++ iv ++ encrypted)) d
      privateKey d :=
    .bind (runs_lift hread) <| .bind (runs_lift hentry) <| .bind runs_get <|
      .bind (runs_lift (by rw [hkey]; rfl)) <|
      .bind (runs_lift hslice) <| .bind (runs_lift hslice') <| runs_lift hdec
  refine .bind (runs_lift hload) <| .bind runs_get <| .tryCatch ?_
  rw [hfile]
  exact hkeyFile

/-- Asking for no key does nothing to the file. -/
theorem runs_getOrCreatePrivateKey_false {bytes : Bytes}
    (hload : platform.load = .ok ()) (hfile : d.keyFile = some bytes) :
    Runs (getOrCreatePrivateKey platform sweetBSigner false) d [] d := by
  refine .bind (runs_lift hload) <| .bind runs_get <| .tryCatch ?_
  rw [hfile]
  exact runs_pure

theorem runs_getPublicKey_bytes {bytes : Bytes} (hload : platform.load = .ok ())
    (hread : platform.readBytes = .ok ()) (hfile : d.keyFile = some bytes)
    (hslice : sliceArray bytes 0 63 = .ok publicKey) :
    Runs (getPublicKey platform sweetBSigner false) d publicKey d ∧
      ∀ compressed, sweetBSigner.compressPublicKey publicKey = .ok compressed →
        Runs (getPublicKey platform sweetBSigner true) d compressed d := by
  have hget : Runs (getOrCreatePrivateKey platform sweetBSigner false) d [] d :=
    runs_getOrCreatePrivateKey_false hload hfile
  have hbytes : Runs (lift (d.keyFile.elim (.error .fileNotFound) .ok)) d bytes d :=
    runs_lift (by rw [hfile]; rfl)
  refine ⟨.bind hget <| .bind runs_get <| .bind hbytes <| .bind (runs_lift hread) <|
    .bind (runs_lift hslice) runs_pure, fun compressed hcomp => ?_⟩
  exact .bind hget <| .bind runs_get <| .bind hbytes <| .bind (runs_lift hread) <|
    .bind (runs_lift hslice) <| runs_lift hcomp

theorem runs_getPublicKey (h : Holds platform d privateKey publicKey)
    {compressed : Bytes} (hcomp : sweetBSigner.compressPublicKey publicKey = .ok compressed) :
    Runs (getPublicKey platform sweetBSigner true) d compressed d ∧
      Runs (getPublicKey platform sweetBSigner false) d publicKey d := by
  obtain ⟨hload, hread, hentry, hpub, key, iv, encrypted, hkey, hfile, hiv, henc, hdec⟩ := h
  have hslice : sliceArray (publicKey ++ iv ++ encrypted) 0 63 = .ok publicKey := by
    rw [sliceArray_ok (by decide) (by simp; omega), List.drop_zero,
      List.append_assoc, List.take_left' hpub]
  have hruns := @runs_getPublicKey_bytes _ _ sweetBSigner _ _ _ hload hread hfile hslice
  exact ⟨hruns.2 _ hcomp, hruns.1⟩

end GenericEcdsa

end DataProcessor
