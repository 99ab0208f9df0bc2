import DataProcessor.Proofs.EcdsaSign
import DataProcessor.Proofs.KeyFileRuns

/-!
# Whose key `rawSign` signs with (`GenericEcdsa.kt`)

A failure inside the `try` of `getOrCreatePrivateKey` is answered with the
empty array, which is also what a call that wants no key gets. `rawSign`
does not look at it: to `bytesToBigInt` it is the scalar 0, and `Ecdsa.sign`
has a signature for every scalar, `sign_total`. So where a step fails
`rawSign` answers 64 bytes that no key of the device made, and the file is
deleted besides. `rawSign_stored_iff` has every state of the file and every
pattern of failures.
-/

namespace DataProcessor

open Lib

/-! ## `sign` on any scalar -/

theorem PadsBytes.of_lt {toBytesPadded : Int → Nat → Result Bytes}
    (hpad : PadsBytes toBytesPadded) {value : Int} {length : Nat} (hlo : 0 ≤ value)
    (hhi : value < 256 ^ length) :
    toBytesPadded value length = .ok (toBE length value.toNat) := by
  obtain ⟨n, rfl⟩ := Int.eq_ofNat_of_zero_le hlo
  exact hpad n length (by exact_mod_cast hhi)

theorem Ecdsa.sign_total {curve : Curve} {toBytesPadded : Int → Nat → Result Bytes}
    (hpad : PadsBytes toBytesPadded) {nonce : Bytes} (hnonce : nonce ≠ [])
    (privateKey hash : Bytes) :
    ∃ signature, Ecdsa.sign curve toBytesPadded privateKey hash nonce = .ok signature := by
  obtain ⟨b, rest, rfl⟩ := List.exists_cons_of_ne_nil hnonce
  have hP := curve.P_lt
  have hN := curve.N_lt
  have hPpos := curve.three_lt_P
  have hNpos := curve.N_pos
  have hmodP : ∀ v : Int, ∃ bytes, toBytesPadded (v % curve.P) 32 = .ok bytes := by
    intro v
    have hlo := Int.emod_nonneg v (by omega : (curve.P : Int) ≠ 0)
    have hhi := Int.emod_lt_of_pos v (by omega : (0 : Int) < curve.P)
    exact ⟨_, hpad.of_lt hlo (by omega)⟩
  have hfolded : ∀ v : Int, ∃ bytes, toBytesPadded
      (if v % curve.N * 2 < curve.N then v % curve.N else curve.N - v % curve.N) 32
        = .ok bytes := by
    intro v
    have hlo := Int.emod_nonneg v (by omega : (curve.N : Int) ≠ 0)
    have hhi := Int.emod_lt_of_pos v (by omega : (0 : Int) < curve.N)
    exact ⟨_, hpad.of_lt (by split <;> omega) (by split <;> omega)⟩
  rw [Ecdsa.sign, BigInteger.ofBytes]
  simp only [bind, Except.bind, pure, Except.pure]
  obtain ⟨r, hr⟩ := hmodP _
  rw [hr]
  simp only []
  obtain ⟨s, hs⟩ := hfolded _
  rw [hs]
  exact ⟨_, rfl⟩

theorem Ecdsa.sign_nil {curve : Curve} {toBytesPadded : Int → Nat → Result Bytes}
    (privateKey hash signature : Bytes) :
    Ecdsa.sign curve toBytesPadded privateKey hash [] ≠ .ok signature := nofun

namespace GenericEcdsa

variable {AesKey : Type}

/-! ## The stored key -/

/-- What a platform's steps have to do with the cipher where they answer:
the widths, and a tag of 16 bytes behind what is encrypted. -/
structure Follows (platform : Platform AesKey) (aesGcm : AesGcm AesKey) : Prop where
  iv_length : ∀ key iv, platform.initEncrypt key = .ok iv → iv.length = 12
  privateKey_length : ∀ privateKey,
    platform.secureRandomBytes = .ok privateKey → privateKey.length = 32
  encrypt_eq : ∀ key iv bytes encrypted,
    platform.encrypt key iv bytes = .ok encrypted → encrypted = aesGcm.encrypt key iv bytes
  decrypt_eq : ∀ key iv encrypted bytes,
    platform.decrypt key iv encrypted = .ok bytes → aesGcm.decrypt key iv encrypted = some bytes
  decrypt_length : ∀ key iv encrypted bytes,
    aesGcm.decrypt key iv encrypted = some bytes → encrypted.length = bytes.length + 16

/-- The private key in the file, encrypted under the entry of the key store. -/
def Stores (aesGcm : AesGcm AesKey) (d : Device AesKey) (privateKey : Bytes) : Prop :=
  ∃ bytes secretKey iv encrypted, d.keyFile = some bytes ∧ d.encrypter = some secretKey ∧
    sliceArray bytes 64 75 = .ok iv ∧ sliceArray bytes 76 123 = .ok encrypted ∧
    aesGcm.decrypt secretKey iv encrypted = some privateKey

/-- What `getPublicKey` answers whenever it can read the file. -/
def Reports (sweetBSigner : SweetBSigner) (d : Device AesKey) (publicKey : Bytes) : Prop :=
  ∀ platform : Platform AesKey, platform.load = .ok () → platform.readBytes = .ok () →
    Runs (getPublicKey platform sweetBSigner false) d publicKey d

/-- `rawSign` raises, or the key it signs with is the one the device stores
when it answers, and the one `getPublicKey` reports. -/
def SignsWithStored (platform : Platform AesKey) (aesGcm : AesGcm AesKey)
    (sweetBSigner : SweetBSigner) (sign : Bytes → Bytes → Result Bytes) (payload : Bytes)
    (d : Device AesKey) : Prop :=
  ∀ signature d', Runs (rawSign platform sweetBSigner sign payload) d signature d' →
    ∃ privateKey publicKey, Runs (getOrCreatePrivateKey platform sweetBSigner true) d
        privateKey d' ∧
      sign privateKey payload = .ok signature ∧
      Stores aesGcm d' privateKey ∧
      sweetBSigner.computePublicKey privateKey = .ok publicKey ∧
      Reports sweetBSigner d' publicKey

/-! ## The steps inside the `try` -/

variable (platform : Platform AesKey) (sweetBSigner : SweetBSigner)

def Generates (key : AesKey) : Prop :=
  platform.generateKey true = .ok key ∨
    platform.generateKey true = .error .strongBoxUnavailable ∧
      platform.generateKey false = .ok key

/-- The steps for a file that does not exist, each of which can fail. -/
structure Creates (key : AesKey) (iv privateKey publicKey encrypted : Bytes) : Prop where
  outputStream : platform.outputStream = .ok ()
  generateKey : Generates platform key
  initEncrypt : platform.initEncrypt key = .ok iv
  secureRandomBytes : platform.secureRandomBytes = .ok privateKey
  computePublicKey : sweetBSigner.computePublicKey privateKey = .ok publicKey
  writePublicKey : platform.write publicKey = .ok ()
  writeIv : platform.write iv = .ok ()
  encrypt : platform.encrypt key iv privateKey = .ok encrypted
  writeEncrypted : platform.write encrypted = .ok ()
  close : platform.close = .ok ()

/-- The steps for a file that exists. -/
structure Reads (bytes : Bytes) (encrypter : Option AesKey) (secretKey : AesKey)
    (iv encrypted privateKey : Bytes) : Prop where
  readBytes : platform.readBytes = .ok ()
  getEntry : platform.getEntry = .ok ()
  entry : encrypter = some secretKey
  slice_iv : sliceArray bytes 64 75 = .ok iv
  slice_encrypted : sliceArray bytes 76 123 = .ok encrypted
  decrypt : platform.decrypt secretKey iv encrypted = .ok privateKey

/-- No step fails, and a file that exists begins with the public key of the
private key in it. -/
def NothingFails (d : Device AesKey) : Prop :=
  match d.keyFile with
  | none => ∃ key iv privateKey publicKey encrypted,
      Creates platform sweetBSigner key iv privateKey publicKey encrypted
  | some bytes => ∃ secretKey iv encrypted privateKey publicKey,
      Reads platform bytes d.encrypter secretKey iv encrypted privateKey ∧
        sliceArray bytes 0 63 = .ok publicKey ∧
        sweetBSigner.computePublicKey privateKey = .ok publicKey

variable {platform sweetBSigner} {aesGcm : AesGcm AesKey} {d d' : Device AesKey}
  {privateKey : Bytes}

theorem generates_iff {key : AesKey} :
    (match platform.generateKey true with
      | .ok key => .ok key
      | .error .strongBoxUnavailable =>
          (platform.generateKey false).mapError fun
            | .strongBoxUnavailable => .external "StrongBoxUnavailableException"
            | .other e => e
      | .error (.other e) => .error e : Result AesKey) = .ok key
      ↔ Generates platform key := by
  unfold Generates
  cases platform.generateKey true with
  | ok key' => simp
  | error e =>
      cases e with
      | other e => simp
      | strongBoxUnavailable =>
          cases platform.generateKey false with
          | ok key' => simp [Except.mapError]
          | error e => simp [Except.mapError]

theorem runs_write_iff {bytes : Bytes} {u : Unit} : Runs (write platform bytes) d u d' ↔
    platform.write bytes = .ok () ∧ d' = { d with keyFile := d.keyFile.map (· ++ bytes) } := by
  rw [write, runs_bind_iff]
  simp only [runs_lift_iff, runs_modify_iff]
  grind

theorem runs_createPrivateKey_iff :
    Runs (createPrivateKey platform sweetBSigner) d privateKey d' ↔
      ∃ key iv publicKey encrypted,
        Creates platform sweetBSigner key iv privateKey publicKey encrypted ∧
        d' = { keyFile := some (publicKey ++ iv ++ encrypted), encrypter := some key } := by
  unfold createPrivateKey
  simp only [runs_bind_iff, runs_lift_iff, runs_modify_iff, runs_write_iff, runs_pure_iff]
  constructor
  · intro hruns
    obtain ⟨_, _, ⟨hopen, rfl⟩, _, _, rfl, hruns⟩ := hruns
    obtain ⟨key, _, ⟨hkey, rfl⟩, _, _, rfl, hruns⟩ := hruns
    obtain ⟨iv, _, ⟨hiv, rfl⟩, _, _, ⟨hrandom, rfl⟩, hruns⟩ := hruns
    obtain ⟨publicKey, _, ⟨hpublic, rfl⟩, _, _, ⟨hwritePublic, rfl⟩, hruns⟩ := hruns
    obtain ⟨_, _, ⟨hwriteIv, rfl⟩, encrypted, _, ⟨hencrypt, rfl⟩, hruns⟩ := hruns
    obtain ⟨_, _, ⟨hwrite, rfl⟩, _, _, ⟨hclose, rfl⟩, rfl, rfl⟩ := hruns
    exact ⟨key, iv, publicKey, encrypted, ⟨hopen, generates_iff.1 hkey, hiv, hrandom, hpublic,
      hwritePublic, hwriteIv, hencrypt, hwrite, hclose⟩, rfl⟩
  · intro hcreates
    obtain ⟨key, iv, publicKey, encrypted, h, rfl⟩ := hcreates
    refine ⟨(), _, ⟨h.outputStream, rfl⟩, (), _, rfl, ?_⟩
    refine ⟨key, _, ⟨generates_iff.2 h.generateKey, rfl⟩, (), _, rfl, ?_⟩
    refine ⟨iv, _, ⟨h.initEncrypt, rfl⟩, _, _, ⟨h.secureRandomBytes, rfl⟩, ?_⟩
    refine ⟨publicKey, _, ⟨h.computePublicKey, rfl⟩, (), _, ⟨h.writePublicKey, rfl⟩, ?_⟩
    refine ⟨(), _, ⟨h.writeIv, rfl⟩, encrypted, _, ⟨h.encrypt, rfl⟩, ?_⟩
    exact ⟨(), _, ⟨h.writeEncrypted, rfl⟩, _, _, ⟨h.close, rfl⟩, rfl, rfl⟩

theorem elim_encrypter_iff {secretKey : AesKey} :
    (d.encrypter.elim (.error .nullPointer) .ok : Result AesKey) = .ok secretKey ↔
      d.encrypter = some secretKey := by
  cases d.encrypter <;> simp

theorem runs_readPrivateKey_iff {bytes : Bytes} :
    Runs (readPrivateKey platform bytes) d privateKey d' ↔
      d' = d ∧ ∃ secretKey iv encrypted,
        Reads platform bytes d.encrypter secretKey iv encrypted privateKey := by
  unfold readPrivateKey
  simp only [runs_bind_iff, runs_lift_iff]
  constructor
  · intro hruns
    obtain ⟨_, _, ⟨hread, rfl⟩, _, _, ⟨hentry, rfl⟩, hruns⟩ := hruns
    obtain ⟨_, _, hget, secretKey, _, ⟨hkey, rfl⟩, hruns⟩ := hruns
    obtain ⟨rfl, rfl⟩ := runs_get.unique hget
    obtain ⟨iv, _, ⟨hiv, rfl⟩, encrypted, _, ⟨hencrypted, rfl⟩, hdecrypt, rfl⟩ := hruns
    exact ⟨rfl, secretKey, iv, encrypted, hread, hentry, elim_encrypter_iff.1 hkey, hiv,
      hencrypted, hdecrypt⟩
  · intro hreads
    obtain ⟨rfl, secretKey, iv, encrypted, h⟩ := hreads
    refine ⟨_, _, ⟨h.readBytes, rfl⟩, _, _, ⟨h.getEntry, rfl⟩, ?_⟩
    refine ⟨_, _, runs_get, secretKey, _, ⟨elim_encrypter_iff.2 h.entry, rfl⟩, ?_⟩
    exact ⟨iv, _, ⟨h.slice_iv, rfl⟩, encrypted, _, ⟨h.slice_encrypted, rfl⟩, h.decrypt, rfl⟩

/-- What stands inside the `try`, for a call that wants the key. -/
def attempt (platform : Platform AesKey) (sweetBSigner : SweetBSigner) (d : Device AesKey) :
    OnDevice AesKey Bytes :=
  match d.keyFile with
  | none => createPrivateKey platform sweetBSigner
  | some encryptedPayload => readPrivateKey platform encryptedPayload

/-- The `catch` block, on what the failed step left. -/
def caught (platform : Platform AesKey) (d : Device AesKey) : Device AesKey :=
  if platform.delete then { d with keyFile := none } else d

theorem runs_getOrCreatePrivateKey_iff :
    Runs (getOrCreatePrivateKey platform sweetBSigner true) d privateKey d' ↔
      platform.load = .ok () ∧ (Runs (attempt platform sweetBSigner d) d privateKey d' ∨
        ∃ e left, (attempt platform sweetBSigner d).run d = .error e left ∧
          privateKey = [] ∧ d' = caught platform left) := by
  have hcatch : ∀ left : Device AesKey, Runs (do
      if platform.delete then modify fun d : Device AesKey => { d with keyFile := none }
      return ([] : Bytes)) left privateKey d' ↔
        privateKey = [] ∧ d' = caught platform left := by
    intro left
    unfold caught
    cases platform.delete with
    | false => exact runs_pure_iff
    | true =>
        refine runs_bind_iff.trans ?_
        simp only [runs_modify_iff, runs_pure_iff]
        simp
  have hafter : Runs (getOrCreatePrivateKey platform sweetBSigner true) d privateKey d' ↔
      platform.load = .ok () ∧ Runs (tryCatch (attempt platform sweetBSigner d) fun _ => do
        if platform.delete then modify fun d : Device AesKey => { d with keyFile := none }
        return []) d privateKey d' := by
    unfold getOrCreatePrivateKey
    rw [runs_bind_iff]
    constructor
    · intro hgiven
      obtain ⟨_, _, hlift, h⟩ := hgiven
      obtain ⟨hload, rfl⟩ := runs_lift_iff.1 hlift
      obtain ⟨d₁, d₂, hget, h⟩ := runs_bind_iff.1 h
      obtain ⟨rfl, rfl⟩ := runs_get.unique hget
      exact ⟨hload, h⟩
    · intro hgiven
      obtain ⟨hload, h⟩ := hgiven
      exact ⟨(), d, runs_lift hload, .bind runs_get h⟩
  rw [hafter, runs_tryCatch_iff]
  simp only [hcatch]

theorem runs_rawSign_iff {sign : Bytes → Bytes → Result Bytes} {payload signature : Bytes} :
    Runs (rawSign platform sweetBSigner sign payload) d signature d' ↔
      ∃ privateKey, Runs (getOrCreatePrivateKey platform sweetBSigner true) d privateKey d' ∧
        sign privateKey payload = .ok signature := by
  unfold rawSign
  simp only [runs_bind_iff, runs_lift_iff]
  constructor
  · intro hgiven
    obtain ⟨privateKey, _, h, hsign, rfl⟩ := hgiven
    exact ⟨privateKey, h, hsign⟩
  · intro hgiven
    obtain ⟨privateKey, h, hsign⟩ := hgiven
    exact ⟨privateKey, _, h, hsign, rfl⟩

/-! ## What is stored, and what is reported -/

theorem reports_of_slice {bytes publicKey : Bytes} (hfile : d.keyFile = some bytes)
    (hslice : sliceArray bytes 0 63 = .ok publicKey) : Reports sweetBSigner d publicKey :=
  fun _ hload hread => (runs_getPublicKey_bytes hload hread hfile hslice).1

theorem Reports.slice {bytes publicKey : Bytes} (h : Reports sweetBSigner d publicKey)
    (hfile : d.keyFile = some bytes) (platform : Platform AesKey) :
    sliceArray bytes 0 63 = .ok publicKey := by
  have hruns := h { platform with load := .ok (), readBytes := .ok () } rfl rfl
  unfold getPublicKey at hruns
  obtain ⟨_, _, hcreate, hruns⟩ := runs_bind_iff.1 hruns
  obtain ⟨-, rfl⟩ := (runs_getOrCreatePrivateKey_false rfl hfile).unique hcreate
  obtain ⟨_, _, hget, hruns⟩ := runs_bind_iff.1 hruns
  obtain ⟨rfl, rfl⟩ := runs_get.unique hget
  rw [hfile] at hruns
  obtain ⟨_, _, hbytes, hruns⟩ := runs_bind_iff.1 hruns
  obtain ⟨hbytes, rfl⟩ := runs_lift_iff.1 hbytes
  injection hbytes with hbytes
  subst hbytes
  obtain ⟨_, _, hread, hruns⟩ := runs_bind_iff.1 hruns
  obtain ⟨-, rfl⟩ := runs_lift_iff.1 hread
  obtain ⟨_, _, hlift, hruns⟩ := runs_bind_iff.1 hruns
  obtain ⟨hslice, rfl⟩ := runs_lift_iff.1 hlift
  obtain ⟨rfl, -⟩ := runs_pure_iff.1 hruns
  exact hslice

variable {key : AesKey} {iv publicKey encrypted : Bytes}

/-- The file a creation leaves is a stored key's. -/
theorem Creates.exists_payload (hfollows : Follows platform aesGcm)
    (h : Creates platform sweetBSigner key iv privateKey publicKey encrypted) :
    ∃ p : StoredKey AesKey sweetBSigner, p.encryptionKey = key ∧
      p.privateKey.val = privateKey ∧ p.publicKey = publicKey ∧
      p.payload aesGcm = publicKey ++ iv ++ encrypted := by
  have hiv := hfollows.iv_length _ _ h.initEncrypt
  have hprivate := hfollows.privateKey_length _ h.secureRandomBytes
  have hencrypted := hfollows.encrypt_eq _ _ _ _ h.encrypt
  exact ⟨⟨key, ⟨iv, hiv⟩, ⟨privateKey, hprivate⟩, publicKey, h.computePublicKey⟩,
    rfl, rfl, rfl, congrArg (publicKey ++ iv ++ ·) hencrypted.symm⟩

theorem stores_payload (hdoc : Documented aesGcm sweetBSigner)
    (p : StoredKey AesKey sweetBSigner) :
    Stores aesGcm ⟨some (p.payload aesGcm), some p.encryptionKey⟩ p.privateKey :=
  ⟨_, _, _, _, rfl, rfl, p.slice_iv hdoc, p.slice_encrypted hdoc, hdoc.decrypt_encrypt ..⟩

theorem reports_payload (hdoc : Documented aesGcm sweetBSigner)
    (p : StoredKey AesKey sweetBSigner) :
    Reports sweetBSigner ⟨some (p.payload aesGcm), some p.encryptionKey⟩ p.publicKey :=
  reports_of_slice rfl (p.slice_publicKey hdoc)

theorem Reads.stores {bytes : Bytes} (hfollows : Follows platform aesGcm)
    (hfile : d.keyFile = some bytes)
    (h : Reads platform bytes d.encrypter key iv encrypted privateKey) :
    Stores aesGcm d privateKey :=
  ⟨bytes, key, iv, encrypted, hfile, h.entry, h.slice_iv, h.slice_encrypted,
    hfollows.decrypt_eq _ _ _ _ h.decrypt⟩

/-- What decrypts from the 48 bytes of the file is not empty. -/
theorem not_stores_nil (hfollows : Follows platform aesGcm) : ¬ Stores aesGcm d [] := by
  intro hgiven
  obtain ⟨bytes, secretKey, iv, encrypted, -, -, -, hslice, hdec⟩ := hgiven
  have hlength := hfollows.decrypt_length _ _ _ _ hdec
  rw [length_sliceArray (by decide) hslice] at hlength
  simp at hlength

theorem attempt_none (hfile : d.keyFile = none) :
    attempt platform sweetBSigner d = createPrivateKey platform sweetBSigner := by
  rw [attempt, hfile]

theorem attempt_some {bytes : Bytes} (hfile : d.keyFile = some bytes) :
    attempt platform sweetBSigner d = readPrivateKey platform bytes := by
  rw [attempt, hfile]

/-- Where nothing fails the key that comes out is the one that is stored. -/
theorem NothingFails.runs (hdoc : Documented aesGcm sweetBSigner)
    (hfollows : Follows platform aesGcm) (h : NothingFails platform sweetBSigner d) :
    ∃ privateKey publicKey d', Runs (attempt platform sweetBSigner d) d privateKey d' ∧
      Stores aesGcm d' privateKey ∧ sweetBSigner.computePublicKey privateKey = .ok publicKey ∧
      Reports sweetBSigner d' publicKey := by
  unfold NothingFails at h
  split at h
  · next hfile =>
      obtain ⟨key, iv, privateKey, publicKey, encrypted, h⟩ := h
      obtain ⟨p, hkey, hprivate, hpublic, hpayload⟩ := h.exists_payload hfollows
      refine ⟨privateKey, publicKey, ⟨some (publicKey ++ iv ++ encrypted), some key⟩,
        ?_, ?_, h.computePublicKey, ?_⟩
      · rw [attempt_none hfile]
        exact runs_createPrivateKey_iff.2 ⟨key, iv, publicKey, encrypted, h, rfl⟩
      · rw [← hpayload, ← hkey, ← hprivate]
        exact stores_payload hdoc p
      · rw [← hpayload, ← hkey, ← hpublic]
        exact reports_payload hdoc p
  · next bytes hfile =>
      obtain ⟨key, iv, encrypted, privateKey, publicKey, h, hslice, hpublic⟩ := h
      refine ⟨privateKey, publicKey, d, ?_, h.stores hfollows hfile, hpublic,
        reports_of_slice hfile hslice⟩
      rw [attempt_some hfile]
      exact runs_readPrivateKey_iff.2 ⟨rfl, key, iv, encrypted, h⟩

/-- Where the `try` goes through with the stored key, nothing failed. -/
theorem nothingFails_of_runs (hruns : Runs (attempt platform sweetBSigner d) d privateKey d')
    (hpublic : sweetBSigner.computePublicKey privateKey = .ok publicKey)
    (hreports : Reports sweetBSigner d' publicKey) : NothingFails platform sweetBSigner d := by
  unfold NothingFails
  split
  · next hfile =>
      rw [attempt_none hfile] at hruns
      obtain ⟨key, iv, publicKey, encrypted, h, -⟩ := runs_createPrivateKey_iff.1 hruns
      exact ⟨key, iv, privateKey, publicKey, encrypted, h⟩
  · next bytes hfile =>
      rw [attempt_some hfile] at hruns
      obtain ⟨rfl, key, iv, encrypted, h⟩ := runs_readPrivateKey_iff.1 hruns
      exact ⟨key, iv, encrypted, privateKey, publicKey, h, hreports.slice hfile platform,
        hpublic⟩

/-! ## The signature -/

/-- `rawSign` raises or signs with the stored key exactly where it raises
before it has a key, has no nonce to sign with, or no step in the `try`
fails. -/
theorem rawSign_stored_iff (hdoc : Documented aesGcm sweetBSigner)
    (hfollows : Follows platform aesGcm) {toBytesPadded : Int → Nat → Result Bytes}
    (hpad : PadsBytes toBytesPadded) (nonce payload : Bytes) :
    SignsWithStored platform aesGcm sweetBSigner
        (fun privateKey hash => Ecdsa.sign .SECP_256_K1 toBytesPadded privateKey hash nonce)
        payload d ↔
      nonce = [] ∨ platform.load ≠ .ok () ∨ NothingFails platform sweetBSigner d := by
  constructor
  · intro h
    by_contra hnot
    push Not at hnot
    obtain ⟨hnonce, hload, hfails⟩ := hnot
    have hsigned : ∀ privateKey d',
        Runs (getOrCreatePrivateKey platform sweetBSigner true) d privateKey d' →
        ∃ publicKey, Stores aesGcm d' privateKey ∧
          sweetBSigner.computePublicKey privateKey = .ok publicKey ∧
          Reports sweetBSigner d' publicKey := by
      intro privateKey d' hget
      obtain ⟨signature, hsign⟩ : ∃ signature, Ecdsa.sign .SECP_256_K1 toBytesPadded
          privateKey payload nonce = .ok signature := Ecdsa.sign_total hpad hnonce _ _
      obtain ⟨privateKey', publicKey, hget', -, hstored⟩ :=
        h signature d' (runs_rawSign_iff.2 ⟨privateKey, hget, hsign⟩)
      rw [(hget.unique hget').1] at hstored
      exact ⟨publicKey, hstored⟩
    cases hattempt : (attempt platform sweetBSigner d).run d with
    | ok privateKey d' =>
        obtain ⟨publicKey, -, hpublic, hreports⟩ := hsigned privateKey d'
          (runs_getOrCreatePrivateKey_iff.2 ⟨hload, .inl hattempt⟩)
        exact hfails (nothingFails_of_runs hattempt hpublic hreports)
    | error e left =>
        obtain ⟨publicKey, hstores, -⟩ := hsigned [] (caught platform left)
          (runs_getOrCreatePrivateKey_iff.2 ⟨hload, .inr ⟨e, left, hattempt, rfl, rfl⟩⟩)
        exact not_stores_nil hfollows hstores
  · intro h signature d' hruns
    obtain ⟨privateKey, hget, hsign⟩ := runs_rawSign_iff.1 hruns
    obtain ⟨hload, hcase⟩ := runs_getOrCreatePrivateKey_iff.1 hget
    rcases h with rfl | hload' | h
    · exact (Ecdsa.sign_nil _ _ _ hsign).elim
    · exact absurd hload hload'
    · obtain ⟨stored, publicKey, left, hattempt, hstored⟩ := h.runs hdoc hfollows
      rcases hcase with hcase | ⟨e, left', herror, -⟩
      · obtain ⟨rfl, rfl⟩ := hattempt.unique hcase
        exact ⟨_, publicKey, hget, hsign, hstored⟩
      · unfold Runs at hattempt
        rw [hattempt] at herror
        cases herror

/-! ## A key store that fails once

The file holds the private key 1. -/

def storedOne : StoredKey Unit generatorSigner := drawnOne.stored rfl

def deviceOne : Device Unit :=
  ⟨some (storedOne.payload zeroGcm), some storedOne.encryptionKey⟩

def signOne (privateKey hash : Bytes) : Result Bytes :=
  Ecdsa.sign .SECP_256_K1 (fun value length => .ok (toBE length value.toNat)) privateKey hash
    (toBE 32 1)

theorem follows_platform (hlength : ∀ key iv encrypted bytes,
      aesGcm.decrypt key iv encrypted = some bytes → encrypted.length = bytes.length + 16)
    (drawn : Drawn AesKey) : Follows (aesGcm.platform drawn) aesGcm where
  iv_length _ _ h := by
    injection h with h
    rw [← h]
    exact drawn.iv.2
  privateKey_length _ h := by
    injection h with h
    rw [← h]
    exact drawn.privateKey.2
  encrypt_eq _ _ _ _ h := by
    injection h with h
    exact h.symm
  decrypt_eq key iv encrypted bytes h := by
    rw [AesGcm.decrypt_platform] at h
    cases hdec : aesGcm.decrypt key iv encrypted with
    | none =>
        rw [hdec] at h
        cases h
    | some bytes' =>
        rw [hdec] at h
        injection h with h
        rw [h]
  decrypt_length := hlength

theorem zeroGcm_length (key : Unit) (iv encrypted bytes : Bytes)
    (h : zeroGcm.decrypt key iv encrypted = some bytes) :
    encrypted.length = bytes.length + 16 := by
  change (if _ then _ else _) = _ at h
  split at h
  · next htag =>
      have hdrop := congrArg List.length htag
      have hstream : keystream.length = 32 := length_toBE ..
      rw [List.length_drop, length_toBE] at hdrop
      injection h with h
      rw [← h, List.length_zipWith, List.length_take, hstream]
      omega
  · cases h

/-- The second number of a signature with the nonce 1. -/
def sOne (privateKey hash : Bytes) : Nat :=
  (ofBE hash + Curve.Gx .SECP_256_K1 * ofBE privateKey) % Curve.N .SECP_256_K1

theorem signOne_eq (privateKey hash : Bytes) : signOne privateKey hash
    = .ok (toBE 32 (Curve.Gx .SECP_256_K1) ++ toBE 32
      (min (sOne privateKey hash) (Curve.N .SECP_256_K1 - sOne privateKey hash))) := by
  have hpad : PadsBytes fun value length => .ok (toBE length value.toNat) := fun _ _ _ => rfl
  have hnonce : BigInteger.ofBytes (toBE 32 1) = .ok 1 := by decide
  have hN : ¬ (Curve.N .SECP_256_K1 : Int) ∣ 1 := by decide
  have hval : ∀ r, (Ecdsa.rawS .SECP_256_K1 1 (ofBE hash) r (ofBE privateKey)).val
      = (ofBE hash + r * ofBE privateKey) % Curve.N .SECP_256_K1 := by
    intro r
    rw [Ecdsa.rawS, Int.cast_one, inv_one, one_mul, ← ZMod.val_natCast]
    push_cast
    rfl
  obtain ⟨r, hr, hsign⟩ := Ecdsa.sign_eq hpad hnonce hN privateKey hash
  rw [one_zsmul, Curve.xOf_G] at hr
  rw [← Option.some.inj hr] at hsign
  simp only [hval] at hsign
  exact hsign

theorem reads_storedOne :
    Reads (zeroGcm.platform drawnOne) (storedOne.payload zeroGcm) (some ()) () drawnOne.iv
      (zeroGcm.encrypt () drawnOne.iv drawnOne.privateKey) drawnOne.privateKey := by
  have hdecrypt : (zeroGcm.platform drawnOne).decrypt () drawnOne.iv
      (zeroGcm.encrypt () drawnOne.iv drawnOne.privateKey)
        = .ok drawnOne.privateKey.val := by
    have hdec := documented_zeroGcm.decrypt_encrypt () drawnOne.iv drawnOne.privateKey
    rw [AesGcm.decrypt_platform, hdec]
    rfl
  exact ⟨rfl, rfl, rfl, storedOne.slice_iv documented_zeroGcm,
    storedOne.slice_encrypted documented_zeroGcm, hdecrypt⟩

theorem runs_storedOne (signer : SweetBSigner) :
    Runs (getOrCreatePrivateKey (zeroGcm.platform drawnOne) signer true) deviceOne
      drawnOne.privateKey deviceOne :=
  runs_getOrCreatePrivateKey_iff.2 ⟨rfl, .inl <|
    runs_readPrivateKey_iff.2 ⟨rfl, _, _, _, reads_storedOne⟩⟩

/-- A device with the key 1 and a platform on which nothing fails. -/
theorem rawSign_stored_one :
    (∃ signature, Runs (rawSign (zeroGcm.platform drawnOne) generatorSigner signOne
      (toBE 32 7)) deviceOne signature deviceOne) ∧
    SignsWithStored (zeroGcm.platform drawnOne) zeroGcm generatorSigner signOne (toBE 32 7)
      deviceOne := by
  refine ⟨⟨_, runs_rawSign_iff.2 ⟨drawnOne.privateKey, runs_storedOne _, signOne_eq _ _⟩⟩,
    ?_⟩
  exact (rawSign_stored_iff documented_zeroGcm (follows_platform zeroGcm_length drawnOne)
    (fun _ _ _ => rfl) (toBE 32 1) (toBE 32 7)).2 <| .inr <| .inr
      ⟨(), _, _, drawnOne.privateKey, _, reads_storedOne,
        storedOne.slice_publicKey documented_zeroGcm, storedOne.publicKey_eq⟩

/-- The same platform, but `getEntry` raises. -/
def lockedPlatform : Platform Unit :=
  { zeroGcm.platform drawnOne with getEntry := .error (.external "KeyStoreException") }

theorem runs_lockedPlatform (signer : SweetBSigner) :
    Runs (getOrCreatePrivateKey lockedPlatform signer true) deviceOne []
      { deviceOne with keyFile := none } :=
  runs_getOrCreatePrivateKey_iff.2 ⟨rfl, .inr ⟨_, _, rfl, rfl, rfl⟩⟩

/-- One failure of `getEntry`: the signature is the scalar 0's, not the
stored key's, and the stored key is gone. -/
theorem rawSign_with_zero :
    Stores zeroGcm deviceOne drawnOne.privateKey ∧
    Reports generatorSigner deviceOne storedOne.publicKey ∧
    ¬ SignsWithStored lockedPlatform zeroGcm generatorSigner signOne (toBE 32 7) deviceOne ∧
    ∃ signature, signOne [] (toBE 32 7) = .ok signature ∧
      signOne drawnOne.privateKey (toBE 32 7) ≠ .ok signature ∧
      Runs (rawSign lockedPlatform generatorSigner signOne (toBE 32 7)) deviceOne signature
        { deviceOne with keyFile := none } := by
  have hsigned : Runs (rawSign lockedPlatform generatorSigner signOne (toBE 32 7)) deviceOne
      _ { deviceOne with keyFile := none } :=
    runs_rawSign_iff.2 ⟨[], runs_lockedPlatform _, signOne_eq _ _⟩
  refine ⟨stores_payload documented_zeroGcm storedOne,
    reports_payload documented_zeroGcm storedOne, ?_, _, signOne_eq _ _, ?_, hsigned⟩
  · intro h
    obtain ⟨privateKey, publicKey, -, -, ⟨bytes, _, _, _, hfile, -⟩, -⟩ := h _ _ hsigned
    cases hfile
  · rw [signOne_eq]
    decide +kernel

end GenericEcdsa

end DataProcessor
