import DataProcessor.Model.Ecdsa
import DataProcessor.Model.SharedKey
import DataProcessor.Proofs.SignatureWidth

/-!
# Who can read what a signer encrypts

The `info` of the key derivation is written from the caller's side: own key
first, then the peer's. The two ends of a message write the two keys in
opposite orders, so they derive one key only when there is one key to
write, `sharedKey_iff`. And the script's `decrypt` encrypts: its answer is
28 bytes longer than what it was given, `decrypt_encrypt_ne`.
-/

namespace DataProcessor

open Lib

/-! ## The two ends of a derivation -/

def sharedInput (label : String) (secret salt own peer : Bytes) : HkdfInput where
  macAlgorithm := "HMACSHA256"
  ikm := secret
  salt := salt
  info := keyInfo label own peer
  size := 32

/-- Own keys of one length, in front of the peer's: the two ends write the
same only when they write the same keys. -/
theorem keyInfo_inj {label : String} {ownA ownB peerA peerB : Bytes}
    (hlen : ownA.length = ownB.length)
    (h : keyInfo label ownA peerB = keyInfo label ownB peerA) :
    ownA = ownB ∧ peerB = peerA := by
  unfold keyInfo at h
  rw [List.append_assoc, List.append_assoc] at h
  exact List.append_inj (List.append_cancel_left h) hlen

theorem sharedInput_eq_iff (label : String) (secret salt : Bytes)
    {ownA ownB pkA pkB : Bytes}
    (hlen : ownA.length = ownB.length) (hown : pkA = pkB → ownA = ownB) :
    sharedInput label secret salt ownA pkB = sharedInput label secret salt ownB pkA ↔
      pkA = pkB := by
  constructor
  · intro h
    exact (keyInfo_inj hlen (congrArg HkdfInput.info h)).2.symm
  · intro h
    rw [hown h, h]

theorem sharedInput_of_info {label : String} {secret salt own peer own' peer' : Bytes}
    (h : (sharedInput label secret salt own peer).info
      = (sharedInput label secret salt own' peer').info) :
    sharedInput label secret salt own peer
      = sharedInput label secret salt own' peer' := by
  rw [sharedInput, sharedInput,
    show keyInfo label own peer = keyInfo label own' peer' from h]

namespace Tink

/-- Derivations with different `info` give different keys, and a message
encrypted under the one opens under the other exactly when the keys are the
same. -/
structure Exact (tink : Tink) (nonce : Nonce) (payload : Bytes)
    (i j : HkdfInput) : Prop where
  separates : i.info ≠ j.info → tink.computeHkdf i ≠ tink.computeHkdf j
  opens : ∃ encrypted,
    tink.encrypt (tink.computeHkdf i) nonce payload [] = .ok encrypted ∧
      (tink.decrypt (tink.computeHkdf j) encrypted [] = .ok payload ↔
        tink.computeHkdf j = tink.computeHkdf i)

/-- What was encrypted under one derivation opens under another exactly when
the two derive from the same input. -/
theorem Exact.opens_iff {tink : Tink} {nonce : Nonce} {payload : Bytes}
    {i j : HkdfInput} (h : tink.Exact nonce payload i j)
    (hinfo : i.info = j.info → i = j) :
    (∃ encrypted, tink.encrypt (tink.computeHkdf i) nonce payload [] = .ok encrypted ∧
      tink.decrypt (tink.computeHkdf j) encrypted [] = .ok payload) ↔ i = j := by
  obtain ⟨encrypted, henc, hdec⟩ := h.opens
  constructor
  · intro hgiven
    obtain ⟨encrypted', henc', hdec'⟩ := hgiven
    rw [henc] at henc'
    cases henc'
    by_contra hne
    exact h.separates (fun heq => hne (hinfo heq)) (hdec.1 hdec').symm
  · rintro rfl
    exact ⟨encrypted, henc, hdec.2 rfl⟩

end Tink

/-! ## Two secp256k1 devices -/

namespace GenericEcdsa

section

variable {AesKey : Type} (platformA platformB : Platform AesKey)
  (sweetBSigner : SweetBSigner) (tink : Tink) (A B : Device AesKey)
  (pkA pkB salt : Bytes) (nonce : Nonce) (payload : Bytes)

/-- Devices `A` and `B` hold key pairs with public keys `pkA` and `pkB`,
their keys agree on a secret, and the cipher is exact on what they derive. -/
structure Peers : Prop where
  agree : ∃ privA privB secret, Holds platformA A privA pkA ∧
    Holds platformB B privB pkB ∧
    sweetBSigner.generateSharedSecret privA pkB = .ok secret ∧
    sweetBSigner.generateSharedSecret privB pkA = .ok secret
  compress : ∀ pk ∈ [pkA, pkB], ∃ compressed,
    sweetBSigner.compressPublicKey pk = .ok compressed ∧ compressed.length = 33
  exact : ∀ i j,
    A.run (sharedKeyInput platformA sweetBSigner pkB salt) = .ok i →
    B.run (sharedKeyInput platformB sweetBSigner pkA salt) = .ok j →
    tink.Exact nonce payload i j

def SameInput : Prop :=
  A.run (sharedKeyInput platformA sweetBSigner pkB salt)
    = B.run (sharedKeyInput platformB sweetBSigner pkA salt)

def RoundTrip : Prop :=
  ∃ encrypted,
    A.run (rawStreamEncrypt platformA sweetBSigner tink nonce pkB salt payload)
      = .ok encrypted ∧
    B.run (rawStreamDecrypt platformB sweetBSigner tink pkA salt encrypted)
      = .ok payload

end

variable {AesKey : Type}

theorem runs_sharedKeyInput {platform : Platform AesKey} {sweetBSigner : SweetBSigner}
    {d : Device AesKey} {priv pk compressed peer secret salt : Bytes}
    (hd : Holds platform d priv pk)
    (hcomp : sweetBSigner.compressPublicKey pk = .ok compressed)
    (hsecret : sweetBSigner.generateSharedSecret priv peer = .ok secret) :
    Runs (sharedKeyInput platform sweetBSigner peer salt) d
      (sharedInput (label sweetBSigner) secret salt compressed peer) d :=
  .bind (runs_getOrCreatePrivateKey hd) <| .bind (runs_lift hsecret) <|
    .bind (runs_getPublicKey hd hcomp).1 runs_pure

theorem peers_iff {platformA platformB : Platform AesKey} {sweetBSigner : SweetBSigner}
    {tink : Tink} {A B : Device AesKey} {pkA pkB salt : Bytes} {nonce : Nonce}
    {payload : Bytes}
    (h : Peers platformA platformB sweetBSigner tink A B pkA pkB salt nonce payload) :
    (SameInput platformA platformB sweetBSigner A B pkA pkB salt ↔ pkA = pkB) ∧
      (RoundTrip platformA platformB sweetBSigner tink A B pkA pkB salt nonce payload ↔
        pkA = pkB) := by
  obtain ⟨privA, privB, secret, hA, hB, hsecA, hsecB⟩ := h.agree
  obtain ⟨compA, hcompA, hlenA⟩ := h.compress pkA (by simp)
  obtain ⟨compB, hcompB, hlenB⟩ := h.compress pkB (by simp)
  have hlen : compA.length = compB.length := by rw [hlenA, hlenB]
  have hown : pkA = pkB → compA = compB := by
    rintro rfl
    rw [hcompA] at hcompB
    injection hcompB
  have hrunA : Runs (sharedKeyInput platformA sweetBSigner pkB salt) A
    (sharedInput (label sweetBSigner) secret salt compA pkB) A :=
    runs_sharedKeyInput hA hcompA hsecA
  have hrunB : Runs (sharedKeyInput platformB sweetBSigner pkA salt) B
    (sharedInput (label sweetBSigner) secret salt compB pkA) B :=
    runs_sharedKeyInput hB hcompB hsecB
  have hinputs := sharedInput_eq_iff (label sweetBSigner) secret salt hlen hown
  constructor
  · rw [SameInput, hrunA.run, hrunB.run, Except.ok.injEq]
    exact hinputs
  · unfold RoundTrip rawStreamEncrypt rawStreamDecrypt
    rw [hrunA.run_bind_lift]
    simp only [hrunB.run_bind_lift]
    rw [(h.exact _ _ hrunA.run hrunB.run).opens_iff sharedInput_of_info]
    exact hinputs

end GenericEcdsa

/-! ## Two secp256r1 devices -/

namespace P256

section

variable {PrivateKey PublicKey Point : Type} (A B : KeyStore PrivateKey)
  (curve : BcCurve Point) (agreement : KeyAgreement PrivateKey PublicKey)
  (tink : Tink) (pkA pkB salt : Bytes) (nonce : Nonce) (payload : Bytes)

/-- Devices with key stores `A` and `B` hold key pairs with public keys
`pkA` and `pkB`, each in one of its two encodings, their keys agree on a
secret, and the cipher is exact on what they derive. -/
structure Peers : Prop where
  agree : ∃ pairA pairB keyA keyB secret,
    getOrCreateKeyPair A = .ok pairA ∧ getOrCreateKeyPair B = .ok pairB ∧
    agreement.getPublicKeyFromBytes pkA = .ok keyA ∧
    agreement.getPublicKeyFromBytes pkB = .ok keyB ∧
    agreement.generateSecret pairA.priv keyB = .ok secret ∧
    agreement.generateSecret pairB.priv keyA = .ok secret
  formA : ∃ compressed, getPublicKey A curve compressed = .ok pkA
  formB : ∃ compressed, getPublicKey B curve compressed = .ok pkB
  decode : ∀ point compressed,
    curve.decodePoint (curve.getEncoded point compressed) = .ok point
  compress : ∀ keyStore ∈ [A, B], ∃ compressed,
    getPublicKey keyStore curve true = .ok compressed ∧ compressed.length = 33
  exact : ∀ i j, sharedKeyInput A curve agreement pkB salt = .ok i →
    sharedKeyInput B curve agreement pkA salt = .ok j →
    tink.Exact nonce payload i j

def SameInput : Prop :=
  sharedKeyInput A curve agreement pkB salt = sharedKeyInput B curve agreement pkA salt

def RoundTrip : Prop :=
  ∃ encrypted,
    rawStreamEncrypt A curve agreement tink nonce pkB salt payload = .ok encrypted ∧
    rawStreamDecrypt B curve agreement tink pkA salt encrypted = .ok payload

end

variable {PrivateKey PublicKey Point : Type}

theorem sharedKeyInput_ok {keyStore : KeyStore PrivateKey} {curve : BcCurve Point}
    {agreement : KeyAgreement PrivateKey PublicKey} {keyPair : KeyPair PrivateKey}
    {key : PublicKey} {compressed peer secret : Bytes} (salt : Bytes)
    (hpair : getOrCreateKeyPair keyStore = .ok keyPair)
    (hpeer : agreement.getPublicKeyFromBytes peer = .ok key)
    (hsecret : agreement.generateSecret keyPair.priv key = .ok secret)
    (hcomp : getPublicKey keyStore curve true = .ok compressed) :
    sharedKeyInput keyStore curve agreement peer salt =
      .ok (sharedInput "ECDH secp256r1 AES-256-GCM-SIV" secret salt compressed peer) := by
  rw [sharedKeyInput, hpair]
  simp only [bind, Except.bind, hpeer, hsecret, hcomp]
  rfl

/-- A public key in either form is the encoding of the key pair's point. -/
theorem getPublicKey_ok {keyStore : KeyStore PrivateKey} {curve : BcCurve Point}
    {compressed : Bool} {pk : Bytes}
    (h : getPublicKey keyStore curve compressed = .ok pk) :
    ∃ point, pk = curve.getEncoded point compressed ∧
      ∀ form, getPublicKey keyStore curve form = .ok (curve.getEncoded point form) := by
  obtain ⟨keyPair, hpair, h⟩ := bind_ok.1 h
  obtain ⟨point, hpoint, h⟩ := bind_ok.1 h
  cases h
  refine ⟨point, rfl, fun form => ?_⟩
  rw [getPublicKey, hpair]
  simp only [bind, Except.bind, hpoint]
  rfl

/-- One text decodes to one point, whichever form it is in. -/
theorem compressed_eq_of_form {A B : KeyStore PrivateKey} {curve : BcCurve Point}
    {pk compA compB : Bytes} {formA formB : Bool}
    (hdecode : ∀ point compressed,
      curve.decodePoint (curve.getEncoded point compressed) = .ok point)
    (hA : getPublicKey A curve formA = .ok pk)
    (hB : getPublicKey B curve formB = .ok pk)
    (hcompA : getPublicKey A curve true = .ok compA)
    (hcompB : getPublicKey B curve true = .ok compB) : compA = compB := by
  obtain ⟨pointA, hencA, hallA⟩ := getPublicKey_ok hA
  obtain ⟨pointB, hencB, hallB⟩ := getPublicKey_ok hB
  have hpoint : pointA = pointB := by
    have hdecA := hdecode pointA formA
    have hdecB := hdecode pointB formB
    rw [← hencB, hencA, hdecA] at hdecB
    injection hdecB
  rw [hallA true, Except.ok.injEq] at hcompA
  rw [hallB true, Except.ok.injEq] at hcompB
  rw [← hcompA, ← hcompB, hpoint]

theorem peers_iff {A B : KeyStore PrivateKey} {curve : BcCurve Point}
    {agreement : KeyAgreement PrivateKey PublicKey} {tink : Tink}
    {pkA pkB salt : Bytes} {nonce : Nonce} {payload : Bytes}
    (h : Peers A B curve agreement tink pkA pkB salt nonce payload) :
    (SameInput A B curve agreement pkA pkB salt ↔ pkA = pkB) ∧
      (RoundTrip A B curve agreement tink pkA pkB salt nonce payload ↔ pkA = pkB) := by
  obtain ⟨pairA, pairB, keyA, keyB, secret, hpairA, hpairB, hkeyA, hkeyB, hsecA, hsecB⟩ :=
    h.agree
  obtain ⟨formA, hformA⟩ := h.formA
  obtain ⟨formB, hformB⟩ := h.formB
  obtain ⟨compA, hcompA, hlenA⟩ := h.compress A (by simp)
  obtain ⟨compB, hcompB, hlenB⟩ := h.compress B (by simp)
  have hlen : compA.length = compB.length := by rw [hlenA, hlenB]
  have hown : pkA = pkB → compA = compB := by
    rintro rfl
    exact compressed_eq_of_form h.decode hformA hformB hcompA hcompB
  have hinputA := sharedKeyInput_ok salt hpairA hkeyB hsecA hcompA
  have hinputB := sharedKeyInput_ok salt hpairB hkeyA hsecB hcompB
  have hinputs := sharedInput_eq_iff "ECDH secp256r1 AES-256-GCM-SIV" secret salt hlen hown
  constructor
  · rw [SameInput, hinputA, hinputB, Except.ok.injEq]
    exact hinputs
  · unfold RoundTrip rawStreamEncrypt rawStreamDecrypt
    simp only [hinputA, hinputB, bind, Except.bind]
    rw [(h.exact _ _ hinputA hinputB).opens_iff sharedInput_of_info]
    exact hinputs

end P256

/-! ## Both classes -/

section

variable {AesKey PrivateKey PublicKey Point : Type} {tink : Tink}
  {pkA pkB salt : Bytes} {nonce : Nonce} {payload : Bytes}

/-- Two devices derive one key, and the one reads what the other encrypts,
exactly when they use one public key. -/
theorem sharedKey_iff {platformA platformB : Platform AesKey}
    {sweetBSigner : SweetBSigner} {A B : Device AesKey}
    {storeA storeB : KeyStore PrivateKey} {curve : BcCurve Point}
    {agreement : KeyAgreement PrivateKey PublicKey} :
    (GenericEcdsa.Peers platformA platformB sweetBSigner tink A B pkA pkB salt nonce
        payload →
      (GenericEcdsa.SameInput platformA platformB sweetBSigner A B pkA pkB salt ↔
          pkA = pkB) ∧
        (GenericEcdsa.RoundTrip platformA platformB sweetBSigner tink A B pkA pkB salt
          nonce payload ↔ pkA = pkB)) ∧
    (P256.Peers storeA storeB curve agreement tink pkA pkB salt nonce payload →
      (P256.SameInput storeA storeB curve agreement pkA pkB salt ↔ pkA = pkB) ∧
        (P256.RoundTrip storeA storeB curve agreement tink pkA pkB salt nonce
          payload ↔ pkA = pkB)) :=
  ⟨GenericEcdsa.peers_iff, P256.peers_iff⟩

end

/-! ## A device alone, and two devices

The devices hold the private keys 1 and 2 of secp256k1, and the key store
the 1 of secp256r1. HKDF over SHA-256 and AES-256-GCM-SIV are as they are on
the inputs met here, the cipher under the zero nonce. -/

structure DerivedKey where
  input : HkdfInput
  key : Bytes

structure SealedMessage where
  key : Bytes
  payload : Bytes
  encrypted : Bytes

/-- The generator of secp256k1 and its double. -/
def publicOne : Bytes :=
  toBE 32 0x79be667ef9dcbbac55a06295ce870b07029bfcdb2dce28d959f2815b16f81798
    ++ toBE 32 0x483ada7726a3c4655da4fbfc0e1108a8fd17b448a68554199c47d08ffb10d4b8

def publicTwo : Bytes :=
  toBE 32 0xc6047f9441ed7d6d3045406e95c07cd85c778e4b8cef3ca7abac09b95c709ee5
    ++ toBE 32 0x1ae168fea63dc339a3c58419466ceaeef7f632653266d0e1236431a950cfe52a

/-- The generator of secp256r1, compressed. -/
def storePublic : Bytes := 0x03 :: toBE 32 (Curve.Gx .SECP_256_R1)

def secp256k1Label : String := "ECDH SB_SW_CURVE_SECP256K1 AES-256-GCM-SIV"

def selfInput : HkdfInput :=
  sharedInput secp256k1Label (publicOne.take 32) [0xff] (0x02 :: publicOne.take 32) publicOne

def inputOneTwo : HkdfInput :=
  sharedInput secp256k1Label (publicTwo.take 32) [0xff] (0x02 :: publicOne.take 32) publicTwo

def inputTwoOne : HkdfInput :=
  sharedInput secp256k1Label (publicTwo.take 32) [0xff] (0x02 :: publicTwo.take 32) publicOne

def storeInput : HkdfInput :=
  sharedInput "ECDH secp256r1 AES-256-GCM-SIV" (toBE 32 (Curve.Gx .SECP_256_R1)) [0xff]
    storePublic storePublic

/-- What the device with the key 1 derives with itself. -/
def selfKey : Bytes :=
  toBE 32 0x4f48401e3fdb5008b4ada10357b388c1cb0a725988437bd724eef4402acf8927

/-- What it derives with the device with the key 2, and the latter with it. -/
def keyOneTwo : Bytes :=
  toBE 32 0xd4bc2c1ebf82f3242baba3f9a0df3c8ba763b51ce5817d106d71fff66facd84b

def keyTwoOne : Bytes :=
  toBE 32 0x0a1258f345a9c9e53cdfc42cee51a2ae7b5c32c3621176c11ef38fc268ea8d20

/-- What the key store derives with itself. -/
def storeKey : Bytes :=
  toBE 32 0x8e13fd84f194678eabe906c3726650477d4bbbb1df34724dd56ec02a49afb396

def selfSealed : Bytes := toBE 30 0x7bdcde8f588f4ae73c19274fb0cdff7f9842

def selfSealedTwice : Bytes := toBE 12 0
  ++ toBE 23 0x4d7cdf6bc6151a2ccb0e673b5a47052c3698346670dac7
  ++ toBE 23 0x86a2d6121689d89496db9e577bddd89781f553ddd7834d

def sealedOneTwo : Bytes := toBE 30 0xc0a803d16345be04e2ca91739e9ab343acc3

def sealedMessages : List SealedMessage := [
  ⟨selfKey, [0x12, 0x34], selfSealed⟩,
  ⟨selfKey, selfSealed, selfSealedTwice⟩,
  ⟨keyOneTwo, [0x12, 0x34], sealedOneTwo⟩,
  ⟨storeKey, [0x12, 0x34], toBE 30 0xbde265724dbb1666f14ca38529428465ec2f⟩]

def zeroNonce : Nonce := ⟨List.replicate 12 0, by decide⟩

def derivedKeys : List DerivedKey := [⟨selfInput, selfKey⟩, ⟨inputOneTwo, keyOneTwo⟩,
  ⟨inputTwoOne, keyTwoOne⟩, ⟨storeInput, storeKey⟩]

def sivTink : Tink where
  computeHkdf i := ((derivedKeys.find? fun d => d.input == i).map DerivedKey.key).getD []
  encrypt key nonce payload _ :=
    (sealedMessages.find? fun m =>
        m.key == key && m.payload == payload && nonce == zeroNonce).elim
      (.error (.external "AesGcmSiv")) fun m => .ok m.encrypted
  decrypt key encrypted _ :=
    (sealedMessages.find? fun m => m.key == key && m.encrypted == encrypted).elim
      (.error (.external "AEADBadTagException")) fun m => .ok m.payload

theorem computeHkdf_eq : sivTink.computeHkdf selfInput = selfKey ∧
    sivTink.computeHkdf inputOneTwo = keyOneTwo ∧
    sivTink.computeHkdf inputTwoOne = keyTwoOne ∧
    sivTink.computeHkdf storeInput = storeKey := by
  decide +kernel

theorem sealedMessages_exact : ∀ m ∈ sealedMessages,
    sivTink.encrypt m.key zeroNonce m.payload [] = .ok m.encrypted ∧
      sivTink.decrypt m.key m.encrypted [] = .ok m.payload ∧
      m.encrypted.length = m.payload.length + 28 := by
  decide

/-- On one input the cipher is exact: its key opens what it encrypts. -/
theorem sivTink_exact_self {i : HkdfInput} {m : SealedMessage} (hm : m ∈ sealedMessages)
    (hkey : sivTink.computeHkdf i = m.key) : sivTink.Exact zeroNonce m.payload i i := by
  obtain ⟨hencrypt, hdecrypt, -⟩ := sealedMessages_exact m hm
  rw [← hkey] at hencrypt hdecrypt
  exact ⟨fun h => absurd rfl h, _, hencrypt, fun _ => rfl, fun _ => hdecrypt⟩

theorem sivTink_exact_one_two : sivTink.Exact zeroNonce [0x12, 0x34] inputOneTwo inputTwoOne := by
  obtain ⟨-, hone, htwo, -⟩ := computeHkdf_eq
  have hne : keyOneTwo ≠ keyTwoOne := by decide
  have hclosed : sivTink.decrypt keyTwoOne sealedOneTwo [] ≠ .ok [0x12, 0x34] := by
    decide
  refine ⟨fun _ => ?_, sealedOneTwo, ?_, ?_⟩
  · rwa [hone, htwo]
  · rw [hone]
    decide
  · rw [hone, htwo]
    exact iff_of_false hclosed hne.symm

/-! ### The devices -/

/-- Secrets are first coordinates; the last is that of the key 2 with its own
public key. -/
def pairSigner : SweetBSigner where
  curveName := "SB_SW_CURVE_SECP256K1"
  computePublicKey privateKey :=
    .ok (if ofBE privateKey = 1 then publicOne else publicTwo)
  compressPublicKey publicKey :=
    .ok ((if ofBE publicKey % 2 = 0 then 0x02 else 0x03) :: publicKey.take 32)
  generateSharedSecret privateKey publicKey :=
    .ok (if ofBE privateKey = 1 then publicKey.take 32
      else if publicKey = publicOne then publicTwo.take 32
      else toBE 32 0xe493dbf1c10d80f3581e4904930b1404cc6c13900ee0758474fa94abe8c4cd13)

/-- AES-256/GCM under the zero key and the zero vector, of the private keys 1
and 2. -/
def sealedOne : Bytes :=
  toBE 32 0xcea7403d4d606b6e074ec5d3baf39d18726003ca37a62a74d1a2f58e7506358f
    ++ toBE 16 0x5ed3bd72e23ba5a140d72e123ced1ad8

def sealedTwo : Bytes :=
  toBE 32 0xcea7403d4d606b6e074ec5d3baf39d18726003ca37a62a74d1a2f58e7506358c
    ++ toBE 16 0x0dd262306e88d4e2ee631fa044a37656

def pairPlatform : Platform Unit where
  load := .ok ()
  outputStream := .ok ()
  generateKey _ := .ok ()
  initEncrypt _ := .ok (toBE 12 0)
  secureRandomBytes := .ok (toBE 32 1)
  write _ := .ok ()
  close := .ok ()
  readBytes := .ok ()
  getEntry := .ok ()
  encrypt _ _ data := .ok (if ofBE data = 1 then sealedOne else sealedTwo)
  decrypt _ _ data :=
    if data = sealedOne then .ok (toBE 32 1)
    else if data = sealedTwo then .ok (toBE 32 2)
    else .error (.external "AEADBadTagException")
  delete := true

def deviceOne : Device Unit where
  keyFile := some (publicOne ++ toBE 12 0 ++ sealedOne)
  encrypter := some ()

def deviceTwo : Device Unit where
  keyFile := some (publicTwo ++ toBE 12 0 ++ sealedTwo)
  encrypter := some ()

theorem deviceOne_holds :
    GenericEcdsa.Holds pairPlatform deviceOne (toBE 32 1) publicOne :=
  ⟨rfl, rfl, rfl, by decide, (), _, _, rfl, rfl, by decide, by decide, by decide⟩

theorem deviceTwo_holds :
    GenericEcdsa.Holds pairPlatform deviceTwo (toBE 32 2) publicTwo :=
  ⟨rfl, rfl, rfl, by decide, (), _, _, rfl, rfl, by decide, by decide, by decide⟩

theorem secret_one (peer : Bytes) :
    pairSigner.generateSharedSecret (toBE 32 1) peer = .ok (peer.take 32) :=
  congrArg Except.ok (if_pos (ofBE_toBE (by decide)))

theorem secret_two_one :
    pairSigner.generateSharedSecret (toBE 32 2) publicOne = .ok (publicTwo.take 32) := by
  decide

theorem compress_one :
    pairSigner.compressPublicKey publicOne = .ok (0x02 :: publicOne.take 32) := by
  decide +kernel

theorem compress_two :
    pairSigner.compressPublicKey publicTwo = .ok (0x02 :: publicTwo.take 32) := by
  decide +kernel

theorem label_pairSigner : GenericEcdsa.label pairSigner = secp256k1Label := by
  decide

theorem runs_self : GenericEcdsa.Runs
    (GenericEcdsa.sharedKeyInput pairPlatform pairSigner publicOne [0xff]) deviceOne selfInput
    deviceOne := by
  rw [selfInput, ← label_pairSigner]
  exact GenericEcdsa.runs_sharedKeyInput deviceOne_holds compress_one (secret_one _)

theorem runs_one_two : GenericEcdsa.Runs
    (GenericEcdsa.sharedKeyInput pairPlatform pairSigner publicTwo [0xff]) deviceOne inputOneTwo
    deviceOne := by
  rw [inputOneTwo, ← label_pairSigner]
  exact GenericEcdsa.runs_sharedKeyInput deviceOne_holds compress_one (secret_one _)

theorem runs_two_one : GenericEcdsa.Runs
    (GenericEcdsa.sharedKeyInput pairPlatform pairSigner publicOne [0xff]) deviceTwo inputTwoOne
    deviceTwo := by
  rw [inputTwoOne, ← label_pairSigner]
  exact GenericEcdsa.runs_sharedKeyInput deviceTwo_holds compress_two secret_two_one

theorem peers_self : GenericEcdsa.Peers pairPlatform pairPlatform pairSigner sivTink deviceOne
    deviceOne publicOne publicOne [0xff] zeroNonce [0x12, 0x34] where
  agree := ⟨_, _, _, deviceOne_holds, deviceOne_holds, secret_one _, secret_one _⟩
  compress pk hpk := by
    simp only [List.mem_cons, List.not_mem_nil, or_false, or_self] at hpk
    rw [hpk]
    exact ⟨_, compress_one, by decide⟩
  exact i j hi hj := by
    rw [runs_self.run] at hi hj
    cases hi
    cases hj
    exact sivTink_exact_self (List.mem_cons_self ..) computeHkdf_eq.1

theorem peers_one_two : GenericEcdsa.Peers pairPlatform pairPlatform pairSigner sivTink deviceOne
    deviceTwo publicOne publicTwo [0xff] zeroNonce [0x12, 0x34] where
  agree := ⟨_, _, _, deviceOne_holds, deviceTwo_holds, secret_one _, secret_two_one⟩
  compress pk hpk := by
    simp only [List.mem_cons, List.not_mem_nil, or_false] at hpk
    rcases hpk with rfl | rfl
    · exact ⟨_, compress_one, by decide⟩
    · exact ⟨_, compress_two, by decide⟩
  exact i j hi hj := by
    rw [runs_one_two.run] at hi
    rw [runs_two_one.run] at hj
    cases hi
    cases hj
    exact sivTink_exact_one_two

/-! ### The key store -/

namespace P256

/-- A point of the curve in either of its two forms. -/
def encodePoint (Q : Curve.Point .SECP_256_R1) (compressed : Bool) : Bytes :=
  if compressed then Curve.encode Q
  else (Curve.xOf Q).elim [0] fun _ => 0x04 ::
    (toBE 32 (Curve.coordinates Q).1.toNat ++ toBE 32 (Curve.coordinates Q).2.toNat)

variable {Q R : Curve.Point .SECP_256_R1} {form form' : Bool}

theorem encodePoint_zero (form : Bool) : encodePoint 0 form = [0] := by
  cases form <;> rfl

theorem length_encodePoint (hQ : Q ≠ 0) (form : Bool) :
    (encodePoint Q form).length = if form then 33 else 65 := by
  cases Q with
  | zero => exact absurd rfl hQ
  | some x y h =>
      have hx : Curve.xOf (.some x y h : Curve.Point .SECP_256_R1) = some x.val := rfl
      cases form <;> simp [encodePoint, Curve.encode, hx]

theorem encode_injective (h : Curve.encode Q = Curve.encode R) (hR : R ≠ 0) : Q = R := by
  refine Curve.ofBE_encode_inj (congrArg ofBE h) fun hdouble => ?_
  rw [← two_nsmul, ← addOrderOf_dvd_iff_nsmul_eq_zero,
    Curve.addOrderOf_of_ne_zero (.inr rfl) hR] at hdouble
  revert hdouble
  decide

theorem encodePoint_full_injective (h : encodePoint Q false = encodePoint R false)
    (hQ : Q ≠ 0) (hR : R ≠ 0) : Q = R := by
  cases Q with
  | zero => exact absurd rfl hQ
  | some x y hxy =>
      cases R with
      | zero => exact absurd rfl hR
      | some x' y' hxy' =>
          have hlt : ∀ z : Curve.Coordinate .SECP_256_R1, z.val < 256 ^ 32 := fun z =>
            Nat.lt_trans z.val_lt (Curve.P_lt _)
          have hbytes : toBE 32 x.val ++ toBE 32 y.val = toBE 32 x'.val ++ toBE 32 y'.val :=
            (List.cons.inj h).2
          obtain ⟨hx, hy⟩ := toBE_append_inj (hlt x) (hlt x') hbytes
          rw [← List.append_nil (toBE 32 y.val), ← List.append_nil (toBE 32 y'.val)] at hy
          have hx : x = x' := ZMod.val_injective _ hx
          have hy : y = y' := ZMod.val_injective _ (toBE_append_inj (hlt y) (hlt y') hy).1
          subst hx hy
          rfl

/-- Bytes are those of one point at most. -/
theorem encodePoint_inj (h : encodePoint Q form = encodePoint R form') : Q = R := by
  have hzero : ∀ {S T : Curve.Point .SECP_256_R1} {f g : Bool},
      encodePoint S f = encodePoint T g → S = 0 → T = 0 := by
    intro S T f g heq hS
    by_contra hT
    have hlength := length_encodePoint hT g
    rw [← heq, hS, encodePoint_zero] at hlength
    cases g <;> cases hlength
  by_cases hQ : Q = 0
  · rw [hQ, hzero h hQ]
  · have hR : R ≠ 0 := mt (hzero h.symm) hQ
    have hlength := length_encodePoint hQ form
    rw [h, length_encodePoint hR form'] at hlength
    cases form <;> cases form' <;> simp only [Bool.false_eq_true, if_true, if_false] at hlength
    · exact encodePoint_full_injective h hQ hR
    · cases hlength
    · cases hlength
    · exact encode_injective h hR

open Classical in
/-- The point with these bytes. -/
noncomputable def decodePoint (bytes : Bytes) : Result (Curve.Point .SECP_256_R1) :=
  if h : ∃ Q form, encodePoint Q form = bytes then .ok h.choose else .error .illegalArgument

theorem decodePoint_encodePoint (Q : Curve.Point .SECP_256_R1) (form : Bool) :
    decodePoint (encodePoint Q form) = .ok Q := by
  have hex : ∃ R form', encodePoint R form' = encodePoint Q form := ⟨Q, form, rfl⟩
  rw [decodePoint, dif_pos hex, encodePoint_inj hex.choose_spec.choose_spec]

/-- The group, with both forms read and written. -/
noncomputable def encodedCurve : BcCurve (Curve.Point .SECP_256_R1) :=
  { RecoverableEcdsa.groupCurve .SECP_256_R1 with
    getEncoded := encodePoint
    decodePoint := decodePoint }

theorem encodedCurve_createPoint (x y : Int) : encodedCurve.createPoint x y
    = (RecoverableEcdsa.groupCurve .SECP_256_R1).createPoint x y := rfl

/-- Keys are points, and a secret is the first coordinate of the multiple. -/
noncomputable def textbookAgreement : KeyAgreement Nat (Curve.Point .SECP_256_R1) where
  getPublicKeyFromBytes := decodePoint
  generateSecret d Q :=
    (Curve.xOf (d • Q)).elim (.error (.external "InvalidKeyException")) fun x => .ok (toBE 32 x)

theorem getPublicKey_store (form : Bool) :
    getPublicKey (textbookKeyStore .SECP_256_R1 1) encodedCurve form
      = .ok (encodePoint (Curve.G .SECP_256_R1) form) := by
  have hcreate : encodedCurve.createPoint
      (Curve.Gx .SECP_256_R1 : Curve.Coordinate .SECP_256_R1).val
      (Curve.Gy .SECP_256_R1 : Curve.Coordinate .SECP_256_R1).val
        = .ok (Curve.G .SECP_256_R1) := by
    rw [encodedCurve_createPoint]
    exact RecoverableEcdsa.groupCurve_createPoint .SECP_256_R1 _
  have hpair : Curve.coordinates (1 • Curve.G .SECP_256_R1)
      = (((Curve.Gx .SECP_256_R1 : Curve.Coordinate .SECP_256_R1).val : Int),
        ((Curve.Gy .SECP_256_R1 : Curve.Coordinate .SECP_256_R1).val : Int)) := by
    rw [one_nsmul]
    rfl
  rw [getPublicKey, getOrCreateKeyPair_textbook, ok_bind]
  simp only [textbookKeyPair, hpair, hcreate]
  rfl

theorem encodePoint_G : encodePoint (Curve.G .SECP_256_R1) true = storePublic := by
  have hodd : Curve.isOdd (Curve.G .SECP_256_R1) = true := by
    show (((Curve.Gy .SECP_256_R1 : Curve.Coordinate .SECP_256_R1).val % 2 == 1) = true)
    rw [(Curve.base_val _).2]
    decide
  rw [encodePoint, if_pos rfl, Curve.encode, Curve.xOf_G, Option.elim_some, hodd]
  rfl

theorem generateSecret_store : textbookAgreement.generateSecret
    (textbookKeyPair .SECP_256_R1 1).priv (Curve.G .SECP_256_R1)
      = .ok (toBE 32 (Curve.Gx .SECP_256_R1)) := by
  have hx : Curve.xOf (1 • Curve.G .SECP_256_R1) = some (Curve.Gx .SECP_256_R1) := by
    rw [one_nsmul, Curve.xOf_G]
  simp only [textbookAgreement, textbookKeyPair, hx, Option.elim_some]

theorem getPublicKeyFromBytes_store :
    textbookAgreement.getPublicKeyFromBytes storePublic = .ok (Curve.G .SECP_256_R1) := by
  rw [← encodePoint_G]
  exact decodePoint_encodePoint _ true

theorem getPublicKey_compressed :
    getPublicKey (textbookKeyStore .SECP_256_R1 1) encodedCurve true = .ok storePublic := by
  rw [getPublicKey_store, encodePoint_G]

theorem sharedKeyInput_store : sharedKeyInput (textbookKeyStore .SECP_256_R1 1) encodedCurve
    textbookAgreement storePublic [0xff] = .ok storeInput :=
  sharedKeyInput_ok [0xff] (getOrCreateKeyPair_textbook _ _) getPublicKeyFromBytes_store
    generateSecret_store getPublicKey_compressed

theorem peers_store : Peers (textbookKeyStore .SECP_256_R1 1) (textbookKeyStore .SECP_256_R1 1)
    encodedCurve textbookAgreement sivTink storePublic storePublic [0xff] zeroNonce
    [0x12, 0x34] where
  agree := ⟨_, _, _, _, _, getOrCreateKeyPair_textbook _ _, getOrCreateKeyPair_textbook _ _,
    getPublicKeyFromBytes_store, getPublicKeyFromBytes_store, generateSecret_store,
    generateSecret_store⟩
  formA := ⟨true, getPublicKey_compressed⟩
  formB := ⟨true, getPublicKey_compressed⟩
  decode := decodePoint_encodePoint
  compress keyStore hmem := by
    simp only [List.mem_cons, List.not_mem_nil, or_false, or_self] at hmem
    rw [hmem]
    exact ⟨_, getPublicKey_compressed, by decide⟩
  exact i j hi hj := by
    rw [sharedKeyInput_store] at hi hj
    cases hi
    cases hj
    exact sivTink_exact_self (m := ⟨storeKey, [0x12, 0x34], _⟩)
      (List.mem_cons_of_mem _ (List.mem_cons_of_mem _ (List.mem_cons_of_mem _
        (List.mem_cons_self ..)))) computeHkdf_eq.2.2.2

end P256

/-- A device that writes to itself, as the instrumented tests do. -/
theorem sharedKey_self :
    GenericEcdsa.RoundTrip pairPlatform pairPlatform pairSigner sivTink deviceOne deviceOne
      publicOne publicOne [0xff] zeroNonce [0x12, 0x34] ∧
    P256.RoundTrip (textbookKeyStore .SECP_256_R1 1) (textbookKeyStore .SECP_256_R1 1)
      P256.encodedCurve P256.textbookAgreement sivTink storePublic storePublic [0xff] zeroNonce
      [0x12, 0x34] := by
  constructor
  · exact ((@sharedKey_iff Unit Nat _ _ sivTink _ _ _ _ _ _ _ _ _ _
      (textbookKeyStore .SECP_256_R1 1) (textbookKeyStore .SECP_256_R1 1) P256.encodedCurve
      P256.textbookAgreement).1 peers_self).2.2 rfl
  · exact ((@sharedKey_iff Unit Nat _ _ sivTink _ _ _ _ _ pairPlatform pairPlatform pairSigner
      deviceOne deviceOne _ _ _ _).2 P256.peers_store).2.2 rfl

/-- Two devices: each writes its own key first, and neither reads the
other. -/
theorem sharedKey_two_devices :
    GenericEcdsa.Peers pairPlatform pairPlatform pairSigner sivTink deviceOne deviceTwo
      publicOne publicTwo [0xff] zeroNonce [0x12, 0x34] ∧
    ¬ GenericEcdsa.SameInput pairPlatform pairPlatform pairSigner deviceOne deviceTwo
      publicOne publicTwo [0xff] ∧
    ¬ GenericEcdsa.RoundTrip pairPlatform pairPlatform pairSigner sivTink deviceOne deviceTwo
      publicOne publicTwo [0xff] zeroNonce [0x12, 0x34] := by
  have hne : publicOne ≠ publicTwo := by decide
  obtain ⟨hinput, htrip⟩ := GenericEcdsa.peers_iff peers_one_two
  exact ⟨peers_one_two, fun h => hne (hinput.1 h), fun h => hne (htrip.1 h)⟩

/-! ## What a script gets back -/

/-- AES-GCM-SIV puts 12 bytes of nonce and 16 bytes of tag around a
message. -/
def Tink.Expands (tink : Tink) : Prop :=
  ∀ key nonce payload encrypted, tink.encrypt key nonce payload [] = .ok encrypted →
    encrypted.length = payload.length + 28

namespace Signers

/-- A script's `decrypt` of its `encrypt` gives the payload's hexadecimal
back. The two calls may find the signer at different states. -/
def RoundTrip (hexToBa : String → Result Bytes) (crypto crypto' : ICrypto)
    (publicKey sharedSecretSalt payload : String) : Prop :=
  ∃ bytes encrypted, hexToBa payload = .ok bytes ∧
    encrypt hexToBa crypto
      [.string publicKey, .string sharedSecretSalt, .string payload] = .ok encrypted ∧
    decrypt hexToBa crypto'
      [.string publicKey, .string sharedSecretSalt, .string encrypted]
        = .ok (toHex bytes)

theorem decrypt_eq_encrypt (hexToBa : String → Result Bytes) (crypto : ICrypto) :
    decrypt hexToBa crypto = encrypt hexToBa crypto :=
  rfl

theorem encrypt_ok {hexToBa : String → Result Bytes} {crypto : ICrypto}
    {publicKey sharedSecretSalt payload answer : String}
    (h : encrypt hexToBa crypto
      [.string publicKey, .string sharedSecretSalt, .string payload] = .ok answer) :
    ∃ pk salt bytes encrypted, hexToBa payload = .ok bytes ∧
      crypto.rawStreamEncrypt pk salt bytes = .ok encrypted ∧
      answer = toHex encrypted := by
  obtain ⟨pk, -, h⟩ := bind_ok.1 h
  obtain ⟨salt, -, h⟩ := bind_ok.1 h
  obtain ⟨bytes, hbytes, h⟩ := bind_ok.1 h
  obtain ⟨encrypted, hencrypted, h⟩ := bind_ok.1 h
  cases h
  exact ⟨pk, salt, bytes, encrypted, hbytes, hencrypted, rfl⟩

def Expands (crypto : ICrypto) : Prop :=
  ∀ pk salt bytes encrypted, crypto.rawStreamEncrypt pk salt bytes = .ok encrypted →
    encrypted.length = bytes.length + 28

/-- The answer has two nonces and two tags more than the payload. -/
theorem not_roundTrip {hexToBa : String → Result Bytes} {crypto crypto' : ICrypto}
    {publicKey sharedSecretSalt payload : String}
    (hhex : ∀ bytes, hexToBa (toHex bytes) = .ok bytes)
    (hcrypto : Expands crypto) (hcrypto' : Expands crypto') :
    ¬ RoundTrip hexToBa crypto crypto' publicKey sharedSecretSalt payload := by
  intro hgiven
  obtain ⟨bytes, answer, hpayload, henc, hdec⟩ := hgiven
  rw [decrypt_eq_encrypt] at hdec
  obtain ⟨pk, salt, bytes', encrypted, hbytes, hencrypted, rfl⟩ := encrypt_ok henc
  obtain ⟨pk', salt', given, answer, hgiven, hanswer, htext⟩ := encrypt_ok hdec
  rw [hpayload] at hbytes
  rw [hhex] at hgiven
  cases hbytes
  cases hgiven
  have hlong := hcrypto _ _ _ _ hencrypted
  have hlonger := hcrypto' _ _ _ _ hanswer
  -- Equal texts have equal lengths, two digits a byte.
  have hlen := congrArg (fun text => (String.toList text).length) htext
  simp only [toList_toHex, length_hexChars] at hlen
  omega

end Signers

theorem GenericEcdsa.expands_crypto {AesKey : Type} {platform : Platform AesKey}
    {sweetBSigner : SweetBSigner} {tink : Tink} {sign : Bytes → Bytes → Result Bytes}
    {nonce : Nonce} {d : Device AesKey} (hexp : tink.Expands) :
    Signers.Expands (crypto platform sweetBSigner tink sign nonce d) := by
  intro pk salt bytes encrypted h
  rw [crypto_rawStreamEncrypt] at h
  obtain ⟨input, h⟩ := run_bind_lift_ok h
  exact hexp _ _ _ _ h

theorem P256.expands_crypto {PrivateKey PublicKey Point : Type}
    {keyStore : KeyStore PrivateKey} {curve : BcCurve Point}
    {agreement : KeyAgreement PrivateKey PublicKey} {tink : Tink}
    {jca : Jca PrivateKey} {nonce : Nonce} (hexp : tink.Expands) :
    Signers.Expands (crypto keyStore curve agreement tink jca nonce) := by
  intro pk salt bytes encrypted h
  obtain ⟨input, -, h⟩ := bind_ok.1 h
  exact hexp _ _ _ _ h

/-- For neither signer, in no state of the device and for no arguments, does
the round trip of a script give the payload back. -/
theorem decrypt_encrypt_ne {AesKey PrivateKey PublicKey Point : Type} {tink : Tink}
    {hexToBa : String → Result Bytes} {nonce nonce' : Nonce}
    {platform platform' : Platform AesKey} {sweetBSigner : SweetBSigner}
    {sign : Bytes → Bytes → Result Bytes} {d d' : Device AesKey}
    {keyStore keyStore' : KeyStore PrivateKey} {curve : BcCurve Point}
    {agreement : KeyAgreement PrivateKey PublicKey} {jca : Jca PrivateKey}
    {publicKey sharedSecretSalt payload : String}
    (hhex : ∀ bytes, hexToBa (toHex bytes) = .ok bytes) (hexp : tink.Expands) :
    ¬ Signers.RoundTrip hexToBa
      (GenericEcdsa.crypto platform sweetBSigner tink sign nonce d)
      (GenericEcdsa.crypto platform' sweetBSigner tink sign nonce' d')
      publicKey sharedSecretSalt payload ∧
    ¬ Signers.RoundTrip hexToBa
      (P256.crypto keyStore curve agreement tink jca nonce)
      (P256.crypto keyStore' curve agreement tink jca nonce')
      publicKey sharedSecretSalt payload :=
  ⟨Signers.not_roundTrip hhex (GenericEcdsa.expands_crypto hexp)
      (GenericEcdsa.expands_crypto hexp),
    Signers.not_roundTrip hhex (P256.expands_crypto hexp) (P256.expands_crypto hexp)⟩

theorem Signers.encrypt_of_ok {hexToBa : String → Result Bytes} {crypto : ICrypto}
    {publicKey sharedSecretSalt payload : String} {pk salt bytes encrypted : Bytes}
    (hpk : hexToBa publicKey = .ok pk) (hsalt : hexToBa sharedSecretSalt = .ok salt)
    (hbytes : hexToBa payload = .ok bytes)
    (henc : crypto.rawStreamEncrypt pk salt bytes = .ok encrypted) :
    encrypt hexToBa crypto
      [.string publicKey, .string sharedSecretSalt, .string payload]
        = .ok (toHex encrypted) :=
  bind_ok.2 ⟨pk, hpk, bind_ok.2 ⟨salt, hsalt, bind_ok.2 ⟨bytes, hbytes,
    bind_ok.2 ⟨encrypted, henc, rfl⟩⟩⟩⟩

theorem sivTink_expands : sivTink.Expands := by
  intro key nonce payload encrypted h
  simp only [sivTink] at h
  cases hfind : sealedMessages.find? fun m =>
      m.key == key && m.payload == payload && nonce == zeroNonce with
  | none =>
      rw [hfind] at h
      cases h
  | some m =>
      rw [hfind] at h
      injection h with h
      have hpayload : m.payload = payload := by
        have hmatch := List.find?_some hfind
        simp only [Bool.and_eq_true, beq_iff_eq] at hmatch
        exact hmatch.1.2
      rw [← h, ← hpayload]
      exact (sealedMessages_exact m (List.mem_of_find?_eq_some hfind)).2.2

/-- ECDSA on secp256k1 with the nonce 1. -/
def signOne (privateKey hash : Bytes) : Result Bytes :=
  Ecdsa.sign .SECP_256_K1 (fun value length => .ok (toBE length value.toNat)) privateKey hash
    (toBE 32 1)

def deviceCrypto : ICrypto :=
  GenericEcdsa.crypto pairPlatform pairSigner sivTink signOne zeroNonce deviceOne

noncomputable def storeCrypto : ICrypto :=
  P256.crypto (textbookKeyStore .SECP_256_R1 1) P256.encodedCurve P256.textbookAgreement sivTink
    (baseJca .SECP_256_R1) zeroNonce

theorem decrypt_encrypt_ne_self :
    ¬ Signers.RoundTrip hexStringToByteArray deviceCrypto deviceCrypto (toHex publicOne) "ff"
      "1234" ∧
    ¬ Signers.RoundTrip hexStringToByteArray storeCrypto storeCrypto (toHex storePublic) "ff"
      "1234" := by
  constructor
  · exact (@decrypt_encrypt_ne Unit Nat _ _ sivTink hexStringToByteArray _ _ _ _ _ _ _ _
      (textbookKeyStore .SECP_256_R1 1) (textbookKeyStore .SECP_256_R1 1) P256.encodedCurve
      P256.textbookAgreement (baseJca .SECP_256_R1) _ _ _ hexStringToByteArray_toHex
      sivTink_expands).1
  · exact (@decrypt_encrypt_ne Unit Nat _ _ sivTink hexStringToByteArray _ _ pairPlatform
      pairPlatform pairSigner signOne deviceOne deviceOne _ _ _ _ _ _ _ _
      hexStringToByteArray_toHex sivTink_expands).2

theorem deviceCrypto_encrypt {m : SealedMessage} (hm : m ∈ sealedMessages)
    (hkey : m.key = selfKey) :
    deviceCrypto.rawStreamEncrypt publicOne [0xff] m.payload = .ok m.encrypted := by
  rw [deviceCrypto, GenericEcdsa.crypto_rawStreamEncrypt, GenericEcdsa.rawStreamEncrypt,
    runs_self.run_bind_lift, computeHkdf_eq.1, ← hkey]
  exact (sealedMessages_exact m hm).1

/-- Both calls answer, and the second answer is not the payload. -/
theorem decrypt_encrypt_seals_twice :
    Signers.encrypt hexStringToByteArray deviceCrypto
        [.string (toHex publicOne), .string "ff", .string "1234"] = .ok (toHex selfSealed) ∧
      Signers.decrypt hexStringToByteArray deviceCrypto
        [.string (toHex publicOne), .string "ff", .string (toHex selfSealed)]
          = .ok (toHex selfSealedTwice) ∧
      ¬ Signers.RoundTrip hexStringToByteArray deviceCrypto deviceCrypto (toHex publicOne) "ff"
        "1234" := by
  have hfirst : deviceCrypto.rawStreamEncrypt publicOne [0xff] [0x12, 0x34] = .ok selfSealed :=
    deviceCrypto_encrypt (m := ⟨selfKey, _, _⟩) (List.mem_cons_self ..) rfl
  have hsecond : deviceCrypto.rawStreamEncrypt publicOne [0xff] selfSealed
      = .ok selfSealedTwice :=
    deviceCrypto_encrypt (m := ⟨selfKey, _, _⟩) (List.mem_cons_of_mem _ (List.mem_cons_self ..))
      rfl
  refine ⟨?_, ?_, ?_⟩
  · exact Signers.encrypt_of_ok (hexStringToByteArray_toHex _) rfl rfl hfirst
  · rw [Signers.decrypt_eq_encrypt]
    exact Signers.encrypt_of_ok (hexStringToByteArray_toHex _) rfl
      (hexStringToByteArray_toHex _) hsecond
  · exact Signers.not_roundTrip hexStringToByteArray_toHex
      (GenericEcdsa.expands_crypto sivTink_expands)
      (GenericEcdsa.expands_crypto sivTink_expands)

end DataProcessor
