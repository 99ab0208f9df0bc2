import DataProcessor.Proofs.RecoverIds
import DataProcessor.Proofs.SigningPlatform

/-!
# The width of a serialized signature

A reader of the signatures splits them at offset 32: `Ethereum.fulfill`
takes `0..31` for `r` and `32..63` for `s`, and the chains verify the same
form. The three serializers trim the leading zero bytes of both numbers
before they concatenate them, so the form comes out only when neither
number has any. `signs_fixedWidth_iff` is that condition, exact: both
numbers are at least `2 ^ 248`. The byte `acurastSign` puts behind them is
the id `findRecoverId` looks for, which it finds for every such `r`.
-/

namespace DataProcessor

open Lib

/-- The 64 bytes a signature is read from: `r` and `s`, 32 bytes each. -/
def fixedWidth (r s : Nat) : Bytes := toBE 32 r ++ toBE 32 s

theorem pow_256_31 : (256 : Nat) ^ 31 = 2 ^ 248 := (Nat.pow_mul 2 8 31).symm

theorem pow_256_32 : (256 : Nat) ^ 32 = 2 ^ 256 := (Nat.pow_mul 2 8 32).symm

theorem fixedWidth_split {r s : Nat} (hr : r < 2 ^ 256) (hs : s < 2 ^ 256) :
    (fixedWidth r s).length = 64 ∧ ofBE ((fixedWidth r s).take 32) = r ∧
      ofBE ((fixedWidth r s).drop 32) = s := by
  rw [← pow_256_32] at hr hs
  refine ⟨by simp [fixedWidth], ?_, ?_⟩
  · rw [fixedWidth, List.take_left' (length_toBE 32 r), ofBE_toBE hr]
  · rw [fixedWidth, List.drop_left' (length_toBE 32 r), ofBE_toBE hs]

/-! ## One trimmed number -/

/-- Trimming forgets the sign byte and the array's length: what is left is
the 32-byte form without its leading zeros. -/
theorem trim_toByteArray {n : Nat} (h : n < 2 ^ 256) :
    trim (BigInteger.toByteArray n) = dropZeros (toBE 32 n) := by
  rw [trim_eq, BigInteger.toByteArray_natCast]
  exact dropZeros_toBE_width (BigInteger.lt_toByteArray_width n)
    (by rw [pow_256_32]; exact h)

theorem trim_toByteArray_full {n : Nat} (hlo : 2 ^ 248 ≤ n) (hhi : n < 2 ^ 256) :
    trim (BigInteger.toByteArray n) = toBE 32 n := by
  rw [trim_toByteArray hhi]
  exact dropZeros_toBE_full (by rw [pow_256_31]; exact hlo)
    (by rw [pow_256_32]; exact hhi)

theorem length_trim_toByteArray_le {n : Nat} (h : n < 2 ^ 256) :
    (trim (BigInteger.toByteArray n)).length ≤ 32 := by
  rw [trim_toByteArray h]
  simpa using length_dropZeros_le (toBE 32 n)

theorem length_trim_toByteArray_short {n : Nat} (h : n < 2 ^ 248) :
    (trim (BigInteger.toByteArray n)).length ≤ 31 := by
  rw [trim_toByteArray (Nat.lt_trans h (by decide))]
  exact length_dropZeros_toBE_short (by rw [pow_256_31]; exact h) 1

theorem length_trim_toByteArray_iff {n : Nat} (h : n < 2 ^ 256) :
    (trim (BigInteger.toByteArray n)).length = 32 ↔ 2 ^ 248 ≤ n := by
  constructor
  · intro hlen
    by_contra hlt
    have := length_trim_toByteArray_short (Nat.lt_of_not_le hlt)
    omega
  · intro hle
    rw [trim_toByteArray_full hle h, length_toBE]

/-! ## Two of them, concatenated -/

/-- What the serializers make of the two INTEGERs. -/
def trimmed (r s : Int) : Bytes :=
  trim (BigInteger.toByteArray r) ++ trim (BigInteger.toByteArray s)

theorem trimmed_full {r s : Nat} (hr : 2 ^ 248 ≤ r) (hr' : r < 2 ^ 256)
    (hs : 2 ^ 248 ≤ s) (hs' : s < 2 ^ 256) : trimmed r s = fixedWidth r s := by
  rw [trimmed, trim_toByteArray_full hr hr', trim_toByteArray_full hs hs']
  rfl

theorem length_trimmed_iff {r s : Nat} (hr : r < 2 ^ 256) (hs : s < 2 ^ 256) :
    (trimmed r s).length = 64 ↔ 2 ^ 248 ≤ r ∧ 2 ^ 248 ≤ s := by
  rw [← length_trim_toByteArray_iff hr, ← length_trim_toByteArray_iff hs,
    trimmed, List.length_append]
  have := length_trim_toByteArray_le hr
  have := length_trim_toByteArray_le hs
  omega

theorem trimmed_inj {r s r' s' : Nat} (hr : 2 ^ 248 ≤ r) (hr' : r < 2 ^ 256)
    (hs : 2 ^ 248 ≤ s) (hs' : s < 2 ^ 256) (ht : r' < 2 ^ 256) (ht' : s' < 2 ^ 256)
    (h : trimmed r' s' = trimmed r s) : r' = r ∧ s' = s := by
  have hlen : (trimmed r' s').length = 64 := by
    rw [h, length_trimmed_iff hr' hs']
    exact ⟨hr, hs⟩
  obtain ⟨hfr, hfs⟩ := (length_trimmed_iff ht ht').1 hlen
  rw [trimmed_full hfr ht hfs ht', trimmed_full hr hr' hs hs'] at h
  have hsplit := fixedWidth_split ht ht'
  have hsplit' := fixedWidth_split hr' hs'
  exact ⟨by rw [← hsplit.2.1, h, hsplit'.2.1],
    by rw [← hsplit.2.2, h, hsplit'.2.2]⟩

/-! ## The three serializers -/

section

variable {PrivateKey Point : Type} {jca : Jca PrivateKey} {keyStore : KeyStore PrivateKey}

theorem ecSign_of_answers {key : PrivateKey} {payload : Bytes} {r s : Int}
    (h : jca.Answers key payload r s) :
    CryptoLegacy.ecSign jca payload key = .ok (trimmed r s) := by
  obtain ⟨der, hsign, hread⟩ := h
  rw [CryptoLegacy.ecSign, hsign, ok_bind, hread]
  rfl

theorem rawSign_of_answers {keyPair : KeyPair PrivateKey} {payload : Bytes}
    {r s : Int} (hkey : P256.getOrCreateKeyPair keyStore = .ok keyPair)
    (h : jca.Answers keyPair.priv (jca.blake2b 256 payload) r s) :
    P256.rawSign jca keyStore payload = .ok (trimmed r s) := by
  obtain ⟨der, hsign, hread⟩ := h
  rw [P256.rawSign, hkey, ok_bind, hsign, ok_bind, hread]
  rfl

/-- For one and the same key it is what `CryptoLegacy.rawSign` answers. -/
theorem rawSign_eq {keyPair : KeyPair PrivateKey} {payload : Bytes}
    (hentry : keyStore.getEntry Constants.PROCESSOR_KEY_ALIAS = .ok keyPair)
    (hkey : P256.getOrCreateKeyPair keyStore = .ok keyPair) :
    CryptoLegacy.rawSign jca keyStore payload = P256.rawSign jca keyStore payload := by
  rw [CryptoLegacy.rawSign, hentry, P256.rawSign, hkey]
  rfl

/-- `acurastSign` is the same two trimmed numbers, followed by the id the
search answers. -/
theorem acurastSign_of_answers {curve : BcCurve Point} {entry : KeyPair PrivateKey}
    {payload publicKey : Bytes} {r s : Int} {v : UInt8}
    (hentry : keyStore.getEntry Constants.PROCESSOR_KEY_ALIAS = .ok entry)
    (hpub : CryptoLegacy.getPublicKey keyStore curve = .ok publicKey)
    (h : jca.Answers entry.priv (CryptoLegacy.acurastDigest jca payload) r s)
    (hfind : RecoverableEcdsa.findRecoverId curve (BigInteger.toByteArray r)
      (BigInteger.toByteArray s) publicKey (CryptoLegacy.acurastDigest jca payload) = .ok v) :
    CryptoLegacy.acurastSign jca keyStore curve payload = .ok (trimmed r s ++ [v]) := by
  obtain ⟨der, hsign, hread⟩ := h
  rw [CryptoLegacy.acurastSign, hentry, ok_bind, hpub, ok_bind]
  simp only [hsign, ok_bind, hread]
  rw [hfind]
  rfl

end

/-! ## The recovery byte

`P` exceeds `N` by less than `2 ^ 248`, so a valid `r` that uses its top byte
is the first coordinate itself, and the search does not leave the curve. -/

section

variable {Q : Curve.Point .SECP_256_R1} {r s : Nat}

theorem exists_xOf_of_accepts {e : Nat}
    (h : EcdsaScheme.Accepts (Curve.N .SECP_256_R1) Curve.xOf (Curve.G .SECP_256_R1) Q e r s)
    (hr : 2 ^ 248 ≤ r) : ∃ S : Curve.Point .SECP_256_R1, Curve.xOf S = some r := by
  have hP : Curve.P .SECP_256_R1 < Curve.N .SECP_256_R1 + 2 ^ 248 := by decide
  obtain ⟨-, -, -, -, x, hx, hmod⟩ := h
  have hlt := Curve.xOf_lt hx
  refine ⟨_, hx.trans (congrArg some ?_)⟩
  rcases Nat.lt_or_ge x (Curve.N .SECP_256_R1) with hN | hN
  · rw [← hmod, Nat.mod_eq_of_lt hN]
  · rw [Nat.mod_eq_sub_mod hN] at hmod
    have := Nat.mod_le (x - Curve.N .SECP_256_R1) (Curve.N .SECP_256_R1)
    omega

variable {PrivateKey Point : Type} {jca : Jca PrivateKey} {keyStore : KeyStore PrivateKey}
  {bc : BcCurve Point} {val : Point → Curve.Point .SECP_256_R1}
  {X Y : Curve.Coordinate .SECP_256_R1}
  {h : (shortCurve (Curve.A .SECP_256_R1 : Curve.Coordinate .SECP_256_R1)
    (Curve.B .SECP_256_R1 : Curve.Coordinate .SECP_256_R1)).Nonsingular X Y}

theorem getPublicKey_eq (hbc : bc.Implements .SECP_256_R1 val)
    (hcert : keyStore.getCertificate Constants.PROCESSOR_KEY_ALIAS
      = .ok ((X.val : Int), (Y.val : Int)))
    (hpoint : ∃ R, bc.createPoint X.val Y.val = .ok R ∧ val R = .some X Y h) :
    CryptoLegacy.getPublicKey keyStore bc
      = .ok (Curve.encode (.some X Y h : Curve.Point .SECP_256_R1)) := by
  obtain ⟨R, hcreate, hval⟩ := hpoint
  rw [CryptoLegacy.getPublicKey, hcert, ok_bind]
  simp only [hcreate, ok_bind]
  rw [hbc.getEncoded_eq, hval]
  rfl

/-- What `acurastSign` answers to a valid signature with a long `r`. -/
theorem acurastSign_eq {entry : KeyPair PrivateKey} {message : Bytes}
    (hentry : keyStore.getEntry Constants.PROCESSOR_KEY_ALIAS = .ok entry)
    (hcert : keyStore.getCertificate Constants.PROCESSOR_KEY_ALIAS
      = .ok ((X.val : Int), (Y.val : Int)))
    (hbc : bc.Implements .SECP_256_R1 val)
    (hpoint : ∃ R, bc.createPoint X.val Y.val = .ok R ∧ val R = .some X Y h)
    (hanswers : jca.Answers entry.priv (CryptoLegacy.acurastDigest jca message) r s)
    (haccepts : EcdsaScheme.Accepts (Curve.N .SECP_256_R1) Curve.xOf (Curve.G .SECP_256_R1)
      (.some X Y h : Curve.Point .SECP_256_R1)
      (ofBE (CryptoLegacy.acurastDigest jca message)) r s)
    (hr : 2 ^ 248 ≤ r) :
    ∃ v : UInt8, v.toNat ≤ 3 ∧
      RecoverableEcdsa.recoverFromSignature bc r s v.toNat
          (CryptoLegacy.acurastDigest jca message)
        = .ok (some (ofBE (Curve.encode (.some X Y h : Curve.Point .SECP_256_R1)) : Int)) ∧
      CryptoLegacy.acurastSign jca keyStore bc message = .ok (trimmed r s ++ [v]) := by
  have hQ : addOrderOf (.some X Y h : Curve.Point .SECP_256_R1) = Curve.N .SECP_256_R1 :=
    Curve.addOrderOf_of_ne_zero (.inr rfl) (WeierstrassCurve.Affine.Point.some_ne_zero h)
  have hvalid : EcdsaScheme.Accepts (Curve.N .SECP_256_R1) Curve.xOf (Curve.G .SECP_256_R1)
      (.some X Y h : Curve.Point .SECP_256_R1)
      (ofBE (CryptoLegacy.acurastDigest jca message)) (ofBE (BigInteger.toByteArray r))
      (ofBE (BigInteger.toByteArray s)) := by
    rw [ofBE_toByteArray, ofBE_toByteArray]
    exact haccepts
  have hon : ∃ S : Curve.Point .SECP_256_R1,
      Curve.xOf S = some (ofBE (BigInteger.toByteArray r)) := by
    rw [ofBE_toByteArray]
    exact exists_xOf_of_accepts haccepts hr
  obtain ⟨v, hfind, hle, hrecovers, -⟩ :=
    (RecoverableEcdsa.findRecoverId_iff (.inr rfl) hbc hQ hvalid).2 hon
  rw [ofBE_toByteArray, ofBE_toByteArray] at hrecovers
  exact ⟨v, hle, hrecovers, acurastSign_of_answers hentry (getPublicKey_eq hbc hcert hpoint)
    hanswers hfind⟩

/-- What a reader of the three functions' results relies on, for the pair
`(r, s)` the key store answered: the 64 bytes, the offset-32 split, and that
no other pair of the curve's order `n` gives the same bytes. `store` is where
`rawSign` finds its key and `signer` where `acurastSign` does, with the public
key `Q`; there the pair is a valid signature, and the recovery byte stands
behind the 64. -/
structure SignsFixedWidth (jca : Jca PrivateKey) (store signer : KeyStore PrivateKey)
    (bc : BcCurve Point) (Q : Curve.Point .SECP_256_R1) (n r s : Nat) (key : PrivateKey)
    (digest payload message : Bytes) : Prop where
  ecSign : CryptoLegacy.ecSign jca digest key = .ok (fixedWidth r s)
  rawSign : P256.rawSign jca store payload = .ok (fixedWidth r s)
  acurastSign : EcdsaScheme.Accepts (Curve.N .SECP_256_R1) Curve.xOf (Curve.G .SECP_256_R1) Q
      (ofBE (CryptoLegacy.acurastDigest jca message)) r s →
    ∃ v : UInt8, v.toNat ≤ 3 ∧
      RecoverableEcdsa.recoverFromSignature bc r s v.toNat
          (CryptoLegacy.acurastDigest jca message)
        = .ok (some (ofBE (Curve.encode Q) : Int)) ∧
      CryptoLegacy.acurastSign jca signer bc message = .ok (fixedWidth r s ++ [v])
  split : ∀ bytes, CryptoLegacy.ecSign jca digest key = .ok bytes →
    bytes.length = 64 ∧ ofBE (bytes.take 32) = r ∧ ofBE (bytes.drop 32) = s
  unique : ∀ (jca' : Jca PrivateKey) (key' : PrivateKey) (digest' : Bytes)
    (r' s' : Nat), (1 ≤ r' ∧ r' ≤ n - 1) → (1 ≤ s' ∧ s' ≤ n - 1) →
    jca'.Answers key' digest' r' s' →
    CryptoLegacy.ecSign jca' digest' key' = CryptoLegacy.ecSign jca digest key →
    r' = r ∧ s' = s

/-- The serializers give the fixed-width form of a pair exactly when both
numbers reach into their top byte. -/
theorem signs_fixedWidth_iff {store signer : KeyStore PrivateKey} {n : Nat} {key : PrivateKey}
    {entry keyPair : KeyPair PrivateKey} {digest payload message : Bytes}
    (hn : n < 2 ^ 256) (hr : 1 ≤ r ∧ r ≤ n - 1) (hs : 1 ≤ s ∧ s ≤ n - 1)
    (hkey : P256.getOrCreateKeyPair store = .ok keyPair)
    (hentry : signer.getEntry Constants.PROCESSOR_KEY_ALIAS = .ok entry)
    (hcert : signer.getCertificate Constants.PROCESSOR_KEY_ALIAS
      = .ok ((X.val : Int), (Y.val : Int)))
    (hbc : bc.Implements .SECP_256_R1 val)
    (hpoint : ∃ R, bc.createPoint X.val Y.val = .ok R ∧ val R = .some X Y h)
    (hec : jca.Answers key digest r s)
    (hraw : jca.Answers keyPair.priv (jca.blake2b 256 payload) r s)
    (hacu : jca.Answers entry.priv (CryptoLegacy.acurastDigest jca message) r s) :
    SignsFixedWidth jca store signer bc (.some X Y h) n r s key digest payload message ↔
      2 ^ 248 ≤ r ∧ 2 ^ 248 ≤ s := by
  have hr' : r < 2 ^ 256 := by omega
  have hs' : s < 2 ^ 256 := by omega
  have hsign := ecSign_of_answers hec
  constructor
  · intro hgiven
    have hbytes : trimmed r s = fixedWidth r s := by
      have := hgiven.ecSign
      rw [hsign] at this
      injection this
    rw [← length_trimmed_iff hr' hs', hbytes]
    exact (fixedWidth_split hr' hs').1
  · intro hgiven
    obtain ⟨hfr, hfs⟩ := hgiven
    have hfull := trimmed_full hfr hr' hfs hs'
    refine ⟨?_, ?_, ?_, ?_, ?_⟩
    · rw [hsign, hfull]
    · rw [rawSign_of_answers hkey hraw, hfull]
    · intro haccepts
      rw [← hfull]
      exact acurastSign_eq hentry hcert hbc hpoint hacu haccepts hfr
    · intro bytes hbytes
      rw [hsign, hfull] at hbytes
      injection hbytes with hbytes
      rw [← hbytes]
      exact fixedWidth_split hr' hs'
    · intro jca' key' digest' r₂ s₂ hr₂ hs₂ hans heq
      rw [ecSign_of_answers hans, hsign] at heq
      injection heq with heq
      exact trimmed_inj hfr hr' hfs hs' (by omega) (by omega) heq

end

/-! ## Two signatures, one of each kind

The platform draws the nonce 1, and the empty message is signed. Its digests
differ, so a key of its own for each of the two gives both the same pair. -/

theorem ofBE_sha256_nil : ofBE (sha256 [])
    = 0xe3b0c44298fc1c149afbf4c8996fb92427ae41e4649b934ca495991b7852b855 := by
  decide +kernel

/-- BLAKE2b-256 of the empty message. -/
def emptyBlake2b : Bytes :=
  toBE 32 0x0e5751c026e543b2e8ab2eb06099daa1d1e5df47778f7787faab45cdf12fe3a8

theorem ofBE_emptyBlake2b : ofBE emptyBlake2b
    = 0x0e5751c026e543b2e8ab2eb06099daa1d1e5df47778f7787faab45cdf12fe3a8 :=
  ofBE_toBE (by decide)

noncomputable def baseJca (curve : Curve) : Jca Nat := textbookJca curve 1 fun _ _ => emptyBlake2b

/-- With these keys `s` is the same for both digests, and uses its top byte. -/
def longKeys : Nat × Nat :=
  (1, 39612254646668385149858925614389480566165426157652797770026194678723631017459)

def longS : Nat := 0x4ec896367a285e5b93b8dbadfd13fa16e1cac4b7eb6f2868a57d079e5488559a

/-- With these it is 1. -/
def shortKeys : Nat × Nat :=
  (47026457493569162761988016208492402087529543233622791484769640319063211595886,
    86638712140237547911846941822881882653694969391275589254795834997786842613344)

theorem draws_sha256 {d s : Nat} (hs : 1 ≤ s)
    (h : (0xe3b0c44298fc1c149afbf4c8996fb92427ae41e4649b934ca495991b7852b855
      + Curve.Gx .SECP_256_R1 * d) % Curve.N .SECP_256_R1 = s) :
    Draws .SECP_256_R1 1 d (ofBE (sha256 [])) (Curve.Gx .SECP_256_R1) s := by
  rw [ofBE_sha256_nil]
  exact draws_one (by decide) (by decide) hs h

theorem draws_blake2b {d s : Nat} (hs : 1 ≤ s)
    (h : (0x0e5751c026e543b2e8ab2eb06099daa1d1e5df47778f7787faab45cdf12fe3a8
      + Curve.Gx .SECP_256_R1 * d) % Curve.N .SECP_256_R1 = s) :
    Draws .SECP_256_R1 1 d (ofBE emptyBlake2b) (Curve.Gx .SECP_256_R1) s := by
  rw [ofBE_emptyBlake2b]
  exact draws_one (by decide) (by decide) hs h

theorem length_sha256 (message : Bytes) : (sha256 message).length = 32 :=
  Sha256.length_hash _ message

theorem length_emptyBlake2b : emptyBlake2b.length = 32 := length_toBE 32 _

theorem acurastDigest_base : CryptoLegacy.acurastDigest (baseJca .SECP_256_R1) [] = sha256 [] := rfl

theorem getCertificate_one :
    (textbookKeyStore .SECP_256_R1 1).getCertificate Constants.PROCESSOR_KEY_ALIAS
      = .ok (((Curve.Gx .SECP_256_R1 : Curve.Coordinate .SECP_256_R1).val : Int),
        ((Curve.Gy .SECP_256_R1 : Curve.Coordinate .SECP_256_R1).val : Int)) := by
  rw [textbookKeyStore, one_nsmul]
  rfl

theorem signs_fixedWidth_full :
    EcdsaScheme.Accepts (Curve.N .SECP_256_R1) Curve.xOf (Curve.G .SECP_256_R1)
        (Curve.G .SECP_256_R1) (ofBE (sha256 [])) (Curve.Gx .SECP_256_R1) longS ∧
      SignsFixedWidth (baseJca .SECP_256_R1) (textbookKeyStore .SECP_256_R1 longKeys.2)
        (textbookKeyStore .SECP_256_R1 longKeys.1) (RecoverableEcdsa.groupCurve .SECP_256_R1)
        (Curve.G .SECP_256_R1) (Curve.N .SECP_256_R1) (Curve.Gx .SECP_256_R1) longS
        longKeys.1 (sha256 []) [] [] := by
  have hsha := draws_sha256 (d := longKeys.1) (s := longS) (by decide) (by decide)
  have hblake := draws_blake2b (d := longKeys.2) (s := longS) (by decide) (by decide)
  have haccepts := hsha.accepts
  rw [show longKeys.1 • Curve.G .SECP_256_R1 = Curve.G .SECP_256_R1 from one_nsmul _]
    at haccepts
  have hec : (baseJca .SECP_256_R1).Answers longKeys.1 (sha256 []) (Curve.Gx .SECP_256_R1) longS :=
    hsha.answers (length_sha256 _) _
  have hraw : (baseJca .SECP_256_R1).Answers (textbookKeyPair .SECP_256_R1 longKeys.2).priv
      ((baseJca .SECP_256_R1).blake2b 256 []) (Curve.Gx .SECP_256_R1) longS :=
    hblake.answers length_emptyBlake2b _
  have hacu : (baseJca .SECP_256_R1).Answers (textbookKeyPair .SECP_256_R1 longKeys.1).priv
      (CryptoLegacy.acurastDigest (baseJca .SECP_256_R1) []) (Curve.Gx .SECP_256_R1) longS := hec
  exact ⟨haccepts, (signs_fixedWidth_iff (by decide) (by decide) (by decide)
    (getOrCreateKeyPair_textbook _ _) (getEntry_textbook _ _ _) getCertificate_one
    (RecoverableEcdsa.groupCurve_implements _)
    ⟨_, RecoverableEcdsa.groupCurve_createPoint .SECP_256_R1 _, rfl⟩ hec hraw hacu).2
    ⟨by decide, by decide⟩⟩

theorem trimmed_short : trimmed (Curve.Gx .SECP_256_R1) 1
    = toBE 32 (Curve.Gx .SECP_256_R1) ++ [1] := by
  decide

theorem short_ne_zero : shortKeys.1 • Curve.G .SECP_256_R1 ≠ 0 := by
  rw [ne_eq, ← addOrderOf_dvd_iff_nsmul_eq_zero, Curve.addOrderOf_G]
  decide

/-- The signatures are valid and none has the bytes of its two numbers: 33
of 64, and 34 of 65 with the recovery byte. -/
theorem ecSign_short :
    EcdsaScheme.Accepts (Curve.N .SECP_256_R1) Curve.xOf (Curve.G .SECP_256_R1)
        (shortKeys.1 • Curve.G .SECP_256_R1) (ofBE (sha256 [])) (Curve.Gx .SECP_256_R1) 1 ∧
      CryptoLegacy.ecSign (baseJca .SECP_256_R1) (sha256 []) shortKeys.1
        = .ok (toBE 32 (Curve.Gx .SECP_256_R1) ++ [1]) ∧
      P256.rawSign (baseJca .SECP_256_R1) (textbookKeyStore .SECP_256_R1 shortKeys.2) []
        = .ok (toBE 32 (Curve.Gx .SECP_256_R1) ++ [1]) ∧
      (∃ v, CryptoLegacy.acurastSign (baseJca .SECP_256_R1)
        (textbookKeyStore .SECP_256_R1 shortKeys.1) (RecoverableEcdsa.groupCurve .SECP_256_R1) []
          = .ok (toBE 32 (Curve.Gx .SECP_256_R1) ++ [1, v])) ∧
      ¬ SignsFixedWidth (baseJca .SECP_256_R1) (textbookKeyStore .SECP_256_R1 shortKeys.2)
        (textbookKeyStore .SECP_256_R1 shortKeys.1) (RecoverableEcdsa.groupCurve .SECP_256_R1)
        (shortKeys.1 • Curve.G .SECP_256_R1) (Curve.N .SECP_256_R1) (Curve.Gx .SECP_256_R1) 1
        shortKeys.1 (sha256 []) [] [] := by
  have hsha := draws_sha256 (d := shortKeys.1) (s := 1) (by decide) (by decide)
  have hblake := draws_blake2b (d := shortKeys.2) (s := 1) (by decide) (by decide)
  have hec : (baseJca .SECP_256_R1).Answers shortKeys.1 (sha256 []) (Curve.Gx .SECP_256_R1)
      (1 : Nat) := hsha.answers (length_sha256 _) _
  have hraw : (baseJca .SECP_256_R1).Answers (textbookKeyPair .SECP_256_R1 shortKeys.2).priv
      ((baseJca .SECP_256_R1).blake2b 256 []) (Curve.Gx .SECP_256_R1) (1 : Nat) :=
    hblake.answers length_emptyBlake2b _
  have hsign := ecSign_of_answers hec
  rw [Nat.cast_one, trimmed_short] at hsign
  refine ⟨hsha.accepts, hsign, ?_, ?_, ?_⟩
  · rw [rawSign_of_answers (getOrCreateKeyPair_textbook _ _) hraw, Nat.cast_one, trimmed_short]
  · have hacu : (baseJca .SECP_256_R1).Answers (textbookKeyPair .SECP_256_R1 shortKeys.1).priv
        (CryptoLegacy.acurastDigest (baseJca .SECP_256_R1) []) (Curve.Gx .SECP_256_R1)
        (1 : Nat) := hec
    have haccepts := hsha.accepts
    have hcert : (textbookKeyStore .SECP_256_R1 shortKeys.1).getCertificate
        Constants.PROCESSOR_KEY_ALIAS
          = .ok (Curve.coordinates (shortKeys.1 • Curve.G .SECP_256_R1)) := rfl
    cases hQ : shortKeys.1 • Curve.G .SECP_256_R1 with
    | zero => exact absurd hQ short_ne_zero
    | some X Y h =>
        rw [hQ, ← acurastDigest_base] at haccepts
        rw [hQ] at hcert
        obtain ⟨v, -, -, hv⟩ := acurastSign_eq (getEntry_textbook _ _ _) hcert
          (RecoverableEcdsa.groupCurve_implements _)
          ⟨_, RecoverableEcdsa.groupCurve_createPoint .SECP_256_R1 h, rfl⟩ hacu haccepts
          (by decide)
        rw [Nat.cast_one, trimmed_short] at hv
        exact ⟨v, hv⟩
  · intro hgiven
    have hlength := (hgiven.split _ hsign).1
    rw [List.length_append, length_toBE] at hlength
    cases hlength

end DataProcessor
