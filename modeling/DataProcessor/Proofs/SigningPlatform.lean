import DataProcessor.Lib.EcdsaScheme
import DataProcessor.Lib.Sha256
import DataProcessor.Model.Signatures
import DataProcessor.Proofs.CurveGroups

/-!
# A platform that signs

What stands behind `Jca` on a device: a signature is a DER SEQUENCE of two
INTEGERs, and the two are ECDSA's. The results about the signers assume this
of the platform; here is one that does it, with the textbook's arithmetic in
the curve's group and the DER of the standard, written and read. The nonce
is the platform's to choose and is a parameter.
-/

namespace DataProcessor

open Lib

/-! ## DER -/

/-- A DER INTEGER: the tag, the length, the two's-complement bytes. -/
def derInteger (n : Nat) : Bytes :=
  let bytes := BigInteger.toByteArray n
  0x02 :: UInt8.ofNat bytes.length :: bytes

def derSequence (r s : Nat) : Bytes :=
  let body := derInteger r ++ derInteger s
  0x30 :: UInt8.ofNat body.length :: body

def asn1Failure : Exn := .external "ASN1InputStream"

/-- The contents of an object with the given tag and a length of one byte,
and what stands behind it. -/
def readObject (tag : UInt8) : Bytes → Result (Bytes × Bytes)
  | b :: len :: rest =>
      if b = tag ∧ len.toNat < 128 ∧ len.toNat ≤ rest.length then
        .ok (rest.take len.toNat, rest.drop len.toNat)
      else .error asn1Failure
  | _ => .error asn1Failure

/-- The first two objects of a SEQUENCE, as INTEGERs. -/
def readDer (bytes : Bytes) : Result (Int × Int) := do
  let (sequence, _) ← readObject 0x30 bytes
  let (first, behind) ← readObject 0x02 sequence
  let (second, _) ← readObject 0x02 behind
  return (← BigInteger.ofBytes first, ← BigInteger.ofBytes second)

theorem readObject_append {tag : UInt8} {contents : Bytes} (h : contents.length < 128)
    (behind : Bytes) :
    readObject tag (tag :: UInt8.ofNat contents.length :: (contents ++ behind))
      = .ok (contents, behind) := by
  have hlen : (UInt8.ofNat contents.length).toNat = contents.length := by
    rw [UInt8.toNat_ofNat']
    omega
  rw [readObject, hlen, if_pos ⟨rfl, h, by simp⟩, List.take_left, List.drop_left]

theorem length_toByteArray_le {n : Nat} (h : n < 2 ^ 256) :
    (BigInteger.toByteArray n).length ≤ 33 := by
  have hbits : BigInteger.bitLength n ≤ 256 := BigInteger.bitLength_le.2 h
  rw [BigInteger.toByteArray_natCast, length_toBE]
  omega

theorem ofBE_toByteArray (n : Nat) : ofBE (BigInteger.toByteArray n) = n := by
  rw [BigInteger.toByteArray_natCast, ofBE_toBE (BigInteger.lt_toByteArray_width n)]

theorem ofBytes_toByteArray (n : Nat) :
    BigInteger.ofBytes (BigInteger.toByteArray n) = .ok (n : Int) := by
  have hvalue := ofBE_toByteArray n
  cases hbytes : BigInteger.toByteArray n with
  | nil =>
      have hlen := congrArg List.length hbytes
      rw [BigInteger.toByteArray_natCast, length_toBE] at hlen
      cases hlen
  | cons b bs =>
      rw [BigInteger.ofBytes, if_pos (BigInteger.head_toByteArray_lt hbytes), ← hbytes, hvalue]

/-- What is written is read. -/
theorem readDer_derSequence {r s : Nat} (hr : r < 2 ^ 256) (hs : s < 2 ^ 256) :
    readDer (derSequence r s) = .ok ((r : Int), (s : Int)) := by
  have hlr := length_toByteArray_le hr
  have hls := length_toByteArray_le hs
  have hbody : (derInteger r ++ derInteger s).length < 128 := by
    simp only [derInteger, List.length_append, List.length_cons]
    omega
  have hsequence := @readObject_append 0x30 _ hbody []
  have hfirst := @readObject_append 0x02 (BigInteger.toByteArray r)
    (Nat.lt_of_le_of_lt hlr (by decide)) (derInteger s)
  have hsecond := @readObject_append 0x02 (BigInteger.toByteArray s)
    (Nat.lt_of_le_of_lt hls (by decide)) []
  rw [List.append_nil] at hsequence hsecond
  rw [readDer, derSequence, hsequence, ok_bind]
  simp only
  rw [show derInteger r ++ derInteger s = 0x02 :: UInt8.ofNat (BigInteger.toByteArray r).length
    :: (BigInteger.toByteArray r ++ derInteger s) from rfl, hfirst, ok_bind]
  simp only
  rw [derInteger, hsecond, ok_bind]
  simp only
  rw [ofBytes_toByteArray, ofBytes_toByteArray]
  rfl

/-! ## The signature -/

/-- The platform answers `(r, s)` when `payload` is signed with `key`: the
two INTEGERs of the DER sequence it returns. -/
def Jca.Answers {PrivateKey : Type} (jca : Jca PrivateKey) (key : PrivateKey) (payload : Bytes)
    (r s : Int) : Prop :=
  ∃ der, jca.sign key payload = .ok der ∧ jca.readIntegers der = .ok (r, s)

section

variable {curve : Curve}

/-- The first number: the first coordinate of the nonce's point, modulo `N`. -/
noncomputable def signatureR (curve : Curve) (k : ZMod curve.N) : Nat :=
  (Curve.xOf (k.val • curve.G)).getD 0 % curve.N

/-- The second number, for a key and a hash. -/
noncomputable def signatureS (curve : Curve) (k : ZMod curve.N) (d e : Nat) : Nat :=
  (k⁻¹ * (e + signatureR curve k * d)).val

/-- The platform with the nonce `k`. A private key is its number, and of a
longer hash the first 32 bytes are signed. -/
noncomputable def textbookJca (curve : Curve) (k : ZMod curve.N)
    (blake2b : Nat → Bytes → Bytes) : Jca Nat where
  sign d digest :=
    let r := signatureR curve k
    let s := signatureS curve k d (ofBE (digest.take 32))
    if r = 0 ∨ s = 0 then .error (.external "SignatureException") else .ok (derSequence r s)
  readIntegers := readDer
  blake2b := blake2b
  sha256 := sha256

/-- `(r, s)` is the signature of the hash `e` with the key `d` and the nonce
`k`. -/
structure Draws (curve : Curve) (k : ZMod curve.N) (d e r s : Nat) : Prop where
  point : ∃ x, Curve.xOf (k.val • curve.G) = some x ∧ x % curve.N = r
  r_pos : 1 ≤ r
  s_pos : 1 ≤ s
  s_lt : s < curve.N
  equation : (s : ZMod curve.N) * k = e + r * d

variable {k : ZMod curve.N} {d e r s : Nat}

theorem Draws.nonce_ne_zero (h : Draws curve k d e r s) : k ≠ 0 := by
  rintro rfl
  obtain ⟨x, hx, -⟩ := h.point
  rw [ZMod.val_zero, zero_nsmul] at hx
  cases hx

theorem Draws.signatureR_eq (h : Draws curve k d e r s) : signatureR curve k = r := by
  obtain ⟨x, hx, hmod⟩ := h.point
  rw [signatureR, hx, Option.getD_some, hmod]

theorem Draws.signatureS_eq (h : Draws curve k d e r s) : signatureS curve k d e = s := by
  have hk := h.nonce_ne_zero
  have hs : k⁻¹ * ((e : ZMod curve.N) + r * d) = (s : ZMod curve.N) := by
    rw [← h.equation]
    field_simp
  rw [signatureS, h.signatureR_eq, hs, ZMod.val_natCast_of_lt h.s_lt]

theorem Draws.r_lt (h : Draws curve k d e r s) : r < curve.N := by
  obtain ⟨x, -, hmod⟩ := h.point
  rw [← hmod]
  exact Nat.mod_lt x curve.N_pos

/-- What it draws it answers. -/
theorem Draws.answers {digest : Bytes} (h : Draws curve k d (ofBE digest) r s)
    (hlength : digest.length = 32) (blake2b : Nat → Bytes → Bytes) :
    (textbookJca curve k blake2b).Answers d digest r s := by
  have hN : curve.N < 2 ^ 256 := by
    have := curve.N_lt
    rwa [show (256 : Nat) ^ 32 = 2 ^ 256 from (Nat.pow_mul 2 8 32).symm] at this
  have hr := h.r_pos
  have hs := h.s_pos
  have htake : digest.take 32 = digest := List.take_of_length_le (by omega)
  have hsign : (textbookJca curve k blake2b).sign d digest
      = if r = 0 ∨ s = 0 then .error (.external "SignatureException")
        else .ok (derSequence r s) := by
    rw [← h.signatureR_eq, ← h.signatureS_eq]
    simp only [textbookJca, htake]
  refine ⟨derSequence r s, ?_, readDer_derSequence (Nat.lt_trans h.r_lt hN)
    (Nat.lt_trans h.s_lt hN)⟩
  rw [hsign, if_neg (by omega)]

/-- And it verifies under the key's point. -/
theorem Draws.accepts (h : Draws curve k d e r s) :
    EcdsaScheme.Accepts curve.N Curve.xOf curve.G (d • curve.G) e r s := by
  obtain ⟨x, hx, hmod⟩ := h.point
  rw [← EcdsaScheme.nsmul_val_natCast curve.N_nsmul_G d]
  exact EcdsaScheme.accepts_sign curve.N_nsmul_G ⟨h.r_pos, h.r_lt⟩ ⟨h.s_pos, h.s_lt⟩ hx hmod
    h.equation

/-- With the nonce 1 the point is the base point. -/
theorem draws_one (hr : curve.Gx % curve.N = r) (hpos : 1 ≤ r) (hs : 1 ≤ s)
    (hmod : (e + r * d) % curve.N = s) : Draws curve 1 d e r s where
  point := by
    have hone : (1 : ZMod curve.N).val = 1 := by
      rw [← Nat.cast_one, ZMod.val_natCast_of_lt (by have := curve.two_lt_N; omega)]
    exact ⟨curve.Gx, by rw [hone, one_nsmul, Curve.xOf_G], hr⟩
  r_pos := hpos
  s_pos := hs
  s_lt := by
    rw [← hmod]
    exact Nat.mod_lt _ curve.N_pos
  equation := by
    rw [← hmod, ZMod.natCast_mod]
    push_cast
    ring

/-! ## The key store -/

/-- The two coordinates of a point. -/
def Curve.coordinates : curve.Point → Int × Int
  | .zero => (0, 0)
  | .some x y _ => (x.val, y.val)

/-- The private key `d` and its point. -/
noncomputable def textbookKeyPair (curve : Curve) (d : Nat) : KeyPair Nat where
  priv := d
  affineX := (Curve.coordinates (d • curve.G)).1
  affineY := (Curve.coordinates (d • curve.G)).2

/-- A key store that holds this pair alone. -/
noncomputable def textbookKeyStore (curve : Curve) (d : Nat) : KeyStore Nat where
  containsAlias _ := true
  getEntry _ := .ok (textbookKeyPair curve d)
  getCertificate _ := .ok (Curve.coordinates (d • curve.G))
  generateKeyPair _ := .ok (textbookKeyPair curve d)

theorem getOrCreateKeyPair_textbook (curve : Curve) (d : Nat) :
    P256.getOrCreateKeyPair (textbookKeyStore curve d) = .ok (textbookKeyPair curve d) := rfl

theorem getEntry_textbook (curve : Curve) (d : Nat) (keyAlias : String) :
    (textbookKeyStore curve d).getEntry keyAlias = .ok (textbookKeyPair curve d) := rfl

end

end DataProcessor
