import DataProcessor.Model.TezosProvider
import DataProcessor.Proofs.PublicKeys
import DataProcessor.Proofs.SignatureWidth

/-!
# Whether the provider accepts its own signatures (`CryptoLegacy.Tezos`)

The platform signs in DER and verifies in DER. `signEC` takes the DER apart
and answers the two numbers one behind the other, and `verifyEC` does not
put it together again: what the platform is asked to verify are the bare
bytes of `r` and `s`. They are never the DER of `(r, s)`, which is longer,
and are that of another valid pair only by accident: when `r` and `s` are
the two parts of one number, `Spells`. `acceptsOwn_iff` is this condition,
for every pair and both curves. On secp256k1 there are keys and messages
that meet it, `own_signature_accepted`.
-/

namespace DataProcessor

open Lib

/-! ## The two forms of a pair -/

/-- The bytes of a number that has no leading zeros. -/
def byteSize (n : Nat) : Nat := (BigInteger.bitLength n + 7) / 8

theorem lt_byteSize (n : Nat) : n < 256 ^ byteSize n := by
  have h : n < 2 ^ (8 * byteSize n) := BigInteger.bitLength_le.1 (by rw [byteSize]; omega)
  rwa [Nat.pow_mul] at h

theorem le_of_byteSize {n w : Nat} (h : byteSize n = w + 1) : 256 ^ w ≤ n := by
  by_contra hlt
  have hbits : BigInteger.bitLength n ≤ 8 * w :=
    BigInteger.bitLength_le.2 (by rw [Nat.pow_mul]; exact Nat.lt_of_not_le hlt)
  rw [byteSize] at h
  omega

theorem dropZeros_toBE_byteSize (n : Nat) :
    dropZeros (toBE (byteSize n) n) = toBE (byteSize n) n := by
  have hlt := lt_byteSize n
  cases hsize : byteSize n with
  | zero => rfl
  | succ w =>
      rw [hsize] at hlt
      exact dropZeros_toBE_full (le_of_byteSize hsize) hlt

theorem trim_toByteArray_byteSize (n : Nat) :
    trim (BigInteger.toByteArray n) = toBE (byteSize n) n := by
  rw [trim_eq, BigInteger.toByteArray_natCast, ← dropZeros_toBE_byteSize n]
  exact dropZeros_toBE_width (BigInteger.lt_toByteArray_width n) (lt_byteSize n)

theorem dropZeros_trimmed (r s : Nat) : dropZeros (trimmed r s) = trimmed r s := by
  rw [trimmed, trim_eq, trim_eq]
  exact dropZeros_append _ _

theorem ofBE_trimmed (r s : Nat) : ofBE (trimmed r s) = r * 256 ^ byteSize s + s := by
  rw [trimmed, trim_toByteArray_byteSize, trim_toByteArray_byteSize, ofBE_append, length_toBE,
    ofBE_toBE (lt_byteSize r), ofBE_toBE (lt_byteSize s)]

/-- The number the bytes of a SEQUENCE make, from the right: `s` in `b`
bytes, its length and tag, `r` in `a` bytes, its length and tag, and those
of the whole. -/
def derNumber (r s : Nat) : Nat :=
  let a := Ecdsa.minWidth r
  let b := Ecdsa.minWidth s
  s + b * 256 ^ b + 0x02 * 256 ^ (b + 1) + r * 256 ^ (b + 2) + a * 256 ^ (a + b + 2)
    + 0x02 * 256 ^ (a + b + 3) + (a + b + 4) * 256 ^ (a + b + 4) + 0x30 * 256 ^ (a + b + 5)

/-- `r` and `s` are the parts of that number, cut where `s` begins. -/
def Spells (r s r' s' : Nat) : Prop :=
  r = derNumber r' s' / 256 ^ byteSize s ∧ s = derNumber r' s' % 256 ^ byteSize s

theorem toNat_length {n : Nat} (h : n < 256) : (UInt8.ofNat n).toNat = n := by
  rw [UInt8.toNat_ofNat']
  omega

theorem ofBE_derSequence {r s : Nat} (hr : r < 256 ^ 32) (hs : s < 256 ^ 32) :
    ofBE (derSequence r s) = derNumber r s := by
  have ha := Ecdsa.minWidth_le hr
  have hb := Ecdsa.minWidth_le hs
  have hbytes : ∀ n : Nat, BigInteger.toByteArray n = toBE (Ecdsa.minWidth n) n :=
    BigInteger.toByteArray_natCast
  simp only [derSequence, derInteger, hbytes, ofBE_cons, ofBE_append, List.length_cons,
    List.length_append, length_toBE, ofBE_toBE (Ecdsa.lt_minWidth _)]
  rw [toNat_length (by omega), toNat_length (by omega), toNat_length (by omega), derNumber]
  generalize Ecdsa.minWidth r = a
  generalize Ecdsa.minWidth s = b
  simp only [UInt8.reduceToNat]
  ring

theorem derSequence_eq_iff {r s r' s' : Nat} (hr : r' < 256 ^ 32) (hs : s' < 256 ^ 32) :
    trimmed r s = derSequence r' s' ↔ Spells r s r' s' := by
  have hlt := lt_byteSize s
  have hpos : 0 < 256 ^ byteSize s := Nat.zero_lt_of_lt hlt
  rw [Spells, ← ofBE_derSequence hr hs]
  constructor
  · intro h
    rw [← h, ofBE_trimmed, Nat.mul_comm r, Nat.mul_add_div hpos, Nat.div_eq_of_lt hlt,
      Nat.mul_add_mod, Nat.mod_eq_of_lt hlt]
    exact ⟨rfl, rfl⟩
  · intro hgiven
    obtain ⟨hquotient, hremainder⟩ := hgiven
    refine eq_of_dropZeros (dropZeros_trimmed r s) (dropZeros_cons (by decide) _) ?_
    rw [ofBE_trimmed]
    calc r * 256 ^ byteSize s + s
        = 256 ^ byteSize s * (ofBE (derSequence r' s') / 256 ^ byteSize s)
          + ofBE (derSequence r' s') % 256 ^ byteSize s := by
            rw [← hquotient, ← hremainder, Nat.mul_comm]
      _ = ofBE (derSequence r' s') := Nat.div_add_mod _ _

/-- Its own DER is longer than the two numbers. -/
theorem not_spells_self {r s : Nat} (hr : r < 256 ^ 32) (hs : s < 256 ^ 32) :
    ¬ Spells r s r s := by
  rw [← derSequence_eq_iff hr hs]
  intro h
  have hlength := congrArg List.length h
  rw [trimmed, trim_eq, trim_eq, List.length_append] at hlength
  simp only [derSequence, derInteger, List.length_cons, List.length_append] at hlength
  have hle := length_dropZeros_le (BigInteger.toByteArray r)
  have hle' := length_dropZeros_le (BigInteger.toByteArray s)
  omega

namespace CryptoLegacy.Tezos

/-- The curve a name stands for. -/
def ECCurve.group : ECCurve → Curve
  | .Secp256K1 => .SECP_256_K1
  | .Secp256R1 => .SECP_256_R1

theorem bitLength_N (curve : ECCurve) : BigInteger.bitLength (curve.group.N : Int) / 8 = 32 := by
  have hbounds : curve.group.N < 2 ^ 256 ∧ ¬ curve.group.N < 2 ^ 255 := by
    cases curve <;> decide
  rw [← BigInteger.bitLength_le, ← BigInteger.bitLength_le] at hbounds
  omega

theorem P_lt (curve : ECCurve) : curve.group.P < 256 ^ 32 := by
  cases curve <;> decide

variable {PrivateKey PublicKey ParameterSpec : Type} {jca : Jca PrivateKey}
  {provider : EcProvider PrivateKey PublicKey ParameterSpec}

/-- The platform's ECDSA: both curves are there under their names, a point of
the curve is a public key, and of a message of 32 bytes exactly the DER
SEQUENCEs of the textbook's pairs verify. -/
def Standard (provider : EcProvider PrivateKey PublicKey ParameterSpec) : Prop :=
  ∀ curve : ECCurve, ∃ params, ecParams provider curve = .ok params ∧
    provider.order params = curve.group.N ∧
    ∀ X Y h, ∃ publicKey,
      provider.generatePublic (X.val : Nat) (Y.val : Nat) params = .ok publicKey ∧
      ∀ message signature, message.length = 32 →
        (provider.verify publicKey message signature = .ok true ↔
          ∃ r s, signature = derSequence r s ∧
            EcdsaScheme.Accepts curve.group.N Curve.xOf curve.group.G
              (.some X Y h : curve.group.Point) (ofBE message) r s)

/-- Asked to sign the message, the platform draws the pair `(r, s)`. -/
def Signs (jca : Jca PrivateKey) (provider : EcProvider PrivateKey PublicKey ParameterSpec)
    (curve : ECCurve) (message secretKey : Bytes) (r s : Nat) : Prop :=
  ∃ privateKey, toECPrivateKey provider secretKey curve = .ok privateKey ∧
    jca.Answers privateKey message r s

/-- What one side signs the other accepts. -/
def AcceptsOwn (jca : Jca PrivateKey) (provider : EcProvider PrivateKey PublicKey ParameterSpec)
    (message secretKey publicKey : Bytes) : ECCurve → Prop
  | .Secp256K1 => ∀ signature, signSecp256K1 jca provider message secretKey = .ok signature →
      verifySecp256K1 provider message signature publicKey = .ok true
  | .Secp256R1 => ∀ signature, signP256 jca provider message secretKey = .ok signature →
      verifyP256 provider message signature publicKey = .ok true

theorem acceptsOwn_def (message secretKey publicKey : Bytes) (curve : ECCurve) :
    AcceptsOwn jca provider message secretKey publicKey curve ↔
      ∀ signature, signEC jca provider message secretKey curve = .ok signature →
        verifyEC provider message signature publicKey curve = .ok true := by
  cases curve <;> exact Iff.rfl

theorem signEC_of_signs {curve : ECCurve} {message secretKey : Bytes} {r s : Nat}
    (h : Signs jca provider curve message secretKey r s) :
    signEC jca provider message secretKey curve = .ok (trimmed r s) := by
  obtain ⟨privateKey, hkey, hanswers⟩ := h
  rw [signEC, hkey]
  exact ecSign_of_answers hanswers

theorem toECPoint_eq {params : ParameterSpec} {curve : ECCurve} {x y : Nat}
    (horder : provider.order params = curve.group.N) (hx : x < 256 ^ 32) (hy : y < 256 ^ 32) :
    toECPoint provider (toBE 32 x ++ toBE 32 y) params = .ok (x, y) := by
  have hlength : (toBE 32 x ++ toBE 32 y).length = 64 := by
    rw [List.length_append, length_toBE, length_toBE]
  rw [toECPoint, horder, bitLength_N, sliceUntil_take (by decide) (by omega),
    sliceUntil_drop (by omega), List.take_left' (length_toBE 32 x),
    List.drop_left' (length_toBE 32 x)]
  simp only [bind, Except.bind, pure, Except.pure, ofBE_toBE hx, ofBE_toBE hy]

section

variable {curve : ECCurve} {X Y : curve.group.Coordinate}
  {h : (shortCurve (curve.group.A : curve.group.Coordinate)
    (curve.group.B : curve.group.Coordinate)).Nonsingular X Y}
  {message secretKey : Bytes} {r s : Nat}

theorem verifyEC_iff (hstandard : Standard provider) (hmessage : message.length = 32)
    (signature : Bytes) :
    verifyEC provider message signature (toBE 32 X.val ++ toBE 32 Y.val) curve = .ok true ↔
      ∃ r s, signature = derSequence r s ∧
        EcdsaScheme.Accepts curve.group.N Curve.xOf curve.group.G
          (.some X Y h : curve.group.Point) (ofBE message) r s := by
  obtain ⟨params, hparams, horder, hpublic⟩ := hstandard curve
  obtain ⟨publicKey, hgenerate, hverify⟩ := hpublic X Y h
  have hX : X.val < 256 ^ 32 := Nat.lt_trans (ZMod.val_lt X) (P_lt curve)
  have hY : Y.val < 256 ^ 32 := Nat.lt_trans (ZMod.val_lt Y) (P_lt curve)
  have hkey : toECPublicKey provider (toBE 32 X.val ++ toBE 32 Y.val) curve
      = .ok publicKey := by
    rw [toECPublicKey, hparams, ok_bind, toECPoint_eq horder hX hY, ok_bind]
    exact hgenerate
  rw [verifyEC, hkey, ← hverify message signature hmessage]
  rfl

theorem acceptsOwn_iff_sequence (hstandard : Standard provider)
    (hkey : ofBE secretKey • curve.group.G = .some X Y h) (hmessage : message.length = 32)
    (hsigns : Signs jca provider curve message secretKey r s) :
    AcceptsOwn jca provider message secretKey (toBE 32 X.val ++ toBE 32 Y.val) curve ↔
      ∃ r' s', trimmed r s = derSequence r' s' ∧
        EcdsaScheme.Accepts curve.group.N Curve.xOf curve.group.G
          (ofBE secretKey • curve.group.G) (ofBE message) r' s' := by
  rw [acceptsOwn_def, signEC_of_signs hsigns, hkey, ← verifyEC_iff hstandard hmessage]
  constructor
  · exact fun hall => hall _ rfl
  · intro hverify signature hsignature
    injection hsignature with hsignature
    rw [← hsignature]
    exact hverify

/-- The provider accepts the signature it made of `(r, s)` exactly when the
two numbers spell another valid pair. -/
theorem acceptsOwn_iff (hstandard : Standard provider)
    (hkey : ofBE secretKey • curve.group.G = .some X Y h) (hmessage : message.length = 32)
    (hsigns : Signs jca provider curve message secretKey r s) :
    AcceptsOwn jca provider message secretKey (toBE 32 X.val ++ toBE 32 Y.val) curve ↔
      ∃ r' s', Spells r s r' s' ∧
        EcdsaScheme.Accepts curve.group.N Curve.xOf curve.group.G
          (ofBE secretKey • curve.group.G) (ofBE message) r' s' := by
  rw [acceptsOwn_iff_sequence hstandard hkey hmessage hsigns]
  refine exists_congr fun r' => exists_congr fun s' => and_congr_left fun haccepts => ?_
  obtain ⟨-, hr, -, hs, -⟩ := haccepts
  exact derSequence_eq_iff (Nat.lt_trans hr curve.group.N_lt) (Nat.lt_trans hs curve.group.N_lt)

end

/-! ## The private key 1

With the nonce 1 the key 1 signs the message 0 by twice the first coordinate
of the base point. -/

/-- The textbook's answer for a public key by its curve and coordinates. -/
def TextbookVerifies (publicKey : ECCurve × Int × Int) (message signature : Bytes) : Prop :=
  ∃ X Y h r s, publicKey.2 = ((X.val : Int), (Y.val : Int)) ∧ signature = derSequence r s ∧
    EcdsaScheme.Accepts publicKey.1.group.N Curve.xOf publicKey.1.group.G
      (.some X Y h : publicKey.1.group.Point) (ofBE message) r s

open Classical in
/-- Keys are what they are made of, and the textbook verifies. -/
noncomputable def textbookProvider : EcProvider Nat (ECCurve × Int × Int) ECCurve where
  getParameterSpec stdName :=
    if stdName = ECCurve.stdName .Secp256K1 then .ok .Secp256K1
    else if stdName = ECCurve.stdName .Secp256R1 then .ok .Secp256R1
    else .error (.external "InvalidParameterSpecException")
  order curve := curve.group.N
  generatePrivate d _ := .ok d.toNat
  generatePublic x y curve := .ok (curve, x, y)
  verify publicKey message signature :=
    .ok (decide (TextbookVerifies publicKey message signature))

theorem ecParams_textbook (curve : ECCurve) : ecParams textbookProvider curve = .ok curve := by
  cases curve <;> rfl

theorem verify_textbook (publicKey : ECCurve × Int × Int) (message signature : Bytes) :
    textbookProvider.verify publicKey message signature = .ok true ↔
      TextbookVerifies publicKey message signature := by
  simp [textbookProvider]

theorem standard_textbook : Standard textbookProvider := by
  intro curve
  refine ⟨curve, ecParams_textbook curve, rfl, fun X Y h => ⟨(curve, X.val, Y.val), rfl, ?_⟩⟩
  intro message signature _
  rw [verify_textbook]
  constructor
  · intro hgiven
    obtain ⟨X', Y', h', r, s, hpoint, hspells, haccepts⟩ := hgiven
    have hX : X = X' := ZMod.val_injective _ (Int.ofNat.inj (congrArg Prod.fst hpoint))
    have hY : Y = Y' := ZMod.val_injective _ (Int.ofNat.inj (congrArg Prod.snd hpoint))
    subst hX hY
    exact ⟨r, s, hspells, haccepts⟩
  · intro hgiven
    obtain ⟨r, s, hspells, haccepts⟩ := hgiven
    exact ⟨X, Y, h, r, s, rfl, hspells, haccepts⟩

theorem toECPrivateKey_textbook (curve : ECCurve) (bytes : Bytes) :
    toECPrivateKey textbookProvider bytes curve = .ok (ofBE bytes) := by
  rw [toECPrivateKey, ecParams_textbook]
  rfl

/-- Beside it signs the textbook's platform. -/
theorem signs_textbook {curve : ECCurve} {k : ZMod curve.group.N} {message secretKey : Bytes}
    {r s : Nat} (hmessage : message.length = 32)
    (h : Draws curve.group k (ofBE secretKey) (ofBE message) r s)
    (blake2b : Nat → Bytes → Bytes) :
    Signs (textbookJca curve.group k blake2b) textbookProvider curve message secretKey r s :=
  ⟨ofBE secretKey, toECPrivateKey_textbook curve secretKey, h.answers hmessage blake2b⟩

theorem draws_base (curve : ECCurve) : Draws curve.group 1 (ofBE (toBE 32 1)) (ofBE (toBE 32 0))
    curve.group.Gx curve.group.Gx := by
  have hGx : 1 ≤ curve.group.Gx ∧ curve.group.Gx % curve.group.N = curve.group.Gx := by
    cases curve <;> decide
  refine draws_one hGx.2 hGx.1 hGx.1 ?_
  rw [ofBE_toBE (by decide), ofBE_toBE (by decide), Nat.mul_one, Nat.zero_add, hGx.2]

theorem key_one (curve : ECCurve) : ofBE (toBE 32 1) • curve.group.G = curve.group.G := by
  rw [ofBE_toBE (by decide), one_nsmul]

/-- The coordinate does not begin with the tag of a SEQUENCE. -/
theorem trimmed_base_ne (curve : ECCurve) (r s : Nat) :
    trimmed curve.group.Gx curve.group.Gx ≠ derSequence r s := by
  intro h
  have hbounds : 2 ^ 248 ≤ curve.group.Gx ∧ curve.group.Gx < 2 ^ 256 := by
    cases curve <;> decide
  have hhead : (toBE 32 curve.group.Gx ++ toBE 32 curve.group.Gx).head? ≠ some 0x30 := by
    cases curve <;> decide
  rw [trimmed_full hbounds.1 hbounds.2 hbounds.1 hbounds.2, fixedWidth] at h
  rw [h] at hhead
  exact hhead rfl

/-- The platform answers a valid signature of 32 zero bytes, and the provider
does not accept what it makes of it. -/
def RefusesBase (curve : ECCurve) : Prop :=
  Signs (baseJca curve.group) textbookProvider curve (toBE 32 0) (toBE 32 1)
      curve.group.Gx curve.group.Gx ∧
    EcdsaScheme.Accepts curve.group.N Curve.xOf curve.group.G
      (ofBE (toBE 32 1) • curve.group.G) (ofBE (toBE 32 0)) curve.group.Gx curve.group.Gx ∧
    ¬ AcceptsOwn (baseJca curve.group) textbookProvider (toBE 32 0) (toBE 32 1)
      (toBE 32 curve.group.Gx ++ toBE 32 curve.group.Gy) curve

theorem refusesBase (curve : ECCurve) : RefusesBase curve := by
  have hsigns := signs_textbook (length_toBE 32 0) (draws_base curve) fun _ _ => emptyBlake2b
  refine ⟨hsigns, (draws_base curve).accepts, ?_⟩
  have hsequence := @acceptsOwn_iff_sequence _ _ _ _ _ curve _ _ _ _ _ _ _ standard_textbook
    (key_one curve) (length_toBE 32 0) hsigns
  rw [(Curve.base_val _).1, (Curve.base_val _).2] at hsequence
  show ¬ AcceptsOwn (textbookJca curve.group 1 _) textbookProvider _ _ _ curve
  rw [hsequence]
  intro hgiven
  obtain ⟨r, s, h, -⟩ := hgiven
  exact trimmed_base_ne curve r s h

theorem own_signature_refused :
    Standard textbookProvider ∧ RefusesBase .Secp256K1 ∧ RefusesBase .Secp256R1 :=
  ⟨standard_textbook, refusesBase .Secp256K1, refusesBase .Secp256R1⟩

/-! ## A signature that is accepted

A first coordinate on secp256k1 that begins as a SEQUENCE does, an `s` that
ends it, and a key and a message for which both this pair and the one it
spells are valid: two linear equations. The nonces are the two points'
logarithms, which exist, since every point is a multiple of the base point,
and are not known. -/

/-- The logarithm of a point. -/
noncomputable def logOf (Q : Curve.Point .SECP_256_K1) : ZMod (Curve.N .SECP_256_K1) :=
  ((AddSubgroup.mem_zmultiples_iff.1 (Curve.mem_zmultiples_G Q)).choose : Int)

theorem logOf_smul (Q : Curve.Point .SECP_256_K1) :
    (logOf Q).val • Curve.G .SECP_256_K1 = Q := by
  rw [logOf, EcdsaScheme.zsmul_eq (Curve.N_nsmul_G _)]
  exact (AddSubgroup.mem_zmultiples_iff.1 (Curve.mem_zmultiples_G Q)).choose_spec

/-- `30 25 02 01 01 02 20 01`, and the rest of its 32 bytes. -/
def spelledR : Nat := 0x3025020101022001000000000000000000000000000000000000000000000001

def spelledS : Nat := 0x01000000000000

/-- The pair they spell. -/
def innerR : Nat := 1

def innerS : Nat := 0x0100000000000000000000000000000000000000000000000101000000000000

theorem spells_inner : Spells spelledR spelledS innerR innerS := by
  constructor <;> decide

def spelledY : Nat :=
  44573244250101474386659247242383153291182617925210519799707373596172009509440

def innerY : Nat :=
  29896722852569046015560700294576055776214335159245303116488692907525646231534

theorem equation_of_mod {x y : Nat}
    (h : y ^ 2 % Curve.P .SECP_256_K1
      = (x ^ 3 + Curve.A .SECP_256_K1 * x + Curve.B .SECP_256_K1) % Curve.P .SECP_256_K1) :
    (y : Curve.Coordinate .SECP_256_K1) ^ 2
      = x ^ 3 + Curve.A .SECP_256_K1 * x + Curve.B .SECP_256_K1 := by
  exact_mod_cast (ZMod.natCast_eq_natCast_iff' _ _ _).2 h

def spelledPoint : Curve.Point .SECP_256_K1 :=
  .some _ _ (Curve.nonsingular_of_equation
    (equation_of_mod (x := spelledR) (y := spelledY) (by decide)))

def innerPoint : Curve.Point .SECP_256_K1 :=
  .some _ _ (Curve.nonsingular_of_equation
    (equation_of_mod (x := innerR) (y := innerY) (by decide)))

noncomputable def spelledNonce : ZMod (Curve.N .SECP_256_K1) := logOf spelledPoint

/-- Of the two points above `innerR` the one that does not make the key zero. -/
noncomputable def innerNonce : ZMod (Curve.N .SECP_256_K1) :=
  if spelledNonce * spelledS = logOf innerPoint * innerS then -logOf innerPoint
  else logOf innerPoint

noncomputable def spelledKey : ZMod (Curve.N .SECP_256_K1) :=
  (spelledNonce * spelledS - innerNonce * innerS)
    * ((spelledR : ZMod (Curve.N .SECP_256_K1)) - innerR)⁻¹

noncomputable def spelledHash : ZMod (Curve.N .SECP_256_K1) :=
  spelledNonce * spelledS - spelledR * spelledKey

theorem xOf_inner : Curve.xOf (innerNonce.val • Curve.G .SECP_256_K1) = some innerR := by
  have hx : Curve.xOf innerPoint = some innerR :=
    congrArg some (ZMod.val_natCast_of_lt (by decide))
  rw [innerNonce]
  split
  · rw [EcdsaScheme.neg_smul (Curve.N_nsmul_G _), Curve.xOf_neg, logOf_smul, hx]
  · rw [logOf_smul, hx]

theorem innerNonce_ne_zero : innerNonce ≠ 0 := by
  intro h
  have hx := xOf_inner
  rw [h, ZMod.val_zero, zero_nsmul] at hx
  cases hx

theorem cast_ne_zero {n : Nat} (hpos : 0 < n) (hlt : n < Curve.N .SECP_256_K1) :
    (n : ZMod (Curve.N .SECP_256_K1)) ≠ 0 :=
  Curve.natCast_ne_zero (Nat.not_dvd_of_pos_of_lt hpos hlt)

theorem spelledR_sub_ne_zero : (spelledR : ZMod (Curve.N .SECP_256_K1)) - innerR ≠ 0 := by
  rw [← Nat.cast_sub (by decide)]
  exact cast_ne_zero (by decide) (by decide)

theorem spelledKey_ne_zero : spelledKey ≠ 0 := by
  refine mul_ne_zero (sub_ne_zero.2 fun heq => ?_) (inv_ne_zero spelledR_sub_ne_zero)
  have hinner := innerNonce_ne_zero
  rw [innerNonce] at heq hinner
  split at heq
  · next hsame =>
      -- Then the other point's nonce would be its own negative.
      rw [if_pos hsame] at hinner
      rw [hsame, neg_mul, eq_neg_iff_add_eq_zero, ← two_mul] at heq
      have htwo : (2 : ZMod (Curve.N .SECP_256_K1)) ≠ 0 := by
        exact_mod_cast cast_ne_zero (n := 2) (by decide) (by decide)
      have hs := cast_ne_zero (n := innerS) (by decide) (by decide)
      exact mul_ne_zero htwo (mul_ne_zero (neg_ne_zero.1 hinner) hs) heq
  · next hother => exact hother heq

/-- The equation of a signature, solved for the hash. -/
theorem sign_equation {n : Nat} [NeZero n] (k d : ZMod n) (r s : Nat) :
    (s : ZMod n) * k = ((k * s - r * d).val : ZMod n) + r * (d.val : ZMod n) := by
  rw [ZMod.natCast_zmod_val, ZMod.natCast_zmod_val]
  ring

/-- A second signature of that hash, for the key that solves both equations. -/
theorem sign_equation_of_key {n : Nat} [NeZero n] {k k' d : ZMod n} {r s r' s' : Nat}
    (h : d * ((r : ZMod n) - r') = k * s - k' * s') :
    (s' : ZMod n) * k' = ((k * s - r * d).val : ZMod n) + r' * (d.val : ZMod n) := by
  rw [ZMod.natCast_zmod_val, ZMod.natCast_zmod_val]
  linear_combination h

theorem draws_spelled :
    Draws .SECP_256_K1 spelledNonce spelledKey.val spelledHash.val spelledR spelledS where
  point := by
    refine ⟨spelledR, ?_, by decide⟩
    rw [spelledNonce, logOf_smul]
    exact congrArg some (ZMod.val_natCast_of_lt (by decide))
  r_pos := by decide
  s_pos := by decide
  s_lt := by decide
  equation := by
    rw [spelledHash]
    exact sign_equation spelledNonce spelledKey spelledR spelledS

theorem draws_inner :
    Draws .SECP_256_K1 innerNonce spelledKey.val spelledHash.val innerR innerS where
  point := ⟨innerR, xOf_inner, by decide⟩
  r_pos := by decide
  s_pos := by decide
  s_lt := by decide
  equation := by
    have hkey : spelledKey * ((spelledR : ZMod (Curve.N .SECP_256_K1)) - innerR)
        = spelledNonce * spelledS - innerNonce * innerS := by
      rw [spelledKey, mul_assoc, inv_mul_cancel₀ spelledR_sub_ne_zero, mul_one]
    rw [spelledHash]
    exact sign_equation_of_key hkey

theorem own_signature_accepted :
    ∃ X Y h, spelledKey.val • Curve.G .SECP_256_K1 = .some X Y h ∧
      AcceptsOwn (textbookJca .SECP_256_K1 spelledNonce fun _ _ => emptyBlake2b)
        textbookProvider (toBE 32 spelledHash.val) (toBE 32 spelledKey.val)
        (toBE 32 X.val ++ toBE 32 Y.val) .Secp256K1 ∧
      ∃ r' s', Spells spelledR spelledS r' s' ∧
        EcdsaScheme.Accepts (Curve.N .SECP_256_K1) Curve.xOf (Curve.G .SECP_256_K1)
          (ofBE (toBE 32 spelledKey.val) • Curve.G .SECP_256_K1)
          (ofBE (toBE 32 spelledHash.val)) r' s' := by
  have hN := Curve.N_lt .SECP_256_K1
  have hkey : ofBE (toBE 32 spelledKey.val) = spelledKey.val :=
    ofBE_toBE (Nat.lt_trans (ZMod.val_lt _) hN)
  have hhash : ofBE (toBE 32 spelledHash.val) = spelledHash.val :=
    ofBE_toBE (Nat.lt_trans (ZMod.val_lt _) hN)
  have hspelled := draws_spelled
  rw [← hkey, ← hhash] at hspelled
  have hcondition : ∃ r' s', Spells spelledR spelledS r' s' ∧
      EcdsaScheme.Accepts (Curve.N .SECP_256_K1) Curve.xOf (Curve.G .SECP_256_K1)
        (ofBE (toBE 32 spelledKey.val) • Curve.G .SECP_256_K1)
        (ofBE (toBE 32 spelledHash.val)) r' s' := by
    refine ⟨innerR, innerS, spells_inner, ?_⟩
    rw [hkey, hhash]
    exact draws_inner.accepts
  have hsigns := @signs_textbook .Secp256K1 _ _ _ _ _ (length_toBE 32 _) hspelled
    fun _ _ => emptyBlake2b
  cases hQ : spelledKey.val • Curve.G .SECP_256_K1 with
  | zero =>
      have hdvd := addOrderOf_dvd_of_nsmul_eq_zero hQ
      rw [Curve.addOrderOf_G] at hdvd
      exact absurd (Nat.eq_zero_of_dvd_of_lt hdvd (ZMod.val_lt _))
        (mt (ZMod.val_eq_zero _).1 spelledKey_ne_zero)
  | some X Y h =>
      have hkeyPoint : ofBE (toBE 32 spelledKey.val) • Curve.G .SECP_256_K1 = .some X Y h := by
        rw [hkey, hQ]
      have hmessage : (toBE 32 spelledHash.val).length = 32 := length_toBE 32 _
      have hiff := @acceptsOwn_iff _ _ _ _ _ .Secp256K1 X Y h _ (toBE 32 spelledKey.val) _ _
        standard_textbook hkeyPoint hmessage hsigns
      exact ⟨X, Y, h, rfl, hiff.2 hcondition, hcondition⟩

end CryptoLegacy.Tezos

end DataProcessor
